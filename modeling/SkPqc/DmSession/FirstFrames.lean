import SkPqc.DmSession.OneWay
import SkPqc.Idealised

/-!
# The frames of an epoch

A seal that begins an epoch wraps a fresh secret, installs it, and sends frame
zero of the epoch with the KAM. Below the message bound, and while the epoch is young,
the next seals send the next frames of it (`exists_sent_later`). A session whose message
bound is at most one begins an epoch at every call. So such runs are known step by step,
and they are the runs on which the results about sessions are tried.
-/

set_option autoImplicit false

namespace SkPqc

open Library Kem HybridBox Ratchet Idealised

namespace DmSession

/-- The next seal begins the epoch, whatever the clock reads. -/
def Due (build : Build) (session : DmSession) (epoch : UInt64) : Prop :=
  ∀ now : Rat, (session.beginAt build now : Outcome DmSessionError (Option UInt64)) =
    .ok (some epoch)

/-- The first frame of an epoch. -/
def firstFrame (epoch : UInt64) (draws : SealDraws) (kam body : Bytes) : SealedDmFrame where
  epoch := epoch
  index := 0
  nonce := draws.frameNonce.val
  body := body
  kam := some kam

/-- The session after it sent the first frame of an epoch. -/
def afterFirst (session : DmSession) (epoch : UInt64) (draws : SealDraws) (kam : Bytes) :
    DmSession :=
  (session.begun epoch draws.epochSecret kam draws.startedAt).advanced
    (DmRatchet.withBounds epoch draws.epochSecret session.rekeyMsgBound session.rekeyAgeSeconds
      draws.startedAt)

section

variable {P : Primitives} {build : Build} {session : DmSession} {epoch : UInt64}
  {draws : SealDraws} {kam body : Bytes}

theorem due_withBounds (build : Build) (peer : String) (rekeyMsgBound rekeyAgeSeconds : UInt64) :
    Due build (withBounds peer rekeyMsgBound rekeyAgeSeconds) 0 :=
  fun now => beginAt_of_ratchet_none build now rfl

@[simp] theorem getElem?_afterFirst_self (session : DmSession) (epoch : UInt64)
    (draws : SealDraws) (kam : Bytes) :
    (session.afterFirst epoch draws kam).epochSecrets[epoch]? = some draws.epochSecret :=
  getElem?_begun_self session epoch draws.epochSecret kam draws.startedAt

/-- Sealing when an epoch is due. -/
theorem run_seal_of_due (due : Due build session epoch) {plaintext peerHybridPub : Bytes}
    (wrapped : wrapDmEpochSecret P draws.epochSecret.val peerHybridPub draws.wrap = .ok kam)
    (encrypted : P.aeadEncrypt (messageKey P draws.epochSecret epoch 0) draws.frameNonce
      (frameAad epoch 0) plaintext = some body) :
    (DmSession.seal P build plaintext peerHybridPub draws).run session =
      (.ok (firstFrame epoch draws kam body), session.afterFirst epoch draws kam) := by
  have key : Keyed P build session peerHybridPub draws _ _ := .fresh (due draws.now) wrapped
  rw [run_seal_of_keyed key, run_sealNext plaintext draws key.ratchet_eq key.room]
  simp only [DmRatchet.withBounds, encrypted]
  rfl

/-- A seal within an epoch. -/
theorem run_seal_of_young {ratchet : DmRatchet} {plaintext : Bytes}
    (holds : session.ratchet = some ratchet) (young : ratchet.shouldRekey draws.now = false)
    (encrypted : P.aeadEncrypt (messageKey P ratchet.epochSecret ratchet.epoch
      ratchet.messageIndex) draws.frameNonce (frameAad ratchet.epoch ratchet.messageIndex)
      plaintext = some body) (peerHybridPub : Bytes) :
    (DmSession.seal P build plaintext peerHybridPub draws).run session =
      (.ok
        { epoch := ratchet.epoch
          index := ratchet.messageIndex
          nonce := draws.frameNonce.val
          body := body
          kam := if ratchet.messageIndex < kamRepeat then session.currentKam else none },
      session.advanced ratchet) := by
  have key : Keyed P build session peerHybridPub draws session ratchet := .current holds young
  rw [run_seal_of_keyed key, run_sealNext plaintext draws holds key.room, encrypted]

/-- The session after the frames of an epoch up to an index. -/
def afterFrames (session : DmSession) (epoch : UInt64) (draws : SealDraws) (kam : Bytes)
    (index : UInt64) : DmSession :=
  { session.begun epoch draws.epochSecret kam draws.startedAt with
    ratchet := some
      { DmRatchet.withBounds epoch draws.epochSecret session.rekeyMsgBound
          session.rekeyAgeSeconds draws.startedAt with messageIndex := index } }

theorem afterFirst_eq_afterFrames (session : DmSession) (epoch : UInt64) (draws : SealDraws)
    (kam : Bytes) : session.afterFirst epoch draws kam = session.afterFrames epoch draws kam 1 :=
  rfl

/-- When the message bound is reached, the next epoch is due. -/
theorem due_afterFrames {index : UInt64} (reached : session.rekeyMsgBound ≤ index)
    (room : build.overflowChecks = true → epoch.toNat + 1 < 2 ^ 64) :
    Due build (session.afterFrames epoch draws kam index) (epoch + 1) := by
  intro now
  have due : Ratchet.shouldRekey index draws.startedAt now session.rekeyMsgBound
      session.rekeyAgeSeconds = true := by
    simp only [Ratchet.shouldRekey, ge_iff_le, if_pos reached]
  have next : (build.addU64 epoch 1 : Outcome DmSessionError UInt64) = .ok (epoch + 1) :=
    Build.addU64_eq_ok.mpr ⟨rfl, room⟩
  simp only [beginAt, afterFrames, DmRatchet.shouldRekey, DmRatchet.withBounds, due, if_true, next,
    Outcome.ok_bind, Outcome.pure_eq]

/-- A session with a message bound of at most one begins the next epoch at once. -/
theorem due_afterFirst (eager : session.rekeyMsgBound ≤ 1)
    (room : build.overflowChecks = true → epoch.toNat + 1 < 2 ^ 64) :
    Due build (session.afterFirst epoch draws kam) (epoch + 1) := by
  rw [afterFirst_eq_afterFrames]
  exact due_afterFrames eager room

end

/-! ## Idealised runs -/

/-- Draws that differ from those of another byte, in the epoch secret for one. -/
def sampleDraws (byte : UInt8) : SealDraws where
  now := 0
  epochSecret := .fill 32 byte
  wrap := sampleBoxDraws byte
  startedAt := 0
  frameNonce := .fill 12 byte

/-- Four messages of one epoch, the last of them not empty. -/
def fourMessages : List (Bytes × SealDraws) :=
  [([], sampleDraws 1), ([], sampleDraws 2), ([], sampleDraws 3), ([7, 8, 9], sampleDraws 4)]

/-- At the beginning of an epoch the clock has not moved. -/
theorem young_sampleDraws {messages : List (Bytes × SealDraws)} {bound : UInt64}
    (positive : 0 < bound.toNat) (still : ∀ message ∈ messages, message.2.now = 0)
    (byte : UInt8) :
    ∀ message ∈ messages, message.2.now - (sampleDraws byte).startedAt < (bound.toNat : Rat) := by
  intro message found
  rw [still message found, sampleDraws, sub_zero]
  exact Rat.natCast_pos.mpr positive

/-- The encryption of the body of a frame. -/
def frameEncryption (secret : EpochSecret) (epoch index : UInt64) (nonce : FixedBytes 12)
    (plaintext : Bytes) : Encryption where
  key := Idealised.hkdf (epochSaltPrefix ++ u64ToBe epoch) secret.val
    (msgInfoPrefix ++ u64ToBe index)
  nonce := nonce
  aad := frameAad epoch index
  msg := plaintext

/-- The two encryptions of the first frame of an epoch: the wrapped secret and the
body. -/
def firstEncryptions (keys : KeypairDraws) (epoch : UInt64) (plaintext : Bytes)
    (draws : SealDraws) : List Encryption :=
  [boxEncryption infoDmWrap [] draws.epochSecret.val keys draws.wrap,
    frameEncryption draws.epochSecret epoch 0 draws.frameNonce plaintext]

section

variable {tagOf : Encryption → Option (FixedBytes 16)} {build : Build} {session : DmSession}
  {epoch : UInt64} {keys : KeypairDraws} {plaintext : Bytes} {draws : SealDraws}

/-- The record of a first frame. -/
def firstSent (epoch : UInt64) (plaintext : Bytes) (draws : SealDraws) (kam body : Bytes) :
    Sent where
  plaintext := plaintext
  draws := draws
  secret := draws.epochSecret
  frame := firstFrame epoch draws kam body

/-- A due epoch begins with an honest frame, when its encryptions have tags. -/
theorem exists_firstFrame (due : Due build session epoch)
    (tagged : ∀ encryption ∈ firstEncryptions keys epoch plaintext draws,
      ∃ tag, tagOf encryption = some tag) :
    let P := primitives tagOf
    ∃ kam body,
      (machine P build).step session (.seal plaintext (hybridKeypair P keys).publicKey draws) =
        (.sealed (.ok (firstFrame epoch draws kam body)), session.afterFirst epoch draws kam) ∧
      Honest P keys (firstSent epoch plaintext draws kam body) := by
  intro P
  obtain ⟨wrapTag, wrapTagged⟩ := tagged _ List.mem_cons_self
  obtain ⟨bodyTag, bodyTagged⟩ := tagged _ (List.mem_cons_of_mem _ List.mem_cons_self)
  obtain ⟨kam, wrapped⟩ : ∃ kam, wrapDmEpochSecret P draws.epochSecret.val
      (hybridKeypair P keys).publicKey draws.wrap = .ok kam :=
    ⟨_, wrapDmEpochSecret_of_tag wrapTagged⟩
  have encrypted : P.aeadEncrypt (messageKey P draws.epochSecret epoch 0) draws.frameNonce
      (frameAad epoch 0) plaintext = some (plaintext ++ bodyTag.val) :=
    aeadEncrypt_eq_some.mpr ⟨bodyTag, bodyTagged, rfl⟩
  have early : (0 : UInt64) < kamRepeat := by decide
  refine ⟨kam, _, ?_, rfl, encrypted, fun _ => ⟨kam, rfl, ?_⟩, fun late => absurd early late⟩
  · rw [step_seal, run_seal_of_due due wrapped encrypted]
  · exact unwrap_wrapDmEpochSecret kemCorrect aeadCorrect keys wrapped

/-- A frame within an epoch. -/
def laterFrame (epoch index : UInt64) (draws : SealDraws) (kam body : Bytes) :
    SealedDmFrame where
  epoch := epoch
  index := index
  nonce := draws.frameNonce.val
  body := body
  kam := if index < kamRepeat then some kam else none

/-- The record of a frame within an epoch. -/
def laterSent (epoch index : UInt64) (secret : EpochSecret) (plaintext : Bytes)
    (draws : SealDraws) (kam body : Bytes) : Sent where
  plaintext := plaintext
  draws := draws
  secret := secret
  frame := laterFrame epoch index draws kam body

/-- Below the message bound a young epoch goes on with the next frame. -/
theorem exists_laterFrame {index : UInt64} {kam peerHybridPub : Bytes} {later : SealDraws}
    (below : index < session.rekeyMsgBound)
    (young : later.now - draws.startedAt < (session.rekeyAgeSeconds.toNat : Rat))
    (tagged : ∃ tag, tagOf (frameEncryption draws.epochSecret epoch index later.frameNonce
      plaintext) = some tag) :
    let P := primitives tagOf
    ∃ body, (machine P build).step (session.afterFrames epoch draws kam index)
        (.seal plaintext peerHybridPub later) =
          (.sealed (.ok (laterFrame epoch index later kam body)),
            session.afterFrames epoch draws kam (index + 1)) ∧
      P.aeadEncrypt (messageKey P draws.epochSecret epoch index) later.frameNonce
        (frameAad epoch index) plaintext = some body := by
  intro P
  obtain ⟨tag, tagged⟩ := tagged
  have encrypted : P.aeadEncrypt (messageKey P draws.epochSecret epoch index) later.frameNonce
      (frameAad epoch index) plaintext = some (plaintext ++ tag.val) :=
    aeadEncrypt_eq_some.mpr ⟨tag, tagged, rfl⟩
  let ratchet : DmRatchet := { DmRatchet.withBounds epoch draws.epochSecret session.rekeyMsgBound
    session.rekeyAgeSeconds draws.startedAt with messageIndex := index }
  have fresh : ratchet.shouldRekey later.now = false :=
    DmRatchet.shouldRekey_eq_false.mpr ⟨below, young⟩
  have holds : (session.afterFrames epoch draws kam index).ratchet = some ratchet := rfl
  refine ⟨_, ?_, encrypted⟩
  rw [step_seal, run_seal_of_young holds fresh encrypted]
  rfl

/-- **The frames of an epoch.** Below the message bound, the messages that are sealed while the
epoch is young are sent one after the other. -/
theorem exists_sent_later {index : UInt64} {kam peerHybridPub : Bytes}
    {messages : List (Bytes × SealDraws)}
    (below : index.toNat + messages.length ≤ session.rekeyMsgBound.toNat)
    (young : ∀ message ∈ messages,
      message.2.now - draws.startedAt < (session.rekeyAgeSeconds.toNat : Rat))
    (tagged : ∀ encryption, ∃ tag, tagOf encryption = some tag) :
    let P := primitives tagOf
    let start := session.afterFrames epoch draws kam index
    (machine P build).final start (sealsTo peerHybridPub messages) =
        session.afterFrames epoch draws kam (index + UInt64.ofNat messages.length) ∧
      ∀ position message, messages[position]? = some message →
        ∃ body, laterSent epoch (index + UInt64.ofNat position) draws.epochSecret message.1
          message.2 kam body ∈ DmSession.sent P build start (sealsTo peerHybridPub messages) := by
  intro P start
  induction messages generalizing index with
  | nil =>
      refine ⟨?_, fun position message found => by simp at found⟩
      have same : index + UInt64.ofNat ([] : List (Bytes × SealDraws)).length = index :=
        UInt64.add_zero index
      rw [same]
      rfl
  | cons first rest ih =>
      rw [List.length_cons] at below
      have bound := session.rekeyMsgBound.toNat_lt
      have next : (index + 1).toNat = index.toNat + 1 := toNat_add_one (by omega)
      have shifted : ∀ count : Nat, index + 1 + UInt64.ofNat count =
          index + UInt64.ofNat (count + 1) := by
        intro count
        rw [UInt64.ofNat_add, UInt64.add_comm (UInt64.ofNat count), ← UInt64.add_assoc]
        rfl
      obtain ⟨body, step, -⟩ := @exists_laterFrame tagOf build session epoch first.1 draws index
        kam peerHybridPub first.2 (UInt64.lt_iff_toNat_lt.mpr (by omega))
        (young first List.mem_cons_self) (tagged _)
      obtain ⟨final, sent⟩ := @ih (index + 1) (by omega) fun message found =>
        young message (List.mem_cons_of_mem _ found)
      have sentEq : DmSession.sent P build start (sealsTo peerHybridPub (first :: rest)) =
          laterSent epoch index draws.epochSecret first.1 first.2 kam body ::
            DmSession.sent P build (session.afterFrames epoch draws kam (index + 1))
              (sealsTo peerHybridPub rest) := by
        rw [DmSession.sent, sealsTo, List.map_cons, Machine.log_cons, step]
        rfl
      constructor
      · rw [sealsTo, List.map_cons, Machine.final_cons, step, List.length_cons, ← shifted]
        exact final
      · intro position message found
        rw [sentEq]
        cases position with
        | zero =>
            obtain rfl := Option.some.inj found
            refine ⟨body, ?_⟩
            have same : index + UInt64.ofNat 0 = index := UInt64.add_zero index
            rw [same]
            exact List.mem_cons_self
        | succ position =>
            obtain ⟨body', member⟩ := sent position message found
            refine ⟨body', ?_⟩
            rw [← shifted]
            exact List.mem_cons_of_mem _ member

/-- A whole epoch: its first frame, and the frames after it. -/
theorem exists_sent_epoch (due : Due build session epoch) (first : Bytes × SealDraws)
    {rest : List (Bytes × SealDraws)} (below : 1 + rest.length ≤ session.rekeyMsgBound.toNat)
    (young : ∀ message ∈ rest,
      message.2.now - first.2.startedAt < (session.rekeyAgeSeconds.toNat : Rat))
    (tagged : ∀ encryption, ∃ tag, tagOf encryption = some tag) :
    let P := primitives tagOf
    let calls := sealsTo (hybridKeypair P keys).publicKey (first :: rest)
    ∃ kam, (machine P build).final session calls =
        session.afterFrames epoch first.2 kam (1 + UInt64.ofNat rest.length) ∧
      (∃ body, firstSent epoch first.1 first.2 kam body ∈ DmSession.sent P build session calls) ∧
      ∀ position message, rest[position]? = some message →
        ∃ body, laterSent epoch (1 + UInt64.ofNat position) first.2.epochSecret message.1
          message.2 kam body ∈ DmSession.sent P build session calls := by
  intro P calls
  obtain ⟨kam, body, step, -⟩ := exists_firstFrame due fun encryption
    (_ : encryption ∈ firstEncryptions keys epoch first.1 first.2) => tagged encryption
  rw [afterFirst_eq_afterFrames] at step
  obtain ⟨final, later⟩ := @exists_sent_later tagOf build session epoch first.2 1 kam
    (hybridKeypair P keys).publicKey rest below young tagged
  have sentEq : DmSession.sent P build session calls = firstSent epoch first.1 first.2 kam body ::
      DmSession.sent P build (session.afterFrames epoch first.2 kam 1)
        (sealsTo (hybridKeypair P keys).publicKey rest) := by
    simp only [calls, P, DmSession.sent, sealsTo, List.map_cons, Machine.log_cons, step]
    rfl
  refine ⟨kam, ?_, ⟨body, ?_⟩, fun position message found => ?_⟩
  · simp only [calls, P, sealsTo, List.map_cons, Machine.final_cons, step]
    exact final
  · rw [sentEq]
    exact List.mem_cons_self
  · obtain ⟨body', member⟩ := later position message found
    rw [sentEq]
    exact ⟨body', List.mem_cons_of_mem _ member⟩

/-- Primitives that make every encryption, and tell one first frame of epoch zero from
all others. -/
def markedZero (byte : UInt8) : Primitives :=
  primitives (marked (frameEncryption (sampleDraws byte).epochSecret 0 0
    (sampleDraws byte).frameNonce []))

/-- With them every due epoch begins. -/
theorem exists_firstFrame_marked (byte : UInt8) (due : Due build session epoch)
    (plaintext : Bytes) (keys : KeypairDraws) (draws : SealDraws) :
    ∃ kam body,
      (machine (markedZero byte) build).step session
          (.seal plaintext (hybridKeypair (markedZero byte) keys).publicKey draws) =
        (.sealed (.ok (firstFrame epoch draws kam body)), session.afterFirst epoch draws kam) ∧
      Honest (markedZero byte) keys (firstSent epoch plaintext draws kam body) :=
  exists_firstFrame due fun encryption _ => exists_marked _ encryption

/-- A session with a message bound of at most one begins an epoch with every message.
Unchecked, the epoch number wraps. -/
theorem due_replicate (due : Due build session epoch) (eager : session.rekeyMsgBound ≤ 1)
    (unchecked : build.overflowChecks = false)
    (tagged : ∀ encryption, ∃ tag, tagOf encryption = some tag) (count : Nat) :
    Due build ((machine (primitives tagOf) build).final session
        (sealsTo (hybridKeypair (primitives tagOf) keys).publicKey
          (List.replicate count (plaintext, draws))))
      (epoch + UInt64.ofNat count) := by
  induction count generalizing session epoch with
  | zero =>
      have same : epoch + UInt64.ofNat 0 = epoch := UInt64.add_zero epoch
      rw [same]
      exact due
  | succ count ih =>
      obtain ⟨kam, body, step, -⟩ := exists_firstFrame due
        fun encryption (_ : encryption ∈ firstEncryptions keys epoch plaintext draws) =>
          tagged encryption
      have next : Due build (session.afterFirst epoch draws kam) (epoch + 1) :=
        due_afterFirst eager fun checked => by simp [unchecked] at checked
      have later := ih next eager
      rw [List.replicate_succ, sealsTo, List.map_cons, Machine.final_cons, step, UInt64.ofNat_add,
        UInt64.add_comm (UInt64.ofNat count), ← UInt64.add_assoc]
      exact later

/-- A session with a message bound of at most one sends the first frames of two
epochs. -/
theorem exists_two_firstFrames {first second : SealDraws} {plaintext' : Bytes}
    (due : Due build session epoch) (eager : session.rekeyMsgBound ≤ 1)
    (room : build.overflowChecks = true → epoch.toNat + 1 < 2 ^ 64)
    (tagged : ∀ encryption ∈ firstEncryptions keys epoch plaintext first ++
      firstEncryptions keys (epoch + 1) plaintext' second, ∃ tag, tagOf encryption = some tag) :
    let P := primitives tagOf
    let calls : List Call := [.seal plaintext (hybridKeypair P keys).publicKey first,
      .seal plaintext' (hybridKeypair P keys).publicKey second]
    ∃ kam body kam' body',
      DmSession.sent P build session calls =
        [firstSent epoch plaintext first kam body,
          firstSent (epoch + 1) plaintext' second kam' body'] ∧
      (machine P build).final session calls =
        (session.afterFirst epoch first kam).afterFirst (epoch + 1) second kam' ∧
      Honest P keys (firstSent epoch plaintext first kam body) := by
  intro P calls
  obtain ⟨kam, body, step, honest⟩ := exists_firstFrame due
    fun encryption found => tagged encryption (List.mem_append_left _ found)
  have due' : Due build (session.afterFirst epoch first kam) (epoch + 1) :=
    due_afterFirst eager room
  obtain ⟨kam', body', step', -⟩ := exists_firstFrame due'
    fun encryption found => tagged encryption (List.mem_append_right _ found)
  refine ⟨kam, body, kam', body', ?_, ?_, honest⟩
  · simp only [calls, DmSession.sent, Machine.log_cons, Machine.log_nil, P, step, step']
    rfl
  · simp only [calls, Machine.final_cons, Machine.final_nil, P, step, step']

end

end DmSession
end SkPqc

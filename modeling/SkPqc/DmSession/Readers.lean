import SkPqc.DmSession.Store
import SkPqc.BoxReaders

/-!
# Who reads a session

A session wraps the secret of an epoch once, when the epoch begins, to the key that this
call was given. The keys that later calls of the epoch are given are not looked at, so a
peer that changes its key goes on being sent frames for the old one until the epoch ends
(`attributed_sent`, `open_for_addressee`).

Whoever holds some private keys and records all frames derives the keys of exactly the
epochs that were begun for one of these, or whose secret leaked (`readers_iff`), whatever
else happens to the session.
-/

set_option autoImplicit false

namespace SkPqc

open Library Kem HybridBox Ratchet Idealised

namespace DmSession

/-! ## The key that an epoch was begun for -/

/-- An epoch that was begun, for the holder of a key. -/
structure Beginning where
  epoch : UInt64
  secret : EpochSecret
  addressee : Bytes
  kam : Bytes

section

variable (P : Primitives) (build : Build)

/-- The epoch that a call begins. -/
def beginning (session : DmSession) : Call → Option Beginning
  | .seal _ peerHybridPub draws =>
      match (session.beginAt build draws.now : Outcome DmSessionError _),
        wrapDmEpochSecret P draws.epochSecret.val peerHybridPub draws.wrap with
      | .ok (some epoch), .ok kam => some ⟨epoch, draws.epochSecret, peerHybridPub, kam⟩
      | _, _ => none
  | _ => none

/-- The epochs that a run begins, in order. -/
def beginnings (session : DmSession) (calls : List Call) : List Beginning :=
  (machine P build).effects (beginning P build) session calls

/-- The KAM is the secret, wrapped to the addressee. -/
def Beginning.Wrapped (start : Beginning) : Prop :=
  ∃ draws, wrapDmEpochSecret P start.secret.val start.addressee draws = .ok start.kam

end

/-- A frame of an epoch is sealed under its secret, and the first ones carry its KAM. -/
structure Beginning.Covers (start : Beginning) (sent : Sent) : Prop where
  epoch : sent.frame.epoch = start.epoch
  secret : sent.secret = start.secret
  kam : sent.frame.kam = if sent.frame.index < kamRepeat then some start.kam else none

section

variable {P : Primitives} {build : Build} {session keyed : DmSession} {ratchet : DmRatchet}
  {plaintext peerHybridPub : Bytes} {draws : SealDraws} {starts : List Beginning}
  {sent : List Sent}

theorem beginning_of_current (holds : session.ratchet = some ratchet)
    (young : ratchet.shouldRekey draws.now = false) :
    beginning P build session (.seal plaintext peerHybridPub draws) = none := by
  simp [beginning, beginAt, holds, young]

theorem beginning_of_fresh {kam : Bytes} {epoch : UInt64}
    (begun : (session.beginAt build draws.now : Outcome DmSessionError _) = .ok (some epoch))
    (wrapped : wrapDmEpochSecret P draws.epochSecret.val peerHybridPub draws.wrap = .ok kam) :
    beginning P build session (.seal plaintext peerHybridPub draws) =
      some ⟨epoch, draws.epochSecret, peerHybridPub, kam⟩ := by
  simp only [beginning, begun, wrapped]

/-- The body is the plaintext of the call, encrypted in the slot of the frame. -/
structure Genuine (P : Primitives) (sent : Sent) : Prop where
  nonce : sent.frame.nonce = sent.draws.frameNonce.val
  encrypted : P.aeadEncrypt (sent.sealing P).key (sent.sealing P).nonce (sent.sealing P).aad
    (sent.sealing P).msg = some sent.frame.body

/-- The ratchet of a session is that of an epoch it has begun, and so is every frame it has
sent. -/
structure Attributed (P : Primitives) (starts : List Beginning) (sent : List Sent)
    (session : DmSession) : Prop where
  persistent : session.Persistent
  wrapped : ∀ start ∈ starts, start.Wrapped P
  current : ∀ ratchet, session.ratchet = some ratchet → ∃ start ∈ starts,
    ratchet.epoch = start.epoch ∧ ratchet.epochSecret = start.secret ∧
      session.currentKam = some start.kam
  covered : ∀ frame ∈ sent, ∃ start ∈ starts, start.Covers frame
  genuine : ∀ frame ∈ sent, Genuine P frame

theorem Attributed.withBounds (peer : String) (rekeyMsgBound rekeyAgeSeconds : UInt64) :
    Attributed P [] [] (withBounds peer rekeyMsgBound rekeyAgeSeconds) where
  persistent := .withBounds peer rekeyMsgBound rekeyAgeSeconds
  wrapped _ impossible := by cases impossible
  current _ impossible := by cases impossible
  covered _ impossible := by cases impossible
  genuine _ impossible := by cases impossible

/-- Keying the session for the next frame begins the epoch it is sent in, if need be. -/
theorem Attributed.advanced (attributed : Attributed P starts sent session) (plaintext : Bytes)
    (key : Keyed P build session peerHybridPub draws keyed ratchet) :
    let starts' :=
      starts ++ (beginning P build session (.seal plaintext peerHybridPub draws)).toList
    Attributed P starts' sent (keyed.advanced ratchet) ∧ ∃ start ∈ starts',
      ratchet.epoch = start.epoch ∧ ratchet.epochSecret = start.secret ∧
        keyed.currentKam = some start.kam := by
  intro starts'
  have persistent := attributed.persistent.keyed key
  cases key with
  | current holds young =>
      have same : starts' = starts := by
        simp only [starts', beginning_of_current holds young]
        exact List.append_nil starts
      have current := attributed.current ratchet holds
      rw [same]
      refine ⟨⟨persistent, attributed.wrapped, ?_, attributed.covered, attributed.genuine⟩, current⟩
      rintro _ ⟨⟩
      exact current
  | @fresh epoch kam begun wrapped =>
      have same : starts' = starts ++ [⟨epoch, draws.epochSecret, peerHybridPub, kam⟩] := by
        simp only [starts', beginning_of_fresh begun wrapped, Option.toList_some]
      have current : ∃ start ∈ starts', epoch = start.epoch ∧ draws.epochSecret = start.secret ∧
          some kam = some start.kam := by
        rw [same]
        exact ⟨_, List.mem_append_right _ List.mem_cons_self, rfl, rfl, rfl⟩
      refine ⟨⟨persistent, ?_, ?_, ?_, attributed.genuine⟩, current⟩
      · intro start found
        rw [same] at found
        rcases List.mem_append.mp found with earlier | new
        · exact attributed.wrapped start earlier
        · rw [List.mem_singleton.mp new]
          exact ⟨draws.wrap, wrapped⟩
      · rintro _ ⟨⟩
        exact current
      · intro frame found
        obtain ⟨start, earlier, covers⟩ := attributed.covered frame found
        exact ⟨start, List.mem_append_left _ earlier, covers⟩

/-- **One call keeps what frames are attributed to.** -/
theorem Attributed.step (attributed : Attributed P starts sent session) (call : Call) :
    Attributed P (starts ++ (beginning P build session call).toList)
      (sent ++ (sentBy call ((machine P build).step session call).1
        ((machine P build).step session call).2).toList)
      ((machine P build).step session call).2 := by
  have persistent : ((machine P build).step session call).2.Persistent :=
    attributed.persistent.step call
  cases call with
  | «seal» plaintext peerHybridPub draws =>
      have sealing := run_seal P build session plaintext peerHybridPub draws
      rw [step_seal] at persistent ⊢
      generalize (DmSession.seal P build plaintext peerHybridPub draws).run session = result at *
      cases sealing with
      | overflow begun => simpa [sentBy, beginning, begun] using attributed
      | wrapFailed begun failed => simpa [sentBy, beginning, begun, failed] using attributed
      | encryptFailed key failed =>
          simpa [sentBy] using (attributed.advanced plaintext key).1
      | emitted key encrypted =>
          obtain ⟨moved, start, found, epoch, secret, kam⟩ := attributed.advanced plaintext key
          refine ⟨persistent, moved.wrapped, moved.current, ?_, ?_⟩
          · intro frame either
            rcases List.mem_append.mp either with earlier | new
            · exact moved.covered frame earlier
            · rw [List.mem_singleton.mp new]
              exact ⟨start, found, epoch, secret, by rw [← kam]⟩
          · intro frame either
            rcases List.mem_append.mp either with earlier | new
            · exact moved.genuine frame earlier
            · rw [List.mem_singleton.mp new]
              exact ⟨rfl, encrypted⟩
  | «open» frame myHybridPriv =>
      have opening := run_open P session frame myHybridPriv
      rw [step_open] at persistent ⊢
      generalize (DmSession.open P frame myHybridPriv).run session = result at *
      cases opening with
      | kamRejected carried vacant failed => simpa [sentBy, beginning] using attributed
      | installed carried vacant unwrapped =>
          simpa [sentBy, beginning] using
            (⟨persistent, attributed.wrapped, attributed.current, attributed.covered,
              attributed.genuine⟩ : Attributed P starts sent _)
      | missing bare vacant => simpa [sentBy, beginning] using attributed
      | known stored => simpa [sentBy, beginning] using attributed
  | reload =>
      rw [step_reload, run_reload attributed.persistent]
      simpa [sentBy, beginning] using attributed

/-- Every run, whatever keys its calls are given. -/
theorem Attributed.final (attributed : Attributed P starts sent session) (calls : List Call) :
    Attributed P (starts ++ beginnings P build session calls)
      (sent ++ DmSession.sent P build session calls) ((machine P build).final session calls) := by
  induction calls generalizing starts sent session with
  | nil =>
      rw [beginnings, Machine.effects_nil, DmSession.sent, Machine.log_nil, List.append_nil,
        List.append_nil]
      exact attributed
  | cons call rest ih =>
      have later := ih (@Attributed.step P build _ _ _ attributed call)
      rw [List.append_assoc, List.append_assoc] at later
      exact later

/-- Every frame of a session is covered by an epoch that it has begun. -/
theorem attributed_sent (P : Primitives) (build : Build) (peer : String)
    (rekeyMsgBound rekeyAgeSeconds : UInt64) (calls : List Call) :
    let session := withBounds peer rekeyMsgBound rekeyAgeSeconds
    Attributed P (beginnings P build session calls) (DmSession.sent P build session calls)
      ((machine P build).final session calls) :=
  (Attributed.withBounds peer rekeyMsgBound rekeyAgeSeconds).final calls

end

/-! ## Opening -/

section

variable {P : Primitives} {build : Build} {start : Beginning} {frame : Sent} {keys : KeypairDraws}

/-- For its addressee, a frame is an honest one. -/
theorem Genuine.honest (kem : P.KemCorrect) (aead : P.AeadCorrect) (genuine : Genuine P frame)
    (wrapped : start.Wrapped P) (covers : start.Covers frame)
    (own : IsFor P start.addressee keys) : Honest P keys frame := by
  refine ⟨genuine.nonce, genuine.encrypted, fun early => ?_, fun late => ?_⟩
  · obtain ⟨draws, made⟩ := wrapped
    rw [own] at made
    refine ⟨start.kam, ?_, ?_⟩
    · rw [covers.kam, if_pos early]
    · rw [covers.secret]
      exact unwrap_wrapDmEpochSecret kem aead keys made
  · rw [covers.kam, if_neg late]

/-- For others the KAM does not unwrap. -/
theorem Beginning.unwrap_of_foreign (aead : P.AeadCorrect) (hkdf : P.HkdfInjective)
    (ideal : P.IdealAead) (wrapped : start.Wrapped P) (foreign : Foreign P start.addressee keys) :
    unwrapDmEpochSecret P start.kam (hybridKeypair P keys).privateKey = .error .unwrapFailed := by
  obtain ⟨draws, made⟩ := wrapped
  obtain ⟨-, box⟩ := wrapDmEpochSecret_eq_ok made
  have length : start.kam.length = wrappedPayloadLen := by
    rw [length_sealBox aead box, start.secret.property]
    rfl
  rw [unwrapDmEpochSecret, if_neg (not_not.mpr length), openBox_of_foreign hkdf ideal foreign box]
  rfl

/-- **A frame is for whom its epoch was begun for.** A frame with a KAM opens at a new
receiver that holds the key of the call that began the epoch, and at no other one, whatever
key the frame itself was sealed to. -/
theorem open_for_addressee (kem : P.KemCorrect) (aead : P.AeadCorrect) (hkdf : P.HkdfInjective)
    (ideal : P.IdealAead) {peer : String} {rekeyMsgBound rekeyAgeSeconds : UInt64}
    {calls : List Call}
    (found : frame ∈ sent P build (withBounds peer rekeyMsgBound rekeyAgeSeconds) calls)
    (carries : frame.frame.kam ≠ none) :
    ∃ start ∈ beginnings P build (withBounds peer rekeyMsgBound rekeyAgeSeconds) calls,
      start.Covers frame ∧ ∀ (keys : KeypairDraws) (receiver : DmSession),
        receiver.epochSecrets[frame.frame.epoch]? = none →
        let opened := ((DmSession.open P frame.frame (hybridKeypair P keys).privateKey).run
          receiver).1
        (IsFor P start.addressee keys → opened = .ok frame.plaintext) ∧
          (Foreign P start.addressee keys → opened = .error (.ratchet .unwrapFailed)) := by
  have attributed := attributed_sent P build peer rekeyMsgBound rekeyAgeSeconds calls
  obtain ⟨start, begun, covers⟩ := attributed.covered frame found
  refine ⟨start, begun, covers, fun keys receiver vacant => ⟨fun own => ?_, fun foreign => ?_⟩⟩
  · have honest := (attributed.genuine frame found).honest kem aead
      (attributed.wrapped start begun) covers own
    exact honest.open_of_vacant aead carries vacant
  · have carried : frame.frame.kam = some start.kam := by
      rw [covers.kam] at carries ⊢
      by_cases early : frame.frame.index < kamRepeat
      · rw [if_pos early]
      · rw [if_neg early] at carries
        exact absurd rfl carries
    rw [run_open_of_kam _ vacant carried,
      start.unwrap_of_foreign aead hkdf ideal (attributed.wrapped start begun) foreign]

end

/-! ### A peer that changes its key -/

/-- The encryptions of two frames of one epoch. -/
def twoFrames : List Encryption :=
  firstEncryptions (sampleKeys 1) 0 [] (sampleDraws 1) ++
    [frameEncryption (sampleDraws 1).epochSecret 0 1 (sampleDraws 2).frameNonce []]

/-- Primitives that have made these. -/
def rotated : Primitives := primitives (logged twoFrames)

/-- The second call is given another key of the peer. -/
def rotation : List Call :=
  [.seal [] (hybridKeypair rotated (sampleKeys 1)).publicKey (sampleDraws 1),
    .seal [] (hybridKeypair rotated (sampleKeys 2)).publicKey (sampleDraws 2)]

/-- The record of the second frame. -/
def secondSent (kam body : Bytes) : Sent where
  plaintext := []
  draws := sampleDraws 2
  secret := (sampleDraws 1).epochSecret
  frame :=
    { epoch := 0
      index := 1
      nonce := (sampleDraws 2).frameNonce.val
      body := body
      kam := some kam }

theorem exists_rotation (build : Build) :
    ∃ kam body body',
      beginnings rotated build (withBounds "peer" 50 604800) rotation =
        [⟨0, (sampleDraws 1).epochSecret, (hybridKeypair rotated (sampleKeys 1)).publicKey,
          kam⟩] ∧
      DmSession.sent rotated build (withBounds "peer" 50 604800) rotation =
        [firstSent 0 [] (sampleDraws 1) kam body, secondSent kam body'] := by
  have due := due_withBounds build "peer" 50 604800
  have logs : ∀ encryption ∈ twoFrames, ∃ tag, logged twoFrames encryption = some tag :=
    fun _ => exists_logged
  obtain ⟨wrapTag, wrapTagged⟩ := logs _ List.mem_cons_self
  obtain ⟨bodyTag, bodyTagged⟩ := logs _ (List.mem_cons_of_mem _ List.mem_cons_self)
  obtain ⟨tag, tagged⟩ := logs _
    (List.mem_cons_of_mem _ (List.mem_cons_of_mem _ List.mem_cons_self))
  obtain ⟨kam, wrapped⟩ : ∃ kam, wrapDmEpochSecret rotated (sampleDraws 1).epochSecret.val
      (hybridKeypair rotated (sampleKeys 1)).publicKey (sampleDraws 1).wrap = .ok kam :=
    ⟨_, wrapDmEpochSecret_of_tag wrapTagged⟩
  have encrypted : rotated.aeadEncrypt (messageKey rotated (sampleDraws 1).epochSecret 0 0)
      (sampleDraws 1).frameNonce (frameAad 0 0) [] = some ([] ++ bodyTag.val) :=
    aeadEncrypt_eq_some.mpr ⟨bodyTag, bodyTagged, rfl⟩
  have encrypted' : rotated.aeadEncrypt (messageKey rotated (sampleDraws 1).epochSecret 0 1)
      (sampleDraws 2).frameNonce (frameAad 0 1) [] = some ([] ++ tag.val) :=
    aeadEncrypt_eq_some.mpr ⟨tag, tagged, rfl⟩
  let session := (withBounds "peer" 50 604800).afterFirst 0 (sampleDraws 1) kam
  let ratchet : DmRatchet :=
    { DmRatchet.withBounds 0 (sampleDraws 1).epochSecret 50 604800 0 with messageIndex := 1 }
  have age : (0 : Rat) - 0 < ((604800 : UInt64).toNat : Rat) := by
    rw [sub_zero]
    exact Rat.natCast_pos.mpr (by decide)
  have young : ratchet.shouldRekey (sampleDraws 2).now = false :=
    DmRatchet.shouldRekey_eq_false.mpr ⟨by decide, age⟩
  have first := run_seal_of_due due wrapped encrypted
  have second : (DmSession.seal rotated build [] (hybridKeypair rotated (sampleKeys 2)).publicKey
      (sampleDraws 2)).run session =
        (.ok (secondSent kam ([] ++ tag.val)).frame, session.advanced ratchet) :=
    run_seal_of_young rfl young encrypted' _
  refine ⟨kam, [] ++ bodyTag.val, [] ++ tag.val, ?_, ?_⟩
  · rw [beginnings, rotation, Machine.effects_cons, beginning_of_fresh (due _) wrapped, step_seal,
      first, Machine.effects_cons, beginning_of_current rfl young]
    rfl
  · rw [DmSession.sent, rotation, Machine.log_cons, step_seal, first, Machine.log_cons, step_seal,
      second]
    rfl

/-- The second frame opens with the old key of the peer, and not with the one that it was
sealed to. -/
theorem open_for_addressee_rotated :
    ∃ frame ∈ DmSession.sent rotated ⟨true, .w64⟩ (withBounds "peer" 50 604800) rotation,
      frame.draws = sampleDraws 2 ∧
      ((DmSession.open rotated frame.frame (hybridKeypair rotated (sampleKeys 1)).privateKey).run
        (withBounds "me" 50 604800)).1 = .ok [] ∧
      ((DmSession.open rotated frame.frame (hybridKeypair rotated (sampleKeys 2)).privateKey).run
        (withBounds "me" 50 604800)).1 = .error (.ratchet .unwrapFailed) := by
  obtain ⟨kam, body, body', begun, sent⟩ := exists_rotation ⟨true, .w64⟩
  have found : secondSent kam body' ∈
      DmSession.sent rotated ⟨true, .w64⟩ (withBounds "peer" 50 604800) rotation := by
    rw [sent]
    exact List.mem_cons_of_mem _ List.mem_cons_self
  have carries : (secondSent kam body').frame.kam ≠ none := by simp [secondSent]
  obtain ⟨start, one, -, opened⟩ := @open_for_addressee rotated ⟨true, .w64⟩ _ kemCorrect
    aeadCorrect hkdfInjective (idealAead_logged (by decide)) _ _ _ _ found carries
  rw [begun] at one
  obtain rfl := List.mem_singleton.mp one
  have vacant : (withBounds "me" 50 604800).epochSecrets[(0 : UInt64)]? = none := by
    simp [withBounds]
  refine ⟨_, found, rfl, (opened (sampleKeys 1) _ vacant).1 rfl, ?_⟩
  exact (opened (sampleKeys 2) _ vacant).2 foreign_sampleKeys

/-! ## Reading -/

section

variable (P : Primitives)

/-- The KAMs that a session has sent. -/
def kams (starts : List Beginning) (sent : List Sent) :
    Post KeypairDraws Beginning Bytes EpochSecret where
  sent start := start ∈ starts ∧ ∃ frame ∈ sent, frame.frame.kam = some start.kam
  text := Beginning.kam
  secret := Beginning.secret
  addressed start := IsFor P start.addressee

/-- A key pair unwraps a KAM to a secret. -/
def Unwraps (keys : KeypairDraws) (kam : Bytes) (secret : EpochSecret) : Prop :=
  unwrapDmEpochSecret P kam (hybridKeypair P keys).privateKey = .ok secret

/-- An observer derives a key from what it unwraps of the frames of a run. -/
def Reads (build : Build) (observer : Observer KeypairDraws EpochSecret) (session : DmSession)
    (calls : List Call) (key : Bytes) : Prop :=
  observer.Derives (kams P (beginnings P build session calls) (sent P build session calls))
    (Unwraps P) (deriveUnder P) key

variable {P} {build : Build} {observer : Observer KeypairDraws EpochSecret} {frame : Sent}
  {start : Beginning} {starts : List Beginning} {past : List Sent} {session : DmSession}

theorem exact_kams (kem : P.KemCorrect) (aead : P.AeadCorrect) (hkdf : P.HkdfInjective)
    (ideal : P.IdealAead) (attributed : Attributed P starts past session)
    (separated : ∀ start ∈ starts, ∀ keys ∈ observer.holds,
      ¬ IsFor P start.addressee keys → Foreign P start.addressee keys) :
    observer.Exact (kams P starts past) (Unwraps P) := by
  rintro start ⟨begun, -⟩ keys held secret
  apply eq_ok_iff_isFor
  · intro own
    obtain ⟨draws, made⟩ := attributed.wrapped start begun
    rw [own] at made
    exact unwrap_wrapDmEpochSecret kem aead keys made
  · intro other
    exact start.unwrap_of_foreign aead hkdf ideal (attributed.wrapped start begun)
      (separated start begun keys held other)

/-- **Who reads a session.** The message key of a frame is derived exactly by those to whom
the secret of its epoch leaked, and, once a KAM of the epoch was sent, by those who hold the
key that the epoch was begun for. -/
theorem readers_iff (kem : P.KemCorrect) (aead : P.AeadCorrect) (hkdf : P.HkdfInjective)
    (ideal : P.IdealAead) {peer : String} {rekeyMsgBound rekeyAgeSeconds : UInt64}
    (new : session = withBounds peer rekeyMsgBound rekeyAgeSeconds) {calls : List Call}
    (separated : ∀ start ∈ beginnings P build session calls, ∀ keys ∈ observer.holds,
      ¬ IsFor P start.addressee keys → Foreign P start.addressee keys)
    (fresh : ((beginnings P build session calls).map Beginning.secret).Nodup)
    (found : frame ∈ sent P build session calls) :
    ∃ start ∈ beginnings P build session calls, start.Covers frame ∧
      (Reads P build observer session calls
          (messageKey P frame.secret frame.frame.epoch frame.frame.index) ↔
        frame.secret ∈ observer.leaked ∨
          (∃ first ∈ sent P build session calls, first.frame.kam = some start.kam) ∧
            ∃ keys ∈ observer.holds, IsFor P start.addressee keys) := by
  have attributed := attributed_sent P build peer rekeyMsgBound rekeyAgeSeconds calls
  rw [← new] at attributed
  obtain ⟨start, begun, covers⟩ := attributed.covered frame found
  refine ⟨start, begun, covers, ?_⟩
  have key : messageKey P frame.secret frame.frame.epoch frame.frame.index =
      deriveUnder P frame.secret (epochSaltPrefix ++ u64ToBe frame.frame.epoch,
        msgInfoPrefix ++ u64ToBe frame.frame.index) := rfl
  rw [Reads, key, Observer.derives_iff (exact_kams kem aead hkdf ideal attributed separated)
    (deriveUnder_secret hkdf)]
  refine or_congr_right ⟨?_, ?_⟩
  · rintro ⟨other, ⟨begun', announced⟩, same, keys, held, own⟩
    obtain rfl : other = start :=
      List.inj_on_of_nodup_map fresh begun' begun (same.trans covers.secret)
    exact ⟨announced, keys, held, own⟩
  · rintro ⟨announced, keys, held, own⟩
    exact ⟨start, ⟨begun, announced⟩, covers.secret.symm, keys, held, own⟩

end

/-- After the change, the key that the epoch was begun for still reads, and the one that the
second frame was sealed to does not. -/
theorem readers_iff_rotated :
    let calls := rotation
    let session := withBounds "peer" 50 604800
    ∃ frame ∈ DmSession.sent rotated ⟨true, .w64⟩ session calls, frame.draws = sampleDraws 2 ∧
      let key := messageKey rotated frame.secret frame.frame.epoch frame.frame.index
      Reads rotated ⟨true, .w64⟩ ⟨[sampleKeys 1], []⟩ session calls key ∧
        ¬ Reads rotated ⟨true, .w64⟩ ⟨[sampleKeys 2], []⟩ session calls key := by
  intro calls session
  obtain ⟨kam, body, body', begun, sent⟩ := exists_rotation ⟨true, .w64⟩
  have found : secondSent kam body' ∈ DmSession.sent rotated ⟨true, .w64⟩ session calls := by
    rw [sent]
    exact List.mem_cons_of_mem _ List.mem_cons_self
  have separated : ∀ byte, byte = 1 ∨ byte = 2 → ∀ start ∈ beginnings rotated ⟨true, .w64⟩
      session calls, ∀ keys ∈ [sampleKeys byte], ¬ IsFor rotated start.addressee keys →
        Foreign rotated start.addressee keys := by
    intro byte either start one keys held other
    rw [begun] at one
    obtain rfl := List.mem_singleton.mp one
    obtain rfl := List.mem_singleton.mp held
    rcases either with rfl | rfl
    · exact absurd rfl other
    · exact foreign_sampleKeys
  have fresh : ((beginnings rotated ⟨true, .w64⟩ session calls).map
      Beginning.secret).Nodup := by
    rw [begun]
    exact List.nodup_singleton _
  have reads := fun byte either => @readers_iff rotated ⟨true, .w64⟩ ⟨[sampleKeys byte], []⟩ _ _
    kemCorrect aeadCorrect hkdfInjective (idealAead_logged (by decide)) "peer" 50 604800 rfl
    calls (separated byte either) fresh found
  refine ⟨_, found, rfl, ?_, ?_⟩
  · obtain ⟨start, one, -, iff⟩ := reads 1 (.inl rfl)
    rw [begun] at one
    obtain rfl := List.mem_singleton.mp one
    exact iff.mpr (.inr ⟨⟨_, found, rfl⟩, _, List.mem_cons_self, rfl⟩)
  · obtain ⟨start, one, -, iff⟩ := reads 2 (.inr rfl)
    rw [begun] at one
    obtain rfl := List.mem_singleton.mp one
    intro derived
    rcases iff.mp derived with leaked | ⟨-, keys, held, own⟩
    · cases leaked
    · obtain rfl := List.mem_singleton.mp held
      exact not_isFor_sampleKeys own

end DmSession
end SkPqc

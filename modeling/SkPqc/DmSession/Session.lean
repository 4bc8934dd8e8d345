import SkPqc.Ratchet
import Mathlib.Data.Finmap

/-!
# The DM session: sealing and opening frames

A session owns the epoch lifecycle for one peer. It holds the outbound ratchet,
the secrets of all epochs it has seen, and the wrapped secret of its current
epoch. Sealing starts a fresh epoch when the current one has hit a bound;
opening installs the epoch secret that a frame carries when the epoch is not yet
known.

Every call takes what it draws as an argument, randomness and clock readings
alike. `SealStep` and `OpenStep` list what a call can do, and every later result
is a case analysis over them (`run_seal`, `run_open`).
-/

set_option autoImplicit false

namespace SkPqc

open Library Kem HybridBox Ratchet

namespace DmSession

/-! ## Frames and errors -/

/-- The AAD prefix of a frame. -/
def aadPrefix : Bytes := utf8 "skchat/dm-frame/v1"

/-- The KAM rides the first `kamRepeat` frames of each epoch. -/
def kamRepeat : UInt64 := 3

/-- Bind epoch and index into the AAD, so that a frame cannot move slots. -/
def frameAad (epoch index : UInt64) : Bytes :=
  aadPrefix ++ utf8 "|" ++ u64ToBe epoch ++ u64ToBe index

/-- Errors of the session driver and its token codec. -/
inductive DmSessionError where
  | badToken (why : String)
  | openFailed
  | missingEpochSecret (epoch : UInt64)
  | ratchet (reason : RatchetError)
  deriving DecidableEq, Repr

/-- One sealed DM on the wire. -/
structure SealedDmFrame where
  epoch : UInt64
  index : UInt64
  nonce : Bytes
  body : Bytes
  /-- The wrapped epoch secret, on the first frames of an epoch. -/
  kam : Option Bytes
  deriving DecidableEq, Repr

end DmSession

/-! ## The session -/

/-- The session for one peer. -/
structure DmSession where
  peer : String
  rekeyMsgBound : UInt64
  rekeyAgeSeconds : UInt64
  ratchet : Option DmRatchet
  /-- The secrets of the epochs this session has seen. -/
  epochSecrets : Std.ExtTreeMap UInt64 EpochSecret
  currentKam : Option Bytes
  deriving DecidableEq

namespace DmSession

/-- What one call of `seal` draws: the clock reading of the re-key decision, the
draws of a fresh epoch, and the nonce of the frame. -/
structure SealDraws where
  now : Rat
  epochSecret : EpochSecret
  wrap : BoxDraws
  startedAt : Rat
  frameNonce : FixedBytes 12

def withBounds (peer : String) (rekeyMsgBound rekeyAgeSeconds : UInt64) : DmSession where
  peer := peer
  rekeyMsgBound := rekeyMsgBound
  rekeyAgeSeconds := rekeyAgeSeconds
  ratchet := none
  epochSecrets := ∅
  currentKam := none

def new (peer : String) : DmSession :=
  withBounds peer defaultRekeyMsgBound defaultRekeyAgeSeconds

/-- The session after a fresh epoch was begun. -/
def begun (session : DmSession) (epoch : UInt64) (secret : EpochSecret) (kam : Bytes)
    (startedAt : Rat) : DmSession :=
  { session with
    epochSecrets := session.epochSecrets.insert epoch secret
    ratchet := some (DmRatchet.withBounds epoch secret session.rekeyMsgBound
      session.rekeyAgeSeconds startedAt)
    currentKam := some kam }

/-- The session after it stored a secret for an epoch. -/
def installed (session : DmSession) (epoch : UInt64) (secret : EpochSecret) : DmSession :=
  { session with epochSecrets := session.epochSecrets.insert epoch secret }

/-- The session after its ratchet advanced. -/
def advanced (session : DmSession) (ratchet : DmRatchet) : DmSession :=
  { session with
    ratchet := some { ratchet with messageIndex := ratchet.messageIndex + 1 } }

/-- The epoch that sealing now would begin, if any. -/
def beginAt {ε : Type} (session : DmSession) (build : Build) (now : Rat) :
    Outcome ε (Option UInt64) :=
  match session.ratchet with
  | none => .ok (some 0)
  | some ratchet =>
      if ratchet.shouldRekey now then do
        let epoch ← build.addU64 ratchet.epoch 1
        return some epoch
      else .ok none

end DmSession

section Methods

variable (P : Primitives) (build : Build)

/-- Start a fresh epoch. The secret is wrapped before any state changes. -/
def DmSession.beginEpoch (epoch : UInt64) (peerHybridPub : Bytes) (draws : SealDraws) :
    Method DmSession DmSessionError Unit := do
  let secret := draws.epochSecret
  let kam ← Method.lift
    ((wrapDmEpochSecret P secret.val peerHybridPub draws.wrap).mapError .ratchet)
  let session ← Method.get
  Method.set (session.begun epoch secret kam draws.startedAt)

/-- The index, key and epoch of the next frame. Advances the ratchet in place,
and panics when there is none. -/
def DmSession.nextOutbound : Method DmSession DmSessionError (UInt64 × Bytes × UInt64) := do
  let session ← Method.get
  match session.ratchet with
  | none => Method.lift .panic
  | some ratchet =>
      let advance := (DmRatchet.nextOutboundKey P build).run ratchet
      Method.set { session with ratchet := some advance.2 }
      let keyed ← Method.lift advance.1
      return (keyed.1, keyed.2, advance.2.epoch)

/-- Seal a plaintext with the current ratchet. -/
def DmSession.sealNext (plaintext : Bytes) (draws : SealDraws) :
    Method DmSession DmSessionError SealedDmFrame := do
  let (idx, key, epoch) ← nextOutbound P build
  let session ← Method.get
  let kam := if idx < kamRepeat then session.currentKam else none
  let aad := frameAad epoch idx
  let body ← Method.lift
    (Outcome.ofOption .openFailed (P.aeadEncrypt key draws.frameNonce aad plaintext))
  return { epoch := epoch, index := idx, nonce := draws.frameNonce.val, body := body, kam := kam }

/-- Seal a plaintext to the peer, starting a fresh epoch as needed. -/
def DmSession.seal (plaintext peerHybridPub : Bytes) (draws : SealDraws) :
    Method DmSession DmSessionError SealedDmFrame := do
  let session ← Method.get
  let beginning ← Method.lift (session.beginAt build draws.now)
  match beginning with
  | some epoch => beginEpoch P epoch peerHybridPub draws
  | none => pure ()
  sealNext P build plaintext draws

/-- Open the body of a frame with the secret of its epoch. A nonce that is not
12 bytes long panics. -/
def DmSession.openBody (secret : EpochSecret) (frame : SealedDmFrame) :
    Outcome DmSessionError Bytes := do
  let key ← (deriveDmMessageKey P secret.val frame.epoch frame.index).mapError .ratchet
  let aad := frameAad frame.epoch frame.index
  let nonce ← copyFromSlice 12 frame.nonce
  Outcome.ofOption .openFailed (P.aeadDecrypt key nonce aad frame.body)

/-- Open a frame with the stored secret of its epoch. -/
def DmSession.openStored (frame : SealedDmFrame) : Method DmSession DmSessionError Bytes := do
  let session ← Method.get
  let secret ← Method.lift
    (Outcome.ofOption (.missingEpochSecret frame.epoch) session.epochSecrets[frame.epoch]?)
  Method.lift (openBody P secret frame)

/-- Open a sealed frame, accepting its KAM when the epoch is not yet known. -/
def DmSession.open (frame : SealedDmFrame) (myHybridPriv : Bytes) :
    Method DmSession DmSessionError Bytes := do
  let session ← Method.get
  match frame.kam, session.epochSecrets[frame.epoch]? with
  | some kam, none =>
      let secret ← Method.lift ((unwrapDmEpochSecret P kam myHybridPriv).mapError .ratchet)
      Method.set (session.installed frame.epoch secret)
  | _, _ => pure ()
  openStored P frame

end Methods

/-! ## What a call can do -/

namespace DmSession

/-- The session and the ratchet that the next frame is sent from: the current
ones, or those of an epoch that begins. -/
inductive Keyed (P : Primitives) (build : Build) (session : DmSession) (peerHybridPub : Bytes)
    (draws : SealDraws) : DmSession → DmRatchet → Prop
  | current {ratchet : DmRatchet} (holds : session.ratchet = some ratchet)
      (young : ratchet.shouldRekey draws.now = false) :
      Keyed P build session peerHybridPub draws session ratchet
  | fresh {epoch : UInt64} {kam : Bytes}
      (beginning : (session.beginAt build draws.now : Outcome DmSessionError _) = .ok (some epoch))
      (wrapped : wrapDmEpochSecret P draws.epochSecret.val peerHybridPub draws.wrap = .ok kam) :
      Keyed P build session peerHybridPub draws
        (session.begun epoch draws.epochSecret kam draws.startedAt)
        (DmRatchet.withBounds epoch draws.epochSecret session.rekeyMsgBound
          session.rekeyAgeSeconds draws.startedAt)

/-- What a call of `seal` can do: the outcome, and the session afterwards. -/
inductive SealStep (P : Primitives) (build : Build) (session : DmSession)
    (plaintext peerHybridPub : Bytes) (draws : SealDraws) :
    Outcome DmSessionError SealedDmFrame × DmSession → Prop
  /-- The epoch number overflows. -/
  | overflow
      (beginning : (session.beginAt build draws.now : Outcome DmSessionError _) = .panic) :
      SealStep P build session plaintext peerHybridPub draws (.panic, session)
  /-- The epoch secret cannot be wrapped to the peer's key. -/
  | wrapFailed {epoch : UInt64} {reason : RatchetError}
      (beginning : (session.beginAt build draws.now : Outcome DmSessionError _) = .ok (some epoch))
      (failed : wrapDmEpochSecret P draws.epochSecret.val peerHybridPub draws.wrap =
        .error reason) :
      SealStep P build session plaintext peerHybridPub draws (.error (.ratchet reason), session)
  /-- The plaintext is too long to encrypt. The message index stays used. -/
  | encryptFailed {keyed : DmSession} {ratchet : DmRatchet}
      (key : Keyed P build session peerHybridPub draws keyed ratchet)
      (failed : P.aeadEncrypt (messageKey P ratchet.epochSecret ratchet.epoch
        ratchet.messageIndex) draws.frameNonce (frameAad ratchet.epoch ratchet.messageIndex)
        plaintext = none) :
      SealStep P build session plaintext peerHybridPub draws
        (.error .openFailed, keyed.advanced ratchet)
  | emitted {keyed : DmSession} {ratchet : DmRatchet} {body : Bytes}
      (key : Keyed P build session peerHybridPub draws keyed ratchet)
      (encrypted : P.aeadEncrypt (messageKey P ratchet.epochSecret ratchet.epoch
        ratchet.messageIndex) draws.frameNonce (frameAad ratchet.epoch ratchet.messageIndex)
        plaintext = some body) :
      SealStep P build session plaintext peerHybridPub draws
        (.ok
          { epoch := ratchet.epoch
            index := ratchet.messageIndex
            nonce := draws.frameNonce.val
            body := body
            kam := if ratchet.messageIndex < kamRepeat then keyed.currentKam else none },
        keyed.advanced ratchet)

/-- What a call of `open` can do: the outcome, and the session afterwards. -/
inductive OpenStep (P : Primitives) (session : DmSession) (frame : SealedDmFrame)
    (myHybridPriv : Bytes) : Outcome DmSessionError Bytes × DmSession → Prop
  /-- The epoch is unknown and the KAM does not unwrap. -/
  | kamRejected {kam : Bytes} {reason : RatchetError} (carried : frame.kam = some kam)
      (vacant : session.epochSecrets[frame.epoch]? = none)
      (failed : unwrapDmEpochSecret P kam myHybridPriv = .error reason) :
      OpenStep P session frame myHybridPriv (.error (.ratchet reason), session)
  /-- The epoch is unknown and its secret is installed from the KAM. -/
  | installed {kam : Bytes} {secret : EpochSecret} (carried : frame.kam = some kam)
      (vacant : session.epochSecrets[frame.epoch]? = none)
      (unwrapped : unwrapDmEpochSecret P kam myHybridPriv = .ok secret) :
      OpenStep P session frame myHybridPriv
        (openBody P secret frame, session.installed frame.epoch secret)
  /-- The epoch is unknown and there is no KAM. -/
  | missing (bare : frame.kam = none) (vacant : session.epochSecrets[frame.epoch]? = none) :
      OpenStep P session frame myHybridPriv (.error (.missingEpochSecret frame.epoch), session)
  /-- The epoch is known, whatever the frame carries. -/
  | known {secret : EpochSecret} (stored : session.epochSecrets[frame.epoch]? = some secret) :
      OpenStep P session frame myHybridPriv (openBody P secret frame, session)

variable {P : Primitives} {build : Build}

/-! ### The store -/

@[simp] theorem getElem?_installed_self (session : DmSession) (epoch : UInt64)
    (secret : EpochSecret) :
    (session.installed epoch secret).epochSecrets[epoch]? = some secret := by
  simp [installed]

theorem getElem?_installed_of_ne (session : DmSession) {epoch other : UInt64}
    (secret : EpochSecret) (different : epoch ≠ other) :
    (session.installed epoch secret).epochSecrets[other]? = session.epochSecrets[other]? := by
  simp [installed, Std.ExtTreeMap.getElem?_insert, different]

@[simp] theorem getElem?_begun_self (session : DmSession) (epoch : UInt64) (secret : EpochSecret)
    (kam : Bytes) (startedAt : Rat) :
    (session.begun epoch secret kam startedAt).epochSecrets[epoch]? = some secret := by
  simp [begun]

theorem getElem?_begun_of_ne (session : DmSession) {epoch other : UInt64} (secret : EpochSecret)
    (kam : Bytes) (startedAt : Rat) (different : epoch ≠ other) :
    (session.begun epoch secret kam startedAt).epochSecrets[other]? =
      session.epochSecrets[other]? := by
  simp [begun, Std.ExtTreeMap.getElem?_insert, different]

/-! ### Sealing -/

theorem beginAt_of_ratchet_none {ε : Type} {session : DmSession} (build : Build) (now : Rat)
    (idle : session.ratchet = none) :
    (session.beginAt build now : Outcome ε (Option UInt64)) = .ok (some 0) := by
  simp only [beginAt, idle]

theorem beginAt_eq_none {ε : Type} {session : DmSession} {now : Rat}
    (staying : (session.beginAt build now : Outcome ε (Option UInt64)) = .ok none) :
    ∃ ratchet, session.ratchet = some ratchet ∧ ratchet.shouldRekey now = false := by
  unfold beginAt at staying
  split at staying
  · cases staying
  · rename_i ratchet holds
    split at staying
    · obtain ⟨epoch, _, done⟩ := Outcome.bind_eq_ok.mp staying
      cases done
    · rename_i young
      exact ⟨ratchet, holds, by simpa using young⟩

theorem beginAt_ne_error {ε : Type} {session : DmSession} {now : Rat} {reason : ε} :
    (session.beginAt build now : Outcome ε (Option UInt64)) ≠ .error reason := by
  unfold beginAt
  split
  · simp
  · rename_i ratchet _
    split
    · rcases build.addU64_cases (ε := ε) ratchet.epoch 1 with sum | sum <;> simp [sum]
    · simp

/-- The epoch that begins is the first one, or the one after the current. -/
theorem beginAt_eq_some {ε : Type} {session : DmSession} {now : Rat} {epoch : UInt64}
    (beginning : (session.beginAt build now : Outcome ε (Option UInt64)) = .ok (some epoch)) :
    session.ratchet = none ∧ epoch = 0 ∨
      ∃ ratchet, session.ratchet = some ratchet ∧ ratchet.shouldRekey now = true ∧
        epoch = ratchet.epoch + 1 ∧
        (build.overflowChecks = true → ratchet.epoch.toNat + 1 < 2 ^ 64) := by
  unfold beginAt at beginning
  split at beginning
  · rename_i idle
    cases beginning
    exact .inl ⟨idle, rfl⟩
  · rename_i ratchet holds
    split at beginning
    · rename_i due
      obtain ⟨sum, added, done⟩ := Outcome.bind_eq_ok.mp beginning
      cases done
      exact .inr ⟨ratchet, holds, due, Build.addU64_eq_ok.mp added⟩
    · cases beginning

/-- The session a frame is sent from holds its ratchet. -/
theorem Keyed.ratchet_eq {session keyed : DmSession} {peerHybridPub : Bytes} {draws : SealDraws}
    {ratchet : DmRatchet} (key : Keyed P build session peerHybridPub draws keyed ratchet) :
    keyed.ratchet = some ratchet := by
  cases key with
  | current holds young => exact holds
  | fresh beginning wrapped => rfl

/-- A message index never overflows: it is zero or below the message bound. -/
theorem Keyed.room {session keyed : DmSession} {peerHybridPub : Bytes} {draws : SealDraws}
    {ratchet : DmRatchet} (key : Keyed P build session peerHybridPub draws keyed ratchet) :
    ratchet.messageIndex.toNat + 1 < 2 ^ 64 := by
  cases key with
  | current holds young =>
      have below := UInt64.lt_iff_toNat_lt.mp (DmRatchet.shouldRekey_eq_false.mp young).1
      have bound := ratchet.rekeyMsgBound.toNat_lt
      omega
  | fresh beginning wrapped => exact (by decide : (0 : Nat) + 1 < 2 ^ 64)

section

variable {session : DmSession} (plaintext peerHybridPub : Bytes) (draws : SealDraws)

/-- Sealing with the current ratchet: the ratchet advances whether or not the
body can be encrypted. -/
theorem run_sealNext {ratchet : DmRatchet} (holds : session.ratchet = some ratchet)
    (room : ratchet.messageIndex.toNat + 1 < 2 ^ 64) :
    (sealNext P build plaintext draws).run session =
      (match P.aeadEncrypt (messageKey P ratchet.epochSecret ratchet.epoch ratchet.messageIndex)
          draws.frameNonce (frameAad ratchet.epoch ratchet.messageIndex) plaintext with
        | some body => .ok
            { epoch := ratchet.epoch
              index := ratchet.messageIndex
              nonce := draws.frameNonce.val
              body := body
              kam := if ratchet.messageIndex < kamRepeat then session.currentKam else none }
        | none => .error .openFailed,
      session.advanced ratchet) := by
  have next : (nextOutbound P build).run session =
      (.ok (ratchet.messageIndex, messageKey P ratchet.epochSecret ratchet.epoch
        ratchet.messageIndex, ratchet.epoch), session.advanced ratchet) := by
    simp only [nextOutbound, Method.run_get_bind, holds, DmRatchet.run_nextOutboundKey build room,
      Method.run_set_bind, Method.run_lift_bind, Method.run_pure, advanced]
  rw [sealNext, Method.run_bind_ok next]
  simp only [Method.run_get_bind, Method.run_lift_bind]
  cases P.aeadEncrypt (messageKey P ratchet.epochSecret ratchet.epoch ratchet.messageIndex)
      draws.frameNonce (frameAad ratchet.epoch ratchet.messageIndex) plaintext with
  | none => rfl
  | some body => rfl

theorem run_seal_of_overflow
    (beginning : (session.beginAt build draws.now : Outcome DmSessionError _) = .panic) :
    (DmSession.seal P build plaintext peerHybridPub draws).run session = (.panic, session) := by
  simp only [DmSession.seal, Method.run_get_bind, Method.run_lift_bind, beginning]

/-- Sealing in the current epoch. -/
theorem run_seal_of_current
    (beginning : (session.beginAt build draws.now : Outcome DmSessionError _) = .ok none) :
    (DmSession.seal P build plaintext peerHybridPub draws).run session =
      (sealNext P build plaintext draws).run session := by
  simp only [DmSession.seal, Method.run_get_bind, Method.run_lift_bind, beginning]

/-- Sealing the first frame of an epoch. -/
theorem run_seal_of_begin {epoch : UInt64}
    (beginning : (session.beginAt build draws.now : Outcome DmSessionError _) = .ok (some epoch)) :
    (DmSession.seal P build plaintext peerHybridPub draws).run session =
      match wrapDmEpochSecret P draws.epochSecret.val peerHybridPub draws.wrap with
      | .ok kam => (sealNext P build plaintext draws).run
          (session.begun epoch draws.epochSecret kam draws.startedAt)
      | .error reason => (.error (.ratchet reason), session)
      | .panic => (.panic, session) := by
  have begins : (beginEpoch P epoch peerHybridPub draws).run session =
      match wrapDmEpochSecret P draws.epochSecret.val peerHybridPub draws.wrap with
      | .ok kam => (.ok (), session.begun epoch draws.epochSecret kam draws.startedAt)
      | .error reason => (.error (.ratchet reason), session)
      | .panic => (.panic, session) := by
    rw [beginEpoch, Method.run_lift_bind]
    cases wrapDmEpochSecret P draws.epochSecret.val peerHybridPub draws.wrap <;> rfl
  simp only [DmSession.seal, Method.run_get_bind, Method.run_lift_bind, beginning]
  change (beginEpoch P epoch peerHybridPub draws >>= fun _ =>
    sealNext P build plaintext draws).run session = _
  cases wrapped : wrapDmEpochSecret P draws.epochSecret.val peerHybridPub draws.wrap with
  | ok kam =>
      rw [wrapped] at begins
      exact Method.run_bind_ok begins
  | error reason =>
      rw [wrapped] at begins
      exact Method.run_bind_error begins
  | panic =>
      rw [wrapped] at begins
      exact Method.run_bind_panic begins

end

/-- Once the session is keyed, sealing goes on with the body. -/
theorem run_seal_of_keyed {session keyed : DmSession} {plaintext peerHybridPub : Bytes}
    {draws : SealDraws} {ratchet : DmRatchet}
    (key : Keyed P build session peerHybridPub draws keyed ratchet) :
    (DmSession.seal P build plaintext peerHybridPub draws).run session =
      (sealNext P build plaintext draws).run keyed := by
  cases key with
  | current holds young =>
      have staying : (session.beginAt build draws.now : Outcome DmSessionError (Option UInt64)) =
          .ok none := by simp [beginAt, holds, young]
      exact run_seal_of_current plaintext peerHybridPub draws staying
  | fresh beginning wrapped =>
      rw [run_seal_of_begin plaintext peerHybridPub draws beginning, wrapped]

/-- What sealing does once the session is keyed. -/
theorem sealStep_of_keyed {session keyed : DmSession} {plaintext peerHybridPub : Bytes}
    {draws : SealDraws} {ratchet : DmRatchet}
    (key : Keyed P build session peerHybridPub draws keyed ratchet) :
    SealStep P build session plaintext peerHybridPub draws
      ((DmSession.seal P build plaintext peerHybridPub draws).run session) := by
  rw [run_seal_of_keyed key, run_sealNext plaintext draws key.ratchet_eq key.room]
  cases encrypted : P.aeadEncrypt (messageKey P ratchet.epochSecret ratchet.epoch
      ratchet.messageIndex) draws.frameNonce (frameAad ratchet.epoch ratchet.messageIndex)
      plaintext with
  | none => exact .encryptFailed key encrypted
  | some body => exact .emitted key encrypted

/-- **What a call of `seal` can do.** -/
theorem run_seal (P : Primitives) (build : Build) (session : DmSession)
    (plaintext peerHybridPub : Bytes) (draws : SealDraws) :
    SealStep P build session plaintext peerHybridPub draws
      ((DmSession.seal P build plaintext peerHybridPub draws).run session) := by
  cases beginning : (session.beginAt build draws.now : Outcome DmSessionError _) with
  | error reason => exact absurd beginning beginAt_ne_error
  | panic =>
      rw [run_seal_of_overflow plaintext peerHybridPub draws beginning]
      exact .overflow beginning
  | ok begins =>
      cases begins with
      | none =>
          obtain ⟨ratchet, holds, young⟩ := beginAt_eq_none beginning
          exact sealStep_of_keyed (.current holds young)
      | some epoch =>
          cases wrapped : wrapDmEpochSecret P draws.epochSecret.val peerHybridPub draws.wrap with
          | panic => exact absurd wrapped (wrapDmEpochSecret_ne_panic _ _ _)
          | error reason =>
              rw [run_seal_of_begin plaintext peerHybridPub draws beginning, wrapped]
              exact .wrapFailed beginning wrapped
          | ok kam => exact sealStep_of_keyed (.fresh beginning wrapped)

/-! ### Opening -/

theorem run_openStored {session : DmSession} {frame : SealedDmFrame} {secret : EpochSecret}
    (stored : session.epochSecrets[frame.epoch]? = some secret) :
    (openStored P frame).run session = (openBody P secret frame, session) := by
  simp only [openStored, Method.run_get_bind, Method.run_lift_bind, stored,
    Outcome.ofOption_some, Method.run_lift]

section

variable {session : DmSession} {frame : SealedDmFrame} (myHybridPriv : Bytes)

/-- A known epoch: the KAM is not looked at. -/
theorem run_open_of_stored {secret : EpochSecret}
    (stored : session.epochSecrets[frame.epoch]? = some secret) :
    (DmSession.open P frame myHybridPriv).run session = (openBody P secret frame, session) := by
  have opened : (openStored P frame).run session = (openBody P secret frame, session) :=
    run_openStored stored
  rw [DmSession.open, Method.run_get_bind, stored]
  cases frame.kam with
  | none => exact opened
  | some kam => exact opened

/-- An unknown epoch without a KAM. -/
theorem run_open_of_bare (vacant : session.epochSecrets[frame.epoch]? = none)
    (bare : frame.kam = none) :
    (DmSession.open P frame myHybridPriv).run session =
      (.error (.missingEpochSecret frame.epoch), session) := by
  rw [DmSession.open, Method.run_get_bind, vacant, bare]
  change (openStored P frame).run session = _
  simp only [openStored, Method.run_get_bind, Method.run_lift_bind, vacant, Outcome.ofOption_none]

/-- An unknown epoch with a KAM: its secret is installed before the body is
opened. -/
theorem run_open_of_kam {kam : Bytes} (vacant : session.epochSecrets[frame.epoch]? = none)
    (carried : frame.kam = some kam) :
    (DmSession.open P frame myHybridPriv).run session =
      match unwrapDmEpochSecret P kam myHybridPriv with
      | .ok secret => (openBody P secret frame, session.installed frame.epoch secret)
      | .error reason => (.error (.ratchet reason), session)
      | .panic => (.panic, session) := by
  rw [DmSession.open, Method.run_get_bind, vacant, carried]
  cases unwrapped : unwrapDmEpochSecret P kam myHybridPriv with
  | panic => simp only [unwrapped, Outcome.mapError_panic, Method.run_lift_bind]
  | error reason => simp only [unwrapped, Outcome.mapError_error, Method.run_lift_bind]
  | ok secret =>
      have opened : (openStored P frame).run (session.installed frame.epoch secret) =
          (openBody P secret frame, session.installed frame.epoch secret) :=
        run_openStored (getElem?_installed_self session frame.epoch secret)
      simpa only [unwrapped, Outcome.mapError_ok, Method.run_lift_bind, Method.run_set_bind]
        using opened

end

/-- **What a call of `open` can do.** -/
theorem run_open (P : Primitives) (session : DmSession) (frame : SealedDmFrame)
    (myHybridPriv : Bytes) :
    OpenStep P session frame myHybridPriv
      ((DmSession.open P frame myHybridPriv).run session) := by
  cases stored : session.epochSecrets[frame.epoch]? with
  | some secret =>
      rw [run_open_of_stored myHybridPriv stored]
      exact .known stored
  | none =>
      cases carried : frame.kam with
      | none =>
          rw [run_open_of_bare myHybridPriv stored carried]
          exact .missing carried stored
      | some kam =>
          rw [run_open_of_kam myHybridPriv stored carried]
          cases unwrapped : unwrapDmEpochSecret P kam myHybridPriv with
          | panic => exact absurd unwrapped (unwrapDmEpochSecret_ne_panic _ _)
          | error reason => exact .kamRejected carried stored unwrapped
          | ok secret => exact .installed carried stored unwrapped

/-- Every outcome of opening a body: a wrong nonce length panics, and otherwise the
AEAD decides. -/
theorem openBody_eq (secret : EpochSecret) (frame : SealedDmFrame) :
    openBody P secret frame =
      if same : frame.nonce.length = 12 then
        Outcome.ofOption .openFailed
          (P.aeadDecrypt (messageKey P secret frame.epoch frame.index) ⟨frame.nonce, same⟩
            (frameAad frame.epoch frame.index) frame.body)
      else .panic := by
  unfold openBody copyFromSlice
  rw [deriveDmMessageKey_secret]
  split <;> rfl

end DmSession

end SkPqc

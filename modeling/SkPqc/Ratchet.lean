import SkPqc.HybridBox
import Mathlib.Algebra.Order.Ring.Rat

/-!
# The DM epoch ratchet

An epoch secret is distributed once per epoch, wrapped to the peer's hybrid key,
and every message key of the epoch is derived from it by index.

The wall clock is an argument. Its readings are finite `f64` values in the code
and exact rationals here, so the age of an epoch is exact as well.

A wrapped secret unwraps to itself under the recipient's private key
(`unwrap_wrapDmEpochSecret`), and neither direction panics.
-/

set_option autoImplicit false

namespace SkPqc
namespace Ratchet

open Library Kem HybridBox

/-! ## Constants -/

def epochSecretLen : Nat := 32

def defaultRekeyMsgBound : UInt64 := 50
def defaultRekeyAgeSeconds : UInt64 := 7 * 24 * 3600

/-- The epoch number is folded into the HKDF salt. -/
def epochSaltPrefix : Bytes := utf8 "skchat/dm-epoch/"

/-- The message index is folded into the HKDF info. -/
def msgInfoPrefix : Bytes := utf8 "skchat/dm-ratchet/msg/v1/"

/-- The HKDF info of the epoch-secret wrap. -/
def infoDmWrap : Bytes := utf8 "skchat/dm-ratchet/epoch-wrap/v1"

def wrapNonceLen : Nat := 12
def wrappedSecretLen : Nat := epochSecretLen + 16
def wrappedPayloadLen : Nat := ciphertextLen + wrapNonceLen + wrappedSecretLen

/-- An epoch secret: an array of 32 bytes. -/
abbrev EpochSecret : Type := FixedBytes 32

/-- Errors of the key schedule and of epoch-secret distribution. -/
inductive RatchetError where
  | badSecretLen (got : Nat)
  | badPublicKeyLen (got : Nat)
  | badPayloadLen (got : Nat)
  | kem (reason : KemError)
  | unwrapFailed
  deriving DecidableEq, Repr

def RatchetError.display : RatchetError → String
  | .badSecretLen got =>
      "epoch_secret must be " ++ toString epochSecretLen ++ " bytes, got " ++ toString got
  | .badPublicKeyLen got =>
      "peer hybrid public key must be " ++ toString publicKeyLen ++ " bytes, got " ++ toString got
  | .badPayloadLen got =>
      "wrapped epoch payload must be " ++ toString wrappedPayloadLen ++ " bytes, got " ++
        toString got
  | .kem reason => "hybrid KEM error: " ++ reason.display
  | .unwrapFailed => "dm epoch-secret unwrap failed"

/-- A KEM error is propagated, and an AEAD failure is an unwrap failure. -/
def RatchetError.ofBox : BoxError → RatchetError
  | .kem reason => .kem reason
  | .aead => .unwrapFailed

/-! ## The key schedule -/

section Functions

variable (P : Primitives)

def deriveDmMessageKey (epochSecret : Bytes) (epoch index : UInt64) :
    Outcome RatchetError Bytes :=
  if epochSecret.length ≠ epochSecretLen then .error (.badSecretLen epochSecret.length)
  else .ok (P.hkdf (epochSaltPrefix ++ u64ToBe epoch) epochSecret (msgInfoPrefix ++ u64ToBe index))

/-- Whether the message count or the age says that the epoch should re-key. -/
def shouldRekey (messageIndex : UInt64) (epochStartedAt now : Rat)
    (rekeyMsgBound rekeyAgeSeconds : UInt64) : Bool :=
  if messageIndex ≥ rekeyMsgBound then true
  else now - epochStartedAt ≥ (rekeyAgeSeconds.toNat : Rat)

/-! ## Distribution of epoch secrets -/

/-- Wrap an epoch secret to a peer's hybrid public key, with no associated
data. -/
def wrapDmEpochSecret (epochSecret peerHybridPub : Bytes) (draws : BoxDraws) :
    Outcome RatchetError Bytes :=
  if epochSecret.length ≠ epochSecretLen then .error (.badSecretLen epochSecret.length)
  else if peerHybridPub.length ≠ publicKeyLen then .error (.badPublicKeyLen peerHybridPub.length)
  else (sealBox P infoDmWrap [] epochSecret peerHybridPub draws).mapError .ofBox

/-- Recover an epoch secret with the recipient's hybrid private key. -/
def unwrapDmEpochSecret (payload peerHybridPriv : Bytes) : Outcome RatchetError EpochSecret :=
  if payload.length ≠ wrappedPayloadLen then .error (.badPayloadLen payload.length)
  else do
    let plain ← (openBox P infoDmWrap [] payload peerHybridPriv).mapError .ofBox
    if plain.length ≠ epochSecretLen then .error .unwrapFailed
    else copyFromSlice 32 plain

end Functions

/-! ## The ratchet state -/

/-- The ratchet of one conversation epoch. -/
structure DmRatchet where
  epoch : UInt64
  epochSecret : EpochSecret
  /-- Next outbound message index. -/
  messageIndex : UInt64
  rekeyMsgBound : UInt64
  rekeyAgeSeconds : UInt64
  /-- When the epoch started, in POSIX seconds. -/
  epochStartedAt : Rat
  deriving DecidableEq

/-- A ratchet at index 0, started now. -/
def DmRatchet.withBounds (epoch : UInt64) (epochSecret : EpochSecret)
    (rekeyMsgBound rekeyAgeSeconds : UInt64) (now : Rat) : DmRatchet where
  epoch := epoch
  epochSecret := epochSecret
  messageIndex := 0
  rekeyMsgBound := rekeyMsgBound
  rekeyAgeSeconds := rekeyAgeSeconds
  epochStartedAt := now

/-- The key of the next message to send, with its index. Advances the counter. -/
def DmRatchet.nextOutboundKey (P : Primitives) (build : Build) {ε : Type} :
    Method DmRatchet ε (UInt64 × Bytes) := do
  let ratchet ← Method.get
  let idx := ratchet.messageIndex
  let key ← Method.lift (deriveDmMessageKey P ratchet.epochSecret.val ratchet.epoch idx).expect
  let messageIndex ← Method.lift (build.addU64 ratchet.messageIndex 1)
  Method.set { ratchet with messageIndex := messageIndex }
  return (idx, key)

def DmRatchet.shouldRekey (ratchet : DmRatchet) (now : Rat) : Bool :=
  Ratchet.shouldRekey ratchet.messageIndex ratchet.epochStartedAt now ratchet.rekeyMsgBound
    ratchet.rekeyAgeSeconds

/-! ## What the functions compute -/

/-- The message key of an epoch secret, which is always 32 bytes long. -/
def messageKey (P : Primitives) (secret : EpochSecret) (epoch index : UInt64) : Bytes :=
  P.hkdf (epochSaltPrefix ++ u64ToBe epoch) secret.val (msgInfoPrefix ++ u64ToBe index)

variable {P : Primitives}

@[simp] theorem deriveDmMessageKey_secret (secret : EpochSecret) (epoch index : UInt64) :
    deriveDmMessageKey P secret.val epoch index = .ok (messageKey P secret epoch index) := by
  simp [deriveDmMessageKey, messageKey, secret.property, epochSecretLen]

/-- A ratchet that need not re-key is below its message bound and younger than
its age bound. -/
theorem DmRatchet.shouldRekey_eq_false {ratchet : DmRatchet} {now : Rat} :
    ratchet.shouldRekey now = false ↔
      ratchet.messageIndex < ratchet.rekeyMsgBound ∧
        now - ratchet.epochStartedAt < (ratchet.rekeyAgeSeconds.toNat : Rat) := by
  unfold DmRatchet.shouldRekey Ratchet.shouldRekey
  by_cases bound : ratchet.messageIndex ≥ ratchet.rekeyMsgBound
  · simp only [if_pos bound]
    constructor
    · intro impossible
      cases impossible
    · rintro ⟨below, _⟩
      exact absurd below (UInt64.not_lt.mpr bound)
  · simp only [if_neg bound, decide_eq_false_iff_not, ge_iff_le, not_le]
    exact ⟨fun young => ⟨UInt64.not_le.mp bound, young⟩, fun both => both.2⟩

/-- Below its bound a counter advances without overflow. -/
theorem DmRatchet.run_nextOutboundKey {ε : Type} (build : Build) {ratchet : DmRatchet}
    (room : ratchet.messageIndex.toNat + 1 < 2 ^ 64) :
    (DmRatchet.nextOutboundKey P build (ε := ε)).run ratchet =
      (.ok (ratchet.messageIndex, messageKey P ratchet.epochSecret ratchet.epoch
          ratchet.messageIndex),
        { ratchet with messageIndex := ratchet.messageIndex + 1 }) := by
  have advanced : (build.addU64 ratchet.messageIndex 1 : Outcome ε UInt64) =
      .ok (ratchet.messageIndex + 1) := build.addU64_of_lt room
  simp only [DmRatchet.nextOutboundKey, Method.run_get_bind, Method.run_lift_bind,
    deriveDmMessageKey_secret, Outcome.expect_ok, advanced, Method.run_set_bind, Method.run_pure]

theorem wrapDmEpochSecret_secret (secret : EpochSecret) (peerHybridPub : Bytes)
    (draws : BoxDraws) :
    wrapDmEpochSecret P secret.val peerHybridPub draws =
      if peerHybridPub.length ≠ publicKeyLen then .error (.badPublicKeyLen peerHybridPub.length)
      else (sealBox P infoDmWrap [] secret.val peerHybridPub draws).mapError .ofBox := by
  simp [wrapDmEpochSecret, secret.property, epochSecretLen]

theorem wrapDmEpochSecret_ne_panic (epochSecret peerHybridPub : Bytes) (draws : BoxDraws) :
    wrapDmEpochSecret P epochSecret peerHybridPub draws ≠ .panic := by
  unfold wrapDmEpochSecret
  split
  · simp
  · split
    · simp
    · simp [sealBox_ne_panic]

/-- A successful wrap is a sealed box around a secret of the right length. -/
theorem wrapDmEpochSecret_eq_ok {epochSecret peerHybridPub payload : Bytes} {draws : BoxDraws}
    (wrapped : wrapDmEpochSecret P epochSecret peerHybridPub draws = .ok payload) :
    epochSecret.length = epochSecretLen ∧
      sealBox P infoDmWrap [] epochSecret peerHybridPub draws = .ok payload := by
  obtain ⟨length, wrapped⟩ := Outcome.ite_error_eq_ok.mp wrapped
  obtain ⟨-, wrapped⟩ := Outcome.ite_error_eq_ok.mp wrapped
  exact ⟨not_not.mp length, Outcome.mapError_eq_ok.mp wrapped⟩

/-- Unwrapping fails cleanly on every payload and every private key. -/
theorem unwrapDmEpochSecret_ne_panic (payload peerHybridPriv : Bytes) :
    unwrapDmEpochSecret P payload peerHybridPriv ≠ .panic := by
  unfold unwrapDmEpochSecret
  split
  · simp
  · rename_i length
    have long : bodyOffset ≤ payload.length := by
      rw [not_not.mp length]
      decide
    intro panicked
    rcases Outcome.bind_eq_panic.mp panicked with opened | ⟨plain, _, copied⟩
    · exact openBox_ne_panic _ _ _ long (Outcome.mapError_eq_panic.mp opened)
    · split at copied
      · cases copied
      · rename_i same
        exact copyFromSlice_eq_panic.mp copied (not_not.mp same)

/-- **An epoch secret wrapped to a generated key pair unwraps to itself.** -/
theorem unwrap_wrapDmEpochSecret (kem : P.KemCorrect) (aead : P.AeadCorrect) (keys : KeypairDraws)
    {secret : EpochSecret} {payload : Bytes} {draws : BoxDraws}
    (wrapped : wrapDmEpochSecret P secret.val (hybridKeypair P keys).publicKey draws =
      .ok payload) :
    unwrapDmEpochSecret P payload (hybridKeypair P keys).privateKey = .ok secret := by
  obtain ⟨-, made⟩ := wrapDmEpochSecret_eq_ok wrapped
  have length : payload.length = wrappedPayloadLen := by
    rw [length_sealBox aead made, secret.property]
    rfl
  simp only [unwrapDmEpochSecret, length, ne_eq, not_true_eq_false, if_false,
    openBox_sealBox kem aead keys made, Outcome.mapError_ok, Outcome.ok_bind, secret.property,
    epochSecretLen, copyFromSlice_val]

end Ratchet
end SkPqc

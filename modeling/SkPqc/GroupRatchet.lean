import SkPqc.HybridBox

/-!
# The group ratchet

Once per epoch and member, the epoch secret of a group is wrapped to the member's
hybrid key, with no associated data. The layout is that of the DM ratchet under a
label of its own, and the two unwrap functions differ in what they check first
and in the error they give a plaintext of the wrong length.

Message keys are derived by index from the epoch secret. The sender counts the
messages of an epoch, and a receiver uses the index that a message carries.
-/

set_option autoImplicit false

namespace SkPqc
namespace GroupRatchet

open Library Kem HybridBox

def epochSecretLen : Nat := 32

/-- The HKDF info of the epoch-secret wrap. -/
def epochWrapInfo : Bytes := utf8 "skchat/group-ratchet/epoch-wrap/v1"

/-- The epoch number is folded into the HKDF salt of a message key. -/
def msgSaltPrefix : Bytes := utf8 "skchat/epoch/"

/-- The message index is folded into the HKDF info. -/
def msgInfoPrefix : Bytes := utf8 "skchat/group-ratchet/msg/v1/"

def defaultRekeyMsgBound : UInt64 := 50
def defaultRekeyAgeSeconds : UInt64 := 7 * 24 * 3600

def wrapNonceLen : Nat := 12
def wrappedSecretLen : Nat := epochSecretLen + 16
def wrappedPayloadLen : Nat := ciphertextLen + wrapNonceLen + wrappedSecretLen

/-- Errors of the group ratchet. -/
inductive GroupRatchetError where
  | badSecretLen (got : Nat)
  | badPublicKeyLen (got : Nat)
  | badPrivateKeyLen (got : Nat)
  | badPayloadLen (got : Nat)
  | kem (reason : KemError)
  | unwrapFailed
  deriving DecidableEq, Repr

def GroupRatchetError.ofBox : BoxError → GroupRatchetError
  | .kem reason => .kem reason
  | .aead => .unwrapFailed

section Functions

variable (P : Primitives)

/-- Wrap an epoch secret to a member's hybrid public key. -/
def wrapEpochSecret (epochSecret memberHybridPub : Bytes) (draws : BoxDraws) :
    Outcome GroupRatchetError Bytes :=
  if epochSecret.length ≠ epochSecretLen then .error (.badSecretLen epochSecret.length)
  else if memberHybridPub.length ≠ publicKeyLen then
    .error (.badPublicKeyLen memberHybridPub.length)
  else (sealBox P epochWrapInfo [] epochSecret memberHybridPub draws).mapError .ofBox

/-- Recover an epoch secret with the member's hybrid private key. -/
def unwrapEpochSecret (payload memberHybridPriv : Bytes) :
    Outcome GroupRatchetError (FixedBytes 32) :=
  if payload.length ≠ wrappedPayloadLen then .error (.badPayloadLen payload.length)
  else if memberHybridPriv.length ≠ privateKeyLen then
    .error (.badPrivateKeyLen memberHybridPriv.length)
  else do
    let plaintext ← (openBox P epochWrapInfo [] payload memberHybridPriv).mapError .ofBox
    Outcome.ofOption (.badSecretLen plaintext.length) (tryIntoArray 32 plaintext)

/-! ## Message keys -/

def deriveMessageKeyArr (epochSecret : FixedBytes 32) (epoch index : UInt64) : Bytes :=
  P.hkdf (msgSaltPrefix ++ u64ToBe epoch) epochSecret.val (msgInfoPrefix ++ u64ToBe index)

def deriveMessageKey (epochSecret : Bytes) (epoch index : UInt64) :
    Outcome GroupRatchetError Bytes := do
  let es ← Outcome.ofOption (.badSecretLen epochSecret.length) (tryIntoArray 32 epochSecret)
  return deriveMessageKeyArr P es epoch index

end Functions

/-- The ratchet of one group epoch, at the sender or at a receiver. -/
structure EpochRatchet where
  epoch : UInt64
  epochSecret : FixedBytes 32
  /-- Next outbound message index. -/
  messageIndex : UInt64
  rekeyMsgBound : UInt64
  rekeyAgeSeconds : UInt64
  /-- When the epoch started, in POSIX seconds. -/
  epochStartedAt : Rat
  deriving DecidableEq

namespace EpochRatchet

/-- A ratchet at index 0 with the default bounds. -/
def newWithStartedAt (epoch : UInt64) (epochSecret : FixedBytes 32) (epochStartedAt : Rat) :
    EpochRatchet where
  epoch := epoch
  epochSecret := epochSecret
  messageIndex := 0
  rekeyMsgBound := defaultRekeyMsgBound
  rekeyAgeSeconds := defaultRekeyAgeSeconds
  epochStartedAt := epochStartedAt

/-- A ratchet that is made at this reading of the clock. -/
def new (epoch : UInt64) (epochSecret : FixedBytes 32) (now : Rat) : EpochRatchet where
  epoch := epoch
  epochSecret := epochSecret
  messageIndex := 0
  rekeyMsgBound := defaultRekeyMsgBound
  rekeyAgeSeconds := defaultRekeyAgeSeconds
  epochStartedAt := now

/-- The key of a message, by its index. -/
def messageKey (P : Primitives) (ratchet : EpochRatchet) (index : UInt64) : Bytes :=
  deriveMessageKeyArr P ratchet.epochSecret ratchet.epoch index

/-- The key of the next message to send, with its index. Advances the counter. -/
def nextOutboundKey (P : Primitives) (build : Build) {ε : Type} :
    Method EpochRatchet ε (UInt64 × Bytes) := do
  let ratchet ← Method.get
  let idx := ratchet.messageIndex
  let key := deriveMessageKeyArr P ratchet.epochSecret ratchet.epoch idx
  let messageIndex ← Method.lift (build.addU64 ratchet.messageIndex 1)
  Method.set { ratchet with messageIndex := messageIndex }
  return (idx, key)

/-- Whether the message count or the age says that the epoch should re-key. -/
def shouldRekey (ratchet : EpochRatchet) (now : Rat) : Bool :=
  if ratchet.messageIndex ≥ ratchet.rekeyMsgBound then true
  else now - ratchet.epochStartedAt ≥ (ratchet.rekeyAgeSeconds.toNat : Rat)

end EpochRatchet

/-! ## What the functions compute -/

variable {P : Primitives}

theorem wrapEpochSecret_secret (secret : FixedBytes 32) (memberHybridPub : Bytes)
    (draws : BoxDraws) :
    wrapEpochSecret P secret.val memberHybridPub draws =
      if memberHybridPub.length ≠ publicKeyLen then
        .error (.badPublicKeyLen memberHybridPub.length)
      else (sealBox P epochWrapInfo [] secret.val memberHybridPub draws).mapError .ofBox := by
  simp [wrapEpochSecret, secret.property, epochSecretLen]

/-- A successful wrap is a sealed box around a secret of the right length. -/
theorem wrapEpochSecret_eq_ok {epochSecret memberHybridPub payload : Bytes} {draws : BoxDraws}
    (wrapped : wrapEpochSecret P epochSecret memberHybridPub draws = .ok payload) :
    epochSecret.length = epochSecretLen ∧
      sealBox P epochWrapInfo [] epochSecret memberHybridPub draws = .ok payload := by
  obtain ⟨length, wrapped⟩ := Outcome.ite_error_eq_ok.mp wrapped
  obtain ⟨-, wrapped⟩ := Outcome.ite_error_eq_ok.mp wrapped
  exact ⟨not_not.mp length, Outcome.mapError_eq_ok.mp wrapped⟩

theorem length_wrapEpochSecret (aead : P.AeadCorrect) {secret : FixedBytes 32}
    {memberHybridPub payload : Bytes} {draws : BoxDraws}
    (wrapped : wrapEpochSecret P secret.val memberHybridPub draws = .ok payload) :
    payload.length = wrappedPayloadLen := by
  rw [length_sealBox aead (wrapEpochSecret_eq_ok wrapped).2, secret.property]
  rfl

/-- Unwrapping a payload and a private key of the right lengths. -/
theorem unwrapEpochSecret_of_length {payload memberHybridPriv : Bytes}
    (length : payload.length = wrappedPayloadLen)
    (keyLength : memberHybridPriv.length = privateKeyLen) :
    unwrapEpochSecret P payload memberHybridPriv =
      ((openBox P epochWrapInfo [] payload memberHybridPriv).mapError .ofBox >>= fun plaintext =>
        Outcome.ofOption (.badSecretLen plaintext.length) (tryIntoArray 32 plaintext)) := by
  rw [unwrapEpochSecret, if_neg (not_not.mpr length), if_neg (not_not.mpr keyLength)]

/-- **An epoch secret wrapped to a generated key pair unwraps to itself.** -/
theorem unwrap_wrapEpochSecret (kem : P.KemCorrect) (aead : P.AeadCorrect) (keys : KeypairDraws)
    {secret : FixedBytes 32} {payload : Bytes} {draws : BoxDraws}
    (wrapped : wrapEpochSecret P secret.val (hybridKeypair P keys).publicKey draws =
      .ok payload) :
    unwrapEpochSecret P payload (hybridKeypair P keys).privateKey = .ok secret := by
  rw [unwrapEpochSecret_of_length (length_wrapEpochSecret aead wrapped)
      (length_privateKey P keys), openBox_sealBox kem aead keys (wrapEpochSecret_eq_ok wrapped).2,
    Outcome.mapError_ok, Outcome.ok_bind, tryIntoArray_val, Outcome.ofOption_some]

end GroupRatchet
end SkPqc

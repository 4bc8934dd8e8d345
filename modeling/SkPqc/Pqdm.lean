import SkPqc.HybridBox
import SkPqc.Library.JsonText

/-!
# One-shot sealing of direct messages

The negotiated suite and the two parties are bound into the associated data as a
compact JSON object with sorted keys, and into the wrap key with it. Opening
rebuilds that data from what the recipient believes was negotiated.
-/

set_option autoImplicit false

namespace SkPqc
namespace Pqdm

open Library Library.Json Kem HybridBox

def hybridSuite : String := "x25519-mlkem768"

/-- The suite of a negotiated downgrade. -/
def classicalSuite : String := "x25519-pgp-wrap-v1"

def infoWrap : Bytes := utf8 "skcomms/pqdm/wrap/v1"
def wrapNonceLen : Nat := 12
def aesgcmTagLen : Nat := 16

/-- The shortest sealed blob: a ciphertext, a nonce and a tag. -/
def sealedMinLen : Nat := ciphertextLen + wrapNonceLen + aesgcmTagLen

@[simp] theorem sealedMinLen_eq : sealedMinLen = 1148 := rfl

/-- Errors of hybrid sealing. -/
inductive PqDmError where
  | format (message : String)
  | downgradeDetected (message : String)
  | kem (reason : KemError)
  deriving DecidableEq, Repr

section Functions

variable (P : Primitives) (serde : SerdeJson)

/-- The associated data that binds the negotiated suite and the parties. -/
def downgradeLockAad (negotiatedSuite sender recipient : String) (extra : Option Bytes) : Bytes :=
  let head := serde.toVec (.object (collectMembers [
    ("v", .number (.posInt 1)),
    ("negotiated_suite", .string negotiatedSuite),
    ("sender", .string sender),
    ("recipient", .string recipient)]))
  head ++ extra.getD []

/-- The label of the wrap key, with the associated data folded in. -/
def wrapInfo (aad : Bytes) : Bytes := infoWrap ++ utf8 "|" ++ aad

/-- Hybrid-seal a plaintext to a recipient's public key. -/
def «seal» (plaintext recipientHybridPub : Bytes) (sender recipient : String) (draws : BoxDraws) :
    Outcome PqDmError Bytes :=
  if recipientHybridPub.length ≠ publicKeyLen then
    .error (.format ("hybrid public key must be " ++ toString publicKeyLen ++ " bytes, got " ++
      toString recipientHybridPub.length))
  else
    let aad := downgradeLockAad serde hybridSuite sender recipient none
    (sealBox P (wrapInfo aad) aad plaintext recipientHybridPub draws).mapError fun
      | .kem reason => .kem reason
      | .aead => .format "AES-256-GCM encryption failed"

/-- The message of a detected downgrade. -/
def downgradeMessage (expectedSuite : String) : String :=
  "hybrid-sealed open failed — wrong key, tampered ciphertext, or a " ++
    "suite-downgrade attempt (AAD bound suite=" ++ P.debugText expectedSuite ++ ")"

/-- Open a sealed blob with the recipient's private key. -/
def openSealed (sealed hybridPrivate : Bytes) (sender recipient expectedSuite : String) :
    Outcome PqDmError Bytes :=
  if sealed.length < sealedMinLen then
    .error (.format ("sealed blob must be >= " ++ toString sealedMinLen ++ " bytes, got " ++
      toString sealed.length))
  else
    let aad := downgradeLockAad serde expectedSuite sender recipient none
    (openBox P (wrapInfo aad) aad sealed hybridPrivate).mapError fun
      | .kem reason => .kem reason
      | .aead => .downgradeDetected (downgradeMessage P expectedSuite)

end Functions

/-- The suite that both sides agree on: the hybrid one when both can. -/
def negotiateSuite (localSupportsHybrid recipientHasHybrid : Bool) : String :=
  if localSupportsHybrid ∧ recipientHasHybrid then hybridSuite else classicalSuite

/-- A sealed message is a sealed box under the downgrade lock. -/
theorem seal_eq_ok {P : Primitives} {serde : SerdeJson}
    {plaintext recipientHybridPub sealed : Bytes} {sender recipient : String} {draws : BoxDraws}
    (made : «seal» P serde plaintext recipientHybridPub sender recipient draws = .ok sealed) :
    let aad := downgradeLockAad serde hybridSuite sender recipient none
    sealBox P (wrapInfo aad) aad plaintext recipientHybridPub draws = .ok sealed := by
  obtain ⟨-, made⟩ := Outcome.ite_error_eq_ok.mp made
  exact Outcome.mapError_eq_ok.mp made

end Pqdm
end SkPqc

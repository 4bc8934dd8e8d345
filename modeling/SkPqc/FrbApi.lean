import SkPqc.Ratchet
import SkPqc.Library.JsonRoundTrip

/-!
# The functions offered to Dart

Thin wrappers around the KEM and the key schedule: they hand their arguments on, pack what
comes back, and turn an error into its text.
-/

set_option autoImplicit false

namespace SkPqc
namespace FrbApi

open Library

/-- A key pair as Dart holds it. -/
structure FrbHybridKeyPair where
  publicKey : Bytes
  privateKey : Bytes
  deriving DecidableEq

/-- What an encapsulation comes to, as Dart holds it. -/
structure FrbEncapResult where
  ciphertext : Bytes
  sharedSecret : Bytes
  deriving DecidableEq

section Functions

variable (P : Primitives)

def hybridKeypair (draws : Kem.KeypairDraws) : FrbHybridKeyPair :=
  let kp := Kem.hybridKeypair P draws
  { publicKey := kp.publicKey, privateKey := kp.privateKey }

def hybridEncap (peerPublicKey : Bytes) (draws : Kem.EncapDraws) :
    Outcome String FrbEncapResult := do
  let (ciphertext, shared) ←
    (Kem.hybridEncap P peerPublicKey draws).mapError Kem.KemError.display
  return { ciphertext := ciphertext, sharedSecret := shared }

def hybridDecap (ciphertext privateKey : Bytes) : Outcome String Bytes :=
  (Kem.hybridDecap P ciphertext privateKey).mapError Kem.KemError.display

def deriveDmMessageKey (epochSecret : Bytes) (epoch index : UInt64) : Outcome String Bytes :=
  (Ratchet.deriveDmMessageKey P epochSecret epoch index).mapError Ratchet.RatchetError.display

end Functions

def suiteId : String := Kem.suiteId

/-- The lengths of keys, ciphertexts and secrets. -/
def wireSizes : List UInt64 :=
  [UInt64.ofNat Kem.publicKeyLen, UInt64.ofNat Kem.privateKeyLen,
    UInt64.ofNat Kem.ciphertextLen, UInt64.ofNat Kem.sharedSecretLen]

/-! ## What the functions compute -/

variable {P : Primitives}

theorem hybridEncap_eq_ok {peerPublicKey : Bytes} {draws : Kem.EncapDraws}
    {result : FrbEncapResult} : hybridEncap P peerPublicKey draws = .ok result ↔
      Kem.hybridEncap P peerPublicKey draws = .ok (result.ciphertext, result.sharedSecret) := by
  rw [hybridEncap, Outcome.bind_eq_ok]
  constructor
  · rintro ⟨⟨ciphertext, shared⟩, called, packed⟩
    cases packed
    exact Outcome.mapError_eq_ok.mp called
  · intro called
    exact ⟨_, Outcome.mapError_eq_ok.mpr called, rfl⟩

/-! ## Everything that is returned is short -/

/-- Key derivation expands to an array of 32 bytes. -/
def DerivesArrays (P : Primitives) : Prop :=
  ∀ salt ikm info, (P.hkdf salt ikm info).length = 32

/-- The text of a number that counts bytes of a short argument. -/
theorem length_toString_le {number : Nat} (short : number < 2 ^ 31) :
    (utf8 (toString number)).length ≤ 10 :=
  Json.length_utf8_repr_le (by decide) (by omega)

/-- A text about two lengths, with short words in front of each. -/
theorem length_lengths_lt {front between : String} {expected got : Nat}
    (first : (utf8 front).length ≤ 64) (second : (utf8 between).length ≤ 64)
    (expects : expected < 2 ^ 31) (short : got < 2 ^ 31) :
    (utf8 (front ++ toString expected ++ between ++ toString got)).length < 2 ^ 31 := by
  have wanted := length_toString_le expects
  have given := length_toString_le short
  rw [utf8_append, utf8_append, utf8_append]
  simp only [List.length_append]
  omega

/-- What an encapsulation comes to is short. -/
theorem short_of_hybridEncap (derives : DerivesArrays P) {peerPublicKey : Bytes}
    {draws : Kem.EncapDraws} {result : FrbEncapResult}
    (called : hybridEncap P peerPublicKey draws = .ok result) :
    result.ciphertext.length < 2 ^ 31 ∧ result.sharedSecret.length < 2 ^ 31 := by
  have encapsulated := hybridEncap_eq_ok.mp called
  have length := Kem.length_hybridEncap encapsulated
  obtain ⟨_, _, _, _, -, -, -, derived⟩ := Kem.hybridEncap_eq_ok encapsulated
  rw [length, derived, Kem.combine, derives]
  decide

theorem short_of_hybridEncap_error {peerPublicKey : Bytes} {draws : Kem.EncapDraws}
    {reason : String} (short : peerPublicKey.length < 2 ^ 31)
    (failed : hybridEncap P peerPublicKey draws = .error reason) :
    (utf8 reason).length < 2 ^ 31 := by
  obtain ⟨cause, refused, rfl⟩ :=
    Outcome.mapError_eq_error.mp (Outcome.bind_ok_eq_error.mp failed)
  obtain rfl | rfl := Kem.hybridEncap_eq_error refused
  · exact length_lengths_lt (by decide) (by decide) (by decide) short
  · decide

theorem short_of_hybridDecap (derives : DerivesArrays P) {ciphertext privateKey secret : Bytes}
    (called : hybridDecap P ciphertext privateKey = .ok secret) : secret.length < 2 ^ 31 := by
  obtain ⟨_, _, rfl⟩ := Kem.exists_combine_of_hybridDecap (Outcome.mapError_eq_ok.mp called)
  rw [Kem.combine, derives]
  decide

theorem short_of_hybridDecap_error {ciphertext privateKey : Bytes} {reason : String}
    (shortCiphertext : ciphertext.length < 2 ^ 31) (shortKey : privateKey.length < 2 ^ 31)
    (failed : hybridDecap P ciphertext privateKey = .error reason) :
    (utf8 reason).length < 2 ^ 31 := by
  rw [hybridDecap, Outcome.mapError_eq_error] at failed
  obtain ⟨cause, failed, rfl⟩ := failed
  obtain rfl | rfl | rfl := Kem.hybridDecap_eq_error failed
  · exact length_lengths_lt (by decide) (by decide) (by decide) shortCiphertext
  · exact length_lengths_lt (by decide) (by decide) (by decide) shortKey
  · decide

theorem short_of_deriveDmMessageKey (derives : DerivesArrays P) {epochSecret key : Bytes}
    {epoch index : UInt64} (called : deriveDmMessageKey P epochSecret epoch index = .ok key) :
    key.length < 2 ^ 31 := by
  have derived := Outcome.mapError_eq_ok.mp called
  rw [Ratchet.deriveDmMessageKey, Outcome.ite_error_eq_ok] at derived
  obtain ⟨-, derived⟩ := derived
  rw [← Outcome.ok.inj derived, derives]
  decide

theorem short_of_deriveDmMessageKey_error {epochSecret : Bytes} {epoch index : UInt64}
    {reason : String} (short : epochSecret.length < 2 ^ 31)
    (failed : deriveDmMessageKey P epochSecret epoch index = .error reason) :
    (utf8 reason).length < 2 ^ 31 := by
  rw [deriveDmMessageKey, Outcome.mapError_eq_error] at failed
  obtain ⟨cause, failed, rfl⟩ := failed
  rw [Ratchet.deriveDmMessageKey] at failed
  split at failed
  · rw [← Outcome.error.inj failed]
    exact length_lengths_lt (by decide) (by decide) (by decide) short
  · cases failed

end FrbApi
end SkPqc

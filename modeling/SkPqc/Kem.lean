import SkPqc.Primitives

/-!
# The hybrid KEM: X25519 and ML-KEM-768

The two shared secrets are concatenated, the X25519 one first, and hashed to one
key. A public key, a private key and a ciphertext are each the X25519 part
followed by the ML-KEM part. Randomness is an argument of every function that
draws it.

Neither direction panics (`hybridEncap_ne_panic`, `hybridDecap_ne_panic`), and a
ciphertext opens to the secret it was made with (`hybridDecap_hybridEncap`).
-/

set_option autoImplicit false

namespace SkPqc
namespace Kem

open Library

/-! ## Interop constants -/

def suiteId : String := "x25519-mlkem768"

/-- The HKDF label of the combiner. -/
def hkdfInfo : Bytes := utf8 "sk_pqc/x25519-mlkem768/v1"

def x25519PubLen : Nat := 32
def x25519SeedLen : Nat := 32
def mlkemPubLen : Nat := 1184
def mlkemSecretLen : Nat := 2400
def mlkemCtLen : Nat := 1088

/-- Length of a hybrid public key. -/
def publicKeyLen : Nat := x25519PubLen + mlkemPubLen

/-- Length of a hybrid private key. -/
def privateKeyLen : Nat := x25519SeedLen + mlkemSecretLen

/-- Length of a hybrid ciphertext. -/
def ciphertextLen : Nat := x25519PubLen + mlkemCtLen

/-- Length of a hybrid shared secret. -/
def sharedSecretLen : Nat := 32

@[simp] theorem publicKeyLen_eq : publicKeyLen = 1216 := rfl
@[simp] theorem privateKeyLen_eq : privateKeyLen = 2432 := rfl
@[simp] theorem ciphertextLen_eq : ciphertextLen = 1120 := rfl

/-! ## The functions of the module -/

/-- Errors of the hybrid KEM. -/
inductive KemError where
  /-- A field had the wrong length: what it was, the expected length, the length
  given. -/
  | badLength (what : String) (expected got : Nat)
  /-- ML-KEM rejected the material. -/
  | mlKem (message : String)
  deriving DecidableEq, Repr

def KemError.display : KemError → String
  | .badLength what expected got =>
      what ++ " must be " ++ toString expected ++ " bytes, got " ++ toString got
  | .mlKem message => "ML-KEM error: " ++ message

def expectLen (what : String) (value : Bytes) (expected : Nat) : Outcome KemError Unit :=
  if value.length ≠ expected then .error (.badLength what expected value.length) else .ok ()

/-- A hybrid key pair on the wire. -/
structure HybridKeyPair where
  publicKey : Bytes
  privateKey : Bytes

/-- What key generation draws. -/
structure KeypairDraws where
  xSeed : FixedBytes 32
  mlkemCoins : FixedBytes 64

/-- What one encapsulation draws. -/
structure EncapDraws where
  xEph : FixedBytes 32
  mlkemCoins : FixedBytes 32

section Functions

variable (P : Primitives)

/-- Concatenate, then derive: the X25519 secret first. -/
def combine (x25519Ss : FixedBytes 32) (mlkemSs : Bytes) : Bytes :=
  P.hkdf [] (x25519Ss.val ++ mlkemSs) hkdfInfo

def hybridKeypair (draws : KeypairDraws) : HybridKeyPair where
  publicKey := (P.x25519Public draws.xSeed).val ++ (P.mlkemGenerate draws.mlkemCoins).2.val
  privateKey := draws.xSeed.val ++ (P.mlkemGenerate draws.mlkemCoins).1.val

/-- Encapsulate to a hybrid public key: the ciphertext and the shared secret. -/
def hybridEncap (peerPublicKey : Bytes) (draws : EncapDraws) :
    Outcome KemError (Bytes × Bytes) := do
  expectLen "hybrid public key" peerPublicKey publicKeyLen
  let xPeer ← copyFromSlice 32 (← slice peerPublicKey 0 x25519PubLen)
  let mlkemPub ← slice peerPublicKey x25519PubLen peerPublicKey.length
  let ek ← Outcome.ofOption (.badLength "ML-KEM public key" mlkemPubLen mlkemPub.length)
    (tryIntoArray 1184 mlkemPub)
  let xSs := P.x25519 draws.xEph xPeer
  let encapsulated ← Outcome.ofOption (.mlKem "encapsulation failed")
    (P.mlkemEncapsulate ek draws.mlkemCoins)
  let ciphertext := (P.x25519Public draws.xEph).val ++ encapsulated.1.val
  return (ciphertext, combine P xSs encapsulated.2)

/-- Decapsulate a hybrid ciphertext with a hybrid private key. -/
def hybridDecap (ciphertext privateKey : Bytes) : Outcome KemError Bytes := do
  expectLen "hybrid ciphertext" ciphertext ciphertextLen
  expectLen "hybrid private key" privateKey privateKeyLen
  let xEphPub ← copyFromSlice 32 (← slice ciphertext 0 x25519PubLen)
  let mlkemCt ← slice ciphertext x25519PubLen ciphertext.length
  let xSeed ← copyFromSlice 32 (← slice privateKey 0 x25519SeedLen)
  let mlkemDk ← slice privateKey x25519SeedLen privateKey.length
  let xSs := P.x25519 xSeed xEphPub
  let dk ← Outcome.ofOption (.badLength "ML-KEM secret key" mlkemSecretLen mlkemDk.length)
    (tryIntoArray 2400 mlkemDk)
  let ct ← Outcome.ofOption (.badLength "ML-KEM ciphertext" mlkemCtLen mlkemCt.length)
    (tryIntoArray 1088 mlkemCt)
  let mlkemSs ← Outcome.ofOption (.mlKem "decapsulation failed") (P.mlkemDecapsulate dk ct)
  return combine P xSs mlkemSs

end Functions

/-! ## What the functions compute -/

variable {P : Primitives}

theorem expectLen_of_eq {what : String} {value : Bytes} {expected : Nat}
    (same : value.length = expected) : expectLen what value expected = .ok () := by
  simp [expectLen, same]

theorem expectLen_of_ne {what : String} {value : Bytes} {expected : Nat}
    (different : value.length ≠ expected) :
    expectLen what value expected = .error (.badLength what expected value.length) := by
  simp only [expectLen, if_pos different]

theorem hybridEncap_of_length_ne {peerPublicKey : Bytes} {draws : EncapDraws}
    (different : peerPublicKey.length ≠ publicKeyLen) :
    hybridEncap P peerPublicKey draws =
      .error (.badLength "hybrid public key" publicKeyLen peerPublicKey.length) := by
  rw [hybridEncap, expectLen_of_ne different]
  rfl

theorem hybridDecap_of_ciphertext_length_ne {ciphertext privateKey : Bytes}
    (different : ciphertext.length ≠ ciphertextLen) :
    hybridDecap P ciphertext privateKey =
      .error (.badLength "hybrid ciphertext" ciphertextLen ciphertext.length) := by
  rw [hybridDecap, expectLen_of_ne different]
  rfl

theorem hybridDecap_of_private_length_ne {ciphertext privateKey : Bytes}
    (same : ciphertext.length = ciphertextLen) (different : privateKey.length ≠ privateKeyLen) :
    hybridDecap P ciphertext privateKey =
      .error (.badLength "hybrid private key" privateKeyLen privateKey.length) := by
  rw [hybridDecap, expectLen_of_eq same, expectLen_of_ne different]
  rfl

theorem hybridEncap_append (point : FixedBytes 32) (ek : FixedBytes 1184) (draws : EncapDraws) :
    hybridEncap P (point.val ++ ek.val) draws =
      match P.mlkemEncapsulate ek draws.mlkemCoins with
      | some (ct, secret) => .ok ((P.x25519Public draws.xEph).val ++ ct.val,
          combine P (P.x25519 draws.xEph point) secret)
      | none => .error (.mlKem "encapsulation failed") := by
  have length : (point.val ++ ek.val).length = publicKeyLen := by
    simp [point.property, ek.property]
  rw [hybridEncap, expectLen_of_eq length]
  simp only [Outcome.ok_bind, x25519PubLen, slice_front, copyFromSlice_val, slice_back]
  simp only [Outcome.ok_bind, tryIntoArray_val, Outcome.ofOption_some]
  cases P.mlkemEncapsulate ek draws.mlkemCoins with
  | none => rfl
  | some encapsulated => rfl

theorem hybridDecap_append (point : FixedBytes 32) (ct : FixedBytes 1088) (seed : FixedBytes 32)
    (dk : FixedBytes 2400) :
    hybridDecap P (point.val ++ ct.val) (seed.val ++ dk.val) =
      match P.mlkemDecapsulate dk ct with
      | some secret => .ok (combine P (P.x25519 seed point) secret)
      | none => .error (.mlKem "decapsulation failed") := by
  have ctLength : (point.val ++ ct.val).length = ciphertextLen := by
    simp [point.property, ct.property]
  have keyLength : (seed.val ++ dk.val).length = privateKeyLen := by
    simp [seed.property, dk.property]
  rw [hybridDecap, expectLen_of_eq ctLength, expectLen_of_eq keyLength]
  simp only [Outcome.ok_bind, x25519PubLen, x25519SeedLen, slice_front, copyFromSlice_val,
    slice_back]
  simp only [Outcome.ok_bind, tryIntoArray_val, Outcome.ofOption_some]
  cases P.mlkemDecapsulate dk ct with
  | none => rfl
  | some secret => rfl

/-- Decapsulation returns exactly when ML-KEM does, and combines both secrets. -/
theorem hybridDecap_eq_ok {point : FixedBytes 32} {ct : FixedBytes 1088} {seed : FixedBytes 32}
    {dk : FixedBytes 2400} {shared : Bytes} :
    hybridDecap P (point.val ++ ct.val) (seed.val ++ dk.val) = .ok shared ↔
      ∃ secret, P.mlkemDecapsulate dk ct = some secret ∧
        shared = combine P (P.x25519 seed point) secret := by
  rw [hybridDecap_append]
  cases P.mlkemDecapsulate dk ct with
  | none => simp
  | some secret => simp [eq_comm]

/-- Encapsulation fails cleanly on every input. -/
theorem hybridEncap_ne_panic (peerPublicKey : Bytes) (draws : EncapDraws) :
    hybridEncap P peerPublicKey draws ≠ .panic := by
  by_cases length : peerPublicKey.length = publicKeyLen
  · obtain ⟨point, ek, rfl⟩ := exists_fixed_append 32 1184 length
    rw [hybridEncap_append]
    split <;> simp
  · simp [hybridEncap_of_length_ne length]

/-- Decapsulation fails cleanly on every input. -/
theorem hybridDecap_ne_panic (ciphertext privateKey : Bytes) :
    hybridDecap P ciphertext privateKey ≠ .panic := by
  by_cases ctLength : ciphertext.length = ciphertextLen
  · by_cases keyLength : privateKey.length = privateKeyLen
    · obtain ⟨point, ct, rfl⟩ := exists_fixed_append 32 1088 ctLength
      obtain ⟨seed, dk, rfl⟩ := exists_fixed_append 32 2400 keyLength
      rw [hybridDecap_append]
      split <;> simp
    · simp [hybridDecap_of_private_length_ne ctLength keyLength]
  · simp [hybridDecap_of_ciphertext_length_ne ctLength]

/-- What a successful encapsulation returned, part by part. -/
theorem hybridEncap_eq_ok {peerPublicKey ciphertext shared : Bytes} {draws : EncapDraws}
    (encapsulated : hybridEncap P peerPublicKey draws = .ok (ciphertext, shared)) :
    ∃ (point : FixedBytes 32) (ek : FixedBytes 1184) (ct : FixedBytes 1088) (secret : Bytes),
      peerPublicKey = point.val ++ ek.val ∧
      P.mlkemEncapsulate ek draws.mlkemCoins = some (ct, secret) ∧
      ciphertext = (P.x25519Public draws.xEph).val ++ ct.val ∧
      shared = combine P (P.x25519 draws.xEph point) secret := by
  by_cases length : peerPublicKey.length = publicKeyLen
  · obtain ⟨point, ek, rfl⟩ := exists_fixed_append 32 1184 length
    rw [hybridEncap_append] at encapsulated
    cases drawn : P.mlkemEncapsulate ek draws.mlkemCoins with
    | none => rw [drawn] at encapsulated; cases encapsulated
    | some result =>
        rw [drawn] at encapsulated
        cases encapsulated
        exact ⟨point, ek, result.1, result.2, rfl, drawn, rfl, rfl⟩
  · simp [hybridEncap_of_length_ne length] at encapsulated

/-- The two ways an encapsulation fails. -/
theorem hybridEncap_eq_error {peerPublicKey : Bytes} {draws : EncapDraws} {reason : KemError}
    (failed : hybridEncap P peerPublicKey draws = .error reason) :
    reason = .badLength "hybrid public key" publicKeyLen peerPublicKey.length ∨
      reason = .mlKem "encapsulation failed" := by
  by_cases length : peerPublicKey.length = publicKeyLen
  · obtain ⟨point, ek, rfl⟩ := exists_fixed_append 32 1184 length
    rw [hybridEncap_append] at failed
    cases drawn : P.mlkemEncapsulate ek draws.mlkemCoins with
    | none =>
        rw [drawn] at failed
        cases failed
        exact .inr rfl
    | some result =>
        rw [drawn] at failed
        cases failed
  · rw [hybridEncap_of_length_ne length] at failed
    cases failed
    exact .inl rfl

/-- The three ways a decapsulation fails. -/
theorem hybridDecap_eq_error {ciphertext privateKey : Bytes} {reason : KemError}
    (failed : hybridDecap P ciphertext privateKey = .error reason) :
    reason = .badLength "hybrid ciphertext" ciphertextLen ciphertext.length ∨
      reason = .badLength "hybrid private key" privateKeyLen privateKey.length ∨
      reason = .mlKem "decapsulation failed" := by
  by_cases ctLength : ciphertext.length = ciphertextLen
  · by_cases keyLength : privateKey.length = privateKeyLen
    · obtain ⟨point, ct, rfl⟩ := exists_fixed_append 32 1088 ctLength
      obtain ⟨seed, dk, rfl⟩ := exists_fixed_append 32 2400 keyLength
      rw [hybridDecap_append] at failed
      cases opened : P.mlkemDecapsulate dk ct with
      | none =>
          rw [opened] at failed
          cases failed
          exact .inr (.inr rfl)
      | some secret =>
          rw [opened] at failed
          cases failed
    · rw [hybridDecap_of_private_length_ne ctLength keyLength] at failed
      cases failed
      exact .inr (.inl rfl)
  · rw [hybridDecap_of_ciphertext_length_ne ctLength] at failed
    cases failed
    exact .inl rfl

/-- What a decapsulation returns is a combined secret. -/
theorem exists_combine_of_hybridDecap {ciphertext privateKey shared : Bytes}
    (decapsulated : hybridDecap P ciphertext privateKey = .ok shared) :
    ∃ x25519Ss mlkemSs, shared = combine P x25519Ss mlkemSs := by
  by_cases ctLength : ciphertext.length = ciphertextLen
  · by_cases keyLength : privateKey.length = privateKeyLen
    · obtain ⟨point, ct, rfl⟩ := exists_fixed_append 32 1088 ctLength
      obtain ⟨seed, dk, rfl⟩ := exists_fixed_append 32 2400 keyLength
      obtain ⟨secret, -, combined⟩ := hybridDecap_eq_ok.mp decapsulated
      exact ⟨_, secret, combined⟩
    · simp [hybridDecap_of_private_length_ne ctLength keyLength] at decapsulated
  · simp [hybridDecap_of_ciphertext_length_ne ctLength] at decapsulated

theorem length_publicKey (P : Primitives) (keys : KeypairDraws) :
    (hybridKeypair P keys).publicKey.length = publicKeyLen := by
  simp [hybridKeypair, (P.x25519Public keys.xSeed).property,
    (P.mlkemGenerate keys.mlkemCoins).2.property]

theorem length_privateKey (P : Primitives) (keys : KeypairDraws) :
    (hybridKeypair P keys).privateKey.length = privateKeyLen := by
  simp [hybridKeypair, keys.xSeed.property, (P.mlkemGenerate keys.mlkemCoins).1.property]

theorem length_hybridEncap {peerPublicKey ciphertext shared : Bytes} {draws : EncapDraws}
    (encapsulated : hybridEncap P peerPublicKey draws = .ok (ciphertext, shared)) :
    ciphertext.length = ciphertextLen := by
  obtain ⟨_, _, ct, _, _, _, rfl, _⟩ := hybridEncap_eq_ok encapsulated
  simp [(P.x25519Public draws.xEph).property, ct.property]

/-- Encapsulation to a generated key pair returns. -/
theorem exists_hybridEncap (correct : P.KemCorrect) (keys : KeypairDraws) (draws : EncapDraws) :
    ∃ ciphertext shared,
      hybridEncap P (hybridKeypair P keys).publicKey draws = .ok (ciphertext, shared) := by
  obtain ⟨ct, secret, drawn, -⟩ := correct.mlkem_correct keys.mlkemCoins draws.mlkemCoins
  rw [hybridKeypair, hybridEncap_append, drawn]
  exact ⟨_, _, rfl⟩

/-- **What is encapsulated to a generated key pair decapsulates to the same
secret.** -/
theorem hybridDecap_hybridEncap (correct : P.KemCorrect) (keys : KeypairDraws)
    {draws : EncapDraws} {ciphertext shared : Bytes}
    (encapsulated : hybridEncap P (hybridKeypair P keys).publicKey draws =
      .ok (ciphertext, shared)) :
    hybridDecap P ciphertext (hybridKeypair P keys).privateKey = .ok shared := by
  obtain ⟨ct, secret, drawn, opened⟩ := correct.mlkem_correct keys.mlkemCoins draws.mlkemCoins
  rw [hybridKeypair, hybridEncap_append, drawn] at encapsulated
  cases encapsulated
  rw [hybridKeypair, hybridDecap_append, opened, correct.x25519_comm]

end Kem
end SkPqc

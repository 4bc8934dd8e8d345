import SkPqc.Idealised

/-!
# The hybrid secret and its two legs

A run of the KEM, on either side, computes an X25519 secret and an ML-KEM secret
and hashes the two together. `Execution` lists the runs with the legs that they
computed.

The two sides agree on the secret, and two runs come to one secret only when they
computed the same legs (`hybrid_secret`). Neither leg can be left out or replaced.
-/

set_option autoImplicit false

namespace SkPqc
namespace Primitives

open Library

/-- Under one salt and label, different key materials give different keys. -/
def HkdfInjectiveInIkm (P : Primitives) : Prop :=
  ∀ salt info, Function.Injective fun ikm => P.hkdf salt ikm info

theorem HkdfInjective.injectiveInIkm {P : Primitives} (hkdf : P.HkdfInjective) :
    P.HkdfInjectiveInIkm := by
  intro salt info ikm ikm' same
  obtain ⟨-, sameIkm, -⟩ := hkdf _ _ _ _ _ _ same
  exact sameIkm

end Primitives

namespace Kem

open Library Idealised

/-- The secrets that a run hashes together. -/
structure Legs where
  x25519Ss : FixedBytes 32
  mlkemSs : Bytes

/-- A run of the KEM that returned: the legs it computed, and the hybrid secret. -/
inductive Execution (P : Primitives) : Legs → Bytes → Prop
  | encap {point : FixedBytes 32} {ek : FixedBytes 1184} {draws : EncapDraws}
      {ct : FixedBytes 1088} {mlkemSs ciphertext shared : Bytes}
      (encapsulated : P.mlkemEncapsulate ek draws.mlkemCoins = some (ct, mlkemSs))
      (returned : hybridEncap P (point.val ++ ek.val) draws = .ok (ciphertext, shared)) :
      Execution P ⟨P.x25519 draws.xEph point, mlkemSs⟩ shared
  | decap {point seed : FixedBytes 32} {ct : FixedBytes 1088} {dk : FixedBytes 2400}
      {mlkemSs shared : Bytes}
      (decapsulated : P.mlkemDecapsulate dk ct = some mlkemSs)
      (returned : hybridDecap P (point.val ++ ct.val) (seed.val ++ dk.val) = .ok shared) :
      Execution P ⟨P.x25519 seed point, mlkemSs⟩ shared

variable {P : Primitives}

/-- Every encapsulation that returns is an execution. -/
theorem exists_execution_of_hybridEncap {peerPublicKey ciphertext shared : Bytes}
    {draws : EncapDraws}
    (returned : hybridEncap P peerPublicKey draws = .ok (ciphertext, shared)) :
    ∃ legs, Execution P legs shared := by
  obtain ⟨point, ek, ct, mlkemSs, rfl, encapsulated, -, -⟩ := hybridEncap_eq_ok returned
  exact ⟨_, .encap encapsulated returned⟩

/-- Every decapsulation that returns is an execution. -/
theorem exists_execution_of_hybridDecap {ciphertext privateKey shared : Bytes}
    (returned : hybridDecap P ciphertext privateKey = .ok shared) :
    ∃ legs, Execution P legs shared := by
  by_cases ctLength : ciphertext.length = ciphertextLen
  · by_cases keyLength : privateKey.length = privateKeyLen
    · obtain ⟨point, ct, rfl⟩ := exists_fixed_append 32 1088 ctLength
      obtain ⟨seed, dk, rfl⟩ := exists_fixed_append 32 2400 keyLength
      obtain ⟨mlkemSs, decapsulated, -⟩ := hybridDecap_eq_ok.mp returned
      exact ⟨_, .decap decapsulated returned⟩
    · simp [hybridDecap_of_private_length_ne ctLength keyLength] at returned
  · simp [hybridDecap_of_ciphertext_length_ne ctLength] at returned

/-- A run returns its legs hashed together, the X25519 one first. -/
theorem Execution.eq_combine {legs : Legs} {shared : Bytes} (execution : Execution P legs shared) :
    shared = combine P legs.x25519Ss legs.mlkemSs := by
  cases execution with
  | encap encapsulated returned =>
      rw [hybridEncap_append, encapsulated] at returned
      cases returned
      rfl
  | decap decapsulated returned =>
      rw [hybridDecap_append, decapsulated] at returned
      cases returned
      rfl

/-- The combiner hashes both legs: the first one has a fixed length, so the two are
told apart. -/
theorem combine_inj (hkdf : P.HkdfInjectiveInIkm) {legs legs' : Legs} :
    combine P legs.x25519Ss legs.mlkemSs = combine P legs'.x25519Ss legs'.mlkemSs ↔
      legs = legs' := by
  constructor
  · intro same
    obtain ⟨x25519Ss, mlkemSs⟩ := legs
    obtain ⟨x25519Ss', mlkemSs'⟩ := legs'
    have material : x25519Ss.val ++ mlkemSs = x25519Ss'.val ++ mlkemSs' := hkdf [] hkdfInfo same
    obtain ⟨rfl, rfl⟩ := fixed_append_inj material
    rfl
  · rintro rfl
    rfl

/-- **The hybrid secret.** Both sides come to the same one, and it is that of its two
legs: runs on different legs come to different secrets. -/
theorem hybrid_secret (correct : P.KemCorrect) (hkdf : P.HkdfInjectiveInIkm) :
    (∀ keys draws, ∃ ciphertext shared,
        hybridEncap P (hybridKeypair P keys).publicKey draws = .ok (ciphertext, shared) ∧
          hybridDecap P ciphertext (hybridKeypair P keys).privateKey = .ok shared) ∧
      ∀ legs shared legs' shared', Execution P legs shared → Execution P legs' shared' →
        shared = shared' → legs.x25519Ss = legs'.x25519Ss ∧ legs.mlkemSs = legs'.mlkemSs := by
  constructor
  · intro keys draws
    obtain ⟨ciphertext, shared, encapsulated⟩ := exists_hybridEncap correct keys draws
    exact ⟨ciphertext, shared, encapsulated, hybridDecap_hybridEncap correct keys encapsulated⟩
  · intro legs shared legs' shared' execution execution' same
    rw [execution.eq_combine, execution'.eq_combine] at same
    obtain rfl := (combine_inj hkdf).mp same
    exact ⟨rfl, rfl⟩

/-- A key pair and one encapsulation to it. -/
theorem hybrid_secret_sample :
    let P := primitives (logged [])
    let keys := hybridKeypair P (sampleKeys 1)
    ∃ ciphertext shared,
      hybridEncap P keys.publicKey (sampleBoxDraws 2).kem = .ok (ciphertext, shared) ∧
        hybridDecap P ciphertext keys.privateKey = .ok shared :=
  (hybrid_secret kemCorrect hkdfInjective.injectiveInIkm).1 (sampleKeys 1) (sampleBoxDraws 2).kem

end Kem
end SkPqc

import SkPqc.GroupEpoch
import SkPqc.Library.Knowledge

/-!
# Who opens a box

Both ratchets wrap their epoch secrets in hybrid boxes, and derive their message keys from
the secrets. A box does not open with a key pair that is separated from the one that it was
sealed to (`openBox_of_foreign`), and a key tells the secret that it was derived from
(`deriveUnder_secret`).
-/

set_option autoImplicit false

namespace SkPqc
namespace HybridBox

open Library Kem
open GroupRatchet (Separates)

variable (P : Primitives)

/-- The public key of the key pair. -/
def IsFor (hybridPub : Bytes) (keys : KeypairDraws) : Prop :=
  hybridPub = (hybridKeypair P keys).publicKey

/-- Another's public key, of a key pair that is separated from this one. -/
def Foreign (hybridPub : Bytes) (keys : KeypairDraws) : Prop :=
  ∃ owner, hybridPub = (hybridKeypair P owner).publicKey ∧ Separates P owner keys

/-- A key from a secret, under a salt and a label. -/
def deriveUnder (secret : FixedBytes 32) (context : Bytes × Bytes) : Bytes :=
  P.hkdf context.1 secret.val context.2

variable {P}

theorem deriveUnder_secret (hkdf : P.HkdfInjective) (secret secret' : FixedBytes 32)
    (context context' : Bytes × Bytes)
    (same : deriveUnder P secret context = deriveUnder P secret' context') : secret = secret' :=
  Subtype.ext (hkdf _ _ _ _ _ _ same).2.1

section

variable {keys : KeypairDraws} {hybridPub info aad msg payload : Bytes} {draws : BoxDraws}

/-- The shared secret of a separated key pair is another, and the body does not decrypt. -/
theorem openBox_of_foreign (hkdf : P.HkdfInjective) (ideal : P.IdealAead)
    (foreign : Foreign P hybridPub keys)
    (made : sealBox P info aad msg hybridPub draws = .ok payload) :
    openBox P info aad payload (hybridKeypair P keys).privateKey = .error .aead := by
  obtain ⟨owner, rfl, separates⟩ := foreign
  obtain ⟨ciphertext, shared, body, encapsulated, encrypted, rfl⟩ := sealBox_eq_ok made
  obtain ⟨shared', decapsulated, different⟩ := separates _ _ _ encapsulated
  rw [openBox_append, decapsulated, Outcome.mapError_ok, Outcome.ok_bind]
  cases decrypted : P.aeadDecrypt (boxKey P info shared') draws.nonce aad body with
  | none => rfl
  | some plaintext =>
      obtain ⟨sameKey, -⟩ := ideal _ _ _ _ _ encrypted _ _ _ _ decrypted
      exact absurd (hkdf _ _ _ _ _ _ sameKey).2.1 different

/-- What opens for its addressee and for no one else, opens for its addressee. -/
theorem eq_ok_iff_isFor {ε : Type} {opened : Outcome ε (FixedBytes 32)} {reason : ε}
    {secret secret' : FixedBytes 32} (own : IsFor P hybridPub keys → opened = .ok secret)
    (other : ¬ IsFor P hybridPub keys → opened = .error reason) :
    opened = .ok secret' ↔ IsFor P hybridPub keys ∧ secret' = secret := by
  by_cases addressed : IsFor P hybridPub keys
  · rw [own addressed, and_iff_right addressed]
    constructor
    · intro same
      exact (Outcome.ok.inj same).symm
    · rintro rfl
      rfl
  · rw [other addressed]
    apply iff_of_false
    · intro same
      cases same
    · exact fun both => addressed both.1

end

/-! ## Two key pairs -/

section

variable {tagOf : Idealised.Encryption → Option (FixedBytes 16)}

open Idealised (primitives sampleKeys)

theorem not_isFor_sampleKeys : ¬ IsFor (primitives tagOf)
    (hybridKeypair (primitives tagOf) (sampleKeys 1)).publicKey (sampleKeys 2) := by
  intro same
  have bytes := congrArg (fun key : Bytes => (key.drop 32).head?) same
  have first : ((hybridKeypair (primitives tagOf) (sampleKeys 1)).publicKey.drop 32).head? =
      some 1 := by rfl
  have second : ((hybridKeypair (primitives tagOf) (sampleKeys 2)).publicKey.drop 32).head? =
      some 2 := by rfl
  rw [first, second] at bytes
  cases bytes

theorem foreign_sampleKeys : Foreign (primitives tagOf)
    (hybridKeypair (primitives tagOf) (sampleKeys 1)).publicKey (sampleKeys 2) :=
  ⟨sampleKeys 1, rfl, GroupRatchet.separates_of_coins_ne GroupRatchet.mlkemCoins_sampleKeys_ne⟩

end

end HybridBox
end SkPqc

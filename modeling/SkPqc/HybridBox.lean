import SkPqc.Kem

/-!
# The sealed layout that four surfaces share

Direct messages, routing envelopes, DM epoch secrets and group epoch secrets are
sealed alike: encapsulate to the recipient, derive a key from the shared secret
with an empty salt and the surface's own `info`, encrypt under the surface's own
associated data, and send `ciphertext ‖ nonce ‖ body`. They differ in the two
byte strings and in how they name an error, so sealing and opening are stated
here once, with `info` and `aad` as arguments.

The opener never panics on a payload that holds a ciphertext and a nonce
(`openBox_ne_panic`), and it gives back what was sealed (`openBox_sealBox`). Under
an ideal AEAD it gives back nothing else (`openBox_of_ideal`).
-/

set_option autoImplicit false

namespace SkPqc
namespace HybridBox

open Library Kem

/-- Where sealing or opening can fail: in the KEM, or in the AEAD. -/
inductive BoxError where
  | kem (reason : KemError)
  | aead
  deriving DecidableEq, Repr

/-- What one sealing draws. -/
structure BoxDraws where
  kem : EncapDraws
  nonce : FixedBytes 12

/-- Offset of the body in a sealed payload. -/
def bodyOffset : Nat := ciphertextLen + nonceLen

@[simp] theorem bodyOffset_eq : bodyOffset = 1132 := rfl

variable (P : Primitives)

/-- The key of one box: derived from the hybrid secret alone and the label. -/
def boxKey (info shared : Bytes) : Bytes := P.hkdf [] shared info

/-- Seal a message to a hybrid public key. -/
def sealBox (info aad msg hybridPub : Bytes) (draws : BoxDraws) : Outcome BoxError Bytes := do
  let encapsulated ← (hybridEncap P hybridPub draws.kem).mapError .kem
  let key := boxKey P info encapsulated.2
  let body ← Outcome.ofOption .aead (P.aeadEncrypt key draws.nonce aad msg)
  return encapsulated.1 ++ draws.nonce.val ++ body

/-- Open a sealed payload with a hybrid private key. -/
def openBox (info aad payload hybridPriv : Bytes) : Outcome BoxError Bytes := do
  let ciphertext ← slice payload 0 ciphertextLen
  let nonceBytes ← slice payload ciphertextLen bodyOffset
  let body ← slice payload bodyOffset payload.length
  let shared ← (hybridDecap P ciphertext hybridPriv).mapError .kem
  let key := boxKey P info shared
  let nonce ← copyFromSlice 12 nonceBytes
  Outcome.ofOption .aead (P.aeadDecrypt key nonce aad body)

variable {P}

/-- A payload long enough to open, part by part. -/
theorem exists_payload_parts {payload : Bytes} (long : bodyOffset ≤ payload.length) :
    ∃ (ciphertext : FixedBytes 1120) (nonce : FixedBytes 12) (body : Bytes),
      payload = ciphertext.val ++ (nonce.val ++ body) := by
  rw [bodyOffset_eq] at long
  refine ⟨⟨payload.take 1120, by simp; omega⟩, ⟨(payload.drop 1120).take 12, by simp; omega⟩,
    payload.drop 1132, ?_⟩
  have parts := eq_append_slices payload 1120 12
  rwa [List.append_assoc] at parts

/-- Opening a payload given by its parts. -/
theorem openBox_append (info aad : Bytes) (ciphertext : FixedBytes 1120) (nonce : FixedBytes 12)
    (body hybridPriv : Bytes) :
    openBox P info aad (ciphertext.val ++ (nonce.val ++ body)) hybridPriv =
      ((hybridDecap P ciphertext.val hybridPriv).mapError BoxError.kem >>= fun shared =>
        Outcome.ofOption .aead (P.aeadDecrypt (boxKey P info shared) nonce aad body)) := by
  have nonceSlice : (slice (ciphertext.val ++ (nonce.val ++ body)) 1120 1132 :
      Outcome BoxError Bytes) = .ok nonce.val := slice_middle ciphertext nonce body
  have bodySlice : (slice (ciphertext.val ++ (nonce.val ++ body)) 1132
      (ciphertext.val ++ (nonce.val ++ body)).length : Outcome BoxError Bytes) = .ok body :=
    slice_rest ciphertext nonce body
  simp only [openBox, ciphertextLen_eq, bodyOffset_eq, slice_front, nonceSlice, bodySlice,
    Outcome.ok_bind, copyFromSlice_val]

/-- Opening fails cleanly on every payload that holds a ciphertext and a
nonce. -/
theorem openBox_ne_panic (info aad : Bytes) {payload : Bytes} (hybridPriv : Bytes)
    (long : bodyOffset ≤ payload.length) : openBox P info aad payload hybridPriv ≠ .panic := by
  obtain ⟨ciphertext, nonce, body, rfl⟩ := exists_payload_parts long
  rw [openBox_append]
  intro panicked
  rcases Outcome.bind_eq_panic.mp panicked with decap | ⟨shared, _, decrypt⟩
  · exact hybridDecap_ne_panic _ _ (Outcome.mapError_eq_panic.mp decap)
  · exact Outcome.ofOption_ne_panic decrypt

/-- Sealing fails cleanly on every input. -/
theorem sealBox_ne_panic (info aad msg hybridPub : Bytes) (draws : BoxDraws) :
    sealBox P info aad msg hybridPub draws ≠ .panic := by
  intro panicked
  rcases Outcome.bind_eq_panic.mp panicked with encap | ⟨encapsulated, _, rest⟩
  · exact hybridEncap_ne_panic _ _ (Outcome.mapError_eq_panic.mp encap)
  · rcases Outcome.bind_eq_panic.mp rest with encrypt | ⟨body, _, done⟩
    · exact Outcome.ofOption_ne_panic encrypt
    · cases done

/-- What a successful sealing returned, part by part. -/
theorem sealBox_eq_ok {info aad msg hybridPub payload : Bytes} {draws : BoxDraws}
    (made : sealBox P info aad msg hybridPub draws = .ok payload) :
    ∃ (ciphertext : FixedBytes 1120) (shared body : Bytes),
      hybridEncap P hybridPub draws.kem = .ok (ciphertext.val, shared) ∧
      P.aeadEncrypt (boxKey P info shared) draws.nonce aad msg = some body ∧
      payload = ciphertext.val ++ (draws.nonce.val ++ body) := by
  obtain ⟨⟨ciphertext, shared⟩, encapsulated, rest⟩ := Outcome.bind_eq_ok.mp made
  obtain ⟨body, encrypted, done⟩ := Outcome.bind_eq_ok.mp rest
  rw [Outcome.mapError_eq_ok] at encapsulated
  rw [Outcome.ofOption_eq_ok] at encrypted
  cases done
  exact ⟨⟨ciphertext, length_hybridEncap encapsulated⟩, shared, body, encapsulated, encrypted,
    List.append_assoc _ _ _⟩

/-- The length of a sealed payload. -/
theorem length_sealBox (correct : P.AeadCorrect) {info aad msg hybridPub payload : Bytes}
    {draws : BoxDraws} (made : sealBox P info aad msg hybridPub draws = .ok payload) :
    payload.length = bodyOffset + msg.length + tagLen := by
  obtain ⟨ciphertext, shared, body, _, encrypted, rfl⟩ := sealBox_eq_ok made
  simp only [List.length_append, ciphertext.property, draws.nonce.property,
    correct.length_encrypt encrypted, bodyOffset_eq]
  omega

/-- **What was sealed to a generated key pair opens to the message.** -/
theorem openBox_sealBox (kem : P.KemCorrect) (aead : P.AeadCorrect) (keys : KeypairDraws)
    {info aad msg payload : Bytes} {draws : BoxDraws}
    (made : sealBox P info aad msg (hybridKeypair P keys).publicKey draws = .ok payload) :
    openBox P info aad payload (hybridKeypair P keys).privateKey = .ok msg := by
  obtain ⟨ciphertext, shared, body, encapsulated, encrypted, rfl⟩ := sealBox_eq_ok made
  rw [openBox_append, hybridDecap_hybridEncap kem keys encapsulated, Outcome.mapError_ok,
    Outcome.ok_bind, aead.decrypt_encrypt encrypted, Outcome.ofOption_some]

/-! ## Ideal encryption -/

/-- **What a sealed box can open as.** The key is the one it was sealed under, and so
are the associated data and the message. -/
theorem openBox_of_ideal (ideal : P.IdealAead)
    {info aad msg hybridPub payload info' aad' hybridPriv plain : Bytes} {draws : BoxDraws}
    (made : sealBox P info aad msg hybridPub draws = .ok payload)
    (opened : openBox P info' aad' payload hybridPriv = .ok plain) :
    ∃ ciphertext shared shared', hybridEncap P hybridPub draws.kem = .ok (ciphertext, shared) ∧
      hybridDecap P ciphertext hybridPriv = .ok shared' ∧
      boxKey P info' shared' = boxKey P info shared ∧ aad' = aad ∧ plain = msg := by
  obtain ⟨ciphertext, shared, body, encapsulated, encrypted, rfl⟩ := sealBox_eq_ok made
  rw [openBox_append] at opened
  obtain ⟨shared', decapsulated, decrypted⟩ := Outcome.bind_eq_ok.mp opened
  rw [Outcome.mapError_eq_ok] at decapsulated
  rw [Outcome.ofOption_eq_ok] at decrypted
  obtain ⟨sameKey, -, sameAad, sameMsg⟩ := ideal _ _ _ _ _ encrypted _ _ _ _ decrypted
  exact ⟨ciphertext.val, shared, shared', encapsulated, decapsulated, sameKey, sameAad, sameMsg⟩

/-- A box sealed to a generated key pair does not authenticate under other associated
data. -/
theorem openBox_of_aad_ne (kem : P.KemCorrect) (ideal : P.IdealAead) (keys : KeypairDraws)
    {info aad msg payload aad' : Bytes} {draws : BoxDraws} (info' : Bytes)
    (made : sealBox P info aad msg (hybridKeypair P keys).publicKey draws = .ok payload)
    (other : aad' ≠ aad) :
    openBox P info' aad' payload (hybridKeypair P keys).privateKey = .error .aead := by
  obtain ⟨ciphertext, shared, body, encapsulated, encrypted, rfl⟩ := sealBox_eq_ok made
  rw [openBox_append, hybridDecap_hybridEncap kem keys encapsulated, Outcome.mapError_ok,
    Outcome.ok_bind]
  cases decrypted : P.aeadDecrypt (boxKey P info' shared) draws.nonce aad' body with
  | none => rfl
  | some plain => exact absurd (ideal _ _ _ _ _ encrypted _ _ _ _ decrypted).2.2.1 other

end HybridBox
end SkPqc

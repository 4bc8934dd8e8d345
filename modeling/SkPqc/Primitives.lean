import SkPqc.Library.Bytes

/-!
# The cryptography the crate calls

X25519, ML-KEM-768, HKDF-SHA256 and AES-256-GCM come from other crates. They are
a parameter here, and what a result needs of them is a named hypothesis. So is the
`Debug` text of a string, which one error message shows.

Keys, ML-KEM shared secrets and ciphertext bodies are byte strings of no fixed
length. An injective key derivation has more outputs than there are arrays of 32
bytes, so a fixed length would leave the idealised hypotheses without a model.
The lengths that the code checks are kept: the X25519 and ML-KEM encodings, the
nonce, the epoch secret, and the sixteen bytes by which AES-GCM extends a
message.
-/

set_option autoImplicit false

namespace SkPqc

open Library

/-- Length of an AES-GCM nonce. -/
def nonceLen : Nat := 12

/-- Length of an AES-GCM tag. -/
def tagLen : Nat := 16

/-- The HMAC block size, up to which a shorter key is padded with zeros. -/
def hmacBlockLen : Nat := 64

/-- The functions the crate takes from other crates, and from the language what it leaves
unspecified. -/
structure Primitives where
  /-- `Hkdf::<Sha256>::new(Some(salt), ikm)` expanded with `info` to a key. -/
  hkdf (salt ikm info : Bytes) : Bytes
  /-- AES-256-GCM encryption. `none` when the input is too long. -/
  aeadEncrypt (key : Bytes) (nonce : FixedBytes 12) (aad msg : Bytes) : Option Bytes
  /-- AES-256-GCM decryption. `none` when the tag does not authenticate. -/
  aeadDecrypt (key : Bytes) (nonce : FixedBytes 12) (aad body : Bytes) : Option Bytes
  /-- The X25519 public value of a seed. -/
  x25519Public (seed : FixedBytes 32) : FixedBytes 32
  /-- The X25519 shared secret of a seed and a public value. -/
  x25519 (seed point : FixedBytes 32) : FixedBytes 32
  /-- ML-KEM-768 key generation: the decapsulation and the encapsulation key. -/
  mlkemGenerate (coins : FixedBytes 64) : FixedBytes 2400 × FixedBytes 1184
  /-- ML-KEM-768 encapsulation: the ciphertext and the shared secret. -/
  mlkemEncapsulate (ek : FixedBytes 1184) (coins : FixedBytes 32) :
    Option (FixedBytes 1088 × Bytes)
  /-- ML-KEM-768 decapsulation. -/
  mlkemDecapsulate (dk : FixedBytes 2400) (ct : FixedBytes 1088) : Option Bytes
  /-- The `Debug` text of a string, quoted and escaped. -/
  debugText (text : String) : String

namespace Primitives

variable (P : Primitives)

/-- A correct KEM: the two sides of an X25519 exchange agree, and ML-KEM
decapsulation inverts encapsulation. -/
structure KemCorrect : Prop where
  x25519_comm : ∀ first second,
    P.x25519 first (P.x25519Public second) = P.x25519 second (P.x25519Public first)
  mlkem_correct : ∀ seed coins, ∃ ct secret,
    P.mlkemEncapsulate (P.mlkemGenerate seed).2 coins = some (ct, secret) ∧
      P.mlkemDecapsulate (P.mlkemGenerate seed).1 ct = some secret

/-- A correct AEAD: what was encrypted decrypts, and is longer than the message
by the tag. -/
structure AeadCorrect : Prop where
  decrypt_encrypt : ∀ {key nonce aad msg body},
    P.aeadEncrypt key nonce aad msg = some body → P.aeadDecrypt key nonce aad body = some msg
  length_encrypt : ∀ {key nonce aad msg body},
    P.aeadEncrypt key nonce aad msg = some body → body.length = msg.length + tagLen

/-- A salt padded with zeros to the HMAC block size. -/
def hmacPad (salt : Bytes) : Bytes := salt ++ List.replicate (hmacBlockLen - salt.length) 0

/-- Key derivation is injective, up to the padding of the salt. -/
def HkdfInjective : Prop :=
  ∀ salt ikm info salt' ikm' info', P.hkdf salt ikm info = P.hkdf salt' ikm' info' →
    hmacPad salt = hmacPad salt' ∧ ikm = ikm' ∧ info = info'

/-- One encryption: the key, nonce, associated data and message it was made
with, and the ciphertext it gave. -/
structure Sealing where
  key : Bytes
  nonce : FixedBytes 12
  aad : Bytes
  msg : Bytes
  body : Bytes

/-- A ciphertext decrypts only under the exact key, nonce and associated data it
was made with, and to the message it was made from. -/
def Exact (made : Sealing) : Prop :=
  ∀ key nonce aad msg, P.aeadDecrypt key nonce aad made.body = some msg →
    key = made.key ∧ nonce = made.nonce ∧ aad = made.aad ∧ msg = made.msg

/-- An ideal AEAD: every ciphertext decrypts only as it was made. -/
def IdealAead : Prop :=
  ∀ key nonce aad msg body, P.aeadEncrypt key nonce aad msg = some body →
    P.Exact ⟨key, nonce, aad, msg, body⟩

/-- The blob ends in no ciphertext but the given one: a suffix of it decrypts only
as that one was made. -/
def OnlyCiphertext (made : Sealing) (blob : Bytes) : Prop :=
  ∀ key nonce aad msg body, body <:+ blob → P.aeadDecrypt key nonce aad body = some msg →
    ⟨key, nonce, aad, msg, body⟩ = made

/-- The blob ends in no ciphertext but those of the log: a suffix of it decrypts only as
one of these was made. -/
def OnlyLogged (log : List Sealing) (blob : Bytes) : Prop :=
  ∀ key nonce aad msg body, body <:+ blob → P.aeadDecrypt key nonce aad body = some msg →
    ⟨key, nonce, aad, msg, body⟩ ∈ log

/-- Under one key, different ML-KEM ciphertexts decapsulate to different secrets. -/
def DecapsulateInjective : Prop :=
  ∀ dk ct ct' secret, P.mlkemDecapsulate dk ct = some secret →
    P.mlkemDecapsulate dk ct' = some secret → ct = ct'

end Primitives

end SkPqc

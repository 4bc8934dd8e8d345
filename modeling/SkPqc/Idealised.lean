import SkPqc.Ratchet
import Mathlib.Data.List.Basic

/-!
# Idealised primitives

An instance of the cryptography that meets the idealised hypotheses together. Key
derivation is an injective encoding of its inputs. X25519 decodes and encodes as
the real function does, the top bit ignored, and multiplies in the field instead
of on the curve. An ML-KEM secret names the key and the ciphertext. The AEAD
appends a tag that a log assigns to the encryption, and refuses what the log does
not know.

No log can be a list of all encryptions: the bodies of one length are finitely
many, and the keys are not. So the AEAD is a parameter, and `logged` makes an
ideal one of any list of encryptions.
-/

set_option autoImplicit false

namespace SkPqc
namespace Idealised

open Library Primitives Kem HybridBox Ratchet

/-! ## Key derivation -/

/-- A byte string that shows where it ends. -/
def delimited (bytes : Bytes) : Bytes := bytes.flatMap (fun byte => [1, byte]) ++ [0]

theorem delimited_append_inj {first second rest rest' : Bytes}
    (same : delimited first ++ rest = delimited second ++ rest') :
    first = second ∧ rest = rest' := by
  induction first generalizing second with
  | nil =>
      cases second with
      | nil => simpa [delimited] using same
      | cons byte second => simp [delimited] at same
  | cons byte first ih =>
      cases second with
      | nil => simp [delimited] at same
      | cons byte' second =>
          simp only [delimited, List.flatMap_cons, List.cons_append, List.nil_append,
            List.cons.injEq, true_and] at same
          obtain ⟨rfl, tails⟩ := same
          obtain ⟨rfl, rfl⟩ := ih tails
          exact ⟨rfl, rfl⟩

def hkdf (salt ikm info : Bytes) : Bytes :=
  delimited (hmacPad salt) ++ (delimited ikm ++ info)

/-! ## X25519 -/

/-- The characteristic of the field. -/
def fieldPrime : Nat := 2 ^ 255 - 19

/-- The field element of a public value: little-endian, the top bit ignored. -/
def decodeU (point : FixedBytes 32) : Nat := beNat point.val.reverse % 2 ^ 255 % fieldPrime

def encodeU (element : Nat) : FixedBytes 32 := ⟨(natToBe 32 element).reverse, by simp⟩

/-- Another encoding of a field element, with the top bit set. -/
def encodeHighU (element : Nat) : FixedBytes 32 := encodeU (element + 2 ^ 255)

/-- The base point `u = 9`. -/
def basePoint : FixedBytes 32 := encodeU 9

def x25519 (seed point : FixedBytes 32) : FixedBytes 32 :=
  encodeU (beNat seed.val.reverse * decodeU point % fieldPrime)

theorem decodeU_encodeU {element : Nat} (small : element < fieldPrime) :
    decodeU (encodeU element) = element := by
  have prime : fieldPrime < 2 ^ 255 := by decide
  have byteBound : (256 : Nat) ^ 32 = 2 * 2 ^ 255 := by decide
  rw [decodeU, encodeU, List.reverse_reverse, beNat_natToBe,
    Nat.mod_eq_of_lt (show element < 256 ^ 32 by omega),
    Nat.mod_eq_of_lt (show element < 2 ^ 255 by omega), Nat.mod_eq_of_lt small]

/-- Decoding ignores the top bit. -/
theorem decodeU_encodeHighU {element : Nat} (small : element < fieldPrime) :
    decodeU (encodeHighU element) = decodeU (encodeU element) := by
  have prime : fieldPrime < 2 ^ 255 := by decide
  have byteBound : (256 : Nat) ^ 32 = 2 * 2 ^ 255 := by decide
  rw [decodeU_encodeU small, decodeU, encodeHighU, encodeU, List.reverse_reverse, beNat_natToBe,
    Nat.mod_eq_of_lt (show element + 2 ^ 255 < 256 ^ 32 by omega), Nat.add_mod_right,
    Nat.mod_eq_of_lt (show element < 2 ^ 255 by omega), Nat.mod_eq_of_lt small]

theorem encodeHighU_ne {element : Nat} (small : element < fieldPrime) :
    encodeHighU element ≠ encodeU element := by
  have below : element < 2 ^ 255 := Nat.lt_trans small (by decide)
  have byteBound : (256 : Nat) ^ 32 = 2 * 2 ^ 255 := by decide
  intro same
  have numbers := congrArg (fun point : FixedBytes 32 => beNat point.val.reverse) same
  simp only [encodeHighU, encodeU, List.reverse_reverse, beNat_natToBe] at numbers
  rw [Nat.mod_eq_of_lt (show element + 2 ^ 255 < 256 ^ 32 by omega),
    Nat.mod_eq_of_lt (show element < 256 ^ 32 by omega)] at numbers
  omega

theorem decodeU_x25519 (seed point : FixedBytes 32) :
    decodeU (x25519 seed point) = beNat seed.val.reverse * decodeU point % fieldPrime :=
  decodeU_encodeU (Nat.mod_lt _ (by decide))

theorem x25519_comm (first second : FixedBytes 32) :
    x25519 first (x25519 second basePoint) = x25519 second (x25519 first basePoint) := by
  rw [x25519, decodeU_x25519, x25519, decodeU_x25519, Nat.mul_mod, Nat.mod_mod, ← Nat.mul_mod,
    Nat.mul_mod (beNat second.val.reverse), Nat.mod_mod, ← Nat.mul_mod, Nat.mul_left_comm]

/-- A public value has another encoding, with the same shared secrets. -/
theorem exists_other_encoding (ephemeral : FixedBytes 32) :
    ∃ point, point ≠ x25519 ephemeral basePoint ∧
      ∀ seed, x25519 seed (x25519 ephemeral basePoint) = x25519 seed point := by
  have small : beNat ephemeral.val.reverse * decodeU basePoint % fieldPrime < fieldPrime :=
    Nat.mod_lt _ (by decide)
  refine ⟨encodeHighU _, encodeHighU_ne small, fun seed => ?_⟩
  rw [x25519, x25519, x25519, decodeU_encodeHighU small]

/-! ## ML-KEM -/

/-- An array with zeros behind it. -/
def extended {n : Nat} (array : FixedBytes n) (zeros : Nat) : FixedBytes (n + zeros) :=
  ⟨array.val ++ List.replicate zeros 0, by simp [array.property]⟩

theorem take_extended {n : Nat} (array : FixedBytes n) (zeros : Nat) :
    (extended array zeros).val.take n = array.val := by
  simp [extended, array.property]

def mlkemGenerate (coins : FixedBytes 64) : FixedBytes 2400 × FixedBytes 1184 :=
  (extended coins 2336, extended coins 1120)

/-- The secret of a key, given by its coins, and a ciphertext. -/
def mlkemSecret (key : Bytes) (ct : FixedBytes 1088) : Bytes := key.take 64 ++ ct.val

/-- A secret starts with the coins of its key. -/
theorem take_mlkemSecret (coins : FixedBytes 64) (ct : FixedBytes 1088) :
    (mlkemSecret (mlkemGenerate coins).1.val ct).take 64 = coins.val ∧
      (mlkemSecret (mlkemGenerate coins).2.val ct).take 64 = coins.val := by
  have decapsulation := take_extended coins 2336
  have encapsulation := take_extended coins 1120
  simp only [mlkemSecret, mlkemGenerate]
  rw [decapsulation, encapsulation, List.take_left' coins.property]
  exact ⟨rfl, rfl⟩

def mlkemCiphertext (coins : FixedBytes 32) : FixedBytes 1088 := extended coins 1056

/-! ## The AEAD -/

/-- The input of an encryption. -/
structure Encryption where
  key : Bytes
  nonce : FixedBytes 12
  aad : Bytes
  msg : Bytes
  deriving DecidableEq

/-- The primitives, given the tag of every encryption that can be made. -/
def primitives (tagOf : Encryption → Option (FixedBytes 16)) : Primitives where
  hkdf := hkdf
  aeadEncrypt key nonce aad msg := (tagOf ⟨key, nonce, aad, msg⟩).map fun tag => msg ++ tag.val
  aeadDecrypt key nonce aad body :=
    let msg := body.take (body.length - 16)
    match tagOf ⟨key, nonce, aad, msg⟩ with
    | some tag => if body = msg ++ tag.val then some msg else none
    | none => none
  x25519Public seed := x25519 seed basePoint
  x25519 := x25519
  mlkemGenerate := mlkemGenerate
  mlkemEncapsulate ek coins :=
    some (mlkemCiphertext coins, mlkemSecret ek.val (mlkemCiphertext coins))
  mlkemDecapsulate dk ct := some (mlkemSecret dk.val ct)
  debugText := String.quote

variable {tagOf : Encryption → Option (FixedBytes 16)}

theorem hkdfInjective : (primitives tagOf).HkdfInjective := by
  intro salt ikm info salt' ikm' info' same
  obtain ⟨sameSalt, rest⟩ := delimited_append_inj same
  obtain ⟨sameIkm, sameInfo⟩ := delimited_append_inj rest
  exact ⟨sameSalt, sameIkm, sameInfo⟩

theorem kemCorrect : (primitives tagOf).KemCorrect where
  x25519_comm := x25519_comm
  mlkem_correct seed coins := by
    refine ⟨_, _, rfl, ?_⟩
    have decapsulation := take_extended seed 2336
    have encapsulation := take_extended seed 1120
    simp only [primitives, mlkemSecret, mlkemGenerate]
    rw [decapsulation, encapsulation]

theorem decapsulateInjective : (primitives tagOf).DecapsulateInjective := by
  intro dk ct ct' secret first second
  have same := (Option.some.inj first).trans (Option.some.inj second).symm
  exact Subtype.ext (List.append_cancel_left same)

theorem aeadEncrypt_eq_some {key : Bytes} {nonce : FixedBytes 12} {aad msg body : Bytes} :
    (primitives tagOf).aeadEncrypt key nonce aad msg = some body ↔
      ∃ tag, tagOf ⟨key, nonce, aad, msg⟩ = some tag ∧ body = msg ++ tag.val := by
  simp only [primitives, Option.map_eq_some_iff]
  exact exists_congr fun tag => and_congr_right fun _ => eq_comm

/-- What decrypts is a message with its tag. -/
theorem aeadDecrypt_eq_some {key : Bytes} {nonce : FixedBytes 12} {aad msg body : Bytes} :
    (primitives tagOf).aeadDecrypt key nonce aad body = some msg ↔
      ∃ tag, tagOf ⟨key, nonce, aad, msg⟩ = some tag ∧ body = msg ++ tag.val := by
  have cut : ∀ tag : FixedBytes 16, (msg ++ tag.val).take ((msg ++ tag.val).length - 16) = msg := by
    intro tag
    simp [tag.property]
  simp only [primitives]
  constructor
  · intro decrypted
    split at decrypted
    · rename_i tag tagged
      split at decrypted
      · rename_i whole
        rw [← Option.some.inj decrypted]
        exact ⟨tag, tagged, whole⟩
      · cases decrypted
    · cases decrypted
  · rintro ⟨tag, tagged, rfl⟩
    simp only [cut, tagged, if_true]

theorem aeadCorrect : (primitives tagOf).AeadCorrect where
  decrypt_encrypt encrypted := aeadDecrypt_eq_some.mpr (aeadEncrypt_eq_some.mp encrypted)
  length_encrypt encrypted := by
    obtain ⟨tag, -, rfl⟩ := aeadEncrypt_eq_some.mp encrypted
    simp [tag.property, tagLen]

/-- Tags that tell encryptions apart make an ideal AEAD. -/
theorem idealAead
    (distinct : ∀ first second tag, tagOf first = some tag → tagOf second = some tag →
      first = second) : (primitives tagOf).IdealAead := by
  intro key nonce aad msg body encrypted key' nonce' aad' msg' decrypted
  obtain ⟨tag, tagged, rfl⟩ := aeadEncrypt_eq_some.mp encrypted
  obtain ⟨tag', tagged', same⟩ := aeadDecrypt_eq_some.mp decrypted
  have sameTag := List.append_inj_right' same (by rw [tag.property, tag'.property])
  obtain rfl := Subtype.ext sameTag
  cases distinct _ _ _ tagged tagged'
  exact ⟨rfl, rfl, rfl, rfl⟩

/-! ## Logs -/

/-- The tags of a log: the position of an encryption in it. -/
def logged (log : List Encryption) (encryption : Encryption) : Option (FixedBytes 16) :=
  if encryption ∈ log then some ⟨natToBe 16 (log.idxOf encryption), length_natToBe 16 _⟩ else none

theorem exists_logged {log : List Encryption} {encryption : Encryption}
    (found : encryption ∈ log) : ∃ tag, logged log encryption = some tag :=
  ⟨_, if_pos found⟩

/-- A log of fewer than `2 ^ 128` encryptions is ideal. -/
theorem idealAead_logged {log : List Encryption} (short : log.length < 2 ^ 128) :
    (primitives (logged log)).IdealAead := by
  refine idealAead ?_
  intro first second tag tagged tagged'
  unfold logged at tagged tagged'
  split at tagged
  · rename_i found
    split at tagged'
    · rename_i found'
      have same := congrArg Subtype.val
        ((Option.some.inj tagged).trans (Option.some.inj tagged').symm)
      have bound := List.idxOf_lt_length_iff.mpr found
      have bound' := List.idxOf_lt_length_iff.mpr found'
      have numbers := congrArg beNat same
      rw [beNat_natToBe, beNat_natToBe, Nat.mod_eq_of_lt (by omega), Nat.mod_eq_of_lt (by omega)]
        at numbers
      exact (List.idxOf_inj found).mp numbers
    · cases tagged'
  · cases tagged

/-- An encryption of a log, with its body. -/
def loggedSealing (log : List Encryption) (encryption : Encryption) : Sealing where
  key := encryption.key
  nonce := encryption.nonce
  aad := encryption.aad
  msg := encryption.msg
  body := encryption.msg ++ natToBe 16 (log.idxOf encryption)

theorem aeadEncrypt_loggedSealing {log : List Encryption} {encryption : Encryption}
    (found : encryption ∈ log) :
    (primitives (logged log)).aeadEncrypt encryption.key encryption.nonce encryption.aad
      encryption.msg = some (loggedSealing log encryption).body :=
  aeadEncrypt_eq_some.mpr ⟨_, if_pos found, rfl⟩

/-- No blob ends in a ciphertext that is not in the log. -/
theorem onlyLogged_logged (log : List Encryption) (blob : Bytes) :
    (primitives (logged log)).OnlyLogged (log.map (loggedSealing log)) blob := by
  intro key nonce aad msg body _ decrypted
  obtain ⟨tag, tagged, rfl⟩ := aeadDecrypt_eq_some.mp decrypted
  unfold logged at tagged
  split at tagged
  · rename_i found
    rw [← Option.some.inj tagged]
    exact List.mem_map_of_mem found
  · cases tagged

/-- Tags for all encryptions, one of which has a tag of its own. -/
def marked (special encryption : Encryption) : Option (FixedBytes 16) :=
  some (if encryption = special then .fill 16 1 else .fill 16 0)

theorem exists_marked (special encryption : Encryption) :
    ∃ tag, marked special encryption = some tag := ⟨_, rfl⟩

/-- The marked encryption decrypts only as it was made. -/
theorem exact_marked {special : Encryption} {body : Bytes}
    (encrypted : (primitives (marked special)).aeadEncrypt special.key special.nonce special.aad
      special.msg = some body) :
    (primitives (marked special)).Exact
      ⟨special.key, special.nonce, special.aad, special.msg, body⟩ := by
  intro key nonce aad msg decrypted
  obtain ⟨tag, tagged, rfl⟩ := aeadEncrypt_eq_some.mp encrypted
  obtain ⟨tag', tagged', same⟩ := aeadDecrypt_eq_some.mp decrypted
  obtain ⟨sameMsg, sameTag⟩ := List.append_inj' same (by rw [tag.property, tag'.property])
  rw [marked, if_pos rfl] at tagged
  rw [← Option.some.inj tagged] at sameTag
  unfold marked at tagged'
  split at tagged'
  · rename_i same
    rw [← same]
    exact ⟨rfl, rfl, rfl, rfl⟩
  · rw [← Option.some.inj tagged'] at sameTag
    exact absurd sameTag (by decide)

/-! ## Boxes -/

/-- A key pair for every byte. -/
def sampleKeys (byte : UInt8) : KeypairDraws where
  xSeed := .fill 32 byte
  mlkemCoins := .fill 64 byte

/-- The draws of a box for every byte. -/
def sampleBoxDraws (byte : UInt8) : BoxDraws where
  kem := { xEph := .fill 32 byte, mlkemCoins := .fill 32 byte }
  nonce := .fill 12 byte

/-- The encryption that a box to a generated key pair makes. -/
def boxEncryption (info aad msg : Bytes) (keys : KeypairDraws) (draws : BoxDraws) : Encryption where
  key :=
    let shared := x25519 draws.kem.xEph (x25519 keys.xSeed basePoint)
    let secret := mlkemSecret (mlkemGenerate keys.mlkemCoins).2.val
      (mlkemCiphertext draws.kem.mlkemCoins)
    hkdf [] (hkdf [] (shared.val ++ secret) hkdfInfo) info
  nonce := draws.nonce
  aad := aad
  msg := msg

/-- The hybrid ciphertext of a box. -/
def boxCiphertext (draws : BoxDraws) : Bytes :=
  (x25519 draws.kem.xEph basePoint).val ++ (mlkemCiphertext draws.kem.mlkemCoins).val

section Boxes

variable {keys : KeypairDraws} {draws : BoxDraws} {tag : FixedBytes 16}

/-- Encapsulating to a key pair gives the hybrid ciphertext, and a secret from which the
key of every box is derived. -/
theorem exists_hybridEncap (tagOf : Encryption → Option (FixedBytes 16)) (keys : KeypairDraws)
    (draws : BoxDraws) :
    ∃ shared, hybridEncap (primitives tagOf) (hybridKeypair (primitives tagOf) keys).publicKey
        draws.kem = .ok (boxCiphertext draws, shared) ∧
      ∀ info aad msg, (boxEncryption info aad msg keys draws).key =
        boxKey (primitives tagOf) info shared :=
  ⟨_, hybridEncap_append _ _ _, fun _ _ _ => rfl⟩

/-- A box can be sealed when its encryption has a tag. -/
theorem sealBox_of_tag {info aad msg : Bytes}
    (tagged : tagOf (boxEncryption info aad msg keys draws) = some tag) :
    sealBox (primitives tagOf) info aad msg (hybridKeypair (primitives tagOf) keys).publicKey
        draws =
      .ok (boxCiphertext draws ++ draws.nonce.val ++ (msg ++ tag.val)) := by
  obtain ⟨shared, encapsulated, sameKey⟩ := exists_hybridEncap tagOf keys draws
  have encrypted : (primitives tagOf).aeadEncrypt (boxKey (primitives tagOf) info shared)
      draws.nonce aad msg = some (msg ++ tag.val) := by
    rw [← sameKey info aad msg]
    exact aeadEncrypt_eq_some.mpr ⟨tag, tagged, rfl⟩
  simp only [sealBox, encapsulated, Outcome.mapError_ok, Outcome.ok_bind, encrypted,
    Outcome.ofOption_some, Outcome.pure_eq]

/-- So can the wrap of an epoch secret. -/
theorem wrapDmEpochSecret_of_tag {secret : EpochSecret}
    (tagged : tagOf (boxEncryption infoDmWrap [] secret.val keys draws) = some tag) :
    wrapDmEpochSecret (primitives tagOf) secret.val
        (hybridKeypair (primitives tagOf) keys).publicKey draws =
      .ok (boxCiphertext draws ++ draws.nonce.val ++ (secret.val ++ tag.val)) := by
  have length : (hybridKeypair (primitives tagOf) keys).publicKey.length = publicKeyLen :=
    length_publicKey (primitives tagOf) keys
  rw [wrapDmEpochSecret_secret, if_neg (not_not.mpr length), sealBox_of_tag tagged,
    Outcome.mapError_ok]

end Boxes

end Idealised
end SkPqc

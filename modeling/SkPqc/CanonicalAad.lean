import SkPqc.CanonicalJson
import SkPqc.Pqdm

/-!
# Two encoders of one associated data

The downgrade lock writes its JSON with the compact writer of the JSON crate, and
the route header is written by the canonical encoder. They differ on a single
range of characters: the compact writer leaves everything from DEL on raw, and
the canonical encoder escapes it.

So the downgrade lock is canonical exactly when the suite and the two parties are
spelled with characters below DEL (`downgradeLockAad_canonical_iff`). The
argument is by length: an escape takes six bytes, raw UTF-8 at most four.
-/

set_option autoImplicit false

namespace SkPqc
namespace Pqdm

open Library Library.Json Pqroute

/-- The text has no character from DEL on. -/
def Plain (text : String) : Prop := ∀ ch ∈ text.toList, ch.toNat ≤ 0x7e

instance (text : String) : Decidable (Plain text) :=
  List.decidableBAll (fun ch : Char => ch.toNat ≤ 0x7e) text.toList

/-! ## One character -/

/-- Below DEL the encoders agree. -/
theorem escapeChar_eq_of_le {ch : Char} (plain : ch.toNat ≤ 0x7e) :
    escapeChar ch = encodeCharAscii ch := by
  unfold escapeChar encodeCharAscii
  by_cases control : ch.toNat < 0x20
  · have high : ¬ (0x20 ≤ ch.toNat ∧ ch.toNat ≤ 0x7e) := by omega
    have unit : ch.toNat ≤ 0xFFFF := by omega
    simp only [if_pos control, if_neg high, if_pos unit, pushUEscape]
  · have raw : String.utf8EncodeChar ch = [UInt8.ofNat ch.toNat] := by
      have encoded := @utf8EncodeChar_of_lt ch.toNat (by omega)
      rwa [Char.ofNat_toNat] at encoded
    have printable : 0x20 ≤ ch.toNat ∧ ch.toNat ≤ 0x7e := by omega
    simp only [if_neg control, if_pos printable, raw]

/-- From DEL on the canonical encoder writes more bytes. -/
theorem length_escapeChar_lt {ch : Char} (high : ¬ ch.toNat ≤ 0x7e) :
    (escapeChar ch).length < (encodeCharAscii ch).length := by
  have raw : escapeChar ch = String.utf8EncodeChar ch := by
    unfold escapeChar
    simp only [if_neg (show ch.toNat ≠ 0x22 by omega), if_neg (show ch.toNat ≠ 0x5c by omega),
      if_neg (show ch.toNat ≠ 0x08 by omega), if_neg (show ch.toNat ≠ 0x09 by omega),
      if_neg (show ch.toNat ≠ 0x0a by omega), if_neg (show ch.toNat ≠ 0x0c by omega),
      if_neg (show ch.toNat ≠ 0x0d by omega), if_neg (show ¬ ch.toNat < 0x20 by omega)]
  have escaped : 6 ≤ (encodeCharAscii ch).length := by
    unfold encodeCharAscii
    simp only [if_neg (show ch.toNat ≠ 0x22 by omega), if_neg (show ch.toNat ≠ 0x5c by omega),
      if_neg (show ch.toNat ≠ 0x08 by omega), if_neg (show ch.toNat ≠ 0x09 by omega),
      if_neg (show ch.toNat ≠ 0x0a by omega), if_neg (show ch.toNat ≠ 0x0c by omega),
      if_neg (show ch.toNat ≠ 0x0d by omega),
      if_neg (show ¬ (0x20 ≤ ch.toNat ∧ ch.toNat ≤ 0x7e) by omega)]
    split <;> simp [pushUEscape]
  have short := ch.utf8Size_le_four
  rw [raw, String.length_utf8EncodeChar]
  omega

theorem length_escapeChar_le (ch : Char) :
    (escapeChar ch).length ≤ (encodeCharAscii ch).length := by
  by_cases plain : ch.toNat ≤ 0x7e
  · rw [escapeChar_eq_of_le plain]
  · exact Nat.le_of_lt (length_escapeChar_lt plain)

/-! ## One string -/

theorem quoted_of_plain {text : String} (plain : Plain text) :
    quoted escapeChar text = encodeStringAscii text := by
  have same : text.toList.map escapeChar = text.toList.map encodeCharAscii :=
    List.map_congr_left fun ch found => escapeChar_eq_of_le (plain ch found)
  rw [quoted, encodeStringAscii, quoted, List.flatMap_def, List.flatMap_def, same]

theorem length_flatMap_le (chars : List Char) :
    (chars.flatMap escapeChar).length ≤ (chars.flatMap encodeCharAscii).length := by
  induction chars with
  | nil => exact Nat.le_refl _
  | cons ch rest ih =>
      simp only [List.flatMap_cons, List.length_append]
      exact Nat.add_le_add (length_escapeChar_le ch) ih

theorem plain_of_length_eq {chars : List Char}
    (same : (chars.flatMap escapeChar).length = (chars.flatMap encodeCharAscii).length) :
    ∀ ch ∈ chars, ch.toNat ≤ 0x7e := by
  induction chars with
  | nil => simp
  | cons ch rest ih =>
      simp only [List.flatMap_cons, List.length_append] at same
      have first := length_escapeChar_le ch
      have others := length_flatMap_le rest
      intro other found
      rcases List.mem_cons.mp found with rfl | later
      · by_contra high
        have longer := length_escapeChar_lt high
        omega
      · exact ih (by omega) other later

theorem length_quoted_le (text : String) :
    (quoted escapeChar text).length ≤ (encodeStringAscii text).length := by
  have le := length_flatMap_le text.toList
  simp only [encodeStringAscii, quoted, List.length_append]
  omega

theorem plain_of_length_quoted_eq {text : String}
    (same : (quoted escapeChar text).length = (encodeStringAscii text).length) : Plain text := by
  refine plain_of_length_eq ?_
  simp only [encodeStringAscii, quoted, List.length_append] at same
  omega

/-! ## The downgrade lock -/

/-- The object that the downgrade lock encodes. -/
def lockObject (suite sender recipient : String) : Value :=
  .object [("negotiated_suite", .string suite), ("recipient", .string recipient),
    ("sender", .string sender), ("v", .number (.posInt 1))]

/-- The keys of the downgrade lock, in the order an object keeps them. -/
theorem keys_lockObject :
    keyBefore "negotiated_suite" "v" ∧ keyBefore "sender" "v" ∧
      ¬ keyBefore "sender" "negotiated_suite" ∧ ¬ keyBefore "recipient" "negotiated_suite" ∧
      keyBefore "recipient" "sender" ∧ ¬ keyBefore "sender" "recipient" ∧
      ¬ keyBefore "v" "sender" ∧ ¬ keyBefore "v" "recipient" ∧
      ¬ keyBefore "v" "negotiated_suite" := by
  decide

theorem downgradeLockAad_eq {serde : SerdeJson} (compact : serde.Compact)
    (suite sender recipient : String) :
    downgradeLockAad serde suite sender recipient none =
      braced [
        encodeStringAscii "negotiated_suite" ++ [0x3a] ++ quoted escapeChar suite,
        encodeStringAscii "recipient" ++ [0x3a] ++ quoted escapeChar recipient,
        encodeStringAscii "sender" ++ [0x3a] ++ quoted escapeChar sender,
        encodeStringAscii "v" ++ [0x3a] ++ utf8 (serde.numberText (.posInt 1))] := by
  have order : collectMembers [
      ("v", Value.number (.posInt 1)), ("negotiated_suite", .string suite),
      ("sender", .string sender), ("recipient", .string recipient)] =
      [("negotiated_suite", .string suite), ("recipient", .string recipient),
        ("sender", .string sender), ("v", .number (.posInt 1))] := by
    simp [collectMembers, insertMember, keys_lockObject]
  simp only [downgradeLockAad, order, compact.object, compact.string, compact.number,
    List.map_cons, List.map_nil, Option.getD_none, List.append_nil,
    quoted_of_plain (show Plain "negotiated_suite" by decide),
    quoted_of_plain (show Plain "recipient" by decide),
    quoted_of_plain (show Plain "sender" by decide), quoted_of_plain (show Plain "v" by decide)]

theorem canonical_lockObject (serde : SerdeJson) (suite sender recipient : String) :
    canonical serde (lockObject suite sender recipient) =
      braced [
        encodeStringAscii "negotiated_suite" ++ [0x3a] ++ encodeStringAscii suite,
        encodeStringAscii "recipient" ++ [0x3a] ++ encodeStringAscii recipient,
        encodeStringAscii "sender" ++ [0x3a] ++ encodeStringAscii sender,
        encodeStringAscii "v" ++ [0x3a] ++ utf8 (serde.numberText (.posInt 1))] := by
  simp [lockObject, canonical, canonicalMembers, collectMembers, insertMember, keys_lockObject]

/-- When the encoders agree, the suite and the parties are plain. -/
theorem plain_of_downgradeLockAad_eq {serde : SerdeJson} (compact : serde.Compact)
    {suite sender recipient : String}
    (equal : downgradeLockAad serde suite sender recipient none =
      canonical serde (lockObject suite sender recipient)) :
    Plain suite ∧ Plain sender ∧ Plain recipient := by
  rw [downgradeLockAad_eq compact, canonical_lockObject] at equal
  have lengths := congrArg List.length equal
  simp only [braced, List.intercalate_cons_cons, List.intercalate_singleton,
    List.length_append] at lengths
  have suiteLe := length_quoted_le suite
  have senderLe := length_quoted_le sender
  have recipientLe := length_quoted_le recipient
  exact ⟨plain_of_length_quoted_eq (by omega), plain_of_length_quoted_eq (by omega),
    plain_of_length_quoted_eq (by omega)⟩

/-- **The two encoders agree exactly on suites and parties without a character
from DEL on.** -/
theorem downgradeLockAad_canonical_iff {serde : SerdeJson} (compact : serde.Compact)
    (suite sender recipient : String) :
    downgradeLockAad serde suite sender recipient none =
        canonical serde (lockObject suite sender recipient) ↔
      Plain suite ∧ Plain sender ∧ Plain recipient := by
  constructor
  · exact plain_of_downgradeLockAad_eq compact
  · rintro ⟨suitePlain, senderPlain, recipientPlain⟩
    rw [downgradeLockAad_eq compact, canonical_lockObject, quoted_of_plain suitePlain,
      quoted_of_plain senderPlain, quoted_of_plain recipientPlain]

/-- The names of the parity tests are plain. -/
theorem downgradeLockAad_canonical_a_b :
    downgradeLockAad naturalJson hybridSuite "a" "b" none =
      canonical naturalJson (lockObject hybridSuite "a" "b") :=
  (downgradeLockAad_canonical_iff (compact_compactJson _ _) hybridSuite "a" "b").mpr (by decide)

/-- **The encoders differ** on a party name with an accent. -/
theorem downgradeLockAad_not_canonical :
    naturalJson.Compact ∧
      downgradeLockAad naturalJson hybridSuite "Zoë" "b" none ≠
        canonical naturalJson (lockObject hybridSuite "Zoë" "b") := by
  have compact : naturalJson.Compact := compact_compactJson _ _
  refine ⟨compact, fun equal => ?_⟩
  have plain : Plain "Zoë" := (plain_of_downgradeLockAad_eq compact equal).2.1
  exact absurd plain (by decide)

end Pqdm
end SkPqc

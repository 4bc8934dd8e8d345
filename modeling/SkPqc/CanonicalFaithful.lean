import SkPqc.CanonicalText
import SkPqc.Library.JsonLayout
import SkPqc.Library.JsonOrder

/-!
# The canonical encoder is a faithful JSON encoder

The canonical bytes of a value are the compact text of the value in the order of its
keys (`canonical_eq_inOrder`), whatever order its members came in. They are printable
ASCII without white space outside strings, and a reference parser reads the value back
from them, up to their end and however deep it is nested (`canonical_faithful`).
-/

set_option autoImplicit false

namespace SkPqc
namespace Pqroute

open Library Library.Json

/-! ## The text of a value in the order of its members -/

section InOrder

variable (serde : SerdeJson)

mutual

/-- The compact ASCII text of a value, with the members of an object as they come. -/
def inOrder : Value → Bytes
  | .null => utf8 "null"
  | .bool true => utf8 "true"
  | .bool false => utf8 "false"
  | .number number => utf8 (serde.numberText number)
  | .string text => encodeStringAscii text
  | .array values => bracketed (inOrderValues values)
  | .object members => braced (inOrderMembers members)

def inOrderValues : List Value → List Bytes
  | [] => []
  | value :: rest => inOrder value :: inOrderValues rest

def inOrderMembers : List (String × Value) → List Bytes
  | [] => []
  | (key, value) :: rest =>
      (encodeStringAscii key ++ [0x3a] ++ inOrder value) :: inOrderMembers rest

end

theorem inOrderValues_eq_map (values : List Value) :
    inOrderValues serde values = values.map (inOrder serde) := by
  induction values with
  | nil => rfl
  | cons value rest ih => rw [inOrderValues, List.map_cons, ih]

theorem inOrderMembers_eq_map (members : List (String × Value)) :
    inOrderMembers serde members = members.map fun member =>
      encodeStringAscii member.1 ++ [0x3a] ++ inOrder serde member.2 := by
  induction members with
  | nil => rfl
  | cons member rest ih => rw [inOrderMembers, List.map_cons, ih]

end InOrder

variable {serde : SerdeJson}

/-- **The encoder puts a value in order.** Its bytes are the text of the ordered
value. -/
theorem canonical_eq_inOrder {value : Value} (integral : IntegralInAnyOrder value) :
    canonical serde value = inOrder serde (ordered value) := by
  induction integral with
  | null => rfl
  | bool value => cases value <;> rfl
  | posInt value => rfl
  | negInt value negative => rfl
  | string text => rfl
  | array values _ ih =>
      rw [canonical, ordered, inOrder, canonicalValues_eq_map, orderedValues_eq_map,
        inOrderValues_eq_map, List.map_map]
      exact congrArg bracketed (List.map_congr_left ih)
  | object members _ _ ih =>
      have values : members.map (fun member => (member.1, canonical serde member.2)) =
          members.map fun member => (member.1, inOrder serde (ordered member.2)) := by
        refine List.map_congr_left fun member found => ?_
        rw [ih member found]
      rw [canonical, ordered, inOrder, canonicalMembers_eq_map, values, orderedMembers_eq_map,
        inOrderMembers_eq_map, collectMembers_map (fun value => inOrder serde (ordered value)),
        collectMembers_map, List.map_map, List.map_map]
      rfl

/-- The canonical bytes of a value are those of the value in order. -/
theorem canonical_ordered {value : Value} (integral : IntegralInAnyOrder value) :
    canonical serde (ordered value) = canonical serde value := by
  have inner := integral.integral_ordered
  rw [canonical_eq_inOrder inner.inAnyOrder, inner.ordered_eq, canonical_eq_inOrder integral]

/-! ## The escapes -/

/-- A hexadecimal digit is printable, and neither a quote nor a backslash. -/
theorem hexDigitByte_plain (unit : Nat) :
    Printable [hexDigitByte (unit % 16)] ∧ hexDigitByte (unit % 16) ≠ 0x22 ∧
      hexDigitByte (unit % 16) ≠ 0x5c := by
  have every : ∀ digit : Fin 16, Printable [hexDigitByte digit] ∧ hexDigitByte digit ≠ 0x22 ∧
      hexDigitByte digit ≠ 0x5c := by decide
  exact every ⟨unit % 16, Nat.mod_lt _ (by decide)⟩

theorem printable_unitEscape (unit : Nat) : Printable (unitEscape unit) := by
  have digits := ((hexDigitByte_plain (unit / 4096)).1.append
    (hexDigitByte_plain (unit / 256)).1).append ((hexDigitByte_plain (unit / 16)).1.append
      (hexDigitByte_plain unit).1)
  exact Printable.append (by decide) digits

/-- An escape of a code unit ends inside the string it stands in. -/
theorem unitEscape_stays (unit : Nat) :
    Mode.inside.behind (unitEscape unit) = .inside ∧
      outsideFrom .inside (unitEscape unit) = [] := by
  have front : Mode.inside.behind (utf8 "\\u") = .inside ∧
      outsideFrom .inside (utf8 "\\u") = [] := by decide
  obtain ⟨inside, hidden⟩ := front
  rw [unitEscape, Mode.behind_append, outsideFrom_append, inside, hidden]
  apply inside_plain
  intro symbol found
  simp only [List.mem_cons, List.not_mem_nil, or_false] at found
  rcases found with rfl | rfl | rfl | rfl
  · exact (hexDigitByte_plain (unit / 4096)).2
  · exact (hexDigitByte_plain (unit / 256)).2
  · exact (hexDigitByte_plain (unit / 16)).2
  · exact (hexDigitByte_plain unit).2

/-- So do two of them. -/
theorem surrogates_stay (high low : Nat) :
    Mode.inside.behind (pushUEscape high ++ pushUEscape low) = .inside ∧
      outsideFrom .inside (pushUEscape high ++ pushUEscape low) = [] := by
  obtain ⟨inside, hidden⟩ := unitEscape_stays high
  rw [pushUEscape, pushUEscape, Mode.behind_append, outsideFrom_append, inside, hidden]
  exact unitEscape_stays low

theorem printable_encodeCharAscii (ch : Char) : Printable (encodeCharAscii ch) := by
  unfold encodeCharAscii
  dsimp only
  -- The characters with a short escape, in the order of the encoder.
  iterate 7
    split
    · decide
  split
  · rename_i printable
    intro symbol found
    rw [List.mem_singleton.mp found, UInt8.toNat_ofNat', Nat.mod_eq_of_lt (by omega)]
    exact printable
  · split
    · exact printable_unitEscape _
    · exact (printable_unitEscape _).append (printable_unitEscape _)

theorem staysInside_encodeCharAscii : StaysInside encodeCharAscii := by
  intro ch
  unfold encodeCharAscii
  dsimp only
  -- The characters with a short escape, in the order of the encoder.
  iterate 7
    split
    · decide
  split
  · rename_i notQuote notBackslash _ _ _ _ _ printable
    apply inside_plain
    intro symbol found
    have code : symbol.toNat = ch.toNat := by
      rw [List.mem_singleton.mp found, UInt8.toNat_ofNat', Nat.mod_eq_of_lt (by omega)]
    constructor
    · rintro rfl
      exact notQuote code.symm
    · rintro rfl
      exact notBackslash code.symm
  · split
    · exact unitEscape_stays _
    · exact surrogates_stay _ _

/-! ## The encoding -/

/-- **The canonical encoding is faithful.** -/
theorem canonical_faithful (integers : serde.DecimalIntegers)
    (decimalOf : Bytes → Option Number) :
    (∀ value, IntegralInAnyOrder value →
      (∀ symbol ∈ canonical serde value, 0x20 ≤ symbol.toNat ∧ symbol.toNat ≤ 0x7e) ∧
      readUnlimited decimalOf (canonical serde value) = some (ordered value, []) ∧
      (canonical serde value = inOrder serde (ordered value) ∧ KeysIncrease (ordered value)) ∧
      ∀ symbol ∈ outsideStrings (canonical serde value), isSpace symbol = false) ∧
    (∀ value, Integral value → ordered value = value) ∧
    ∀ value value', IntegralInAnyOrder value → IntegralInAnyOrder value' →
      canonical serde value = canonical serde value' → ordered value = ordered value' := by
  have writes := writesCompact_canonical integers
  refine ⟨fun value integral => ?_, fun value integral => integral.ordered_eq, ?_⟩
  · have inner := integral.integral_ordered
    have layout : canonical serde value = inOrder serde (ordered value) :=
      canonical_eq_inOrder integral
    rw [← canonical_ordered integral]
    refine ⟨?_, ?_, ⟨?_, inner.keysIncrease⟩, ?_⟩
    · exact holds_text (printable_pieces printable_encodeCharAscii) writes inner
    · exact readUnlimited_text decimalOf writes faithful_encodeCharAscii inner
    · rw [canonical_ordered integral, layout]
    · exact (holds_text (tight_pieces staysInside_encodeCharAscii) writes inner).noSpace
  · intro value value' integral integral' same
    rw [← canonical_ordered integral, ← canonical_ordered integral'] at same
    exact canonical_injective integers integral.integral_ordered integral'.integral_ordered same

/-- An object whose members come in another order, with a character that needs two code
units. -/
theorem canonical_faithful_unordered :
    let value : Value := .object [("b", .string "𝄞"), ("a", .array [.bool true])]
    (∀ symbol ∈ canonical integerJson value, 0x20 ≤ symbol.toNat ∧ symbol.toNat ≤ 0x7e) ∧
      readUnlimited (fun _ => none) (canonical integerJson value) = some (ordered value, []) ∧
      KeysIncrease (ordered value) := by
  intro value
  have integral : IntegralInAnyOrder value := by
    apply IntegralInAnyOrder.object
    · decide
    · intro member found
      simp only [List.mem_cons, List.not_mem_nil, or_false] at found
      rcases found with rfl | rfl
      · exact .string _
      · apply IntegralInAnyOrder.array
        intro inner there
        rw [List.mem_singleton.mp there]
        exact .bool true
  obtain ⟨printable, read, ⟨-, increase⟩, -⟩ :=
    (canonical_faithful decimalIntegers_integerJson fun _ => none).1 value integral
  exact ⟨printable, read, increase⟩

end Pqroute
end SkPqc

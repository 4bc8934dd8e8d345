import SkPqc.Library.JsonParser
import Mathlib.Data.List.Forall2

/-!
# What a JSON writer writes is read back

A writer without white space is fixed by how it escapes a character
(`WritesCompact`). When the escapes are faithful, every value without floats is
read back from its text by a parser with enough room (`parse_text`), so the text
determines the value (`text_injective`). A parser with less room reads it from no
text (`depth_le_of_parse`).

A text cut short is not the text of the same value, unless the value is a number
(`eq_of_parse_prefix`).

The crate is taken to write integers in decimal (`SerdeJson.DecimalIntegers`) and to
parse what the reference parser parses (`SerdeJson.ParsesJson`).
-/

set_option autoImplicit false

namespace SkPqc.Library
namespace Json

open Reader

/-! ## Decimal digits -/

/-- The byte of a digit. -/
def digitByte (digit : Char) : UInt8 := UInt8.ofNat digit.toNat

/-- A digit is a symbol between `0` and `9`. -/
theorem toNat_of_isDigit {digit : Char} (isDigit : digit.isDigit = true) :
    48 ≤ digit.toNat ∧ digit.toNat ≤ 57 := Char.isDigit_iff_toNat.mp isDigit

theorem toNat_digitByte {digit : Char} (isDigit : digit.isDigit = true) :
    (digitByte digit).toNat = digit.toNat := by
  have bounds := toNat_of_isDigit isDigit
  rw [digitByte, UInt8.toNat_ofNat']
  omega

theorem isDigit_digitByte {digit : Char} (isDigit : digit.isDigit = true) :
    Json.isDigit (digitByte digit) = true := by
  have bounds := toNat_of_isDigit isDigit
  have value := toNat_digitByte isDigit
  simp only [Json.isDigit, Bool.and_eq_true, decide_eq_true_eq, UInt8.le_iff_toNat_le, value]
  exact bounds

theorem utf8_digits {chars : List Char} (digits : ∀ digit ∈ chars, digit.isDigit = true) :
    chars.flatMap String.utf8EncodeChar = chars.map digitByte := by
  induction chars with
  | nil => rfl
  | cons digit rest ih =>
      have bounds := toNat_of_isDigit (digits digit List.mem_cons_self)
      have encoded := @utf8EncodeChar_of_lt digit.toNat (by omega)
      rw [Char.ofNat_toNat] at encoded
      rw [List.flatMap_cons, encoded,
        ih fun later found => digits later (List.mem_cons_of_mem _ found)]
      rfl

/-- The value of written digits. -/
theorem decimal_digits {chars : List Char} (digits : ∀ digit ∈ chars, digit.isDigit = true) :
    decimal (chars.map digitByte) = Nat.ofDigitChars 10 chars 0 := by
  rw [decimal, List.foldl_map, Nat.ofDigitChars_eq_foldl]
  generalize 0 = start
  induction chars generalizing start with
  | nil => rfl
  | cons digit rest ih =>
      rw [List.foldl_cons, List.foldl_cons, toNat_digitByte (digits digit List.mem_cons_self),
        ih fun later found => digits later (List.mem_cons_of_mem _ found), Nat.mul_comm start]
      rfl

/-- Only zero starts with a zero. -/
theorem toDigits_ne_zero_cons {number : Nat} (positive : 0 < number) (rest : List Char) :
    Nat.toDigits 10 number ≠ '0' :: rest := by
  induction number using Nat.strong_induction_on generalizing rest with
  | _ number ih =>
      by_cases small : number < 10
      · rw [Nat.toDigits_of_lt_base small]
        intro same
        have zero : number.digitChar = '0' := (List.cons.inj same).1
        have every : ∀ value : Fin 10, value.val.digitChar = '0' → value.val = 0 := by decide
        exact absurd (every ⟨number, small⟩ zero) (by simpa using Nat.ne_of_gt positive)
      · rw [Nat.toDigits_of_base_le (by decide) (Nat.le_of_not_lt small)]
        have front := ih (number / 10) (by omega) (by omega)
        cases digits : Nat.toDigits 10 (number / 10) with
        | nil => exact absurd digits Nat.toDigits_ne_nil
        | cons first others =>
            intro same
            exact front others (by rw [digits, (List.cons.inj same).1])

/-- A decimal as its first digit and the others. -/
theorem exists_digits (number : Nat) :
    ∃ first tail, utf8 number.repr = first :: tail ∧ isDigit first = true ∧
      (∀ digit ∈ tail, isDigit digit = true) ∧ decimal (first :: tail) = number ∧
      (first = 0x30 → tail = []) := by
  have digits : ∀ digit ∈ Nat.toDigits 10 number, digit.isDigit = true :=
    fun digit found => Nat.isDigit_of_mem_toDigits (by decide) (by decide) found
  have bytes : utf8 number.repr = (Nat.toDigits 10 number).map digitByte := by
    rw [utf8, Nat.toList_repr, utf8_digits digits]
  have value : decimal ((Nat.toDigits 10 number).map digitByte) = number := by
    rw [decimal_digits digits, Nat.ofDigitChars_ten_toDigits]
  cases shape : Nat.toDigits 10 number with
  | nil => exact absurd shape Nat.toDigits_ne_nil
  | cons head others =>
      rw [shape] at bytes value digits
      have headDigit := digits head List.mem_cons_self
      refine ⟨digitByte head, others.map digitByte, bytes, isDigit_digitByte headDigit, ?_, value,
        ?_⟩
      · intro byte found
        obtain ⟨digit, later, rfl⟩ := List.mem_map.mp found
        exact isDigit_digitByte (digits digit (List.mem_cons_of_mem _ later))
      · intro zero
        have headZero : head = '0' := by
          apply Char.toNat_inj.mp
          rw [← toNat_digitByte headDigit, zero]
          rfl
        have null : number = 0 := by
          by_contra positive
          exact toDigits_ne_zero_cons (Nat.pos_of_ne_zero positive) others (by rw [shape, headZero])
        rw [null, Nat.toDigits_zero] at shape
        rw [← (List.cons.inj shape).2]
        rfl

theorem length_utf8_repr_le {number bound : Nat} (positive : 0 < bound)
    (small : number < 10 ^ bound) :
    (utf8 number.repr).length ≤ bound := by
  have digits : ∀ digit ∈ Nat.toDigits 10 number, digit.isDigit = true :=
    fun digit found => Nat.isDigit_of_mem_toDigits (by decide) (by decide) found
  rw [utf8, Nat.toList_repr, utf8_digits digits, List.length_map]
  exact (Nat.length_toDigits_le_iff (by decide) positive).mpr small

/-! ## What may stand behind a value -/

/-- The symbol goes on with a number: a digit, a point or the letter of an exponent. -/
def continuesNumber (symbol : UInt8) : Bool :=
  isDigit symbol || symbol = 0x2e || symbol = 0x65 || symbol = 0x45

/-- A number in front of the text ends there. -/
def Stops (rest : Bytes) : Prop := ∀ symbol ∈ rest.head?, continuesNumber symbol = false

theorem stops_nil : Stops [] := by
  intro symbol found
  cases found

theorem stops_cons {symbol : UInt8} (stop : continuesNumber symbol = false) (rest : Bytes) :
    Stops (symbol :: rest) := by
  intro found same
  obtain rfl := Option.some.inj same
  exact stop

theorem run_longest_digits {tail rest : Bytes} (digits : ∀ digit ∈ tail, isDigit digit = true)
    (stops : Stops rest) : (longest isDigit).run (tail ++ rest) = some (tail, rest) := by
  have none : rest.takeWhile isDigit = [] ∧ rest.dropWhile isDigit = rest := by
    cases rest with
    | nil => exact ⟨rfl, rfl⟩
    | cons symbol others =>
        have stop := stops symbol rfl
        simp only [continuesNumber, Bool.or_eq_false_iff] at stop
        simp [stop.1.1.1]
  change some ((tail ++ rest).takeWhile isDigit, (tail ++ rest).dropWhile isDigit) = _
  rw [List.takeWhile_append_of_pos digits, List.dropWhile_append_of_pos digits, none.1, none.2,
    List.append_nil]

/-- A part of a number that is not there. -/
theorem run_optional_of_stops {kind : UInt8 → Bool} (part : UInt8 → Reader Bytes) {rest : Bytes}
    (stops : ∀ symbol ∈ rest.head?, kind symbol = false) :
    (optional kind part).run rest = some ([], rest) := by
  cases rest with
  | nil => rfl
  | cons symbol others =>
      change (if kind symbol then (part symbol).run others else some ([], symbol :: others)) = _
      rw [stops symbol rfl, if_neg Bool.false_ne_true]

theorem run_fractionPart {rest : Bytes} (stops : Stops rest) :
    fractionPart.run rest = some ([], rest) := by
  refine run_optional_of_stops _ fun symbol found => ?_
  have stop := stops symbol found
  simp only [continuesNumber, Bool.or_eq_false_iff] at stop
  exact stop.1.1.2

theorem run_exponentPart {rest : Bytes} (stops : Stops rest) :
    exponentPart.run rest = some ([], rest) := by
  refine run_optional_of_stops _ fun symbol found => ?_
  have stop := stops symbol found
  simp only [continuesNumber, Bool.or_eq_false_iff] at stop
  rw [stop.1.2, stop.2]
  rfl

section Numbers

variable (decimalOf : Bytes → Option Number)

/-- Digits that spell an integer are read as the integer. -/
theorem run_unsignedNumber {negative : Bool} {number : Number} {first : UInt8} {tail rest : Bytes}
    (lead : isDigit first = true) (digits : ∀ digit ∈ tail, isDigit digit = true)
    (alone : first = 0x30 → tail = [])
    (fits : integerNumber negative (decimal (first :: tail)) = some number) (stops : Stops rest) :
    (unsignedNumber decimalOf negative first).run (tail ++ rest) = some (number, rest) := by
  have whole : (integerPart first).run (tail ++ rest) = some (first :: tail, rest) := by
    unfold integerPart
    by_cases zero : first = 0x30
    · rw [if_pos zero, alone zero]
      rfl
    · rw [if_neg zero, if_pos lead, run_bind_of_run (run_longest_digits digits stops)]
      rfl
  rw [unsignedNumber, run_bind_of_run whole, run_bind_of_run (run_fractionPart stops),
    run_bind_of_run (run_exponentPart stops)]
  dsimp only
  rw [if_pos (And.intro rfl rfl), fits]
  rfl

theorem run_posInt (value : UInt64) :
    ∃ first tail, utf8 (u64ToString value) = first :: tail ∧ isDigit first = true ∧
      ∀ rest, Stops rest →
        (number decimalOf first).run (tail ++ rest) = some (.posInt value, rest) := by
  obtain ⟨first, tail, bytes, lead, digits, spells, alone⟩ := exists_digits value.toNat
  refine ⟨first, tail, bytes, lead, fun rest stops => ?_⟩
  have unsigned : first ≠ 0x2d := by
    rintro rfl
    cases lead
  rw [number, if_neg unsigned]
  refine run_unsignedNumber decimalOf lead digits alone ?_ stops
  rw [spells, integerNumber, if_neg Bool.false_ne_true, if_pos value.toNat_lt, UInt64.ofNat_toNat]

theorem run_negInt (value : Int64) (negative : value < 0) {rest : Bytes} (stops : Stops rest) :
    (number decimalOf 0x2d).run (utf8 value.toInt.natAbs.repr ++ rest) =
      some (.negInt value negative, rest) := by
  obtain ⟨first, tail, bytes, lead, digits, spells, alone⟩ := exists_digits value.toInt.natAbs
  have below : value.toInt < 0 := by simpa using Int64.lt_iff_toInt_lt.mp negative
  have bound := value.le_toInt
  have same : Int64.ofInt (-(value.toInt.natAbs : Int)) = value := by
    rw [show -(value.toInt.natAbs : Int) = value.toInt by omega, Int64.ofInt_toInt]
  have fits : integerNumber true (decimal (first :: tail)) = some (.negInt value negative) := by
    have small : value.toInt.natAbs ≤ 2 ^ 63 := by omega
    rw [spells, integerNumber, if_pos rfl, if_pos small]
    dsimp only
    simp only [same]
    rw [dif_pos negative]
  rw [number, if_pos rfl, bytes, List.cons_append, run_bind_of_run (run_byte_cons first _)]
  exact run_unsignedNumber decimalOf lead digits alone fits stops

end Numbers

/-! ## Sequences -/

theorem run_symbol {lead : UInt8} (visible : isSpace lead = false) (tail : Bytes) :
    symbol.run (lead :: tail) = some (lead, tail) := by
  change byte.run ((lead :: tail).dropWhile isSpace) = _
  rw [List.dropWhile_cons_of_neg (by simp [visible])]
  rfl

/-- The symbol can stand in front of an item: it is neither space nor a closing symbol. -/
def opensItem (symbol : UInt8) : Bool := !isSpace symbol && symbol ≠ 0x5d && symbol ≠ 0x7d

/-- The item is read back from its text, which nothing behind it prolongs. -/
def ReadBack {α : Type} (item : UInt8 → Reader α) (text : Bytes) (value : α) : Prop :=
  ∃ lead tail, text = lead :: tail ∧ opensItem lead = true ∧
    ∀ rest, Stops rest → (item lead).run (tail ++ rest) = some (value, rest)

section Sequences

variable {α : Type} {item : UInt8 → Reader α} {close : UInt8}

theorem isSpace_of_opensItem {symbol : UInt8} (opens : opensItem symbol = true) :
    isSpace symbol = false := by
  simp only [opensItem, Bool.and_eq_true, Bool.not_eq_true'] at opens
  exact opens.1.1

theorem ne_of_opensItem {symbol : UInt8} (opens : opensItem symbol = true)
    (closes : close = 0x5d ∨ close = 0x7d) : symbol ≠ close := by
  rintro rfl
  rcases closes with rfl | rfl <;> cases opens

/-- Items with a comma in front of each. -/
def behind (texts : List Bytes) : Bytes := texts.flatMap fun text => 0x2c :: text

theorem length_le_behind (texts : List Bytes) : texts.length ≤ (behind texts).length := by
  induction texts with
  | nil => exact Nat.le_refl 0
  | cons text rest ih =>
      rw [behind, List.flatMap_cons, List.length_append, List.length_cons, List.length_cons,
        ← behind]
      omega

theorem intercalate_comma (text : Bytes) (texts : List Bytes) :
    List.intercalate [0x2c] (text :: texts) = text ++ behind texts := by
  induction texts generalizing text with
  | nil => simp [behind]
  | cons next rest ih =>
      rw [List.intercalate_cons_cons, ih next]
      simp [behind]

/-- The items from the first one on are read back, up to the closing symbol. -/
theorem run_items (closes : close = 0x5d ∨ close = 0x7d) {texts : List Bytes} {values : List α}
    (others : List.Forall₂ (ReadBack item) texts values) {text : Bytes} {value : α}
    (first : ReadBack item text value) {fuel : Nat} (enough : texts.length < fuel) :
    ∃ lead tail, text = lead :: tail ∧ opensItem lead = true ∧
      ∀ rest, (items item close fuel lead).run (tail ++ (behind texts ++ close :: rest)) =
        some (value :: values, rest) := by
  induction others generalizing text value fuel with
  | nil =>
      obtain ⟨lead, tail, rfl, opens, read⟩ := first
      obtain ⟨fuel, rfl⟩ : ∃ smaller, fuel = smaller + 1 := ⟨fuel - 1, by omega⟩
      refine ⟨lead, tail, rfl, opens, fun rest => ?_⟩
      have visible : isSpace close = false := by rcases closes with rfl | rfl <;> rfl
      have stops : Stops (close :: rest) :=
        stops_cons (by rcases closes with rfl | rfl <;> rfl) rest
      have noComma : close ≠ 0x2c := by rcases closes with rfl | rfl <;> decide
      rw [behind, List.flatMap_nil, List.nil_append, items, run_bind_of_run (read _ stops),
        run_bind_of_run (run_symbol visible rest), if_neg noComma, if_pos rfl]
      rfl
  | @cons next value' texts values found later ih =>
      obtain ⟨lead, tail, rfl, opens, read⟩ := first
      rw [List.length_cons] at enough
      obtain ⟨fuel, rfl⟩ : ∃ smaller, fuel = smaller + 1 := ⟨fuel - 1, by omega⟩
      obtain ⟨lead', tail', rfl, opens', readLater⟩ := @ih _ _ found fuel (by omega)
      refine ⟨lead, tail, rfl, opens, fun rest => ?_⟩
      have shape : behind ((lead' :: tail') :: texts) ++ close :: rest =
          0x2c :: lead' :: (tail' ++ (behind texts ++ close :: rest)) := by
        simp [behind, List.append_assoc]
      rw [shape, items, run_bind_of_run (read _ (stops_cons rfl _)),
        run_bind_of_run (run_symbol rfl _), if_pos rfl,
        run_bind_of_run (run_symbol (isSpace_of_opensItem opens') _),
        run_bind_of_run (readLater rest)]
      rfl

/-- **A written sequence is read back.** -/
theorem run_sequence (closes : close = 0x5d ∨ close = 0x7d) {texts : List Bytes} {values : List α}
    (read : List.Forall₂ (ReadBack item) texts values) (rest : Bytes) :
    (sequence item close).run (List.intercalate [0x2c] texts ++ close :: rest) =
      some (values, rest) := by
  rw [run_sequence_eq_some]
  cases read with
  | nil =>
      have visible : isSpace close = false := by rcases closes with rfl | rfl <;> rfl
      exact ⟨close, rest, run_symbol visible rest, by rw [if_pos rfl]; exact ⟨rfl, rfl⟩⟩
  | @cons text value texts values first others =>
      obtain ⟨lead, tail, rfl, -, -⟩ := id first
      have enough : texts.length < (tail ++ (behind texts ++ close :: rest)).length + 1 := by
        have commas := length_le_behind texts
        simp only [List.length_append]
        omega
      obtain ⟨lead', tail', same, opens, readAll⟩ := run_items closes others first enough
      cases same
      refine ⟨lead, tail ++ (behind texts ++ close :: rest), ?_, ?_⟩
      · rw [intercalate_comma, List.append_assoc]
        exact run_symbol (isSpace_of_opensItem opens) _
      · rw [if_neg (ne_of_opensItem opens closes)]
        exact readAll rest

end Sequences

/-! ## Values -/

/-- A writer without white space, with decimal integers, for values without floats. -/
structure WritesCompact (escape : Char → Bytes) (text : Value → Bytes) : Prop where
  null : text .null = utf8 "null"
  bool : ∀ value, text (.bool value) = if value then utf8 "true" else utf8 "false"
  posInt : ∀ value, text (.number (.posInt value)) = utf8 (u64ToString value)
  negInt : ∀ value negative, text (.number (.negInt value negative)) =
    utf8 ("-" ++ value.toInt.natAbs.repr)
  string : ∀ value, text (.string value) = quoted escape value
  array : ∀ values, text (.array values) = bracketed (values.map text)
  object : ∀ members, Sorted members → text (.object members) =
    braced (members.map fun member => quoted escape member.1 ++ [0x3a] ++ text member.2)

section Values

variable (decimalOf : Bytes → Option Number)

/-- What opens no array and no object is read with any room. -/
theorem valueFrom_scalar (room : Nat) {first : UInt8} (noArray : first ≠ 0x5b)
    (noObject : first ≠ 0x7b) : valueFrom decimalOf room first = scalarFrom decimalOf first := by
  cases room with
  | zero => rfl
  | succ room => rw [valueFrom, if_neg noArray, if_neg noObject]

theorem run_literal (text : Bytes) (value : Value) (rest : Bytes) :
    (literal text value).run (text ++ rest) = some (value, rest) := by
  induction text with
  | nil => rfl
  | cons first text ih =>
      rw [literal, List.cons_append, run_bind_of_run (run_expect first _)]
      exact ih

/-- A number is read from the symbol it starts with. -/
theorem scalarFrom_number {first : UInt8} (starts : isDigit first = true ∨ first = 0x2d) :
    scalarFrom decimalOf first =
      (number decimalOf first >>= fun number => return .number number) := by
  have other : ∀ symbol : UInt8, isDigit symbol = false → symbol ≠ 0x2d → first ≠ symbol := by
    rintro symbol noDigit noSign rfl
    rcases starts with digit | sign
    · rw [noDigit] at digit
      cases digit
    · exact noSign sign
  rw [scalarFrom, if_neg (other 0x22 (by decide) (by decide)),
    if_neg (other 0x6e (by decide) (by decide)), if_neg (other 0x74 (by decide) (by decide)),
    if_neg (other 0x66 (by decide) (by decide))]

variable {escape : Char → Bytes} {text : Value → Bytes}

/-- A member is read back when its value is. -/
theorem readBack_member (faithful : Faithful escape) {valueFrom : UInt8 → Reader Value}
    {key : String} {bytes : Bytes} {value : Value} (read : ReadBack valueFrom bytes value) :
    ReadBack (memberFrom valueFrom) (quoted escape key ++ [0x3a] ++ bytes) (key, value) := by
  obtain ⟨lead, tail, rfl, opens, readValue⟩ := read
  refine ⟨0x22, key.toList.flatMap escape ++ 0x22 :: 0x3a :: lead :: tail, ?_, rfl, ?_⟩
  · simp [quoted, List.append_assoc]
  · intro rest stops
    have shape : key.toList.flatMap escape ++ 0x22 :: 0x3a :: lead :: tail ++ rest =
        key.toList.flatMap escape ++ 0x22 :: (0x3a :: lead :: (tail ++ rest)) := by simp
    rw [shape, memberFrom, if_pos rfl, run_bind_of_run (run_stringBody faithful key _),
      run_bind_of_run (run_symbol rfl _), if_pos rfl,
      run_bind_of_run (run_symbol (isSpace_of_opensItem opens) _),
      run_bind_of_run (readValue rest stops)]
    rfl

/-- A literal is read back from its first letter on. -/
theorem readBack_literal {word : Bytes} {lead : UInt8} {tail : Bytes} {value : Value}
    (shape : word = lead :: tail) (opens : opensItem lead = true) {room : Nat}
    (reader : valueFrom decimalOf room lead = literal tail value) :
    ReadBack (valueFrom decimalOf room) word value := by
  refine ⟨lead, tail, shape, opens, fun rest _ => ?_⟩
  rw [reader]
  exact run_literal tail value rest

theorem readBack_posInt (value : UInt64) (room : Nat) :
    ReadBack (valueFrom decimalOf room) (utf8 (u64ToString value)) (.number (.posInt value)) := by
  obtain ⟨first, tail, bytes, digit, read⟩ := run_posInt decimalOf value
  have other : ∀ symbol : UInt8, isDigit symbol = false → first ≠ symbol := by
    rintro symbol noDigit rfl
    rw [digit] at noDigit
    cases noDigit
  refine ⟨first, tail, bytes, ?_, fun rest stops => ?_⟩
  · simp [opensItem, isSpace, other 0x20 rfl, other 0x09 rfl, other 0x0a rfl, other 0x0d rfl,
      other 0x5d rfl, other 0x7d rfl]
  · rw [valueFrom_scalar decimalOf room (other _ rfl) (other _ rfl),
      scalarFrom_number decimalOf (.inl digit), run_bind_of_run (read rest stops)]
    rfl

theorem readBack_negInt (value : Int64) (negative : value < 0) (room : Nat) :
    ReadBack (valueFrom decimalOf room) (utf8 ("-" ++ value.toInt.natAbs.repr))
      (.number (.negInt value negative)) := by
  refine ⟨0x2d, utf8 value.toInt.natAbs.repr, ?_, rfl, fun rest stops => ?_⟩
  · rw [utf8, String.toList_append, List.flatMap_append]
    rfl
  · rw [valueFrom_scalar decimalOf room (by decide) (by decide),
      scalarFrom_number decimalOf (.inr rfl),
      run_bind_of_run (run_negInt decimalOf value negative stops)]
    rfl

theorem readBack_string (faithful : Faithful escape) (value : String) (room : Nat) :
    ReadBack (valueFrom decimalOf room) (quoted escape value) (.string value) := by
  refine ⟨0x22, value.toList.flatMap escape ++ [0x22], rfl, rfl, fun rest _ => ?_⟩
  rw [valueFrom_scalar decimalOf room (by decide) (by decide), List.append_assoc]
  exact run_bind_of_run (run_stringBody faithful value rest) _

theorem readBack_array {room : Nat} {texts : List Bytes} {values : List Value}
    (read : List.Forall₂ (ReadBack (valueFrom decimalOf room)) texts values) :
    ReadBack (valueFrom decimalOf (room + 1)) (bracketed texts) (.array values) := by
  refine ⟨0x5b, List.intercalate [0x2c] texts ++ [0x5d], rfl, rfl, fun rest _ => ?_⟩
  rw [valueFrom, if_pos rfl, List.append_assoc]
  exact run_bind_of_run (run_sequence (.inl rfl) read rest) _

theorem readBack_object {room : Nat} {texts : List Bytes} {members : List (String × Value)}
    (sorted : Sorted members)
    (read : List.Forall₂ (ReadBack (memberFrom (valueFrom decimalOf room))) texts members) :
    ReadBack (valueFrom decimalOf (room + 1)) (braced texts) (.object members) := by
  refine ⟨0x7b, List.intercalate [0x2c] texts ++ [0x7d], rfl, rfl, fun rest _ => ?_⟩
  rw [valueFrom, if_neg (by decide), if_pos rfl, List.append_assoc, List.singleton_append,
    run_bind_of_run (run_sequence (.inr rfl) read rest), collectMembers_of_sorted sorted]
  rfl

/-- **A written value is read back** where there is room for its nesting. -/
theorem readBack_value (writes : WritesCompact escape text) (faithful : Faithful escape)
    {value : Value} (integral : Integral value) {room : Nat} (enough : depth value ≤ room) :
    ReadBack (valueFrom decimalOf room) (text value) value := by
  induction integral generalizing room with
  | null =>
      rw [writes.null]
      exact readBack_literal decimalOf rfl rfl
        (valueFrom_scalar decimalOf room (by decide) (by decide))
  | bool value =>
      rw [writes.bool]
      cases value with
      | false =>
          exact readBack_literal decimalOf rfl rfl
            (valueFrom_scalar decimalOf room (by decide) (by decide))
      | true =>
          exact readBack_literal decimalOf rfl rfl
            (valueFrom_scalar decimalOf room (by decide) (by decide))
  | posInt value =>
      rw [writes.posInt]
      exact readBack_posInt decimalOf value room
  | negInt value negative =>
      rw [writes.negInt]
      exact readBack_negInt decimalOf value negative room
  | string value =>
      rw [writes.string]
      exact readBack_string decimalOf faithful value room
  | array values integral ih =>
      rw [depth] at enough
      obtain ⟨room, rfl⟩ : ∃ smaller, room = smaller + 1 := ⟨room - 1, by omega⟩
      have inner := depthOfValues_le.mp (Nat.le_of_succ_le_succ enough)
      rw [writes.array]
      refine readBack_array decimalOf (List.forall₂_map_left_iff.mpr (List.forall₂_same.mpr ?_))
      intro value found
      exact ih value found (inner value found)
  | object members sorted integral ih =>
      rw [depth] at enough
      obtain ⟨room, rfl⟩ : ∃ smaller, room = smaller + 1 := ⟨room - 1, by omega⟩
      have inner := depthOfMembers_le.mp (Nat.le_of_succ_le_succ enough)
      rw [writes.object members sorted]
      refine readBack_object decimalOf sorted
        (List.forall₂_map_left_iff.mpr (List.forall₂_same.mpr ?_))
      intro member found
      exact readBack_member faithful (ih member found (inner member found))

/-- A written value is read back up to the end of its text. -/
theorem run_value_text (writes : WritesCompact escape text) (faithful : Faithful escape)
    {value : Value} (integral : Integral value) {room : Nat} (enough : depth value ≤ room) :
    (Json.value decimalOf room).run (text value) = some (value, []) := by
  obtain ⟨lead, tail, bytes, opens, read⟩ :=
    readBack_value decimalOf writes faithful integral enough
  have whole := read [] stops_nil
  rw [List.append_nil] at whole
  rw [bytes, Json.value, run_bind_of_run (run_symbol (isSpace_of_opensItem opens) tail), whole]

/-- **A written value is parsed back** where there is room for its nesting. -/
theorem parse_text (writes : WritesCompact escape text) (faithful : Faithful escape)
    {value : Value} (integral : Integral value) {room : Nat} (enough : depth value ≤ room) :
    parse decimalOf room (text value) = some value := by
  rw [parse, run_value_text decimalOf writes faithful integral enough]
  rfl

/-- **The text determines the value.** -/
theorem text_injective (writes : WritesCompact escape text) (faithful : Faithful escape)
    {value value' : Value} (integral : Integral value) (integral' : Integral value')
    (same : text value = text value') : value = value' := by
  have read := parse_text (fun _ => none) writes faithful integral
    (Nat.le_max_left (depth value) (depth value'))
  rw [same, parse_text (fun _ => none) writes faithful integral'
    (Nat.le_max_right (depth value) (depth value'))] at read
  exact (Option.some.inj read).symm

end Values

/-! ## What is read has room -/

section Depth

variable {decimalOf : Bytes → Option Number}

/-- Every item of a sequence was read as an item. -/
theorem forall_of_run_sequence {α : Type} {item : UInt8 → Reader α} {close : UInt8}
    {property : α → Prop}
    (each : ∀ {lead input value rest}, (item lead).run input = some (value, rest) → property value)
    {input rest : Bytes} {values : List α}
    (read : (sequence item close).run input = some (values, rest)) :
    ∀ value ∈ values, property value := by
  have every : ∀ fuel lead (input rest : Bytes) values,
      (items item close fuel lead).run input = some (values, rest) →
        ∀ value ∈ values, property value := by
    intro fuel
    induction fuel with
    | zero =>
        intro lead input rest values read
        cases read
    | succ fuel ih =>
        intro lead input rest values read
        obtain ⟨first, between, readFirst, read⟩ := run_bind_eq_some.mp read
        obtain ⟨next, between', -, read⟩ := run_bind_eq_some.mp read
        split at read
        · obtain ⟨lead', ahead, -, read⟩ := run_bind_eq_some.mp read
          obtain ⟨others, after, readOthers, done⟩ := run_bind_eq_some.mp read
          cases done
          exact List.forall_mem_cons.mpr ⟨each readFirst, ih _ _ _ _ readOthers⟩
        · split at read
          · cases read
            exact List.forall_mem_singleton.mpr (each readFirst)
          · cases read
  obtain ⟨lead, ahead, -, others⟩ := run_sequence_eq_some.mp read
  split at others
  · rw [others.1]
    exact List.forall_mem_nil _
  · exact every _ _ _ _ _ others

theorem depth_of_run_literal {text : Bytes} {expected value : Value} {input rest : Bytes}
    (flat : depth expected = 0) (read : (literal text expected).run input = some (value, rest)) :
    depth value = 0 := by
  induction text generalizing input with
  | nil =>
      cases read
      exact flat
  | cons first text ih =>
      obtain ⟨-, between, -, read⟩ := run_bind_eq_some.mp read
      exact ih read

theorem depth_of_run_scalarFrom {first : UInt8} {value : Value} {input rest : Bytes}
    (read : (scalarFrom decimalOf first).run input = some (value, rest)) : depth value = 0 := by
  unfold scalarFrom at read
  split at read
  · obtain ⟨text, between, -, done⟩ := run_bind_eq_some.mp read
    cases done
    rfl
  iterate 3
    split at read
    · exact depth_of_run_literal rfl read
  obtain ⟨number, between, -, done⟩ := run_bind_eq_some.mp read
  cases done
  rfl

theorem depth_of_run_memberFrom {valueFrom : UInt8 → Reader Value} {room : Nat}
    (each : ∀ {lead input value rest}, (valueFrom lead).run input = some (value, rest) →
      depth value ≤ room) {lead : UInt8} {member : String × Value} {input rest : Bytes}
    (read : (memberFrom valueFrom lead).run input = some (member, rest)) :
    depth member.2 ≤ room := by
  unfold memberFrom at read
  split at read
  · obtain ⟨key, between, -, read⟩ := run_bind_eq_some.mp read
    obtain ⟨colon, between', -, read⟩ := run_bind_eq_some.mp read
    split at read
    · obtain ⟨lead', ahead, -, read⟩ := run_bind_eq_some.mp read
      obtain ⟨value, after, readValue, done⟩ := run_bind_eq_some.mp read
      cases done
      exact each readValue
    · cases read
  · cases read

theorem depth_of_run_valueFrom {room : Nat} {first : UInt8} {value : Value} {input rest : Bytes}
    (read : (valueFrom decimalOf room first).run input = some (value, rest)) :
    depth value ≤ room := by
  induction room generalizing first value input rest with
  | zero => exact Nat.le_of_eq (depth_of_run_scalarFrom read)
  | succ room ih =>
      rw [valueFrom] at read
      split at read
      · obtain ⟨values, between, readValues, done⟩ := run_bind_eq_some.mp read
        cases done
        exact Nat.succ_le_succ (depthOfValues_le.mpr (forall_of_run_sequence ih readValues))
      · split at read
        · obtain ⟨members, between, readMembers, done⟩ := run_bind_eq_some.mp read
          cases done
          have shallow := forall_of_run_sequence (depth_of_run_memberFrom ih) readMembers
          exact Nat.succ_le_succ (depthOfMembers_le.mpr fun member found =>
            shallow member (mem_collectMembers found))
        · exact Nat.le_trans (Nat.le_of_eq (depth_of_run_scalarFrom read)) (Nat.zero_le _)

theorem parse_eq_some {room : Nat} {text : Bytes} {value : Value}
    (parsed : parse decimalOf room text = some value) :
    ∃ lead tail rest, symbol.run text = some (lead, tail) ∧
      (valueFrom decimalOf room lead).run tail = some (value, rest) := by
  unfold parse at parsed
  split at parsed
  · rename_i found rest read
    split at parsed
    · cases parsed
      obtain ⟨lead, tail, front, read⟩ := run_bind_eq_some.mp read
      exact ⟨lead, tail, rest, front, read⟩
    · cases parsed
  · cases parsed

/-- **A parser reads no value that is nested deeper than its room.** -/
theorem depth_le_of_parse {room : Nat} {text : Bytes} {value : Value}
    (parsed : parse decimalOf room text = some value) : depth value ≤ room := by
  obtain ⟨lead, tail, rest, -, read⟩ := parse_eq_some parsed
  exact depth_of_run_valueFrom read

end Depth

/-! ## Texts cut short -/

section Prefix

variable {decimalOf : Bytes → Option Number} {escape : Char → Bytes} {text : Value → Bytes}

/-- A text without an own end is short. -/
theorem opens_or_short (writes : WritesCompact escape text) {value : Value}
    (integral : Integral value) :
    (∃ lead tail, text value = lead :: tail ∧ (lead = 0x22 ∨ lead = 0x5b ∨ lead = 0x7b)) ∨
      (text value).length ≤ 20 := by
  cases integral with
  | null =>
      rw [writes.null]
      exact .inr (by decide)
  | bool value =>
      rw [writes.bool]
      exact .inr (by cases value <;> decide)
  | posInt value =>
      rw [writes.posInt]
      have small := value.toNat_lt
      exact .inr (length_utf8_repr_le (by decide) (by omega))
  | negInt value negative =>
      rw [writes.negInt]
      have low := value.le_toInt
      have high := value.toInt_lt
      have digits := @length_utf8_repr_le value.toInt.natAbs 19 (by decide) (by omega)
      have sign : utf8 ("-" ++ value.toInt.natAbs.repr) = 0x2d :: utf8 value.toInt.natAbs.repr := by
        rw [utf8, String.toList_append, List.flatMap_append]
        rfl
      rw [sign, List.length_cons]
      exact .inr (Nat.succ_le_succ digits)
  | string value =>
      rw [writes.string]
      exact .inl ⟨0x22, _, rfl, .inl rfl⟩
  | array values integral =>
      rw [writes.array]
      exact .inl ⟨0x5b, _, rfl, .inr (.inl rfl)⟩
  | object members sorted integral =>
      rw [writes.object members sorted]
      exact .inl ⟨0x7b, _, rfl, .inr (.inr rfl)⟩

/-- **A text cut short is not parsed as its value**, when it is longer than a
number. -/
theorem eq_of_parse_prefix (writes : WritesCompact escape text) (faithful : Faithful escape)
    {value : Value} (integral : Integral value) (long : 20 < (text value).length) {room : Nat}
    {front more : Bytes} (whole : text value = front ++ more)
    (parsed : parse decimalOf room front = some value) : front = text value := by
  obtain ⟨lead, tail, bytes, ends⟩ :=
    (opens_or_short writes integral).resolve_right (Nat.not_le_of_lt long)
  obtain ⟨lead', tail', same, opens, readBack⟩ :=
    readBack_value decimalOf writes faithful integral (depth_le_of_parse parsed)
  rw [bytes] at same
  cases same
  obtain ⟨lead', ahead, rest, first, read⟩ := parse_eq_some parsed
  have extended := closed_symbol.extend first more
  rw [← whole, bytes, run_symbol (isSpace_of_opensItem opens)] at extended
  cases extended
  have longer := (closed_valueFrom decimalOf room ends).extend read more
  have own := readBack [] stops_nil
  rw [List.append_nil, longer] at own
  have nothing : rest ++ more = [] := congrArg Prod.snd (Option.some.inj own)
  rw [whole, (List.append_eq_nil_iff.mp nothing).2, List.append_nil]

end Prefix

/-! ## The crate -/

/-- The number of nested arrays and objects that the crate rejects. -/
def recursionLimit : Nat := 128

/-- The crate writes integers in decimal. -/
structure SerdeJson.DecimalIntegers (serde : SerdeJson) : Prop where
  posInt : ∀ value, serde.numberText (.posInt value) = u64ToString value
  negInt : ∀ value negative,
    serde.numberText (.negInt value negative) = "-" ++ value.toInt.natAbs.repr

/-- The crate parses RFC 8259, up to its recursion limit. What becomes of a number that
is no integer of a word is left open. -/
def SerdeJson.ParsesJson (serde : SerdeJson) : Prop :=
  ∃ decimalOf, ∀ text value,
    serde.fromSlice text = .ok value ↔ parse decimalOf (recursionLimit - 1) text = some value

/-- The decimal text of an integer. -/
def integerText : Number → String
  | .posInt value => u64ToString value
  | .negInt value _ => "-" ++ value.toInt.natAbs.repr
  | .float _ => "0.0"

/-- A crate for values without floats. -/
def integerJson : SerdeJson :=
  compactJson integerText fun text =>
    match parse (fun _ => none) (recursionLimit - 1) text with
    | some value => .ok value
    | none => .error "no value"

theorem decimalIntegers_integerJson : integerJson.DecimalIntegers where
  posInt _ := rfl
  negInt _ _ := rfl

theorem parsesJson_integerJson : integerJson.ParsesJson := by
  refine ⟨fun _ => none, fun text value => ?_⟩
  change (match parse (fun _ => none) (recursionLimit - 1) text with
    | some value => .ok value
    | none => .error "no value" : Except String Value) = .ok value ↔ _
  cases parse (fun _ => none) (recursionLimit - 1) text with
  | none => simp
  | some found => simp

end Json
end SkPqc.Library

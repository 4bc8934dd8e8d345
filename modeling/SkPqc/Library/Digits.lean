import SkPqc.Library.Bytes

/-!
# Numbers and byte strings as digits

A word is written in decimal without leading zeros. A byte string is written in
lowercase hexadecimal, two digits a byte. The readers accept more than the
writers produce: a decimal may have a plus sign and leading zeros, and a
hexadecimal digit may be of either case.

What was written reads back as it was (`parseU64_u64ToString`,
`hexDecode_hexEncode`), so both writers are injective.
-/

set_option autoImplicit false

namespace SkPqc.Library

/-! ## Decimal words -/

/-- The decimal text of a `u64`: `to_string`. -/
def u64ToString (number : UInt64) : String := number.toNat.repr

/-- The `u64` that a text spells: `str::parse`. -/
def parseU64 (text : String) : Option UInt64 :=
  let digits :=
    match text.toList with
    | '+' :: rest => rest
    | chars => chars
  if digits = [] then none
  else if digits.all Char.isDigit then
    let number := Nat.ofDigitChars 10 digits 0
    if number < 2 ^ 64 then some (UInt64.ofNat number) else none
  else none

/-- The digits of a decimal do not start with a sign. -/
theorem toList_u64ToString_ne_plus (number : UInt64) (rest : List Char) :
    (u64ToString number).toList ≠ '+' :: rest := by
  intro signed
  have plus : '+' ∈ Nat.toDigits 10 number.toNat := by
    rw [← Nat.toList_repr, ← u64ToString, signed]
    exact List.mem_cons_self
  have digit := Nat.isDigit_of_mem_toDigits (by decide) (by decide) plus
  exact absurd digit (by decide)

theorem parseU64_u64ToString (number : UInt64) : parseU64 (u64ToString number) = some number := by
  have digits : (u64ToString number).toList = Nat.toDigits 10 number.toNat := Nat.toList_repr
  have unsigned : (match (u64ToString number).toList with
      | '+' :: rest => rest
      | chars => chars) = Nat.toDigits 10 number.toNat := by
    split
    · rename_i rest signed
      exact absurd signed (toList_u64ToString_ne_plus number rest)
    · exact digits
  have all : (Nat.toDigits 10 number.toNat).all Char.isDigit = true := by
    rw [List.all_eq_true]
    intro digit found
    exact Nat.isDigit_of_mem_toDigits (by decide) (by decide) found
  simp only [parseU64, unsigned, if_neg Nat.toDigits_ne_nil, if_pos all,
    Nat.ofDigitChars_ten_toDigits, if_pos number.toNat_lt, UInt64.ofNat_toNat]

theorem u64ToString_injective : Function.Injective u64ToString := by
  intro first second equal
  have parsed := parseU64_u64ToString first
  rw [equal, parseU64_u64ToString] at parsed
  exact (Option.some.inj parsed).symm

/-- Only digits are written. -/
theorem not_mem_u64ToString {symbol : Char} (other : symbol.isDigit = false) (number : UInt64) :
    symbol ∉ (u64ToString number).toList := by
  intro found
  rw [u64ToString, Nat.toList_repr] at found
  have digit := Nat.isDigit_of_mem_toDigits (by decide) (by decide) found
  rw [other] at digit
  cases digit

/-- A text that ends in a number, behind a symbol that is no digit, tells both. -/
theorem append_u64ToString_inj {front front' : List Char} {stop : Char} {number number' : UInt64}
    (stops : stop.isDigit = false)
    (same : front ++ stop :: (u64ToString number).toList =
      front' ++ stop :: (u64ToString number').toList) : front = front' ∧ number = number' := by
  have tails : ∀ {middle : List Char} {first second : UInt64},
      stop :: (u64ToString first).toList = middle ++ stop :: (u64ToString second).toList →
      middle = [] ∧ first = second := by
    intro middle first second equal
    cases middle with
    | nil =>
        have texts := String.toList_inj.mp (List.cons.inj equal).2
        exact ⟨rfl, u64ToString_injective texts⟩
    | cons head middle =>
        have found : stop ∈ (u64ToString first).toList := by
          rw [(List.cons.inj equal).2]
          exact List.mem_append_right _ List.mem_cons_self
        exact absurd found (not_mem_u64ToString stops first)
  rcases List.append_eq_append_iff.mp same with ⟨middle, rfl, equal⟩ | ⟨middle, rfl, equal⟩
  · obtain ⟨rfl, own⟩ := tails equal
    exact ⟨(List.append_nil _).symm, own⟩
  · obtain ⟨rfl, own⟩ := tails equal
    exact ⟨List.append_nil _, own.symm⟩

/-! ## Hexadecimal byte strings -/

/-- The two digits of a byte, the high half first. -/
def hexPair (byte : UInt8) : List Char :=
  [Nat.digitChar (byte.toNat / 16), Nat.digitChar (byte.toNat % 16)]

/-- The lowercase hexadecimal text of a byte string: `hex::encode`. -/
def hexEncode (bytes : Bytes) : String := String.ofList (bytes.flatMap hexPair)

/-- The value of a hexadecimal digit of either case. -/
def hexValue (digit : Char) : Option Nat :=
  if '0' ≤ digit ∧ digit ≤ '9' then some (digit.toNat - 48)
  else if 'a' ≤ digit ∧ digit ≤ 'f' then some (digit.toNat - 87)
  else if 'A' ≤ digit ∧ digit ≤ 'F' then some (digit.toNat - 55)
  else none

/-- The bytes that a list of hexadecimal digits spells. -/
def hexDecodeDigits : List Char → Option Bytes
  | [] => some []
  | [_] => none
  | high :: low :: rest => do
      let h ← hexValue high
      let l ← hexValue low
      let bytes ← hexDecodeDigits rest
      return UInt8.ofNat (16 * h + l) :: bytes

/-- The bytes that a hexadecimal text spells: `hex::decode`. -/
def hexDecode (text : String) : Option Bytes := hexDecodeDigits text.toList

/-- A digit reads back as its value. -/
theorem hexValue_digitChar {value : Nat} (small : value < 16) :
    hexValue (Nat.digitChar value) = some value := by
  have every : ∀ value : Fin 16, hexValue (Nat.digitChar value) = some value.val := by decide
  exact every ⟨value, small⟩

theorem hexDecodeDigits_flatMap (bytes : Bytes) :
    hexDecodeDigits (bytes.flatMap hexPair) = some bytes := by
  induction bytes with
  | nil => rfl
  | cons byte rest ih =>
      have small : byte.toNat < 256 := byte.toNat_lt
      have halves : 16 * (byte.toNat / 16) + byte.toNat % 16 = byte.toNat :=
        Nat.div_add_mod byte.toNat 16
      have high := @hexValue_digitChar (byte.toNat / 16) (by omega)
      have low := @hexValue_digitChar (byte.toNat % 16) (by omega)
      simp only [List.flatMap_cons, hexPair, List.cons_append, List.nil_append, hexDecodeDigits,
        high, low, ih, Option.bind_eq_bind, Option.bind_some, Option.pure_def, halves,
        UInt8.ofNat_toNat]

theorem hexDecode_hexEncode (bytes : Bytes) : hexDecode (hexEncode bytes) = some bytes := by
  rw [hexDecode, hexEncode, String.toList_ofList, hexDecodeDigits_flatMap]

end SkPqc.Library

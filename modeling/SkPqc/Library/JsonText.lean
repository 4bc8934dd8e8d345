import SkPqc.Library.Json
import SkPqc.Library.Digits

/-!
# Writing JSON

What a program takes from `serde_json` beyond the values themselves: its compact
writer, its text of a number, and its parser. `Compact` is the documented form of
what the writer produces. It writes every character raw as UTF-8 but the quote,
the backslash and the controls below space.

`compactJson` writes that form, whatever the texts of numbers and the parser.
-/

set_option autoImplicit false

namespace SkPqc.Library
namespace Json

/-- What a program calls of a JSON crate. -/
structure SerdeJson where
  /-- The compact text of a value: `to_vec`. -/
  toVec (value : Value) : Bytes
  /-- The text of a number: its `Display`. -/
  numberText (number : Number) : String
  /-- The value that a text spells, or the text of an error: `from_slice`. -/
  fromSlice (text : Bytes) : Except String Value

/-! ## Pieces of text -/

/-- A lowercase hexadecimal digit. -/
def hexDigitByte (value : Nat) : UInt8 := UInt8.ofNat (Nat.digitChar value).toNat

/-- A four-digit escape of a 16-bit code unit. -/
def unitEscape (unit : Nat) : Bytes :=
  utf8 "\\u" ++ [hexDigitByte (unit / 4096 % 16), hexDigitByte (unit / 256 % 16),
    hexDigitByte (unit / 16 % 16), hexDigitByte (unit % 16)]

@[simp] theorem length_unitEscape (unit : Nat) : (unitEscape unit).length = 6 := rfl

/-- How the writer writes one character of a string. -/
def escapeChar (ch : Char) : Bytes :=
  if ch.toNat = 0x22 then utf8 "\\\""
  else if ch.toNat = 0x5c then utf8 "\\\\"
  else if ch.toNat = 0x08 then utf8 "\\b"
  else if ch.toNat = 0x09 then utf8 "\\t"
  else if ch.toNat = 0x0a then utf8 "\\n"
  else if ch.toNat = 0x0c then utf8 "\\f"
  else if ch.toNat = 0x0d then utf8 "\\r"
  else if ch.toNat < 0x20 then unitEscape ch.toNat
  else String.utf8EncodeChar ch

/-- A string between quotes. -/
def quoted (escape : Char → Bytes) (text : String) : Bytes :=
  [0x22] ++ text.toList.flatMap escape ++ [0x22]

/-- Items between braces, separated by commas. -/
def braced (items : List Bytes) : Bytes := [0x7b] ++ List.intercalate [0x2c] items ++ [0x7d]

/-- Items between brackets, separated by commas. -/
def bracketed (items : List Bytes) : Bytes := [0x5b] ++ List.intercalate [0x2c] items ++ [0x5d]

/-! ## The documented form -/

/-- The compact form, as far as objects of strings and numbers need it. -/
structure SerdeJson.Compact (serde : SerdeJson) : Prop where
  number : ∀ number, serde.toVec (.number number) = utf8 (serde.numberText number)
  string : ∀ text, serde.toVec (.string text) = quoted escapeChar text
  object : ∀ members, serde.toVec (.object members) =
    braced (members.map fun member => quoted escapeChar member.1 ++ [0x3a] ++ serde.toVec member.2)

section Writer

variable (numberText : Number → String)

mutual

/-- The compact text of a value. -/
def writeValue : Value → Bytes
  | .null => utf8 "null"
  | .bool true => utf8 "true"
  | .bool false => utf8 "false"
  | .number number => utf8 (numberText number)
  | .string text => quoted escapeChar text
  | .array values => bracketed (writeValues values)
  | .object members => braced (writeMembers members)

def writeValues : List Value → List Bytes
  | [] => []
  | value :: rest => writeValue value :: writeValues rest

def writeMembers : List (String × Value) → List Bytes
  | [] => []
  | (key, value) :: rest =>
      (quoted escapeChar key ++ [0x3a] ++ writeValue value) :: writeMembers rest

end

theorem writeMembers_eq_map (members : List (String × Value)) :
    writeMembers numberText members = members.map fun member =>
      quoted escapeChar member.1 ++ [0x3a] ++ writeValue numberText member.2 := by
  induction members with
  | nil => rfl
  | cons member rest ih => rw [writeMembers, List.map_cons, ih]

end Writer

/-- A crate that writes the compact form, with given texts of numbers and a given
parser. -/
def compactJson (numberText : Number → String) (fromSlice : Bytes → Except String Value) :
    SerdeJson where
  toVec := writeValue numberText
  numberText := numberText
  fromSlice := fromSlice

theorem compact_compactJson (numberText : Number → String)
    (fromSlice : Bytes → Except String Value) : (compactJson numberText fromSlice).Compact where
  number _ := rfl
  string _ := rfl
  object members := by
    change braced (writeMembers numberText members) = _
    rw [writeMembers_eq_map]
    rfl

/-- A crate that writes the natural numbers and parses nothing. -/
def naturalJson : SerdeJson :=
  compactJson (fun | .posInt value => toString value | _ => "0") fun _ => .error "no parser"

end Json
end SkPqc.Library

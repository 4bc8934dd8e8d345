import SkPqc.Library.JsonText

/-!
# The canonical encoding of a route header

The encoder sorts the keys of every object, writes no space, and escapes every
character outside the printable ASCII range.
-/

set_option autoImplicit false

namespace SkPqc
namespace Pqroute

open Library Library.Json

/-- A single escape of a 16-bit code unit. -/
def pushUEscape (codeUnit : Nat) : Bytes := unitEscape codeUnit

/-- Encode one character: a short escape, a printable character, or one or two
code units. -/
def encodeCharAscii (ch : Char) : Bytes :=
  let c := ch.toNat
  if c = 0x22 then utf8 "\\\""
  else if c = 0x5c then utf8 "\\\\"
  else if c = 0x08 then utf8 "\\b"
  else if c = 0x09 then utf8 "\\t"
  else if c = 0x0a then utf8 "\\n"
  else if c = 0x0c then utf8 "\\f"
  else if c = 0x0d then utf8 "\\r"
  else if 0x20 ≤ c ∧ c ≤ 0x7e then [UInt8.ofNat c]
  else if c ≤ 0xFFFF then pushUEscape c
  else
    let v := c - 0x10000
    pushUEscape (0xD800 + v / 1024) ++ pushUEscape (0xDC00 + v % 1024)

/-- Encode a string with every character outside printable ASCII escaped. -/
def encodeStringAscii (text : String) : Bytes := quoted encodeCharAscii text

section Canonical

variable (serde : SerdeJson)

mutual

/-- The canonical bytes of a value. -/
def canonical : Value → Bytes
  | .null => utf8 "null"
  | .bool true => utf8 "true"
  | .bool false => utf8 "false"
  | .number number => utf8 (serde.numberText number)
  | .string text => encodeStringAscii text
  | .array values => bracketed (canonicalValues values)
  | .object members =>
      braced ((collectMembers (canonicalMembers members)).map fun member =>
        encodeStringAscii member.1 ++ [0x3a] ++ member.2)

def canonicalValues : List Value → List Bytes
  | [] => []
  | value :: rest => canonical value :: canonicalValues rest

/-- The members of an object with their values encoded, before their keys are
sorted. -/
def canonicalMembers : List (String × Value) → List (String × Bytes)
  | [] => []
  | (key, value) :: rest => (key, canonical value) :: canonicalMembers rest

end

end Canonical

end Pqroute
end SkPqc

import SkPqc.Library.JsonString

/-!
# Reading JSON

A reference parser of RFC 8259 over byte strings. A value is read from its first
symbol on; white space may stand around every symbol. The room is the number of
arrays and objects that may still be entered, so a bounded room models a parser
with a recursion limit, and a room as large as the text models one without.

An integer that fits a word is read exactly. What any other number becomes is a
parameter. A key that occurs twice keeps its last value.

A parser reads a value from the front of a text: apart from a number, which ends
only where another symbol begins, it does not look behind the value
(`closed_valueFrom`).
-/

set_option autoImplicit false

namespace SkPqc.Library
namespace Json

open Reader

/-! ## Symbols -/

/-- White space. -/
def isSpace (symbol : UInt8) : Bool :=
  symbol = 0x20 || symbol = 0x09 || symbol = 0x0a || symbol = 0x0d

/-- The next byte that is no white space. -/
def symbol : Reader UInt8 := fun input => (byte.run (input.dropWhile isSpace))

/-! ## Numbers -/

def isDigit (symbol : UInt8) : Bool := 0x30 ≤ symbol && symbol ≤ 0x39

/-- The longest run of digits, which must not be empty. -/
def digits : Reader Bytes := do
  let found ← longest isDigit
  if found = [] then failure else return found

/-- The digits of the integer part, given the first: a zero stands alone. -/
def integerPart (first : UInt8) : Reader Bytes :=
  if first = 0x30 then return [first]
  else if isDigit first then do
    let others ← longest isDigit
    return first :: others
  else failure

/-- A point and the digits behind it. -/
def fractionPart : Reader Bytes :=
  optional (fun symbol => symbol = 0x2e) fun point => do
    let behind ← digits
    return point :: behind

/-- The letter, the sign and the digits of an exponent. -/
def exponentPart : Reader Bytes :=
  optional (fun symbol => symbol = 0x65 || symbol = 0x45) fun letter => do
    let sign ← optional (fun symbol => symbol = 0x2b || symbol = 0x2d) fun sign => return [sign]
    let behind ← digits
    return letter :: (sign ++ behind)

/-- The number that decimal digits spell. -/
def decimal (digits : Bytes) : Nat :=
  digits.foldl (fun number digit => number * 10 + (digit.toNat - 0x30)) 0

/-- An integer that fits a word. -/
def integerNumber (negative : Bool) (magnitude : Nat) : Option Number :=
  if negative then
    if magnitude ≤ 2 ^ 63 then
      let value := Int64.ofInt (-(magnitude : Int))
      if below : value < 0 then some (.negInt value below) else none
    else none
  else if magnitude < 2 ^ 64 then some (.posInt (UInt64.ofNat magnitude))
  else none

/-- The number behind its sign, given its first digit. Other numbers than integers that
fit a word are converted as the parser does. -/
def unsignedNumber (decimalOf : Bytes → Option Number) (negative : Bool) (first : UInt8) :
    Reader Number := do
  let whole ← integerPart first
  let fraction ← fractionPart
  let exponent ← exponentPart
  let exact :=
    if fraction = [] ∧ exponent = [] then integerNumber negative (decimal whole) else none
  let sign := if negative then [0x2d] else []
  match exact.or (decimalOf (sign ++ whole ++ fraction ++ exponent)) with
  | some number => return number
  | none => failure

/-- The number that starts with a symbol. -/
def number (decimalOf : Bytes → Option Number) (first : UInt8) : Reader Number :=
  if first = 0x2d then do
    let digit ← byte
    unsignedNumber decimalOf true digit
  else unsignedNumber decimalOf false first

/-! ## Sequences -/

section Sequences

variable {α : Type} (item : UInt8 → Reader α) (close : UInt8)

/-- At most `fuel` items from the first symbol of one, up to the closing symbol. -/
def items : Nat → UInt8 → Reader (List α)
  | 0, _ => failure
  | fuel + 1, lead => do
      let first ← item lead
      let next ← symbol
      if next = 0x2c then do
        let lead ← symbol
        let others ← items fuel lead
        return first :: others
      else if next = close then return [first]
      else failure

/-- The items behind an opening symbol. Each item takes a byte. -/
def sequence : Reader (List α) := do
  let lead ← symbol
  if lead = close then return []
  else do
    let input ← get
    items item close (input.length + 1) lead

end Sequences

/-! ## Values -/

/-- The rest of a literal. -/
def literal (rest : Bytes) (value : Value) : Reader Value :=
  match rest with
  | [] => return value
  | first :: rest => do
      expect first
      literal rest value

section Values

variable (decimalOf : Bytes → Option Number)

/-- A value that is no array and no object, from its first symbol on. -/
def scalarFrom (first : UInt8) : Reader Value :=
  if first = 0x22 then do
    let text ← stringBody
    return .string text
  else if first = 0x6e then literal (utf8 "ull") .null
  else if first = 0x74 then literal (utf8 "rue") (.bool true)
  else if first = 0x66 then literal (utf8 "alse") (.bool false)
  else do
    let number ← number decimalOf first
    return .number number

/-- A key and its value, from the quote of the key on. -/
def memberFrom (valueFrom : UInt8 → Reader Value) (first : UInt8) : Reader (String × Value) :=
  if first = 0x22 then do
    let key ← stringBody
    let colon ← symbol
    if colon = 0x3a then do
      let lead ← symbol
      let value ← valueFrom lead
      return (key, value)
    else failure
  else failure

/-- A value from its first symbol on, with at most `room` nested arrays and objects. -/
def valueFrom : Nat → UInt8 → Reader Value
  | 0, first => scalarFrom decimalOf first
  | room + 1, first =>
      if first = 0x5b then do
        let values ← sequence (valueFrom room) 0x5d
        return .array values
      else if first = 0x7b then do
        let members ← sequence (memberFrom (valueFrom room)) 0x7d
        return .object (collectMembers members)
      else scalarFrom decimalOf first

/-- The next value. -/
def value (room : Nat) : Reader Value := do
  let lead ← symbol
  valueFrom decimalOf room lead

/-- **The reference parser**: one value, with nothing but white space behind it. -/
def parse (room : Nat) (text : Bytes) : Option Value :=
  match (value decimalOf room).run text with
  | some (value, rest) => if rest.dropWhile isSpace = [] then some value else none
  | none => none

end Values

/-! ## What stands behind a value does not matter -/

section Closed

variable {α : Type}

theorem closed_symbol : Closed symbol where
  extend {input first rest} read more := by
    have front : byte.run (input.dropWhile isSpace) = some (first, rest) := read
    cases behind : input.dropWhile isSpace with
    | nil =>
        rw [behind] at front
        cases front
    | cons found others =>
        rw [behind] at front
        cases front
        change byte.run ((input ++ more).dropWhile isSpace) = _
        rw [List.dropWhile_append, if_neg (by simp [behind]), behind]
        rfl
  exhaust read := by cases read

theorem settled_digits : Settled digits :=
  (Settled.longest isDigit).bind fun _ => .ite Closed.failure.settled (Closed.pure _).settled

theorem settled_integerPart (first : UInt8) : Settled (integerPart first) := by
  refine .ite (Closed.pure _).settled (.ite ?_ Closed.failure.settled)
  exact (Settled.longest isDigit).bind fun _ => (Closed.pure _).settled

theorem settled_fractionPart : Settled fractionPart :=
  .optional fun _ => settled_digits.bind fun _ => (Closed.pure _).settled

theorem settled_exponentPart : Settled exponentPart :=
  .optional fun _ => (Settled.optional fun _ => (Closed.pure _).settled).bind fun _ =>
    settled_digits.bind fun _ => (Closed.pure _).settled

theorem settled_unsignedNumber (decimalOf : Bytes → Option Number) (negative : Bool)
    (first : UInt8) : Settled (unsignedNumber decimalOf negative first) := by
  refine (settled_integerPart first).bind fun whole => settled_fractionPart.bind fun fraction =>
    settled_exponentPart.bind fun exponent => ?_
  dsimp only
  split
  · exact (Closed.pure _).settled
  · exact Closed.failure.settled

theorem settled_number (decimalOf : Bytes → Option Number) (first : UInt8) :
    Settled (number decimalOf first) := by
  refine .ite ?_ (settled_unsignedNumber decimalOf false first)
  exact Closed.byte.settled.bind fun digit => settled_unsignedNumber decimalOf true digit

theorem closed_literal (rest : Bytes) (value : Value) : Closed (literal rest value) := by
  induction rest with
  | nil => exact .pure _
  | cons first rest ih => exact (Closed.expect first).bind fun _ => ih

theorem settled_scalarFrom (decimalOf : Bytes → Option Number) (first : UInt8) :
    Settled (scalarFrom decimalOf first) := by
  refine .ite (closed_stringBody.bind fun _ => .pure _).settled ?_
  refine .ite (closed_literal _ _).settled (.ite (closed_literal _ _).settled ?_)
  refine .ite (closed_literal _ _).settled ?_
  exact (settled_number decimalOf first).bind fun _ => (Closed.pure _).settled

section Sequences

variable {item : UInt8 → Reader α} {close : UInt8}

/-- More fuel reads no less. -/
theorem items_mono {fuel fuel' : Nat} (more : fuel ≤ fuel') {lead : UInt8} {input rest : Bytes}
    {values : List α} (read : (items item close fuel lead).run input = some (values, rest)) :
    (items item close fuel' lead).run input = some (values, rest) := by
  induction fuel generalizing fuel' lead input values rest with
  | zero => cases read
  | succ fuel ih =>
      obtain ⟨fuel', rfl⟩ : ∃ smaller, fuel' = smaller + 1 := ⟨fuel' - 1, by omega⟩
      obtain ⟨first, between, readFirst, read⟩ := run_bind_eq_some.mp read
      obtain ⟨next, between', readNext, read⟩ := run_bind_eq_some.mp read
      refine run_bind_eq_some.mpr ⟨first, between, readFirst, ?_⟩
      refine run_bind_eq_some.mpr ⟨next, between', readNext, ?_⟩
      split at read
      · rename_i comma
        rw [if_pos comma]
        obtain ⟨lead', ahead, readLead, read⟩ := run_bind_eq_some.mp read
        obtain ⟨others, after, readOthers, done⟩ := run_bind_eq_some.mp read
        exact run_bind_eq_some.mpr ⟨lead', ahead, readLead,
          run_bind_eq_some.mpr ⟨others, after, ih (by omega) readOthers, done⟩⟩
      · rename_i other
        rw [if_neg other]
        exact read

theorem closed_items (itemSettled : ∀ lead, Settled (item lead)) (fuel : Nat) (lead : UInt8) :
    Closed (items item close fuel lead) := by
  induction fuel generalizing lead with
  | zero => exact .failure
  | succ fuel ih =>
      refine (itemSettled lead).bind_closed (fun first => ?_) (fun first => rfl)
      refine closed_symbol.bind fun next => .ite ?_ (.ite (.pure _) .failure)
      exact closed_symbol.bind fun lead => (ih lead).bind fun _ => .pure _

theorem run_sequence_eq_some {input rest : Bytes} {values : List α} :
    (sequence item close).run input = some (values, rest) ↔
      ∃ lead ahead, symbol.run input = some (lead, ahead) ∧
        if lead = close then values = [] ∧ rest = ahead
        else (items item close (ahead.length + 1) lead).run ahead = some (values, rest) := by
  rw [sequence, run_bind_eq_some]
  refine exists_congr fun lead => exists_congr fun ahead => and_congr_right fun _ => ?_
  split
  · constructor
    · intro done
      cases done
      exact ⟨rfl, rfl⟩
    · rintro ⟨rfl, rfl⟩
      rfl
  · rw [run_bind_of_run (StateT.run_get ahead)]

theorem closed_sequence (itemSettled : ∀ lead, Settled (item lead)) :
    Closed (sequence item close) where
  extend {input values rest} read more := by
    obtain ⟨lead, ahead, readLead, others⟩ := run_sequence_eq_some.mp read
    refine run_sequence_eq_some.mpr ⟨lead, ahead ++ more, closed_symbol.extend readLead more, ?_⟩
    split at others
    · rename_i closes
      rw [if_pos closes]
      exact ⟨others.1, by rw [others.2]⟩
    · rename_i inside
      rw [if_neg inside]
      refine items_mono ?_ ((closed_items itemSettled _ lead).extend others more)
      rw [List.length_append]
      omega
  exhaust read := by
    obtain ⟨lead, ahead, readLead, -⟩ := run_sequence_eq_some.mp read
    cases readLead

end Sequences

theorem settled_memberFrom {valueFrom : UInt8 → Reader Value}
    (valueSettled : ∀ lead, Settled (valueFrom lead)) (first : UInt8) :
    Settled (memberFrom valueFrom first) := by
  refine .ite ?_ Closed.failure.settled
  refine closed_stringBody.settled.bind fun key => closed_symbol.settled.bind fun colon => ?_
  refine .ite ?_ Closed.failure.settled
  exact closed_symbol.settled.bind fun lead => (valueSettled lead).bind fun _ =>
    (Closed.pure _).settled

theorem settled_valueFrom (decimalOf : Bytes → Option Number) (room : Nat) (first : UInt8) :
    Settled (valueFrom decimalOf room first) := by
  induction room generalizing first with
  | zero => exact settled_scalarFrom decimalOf first
  | succ room ih =>
      refine .ite ?_ (.ite ?_ (settled_scalarFrom decimalOf first))
      · exact ((closed_sequence ih).bind fun _ => .pure _).settled
      · exact ((closed_sequence (settled_memberFrom ih)).bind fun _ => .pure _).settled

/-- **A string, an array or an object ends where it ends**, whatever stands behind. -/
theorem closed_valueFrom (decimalOf : Bytes → Option Number) (room : Nat) {first : UInt8}
    (opens : first = 0x22 ∨ first = 0x5b ∨ first = 0x7b) :
    Closed (valueFrom decimalOf room first) := by
  have string : Closed (scalarFrom decimalOf 0x22) := closed_stringBody.bind fun _ => .pure _
  cases room with
  | zero =>
      rcases opens with rfl | rfl | rfl
      · exact string
      · exact .failure
      · exact .failure
  | succ room =>
      have inner := settled_valueFrom decimalOf room
      rcases opens with rfl | rfl | rfl
      · exact string
      · exact (closed_sequence inner).bind fun _ => .pure _
      · exact (closed_sequence (settled_memberFrom inner)).bind fun _ => .pure _

end Closed

end Json
end SkPqc.Library

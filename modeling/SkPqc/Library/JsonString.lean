import SkPqc.Library.JsonText
import SkPqc.Library.Reader

/-!
# Reading JSON strings

A string is read character by character up to the closing quote. A backslash
starts an escape; a code point above the basic plane may be escaped as two
surrogates; a raw character below space is an error.

A writer of strings is faithful when every character it writes is read back
(`Faithful`). What a faithful writer puts between quotes is read back as a whole
(`run_stringBody`), so two quoted texts with anything behind them are equal only
part by part (`quoted_append_inj`). The compact writer is faithful
(`faithful_escapeChar`).
-/

set_option autoImplicit false

namespace SkPqc.Library
namespace Json

open Reader

/-! ## Escapes -/

/-- The next hexadecimal digit, of either case. -/
def hexDigit : Reader Nat := do
  let first ← byte
  match hexValue (Char.ofNat first.toNat) with
  | some value => return value
  | none => failure

/-- The 16-bit code unit that four digits spell. -/
def hexUnit : Reader Nat := do
  let first ← hexDigit
  let second ← hexDigit
  let third ← hexDigit
  let fourth ← hexDigit
  return first * 4096 + second * 256 + third * 16 + fourth

/-- The character of a code unit, or of a surrogate pair that starts with it. -/
def unitCharacter (unit : Nat) : Reader Char :=
  if 0xD800 ≤ unit ∧ unit < 0xDC00 then do
    expect 0x5c
    expect 0x75
    let low ← hexUnit
    if 0xDC00 ≤ low ∧ low < 0xE000 then
      return Char.ofNat (0x10000 + (unit - 0xD800) * 1024 + (low - 0xDC00))
    else failure
  else if 0xDC00 ≤ unit ∧ unit < 0xE000 then failure
  else return Char.ofNat unit

/-- The character of an escape, behind its backslash. -/
def escape : Reader Char := do
  let kind ← byte
  if kind = 0x22 then return '"'
  else if kind = 0x5c then return '\\'
  else if kind = 0x2f then return '/'
  else if kind = 0x62 then return Char.ofNat 0x08
  else if kind = 0x66 then return Char.ofNat 0x0c
  else if kind = 0x6e then return Char.ofNat 0x0a
  else if kind = 0x72 then return Char.ofNat 0x0d
  else if kind = 0x74 then return Char.ofNat 0x09
  else if kind = 0x75 then do
    let unit ← hexUnit
    unitCharacter unit
  else failure

/-! ## Strings -/

/-- The next character of a string, or nothing at the closing quote. -/
def stringCharacter : Reader (Option Char) := do
  let ch ← character
  if ch.toNat = 0x22 then return none
  else if ch.toNat = 0x5c then do
    let escaped ← escape
    return some escaped
  else if ch.toNat < 0x20 then failure
  else return some ch

/-- At most `fuel` steps of reading the characters of a string. -/
def stringCharacters : Nat → Reader (List Char)
  | 0 => failure
  | fuel + 1 => do
      let next ← stringCharacter
      match next with
      | none => return []
      | some ch => do
          let rest ← stringCharacters fuel
          return ch :: rest

/-- The string behind an opening quote. Every character takes a byte, and so does the
closing quote. -/
def stringBody : Reader String := do
  let input ← get
  let chars ← stringCharacters input.length
  return String.ofList chars

/-! ## Strings are closed -/

theorem closed_hexDigit : Closed hexDigit := by
  refine Closed.byte.bind fun first => ?_
  split
  · exact .pure _
  · exact .failure

theorem closed_hexUnit : Closed hexUnit :=
  closed_hexDigit.bind fun _ => closed_hexDigit.bind fun _ => closed_hexDigit.bind fun _ =>
    closed_hexDigit.bind fun _ => .pure _

theorem closed_unitCharacter (unit : Nat) : Closed (unitCharacter unit) := by
  refine .ite ?_ (.ite .failure (.pure _))
  refine (Closed.expect 0x5c).bind fun _ => (Closed.expect 0x75).bind fun _ =>
    closed_hexUnit.bind fun low => ?_
  exact .ite (.pure _) .failure

theorem closed_escape : Closed escape := by
  refine Closed.byte.bind fun kind => ?_
  repeat' refine .ite (.pure _) ?_
  exact .ite (closed_hexUnit.bind closed_unitCharacter) .failure

theorem closed_stringCharacter : Closed stringCharacter := by
  refine Closed.character.bind fun ch => .ite (.pure _) (.ite ?_ (.ite .failure (.pure _)))
  exact closed_escape.bind fun _ => .pure _

theorem closed_stringCharacters (fuel : Nat) : Closed (stringCharacters fuel) := by
  induction fuel with
  | zero => exact .failure
  | succ fuel ih =>
      refine closed_stringCharacter.bind fun next => ?_
      cases next with
      | none => exact .pure _
      | some ch => exact ih.bind fun _ => .pure _

/-- More fuel reads no less. -/
theorem stringCharacters_mono {fuel fuel' : Nat} (more : fuel ≤ fuel') {input rest : Bytes}
    {chars : List Char} (read : (stringCharacters fuel).run input = some (chars, rest)) :
    (stringCharacters fuel').run input = some (chars, rest) := by
  induction fuel generalizing fuel' input chars rest with
  | zero => cases read
  | succ fuel ih =>
      obtain ⟨fuel', rfl⟩ : ∃ smaller, fuel' = smaller + 1 := ⟨fuel' - 1, by omega⟩
      obtain ⟨next, between, first, others⟩ := run_bind_eq_some.mp read
      refine run_bind_eq_some.mpr ⟨next, between, first, ?_⟩
      cases next with
      | none => exact others
      | some ch =>
          obtain ⟨chars', between', rest', done⟩ := run_bind_eq_some.mp others
          exact run_bind_eq_some.mpr
            ⟨chars', between', ih (Nat.le_of_succ_le_succ more) rest', done⟩

theorem run_stringBody_eq_some {input rest : Bytes} {text : String} :
    stringBody.run input = some (text, rest) ↔
      (stringCharacters input.length).run input = some (text.toList, rest) := by
  change (get >>= fun input => stringCharacters input.length >>= fun chars =>
    Pure.pure (String.ofList chars) : Reader String).run input = _ ↔ _
  rw [run_bind_of_run (StateT.run_get input), run_bind_eq_some]
  constructor
  · rintro ⟨chars, between, read, done⟩
    cases done
    rw [String.toList_ofList]
    exact read
  · intro read
    refine ⟨text.toList, rest, read, ?_⟩
    rw [String.ofList_toList]
    rfl

theorem closed_stringBody : Closed stringBody where
  extend {input text rest} read more := by
    rw [run_stringBody_eq_some] at read ⊢
    refine stringCharacters_mono ?_ ((closed_stringCharacters input.length).extend read more)
    simp
  exhaust read := by
    rw [run_stringBody_eq_some] at read
    cases read

/-! ## Faithful writers -/

/-- Every character that the writer writes is read back. -/
def Faithful (write : Char → Bytes) : Prop :=
  ∀ ch rest, stringCharacter.run (write ch ++ rest) = some (some ch, rest)

section Faithful

variable {write : Char → Bytes}

/-- A faithful writer writes at least one byte for every character. -/
theorem Faithful.length_le (faithful : Faithful write) (chars : List Char) :
    chars.length ≤ (chars.flatMap write).length := by
  induction chars with
  | nil => exact Nat.le_refl 0
  | cons ch chars ih =>
      have positive : 0 < (write ch).length := by
        rw [List.length_pos_iff]
        intro empty
        have read := faithful ch []
        rw [empty, List.nil_append] at read
        cases read
      rw [List.flatMap_cons, List.length_append, List.length_cons]
      omega

theorem run_stringCharacter_quote (rest : Bytes) :
    stringCharacter.run (0x22 :: rest) = some (none, rest) := by
  have quote : character.run (0x22 :: rest) = some ('"', rest) := run_character '"' rest
  rw [stringCharacter, run_bind_of_run quote]
  rfl

theorem run_stringCharacters (faithful : Faithful write) (chars : List Char) (rest : Bytes)
    {fuel : Nat} (enough : chars.length < fuel) :
    (stringCharacters fuel).run (chars.flatMap write ++ 0x22 :: rest) = some (chars, rest) := by
  induction chars generalizing fuel with
  | nil =>
      obtain ⟨fuel, rfl⟩ : ∃ smaller, fuel = smaller + 1 :=
        ⟨fuel - 1, by rw [List.length_nil] at enough; omega⟩
      rw [List.flatMap_nil, List.nil_append, stringCharacters,
        run_bind_of_run (run_stringCharacter_quote rest)]
      rfl
  | cons ch chars ih =>
      rw [List.length_cons] at enough
      obtain ⟨fuel, rfl⟩ : ∃ smaller, fuel = smaller + 1 := ⟨fuel - 1, by omega⟩
      rw [List.flatMap_cons, List.append_assoc, stringCharacters,
        run_bind_of_run (faithful ch _)]
      dsimp only
      rw [run_bind_of_run (@ih fuel (by omega))]
      rfl

/-- **What a faithful writer puts between quotes is read back.** -/
theorem run_stringBody (faithful : Faithful write) (text : String) (rest : Bytes) :
    stringBody.run (text.toList.flatMap write ++ 0x22 :: rest) = some (text, rest) := by
  rw [run_stringBody_eq_some]
  refine run_stringCharacters faithful text.toList rest ?_
  have length := faithful.length_le text.toList
  rw [List.length_append, List.length_cons]
  omega

/-- A quoted text ends at its closing quote. -/
theorem quoted_append_inj (faithful : Faithful write) {text text' : String} {rest rest' : Bytes}
    (same : quoted write text ++ rest = quoted write text' ++ rest') :
    text = text' ∧ rest = rest' := by
  simp only [quoted, List.append_assoc, List.cons_append, List.nil_append,
    List.cons.injEq, true_and] at same
  have read := run_stringBody faithful text rest
  rw [same, run_stringBody faithful text' rest'] at read
  cases read
  exact ⟨rfl, rfl⟩

end Faithful

/-! ## Reading back escapes -/

/-- An escape is read behind its backslash. -/
theorem run_stringCharacter_escape {code rest rest' : Bytes} {ch : Char}
    (read : escape.run (code ++ rest) = some (ch, rest')) :
    stringCharacter.run (0x5c :: (code ++ rest)) = some (some ch, rest') := by
  have backslash : character.run (0x5c :: (code ++ rest)) = some ('\\', code ++ rest) :=
    run_character '\\' (code ++ rest)
  rw [stringCharacter, run_bind_of_run backslash]
  exact run_bind_eq_some.mpr ⟨ch, rest', read, rfl⟩

theorem run_hexDigit {value : Nat} (small : value < 16) (rest : Bytes) :
    hexDigit.run (hexDigitByte value :: rest) = some (value, rest) := by
  have every : ∀ value : Fin 16,
      hexValue (Char.ofNat (hexDigitByte value).toNat) = some value.val := by decide
  rw [hexDigit, run_bind_of_run (run_byte_cons _ rest), every ⟨value, small⟩]
  rfl

/-- The digits of a code unit are read back. -/
theorem run_hexUnit {unit : Nat} (small : unit < 65536) (rest : Bytes) :
    hexUnit.run ((unitEscape unit).drop 2 ++ rest) = some (unit, rest) := by
  have digits : (unitEscape unit).drop 2 ++ rest =
      hexDigitByte (unit / 4096 % 16) :: hexDigitByte (unit / 256 % 16) ::
        hexDigitByte (unit / 16 % 16) :: hexDigitByte (unit % 16) :: rest := rfl
  have whole : unit / 4096 % 16 * 4096 + unit / 256 % 16 * 256 + unit / 16 % 16 * 16 + unit % 16 =
      unit := by omega
  rw [digits, hexUnit, run_bind_of_run (run_hexDigit (Nat.mod_lt _ (by decide)) _),
    run_bind_of_run (run_hexDigit (Nat.mod_lt _ (by decide)) _),
    run_bind_of_run (run_hexDigit (Nat.mod_lt _ (by decide)) _),
    run_bind_of_run (run_hexDigit (Nat.mod_lt _ (by decide)) _), whole]
  rfl

/-- A code unit is escaped as a backslash, a `u` and its digits. -/
theorem unitEscape_append (unit : Nat) (rest : Bytes) :
    unitEscape unit ++ rest = 0x5c :: 0x75 :: ((unitEscape unit).drop 2 ++ rest) := rfl

/-- An escaped code unit is read back, when it is no surrogate. -/
theorem run_escape_unit {unit : Nat} (small : unit < 65536)
    (plain : ¬ (0xD800 ≤ unit ∧ unit < 0xE000)) (rest : Bytes) :
    escape.run (0x75 :: ((unitEscape unit).drop 2 ++ rest)) = some (Char.ofNat unit, rest) := by
  rw [escape, run_bind_of_run (run_byte_cons 0x75 _)]
  change (hexUnit >>= unitCharacter).run _ = _
  rw [run_bind_of_run (run_hexUnit small rest), unitCharacter, if_neg (by omega),
    if_neg (by omega)]
  rfl

/-- A surrogate pair is read back as one character. -/
theorem run_escape_pair {high low : Nat} (highHolds : 0xD800 ≤ high ∧ high < 0xDC00)
    (lowHolds : 0xDC00 ≤ low ∧ low < 0xE000) (rest : Bytes) :
    escape.run (0x75 :: ((unitEscape high).drop 2 ++ (unitEscape low ++ rest))) =
      some (Char.ofNat (0x10000 + (high - 0xD800) * 1024 + (low - 0xDC00)), rest) := by
  rw [escape, run_bind_of_run (run_byte_cons 0x75 _)]
  change (hexUnit >>= unitCharacter).run _ = _
  rw [run_bind_of_run (run_hexUnit (by omega) _), unitCharacter, if_pos highHolds,
    unitEscape_append, run_bind_of_run (run_expect 0x5c _), run_bind_of_run (run_expect 0x75 _),
    run_bind_of_run (run_hexUnit (by omega) rest), if_pos lowHolds]
  rfl

/-- A character that needs no escape is read back from its UTF-8 bytes. -/
theorem run_stringCharacter_raw {ch : Char} (notQuote : ch.toNat ≠ 0x22)
    (notBackslash : ch.toNat ≠ 0x5c) (notControl : ¬ ch.toNat < 0x20) (rest : Bytes) :
    stringCharacter.run (String.utf8EncodeChar ch ++ rest) = some (some ch, rest) := by
  rw [stringCharacter, run_bind_of_run (run_character ch rest), if_neg notQuote,
    if_neg notBackslash, if_neg notControl]
  rfl

/-- A short escape is read back. -/
theorem run_stringCharacter_short {ch : Char} {code : Nat} {symbol : UInt8}
    (same : ch.toNat = code) (short : ∀ rest, escape.run (symbol :: rest) =
      some (Char.ofNat code, rest)) (rest : Bytes) :
    stringCharacter.run (0x5c :: symbol :: rest) = some (some ch, rest) := by
  have own : Char.ofNat code = ch := by rw [← same, Char.ofNat_toNat]
  have read := short rest
  rw [own] at read
  exact @run_stringCharacter_escape [symbol] rest rest ch read

/-- **The compact writer is faithful.** -/
theorem faithful_escapeChar : Faithful escapeChar := by
  intro ch rest
  unfold escapeChar
  -- The characters with a short escape, in the order of the writer.
  iterate 7
    split
    · rename_i code
      exact run_stringCharacter_short code (fun _ => rfl) rest
  split
  · rename_i control
    have read := @run_escape_unit ch.toNat (by omega) (by omega) rest
    rw [Char.ofNat_toNat] at read
    exact @run_stringCharacter_escape (0x75 :: (unitEscape ch.toNat).drop 2) rest rest ch read
  · rename_i notQuote notBackslash _ _ _ _ _ notControl
    exact run_stringCharacter_raw notQuote notBackslash notControl rest

end Json
end SkPqc.Library

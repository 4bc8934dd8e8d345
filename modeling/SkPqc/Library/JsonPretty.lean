import SkPqc.Library.Words

/-!
# Writing JSON for people

The pretty writer of `serde_json`, for what a program serialises itself: structures,
whose fields stay in their order, sequences, strings, numbers and truth values. Every
field and every item has a line of its own, two spaces further in than what holds it.

The writer adds punctuation, numbers and escapes to the strings, so a screen for words
that have none of these finds in the whole text what it finds in the strings alone
(`clean_pretty`).
-/

set_option autoImplicit false

namespace SkPqc.Library
namespace Json

/-- What a program serialises. -/
inductive Doc where
  | bool (value : Bool)
  | number (value : Nat)
  | string (text : String)
  | sequence (items : List Doc)
  | struct (fields : List (String × Doc))

/-! ## The writer -/

/-- How the writer writes one character of a string. -/
def escapeText (ch : Char) : List Char :=
  if ch.toNat = 0x22 then ['\\', '"']
  else if ch.toNat = 0x5c then ['\\', '\\']
  else if ch.toNat = 0x08 then ['\\', 'b']
  else if ch.toNat = 0x09 then ['\\', 't']
  else if ch.toNat = 0x0a then ['\\', 'n']
  else if ch.toNat = 0x0c then ['\\', 'f']
  else if ch.toNat = 0x0d then ['\\', 'r']
  else if ch.toNat < 0x20 then
    ['\\', 'u', '0', '0', Nat.digitChar (ch.toNat / 16), Nat.digitChar (ch.toNat % 16)]
  else [ch]

def quotedText (text : String) : List Char := '"' :: (text.toList.flatMap escapeText ++ ['"'])

/-- The start of a line. -/
def newline (indent : Nat) : List Char := '\n' :: List.replicate (2 * indent) ' '

/-- Items on lines of their own, between brackets of some kind. -/
def enclosed (first last : Char) (indent : Nat) (items : List (List Char)) : List Char :=
  if items = [] then [first, last]
  else
    first :: (newline (indent + 1) ++ (List.intercalate (',' :: newline (indent + 1)) items ++
      (newline indent ++ [last])))

mutual

/-- The text of a document that stands so far in. -/
def pretty (indent : Nat) : Doc → List Char
  | .bool true => ['t', 'r', 'u', 'e']
  | .bool false => ['f', 'a', 'l', 's', 'e']
  | .number value => value.repr.toList
  | .string text => quotedText text
  | .sequence items => enclosed '[' ']' indent (prettyItems (indent + 1) items)
  | .struct fields => enclosed '\x7b' '\x7d' indent (prettyFields (indent + 1) fields)

def prettyItems (indent : Nat) : List Doc → List (List Char)
  | [] => []
  | item :: rest => pretty indent item :: prettyItems indent rest

def prettyFields (indent : Nat) : List (String × Doc) → List (List Char)
  | [] => []
  | (key, value) :: rest =>
      (quotedText key ++ ([':', ' '] ++ pretty indent value)) :: prettyFields indent rest

end

/-- The documented text of `to_string_pretty`, which fails on no such document. -/
def WritesPretty (toStringPretty : Doc → Except String String) : Prop :=
  ∀ doc, toStringPretty doc = .ok (String.ofList (pretty 0 doc))

/-- A writer of that text. -/
def prettyJson (doc : Doc) : Except String String := .ok (String.ofList (pretty 0 doc))

theorem writesPretty_prettyJson : WritesPretty prettyJson := fun _ => rfl

/-! ## The screen -/

mutual

/-- The strings and the keys of a document. -/
def texts : Doc → List String
  | .bool _ => []
  | .number _ => []
  | .string text => [text]
  | .sequence items => textsOfItems items
  | .struct fields => textsOfFields fields

def textsOfItems : List Doc → List String
  | [] => []
  | item :: rest => texts item ++ textsOfItems rest

def textsOfFields : List (String × Doc) → List String
  | [] => []
  | (key, value) :: rest => key :: (texts value ++ textsOfFields rest)

end

/-- Serialised items are screened one by one. -/
theorem forall_mem_textsOfItems {α : Type} {P : String → Prop} (serialize : α → Doc)
    (items : List α) :
    (∀ text ∈ textsOfItems (items.map serialize), P text) ↔
      ∀ item ∈ items, ∀ text ∈ texts (serialize item), P text := by
  induction items with
  | nil => exact iff_of_true (List.forall_mem_nil _) (List.forall_mem_nil _)
  | cons item rest ih =>
      rw [List.map_cons, textsOfItems, List.forall_mem_append, ih, List.forall_mem_cons]

/-- The keys of a structure are screened apart from the values. -/
theorem forall_mem_textsOfFields {P : String → Prop} (fields : List (String × Doc)) :
    (∀ text ∈ textsOfFields fields, P text) ↔
      (∀ key ∈ fields.map Prod.fst, P key) ∧
        ∀ value ∈ fields.map Prod.snd, ∀ text ∈ texts value, P text := by
  induction fields with
  | nil =>
      exact iff_of_true (List.forall_mem_nil _) ⟨List.forall_mem_nil _, List.forall_mem_nil _⟩
  | cons field rest ih =>
      obtain ⟨key, value⟩ := field
      rw [textsOfFields, List.forall_mem_cons, List.forall_mem_append, ih, List.map_cons,
        List.map_cons, List.forall_mem_cons, List.forall_mem_cons]
      constructor
      · rintro ⟨own, inValue, keys, values⟩
        exact ⟨⟨own, keys⟩, inValue, values⟩
      · rintro ⟨⟨own, keys⟩, inValue, values⟩
        exact ⟨own, inValue, keys, values⟩

/-- The characters that are not written raw. -/
def escapedCodes : List Nat := 0x22 :: 0x5c :: List.range 0x20

theorem mem_escapedCodes {symbol : Char} (notRaw : escapeText symbol ≠ [symbol]) :
    symbol.toNat ∈ escapedCodes := by
  by_contra raw
  rw [escapedCodes, List.mem_cons, List.mem_cons, List.mem_range, not_or, not_or] at raw
  obtain ⟨noQuote, noBackslash, noControl⟩ := raw
  apply notRaw
  unfold escapeText
  repeat rw [if_neg (by omega)]

/-- What a word may be made of. -/
def isWordSymbol (symbol : Char) : Bool := symbol = '-' || symbol.isLower

/-- Words of lowercase letters and hyphens that no escape starts. -/
structure Plain (words : List (List Char)) : Prop where
  inhabited : [] ∉ words
  letters : ∀ word ∈ words, word.all isWordSymbol = true
  escapes : ∀ code ∈ escapedCodes, Frame words (escapeText (Char.ofNat code))
  yes : Clean words ['t', 'r', 'u', 'e']
  no : Clean words ['f', 'a', 'l', 's', 'e']

theorem newline_blank (indent : Nat) : (lowercase (newline indent)).any isWordSymbol = false := by
  apply List.any_eq_false.mpr
  intro symbol found
  obtain ⟨own, member, rfl⟩ := List.mem_map.mp found
  rcases List.mem_cons.mp member with rfl | blank
  · decide
  · rw [List.eq_of_mem_replicate blank]
    decide

section Screen

variable {words : List (List Char)} (plain : Plain words)

include plain

/-- Punctuation and blanks stand between words. -/
theorem Plain.frame {piece : List Char} (nonempty : piece ≠ [])
    (punctuation : (lowercase piece).any isWordSymbol = false) : Frame words piece := by
  apply frame_of_forall_separates plain.inhabited nonempty
  intro symbol found word among occurs
  have letter := List.all_eq_true.mp (plain.letters word among) symbol occurs
  exact List.any_eq_false.mp punctuation symbol found letter

theorem Plain.clean_quotedText (text : String) :
    Clean words (quotedText text) ↔ Clean words text.toList := by
  have quote : Frame words ['"'] := plain.frame (by decide) (by decide)
  have table : ∀ code ∈ escapedCodes,
      (lowercase [Char.ofNat code]).any isWordSymbol = false := by
    decide
  have escapes : ∀ symbol, escapeText symbol ≠ [symbol] →
      Frame words [symbol] ∧ Frame words (escapeText symbol) := by
    intro symbol notRaw
    have member := mem_escapedCodes notRaw
    have punctuation := table symbol.toNat member
    have escape := plain.escapes symbol.toNat member
    rw [Char.ofNat_toNat] at punctuation escape
    exact ⟨plain.frame (List.cons_ne_nil _ _) punctuation, escape⟩
  change Clean words (['"'] ++ (text.toList.flatMap escapeText ++ ['"'])) ↔ _
  rw [clean_frame_append quote, clean_append_frame quote, clean_flatMap escapes]

theorem Plain.clean_enclosed {first last : Char} (opens : Frame words [first])
    (closes : Frame words [last]) (indent : Nat) (items : List (List Char)) :
    Clean words (enclosed first last indent items) ↔ ∀ item ∈ items, Clean words item := by
  have line : ∀ indent, Frame words (newline indent) :=
    fun indent => plain.frame (List.cons_ne_nil _ _) (newline_blank indent)
  unfold enclosed
  split
  · rename_i nothing
    rw [nothing]
    have brackets : Clean words ([first] ++ [last]) := (clean_frame_append opens).mpr closes.clean
    exact iff_of_true brackets (List.forall_mem_nil _)
  · have comma : Frame words (',' :: newline (indent + 1)) := by
      apply plain.frame (List.cons_ne_nil _ _)
      exact newline_blank (indent + 1)
    change Clean words ([first] ++ (newline (indent + 1) ++ (_ ++ (newline indent ++ [last])))) ↔ _
    rw [clean_frame_append opens, clean_frame_append (line (indent + 1)),
      clean_framed (line indent), clean_intercalate plain.inhabited comma]
    exact and_iff_left closes.clean

theorem Plain.clean_number (number : Nat) : Clean words number.repr.toList := by
  apply clean_repr plain.inhabited
  intro word found
  apply List.any_eq_false.mpr
  intro symbol among digit
  have letter := List.all_eq_true.mp (plain.letters word found) symbol among
  rw [isWordSymbol, Bool.or_eq_true, decide_eq_true_eq] at letter
  rcases letter with rfl | lower
  · cases digit
  · have lowest := of_decide_eq_true (Bool.and_eq_true_iff.mp lower).1
    have above : 97 ≤ symbol.toNat := UInt32.le_iff_toNat_le.mp lowest
    have below : symbol.toNat ≤ 57 := (Char.isDigit_iff_toNat.mp digit).2
    omega

end Screen

mutual

/-- **The screen over a whole document** finds what it finds in the strings and the keys. -/
theorem Plain.clean_pretty {words : List (List Char)} (plain : Plain words) (indent : Nat) :
    ∀ doc : Doc, Clean words (pretty indent doc) ↔ ∀ text ∈ texts doc, Clean words text.toList
  | .bool true => by
      rw [pretty, texts]
      exact iff_of_true plain.yes (List.forall_mem_nil _)
  | .bool false => by
      rw [pretty, texts]
      exact iff_of_true plain.no (List.forall_mem_nil _)
  | .number value => by
      rw [pretty, texts]
      exact iff_of_true (plain.clean_number value) (List.forall_mem_nil _)
  | .string text => by
      rw [pretty, texts, List.forall_mem_singleton]
      exact plain.clean_quotedText text
  | .sequence items => by
      have opens : Frame words ['['] := plain.frame (by decide) (by decide)
      have closes : Frame words [']'] := plain.frame (by decide) (by decide)
      rw [pretty, texts, plain.clean_enclosed opens closes]
      exact plain.clean_prettyItems (indent + 1) items
  | .struct fields => by
      have opens : Frame words ['\x7b'] := plain.frame (by decide) (by decide)
      have closes : Frame words ['\x7d'] := plain.frame (by decide) (by decide)
      rw [pretty, texts, plain.clean_enclosed opens closes]
      exact plain.clean_prettyFields (indent + 1) fields

theorem Plain.clean_prettyItems {words : List (List Char)} (plain : Plain words) (indent : Nat) :
    ∀ items : List Doc,
      (∀ item ∈ prettyItems indent items, Clean words item) ↔
        ∀ text ∈ textsOfItems items, Clean words text.toList
  | [] => by
      rw [prettyItems, textsOfItems]
      exact iff_of_true (List.forall_mem_nil _) (List.forall_mem_nil _)
  | item :: rest => by
      rw [prettyItems, textsOfItems, List.forall_mem_cons, List.forall_mem_append,
        plain.clean_pretty indent item, plain.clean_prettyItems indent rest]

theorem Plain.clean_prettyFields {words : List (List Char)} (plain : Plain words) (indent : Nat) :
    ∀ fields : List (String × Doc),
      (∀ item ∈ prettyFields indent fields, Clean words item) ↔
        ∀ text ∈ textsOfFields fields, Clean words text.toList
  | [] => by
      rw [prettyFields, textsOfFields]
      exact iff_of_true (List.forall_mem_nil _) (List.forall_mem_nil _)
  | (key, value) :: rest => by
      have colon : Frame words [':', ' '] := plain.frame (by decide) (by decide)
      rw [prettyFields, textsOfFields, List.forall_mem_cons, List.forall_mem_cons,
        List.forall_mem_append, clean_framed colon, plain.clean_quotedText,
        plain.clean_pretty indent value, plain.clean_prettyFields indent rest, and_assoc]

end

end Json
end SkPqc.Library

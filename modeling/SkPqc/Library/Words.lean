import Mathlib.Data.List.Infix

/-!
# Words in texts

A screen looks for some words in a text without regard to the case of ASCII
letters. A text that is put together from parts is clean exactly when its parts are,
as long as a symbol that is in none of the words stands on one side of each seam.

A template is such a text: fixed pieces with inserted ones between them. A fixed
piece is a frame when it is clean, starts with such a symbol, and no word begins at its
end. Frames keep the insertions apart, so only an insertion can make the text unclean
(`clean_framed`). An escaped text is screened as the raw one when the escapes are frames
(`clean_flatMap`).
-/

set_option autoImplicit false

namespace SkPqc.Library

/-- The text with its ASCII letters in lowercase. -/
def lowercase (text : List Char) : List Char := text.map Char.toLower

theorem lowercase_append (first second : List Char) :
    lowercase (first ++ second) = lowercase first ++ lowercase second := List.map_append

/-- None of the words, which are in lowercase, occurs in the text in whatever case. -/
def Clean (words : List (List Char)) (text : List Char) : Prop :=
  ∀ word ∈ words, ¬ word <:+: lowercase text

/-- The symbol is in none of the words. -/
def Separates (words : List (List Char)) (symbol : Char) : Prop := ∀ word ∈ words, symbol ∉ word

/-- The piece of text is clean, and no word goes beyond its ends. -/
structure Frame (words : List (List Char)) (piece : List Char) : Prop where
  inhabited : piece ≠ []
  starts : ∀ symbol ∈ (lowercase piece).head?, Separates words symbol
  ends : ∀ word ∈ words, ∀ front ∈ word.inits, front <:+ lowercase piece → front = []
  clean : Clean words piece

section Decidability

variable (words : List (List Char))

instance (text : List Char) : Decidable (Clean words text) :=
  inferInstanceAs (Decidable (∀ _ ∈ _, _))

instance (symbol : Char) : Decidable (Separates words symbol) :=
  inferInstanceAs (Decidable (∀ _ ∈ _, _))

/-- The first symbol of a frame is checked alone: no instance may go through all of
`Char`. -/
instance (piece : List Char) : Decidable (Frame words piece) :=
  decidable_of_iff (piece ≠ [] ∧
      ((lowercase piece).head?.all fun symbol => Separates words symbol) = true ∧
      (∀ word ∈ words, ∀ front ∈ word.inits, front <:+ lowercase piece → front = []) ∧
      Clean words piece)
    ⟨fun all => ⟨all.1, by simpa [Option.all_eq_true] using all.2.1, all.2.2.1, all.2.2.2⟩,
      fun frame => ⟨frame.inhabited, by simpa [Option.all_eq_true] using frame.starts, frame.ends,
        frame.clean⟩⟩

end Decidability

section Seams

variable {words : List (List Char)} {first second : List Char}

theorem clean_nil (inhabited : [] ∉ words) : Clean words [] := by
  intro word found occurs
  rw [List.infix_nil.mp occurs] at found
  exact inhabited found

/-- A text is clean when both its parts are and no word spans the seam. -/
theorem clean_append (uncut : ∀ front back, front ++ back ∈ words → front ≠ [] → back ≠ [] →
      front <:+ lowercase first → ¬ back <+: lowercase second) :
    Clean words (first ++ second) ↔ Clean words first ∧ Clean words second := by
  have split : ∀ word ∈ words, (¬ word <:+: lowercase (first ++ second)) ↔
      ¬ word <:+: lowercase first ∧ ¬ word <:+: lowercase second := by
    intro word found
    rw [lowercase_append, List.infix_append_iff_ne_nil, ← not_or]
    refine not_congr ⟨?_, ?_⟩
    · rintro (inFirst | inSecond | ⟨front, back, hasFront, hasBack, rfl, ends, starts⟩)
      · exact .inl inFirst
      · exact .inr inSecond
      · exact absurd starts (uncut front back found hasFront hasBack ends)
    · rintro (inFirst | inSecond)
      · exact .inl inFirst
      · exact .inr (.inl inSecond)
  constructor
  · intro clean
    exact ⟨fun word found => ((split word found).mp (clean word found)).1,
      fun word found => ((split word found).mp (clean word found)).2⟩
  · intro both word found
    exact (split word found).mpr ⟨both.1 word found, both.2 word found⟩

/-- No word spans a seam behind which a separating symbol stands. -/
theorem clean_append_of_head
    (separates : ∀ symbol ∈ (lowercase second).head?, Separates words symbol) :
    Clean words (first ++ second) ↔ Clean words first ∧ Clean words second := by
  apply clean_append
  intro front back found _ hasBack _ starts
  cases back with
  | nil => exact hasBack rfl
  | cons symbol rest =>
      obtain ⟨behind, same⟩ := starts
      apply separates symbol ?_ _ found (List.mem_append_right front List.mem_cons_self)
      rw [← same]
      rfl

/-- A frame separates what it starts. -/
theorem Frame.starts_append {piece : List Char} (frame : Frame words piece) :
    ∀ symbol ∈ (lowercase (piece ++ second)).head?, Separates words symbol := by
  have head : (lowercase (piece ++ second)).head? = (lowercase piece).head? := by
    cases shape : piece with
    | nil => exact absurd shape frame.inhabited
    | cons symbol rest => rfl
  rw [head]
  exact frame.starts

theorem clean_frame_append {piece : List Char} (frame : Frame words piece) :
    Clean words (piece ++ second) ↔ Clean words second := by
  have seam : Clean words (piece ++ second) ↔ Clean words piece ∧ Clean words second := by
    apply clean_append
    intro front back found hasFront _ ends _
    have begins : front ∈ (front ++ back).inits :=
      (List.mem_inits _ _).mpr (List.prefix_append front back)
    exact hasFront (frame.ends _ found front begins ends)
  rw [seam]
  exact and_iff_right frame.clean

theorem clean_append_frame {piece : List Char} (frame : Frame words piece) :
    Clean words (first ++ piece) ↔ Clean words first := by
  rw [clean_append_of_head frame.starts]
  exact and_iff_left frame.clean

/-- **A frame keeps what stands around it apart.** -/
theorem clean_framed {piece : List Char} (frame : Frame words piece) :
    Clean words (first ++ (piece ++ second)) ↔ Clean words first ∧ Clean words second := by
  rw [clean_append_of_head frame.starts_append, clean_frame_append frame]

/-- A text of symbols that the words lack is clean. -/
theorem clean_of_forall_separates (inhabited : [] ∉ words) {text : List Char}
    (separates : ∀ symbol ∈ lowercase text, Separates words symbol) : Clean words text := by
  intro word found occurs
  cases word with
  | nil => exact inhabited found
  | cons symbol rest =>
      exact separates symbol (occurs.subset List.mem_cons_self) _ found List.mem_cons_self

theorem frame_of_forall_separates (inhabited : [] ∉ words) {text : List Char}
    (nonempty : text ≠ []) (separates : ∀ symbol ∈ lowercase text, Separates words symbol) :
    Frame words text where
  inhabited := nonempty
  starts symbol first := separates symbol (List.mem_of_head? first)
  ends word found front begins ends := by
    cases front with
    | nil => rfl
    | cons symbol rest =>
        have inWord : symbol ∈ word := ((List.mem_inits _ _).mp begins).subset List.mem_cons_self
        exact absurd inWord (separates symbol (ends.subset List.mem_cons_self) word found)
  clean := clean_of_forall_separates inhabited separates

/-- A decimal number has no letter. -/
theorem clean_repr (inhabited : [] ∉ words)
    (letters : ∀ word ∈ words, word.any Char.isDigit = false) (number : Nat) :
    Clean words number.repr.toList := by
  apply clean_of_forall_separates inhabited
  intro symbol found word among occurs
  obtain ⟨digit, member, rfl⟩ := List.mem_map.mp found
  rw [Nat.toList_repr] at member
  have isDigit : digit.isDigit = true := Nat.isDigit_of_mem_toDigits (by decide) (by decide) member
  have small : digit.toLower = digit := by
    unfold Char.toLower
    apply dif_neg
    rintro ⟨above, -⟩
    have below : digit.toNat ≤ 57 := (Char.isDigit_iff_toNat.mp isDigit).2
    have above : 65 ≤ digit.toNat := UInt32.le_iff_toNat_le.mp above
    omega
  rw [small] at occurs
  exact List.any_eq_false.mp (letters word among) digit occurs isDigit

/-- Between the items of a list stand frames. -/
theorem clean_intercalate (inhabited : [] ∉ words) {piece : List Char} (frame : Frame words piece)
    (items : List (List Char)) :
    Clean words (List.intercalate piece items) ↔ ∀ item ∈ items, Clean words item := by
  induction items with
  | nil => exact iff_of_true (clean_nil inhabited) (List.forall_mem_nil _)
  | cons item rest ih =>
      rw [List.forall_mem_cons]
      cases rest with
      | nil => simp
      | cons next rest =>
          rw [List.intercalate_cons_cons, List.append_assoc, clean_framed frame, ih]

/-- **Escapes do not matter to the screen**, when they are frames and so are the symbols
they stand for. -/
theorem clean_flatMap {escape : Char → List Char}
    (escapes : ∀ symbol, escape symbol ≠ [symbol] →
      Frame words [symbol] ∧ Frame words (escape symbol)) (text : List Char) :
    Clean words (text.flatMap escape) ↔ Clean words text := by
  -- the raw text in front may hold the beginning of a word
  have behind : ∀ front, Clean words (front ++ text.flatMap escape) ↔
      Clean words (front ++ text) := by
    induction text with
    | nil => exact fun front => Iff.rfl
    | cons symbol rest ih =>
        intro front
        rw [List.flatMap_cons]
        by_cases raw : escape symbol = [symbol]
        · rw [raw, ← List.append_assoc, ih (front ++ [symbol]), List.append_assoc]
          rfl
        · obtain ⟨frame, escaped⟩ := escapes symbol raw
          have restClean := ih []
          rw [List.nil_append, List.nil_append] at restClean
          rw [clean_framed escaped, restClean]
          exact (clean_framed frame).symm
  exact behind []

/-! A literal is screened by its characters. -/

theorem clean_literal {chars : List Char} (clean : Clean words chars) :
    Clean words (String.ofList chars).toList := by
  rw [String.toList_ofList]
  exact clean

/-- A template that ends in a literal. -/
theorem clean_append_literal {chars : List Char} (frame : Frame words chars) :
    Clean words (first ++ (String.ofList chars).toList) ↔ Clean words first := by
  rw [String.toList_ofList, clean_append_frame frame]

/-- A literal in the middle of a template. -/
theorem clean_framed_literal {chars : List Char} (frame : Frame words chars) :
    Clean words (first ++ (String.ofList chars).toList ++ second) ↔
      Clean words first ∧ Clean words second := by
  rw [String.toList_ofList, List.append_assoc, clean_framed frame]

end Seams

end SkPqc.Library

import SkPqc.Library.JsonRoundTrip

/-!
# The layout of compact JSON

What holds of the pieces of a compact text, and of pieces put together, holds of the
text (`holds_text`). So the bytes of a text are printable when those of the escapes
are, and no white space stands outside its strings: a scanner that knows where it is
in a text sees what stands outside (`Mode`).

A text is at least as long as its nesting is deep, so the parser needs no limit on
the nesting but the length of the text (`readUnlimited_text`).
-/

set_option autoImplicit false

namespace SkPqc.Library
namespace Json

/-! ## Properties of texts -/

/-- A property of the pieces of a compact text that putting them together keeps. -/
structure HoldsOfPieces (escape : Char → Bytes) (holds : Bytes → Prop) : Prop where
  nil : holds []
  append : ∀ {front back}, holds front → holds back → holds (front ++ back)
  structural : ∀ symbol ∈ [0x2c, 0x3a, 0x5b, 0x5d, 0x7b, 0x7d], holds [symbol]
  literal : ∀ word ∈ [utf8 "null", utf8 "true", utf8 "false"], holds word
  digits : ∀ text, (∀ symbol ∈ text, isDigit symbol = true ∨ symbol = 0x2d) → holds text
  quoted : ∀ text, holds (quoted escape text)

/-- A property of the members of a list, checked member by member. -/
theorem forall_mem_of_all {α : Type} {holds : α → Prop} [DecidablePred holds] {list : List α}
    (checked : (list.all fun member => decide (holds member)) = true) :
    ∀ member ∈ list, holds member := by
  intro member found
  exact of_decide_eq_true (List.all_eq_true.mp checked member found)

/-- A decimal consists of digits. -/
theorem isDigit_of_mem_repr {number : Nat} {symbol : UInt8} (found : symbol ∈ utf8 number.repr) :
    isDigit symbol = true := by
  obtain ⟨first, tail, bytes, lead, digits, -, -⟩ := exists_digits number
  rw [bytes] at found
  rcases List.mem_cons.mp found with rfl | later
  · exact lead
  · exact digits symbol later

section Pieces

variable {escape : Char → Bytes} {holds : Bytes → Prop} {text : Value → Bytes}

theorem HoldsOfPieces.behind (pieces : HoldsOfPieces escape holds) {items : List Bytes}
    (each : ∀ item ∈ items, holds item) : holds (behind items) := by
  induction items with
  | nil => exact pieces.nil
  | cons item rest ih =>
      have comma : holds [0x2c] := pieces.structural 0x2c (by decide)
      have front := pieces.append comma (each item List.mem_cons_self)
      exact pieces.append front (ih fun later found => each later (List.mem_cons_of_mem _ found))

theorem HoldsOfPieces.intercalate (pieces : HoldsOfPieces escape holds) {items : List Bytes}
    (each : ∀ item ∈ items, holds item) : holds (List.intercalate [0x2c] items) := by
  cases items with
  | nil => exact pieces.nil
  | cons item rest =>
      rw [intercalate_comma]
      apply pieces.append
      · exact each item List.mem_cons_self
      · exact pieces.behind fun later found => each later (List.mem_cons_of_mem _ found)

/-- **What holds of the pieces holds of the text.** -/
theorem holds_text (pieces : HoldsOfPieces escape holds) (writes : WritesCompact escape text)
    {value : Value} (integral : Integral value) : holds (text value) := by
  induction integral with
  | null =>
      rw [writes.null]
      exact pieces.literal _ (by decide)
  | bool value =>
      rw [writes.bool]
      cases value with
      | false => exact pieces.literal _ (by decide)
      | true => exact pieces.literal _ (by decide)
  | posInt value =>
      rw [writes.posInt]
      exact pieces.digits _ fun symbol found => .inl (isDigit_of_mem_repr found)
  | negInt value negative =>
      rw [writes.negInt]
      apply pieces.digits
      intro symbol found
      rw [utf8, String.toList_append, List.flatMap_append] at found
      rcases List.mem_append.mp found with sign | digit
      · exact .inr (List.mem_singleton.mp sign)
      · exact .inl (isDigit_of_mem_repr digit)
  | string value =>
      rw [writes.string]
      exact pieces.quoted value
  | array values integral ih =>
      rw [writes.array]
      have inner : holds (List.intercalate [0x2c] (values.map text)) := by
        apply pieces.intercalate
        intro item found
        obtain ⟨value, member, rfl⟩ := List.mem_map.mp found
        exact ih value member
      have opened := pieces.append (pieces.structural 0x5b (by decide)) inner
      exact pieces.append opened (pieces.structural 0x5d (by decide))
  | object members sorted integral ih =>
      rw [writes.object members sorted]
      have inner : holds (List.intercalate [0x2c] (members.map fun member =>
          Json.quoted escape member.1 ++ [0x3a] ++ text member.2)) := by
        apply pieces.intercalate
        intro item found
        obtain ⟨member, there, rfl⟩ := List.mem_map.mp found
        have key := pieces.append (pieces.quoted member.1) (pieces.structural 0x3a (by decide))
        exact pieces.append key (ih member there)
      have opened := pieces.append (pieces.structural 0x7b (by decide)) inner
      exact pieces.append opened (pieces.structural 0x7d (by decide))

end Pieces

/-! ## Printable texts -/

/-- Every byte is a printable ASCII character, the space included. -/
def Printable (text : Bytes) : Prop := ∀ symbol ∈ text, 0x20 ≤ symbol.toNat ∧ symbol.toNat ≤ 0x7e

instance (text : Bytes) : Decidable (Printable text) := List.decidableBAll _ text

theorem Printable.append {front back : Bytes} (first : Printable front) (second : Printable back) :
    Printable (front ++ back) := by
  intro symbol found
  rcases List.mem_append.mp found with early | late
  · exact first symbol early
  · exact second symbol late

theorem Printable.flatMap {escape : Char → Bytes} (printable : ∀ ch, Printable (escape ch))
    (chars : List Char) : Printable (chars.flatMap escape) := by
  intro symbol found
  obtain ⟨ch, -, inside⟩ := List.mem_flatMap.mp found
  exact printable ch symbol inside

/-- A text is printable when its escapes are. -/
theorem printable_pieces {escape : Char → Bytes} (printable : ∀ ch, Printable (escape ch)) :
    HoldsOfPieces escape Printable where
  nil := by decide
  append := Printable.append
  structural := forall_mem_of_all (by decide)
  literal := forall_mem_of_all (by decide)
  digits text digits := by
    intro symbol found
    rcases digits symbol found with digit | rfl
    · simp only [isDigit, Bool.and_eq_true, decide_eq_true_eq, UInt8.le_iff_toNat_le] at digit
      exact ⟨Nat.le_trans (by decide) digit.1, Nat.le_trans digit.2 (by decide)⟩
    · decide
  quoted text := by
    have body := Printable.flatMap printable text.toList
    exact (Printable.append (by decide) body).append (by decide)

/-! ## What stands outside strings -/

/-- Where a scanner is in a text: outside strings, inside one, or behind a backslash
in one. -/
inductive Mode where
  | outside
  | inside
  | escaped
  deriving DecidableEq, Repr

/-- Where the scanner is behind the next byte. -/
def Mode.next : Mode → UInt8 → Mode
  | .outside, symbol => if symbol = 0x22 then .inside else .outside
  | .inside, symbol =>
      if symbol = 0x22 then .outside else if symbol = 0x5c then .escaped else .inside
  | .escaped, _ => .inside

/-- Where the scanner is behind a text. -/
def Mode.behind (mode : Mode) (text : Bytes) : Mode := text.foldl Mode.next mode

/-- The bytes of a text that the scanner meets outside strings. An opening quote is one
of them. -/
def outsideFrom (mode : Mode) : Bytes → Bytes
  | [] => []
  | symbol :: rest =>
      (if mode = .outside then [symbol] else []) ++ outsideFrom (mode.next symbol) rest

/-- The bytes of a text outside its strings. -/
def outsideStrings (text : Bytes) : Bytes := outsideFrom .outside text

theorem Mode.behind_append (mode : Mode) (front back : Bytes) :
    mode.behind (front ++ back) = (mode.behind front).behind back := List.foldl_append ..

theorem outsideFrom_append (mode : Mode) (front back : Bytes) :
    outsideFrom mode (front ++ back) =
      outsideFrom mode front ++ outsideFrom (mode.behind front) back := by
  induction front generalizing mode with
  | nil => rfl
  | cons symbol rest ih =>
      rw [List.cons_append, outsideFrom, ih, outsideFrom, List.append_assoc]
      rfl

/-- No white space stands outside the strings of the text, and every string in it is
closed. -/
structure Tight (text : Bytes) : Prop where
  closed : Mode.outside.behind text = .outside
  noSpace : ∀ symbol ∈ outsideStrings text, isSpace symbol = false

theorem Tight.append {front back : Bytes} (first : Tight front) (second : Tight back) :
    Tight (front ++ back) where
  closed := by rw [Mode.behind_append, first.closed, second.closed]
  noSpace symbol found := by
    rw [outsideStrings, outsideFrom_append, first.closed] at found
    rcases List.mem_append.mp found with early | late
    · exact first.noSpace symbol early
    · exact second.noSpace symbol late

/-- A text without quotes is outside strings. -/
theorem Tight.plain {text : Bytes}
    (plain : ∀ symbol ∈ text, symbol ≠ 0x22 ∧ isSpace symbol = false) : Tight text := by
  induction text with
  | nil => exact ⟨rfl, fun symbol found => by cases found⟩
  | cons symbol rest ih =>
      obtain ⟨noQuote, noSpace⟩ := plain symbol List.mem_cons_self
      have others := ih fun later found => plain later (List.mem_cons_of_mem _ found)
      have stays : Mode.outside.next symbol = .outside := if_neg noQuote
      have single : Tight [symbol] := by
        constructor
        · exact stays
        · intro found there
          rw [List.mem_singleton.mp there]
          exact noSpace
      exact single.append others

theorem isSpace_of_isDigit {symbol : UInt8} (digit : isDigit symbol = true) :
    isSpace symbol = false := by
  rw [Bool.eq_false_iff]
  intro space
  simp only [isSpace, Bool.or_eq_true, decide_eq_true_eq] at space
  rcases space with ((rfl | rfl) | rfl) | rfl
  · cases digit
  · cases digit
  · cases digit
  · cases digit

/-- Without quotes and backslashes the scanner stays inside a string. -/
theorem inside_plain {text : Bytes} (plain : ∀ symbol ∈ text, symbol ≠ 0x22 ∧ symbol ≠ 0x5c) :
    Mode.inside.behind text = .inside ∧ outsideFrom .inside text = [] := by
  induction text with
  | nil => exact ⟨rfl, rfl⟩
  | cons symbol rest ih =>
      obtain ⟨noQuote, noBackslash⟩ := plain symbol List.mem_cons_self
      have stays : Mode.inside.next symbol = .inside := by
        rw [Mode.next, if_neg noQuote, if_neg noBackslash]
      obtain ⟨inside, hidden⟩ := ih fun later found => plain later (List.mem_cons_of_mem _ found)
      constructor
      · rw [Mode.behind, List.foldl_cons, stays]
        exact inside
      · rw [outsideFrom, stays, hidden]
        rfl

/-- The escape of a character stays inside its string. -/
def StaysInside (escape : Char → Bytes) : Prop :=
  ∀ ch, Mode.inside.behind (escape ch) = .inside ∧ outsideFrom .inside (escape ch) = []

theorem StaysInside.flatMap {escape : Char → Bytes} (stays : StaysInside escape)
    (chars : List Char) :
    Mode.inside.behind (chars.flatMap escape) = .inside ∧
      outsideFrom .inside (chars.flatMap escape) = [] := by
  induction chars with
  | nil => exact ⟨rfl, rfl⟩
  | cons ch rest ih =>
      obtain ⟨inside, hidden⟩ := stays ch
      rw [List.flatMap_cons, Mode.behind_append, outsideFrom_append, inside, hidden]
      exact ih

/-- A text is tight when its escapes stay inside. -/
theorem tight_pieces {escape : Char → Bytes} (stays : StaysInside escape) :
    HoldsOfPieces escape Tight where
  nil := Tight.plain (List.forall_mem_nil _)
  append := Tight.append
  structural symbol found := by
    have plain : ∀ symbol ∈ [0x2c, 0x3a, 0x5b, 0x5d, 0x7b, 0x7d],
        symbol ≠ 0x22 ∧ isSpace symbol = false := forall_mem_of_all (by decide)
    apply Tight.plain
    intro other same
    rw [List.mem_singleton.mp same]
    exact plain symbol found
  literal word found := by
    have letters : ∀ word ∈ [utf8 "null", utf8 "true", utf8 "false"],
        (word.all fun symbol => decide (symbol ≠ 0x22 ∧ isSpace symbol = false)) = true :=
      forall_mem_of_all (by decide)
    exact Tight.plain (forall_mem_of_all (letters word found))
  digits text digits := by
    apply Tight.plain
    intro symbol found
    rcases digits symbol found with digit | rfl
    · refine ⟨?_, isSpace_of_isDigit digit⟩
      rintro rfl
      cases digit
    · decide
  quoted text := by
    obtain ⟨inside, hidden⟩ := stays.flatMap text.toList
    constructor
    · rw [quoted, Mode.behind_append, Mode.behind_append]
      change (Mode.inside.behind _).behind _ = _
      rw [inside]
      rfl
    · intro symbol found
      have body : outsideFrom .inside (text.toList.flatMap escape ++ [0x22]) = [] := by
        rw [outsideFrom_append, hidden, inside]
        rfl
      have opening : symbol ∈ [0x22] ++
          outsideFrom .inside (text.toList.flatMap escape ++ [0x22]) := by
        rwa [quoted, List.append_assoc] at found
      rw [body, List.append_nil, List.mem_singleton] at opening
      rw [opening]
      rfl

/-! ## Nesting and length -/

/-- An item is shorter than what it is enclosed in. -/
theorem length_lt_enclosed {items : List Bytes} {item : Bytes} (found : item ∈ items)
    (opening closing : UInt8) :
    item.length < ([opening] ++ List.intercalate [0x2c] items ++ [closing]).length := by
  have inside : item.length ≤ (List.intercalate [0x2c] items).length := by
    induction items with
    | nil => cases found
    | cons first rest ih =>
        cases rest with
        | nil =>
            rw [List.intercalate_singleton, List.mem_singleton.mp found]
        | cons second others =>
            rw [List.intercalate_cons_cons, List.length_append, List.length_append]
            rcases List.mem_cons.mp found with rfl | later
            · exact Nat.le_trans (Nat.le_add_right _ _) (Nat.le_add_right _ _)
            · exact Nat.le_trans (ih later) (Nat.le_add_left _ _)
  simp only [List.length_append, List.length_singleton]
  omega

/-- **A text is at least as long as its nesting is deep.** -/
theorem depth_le_length {escape : Char → Bytes} {text : Value → Bytes}
    (writes : WritesCompact escape text) {value : Value} (integral : Integral value) :
    depth value ≤ (text value).length := by
  induction integral with
  | null => exact Nat.zero_le _
  | bool value => exact Nat.zero_le _
  | posInt value => exact Nat.zero_le _
  | negInt value negative => exact Nat.zero_le _
  | string value => exact Nat.zero_le _
  | array values integral ih =>
      rw [writes.array, depth]
      have inner : depthOfValues values ≤ (bracketed (values.map text)).length - 1 := by
        apply depthOfValues_le.mpr
        intro value found
        have shorter : (text value).length < (bracketed (values.map text)).length :=
          length_lt_enclosed (List.mem_map_of_mem found) 0x5b 0x5d
        exact Nat.le_trans (ih value found) (Nat.le_pred_of_lt shorter)
      have some : 0 < (bracketed (values.map text)).length := by simp [bracketed]
      omega
  | object members sorted integral ih =>
      rw [writes.object members sorted, depth]
      generalize shape : (members.map fun member =>
        quoted escape member.1 ++ [0x3a] ++ text member.2) = items
      have inner : depthOfMembers members ≤ (braced items).length - 1 := by
        apply depthOfMembers_le.mpr
        intro member found
        have item : quoted escape member.1 ++ [0x3a] ++ text member.2 ∈ items := by
          rw [← shape]
          exact List.mem_map_of_mem found
        have shorter := length_lt_enclosed item 0x7b 0x7d
        rw [List.length_append] at shorter
        have whole : (text member.2).length < (braced items).length :=
          Nat.lt_of_le_of_lt (Nat.le_add_left _ _) shorter
        exact Nat.le_trans (ih member found) (Nat.le_pred_of_lt whole)
      have some : 0 < (braced items).length := by simp [braced]
      omega

/-- The reference parser without a limit on the nesting: the value that a text starts
with, and what stands behind it. -/
def readUnlimited (decimalOf : Bytes → Option Number) (text : Bytes) : Option (Value × Bytes) :=
  (Json.value decimalOf text.length).run text

/-- **A text is read as its value**, up to its end and however deep it is nested. -/
theorem readUnlimited_text (decimalOf : Bytes → Option Number) {escape : Char → Bytes}
    {text : Value → Bytes} (writes : WritesCompact escape text) (faithful : Faithful escape)
    {value : Value} (integral : Integral value) :
    readUnlimited decimalOf (text value) = some (value, []) :=
  run_value_text decimalOf writes faithful integral (depth_le_length writes integral)

end Json
end SkPqc.Library

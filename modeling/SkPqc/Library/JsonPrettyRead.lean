import SkPqc.Library.JsonPretty
import SkPqc.Library.JsonRoundTrip

/-!
# What is written for people is read back

The pretty writer stands every item on a line of its own. A reader skips white space in
front of a symbol, so a spaced sequence is read as the compact one would be
(`run_spaced`), and the text of a document is read as the value that the document stands
for (`parse_pretty`).
-/

set_option autoImplicit false

namespace SkPqc.Library
namespace Json

open Reader

/-! ## The value of a document -/

mutual

/-- The value that a document stands for. -/
def valueOf : Doc → Value
  | .bool value => .bool value
  | .number value => .number (.posInt (UInt64.ofNat value))
  | .string text => .string text
  | .sequence items => .array (valuesOf items)
  | .struct fields => .object (collectMembers (membersOf fields))

def valuesOf : List Doc → List Value
  | [] => []
  | item :: rest => valueOf item :: valuesOf rest

def membersOf : List (String × Doc) → List (String × Value)
  | [] => []
  | (key, value) :: rest => (key, valueOf value) :: membersOf rest

end

theorem valuesOf_eq_map (items : List Doc) : valuesOf items = items.map valueOf := by
  induction items with
  | nil => rfl
  | cons item rest ih => rw [valuesOf, List.map_cons, ih]

theorem membersOf_eq_map (fields : List (String × Doc)) :
    membersOf fields = fields.map fun field => (field.1, valueOf field.2) := by
  induction fields with
  | nil => rfl
  | cons field rest ih => rw [membersOf, List.map_cons, ih]

theorem prettyItems_eq_map (indent : Nat) (items : List Doc) :
    prettyItems indent items = items.map (pretty indent) := by
  induction items with
  | nil => rfl
  | cons item rest ih => rw [prettyItems, List.map_cons, ih]

theorem prettyFields_eq_map (indent : Nat) (fields : List (String × Doc)) :
    prettyFields indent fields =
      fields.map fun field => quotedText field.1 ++ ([':', ' '] ++ pretty indent field.2) := by
  induction fields with
  | nil => rfl
  | cons field rest ih => rw [prettyFields, List.map_cons, ih]

/-- The numbers of a document fit a word, and its sequences and structures are nested no
deeper than the room. -/
inductive Within : Nat → Doc → Prop where
  | bool (room : Nat) (value : Bool) : Within room (.bool value)
  | number (room : Nat) {value : Nat} (small : value < 2 ^ 64) : Within room (.number value)
  | string (room : Nat) (text : String) : Within room (.string text)
  | sequence {room : Nat} {items : List Doc} (within : ∀ item ∈ items, Within room item) :
      Within (room + 1) (.sequence items)
  | struct {room : Nat} {fields : List (String × Doc)}
      (within : ∀ field ∈ fields, Within room field.2) : Within (room + 1) (.struct fields)

/-! ## The bytes of the text -/

/-- The bytes of some characters. -/
def encoded (chars : List Char) : Bytes := chars.flatMap String.utf8EncodeChar

theorem utf8_ofList (chars : List Char) : utf8 (String.ofList chars) = encoded chars := by
  rw [utf8, String.toList_ofList, encoded]

theorem encoded_append (chars chars' : List Char) :
    encoded (chars ++ chars') = encoded chars ++ encoded chars' := List.flatMap_append

theorem encoded_intercalate (separator : List Char) (items : List (List Char)) :
    encoded (List.intercalate separator items) =
      List.intercalate (encoded separator) (items.map encoded) := by
  induction items with
  | nil => rfl
  | cons item rest ih =>
      cases rest with
      | nil => simp [List.intercalate]
      | cons next others =>
          rw [List.intercalate_cons_cons, encoded_append, encoded_append, ih]
          simp only [List.map_cons, List.intercalate_cons_cons]

/-- The pretty writer escapes as the compact one does. -/
theorem encoded_escapeText (ch : Char) : encoded (escapeText ch) = escapeChar ch := by
  have hex : ∀ code : Fin 32,
      encoded ['\\', 'u', '0', '0', Nat.digitChar (code.val / 16), Nat.digitChar (code.val % 16)] =
        unitEscape code.val := by decide +kernel
  unfold escapeText escapeChar
  -- The characters with a short escape, in the order of both writers.
  iterate 7
    split
    · rfl
  split
  · rename_i control
    exact hex ⟨ch.toNat, control⟩
  · simp [encoded]

theorem encoded_quotedText (text : String) :
    encoded (quotedText text) = quoted escapeChar text := by
  have escapes : encoded (text.toList.flatMap escapeText) = text.toList.flatMap escapeChar := by
    rw [encoded, List.flatMap_assoc]
    apply List.flatMap_congr
    intro ch _
    exact encoded_escapeText ch
  have whole : quotedText text = ['"'] ++ text.toList.flatMap escapeText ++ ['"'] := rfl
  rw [whole, encoded_append, encoded_append, escapes]
  rfl

/-! ## Sequences with white space -/

/-- White space, as it stands between the symbols of a text. -/
def IsGap (gap : Bytes) : Prop := ∀ symbol ∈ gap, isSpace symbol = true

theorem isGap_newline (indent : Nat) : IsGap (encoded (newline indent)) := by
  intro symbol found
  obtain ⟨ch, among, own⟩ := List.mem_flatMap.mp found
  rcases List.mem_cons.mp among with rfl | blank
  · rw [show String.utf8EncodeChar '\n' = [0x0a] from rfl, List.mem_singleton] at own
    rw [own]
    rfl
  · rw [List.eq_of_mem_replicate blank, show String.utf8EncodeChar ' ' = [0x20] from rfl,
      List.mem_singleton] at own
    rw [own]
    rfl

/-- The next symbol stands behind the white space. -/
theorem run_symbol_gap {gap : Bytes} (spaces : IsGap gap) {lead : UInt8}
    (visible : isSpace lead = false) (tail : Bytes) :
    symbol.run (gap ++ lead :: tail) = some (lead, tail) := by
  change byte.run ((gap ++ lead :: tail).dropWhile isSpace) = _
  rw [List.dropWhile_append_of_pos spaces]
  exact run_symbol visible tail

/-- White space goes on with no number. -/
theorem stops_gap {gap : Bytes} (spaces : IsGap gap) {rest : Bytes} (stops : Stops rest) :
    Stops (gap ++ rest) := by
  cases gap with
  | nil => exact stops
  | cons symbol others =>
      refine stops_cons ?_ _
      have space := spaces symbol List.mem_cons_self
      simp only [isSpace, Bool.or_eq_true, decide_eq_true_eq] at space
      rcases space with ((rfl | rfl) | rfl) | rfl
      all_goals rfl

/-- A member with white space behind the colon is read back when its value is. -/
theorem readBack_member_gap {escape : Char → Bytes} (faithful : Faithful escape)
    {valueFrom : UInt8 → Reader Value} {key : String} {gap bytes : Bytes} {value : Value}
    (spaces : IsGap gap) (read : ReadBack valueFrom bytes value) :
    ReadBack (memberFrom valueFrom) (quoted escape key ++ 0x3a :: (gap ++ bytes))
      (key, value) := by
  obtain ⟨lead, tail, rfl, opens, readValue⟩ := read
  refine ⟨0x22, key.toList.flatMap escape ++ 0x22 :: 0x3a :: (gap ++ lead :: tail), ?_, rfl, ?_⟩
  · simp [quoted, List.append_assoc]
  · intro rest stops
    have shape : key.toList.flatMap escape ++ 0x22 :: 0x3a :: (gap ++ lead :: tail) ++ rest =
        key.toList.flatMap escape ++ 0x22 :: (0x3a :: (gap ++ lead :: (tail ++ rest))) := by simp
    rw [shape, memberFrom, if_pos rfl, run_bind_of_run (run_stringBody faithful key _),
      run_bind_of_run (run_symbol rfl _), if_pos rfl,
      run_bind_of_run (run_symbol_gap spaces (isSpace_of_opensItem opens) _),
      run_bind_of_run (readValue rest stops)]
    rfl

section Spaced

variable {α : Type} {item : UInt8 → Reader α} {close : UInt8} {gap last : Bytes}

/-- Items with a comma and white space in front of each. -/
def spacedBehind (gap : Bytes) (texts : List Bytes) : Bytes :=
  texts.flatMap fun text => 0x2c :: (gap ++ text)

theorem length_le_spacedBehind (texts : List Bytes) :
    texts.length ≤ (spacedBehind gap texts).length := by
  induction texts with
  | nil => exact Nat.le_refl 0
  | cons text rest ih =>
      rw [spacedBehind, List.flatMap_cons, List.length_append, List.length_cons, List.length_cons,
        ← spacedBehind]
      omega

theorem intercalate_spaced (text : Bytes) (texts : List Bytes) :
    List.intercalate (0x2c :: gap) (text :: texts) = text ++ spacedBehind gap texts := by
  induction texts generalizing text with
  | nil => simp [spacedBehind]
  | cons next rest ih =>
      rw [List.intercalate_cons_cons, ih next]
      simp [spacedBehind]

/-- The items from the first one on are read back, up to the closing symbol. -/
theorem run_items_spaced (spaces : IsGap gap) (spaces' : IsGap last)
    (closes : close = 0x5d ∨ close = 0x7d) {texts : List Bytes} {values : List α}
    (others : List.Forall₂ (ReadBack item) texts values) {text : Bytes} {value : α}
    (first : ReadBack item text value) {fuel : Nat} (enough : texts.length < fuel) :
    ∃ lead tail, text = lead :: tail ∧ opensItem lead = true ∧
      ∀ rest, (items item close fuel lead).run
          (tail ++ (spacedBehind gap texts ++ (last ++ close :: rest))) =
        some (value :: values, rest) := by
  have visible : isSpace close = false := by rcases closes with rfl | rfl <;> rfl
  have stop : continuesNumber close = false := by rcases closes with rfl | rfl <;> rfl
  have noComma : close ≠ 0x2c := by rcases closes with rfl | rfl <;> decide
  induction others generalizing text value fuel with
  | nil =>
      obtain ⟨lead, tail, rfl, opens, read⟩ := first
      obtain ⟨fuel, rfl⟩ : ∃ smaller, fuel = smaller + 1 := ⟨fuel - 1, by omega⟩
      refine ⟨lead, tail, rfl, opens, fun rest => ?_⟩
      have stops : Stops (last ++ close :: rest) := stops_gap spaces' (stops_cons stop rest)
      rw [spacedBehind, List.flatMap_nil, List.nil_append, items, run_bind_of_run (read _ stops),
        run_bind_of_run (run_symbol_gap spaces' visible rest), if_neg noComma, if_pos rfl]
      rfl
  | @cons next value' texts values found later ih =>
      obtain ⟨lead, tail, rfl, opens, read⟩ := first
      rw [List.length_cons] at enough
      obtain ⟨fuel, rfl⟩ : ∃ smaller, fuel = smaller + 1 := ⟨fuel - 1, by omega⟩
      obtain ⟨lead', tail', rfl, opens', readLater⟩ := @ih _ _ found fuel (by omega)
      refine ⟨lead, tail, rfl, opens, fun rest => ?_⟩
      have shape : spacedBehind gap ((lead' :: tail') :: texts) ++ (last ++ close :: rest) =
          0x2c :: (gap ++
            lead' :: (tail' ++ (spacedBehind gap texts ++ (last ++ close :: rest)))) := by
        simp [spacedBehind, List.append_assoc]
      rw [shape, items, run_bind_of_run (read _ (stops_cons rfl _)),
        run_bind_of_run (run_symbol rfl _), if_pos rfl,
        run_bind_of_run (run_symbol_gap spaces (isSpace_of_opensItem opens') _),
        run_bind_of_run (readLater rest)]
      rfl

/-- **A sequence with its items on lines of their own is read back.** -/
theorem run_spaced (spaces : IsGap gap) (spaces' : IsGap last)
    (closes : close = 0x5d ∨ close = 0x7d) {texts : List Bytes} {values : List α}
    (inhabited : texts ≠ []) (read : List.Forall₂ (ReadBack item) texts values) (rest : Bytes) :
    (sequence item close).run
        (gap ++ (List.intercalate (0x2c :: gap) texts ++ (last ++ close :: rest))) =
      some (values, rest) := by
  rw [run_sequence_eq_some]
  cases read with
  | nil => exact absurd rfl inhabited
  | @cons text value texts values first others =>
      obtain ⟨lead, tail, rfl, -, -⟩ := id first
      have enough : texts.length <
          (tail ++ (spacedBehind gap texts ++ (last ++ close :: rest))).length + 1 := by
        have commas := @length_le_spacedBehind gap texts
        simp only [List.length_append]
        omega
      obtain ⟨lead', tail', same, opens, readAll⟩ :=
        run_items_spaced spaces spaces' closes others first enough
      cases same
      refine ⟨lead, tail ++ (spacedBehind gap texts ++ (last ++ close :: rest)), ?_, ?_⟩
      · rw [intercalate_spaced, List.append_assoc]
        exact run_symbol_gap spaces (isSpace_of_opensItem opens) _
      · rw [if_neg (ne_of_opensItem opens closes)]
        exact readAll rest

end Spaced

/-! ## Documents -/

/-- The bytes of items on lines of their own. -/
theorem encoded_enclosed (first last : Char) (indent : Nat) (items : List (List Char)) :
    encoded (enclosed first last indent items) =
      if items = [] then encoded [first, last]
      else
        encoded [first] ++ (encoded (newline (indent + 1)) ++
          (List.intercalate (0x2c :: encoded (newline (indent + 1))) (items.map encoded) ++
            (encoded (newline indent) ++ encoded [last]))) := by
  have separator : encoded (',' :: newline (indent + 1)) = 0x2c :: encoded (newline (indent + 1)) :=
    rfl
  rw [enclosed]
  split
  · rfl
  · rw [← List.singleton_append, encoded_append, encoded_append, encoded_append, encoded_append,
      encoded_intercalate, separator]

section Documents

variable (decimalOf : Bytes → Option Number)

/-- What stands between two brackets on lines of its own is read as a sequence. -/
theorem run_enclosed {α : Type} {item : UInt8 → Reader α} {first last : Char}
    {open' close : UInt8} (opens : encoded [first] = [open']) (shuts : encoded [last] = [close])
    (closes : close = 0x5d ∨ close = 0x7d) (indent : Nat) {items : List (List Char)}
    {values : List α} (read : List.Forall₂ (ReadBack item) (items.map encoded) values) :
    ∃ tail, encoded (enclosed first last indent items) = open' :: tail ∧
      ∀ rest, (sequence item close).run (tail ++ rest) = some (values, rest) := by
  rw [encoded_enclosed]
  by_cases empty : items = []
  · subst empty
    cases read
    refine ⟨[close], ?_, fun rest => ?_⟩
    · rw [if_pos rfl, ← List.singleton_append, encoded_append, opens, shuts]
      rfl
    · exact run_sequence closes .nil rest
  · refine ⟨_, by rw [if_neg empty, opens, List.singleton_append], fun rest => ?_⟩
    have inhabited : items.map encoded ≠ [] := by simpa using empty
    rw [shuts]
    simpa using run_spaced (isGap_newline (indent + 1)) (isGap_newline indent) closes inhabited
      read rest

/-- **A document is read back from its text** where there is room for its nesting. -/
theorem readBack_pretty {room : Nat} {doc : Doc} (within : Within room doc) (indent : Nat) :
    ReadBack (valueFrom decimalOf room) (encoded (pretty indent doc)) (valueOf doc) := by
  induction within generalizing indent with
  | bool room value =>
      have scalar : ∀ {first : UInt8}, first ≠ 0x5b → first ≠ 0x7b →
          valueFrom decimalOf room first = scalarFrom decimalOf first :=
        fun noArray noObject => valueFrom_scalar decimalOf room noArray noObject
      cases value with
      | false => exact readBack_literal decimalOf rfl rfl (scalar (by decide) (by decide))
      | true => exact readBack_literal decimalOf rfl rfl (scalar (by decide) (by decide))
  | @number room value small =>
      have word : (UInt64.ofNat value).toNat = value := UInt64.toNat_ofNat_of_lt' small
      have read := readBack_posInt decimalOf (UInt64.ofNat value) room
      rw [u64ToString, word] at read
      exact read
  | string room text =>
      rw [pretty, encoded_quotedText]
      exact readBack_string decimalOf faithful_escapeChar text room
  | @sequence room items within ih =>
      have read : List.Forall₂ (ReadBack (valueFrom decimalOf room))
          ((prettyItems (indent + 1) items).map encoded) (valuesOf items) := by
        rw [prettyItems_eq_map, valuesOf_eq_map, List.map_map]
        refine List.forall₂_map_left_iff.mpr (List.forall₂_map_right_iff.mpr
          (List.forall₂_same.mpr ?_))
        intro item found
        exact ih item found (indent + 1)
      obtain ⟨tail, text, readAll⟩ :=
        @run_enclosed Value (valueFrom decimalOf room) '[' ']' 0x5b 0x5d rfl rfl (.inl rfl) indent
          _ _ read
      refine ⟨0x5b, tail, text, rfl, fun rest _ => ?_⟩
      rw [valueFrom, if_pos rfl]
      exact run_bind_of_run (readAll rest) _
  | @struct room fields within ih =>
      have read : List.Forall₂ (ReadBack (memberFrom (valueFrom decimalOf room)))
          ((prettyFields (indent + 1) fields).map encoded) (membersOf fields) := by
        rw [prettyFields_eq_map, membersOf_eq_map, List.map_map]
        refine List.forall₂_map_left_iff.mpr (List.forall₂_map_right_iff.mpr
          (List.forall₂_same.mpr ?_))
        intro field found
        have bytes : encoded (quotedText field.1 ++ ([':', ' '] ++ pretty (indent + 1) field.2)) =
            quoted escapeChar field.1 ++
              0x3a :: ([0x20] ++ encoded (pretty (indent + 1) field.2)) := by
          rw [encoded_append, encoded_append, encoded_quotedText]
          rfl
        have gap : IsGap [0x20] := by
          intro symbol blank
          rw [List.mem_singleton.mp blank]
          rfl
        rw [Function.comp_apply, bytes]
        exact readBack_member_gap faithful_escapeChar gap (ih field found (indent + 1))
      obtain ⟨tail, text, readAll⟩ :=
        @run_enclosed (String × Value) (memberFrom (valueFrom decimalOf room)) '\x7b' '\x7d' 0x7b
          0x7d rfl rfl (.inr rfl) indent _ _ read
      refine ⟨0x7b, tail, text, rfl, fun rest _ => ?_⟩
      rw [valueFrom, if_neg (by decide), if_pos rfl]
      exact run_bind_of_run (readAll rest) _

/-- **The text of a document is parsed as its value.** -/
theorem parse_pretty {room : Nat} {doc : Doc} (within : Within room doc) (indent : Nat) :
    parse decimalOf room (utf8 (String.ofList (pretty indent doc))) = some (valueOf doc) := by
  obtain ⟨lead, tail, bytes, opens, read⟩ := readBack_pretty decimalOf within indent
  have whole := read [] stops_nil
  rw [List.append_nil] at whole
  rw [utf8_ofList, bytes, parse, Json.value,
    run_bind_of_run (run_symbol (isSpace_of_opensItem opens) tail), whole]
  rfl

end Documents

/-- The fields of a structure. -/
def fieldsOf : Doc → List (String × Doc)
  | .struct fields => fields
  | _ => []

/-- A field of a structure with distinct keys is read as what it was written for. -/
theorem read_field {α : Type} {doc : Doc} (distinct : ((fieldsOf doc).map Prod.fst).Nodup)
    {read : Value → Option α} {item : α} (key : String) (inner : Doc)
    (found : (key, inner) ∈ fieldsOf doc) (own : read (valueOf inner) = some item) :
    ((valueOf doc).get key >>= read) = some item := by
  cases doc with
  | struct fields =>
      have held : (valueOf (.struct fields)).get key = some (valueOf inner) := by
        rw [valueOf, Value.get_object, membersOf_eq_map]
        apply lookup_collectMembers
        · rwa [List.map_map]
        · exact List.mem_map_of_mem (f := fun field => (field.1, valueOf field.2)) found
      rw [held]
      exact own
  | _ => cases found

end Json
end SkPqc.Library

import SkPqc.Library.Json

/-!
# The order of keys

Keys are ordered by their UTF-8 bytes. UTF-8 keeps the order of code points, so this
is the order of the characters too (`keyBefore_iff_codesBefore`).

Inserting a member at its place keeps members in order, so collecting members puts
them in order whatever order they come in (`sorted_collectMembers`). `ordered` does so
at every level of a value, and changes nothing else about it.
-/

set_option autoImplicit false

namespace SkPqc.Library
namespace Json

/-! ## UTF-8 keeps the order of code points -/

section Lex

variable {left right rest rest' : Bytes}

/-- A common front does not matter. -/
theorem lex_append_left_iff : List.Lex (· < ·) (left ++ rest) (left ++ rest') ↔
    List.Lex (· < ·) rest rest' := by
  induction left with
  | nil => rfl
  | cons byte others ih =>
      rw [List.cons_append, List.cons_append, List.cons_lex_cons_iff, ih]
      exact ⟨fun first => (first.resolve_left (UInt8.lt_irrefl byte)).2, fun later =>
        .inr ⟨rfl, later⟩⟩

/-- A smaller first byte decides. -/
theorem lex_ofNat_cons {code code' : Nat} (small : code' < 256) (less : code < code') :
    List.Lex (· < ·) (UInt8.ofNat code :: left) (UInt8.ofNat code' :: right) := by
  apply List.Lex.rel
  rw [UInt8.lt_iff_toNat_lt, UInt8.toNat_ofNat', UInt8.toNat_ofNat', Nat.mod_eq_of_lt small,
    Nat.mod_eq_of_lt (less.trans small)]
  exact less

/-- An equal first byte leaves the decision to the others. -/
theorem lex_ofNat_cons_of_le {code code' : Nat} (small : code' < 256) (first : code ≤ code')
    (others : code = code' → List.Lex (· < ·) left right) :
    List.Lex (· < ·) (UInt8.ofNat code :: left) (UInt8.ofNat code' :: right) := by
  rcases Nat.lt_or_eq_of_le first with less | same
  · exact lex_ofNat_cons small less
  · rw [same]
    exact .cons (others same)

end Lex

/-- The encoding of a smaller character comes first, whatever stands behind. -/
theorem lex_utf8EncodeChar {first second : Char} (less : first.toNat < second.toNat)
    (rest rest' : Bytes) :
    List.Lex (· < ·) (String.utf8EncodeChar first ++ rest)
      (String.utf8EncodeChar second ++ rest') := by
  have valid : second.toNat < 0x110000 := by
    rcases second.valid with low | high
    · exact Nat.lt_trans low (by decide)
    · exact high.2
  change first.val.toNat < second.val.toNat at less
  change second.val.toNat < 0x110000 at valid
  unfold String.utf8EncodeChar
  generalize first.val.toNat = code at *
  generalize second.val.toNat = code' at *
  dsimp only
  -- A longer encoding starts with a larger byte. Of two of one length the first different
  -- byte decides.
  split
  · split
    · exact lex_ofNat_cons (by omega) less
    · split
      · exact lex_ofNat_cons (by omega) (by omega)
      · split
        · exact lex_ofNat_cons (by omega) (by omega)
        · exact lex_ofNat_cons (by omega) (by omega)
  · rw [if_neg (show ¬ code' ≤ 0x7f by omega)]
    split
    · split
      · refine lex_ofNat_cons_of_le (by omega) (by omega) fun high => ?_
        exact lex_ofNat_cons (by omega) (by omega)
      · split
        · exact lex_ofNat_cons (by omega) (by omega)
        · exact lex_ofNat_cons (by omega) (by omega)
    · rw [if_neg (show ¬ code' ≤ 0x7ff by omega)]
      split
      · split
        · refine lex_ofNat_cons_of_le (by omega) (by omega) fun high => ?_
          refine lex_ofNat_cons_of_le (by omega) (by omega) fun middle => ?_
          exact lex_ofNat_cons (by omega) (by omega)
        · exact lex_ofNat_cons (by omega) (by omega)
      · rw [if_neg (show ¬ code' ≤ 0xffff by omega)]
        refine lex_ofNat_cons_of_le (by omega) (by omega) fun highest => ?_
        refine lex_ofNat_cons_of_le (by omega) (by omega) fun high => ?_
        refine lex_ofNat_cons_of_le (by omega) (by omega) fun middle => ?_
        exact lex_ofNat_cons (by omega) (by omega)

/-- The first string comes before the second in the order of code points. -/
def CodesBefore (left right : String) : Prop :=
  List.Lex (fun first second => first.toNat < second.toNat) left.toList right.toList

/-- UTF-8 keeps the order of two texts. -/
theorem lex_utf8_of_lex {chars chars' : List Char}
    (before : List.Lex (fun first second => first.toNat < second.toNat) chars chars') :
    List.Lex (· < ·) (chars.flatMap String.utf8EncodeChar)
      (chars'.flatMap String.utf8EncodeChar) := by
  induction before with
  | @nil first others =>
      rw [List.flatMap_cons]
      cases encoded : String.utf8EncodeChar first with
      | nil => exact absurd encoded String.utf8EncodeChar_ne_nil
      | cons byte bytes => exact .nil
  | cons later ih =>
      rw [List.flatMap_cons, List.flatMap_cons]
      exact lex_append_left_iff.mpr ih
  | rel less =>
      rw [List.flatMap_cons, List.flatMap_cons]
      exact lex_utf8EncodeChar less _ _

/-- Of two different texts one comes first. -/
theorem lex_or_lex {chars chars' : List Char} (different : chars ≠ chars') :
    List.Lex (fun first second => first.toNat < second.toNat) chars chars' ∨
      List.Lex (fun first second => first.toNat < second.toNat) chars' chars := by
  induction chars generalizing chars' with
  | nil =>
      cases chars' with
      | nil => exact absurd rfl different
      | cons first others => exact .inl .nil
  | cons first others ih =>
      cases chars' with
      | nil => exact .inr .nil
      | cons first' others' =>
          rcases Nat.lt_trichotomy first.toNat first'.toNat with less | same | greater
          · exact .inl (.rel less)
          · obtain rfl := Char.toNat_inj.mp same
            have rest : others ≠ others' := fun equal => different (congrArg _ equal)
            exact (ih rest).imp .cons .cons
          · exact .inr (.rel greater)

/-- **The order of keys is that of their code points.** -/
theorem keyBefore_iff_codesBefore {left right : String} :
    keyBefore left right = true ↔ CodesBefore left right := by
  constructor
  · intro before
    have different : left.toList ≠ right.toList := fun same =>
      ne_of_keyBefore before (String.toList_inj.mp same.symm)
    rcases lex_or_lex different with codes | codes
    · exact codes
    · have after : keyBefore right left = true := keyBefore_eq_true.mpr (lex_utf8_of_lex codes)
      rw [keyBefore_asymm before] at after
      cases after
  · intro codes
    exact keyBefore_eq_true.mpr (lex_utf8_of_lex codes)

theorem keyBefore_of_ne {left right : String} (different : left ≠ right)
    (notBefore : keyBefore left right = false) : keyBefore right left = true := by
  have different' : left.toList ≠ right.toList := fun same => different (String.toList_inj.mp same)
  rcases lex_or_lex different' with codes | codes
  · rw [keyBefore_iff_codesBefore.mpr codes] at notBefore
    cases notBefore
  · exact keyBefore_iff_codesBefore.mpr codes

theorem keyBefore_trans {first second third : String} (before : keyBefore first second = true)
    (before' : keyBefore second third = true) : keyBefore first third = true := by
  rw [keyBefore_eq_true] at *
  exact List.lex_trans (fun less less' => UInt8.lt_trans less less') before before'

/-! ## Collecting puts members in order -/

section Members

variable {α β : Type}

/-- Inserting a member at its place keeps the members in order. -/
theorem sorted_insertMember {members : List (String × α)} (sorted : Sorted members) (key : String)
    (value : α) : Sorted (insertMember key value members) := by
  induction members with
  | nil => exact List.pairwise_singleton _ _
  | cons member rest ih =>
      obtain ⟨key', value'⟩ := member
      obtain ⟨first, others⟩ := List.pairwise_cons.mp sorted
      unfold insertMember
      split
      · rename_i before
        refine List.pairwise_cons.mpr ⟨fun other found => ?_, sorted⟩
        rcases List.mem_cons.mp found with rfl | later
        · exact before
        · exact keyBefore_trans before (first other later)
      · rename_i notBefore
        split
        · rename_i same
          subst same
          exact List.pairwise_cons.mpr ⟨first, others⟩
        · rename_i different
          refine List.pairwise_cons.mpr ⟨fun other found => ?_, ih others⟩
          rcases mem_insertMember found with rfl | later
          · exact keyBefore_of_ne different (Bool.eq_false_iff.mpr notBefore)
          · exact first other later

/-- **Members are collected in order**, whatever order they come in. -/
theorem sorted_collectMembers (members : List (String × α)) : Sorted (collectMembers members) := by
  have general : ∀ (members collected : List (String × α)), Sorted collected →
      Sorted (members.foldl (fun collected member =>
        insertMember member.1 member.2 collected) collected) := by
    intro members
    induction members with
    | nil => exact fun _ sorted => sorted
    | cons member rest ih =>
        intro collected sorted
        exact ih _ (sorted_insertMember sorted member.1 member.2)
  exact general members [] List.Pairwise.nil

theorem insertMember_map (change : α → β) (key : String) (value : α)
    (members : List (String × α)) :
    insertMember key (change value) (members.map fun member => (member.1, change member.2)) =
      (insertMember key value members).map fun member => (member.1, change member.2) := by
  induction members with
  | nil => rfl
  | cons member rest ih =>
      obtain ⟨key', value'⟩ := member
      simp only [List.map_cons, insertMember]
      split
      · rfl
      · split
        · rfl
        · rw [ih, List.map_cons]

/-- Changing the values commutes with collecting. -/
theorem collectMembers_map (change : α → β) (members : List (String × α)) :
    collectMembers (members.map fun member => (member.1, change member.2)) =
      (collectMembers members).map fun member => (member.1, change member.2) := by
  have general : ∀ (members collected : List (String × α)),
      (members.map fun member => (member.1, change member.2)).foldl
          (fun collected member => insertMember member.1 member.2 collected)
          (collected.map fun member => (member.1, change member.2)) =
        (members.foldl (fun collected member => insertMember member.1 member.2 collected)
          collected).map fun member => (member.1, change member.2) := by
    intro members
    induction members with
    | nil => exact fun _ => rfl
    | cons member rest ih =>
        intro collected
        have step := insertMember_map change member.1 member.2 collected
        rw [List.map_cons, List.foldl_cons, List.foldl_cons, ← ih]
        exact congrArg (List.foldl _ · _) step
  exact general members []

end Members

/-! ## Values in order -/

mutual

/-- The value with the members of every object in the order of their keys. -/
def ordered : Value → Value
  | .null => .null
  | .bool value => .bool value
  | .number number => .number number
  | .string text => .string text
  | .array values => .array (orderedValues values)
  | .object members => .object (collectMembers (orderedMembers members))

def orderedValues : List Value → List Value
  | [] => []
  | value :: rest => ordered value :: orderedValues rest

def orderedMembers : List (String × Value) → List (String × Value)
  | [] => []
  | (key, value) :: rest => (key, ordered value) :: orderedMembers rest

end

theorem orderedValues_eq_map (values : List Value) : orderedValues values = values.map ordered := by
  induction values with
  | nil => rfl
  | cons value rest ih => rw [orderedValues, List.map_cons, ih]

theorem orderedMembers_eq_map (members : List (String × Value)) :
    orderedMembers members = members.map fun member => (member.1, ordered member.2) := by
  induction members with
  | nil => rfl
  | cons member rest ih => rw [orderedMembers, List.map_cons, ih]

/-- A value without floats, with its members in any order: no key of an object occurs
twice. -/
inductive IntegralInAnyOrder : Value → Prop
  | null : IntegralInAnyOrder .null
  | bool (value : Bool) : IntegralInAnyOrder (.bool value)
  | posInt (value : UInt64) : IntegralInAnyOrder (.number (.posInt value))
  | negInt (value : Int64) (negative : value < 0) :
      IntegralInAnyOrder (.number (.negInt value negative))
  | string (text : String) : IntegralInAnyOrder (.string text)
  | array (values : List Value) (integral : ∀ value ∈ values, IntegralInAnyOrder value) :
      IntegralInAnyOrder (.array values)
  | object (members : List (String × Value)) (distinct : (members.map Prod.fst).Nodup)
      (integral : ∀ member ∈ members, IntegralInAnyOrder member.2) :
      IntegralInAnyOrder (.object members)

/-- Members in order have distinct keys. -/
theorem Sorted.nodup {α : Type} {members : List (String × α)} (sorted : Sorted members) :
    (members.map Prod.fst).Nodup := by
  apply List.pairwise_map.mpr
  exact sorted.imp fun before => (ne_of_keyBefore before).symm

theorem Integral.inAnyOrder {value : Value} (integral : Integral value) :
    IntegralInAnyOrder value := by
  induction integral with
  | null => exact .null
  | bool value => exact .bool value
  | posInt value => exact .posInt value
  | negInt value negative => exact .negInt value negative
  | string text => exact .string text
  | array values _ ih => exact .array values ih
  | object members sorted _ ih => exact .object members sorted.nodup ih

/-- A value in order is one that the crate holds. -/
theorem IntegralInAnyOrder.integral_ordered {value : Value} (integral : IntegralInAnyOrder value) :
    Integral (ordered value) := by
  induction integral with
  | null => exact .null
  | bool value => exact .bool value
  | posInt value => exact .posInt value
  | negInt value negative => exact .negInt value negative
  | string text => exact .string text
  | array values _ ih =>
      rw [ordered, orderedValues_eq_map]
      refine .array _ fun value found => ?_
      obtain ⟨original, member, rfl⟩ := List.mem_map.mp found
      exact ih original member
  | object members distinct _ ih =>
      rw [ordered, orderedMembers_eq_map]
      refine .object _ (sorted_collectMembers _) fun member found => ?_
      obtain ⟨original, there, rfl⟩ := List.mem_map.mp (mem_collectMembers found)
      exact ih original there

/-- A value that is in order stays as it is. -/
theorem Integral.ordered_eq {value : Value} (integral : Integral value) :
    ordered value = value := by
  induction integral with
  | null => rfl
  | bool value => rfl
  | posInt value => rfl
  | negInt value negative => rfl
  | string text => rfl
  | array values _ ih =>
      rw [ordered, orderedValues_eq_map]
      exact congrArg _ ((List.map_congr_left ih).trans (List.map_id _))
  | object members sorted _ ih =>
      have same : members.map (fun member => (member.1, ordered member.2)) = members := by
        refine (List.map_congr_left fun member found => ?_).trans (List.map_id _)
        exact Prod.ext rfl (ih member found)
      rw [ordered, orderedMembers_eq_map, same, collectMembers_of_sorted sorted]

/-- Putting a value in order keeps its members, and only their order changes. -/
theorem ordered_object_perm {members : List (String × Value)}
    (distinct : (members.map Prod.fst).Nodup) :
    ∃ members', ordered (.object members) = .object members' ∧
      members'.Perm (members.map fun member => (member.1, ordered member.2)) := by
  refine ⟨_, by rw [ordered, orderedMembers_eq_map], collectMembers_perm ?_⟩
  rw [List.map_map]
  exact distinct

/-- At every level, the keys of an object increase by their code points. -/
inductive KeysIncrease : Value → Prop
  | null : KeysIncrease .null
  | bool (value : Bool) : KeysIncrease (.bool value)
  | number (number : Number) : KeysIncrease (.number number)
  | string (text : String) : KeysIncrease (.string text)
  | array (values : List Value) (inside : ∀ value ∈ values, KeysIncrease value) :
      KeysIncrease (.array values)
  | object (members : List (String × Value))
      (increasing : members.Pairwise fun left right => CodesBefore left.1 right.1)
      (inside : ∀ member ∈ members, KeysIncrease member.2) : KeysIncrease (.object members)

theorem Integral.keysIncrease {value : Value} (integral : Integral value) :
    KeysIncrease value := by
  induction integral with
  | null => exact .null
  | bool value => exact .bool value
  | posInt value => exact .number _
  | negInt value negative => exact .number _
  | string text => exact .string text
  | array values _ ih => exact .array values ih
  | object members sorted _ ih =>
      exact .object members (sorted.imp keyBefore_iff_codesBefore.mp) ih

end Json
end SkPqc.Library

import SkPqc.Library.Bytes
import Mathlib.Algebra.Order.Ring.Rat

/-!
# JSON values

Values as `serde_json` holds them in its default configuration: an integer is
kept as a word, any other number as a finite float, and the members of an object
are kept in the order of their keys. Floats are exact rationals here, and an integer that
is read as a float is rounded to one.

An object is a list of members, and every object is made by `collectMembers`,
which inserts one member after the other at its place and replaces the value of
a key that is already there. Looking a key up finds the last value inserted
(`lookup_insertMember`). Distinct keys lose no member: each is found
(`lookup_collectMembers`), and no other is there (`collectMembers_perm`). Members
already in order stay as they are (`collectMembers_of_sorted`).

The values whose numbers are integers are singled out (`Integral`); no float is
written or read for them.
-/

set_option autoImplicit false

namespace SkPqc.Library
namespace Json

/-- A number: a non-negative integer, a negative one, or a float. -/
inductive Number where
  | posInt (value : UInt64)
  | negInt (value : Int64) (negative : value < 0)
  | float (value : Rat)
  deriving DecidableEq

inductive Value where
  | null
  | bool (value : Bool)
  | number (value : Number)
  | string (value : String)
  | array (values : List Value)
  | object (members : List (String × Value))

/-- The number itself. -/
def Number.exact : Number → Rat
  | .posInt value => (value.toNat : Rat)
  | .negInt value _ => -(value.toInt.natAbs : Rat)
  | .float value => value

/-! ## Reading a value -/

/-- The nearest number of 53 binary digits, of two the even one: `as f64`. -/
def roundToF64 (number : Nat) : Nat :=
  let unit := 2 ^ (Nat.log2 number - 52)
  let digits := number / unit
  let rest := number % unit
  if 2 * rest < unit ∨ 2 * rest = unit ∧ digits % 2 = 0 then digits * unit
  else (digits + 1) * unit

/-- A number of at most 53 binary digits, up to a power of two: one that a float holds. -/
def HoldsF64 (number : Nat) : Prop := ∃ digits shift, digits < 2 ^ 53 ∧ number = digits * 2 ^ shift

/-- Rounding keeps exactly the numbers that a float holds. -/
theorem roundToF64_eq_self_iff {number : Nat} :
    roundToF64 number = number ↔ HoldsF64 number := by
  have positive : 0 < 2 ^ (Nat.log2 number - 52) := Nat.two_pow_pos _
  have split := Nat.div_add_mod' number (2 ^ (Nat.log2 number - 52))
  constructor
  · intro kept
    refine ⟨number / 2 ^ (Nat.log2 number - 52), Nat.log2 number - 52, ?_, ?_⟩
    · refine Nat.div_lt_of_lt_mul (Nat.lt_of_lt_of_le Nat.lt_log2_self ?_)
      rw [← Nat.pow_add]
      exact Nat.pow_le_pow_right Nat.two_pos (by omega)
    · simp only [roundToF64] at kept
      split at kept
      · exact kept.symm
      · -- Rounding up passes the number.
        have rest := Nat.mod_lt number positive
        rw [Nat.add_mul, Nat.one_mul] at kept
        omega
  · rintro ⟨digits, shift, small, same⟩
    have divides : 2 ^ (Nat.log2 number - 52) ∣ number := by
      by_cases zero : number = 0
      · rw [zero]
        exact Nat.dvd_zero _
      · have below : Nat.log2 number < 53 + shift := by
          rw [Nat.log2_lt zero, same, Nat.pow_add]
          exact Nat.mul_lt_mul_of_pos_right small (Nat.two_pow_pos _)
        rw [same] at below ⊢
        exact Nat.dvd_mul_left_of_dvd (Nat.pow_dvd_pow 2 (by omega)) digits
    have rest : number % 2 ^ (Nat.log2 number - 52) = 0 := Nat.mod_eq_zero_of_dvd divides
    simp only [roundToF64, rest, Nat.mul_zero, positive, true_or, if_true]
    exact Nat.div_mul_cancel divides

example : roundToF64 9007199254740993 = 9007199254740992 := by decide

/-- A number that can be read as a float without rounding. -/
def Number.IsF64 : Number → Prop
  | .posInt value => HoldsF64 value.toNat
  | .negInt value _ => HoldsF64 value.toInt.natAbs
  | .float _ => True

namespace Value

/-- The member of an object under a key. -/
def get (key : String) : Value → Option Value
  | .object members => members.lookup key
  | _ => none

def asStr : Value → Option String
  | .string value => some value
  | _ => none

def asU64 : Value → Option UInt64
  | .number (.posInt value) => some value
  | _ => none

/-- Any number as a float. -/
def asF64 : Value → Option Rat
  | .number (.posInt value) => some (roundToF64 value.toNat : Rat)
  | .number (.negInt value _) => some (-(roundToF64 value.toInt.natAbs : Rat))
  | .number (.float value) => some value
  | _ => none

def asObject : Value → Option (List (String × Value))
  | .object members => some members
  | _ => none

def asBool : Value → Option Bool
  | .bool value => some value
  | _ => none

def asArray : Value → Option (List Value)
  | .array values => some values
  | _ => none

@[simp] theorem get_object (key : String) (members : List (String × Value)) :
    (Value.object members).get key = members.lookup key := rfl

@[simp] theorem asStr_string (text : String) : (Value.string text).asStr = some text := rfl

@[simp] theorem asU64_posInt (number : UInt64) :
    (Value.number (.posInt number)).asU64 = some number := rfl

@[simp] theorem asF64_float (number : Rat) :
    (Value.number (.float number)).asF64 = some number := rfl

/-- A number is read as itself exactly when a float holds it. -/
theorem asF64_eq_exact_iff {number : Number} :
    (Value.number number).asF64 = some number.exact ↔ number.IsF64 := by
  cases number with
  | posInt value =>
      rw [asF64, Number.exact, Option.some.injEq, Rat.natCast_inj]
      exact roundToF64_eq_self_iff
  | negInt value negative =>
      rw [asF64, Number.exact, Option.some.injEq, neg_inj, Rat.natCast_inj]
      exact roundToF64_eq_self_iff
  | float value => exact iff_of_true rfl trivial

@[simp] theorem asObject_object (members : List (String × Value)) :
    (Value.object members).asObject = some members := rfl

@[simp] theorem asBool_bool (value : Bool) : (Value.bool value).asBool = some value := rfl

end Value

/-! ## Making an object -/

section Members

variable {α : Type}

/-- The order of keys: that of their UTF-8 bytes. -/
def keyBefore (left right : String) : Bool := List.lex (utf8 left) (utf8 right)

/-- Put a member at its place in the order of the keys, replacing the value of
an equal key. -/
def insertMember (key : String) (value : α) : List (String × α) → List (String × α)
  | [] => [(key, value)]
  | (key', value') :: rest =>
      if keyBefore key key' then (key, value) :: (key', value') :: rest
      else if key = key' then (key, value) :: rest
      else (key', value') :: insertMember key value rest

/-- The members that a sequence of insertions leaves. -/
def collectMembers (members : List (String × α)) : List (String × α) :=
  members.foldl (fun collected member => insertMember member.1 member.2 collected) []

theorem lookup_cons (key key' : String) (value : α) (members : List (String × α)) :
    ((key, value) :: members).lookup key' =
      if key' = key then some value else members.lookup key' := by
  rw [List.lookup_cons]
  by_cases same : key' = key
  · simp [same]
  · simp [same, beq_eq_false_iff_ne.mpr same]

@[simp] theorem lookup_insertMember (key key' : String) (value : α)
    (members : List (String × α)) :
    (insertMember key value members).lookup key' =
      if key' = key then some value else members.lookup key' := by
  induction members with
  | nil => exact lookup_cons key key' value []
  | cons member rest ih =>
      obtain ⟨other, value'⟩ := member
      unfold insertMember
      split
      · exact lookup_cons key key' value _
      · split
        · rename_i equal
          subst equal
          by_cases same : key' = key <;> simp [lookup_cons, same]
        · rename_i different
          by_cases front : key' = other
          · simp [front, Ne.symm different]
          · simp [lookup_cons, front, ih]

/-- Inserting other keys leaves the value of a key alone. -/
theorem lookup_foldl_insertMember {members collected : List (String × α)} {key : String}
    (absent : ∀ member ∈ members, member.1 ≠ key) :
    (members.foldl (fun collected member => insertMember member.1 member.2 collected)
      collected).lookup key = collected.lookup key := by
  induction members generalizing collected with
  | nil => rfl
  | cons member rest ih =>
      have other := absent member List.mem_cons_self
      rw [List.foldl_cons, ih fun later found => absent later (List.mem_cons_of_mem _ found),
        lookup_insertMember, if_neg other.symm]

/-- A member of an object with distinct keys is found under its key. -/
theorem lookup_collectMembers {members : List (String × α)} {key : String} {value : α}
    (distinct : (members.map Prod.fst).Nodup) (found : (key, value) ∈ members) :
    (collectMembers members).lookup key = some value := by
  obtain ⟨before, after, rfl⟩ := List.append_of_mem found
  rw [List.map_append, List.map_cons] at distinct
  have absent := (List.nodup_cons.mp (List.nodup_append.mp distinct).2.1).1
  rw [collectMembers, List.foldl_append, List.foldl_cons, lookup_foldl_insertMember,
    lookup_insertMember, if_pos rfl]
  intro member later same
  exact absent (List.mem_map.mpr ⟨member, later, same⟩)

/-- A new key is inserted without touching the other members. -/
theorem insertMember_perm {key : String} {value : α} {members : List (String × α)}
    (fresh : ∀ member ∈ members, member.1 ≠ key) :
    (insertMember key value members).Perm ((key, value) :: members) := by
  induction members with
  | nil => exact .refl _
  | cons member rest ih =>
      unfold insertMember
      split
      · exact .refl _
      · split
        · rename_i equal
          exact absurd equal.symm (fresh member List.mem_cons_self)
        · have inserted := ih fun other found => fresh other (List.mem_cons_of_mem _ found)
          exact (inserted.cons member).trans (.swap _ _ _)

/-- Collecting after a start keeps the start and the new members. -/
theorem foldl_insertMember_perm {members collected : List (String × α)}
    (distinct : ((collected ++ members).map Prod.fst).Nodup) :
    (members.foldl (fun collected member => insertMember member.1 member.2 collected)
      collected).Perm (collected ++ members) := by
  induction members generalizing collected with
  | nil => simp
  | cons member rest ih =>
      rw [List.foldl_cons]
      have moved : (collected ++ member :: rest).Perm ((member :: collected) ++ rest) :=
        List.perm_middle
      have distinct' : (((member :: collected) ++ rest).map Prod.fst).Nodup :=
        (moved.map _).nodup_iff.mp distinct
      have fresh : ∀ other ∈ collected, other.1 ≠ member.1 := by
        intro other found equal
        have absent := (List.nodup_cons.mp distinct').1
        refine absent ?_
        rw [← equal]
        exact List.mem_map_of_mem (List.mem_append_left rest found)
      have inserted := @insertMember_perm α member.1 member.2 collected fresh
      have step := inserted.append_right rest
      exact (ih ((step.map _).nodup_iff.mpr distinct')).trans (step.trans moved.symm)

/-- Members with distinct keys are all kept. -/
theorem collectMembers_perm {members : List (String × α)}
    (distinct : (members.map Prod.fst).Nodup) : (collectMembers members).Perm members :=
  @foldl_insertMember_perm α members [] distinct

/-! ## Members in order -/

/-- The members are in the order of their keys, and no key occurs twice. -/
def Sorted (members : List (String × α)) : Prop :=
  members.Pairwise fun left right => keyBefore left.1 right.1 = true

theorem keyBefore_eq_true {left right : String} :
    keyBefore left right = true ↔ List.Lex (· < ·) (utf8 left) (utf8 right) := by
  rw [keyBefore, List.lex_eq_true_iff_lex]
  simp only [decide_eq_true_eq]

theorem keyBefore_asymm {left right : String} (before : keyBefore left right = true) :
    keyBefore right left = false := by
  rw [keyBefore_eq_true] at before
  rw [Bool.eq_false_iff, ne_eq, keyBefore_eq_true]
  exact List.lex_asymm (fun first => UInt8.lt_asymm first) before

theorem ne_of_keyBefore {left right : String} (before : keyBefore left right = true) :
    right ≠ left := by
  rintro rfl
  have after := keyBefore_asymm before
  rw [before] at after
  cases after

/-- A key behind all others goes to the end. -/
theorem insertMember_of_last {key : String} {value : α} {members : List (String × α)}
    (last : ∀ member ∈ members, keyBefore member.1 key = true) :
    insertMember key value members = members ++ [(key, value)] := by
  induction members with
  | nil => rfl
  | cons member rest ih =>
      have before := last member List.mem_cons_self
      rw [insertMember, keyBefore_asymm before, if_neg Bool.false_ne_true,
        if_neg (ne_of_keyBefore before),
        ih fun later found => last later (List.mem_cons_of_mem _ found)]
      rfl

theorem foldl_insertMember_of_sorted {members collected : List (String × α)}
    (sorted : Sorted (collected ++ members)) :
    members.foldl (fun collected member => insertMember member.1 member.2 collected) collected =
      collected ++ members := by
  induction members generalizing collected with
  | nil => simp
  | cons member rest ih =>
      have last : ∀ earlier ∈ collected, keyBefore earlier.1 member.1 = true :=
        fun earlier found =>
          (List.pairwise_append.mp sorted).2.2 earlier found member List.mem_cons_self
      rw [List.foldl_cons, insertMember_of_last last, ih (by simpa using sorted)]
      simp

/-- Members in order are kept as they are. -/
theorem collectMembers_of_sorted {members : List (String × α)} (sorted : Sorted members) :
    collectMembers members = members :=
  @foldl_insertMember_of_sorted α members [] sorted

theorem mem_insertMember {key : String} {value : α} {members : List (String × α)}
    {member : String × α} (found : member ∈ insertMember key value members) :
    member = (key, value) ∨ member ∈ members := by
  induction members with
  | nil => exact .inl (List.mem_singleton.mp found)
  | cons other rest ih =>
      unfold insertMember at found
      split at found
      · exact List.mem_cons.mp found
      · split at found
        · rcases List.mem_cons.mp found with new | old
          · exact .inl new
          · exact .inr (List.mem_cons_of_mem _ old)
        · rcases List.mem_cons.mp found with same | later
          · exact .inr (same ▸ List.mem_cons_self)
          · exact (ih later).imp_right (List.mem_cons_of_mem _)

/-- Collecting makes no member up. -/
theorem mem_collectMembers {members : List (String × α)} {member : String × α}
    (found : member ∈ collectMembers members) : member ∈ members := by
  have general : ∀ (members collected : List (String × α)),
      member ∈ members.foldl (fun collected member =>
        insertMember member.1 member.2 collected) collected →
      member ∈ collected ∨ member ∈ members := by
    intro members
    induction members with
    | nil => exact fun _ => .inl
    | cons first rest ih =>
        intro collected found
        rcases ih _ found with inserted | later
        · rcases mem_insertMember inserted with rfl | old
          · exact .inr List.mem_cons_self
          · exact .inl old
        · exact .inr (List.mem_cons_of_mem _ later)
  exact (general members [] found).resolve_left (List.not_mem_nil)

end Members

/-! ## Nesting, and values without floats -/

mutual

/-- How many arrays and objects are nested in each other. -/
def depth : Value → Nat
  | .array values => depthOfValues values + 1
  | .object members => depthOfMembers members + 1
  | _ => 0

def depthOfValues : List Value → Nat
  | [] => 0
  | value :: rest => max (depth value) (depthOfValues rest)

def depthOfMembers : List (String × Value) → Nat
  | [] => 0
  | (_, value) :: rest => max (depth value) (depthOfMembers rest)

end

theorem depthOfValues_le {values : List Value} {bound : Nat} :
    depthOfValues values ≤ bound ↔ ∀ value ∈ values, depth value ≤ bound := by
  induction values with
  | nil => simp [depthOfValues]
  | cons value rest ih => simp [depthOfValues, ih]

theorem depthOfMembers_le {members : List (String × Value)} {bound : Nat} :
    depthOfMembers members ≤ bound ↔ ∀ member ∈ members, depth member.2 ≤ bound := by
  induction members with
  | nil => simp [depthOfMembers]
  | cons member rest ih => simp [depthOfMembers, ih]

/-- A value as the crate holds it, with no number but integers. -/
inductive Integral : Value → Prop
  | null : Integral .null
  | bool (value : Bool) : Integral (.bool value)
  | posInt (value : UInt64) : Integral (.number (.posInt value))
  | negInt (value : Int64) (negative : value < 0) : Integral (.number (.negInt value negative))
  | string (text : String) : Integral (.string text)
  | array (values : List Value) (integral : ∀ value ∈ values, Integral value) :
      Integral (.array values)
  | object (members : List (String × Value)) (sorted : Sorted members)
      (integral : ∀ member ∈ members, Integral member.2) : Integral (.object members)

end Json
end SkPqc.Library

import Mathlib.Data.Ordering.Lemmas
import Mathlib.Order.Defs.Unbundled
import SkPqc.Library.JsonOrder

/-!
# Sorting by a comparison

A stable sort by a comparison that is a total preorder returns its input in order. Where
no two values of the input compare as equal the order is strict, and the result does not
depend on the order of the input (`sortBy_eq_of_perm`).

Texts compare by their UTF-8 bytes, flags with `false` first.
-/

set_option autoImplicit false

namespace SkPqc.Library

section Comparisons

variable {α β : Type*} {lt : β → β → Prop} [DecidableRel lt]

/-- A strict total order compares as equal what is equal. -/
theorem cmpUsing_eq_eq_iff [IsStrictTotalOrder β lt] {left right : β} :
    cmpUsing lt left right = .eq ↔ left = right := by
  rw [cmpUsing_eq_eq]
  constructor
  · intro apart
    exact Std.Trichotomous.trichotomous left right apart.1 apart.2
  · intro same
    subst same
    exact ⟨irrefl left, irrefl left⟩

instance orientedCmp_cmpUsing [IsStrictTotalOrder β lt] : Std.OrientedCmp (cmpUsing lt) where
  eq_swap := by
    intro left right
    rcases trichotomous_of lt left right with before | same | after
    · rw [(cmpUsing_eq_lt left right).mpr before, (cmpUsing_eq_gt right left).mpr before]
      rfl
    · rw [cmpUsing_eq_eq_iff.mpr same, cmpUsing_eq_eq_iff.mpr same.symm]
      rfl
    · rw [(cmpUsing_eq_gt left right).mpr after, (cmpUsing_eq_lt right left).mpr after]
      rfl

/-- The comparison of a strict total order is transitive. -/
instance transCmp_cmpUsing [IsStrictTotalOrder β lt] : Std.TransCmp (cmpUsing lt) where
  isLE_trans := by
    intro first second third notAfter notAfter'
    rw [Ordering.isLE_iff_eq_lt_or_eq_eq, cmpUsing_eq_lt, cmpUsing_eq_eq_iff] at *
    rcases notAfter with before | same
    · rcases notAfter' with before' | same'
      · exact .inl (IsTrans.trans _ _ _ before before')
      · exact .inl (same' ▸ before)
    · rw [same]
      exact notAfter'

/-- Values compare by a key of theirs. -/
theorem transCmp_on (cmp : β → β → Ordering) [Std.TransCmp cmp] (key : α → β) :
    Std.TransCmp fun left right => cmp (key left) (key right) where
  eq_swap := Std.OrientedCmp.eq_swap
  isLE_trans := Std.TransCmp.isLE_trans

end Comparisons

/-! ## Flags and texts -/

/-- A flag that is not set comes before one that is. -/
def FlagBefore (left right : Bool) : Prop := left = false ∧ right = true

instance : DecidableRel FlagBefore := fun left right =>
  inferInstanceAs (Decidable (left = false ∧ right = true))

instance : IsStrictTotalOrder Bool FlagBefore where
  trichotomous := by unfold FlagBefore; decide
  irrefl := by unfold FlagBefore; decide
  trans := by unfold FlagBefore; decide

/-- The order of texts is that of their UTF-8 bytes. -/
def TextBefore (left right : String) : Prop := Json.keyBefore left right = true

instance : DecidableRel TextBefore := fun left right =>
  inferInstanceAs (Decidable (Json.keyBefore left right = true))

instance : IsStrictTotalOrder String TextBefore where
  trichotomous := by
    intro left right notBefore notAfter
    by_contra different
    exact notAfter (Json.keyBefore_of_ne different (Bool.eq_false_iff.mpr notBefore))
  irrefl := fun _ before => Json.ne_of_keyBefore before rfl
  trans := fun _ _ _ before before' => Json.keyBefore_trans before before'

/-! ## Sorting -/

section Sorting

variable {α : Type*} {cmp : α → α → Ordering}

/-- The stable sort by a comparison. -/
def sortBy (cmp : α → α → Ordering) (list : List α) : List α :=
  list.mergeSort fun left right => (cmp left right).isLE

theorem sortBy_perm (list : List α) : (sortBy cmp list).Perm list :=
  List.mergeSort_perm list _

variable [Std.TransCmp cmp]

theorem pairwise_sortBy (list : List α) :
    (sortBy cmp list).Pairwise fun left right => (cmp left right).isLE = true := by
  apply List.pairwise_mergeSort
  · intro first second third notAfter notAfter'
    exact Std.TransCmp.isLE_trans notAfter notAfter'
  · intro left right
    rw [Bool.or_eq_true, ← Std.OrientedCmp.isGE_iff_isLE (a := left)]
    cases cmp left right
    · exact .inl rfl
    · exact .inl rfl
    · exact .inr rfl

variable {list list' : List α} (distinct : list.Pairwise fun left right => cmp left right ≠ .eq)

include distinct

/-- Where no two values compare as equal, the sorted list is strictly in order. -/
theorem strict_sortBy : (sortBy cmp list).Pairwise fun left right => cmp left right = .lt := by
  have apart : (sortBy cmp list).Pairwise fun left right => cmp left right ≠ .eq :=
    (sortBy_perm list).symm.pairwise distinct fun different same =>
      different (Std.OrientedCmp.eq_comm.mp same)
  refine ((pairwise_sortBy list).and apart).imp fun ⟨notAfter, different⟩ => ?_
  exact (Ordering.isLE_iff_eq_lt_or_eq_eq.mp notAfter).resolve_right different

/-- Whatever is strictly in order and has the values of the input is the sorted input. -/
theorem sortBy_eq_of_strict {sorted : List α} (same : sorted.Perm list)
    (strict : sorted.Pairwise fun left right => cmp left right = .lt) :
    sortBy cmp list = sorted := by
  apply List.Perm.eq_of_pairwise _ (strict_sortBy distinct) strict
  · exact (sortBy_perm list).trans same.symm
  · intro left right _ _ before after
    cases before.symm.trans (Std.OrientedCmp.gt_of_lt after)

/-- **The sorted list does not depend on the order of the input.** -/
theorem sortBy_eq_of_perm (same : list.Perm list') : sortBy cmp list = sortBy cmp list' := by
  have distinct' : list'.Pairwise fun left right => cmp left right ≠ .eq :=
    same.pairwise distinct fun different same => different (Std.OrientedCmp.eq_comm.mp same)
  apply sortBy_eq_of_strict distinct _ (strict_sortBy distinct')
  exact (sortBy_perm list').trans same.symm

end Sorting

end SkPqc.Library

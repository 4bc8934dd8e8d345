import SkPqc.Library.Machines
import Mathlib.Data.List.Lookmap

/-!
# Directories with claimed and offered entries

A directory holds at most one value under each key. Filing a claim puts a value
under its key whatever was there before. Filing an offer puts a value under its
key only when nothing is there.

After any filings a key holds its last claim; without a claim it holds what it
held at the start; and without either it holds its first offer
(`settle_eq_lookup`). So offers never displace anything, and among offers the
first one wins.

A machine refines a directory when every step acts on the view of its state as
the filing of that step does. Its runs then act as the filings of the run do
(`Machine.view_final`). What a run has done can also be kept in the state, for
rules whose guards look back (`Machine.recording`).
-/

set_option autoImplicit false

namespace SkPqc.Library

variable {κ α : Type}

/-! ## Lookups -/

section Lookups

variable [DecidableEq κ] {entries : List (κ × α)} {key : κ} {value : α}

theorem mem_of_lookup (found : entries.lookup key = some value) : (key, value) ∈ entries := by
  obtain ⟨before, after, same, _⟩ := List.lookup_eq_some_iff.mp found
  rw [same]
  exact List.mem_append_right before List.mem_cons_self

theorem lookup_of_absent (absent : ∀ value, (key, value) ∉ entries) :
    entries.lookup key = none := by
  rw [List.lookup_eq_none_iff]
  intro entry found
  rw [bne_iff_ne]
  rintro rfl
  exact absent entry.2 found

/-- The only value of a key is the one found under it. -/
theorem lookup_of_unique (found : (key, value) ∈ entries)
    (unique : ∀ other, (key, other) ∈ entries → other = value) :
    entries.lookup key = some value := by
  cases looked : entries.lookup key with
  | none =>
      have absent := List.lookup_eq_none_iff.mp looked _ found
      simp at absent
  | some other => rw [unique other (mem_of_lookup looked)]

end Lookups

/-! ## Filing -/

/-- An entry for a directory. -/
inductive Filing (κ α : Type) where
  | claim (key : κ) (value : α)
  | offer (key : κ) (value : α)
  deriving DecidableEq

namespace Filing

/-- The key and value of a claim. -/
def claimed : Filing κ α → Option (κ × α)
  | claim key value => some (key, value)
  | offer _ _ => none

/-- The key and value of an offer. -/
def offered : Filing κ α → Option (κ × α)
  | claim _ _ => none
  | offer key value => some (key, value)

/-- The claims among filings, in order. -/
def claims (filings : List (Filing κ α)) : List (κ × α) := filings.filterMap claimed

/-- The offers among filings, in order. -/
def offers (filings : List (Filing κ α)) : List (κ × α) := filings.filterMap offered

@[simp] theorem claims_nil : claims ([] : List (Filing κ α)) = [] := rfl

@[simp] theorem claims_cons_claim (key : κ) (value : α) (rest : List (Filing κ α)) :
    claims (claim key value :: rest) = (key, value) :: claims rest := rfl

@[simp] theorem claims_cons_offer (key : κ) (value : α) (rest : List (Filing κ α)) :
    claims (offer key value :: rest) = claims rest := rfl

@[simp] theorem offers_nil : offers ([] : List (Filing κ α)) = [] := rfl

@[simp] theorem offers_cons_claim (key : κ) (value : α) (rest : List (Filing κ α)) :
    offers (claim key value :: rest) = offers rest := rfl

@[simp] theorem offers_cons_offer (key : κ) (value : α) (rest : List (Filing κ α)) :
    offers (offer key value :: rest) = (key, value) :: offers rest := rfl

theorem claims_append (first second : List (Filing κ α)) :
    claims (first ++ second) = claims first ++ claims second :=
  List.filterMap_append

theorem offers_append (first second : List (Filing κ α)) :
    offers (first ++ second) = offers first ++ offers second :=
  List.filterMap_append

theorem mem_claims {filings : List (Filing κ α)} {key : κ} {value : α} :
    (key, value) ∈ claims filings ↔ claim key value ∈ filings := by
  constructor
  · intro found
    obtain ⟨filing, member, same⟩ := List.mem_filterMap.mp found
    cases filing with
    | claim key value =>
        cases same
        exact member
    | offer key value => cases same
  · intro member
    exact List.mem_filterMap.mpr ⟨_, member, rfl⟩

variable [DecidableEq κ]

/-- The directory after an entry was filed. -/
def apply (directory : κ → Option α) : Filing κ α → κ → Option α
  | claim key value => Function.update directory key (some value)
  | offer key value => Function.update directory key ((directory key).or (some value))

/-- The directory after entries were filed one after the other. -/
def settle (directory : κ → Option α) (filings : List (Filing κ α)) : κ → Option α :=
  filings.foldl apply directory

@[simp] theorem settle_nil (directory : κ → Option α) : settle directory [] = directory := rfl

@[simp] theorem settle_cons (directory : κ → Option α) (filing : Filing κ α)
    (rest : List (Filing κ α)) :
    settle directory (filing :: rest) = settle (apply directory filing) rest := rfl

theorem settle_append (directory : κ → Option α) (first second : List (Filing κ α)) :
    settle directory (first ++ second) = settle (settle directory first) second :=
  List.foldl_append

/-- An offer for a key that holds something changes nothing. -/
theorem apply_offer_of_some {directory : κ → Option α} {key : κ} {held : α}
    (holds : directory key = some held) (value : α) :
    apply directory (offer key value) = directory := by
  rw [apply, holds, Option.some_or, ← holds, Function.update_eq_self]

theorem apply_offer_of_none {directory : κ → Option α} {key : κ} (vacant : directory key = none)
    (value : α) :
    apply directory (offer key value) = Function.update directory key (some value) := by
  rw [apply, vacant, Option.none_or]

/-- **What a directory holds after any filings.** The last claim of a key, or else what
it held before, or else its first offer. -/
theorem settle_eq_lookup (directory : κ → Option α) (filings : List (Filing κ α)) (key : κ) :
    settle directory filings key =
      ((claims filings).reverse.lookup key).or
        ((directory key).or ((offers filings).lookup key)) := by
  induction filings generalizing directory with
  | nil => simp
  | cons filing rest ih =>
      rw [settle_cons, ih]
      cases filing with
      | claim filed value =>
          rw [claims_cons_claim, offers_cons_claim, List.reverse_cons, List.lookup_append, apply]
          by_cases same : key = filed
          · subst same
            cases (claims rest).reverse.lookup key <;> simp
          · have other : (key == filed) = false := by simpa using same
            simp [List.lookup_cons, Function.update_of_ne same, other]
      | offer filed value =>
          rw [claims_cons_offer, offers_cons_offer, apply]
          by_cases same : key = filed
          · subst same
            cases directory key <;> simp
          · have other : (key == filed) = false := by simpa using same
            simp [List.lookup_cons, Function.update_of_ne same, other]

/-- Without a claim of its key, what a directory holds stays. -/
theorem settle_of_unclaimed {directory : κ → Option α} {filings : List (Filing κ α)} {key : κ}
    {held : α} (holds : directory key = some held)
    (unclaimed : ∀ value, claim key value ∉ filings) :
    settle directory filings key = some held := by
  have none : (claims filings).reverse.lookup key = none :=
    lookup_of_absent fun value found =>
      unclaimed value (mem_claims.mp (List.mem_reverse.mp found))
  rw [settle_eq_lookup, none, holds, Option.none_or, Option.some_or]

end Filing

/-! ## Machines that keep a directory -/

namespace Machine

variable {ι σ ο : Type} (machine : Machine ι σ ο)

/-- What the steps of a run have in effect, each judged by the state before it. -/
def effects {ε : Type} (effect : σ → ι → Option ε) (state : σ) : List ι → List ε
  | [] => []
  | input :: rest =>
      (effect state input).toList ++ effects effect (machine.step state input).2 rest

@[simp] theorem effects_nil {ε : Type} (effect : σ → ι → Option ε) (state : σ) :
    machine.effects effect state [] = [] := rfl

@[simp] theorem effects_cons {ε : Type} (effect : σ → ι → Option ε) (state : σ) (input : ι)
    (rest : List ι) :
    machine.effects effect state (input :: rest) =
      (effect state input).toList ++ machine.effects effect (machine.step state input).2 rest :=
  rfl

theorem effects_append {ε : Type} (effect : σ → ι → Option ε) (state : σ)
    (first second : List ι) :
    machine.effects effect state (first ++ second) =
      machine.effects effect state first ++
        machine.effects effect (machine.final state first) second := by
  induction first generalizing state with
  | nil => rfl
  | cons input rest ih =>
      rw [List.cons_append, effects_cons, ih, effects_cons, final_cons, List.append_assoc]

/-- The machine that also keeps a record of what its steps had in effect. -/
def recording {ε : Type} (effect : σ → ι → Option ε) : Machine ι (σ × List ε) ο where
  step state input :=
    ((machine.step state.1 input).1, (machine.step state.1 input).2,
      state.2 ++ (effect state.1 input).toList)

variable {machine}

/-- Recording does not show. -/
theorem trace_recording {ε : Type} (effect : σ → ι → Option ε) (state : σ) (record : List ε)
    (inputs : List ι) :
    (machine.recording effect).trace (state, record) inputs = machine.trace state inputs := by
  induction inputs generalizing state record with
  | nil => rfl
  | cons input rest ih =>
      rw [trace_cons, trace_cons]
      exact congrArg _ (ih _ _)

/-- A guard may read what the run had in effect so far. -/
theorem guarded_recording {ε : Type} {effect : σ → ι → Option ε}
    {guard : σ × List ε → ι → Prop} {state : σ} {record : List ε} {inputs : List ι}
    (meets : ∀ before input after, inputs = before ++ input :: after →
      guard (machine.final state before, record ++ machine.effects effect state before) input) :
    (machine.recording effect).Guarded guard (state, record) inputs := by
  induction inputs generalizing state record with
  | nil => exact .nil
  | cons input rest ih =>
      refine .cons ?_ (ih fun before later after same => ?_)
      · have first := meets [] input rest rfl
        rwa [effects_nil, List.append_nil] at first
      · have next := meets (input :: before) later after (congrArg _ same)
        rwa [effects_cons, ← List.append_assoc] at next

/-- **A machine that keeps a directory, keeps it in every run.** -/
theorem view_final [DecidableEq κ] {view : σ → κ → Option α}
    {filing : σ → ι → Option (Filing κ α)} {invariant : σ → Prop}
    (keeps : ∀ state input, invariant state → invariant (machine.step state input).2)
    (files : ∀ state input, invariant state →
      view (machine.step state input).2 = Filing.settle (view state) (filing state input).toList)
    {state : σ} (holds : invariant state) (inputs : List ι) :
    view (machine.final state inputs) =
      Filing.settle (view state) (machine.effects filing state inputs) := by
  induction inputs generalizing state with
  | nil => rfl
  | cons input rest ih =>
      rw [final_cons, ih (keeps state input holds), files state input holds, effects_cons,
        Filing.settle_append]

end Machine

end SkPqc.Library

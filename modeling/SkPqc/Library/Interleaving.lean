import SkPqc.Library.Machines
import Mathlib.Logic.Function.Basic

/-!
# Machines side by side

Several parties each have a machine. A run of all of them is a list of events, and
an event is an input of one party. What a party goes through in it is the run of
its own machine on its own inputs (`Machine.final_interleaved`), and so is what it
logs (`Machine.inputsOf_interleavedLog`), whatever the others do in between.
-/

set_option autoImplicit false

namespace SkPqc.Library

variable {ρ ι σ ο : Type} [DecidableEq ρ]

/-- The inputs of one party, in order. -/
def inputsOf (party : ρ) : List (ρ × ι) → List ι
  | [] => []
  | event :: rest =>
      if event.1 = party then event.2 :: inputsOf party rest else inputsOf party rest

@[simp] theorem inputsOf_nil (party : ρ) : inputsOf party ([] : List (ρ × ι)) = [] := rfl

@[simp] theorem inputsOf_cons_self (party : ρ) (input : ι) (rest : List (ρ × ι)) :
    inputsOf party ((party, input) :: rest) = input :: inputsOf party rest :=
  if_pos rfl

theorem inputsOf_cons_of_ne {party other : ρ} (different : other ≠ party) (input : ι)
    (rest : List (ρ × ι)) : inputsOf party ((other, input) :: rest) = inputsOf party rest :=
  if_neg different

theorem inputsOf_append (party : ρ) (first second : List (ρ × ι)) :
    inputsOf party (first ++ second) = inputsOf party first ++ inputsOf party second := by
  induction first with
  | nil => rfl
  | cons event rest ih =>
      rw [List.cons_append, inputsOf, inputsOf, ih]
      split <;> rfl

theorem length_inputsOf_le (party : ρ) (events : List (ρ × ι)) :
    (inputsOf party events).length ≤ events.length := by
  induction events with
  | nil => exact Nat.le_refl 0
  | cons event rest ih =>
      rw [inputsOf, List.length_cons]
      split
      · rw [List.length_cons]
        exact Nat.succ_le_succ ih
      · exact Nat.le_succ_of_le ih

theorem mem_inputsOf {party : ρ} {input : ι} {events : List (ρ × ι)} :
    input ∈ inputsOf party events ↔ (party, input) ∈ events := by
  induction events with
  | nil => simp
  | cons event rest ih =>
      obtain ⟨other, given⟩ := event
      by_cases same : other = party
      · subst same
        simp [ih]
      · rw [inputsOf_cons_of_ne same, ih]
        simp [Ne.symm same]

theorem inputsOf_eq_filterMap (party : ρ) (events : List (ρ × ι)) :
    inputsOf party events =
      events.filterMap fun event => if event.1 = party then some event.2 else none := by
  induction events with
  | nil => rfl
  | cons event rest ih =>
      rw [inputsOf, List.filterMap_cons, ih]
      split <;> rfl

theorem inputsOf_sublist {first second : List (ρ × ι)} (part : first.Sublist second) (party : ρ) :
    (inputsOf party first).Sublist (inputsOf party second) := by
  rw [inputsOf_eq_filterMap, inputsOf_eq_filterMap]
  exact part.filterMap _

/-- A selection by input is one for each party. -/
theorem inputsOf_filter (keep : ι → Bool) (party : ρ) (events : List (ρ × ι)) :
    inputsOf party (events.filter fun event => keep event.2) =
      (inputsOf party events).filter keep := by
  induction events with
  | nil => rfl
  | cons event rest ih =>
      obtain ⟨other, input⟩ := event
      by_cases same : other = party
      · subst same
        rw [inputsOf_cons_self, List.filter_cons, List.filter_cons]
        split
        · rw [inputsOf_cons_self, ih]
        · exact ih
      · rw [inputsOf_cons_of_ne same, List.filter_cons]
        split
        · rw [inputsOf_cons_of_ne same, ih]
        · exact ih

/-- The inputs of one party and those of the others. -/
theorem length_inputsOf_add (party : ρ) (events : List (ρ × ι)) :
    (inputsOf party events).length + (events.filter fun event => event.1 ≠ party).length =
      events.length := by
  induction events with
  | nil => rfl
  | cons event rest ih =>
      obtain ⟨other, input⟩ := event
      by_cases same : other = party
      · subst same
        have kept : (((other, input) :: rest).filter fun event => event.1 ≠ other) =
            rest.filter fun event => event.1 ≠ other :=
          List.filter_cons_of_neg (by simp)
        rw [inputsOf_cons_self, kept, List.length_cons, List.length_cons, ← ih]
        omega
      · have kept : (((other, input) :: rest).filter fun event => event.1 ≠ party) =
            (other, input) :: rest.filter fun event => event.1 ≠ party :=
          List.filter_cons_of_pos (by simpa using same)
        rw [inputsOf_cons_of_ne same, kept, List.length_cons, List.length_cons, ← ih]
        omega

/-- A bound for each party bounds them all together. -/
theorem length_le_of_inputsOf {members : List ρ} {events : List (ρ × ι)} {bound : Nat}
    (own : ∀ event ∈ events, event.1 ∈ members)
    (each : ∀ party, (inputsOf party events).length ≤ bound) :
    events.length ≤ members.length * bound := by
  induction members generalizing events with
  | nil =>
      cases events with
      | nil => exact Nat.zero_le _
      | cons event rest => cases own event List.mem_cons_self
  | cons member rest ih =>
      have others : (events.filter fun event => event.1 ≠ member).length ≤
          rest.length * bound := by
        apply ih
        · intro event found
          obtain ⟨inside, different⟩ := List.mem_filter.mp found
          rcases List.mem_cons.mp (own event inside) with same | later
          · exact absurd same (of_decide_eq_true different)
          · exact later
        · intro party
          exact Nat.le_trans (inputsOf_sublist List.filter_sublist party).length_le (each party)
      have split := length_inputsOf_add member events
      have few := each member
      rw [List.length_cons, Nat.succ_mul]
      omega

namespace Machine

/-- The machines of several parties as one. -/
def interleaved (machines : ρ → Machine ι σ ο) : Machine (ρ × ι) (ρ → σ) ο where
  step states event :=
    (((machines event.1).step (states event.1) event.2).1,
      Function.update states event.1 ((machines event.1).step (states event.1) event.2).2)

/-- **A party goes through the run of its own machine.** -/
theorem final_interleaved (machines : ρ → Machine ι σ ο) (states : ρ → σ)
    (events : List (ρ × ι)) (party : ρ) :
    (interleaved machines).final states events party =
      (machines party).final (states party) (inputsOf party events) := by
  induction events generalizing states with
  | nil => rfl
  | cons event rest ih =>
      obtain ⟨other, input⟩ := event
      rw [final_cons, ih]
      by_cases same : other = party
      · subst same
        rw [inputsOf_cons_self, final_cons]
        exact congrArg (fun state => (machines other).final state (inputsOf other rest))
          (Function.update_self other _ states)
      · rw [inputsOf_cons_of_ne same]
        exact congrArg (fun state => (machines party).final state (inputsOf party rest))
          (Function.update_of_ne (Ne.symm same) _ states)

/-- What the parties log in a run of all, each entry with its party. -/
def interleavedLog {α : Type} (machines : ρ → Machine ι σ ο) (observe : ι → ο → σ → Option α)
    (states : ρ → σ) (events : List (ρ × ι)) : List (ρ × α) :=
  (interleaved machines).log
    (fun event output after =>
      (observe event.2 output (after event.1)).map fun entry => (event.1, entry))
    states events

/-- **A party logs what its own machine logs.** -/
theorem inputsOf_interleavedLog {α : Type} (machines : ρ → Machine ι σ ο)
    (observe : ι → ο → σ → Option α) (states : ρ → σ) (events : List (ρ × ι)) (party : ρ) :
    inputsOf party (interleavedLog machines observe states events) =
      (machines party).log observe (states party) (inputsOf party events) := by
  induction events generalizing states with
  | nil => rfl
  | cons event rest ih =>
      obtain ⟨other, input⟩ := event
      rw [interleavedLog, log_cons, inputsOf_append]
      have later := ih ((interleaved machines).step states (other, input)).2
      rw [interleavedLog] at later
      rw [later]
      by_cases same : other = party
      · subst same
        have entry : ∀ noted : Option α,
            inputsOf other (noted.map fun entry => (other, entry)).toList = noted.toList := by
          intro noted
          cases noted with
          | none => rfl
          | some entry => exact inputsOf_cons_self other entry []
        rw [inputsOf_cons_self, log_cons, entry]
        simp only [interleaved, Function.update_self]
      · have silent : ∀ noted : Option α,
            inputsOf party (noted.map fun entry => (other, entry)).toList = [] := by
          intro noted
          cases noted with
          | none => rfl
          | some entry => exact inputsOf_cons_of_ne same entry []
        rw [inputsOf_cons_of_ne same, silent, List.nil_append]
        simp only [interleaved, Function.update_of_ne (Ne.symm same)]

/-- A guard on the steps of each party guards the run of its own machine. -/
theorem guarded_inputsOf {machines : ρ → Machine ι σ ο} {guard : σ → ι → Prop} {states : ρ → σ}
    {events : List (ρ × ι)}
    (guarded : (interleaved machines).Guarded (fun states event => guard (states event.1) event.2)
      states events) (party : ρ) :
    (machines party).Guarded guard (states party) (inputsOf party events) := by
  induction events generalizing states with
  | nil => exact .nil
  | cons event rest ih =>
      obtain ⟨other, input⟩ := event
      obtain ⟨meets, later⟩ := guarded_cons.mp guarded
      have rests := ih later
      by_cases same : other = party
      · subst same
        rw [inputsOf_cons_self]
        refine .cons meets ?_
        simpa only [interleaved, Function.update_self] using rests
      · rw [inputsOf_cons_of_ne same]
        simpa only [interleaved, Function.update_of_ne (Ne.symm same)] using rests

end Machine

end SkPqc.Library

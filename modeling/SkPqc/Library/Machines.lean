import Mathlib.Data.List.Basic
import Mathlib.Order.Basic

/-!
# Runs of deterministic machines

A machine takes one input at a time and answers with an output and a new state.
The trace of a run is the list of its inputs, each with the output it gave. A log
of a run lists what an observer makes of its steps.

Two rules reduce a statement about runs to one about single steps. A log
invariant relates the log so far to the state it led to; when every step keeps
it, it holds of every run (`log_invariant`). The unwinding rule
(`visible_trace_eq_purged`) is about two runs: when a relation between states is
kept by a visible input on both sides, with equal outputs, and by a hidden input
on the left side alone, then the visible part of a trace is the trace of the
visible inputs.

Both rules may assume a guard: a condition that every input of the run meets in
the state in which it arrives. So may the rule for logs whose entries have places: when
each step logs between the positions before and after it, the log is in order
(`inOrder`).

Two runs with inputs that differ, but only as a relation allows in the states of
the first run, are in parallel. When paired inputs keep related states related and
answer alike, the runs answer alike throughout (`forall₂_outputs`).
-/

set_option autoImplicit false

namespace SkPqc.Library

/-- A deterministic machine with inputs `ι`, states `σ` and outputs `ο`. -/
structure Machine (ι σ ο : Type) where
  step : σ → ι → ο × σ

namespace Machine

variable {ι σ ο : Type} (machine : Machine ι σ ο)

/-- The state that a list of inputs leads to. -/
def final (state : σ) : List ι → σ
  | [] => state
  | input :: rest => final (machine.step state input).2 rest

/-- The inputs of a run, each with its output. -/
def trace (state : σ) : List ι → List (ι × ο)
  | [] => []
  | input :: rest =>
      (input, (machine.step state input).1) :: trace (machine.step state input).2 rest

/-- What an observer of the steps writes down: something or nothing about each,
given its input, its output and the state after it. -/
def log {α : Type} (observe : ι → ο → σ → Option α) (state : σ) : List ι → List α
  | [] => []
  | input :: rest =>
      (observe input (machine.step state input).1 (machine.step state input).2).toList ++
        log observe (machine.step state input).2 rest

/-- Every input meets the guard in the state in which it arrives. -/
inductive Guarded (guard : σ → ι → Prop) : σ → List ι → Prop
  | nil {state : σ} : Guarded guard state []
  | cons {state : σ} {input : ι} {rest : List ι} (meets : guard state input)
      (later : Guarded guard (machine.step state input).2 rest) :
      Guarded guard state (input :: rest)

@[simp] theorem final_nil (state : σ) : machine.final state [] = state := rfl

@[simp] theorem final_cons (state : σ) (input : ι) (rest : List ι) :
    machine.final state (input :: rest) = machine.final (machine.step state input).2 rest := rfl

@[simp] theorem trace_nil (state : σ) : machine.trace state [] = [] := rfl

@[simp] theorem trace_cons (state : σ) (input : ι) (rest : List ι) :
    machine.trace state (input :: rest) =
      (input, (machine.step state input).1) :: machine.trace (machine.step state input).2 rest :=
  rfl

@[simp] theorem log_nil {α : Type} (observe : ι → ο → σ → Option α) (state : σ) :
    machine.log observe state [] = [] := rfl

@[simp] theorem log_cons {α : Type} (observe : ι → ο → σ → Option α) (state : σ) (input : ι)
    (rest : List ι) :
    machine.log observe state (input :: rest) =
      (observe input (machine.step state input).1 (machine.step state input).2).toList ++
        machine.log observe (machine.step state input).2 rest :=
  rfl

theorem final_append (state : σ) (first second : List ι) :
    machine.final state (first ++ second) = machine.final (machine.final state first) second := by
  induction first generalizing state with
  | nil => rfl
  | cons input rest ih => exact ih _

theorem log_append {α : Type} (observe : ι → ο → σ → Option α) (state : σ)
    (first second : List ι) :
    machine.log observe state (first ++ second) =
      machine.log observe state first ++
        machine.log observe (machine.final state first) second := by
  induction first generalizing state with
  | nil => rfl
  | cons input rest ih =>
      rw [List.cons_append, log_cons, ih, log_cons, final_cons, List.append_assoc]

variable {machine}

theorem guarded_cons {guard : σ → ι → Prop} {state : σ} {input : ι} {rest : List ι} :
    machine.Guarded guard state (input :: rest) ↔
      guard state input ∧ machine.Guarded guard (machine.step state input).2 rest := by
  constructor
  · intro guarded
    cases guarded with
    | cons meets later => exact ⟨meets, later⟩
  · rintro ⟨meets, later⟩
    exact .cons meets later

/-- A condition that holds of every input in every state guards every run. -/
theorem guarded_of_forall {guard : σ → ι → Prop} (always : ∀ state input, guard state input)
    (state : σ) (inputs : List ι) : machine.Guarded guard state inputs := by
  induction inputs generalizing state with
  | nil => exact .nil
  | cons input rest ih => exact .cons (always state input) (ih _)

/-- A condition on the inputs alone guards the runs of inputs that meet it. -/
theorem guarded_of_mem {meets : ι → Prop} {inputs : List ι}
    (all : ∀ input ∈ inputs, meets input) (state : σ) :
    machine.Guarded (fun _ input => meets input) state inputs := by
  induction inputs generalizing state with
  | nil => exact .nil
  | cons input rest ih =>
      exact .cons (all input List.mem_cons_self)
        (ih (fun later found => all later (List.mem_cons_of_mem _ found)) _)

/-- Every run meets the guard that asks for nothing. -/
theorem guarded_true (state : σ) (inputs : List ι) :
    machine.Guarded (fun _ _ => True) state inputs :=
  guarded_of_forall (fun _ _ => trivial) state inputs

/-- **A log invariant kept by every guarded step holds of every guarded run.** -/
theorem log_invariant {α : Type} {observe : ι → ο → σ → Option α} {guard : σ → ι → Prop}
    {invariant : List α → σ → Prop}
    (keeps : ∀ past state input, invariant past state → guard state input →
      invariant (past ++
          (observe input (machine.step state input).1 (machine.step state input).2).toList)
        (machine.step state input).2)
    {past : List α} {state : σ} (holds : invariant past state) {inputs : List ι}
    (guarded : machine.Guarded guard state inputs) :
    invariant (past ++ machine.log observe state inputs) (machine.final state inputs) := by
  induction inputs generalizing past state with
  | nil => simpa using holds
  | cons input rest ih =>
      obtain ⟨meets, later⟩ := guarded_cons.mp guarded
      have next := ih (keeps past state input holds meets) later
      simpa using next

/-- A state invariant kept by every guarded step holds after every guarded
run. -/
theorem state_invariant {guard : σ → ι → Prop} {invariant : σ → Prop}
    (keeps : ∀ state input, invariant state → guard state input →
      invariant (machine.step state input).2)
    {state : σ} (holds : invariant state) {inputs : List ι}
    (guarded : machine.Guarded guard state inputs) : invariant (machine.final state inputs) := by
  induction inputs generalizing state with
  | nil => exact holds
  | cons input rest ih =>
      obtain ⟨meets, later⟩ := guarded_cons.mp guarded
      exact ih (keeps state input holds meets) later

/-- The visible part of a trace. -/
def visible (keep : ι → Bool) (trace : List (ι × ο)) : List (ι × ο) :=
  trace.filter fun entry => keep entry.1

theorem visible_cons_of_pos {keep : ι → Bool} {input : ι} (shown : keep input = true)
    (output : ο) (rest : List (ι × ο)) :
    visible keep ((input, output) :: rest) = (input, output) :: visible keep rest :=
  List.filter_cons_of_pos shown

theorem visible_cons_of_neg {keep : ι → Bool} {input : ι} (hidden : keep input = false)
    (output : ο) (rest : List (ι × ο)) :
    visible keep ((input, output) :: rest) = visible keep rest :=
  List.filter_cons_of_neg (by simp [hidden])

/-- **Unwinding.** When visible inputs answer alike in related states and keep
them related, and hidden inputs keep them related on the left, hiding inputs
does not change what the visible ones answer. -/
theorem visible_trace_eq_purged {guard : σ → ι → Prop} {keep : ι → Bool}
    {related : σ → σ → Prop}
    (visibleStep : ∀ left right input, related left right → guard left input →
      keep input = true →
      (machine.step left input).1 = (machine.step right input).1 ∧
        related (machine.step left input).2 (machine.step right input).2)
    (hiddenStep : ∀ left right input, related left right → guard left input →
      keep input = false → related (machine.step left input).2 right)
    {left right : σ} (start : related left right) {inputs : List ι}
    (guarded : machine.Guarded guard left inputs) :
    visible keep (machine.trace left inputs) = machine.trace right (inputs.filter keep) := by
  induction inputs generalizing left right with
  | nil => rfl
  | cons input rest ih =>
      obtain ⟨meets, later⟩ := guarded_cons.mp guarded
      cases shown : keep input with
      | true =>
          obtain ⟨answer, next⟩ := visibleStep left right input start meets shown
          rw [List.filter_cons_of_pos shown, trace_cons, trace_cons, visible_cons_of_pos shown,
            ih next later, answer]
      | false =>
          rw [List.filter_cons_of_neg (by simp [shown]), trace_cons, visible_cons_of_neg shown]
          exact ih (hiddenStep left right input start meets shown) later

/-! ## Logs in order -/

/-- Every entry of the log has a place at or behind that of the state before the run and
before that of the state after it, and the entries are in the order of their places. -/
structure InOrder {α ρ : Type} [Preorder ρ] (machine : Machine ι σ ο)
    (observe : ι → ο → σ → Option α) (position : σ → ρ) (place : α → ρ) (state : σ)
    (inputs : List ι) : Prop where
  forward : position state ≤ position (machine.final state inputs)
  behind : ∀ entry ∈ machine.log observe state inputs, position state ≤ place entry
  before : ∀ entry ∈ machine.log observe state inputs,
    place entry < position (machine.final state inputs)
  increasing : (machine.log observe state inputs).Pairwise fun first second =>
    place first < place second

/-- **A log in order.** When no step goes back, and what a step logs has its place between
the states before and after it, the log of every guarded run is in order. -/
theorem inOrder {α ρ : Type} [Preorder ρ] {observe : ι → ο → σ → Option α}
    {position : σ → ρ} {place : α → ρ} {guard : σ → ι → Prop} {invariant : σ → Prop}
    (keeps : ∀ state input, invariant state → guard state input →
      invariant (machine.step state input).2)
    (forward : ∀ state input, invariant state → guard state input →
      position state ≤ position (machine.step state input).2)
    (between : ∀ state input, invariant state → guard state input →
      ∀ entry ∈ observe input (machine.step state input).1 (machine.step state input).2,
        position state ≤ place entry ∧ place entry < position (machine.step state input).2)
    {state : σ} (holds : invariant state) {inputs : List ι}
    (guarded : machine.Guarded guard state inputs) :
    InOrder machine observe position place state inputs := by
  induction inputs generalizing state with
  | nil =>
      refine ⟨le_refl _, ?_, ?_, .nil⟩
      · intro entry impossible
        cases impossible
      · intro entry impossible
        cases impossible
  | cons input rest ih =>
      obtain ⟨meets, later⟩ := guarded_cons.mp guarded
      have run := ih (keeps state input holds meets) later
      have step := between state input holds meets
      refine ⟨(forward state input holds meets).trans run.forward, ?_, ?_, ?_⟩
      · intro entry found
        rcases List.mem_append.mp found with first | second
        · exact (step entry (Option.mem_toList.mp first)).1
        · exact (forward state input holds meets).trans (run.behind entry second)
      · intro entry found
        rcases List.mem_append.mp found with first | second
        · exact (step entry (Option.mem_toList.mp first)).2.trans_le run.forward
        · exact run.before entry second
      · refine List.pairwise_append.mpr ⟨?_, run.increasing, ?_⟩
        · cases observe input (machine.step state input).1 (machine.step state input).2 with
          | none => exact .nil
          | some entry => exact List.pairwise_singleton _ _
        · intro first found second found'
          exact (step first (Option.mem_toList.mp found)).2.trans_le (run.behind second found')

/-! ## Outputs -/

/-- The outputs of a run. -/
def outputs (machine : Machine ι σ ο) (state : σ) (inputs : List ι) : List ο :=
  (machine.trace state inputs).map Prod.snd

/-- What guarded steps answer, guarded runs answer throughout. -/
theorem forall_mem_outputs {guard : σ → ι → Prop} {good : ο → Prop}
    (answers : ∀ state input, guard state input → good (machine.step state input).1)
    {state : σ} {inputs : List ι} (guarded : machine.Guarded guard state inputs) :
    ∀ output ∈ machine.outputs state inputs, good output := by
  induction guarded with
  | nil =>
      intro output impossible
      cases impossible
  | cons meets later ih =>
      intro output found
      rcases List.mem_cons.mp found with rfl | rest
      · exact answers _ _ meets
      · exact ih output rest

/-! ## Two runs in parallel -/

/-- The inputs of two runs are paired, one by one, in the states of the first run. -/
inductive Parallel (machine : Machine ι σ ο) (paired : σ → ι → ι → Prop) :
    σ → List ι → List ι → Prop
  | nil {state : σ} : Parallel machine paired state [] []
  | cons {state : σ} {input input' : ι} {rest rest' : List ι} (pair : paired state input input')
      (later : Parallel machine paired (machine.step state input).2 rest rest') :
      Parallel machine paired state (input :: rest) (input' :: rest')

/-- **Runs in parallel answer alike.** -/
theorem forall₂_outputs {paired : σ → ι → ι → Prop} {related : σ → σ → Prop}
    {alike : ο → ο → Prop}
    (pairedStep : ∀ left right input input', related left right → paired left input input' →
      alike (machine.step left input).1 (machine.step right input').1 ∧
        related (machine.step left input).2 (machine.step right input').2)
    {left right : σ} (start : related left right) {inputs inputs' : List ι}
    (parallel : machine.Parallel paired left inputs inputs') :
    List.Forall₂ alike (machine.outputs left inputs) (machine.outputs right inputs') := by
  induction parallel generalizing right with
  | nil => exact .nil
  | @cons left input input' rest rest' pair later ih =>
      obtain ⟨answer, next⟩ := pairedStep left right input input' start pair
      exact .cons answer (ih next)

end Machine

end SkPqc.Library

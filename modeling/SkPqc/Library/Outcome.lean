import Mathlib.Algebra.Group.Nat.Defs

/-!
# Calls that return, fail or panic

A call of a fallible function comes to a value, to a typed error, or to a
panic. Panics are kept apart from errors: a caller can handle an error, and a
panic unwinds through every caller.

A method that updates its receiver in place is a function from the receiver to
an outcome and the receiver afterwards. The receiver is returned whatever the
outcome, since an update made before an error stays made.

Arithmetic on machine words depends on how the program was built: with overflow
checks an overflow panics, and without them it wraps.
-/

set_option autoImplicit false

namespace SkPqc.Library

/-- What a call comes to: a value, an error of type `ε`, or a panic. -/
inductive Outcome (ε α : Type) where
  | ok (value : α)
  | error (reason : ε)
  | panic
  deriving DecidableEq, Repr

namespace Outcome

variable {ε ε' α β : Type}

instance : Monad (Outcome ε) where
  pure := .ok
  bind
    | .ok value, next => next value
    | .error reason, _ => .error reason
    | .panic, _ => .panic

@[simp] theorem pure_eq (value : α) : (pure value : Outcome ε α) = .ok value := rfl

@[simp] theorem ok_bind (value : α) (next : α → Outcome ε β) :
    (Outcome.ok value >>= next) = next value := rfl

@[simp] theorem error_bind (reason : ε) (next : α → Outcome ε β) :
    (Outcome.error reason >>= next) = .error reason := rfl

@[simp] theorem panic_bind (next : α → Outcome ε β) :
    ((Outcome.panic : Outcome ε α) >>= next) = .panic := rfl

/-- Returning the value adds nothing. -/
theorem bind_ok (call : Outcome ε α) : (call >>= .ok) = call := by
  cases call <;> rfl

/-- A sequence returns a value exactly when both parts do. -/
theorem bind_eq_ok {call : Outcome ε α} {next : α → Outcome ε β} {value : β} :
    (call >>= next) = .ok value ↔ ∃ first, call = .ok first ∧ next first = .ok value := by
  cases call with
  | ok first => simp
  | error reason => simp
  | panic => simp

/-- Behind a check a call returns exactly when the check passes and the call returns. -/
theorem ite_error_eq_ok {bad : Prop} [Decidable bad] {reason : ε} {call : Outcome ε α} {value : α} :
    (if bad then .error reason else call) = .ok value ↔ ¬ bad ∧ call = .ok value := by
  split
  · rename_i failed
    exact iff_of_false (by simp) fun passed => passed.1 failed
  · rename_i passed
    exact (and_iff_right passed).symm

/-- Working on with a value adds no error. -/
theorem bind_ok_eq_error {call : Outcome ε α} {convert : α → β} {reason : ε} :
    (call >>= fun value => .ok (convert value)) = .error reason ↔ call = .error reason := by
  cases call <;> simp

/-- A sequence panics exactly when its first part does, or the second does
after the first returned. -/
theorem bind_eq_panic {call : Outcome ε α} {next : α → Outcome ε β} :
    (call >>= next) = .panic ↔
      call = .panic ∨ ∃ first, call = .ok first ∧ next first = .panic := by
  cases call with
  | ok first => simp
  | error reason => simp
  | panic => simp

/-- A call that does not panic fails exactly when it returns nothing. -/
theorem exists_error_iff {call : Outcome ε α} (safe : call ≠ .panic) :
    (∃ reason, call = .error reason) ↔ ¬ ∃ value, call = .ok value := by
  cases call with
  | ok value => simp
  | error reason => simp
  | panic => exact absurd rfl safe

/-- The same outcome with its error translated, as `map_err` and `?` do. -/
def mapError (translate : ε → ε') : Outcome ε α → Outcome ε' α
  | .ok value => .ok value
  | .error reason => .error (translate reason)
  | .panic => .panic

@[simp] theorem mapError_ok (translate : ε → ε') (value : α) :
    (Outcome.ok value : Outcome ε α).mapError translate = .ok value := rfl

@[simp] theorem mapError_error (translate : ε → ε') (reason : ε) :
    (Outcome.error reason : Outcome ε α).mapError translate = .error (translate reason) := rfl

@[simp] theorem mapError_panic (translate : ε → ε') :
    (Outcome.panic : Outcome ε α).mapError translate = .panic := rfl

@[simp] theorem mapError_eq_ok {translate : ε → ε'} {call : Outcome ε α} {value : α} :
    call.mapError translate = .ok value ↔ call = .ok value := by
  cases call <;> simp

@[simp] theorem mapError_eq_panic {translate : ε → ε'} {call : Outcome ε α} :
    call.mapError translate = .panic ↔ call = .panic := by
  cases call <;> simp

theorem mapError_eq_error {translate : ε → ε'} {call : Outcome ε α} {reason : ε'} :
    call.mapError translate = .error reason ↔
      ∃ cause, call = .error cause ∧ translate cause = reason := by
  cases call <;> simp

theorem exists_mapError_eq_error {translate : ε → ε'} {call : Outcome ε α} :
    (∃ reason, call.mapError translate = .error reason) ↔ ∃ reason, call = .error reason := by
  cases call <;> simp

/-- A present value, or the given error: `ok_or`. -/
def ofOption (reason : ε) : Option α → Outcome ε α
  | some value => .ok value
  | none => .error reason

@[simp] theorem ofOption_some (reason : ε) (value : α) :
    ofOption reason (some value) = .ok value := rfl

@[simp] theorem ofOption_none (reason : ε) :
    (ofOption reason none : Outcome ε α) = .error reason := rfl

@[simp] theorem ofOption_eq_ok {reason : ε} {found : Option α} {value : α} :
    ofOption reason found = .ok value ↔ found = some value := by
  cases found <;> simp

@[simp] theorem ofOption_ne_panic {reason : ε} {found : Option α} :
    ofOption reason found ≠ .panic := by
  cases found <;> simp

/-- A value that the program takes for granted: `expect` and `unwrap` panic on
an error. -/
def expect : Outcome ε α → Outcome ε' α
  | .ok value => .ok value
  | .error _ => .panic
  | .panic => .panic

@[simp] theorem expect_ok (value : α) :
    ((Outcome.ok value : Outcome ε α).expect : Outcome ε' α) = .ok value := rfl

end Outcome

/-! ## Methods that update their receiver -/

/-- A method on a receiver of type `σ`: the outcome of the call, and the
receiver afterwards. -/
def Method (σ ε α : Type) : Type := σ → Outcome ε α × σ

namespace Method

variable {σ ε α β : Type}

/-- Call a method on a receiver. -/
def run (method : Method σ ε α) (receiver : σ) : Outcome ε α × σ := method receiver

instance : Monad (Method σ ε) where
  pure value := fun receiver => (.ok value, receiver)
  bind method next := fun receiver =>
    match method receiver with
    | (.ok value, receiver') => next value receiver'
    | (.error reason, receiver') => (.error reason, receiver')
    | (.panic, receiver') => (.panic, receiver')

/-- Read the receiver. -/
def get : Method σ ε σ := fun receiver => (.ok receiver, receiver)

/-- Replace the receiver. -/
def set (receiver' : σ) : Method σ ε Unit := fun _ => (.ok (), receiver')

/-- A call that does not touch the receiver. -/
def lift (call : Outcome ε α) : Method σ ε α := fun receiver => (call, receiver)

@[simp] theorem run_pure (value : α) (receiver : σ) :
    (pure value : Method σ ε α).run receiver = (.ok value, receiver) := rfl

@[simp] theorem run_set (receiver receiver' : σ) :
    (set receiver' : Method σ ε Unit).run receiver = (.ok (), receiver') := rfl

@[simp] theorem run_lift (call : Outcome ε α) (receiver : σ) :
    (lift call : Method σ ε α).run receiver = (call, receiver) := rfl

/-- A sequence goes on where the first call left the receiver. -/
theorem run_bind (method : Method σ ε α) (next : α → Method σ ε β) (receiver : σ) :
    (method >>= next).run receiver =
      match method.run receiver with
      | (.ok value, receiver') => (next value).run receiver'
      | (.error reason, receiver') => (.error reason, receiver')
      | (.panic, receiver') => (.panic, receiver') := rfl

theorem run_bind_ok {method : Method σ ε α} {next : α → Method σ ε β}
    {receiver receiver' : σ} {value : α} (called : method.run receiver = (.ok value, receiver')) :
    (method >>= next).run receiver = (next value).run receiver' := by
  rw [run_bind, called]

theorem run_bind_error {method : Method σ ε α} {next : α → Method σ ε β}
    {receiver receiver' : σ} {reason : ε}
    (called : method.run receiver = (.error reason, receiver')) :
    (method >>= next).run receiver = (.error reason, receiver') := by
  rw [run_bind, called]

theorem run_bind_panic {method : Method σ ε α} {next : α → Method σ ε β}
    {receiver receiver' : σ} (called : method.run receiver = (.panic, receiver')) :
    (method >>= next).run receiver = (.panic, receiver') := by
  rw [run_bind, called]

/-- A sequence of calls returns exactly when both do, one after the other. -/
theorem run_bind_eq_ok {method : Method σ ε α} {next : α → Method σ ε β} {receiver after : σ}
    {value : β} :
    (method >>= next).run receiver = (.ok value, after) ↔
      ∃ first between, method.run receiver = (.ok first, between) ∧
        (next first).run between = (.ok value, after) := by
  rcases called : method.run receiver with ⟨outcome, between⟩
  cases outcome with
  | ok first =>
      rw [run_bind_ok called]
      constructor
      · intro returned
        exact ⟨first, between, rfl, returned⟩
      · rintro ⟨_, _, ⟨⟩, returned⟩
        exact returned
  | error reason => simp [run_bind_error called]
  | panic => simp [run_bind_panic called]

/-- Sequencing is associative. -/
theorem bind_assoc {γ : Type} (method : Method σ ε α) (next : α → Method σ ε β)
    (last : β → Method σ ε γ) :
    method >>= next >>= last = method >>= fun value => next value >>= last := by
  funext receiver
  change (method >>= next >>= last).run receiver =
    (method >>= fun value => next value >>= last).run receiver
  rcases called : method.run receiver with ⟨outcome, between⟩
  cases outcome with
  | ok value =>
      rw [run_bind_ok called]
      rcases called' : (next value).run between with ⟨outcome', after⟩
      have both : (method >>= next).run receiver = (outcome', after) :=
        (run_bind_ok called).trans called'
      cases outcome' with
      | ok value' => rw [run_bind_ok both, run_bind_ok called']
      | error reason => rw [run_bind_error both, run_bind_error called']
      | panic => rw [run_bind_panic both, run_bind_panic called']
  | error reason => rw [run_bind_error (run_bind_error called), run_bind_error called]
  | panic => rw [run_bind_panic (run_bind_panic called), run_bind_panic called]

/-- After a call that leaves the receiver alone, the rest runs on the same
receiver. -/
@[simp] theorem run_lift_bind (call : Outcome ε α) (next : α → Method σ ε β) (receiver : σ) :
    (lift call >>= next).run receiver =
      match call with
      | .ok value => (next value).run receiver
      | .error reason => (.error reason, receiver)
      | .panic => (.panic, receiver) := by
  cases call <;> rfl

@[simp] theorem run_get_bind (next : σ → Method σ ε β) (receiver : σ) :
    (get >>= next).run receiver = (next receiver).run receiver := rfl

@[simp] theorem run_set_bind (receiver receiver' : σ) (next : Unit → Method σ ε β) :
    (set receiver' >>= next).run receiver = (next ()).run receiver' := rfl

end Method

/-! ## Word arithmetic -/

/-- The width of `usize` on the target. -/
inductive PointerWidth where
  | w32
  | w64
  deriving DecidableEq, Repr

/-- The number of bits in a `usize`. -/
def PointerWidth.bits : PointerWidth → Nat
  | .w32 => 32
  | .w64 => 64

/-- How a program was built: whether arithmetic overflow is checked, and how
wide `usize` is. -/
structure Build where
  overflowChecks : Bool
  pointerWidth : PointerWidth
  deriving DecidableEq, Repr

/-- The sum of two words of the given width: an overflow panics when it is
checked, and wraps otherwise. -/
def Build.add {ε : Type} (build : Build) (bits left right : Nat) : Outcome ε Nat :=
  if left + right < 2 ^ bits then .ok (left + right)
  else if build.overflowChecks then .panic
  else .ok ((left + right) % 2 ^ bits)

/-- The sum of two `u64`. -/
def Build.addU64 {ε : Type} (build : Build) (left right : UInt64) : Outcome ε UInt64 :=
  if left.toNat + right.toNat < 2 ^ 64 then .ok (left + right)
  else if build.overflowChecks then .panic
  else .ok (left + right)

theorem Build.add_of_lt {ε : Type} (build : Build) {bits left right : Nat}
    (small : left + right < 2 ^ bits) :
    (build.add bits left right : Outcome ε Nat) = .ok (left + right) := by
  simp [Build.add, small]

/-- A sum of two words that overflows panics, or comes before both. -/
theorem Build.add_of_not_lt {ε : Type} (build : Build) {bits left right : Nat}
    (leftWord : left < 2 ^ bits) (rightWord : right < 2 ^ bits)
    (large : ¬ left + right < 2 ^ bits) :
    (build.add bits left right : Outcome ε Nat) = .panic ∨
      ∃ sum, (build.add bits left right : Outcome ε Nat) = .ok sum ∧ sum < left := by
  unfold Build.add
  rw [if_neg large]
  split
  · exact .inl rfl
  · refine .inr ⟨_, rfl, ?_⟩
    rw [Nat.mod_eq_sub_mod (Nat.le_of_not_lt large), Nat.mod_eq_of_lt (by omega)]
    omega

theorem Build.addU64_of_lt {ε : Type} (build : Build) {left right : UInt64}
    (small : left.toNat + right.toNat < 2 ^ 64) :
    (build.addU64 left right : Outcome ε UInt64) = .ok (left + right) := by
  simp only [Build.addU64, if_pos small]

/-- A `u32` is a machine word of every width. -/
theorem Build.word_of_u32 (build : Build) {number : Nat} (small : number < 2 ^ 32) :
    number < 2 ^ build.pointerWidth.bits := by
  cases build.pointerWidth with
  | w32 => exact small
  | w64 => exact Nat.lt_trans small (by decide)

/-- Below the last word, counting up is the successor. -/
theorem toNat_add_one {word : UInt64} (room : word.toNat + 1 < 2 ^ 64) :
    (word + 1).toNat = word.toNat + 1 := by
  rw [UInt64.toNat_add]
  exact Nat.mod_eq_of_lt room

theorem Build.addU64_cases {ε : Type} (build : Build) (left right : UInt64) :
    (build.addU64 left right : Outcome ε UInt64) = .ok (left + right) ∨
      (build.addU64 left right : Outcome ε UInt64) = .panic := by
  unfold Build.addU64
  split
  · exact .inl rfl
  · split
    · exact .inr rfl
    · exact .inl rfl

/-- A sum that is returned did not overflow, unless overflow is not checked. -/
theorem Build.addU64_eq_ok {ε : Type} {build : Build} {left right sum : UInt64} :
    (build.addU64 left right : Outcome ε UInt64) = .ok sum ↔
      sum = left + right ∧
        (build.overflowChecks = true → left.toNat + right.toNat < 2 ^ 64) := by
  unfold Build.addU64
  split
  · rename_i small
    exact ⟨fun returned => ⟨(Outcome.ok.inj returned).symm, fun _ => small⟩,
      fun both => by rw [both.1]⟩
  · rename_i large
    split
    · rename_i checked
      refine ⟨fun impossible => ?_, fun both => absurd (both.2 checked) large⟩
      cases impossible
    · rename_i unchecked
      exact ⟨fun returned =>
          ⟨(Outcome.ok.inj returned).symm, fun checked => absurd checked unchecked⟩,
        fun both => by rw [both.1]⟩

/-- A sum panics when it overflows and overflow is checked. -/
theorem Build.addU64_eq_panic {ε : Type} {build : Build} {left right : UInt64} :
    (build.addU64 left right : Outcome ε UInt64) = .panic ↔
      build.overflowChecks = true ∧ ¬ left.toNat + right.toNat < 2 ^ 64 := by
  unfold Build.addU64
  split
  · rename_i small
    constructor
    · intro impossible
      cases impossible
    · rintro ⟨_, large⟩
      exact absurd small large
  · rename_i large
    split
    · rename_i checked
      exact ⟨fun _ => ⟨checked, large⟩, fun _ => rfl⟩
    · rename_i unchecked
      constructor
      · intro impossible
        cases impossible
      · rintro ⟨checked, _⟩
        exact absurd checked unchecked

end SkPqc.Library

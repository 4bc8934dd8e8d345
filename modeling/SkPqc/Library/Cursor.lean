import SkPqc.Library.Bytes

/-!
# Reading a byte string with a cursor

A parser keeps an offset into a byte string and takes the bytes ahead of it, a
given number at a time. The offset is a machine word, so adding to it may
overflow, and an overflow panics on every build (`run_takeBytes_of_le`): an
offset that wrapped stands before the one it was reached from. Where there is
none, taking succeeds exactly when enough bytes are left
(`run_takeBytes_eq_ok`, `run_takeBytes_of_drop`).

A parser whose reads are known by their ends panics exactly when one that it
reaches ends beyond the machine word (`ReadsBelow`).

What a parser fails with is told apart from where it panics: parsers that fail
with one kind of error compose (`FailsAs.bind`).
-/

set_option autoImplicit false

namespace SkPqc.Library

variable {ε α β : Type}

/-- Take the next `count` bytes and move the offset behind them. -/
def takeBytes (build : Build) (short : ε) (blob : Bytes) (count : Nat) : Method Nat ε Bytes := do
  let off ← Method.get
  let stop ← Method.lift (build.add build.pointerWidth.bits off count)
  if stop > blob.length then Method.lift (.error short)
  else do
    let chunk ← Method.lift (slice blob off stop)
    Method.set stop
    return chunk

section Take

variable {build : Build} {short : ε} {blob : Bytes} {count off : Nat}

/-- Taking bytes without overflow. -/
theorem run_takeBytes (small : off + count < 2 ^ build.pointerWidth.bits) :
    (takeBytes build short blob count).run off =
      if off + count ≤ blob.length then (.ok ((blob.drop off).take count), off + count)
      else (.error short, off) := by
  simp only [takeBytes, Method.run_get_bind, Method.run_lift_bind, build.add_of_lt small]
  by_cases enough : off + count ≤ blob.length
  · simp only [if_neg (Nat.not_lt.mpr enough), if_pos enough, Method.run_lift_bind,
      slice_of_le (Nat.le_add_right off count) enough, Method.run_set_bind, Method.run_pure,
      Nat.add_sub_cancel_left]
  · simp only [if_pos (Nat.lt_of_not_le enough), if_neg enough, Method.run_lift]

/-- Taking bytes on any build. An offset that overflows is caught by the overflow
check, or by the slice that starts behind its end. -/
theorem run_takeBytes_of_le (inside : off ≤ blob.length)
    (below : off < 2 ^ build.pointerWidth.bits) (word : count < 2 ^ build.pointerWidth.bits) :
    (takeBytes build short blob count).run off =
      if off + count < 2 ^ build.pointerWidth.bits then
        if off + count ≤ blob.length then (.ok ((blob.drop off).take count), off + count)
        else (.error short, off)
      else (.panic, off) := by
  by_cases small : off + count < 2 ^ build.pointerWidth.bits
  · rw [if_pos small, run_takeBytes small]
  · rw [if_neg small]
    rcases build.add_of_not_lt (ε := ε) below word small with panicked | ⟨stop, sum, inverted⟩
    · simp only [takeBytes, Method.run_get_bind, Method.run_lift_bind, panicked]
    · simp only [takeBytes, Method.run_get_bind, Method.run_lift_bind, sum]
      rw [if_neg (by omega)]
      simp only [Method.run_lift_bind, slice_of_lt inverted]

/-- What was taken stood ahead of the offset. -/
theorem run_takeBytes_eq_ok {chunk : Bytes} {stop : Nat} (inside : off ≤ blob.length)
    (below : off < 2 ^ build.pointerWidth.bits) (word : count < 2 ^ build.pointerWidth.bits)
    (taken : (takeBytes build short blob count).run off = (.ok chunk, stop)) :
    chunk.length = count ∧ stop = off + count ∧ stop ≤ blob.length ∧
      stop < 2 ^ build.pointerWidth.bits ∧ blob.drop off = chunk ++ blob.drop stop := by
  rw [run_takeBytes_of_le inside below word] at taken
  split at taken
  · rename_i small
    split at taken
    · rename_i enough
      cases taken
      refine ⟨by simp; omega, rfl, enough, small, ?_⟩
      rw [← List.drop_drop, List.take_append_drop]
    · cases taken
  · cases taken

/-- Bytes ahead of the offset are taken. -/
theorem run_takeBytes_of_drop {chunk rest : Bytes} (ahead : blob.drop off = chunk ++ rest)
    (inside : off ≤ blob.length) (length : chunk.length = count)
    (small : off + count < 2 ^ build.pointerWidth.bits) :
    (takeBytes build short blob count).run off = (.ok chunk, off + count) ∧
      blob.drop (off + count) = rest ∧ off + count ≤ blob.length := by
  have total : blob.length - off = chunk.length + rest.length := by
    rw [← List.length_drop, ahead, List.length_append]
  have enough : off + count ≤ blob.length := by omega
  refine ⟨?_, ?_, enough⟩
  · rw [run_takeBytes small, if_pos enough, ahead, ← length, List.take_left]
  · rw [← List.drop_drop, ahead, ← length, List.drop_left]

end Take

/-! ## Where a parser panics -/

/-- Every read ends below the limit, up to the first one that leaves the bytes: the
reads are given by their ends. -/
def ReadsBelow (limit size : Nat) : List Nat → Prop
  | [] => True
  | stop :: rest => stop < limit ∧ (stop ≤ size → ReadsBelow limit size rest)

instance ReadsBelow.decidable (limit size : Nat) :
    (stops : List Nat) → Decidable (ReadsBelow limit size stops)
  | [] => inferInstanceAs (Decidable True)
  | stop :: rest =>
      have := ReadsBelow.decidable limit size rest
      inferInstanceAs (Decidable (stop < limit ∧ (stop ≤ size → ReadsBelow limit size rest)))

theorem readsBelow_of_forall {limit size : Nat} {stops : List Nat}
    (below : ∀ stop ∈ stops, stop < limit) : ReadsBelow limit size stops := by
  induction stops with
  | nil => exact trivial
  | cons stop rest ih =>
      refine ⟨below stop (List.mem_cons_self ..), fun _ => ih ?_⟩
      intro later found
      exact below later (List.mem_cons_of_mem stop found)

/-- From an offset inside the bytes, the parser panics exactly when one of its reads ends
beyond the machine word. -/
def ReadsAs (build : Build) (blob : Bytes) (off : Nat) (parser : Method Nat ε α)
    (stops : List Nat) : Prop :=
  off ≤ blob.length → off < 2 ^ build.pointerWidth.bits →
    ((parser.run off).1 ≠ .panic ↔
      ReadsBelow (2 ^ build.pointerWidth.bits) blob.length stops)

namespace ReadsAs

variable {build : Build} {blob : Bytes} {off : Nat}

/-- A parser that does not read. -/
theorem nil {parser : Method Nat ε α} (safe : (parser.run off).1 ≠ .panic) :
    ReadsAs build blob off parser [] :=
  fun _ _ => iff_of_true safe trivial

/-- A read, and what follows it: the rest runs only when the read ends inside the
bytes. -/
theorem takeBytes_bind {short : ε} {count : Nat} {next : Bytes → Method Nat ε α}
    {stops : List Nat} (word : count < 2 ^ build.pointerWidth.bits)
    (rest : ReadsAs build blob (off + count) (next ((blob.drop off).take count)) stops) :
    ReadsAs build blob off (takeBytes build short blob count >>= next)
      ((off + count) :: stops) := by
  intro inside below
  have taken := @run_takeBytes_of_le ε build short blob count off inside below word
  by_cases small : off + count < 2 ^ build.pointerWidth.bits
  · rw [if_pos small] at taken
    by_cases enough : off + count ≤ blob.length
    · rw [if_pos enough] at taken
      rw [Method.run_bind_ok taken, rest enough small]
      exact ⟨fun safe => ⟨small, fun _ => safe⟩, fun both => both.2 enough⟩
    · rw [if_neg enough] at taken
      rw [Method.run_bind_error taken]
      exact iff_of_true (by simp) ⟨small, fun impossible => absurd impossible enough⟩
  · rw [if_neg small] at taken
    rw [Method.run_bind_panic taken]
    exact iff_of_false (fun safe => safe rfl) fun both => small both.1

end ReadsAs

/-! ## Parsers that fail as expected -/

/-- From every offset the parser fails with an expected error, if it fails. -/
def FailsAs (expected : ε → Prop) (parser : Method Nat ε α) : Prop :=
  ∀ off reason off', parser.run off = (.error reason, off') → expected reason

namespace FailsAs

variable {expected : ε → Prop}

theorem pure (value : α) : FailsAs expected (Pure.pure value) := by
  intro off reason off' failed
  cases failed

theorem get : FailsAs expected Method.get := by
  intro off reason off' failed
  cases failed

theorem lift_error {reason : ε} (holds : expected reason) :
    FailsAs expected (Method.lift (.error reason) : Method Nat ε α) := by
  rintro off _ off' ⟨⟩
  exact holds

theorem bind {parser : Method Nat ε α} {next : α → Method Nat ε β}
    (first : FailsAs expected parser) (second : ∀ value, FailsAs expected (next value)) :
    FailsAs expected (parser >>= next) := by
  intro off reason off' failed
  rcases called : parser.run off with ⟨outcome, between⟩
  cases outcome with
  | ok value =>
      rw [Method.run_bind_ok called] at failed
      exact second value between reason off' failed
  | error reason' =>
      rw [Method.run_bind_error called] at failed
      cases failed
      exact first off reason off' called
  | panic =>
      rw [Method.run_bind_panic called] at failed
      cases failed

theorem takeBytes {short : ε} (build : Build) (blob : Bytes) (count : Nat)
    (holds : expected short) : FailsAs expected (takeBytes build short blob count) := by
  refine get.bind fun off => ?_
  refine bind ?_ fun stop => ?_
  · intro off' reason off'' failed
    rw [Method.run_lift] at failed
    have added := congrArg Prod.fst failed
    unfold Build.add at added
    split at added
    · cases added
    · split at added <;> cases added
  · split
    · exact lift_error holds
    · refine bind ?_ fun chunk => ?_
      · intro off' reason off'' failed
        rw [Method.run_lift] at failed
        have sliced := congrArg Prod.fst failed
        unfold slice at sliced
        split at sliced <;> cases sliced
      · intro off' reason off'' failed
        cases failed

end FailsAs

end SkPqc.Library

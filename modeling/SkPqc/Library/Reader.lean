import SkPqc.Library.Bytes

/-!
# Readers of text

A reader takes a value from the front of a byte string, or fails. It is closed
when what stands behind the value does not matter, and settled when it does not
matter as long as something stands there: a decimal number ends only where
another symbol begins.

Closed readers compose to a closed one (`Closed.bind`), settled readers to a
settled one (`Settled.bind`), and a settled reader in front of a closed one that
needs a symbol gives a closed one (`Settled.bind_closed`). So a text that is read
to its end by a closed reader is the front of no longer text that is read to its
end.
-/

set_option autoImplicit false

namespace SkPqc.Library

/-- A reader of values of type `α`: the value, and the bytes behind it. -/
abbrev Reader (α : Type) : Type := StateT Bytes Option α

namespace Reader

variable {α β : Type}

/-! ## Elementary readers -/

/-- The next byte. -/
def byte : Reader UInt8
  | [] => none
  | first :: rest => some (first, rest)

/-- The next byte, which must be the given one. -/
def expect (symbol : UInt8) : Reader Unit := do
  let first ← byte
  if first = symbol then return () else failure

/-- The next character, in UTF-8. -/
def character : Reader Char := fun input =>
  (ByteArray.utf8DecodeChar? input.toByteArray 0).map fun ch => (ch, input.drop ch.utf8Size)

/-- The longest run of bytes of a kind. -/
def longest (kind : UInt8 → Bool) : Reader Bytes := fun input =>
  some (input.takeWhile kind, input.dropWhile kind)

/-- Read on when the next byte is of a kind, and read nothing otherwise. -/
def optional (kind : UInt8 → Bool) (part : UInt8 → Reader Bytes) : Reader Bytes
  | [] => some ([], [])
  | first :: rest => if kind first then (part first).run rest else some ([], first :: rest)

@[simp] theorem run_byte_cons (first : UInt8) (rest : Bytes) :
    StateT.run byte (first :: rest) = some (first, rest) := rfl

@[simp] theorem run_byte_nil : StateT.run byte [] = none := rfl

/-- A sequence of readers, one after the other. -/
theorem run_bind_eq_some {first : Reader α} {next : α → Reader β} {input rest : Bytes} {value : β} :
    StateT.run (first >>= next) input = some (value, rest) ↔
      ∃ read between, StateT.run first input = some (read, between) ∧
        StateT.run (next read) between = some (value, rest) := by
  rw [StateT.run_bind, Option.bind_eq_bind, Option.bind_eq_some_iff]
  constructor
  · rintro ⟨⟨read, between⟩, first, then'⟩
    exact ⟨read, between, first, then'⟩
  · rintro ⟨read, between, first, then'⟩
    exact ⟨(read, between), first, then'⟩

theorem run_bind_of_run {first : Reader α} {input between : Bytes} {read : α}
    (front : StateT.run first input = some (read, between)) (next : α → Reader β) :
    StateT.run (first >>= next) input = StateT.run (next read) between := by
  rw [StateT.run_bind, front]
  rfl

theorem run_expect (symbol : UInt8) (rest : Bytes) :
    StateT.run (expect symbol) (symbol :: rest) = some ((), rest) := by
  rw [expect, run_bind_of_run (run_byte_cons symbol rest), if_pos rfl]
  rfl

/-- A character is read from its UTF-8 bytes. -/
theorem run_character (ch : Char) (rest : Bytes) :
    StateT.run character (String.utf8EncodeChar ch ++ rest) = some (ch, rest) := by
  have bytes : (String.utf8EncodeChar ch ++ rest).toByteArray =
      (String.utf8EncodeChar ch).toByteArray ++ rest.toByteArray := List.toByteArray_append
  have decoded := @ByteArray.utf8DecodeChar?_utf8EncodeChar_append rest.toByteArray ch
  rw [← bytes] at decoded
  change (ByteArray.utf8DecodeChar? (String.utf8EncodeChar ch ++ rest).toByteArray 0).map _ = _
  rw [decoded, Option.map_some, ← String.length_utf8EncodeChar, List.drop_left]

/-! ## Closed readers -/

/-- What stands behind the value does not matter. -/
structure Closed (reader : Reader α) : Prop where
  extend : ∀ {input value rest}, StateT.run reader input = some (value, rest) →
    ∀ more, StateT.run reader (input ++ more) = some (value, rest ++ more)
  exhaust : ∀ {value rest}, StateT.run reader [] = some (value, rest) → rest = []

/-- What stands behind the value does not matter, as long as something does. -/
structure Settled (reader : Reader α) : Prop where
  extend : ∀ {input value rest}, StateT.run reader input = some (value, rest) → rest ≠ [] →
    ∀ more, StateT.run reader (input ++ more) = some (value, rest ++ more)
  exhaust : ∀ {value rest}, StateT.run reader [] = some (value, rest) → rest = []

theorem Closed.settled {reader : Reader α} (closed : Closed reader) : Settled reader where
  extend read _ more := closed.extend read more
  exhaust := closed.exhaust

theorem Closed.pure (value : α) : Closed (Pure.pure value) where
  extend read more := by
    cases read
    rfl
  exhaust read := by
    cases read
    rfl

theorem Closed.failure : Closed (failure : Reader α) where
  extend read := by cases read
  exhaust read := by cases read

theorem Closed.byte : Closed byte where
  extend {input _ _} read more := by
    cases input with
    | nil => cases read
    | cons first rest =>
        cases read
        rfl
  exhaust read := by cases read

theorem Closed.character : Closed character where
  extend {input ch rest} read more := by
    obtain ⟨found, decoded, same⟩ := Option.map_eq_some_iff.mp read
    cases same
    have size := ByteArray.le_size_of_utf8DecodeChar?_eq_some decoded
    have long : ch.utf8Size ≤ input.length := by simpa using size
    have bytes : (input ++ more).toByteArray = input.toByteArray ++ more.toByteArray :=
      List.toByteArray_append
    have again := ByteArray.utf8DecodeChar?_append_eq_some decoded more.toByteArray
    rw [← bytes] at again
    change (ByteArray.utf8DecodeChar? (input ++ more).toByteArray 0).map _ = _
    rw [again, Option.map_some, List.drop_append_of_le_length long]
  exhaust {ch rest} read := by
    have mapped : (ByteArray.utf8DecodeChar? ([] : Bytes).toByteArray 0).map
        (fun ch => (ch, ([] : Bytes).drop ch.utf8Size)) = some (ch, rest) := read
    obtain ⟨found, -, same⟩ := Option.map_eq_some_iff.mp mapped
    rw [List.drop_nil] at same
    exact (congrArg Prod.snd same).symm

theorem Closed.bind {first : Reader α} {next : α → Reader β} (front : Closed first)
    (back : ∀ value, Closed (next value)) : Closed (first >>= next) where
  extend read more := by
    obtain ⟨value, between, before, after⟩ := run_bind_eq_some.mp read
    exact run_bind_eq_some.mpr
      ⟨value, between ++ more, front.extend before more, (back value).extend after more⟩
  exhaust read := by
    obtain ⟨value, between, before, after⟩ := run_bind_eq_some.mp read
    obtain rfl := front.exhaust before
    exact (back value).exhaust after

theorem Closed.ite {condition : Prop} [Decidable condition] {first second : Reader α}
    (front : Closed first) (back : Closed second) :
    Closed (if condition then first else second) := by
  split
  · exact front
  · exact back

theorem Closed.expect (symbol : UInt8) : Closed (expect symbol) :=
  Closed.byte.bind fun _ => Closed.ite (.pure ()) .failure

/-! ## Settled readers -/

theorem Settled.bind {first : Reader α} {next : α → Reader β} (front : Settled first)
    (back : ∀ value, Settled (next value)) : Settled (first >>= next) where
  extend read stopped more := by
    obtain ⟨value, between, before, after⟩ := run_bind_eq_some.mp read
    have left : between ≠ [] := by
      rintro rfl
      exact stopped ((back value).exhaust after)
    exact run_bind_eq_some.mpr
      ⟨value, between ++ more, front.extend before left more,
        (back value).extend after stopped more⟩
  exhaust read := by
    obtain ⟨value, between, before, after⟩ := run_bind_eq_some.mp read
    obtain rfl := front.exhaust before
    exact (back value).exhaust after

/-- A settled reader may stand in front of a closed one that needs a symbol. -/
theorem Settled.bind_closed {first : Reader α} {next : α → Reader β} (front : Settled first)
    (back : ∀ value, Closed (next value)) (needs : ∀ value, StateT.run (next value) [] = none) :
    Closed (first >>= next) where
  extend read more := by
    obtain ⟨value, between, before, after⟩ := run_bind_eq_some.mp read
    have left : between ≠ [] := by
      rintro rfl
      rw [needs value] at after
      cases after
    exact run_bind_eq_some.mpr
      ⟨value, between ++ more, front.extend before left more, (back value).extend after more⟩
  exhaust read := by
    obtain ⟨value, between, before, after⟩ := run_bind_eq_some.mp read
    obtain rfl := front.exhaust before
    exact (back value).exhaust after

theorem Settled.ite {condition : Prop} [Decidable condition] {first second : Reader α}
    (front : Settled first) (back : Settled second) :
    Settled (if condition then first else second) := by
  split
  · exact front
  · exact back

theorem Settled.longest (kind : UInt8 → Bool) : Settled (longest kind) where
  extend {input value rest} read stopped more := by
    cases read
    change some ((input ++ more).takeWhile kind, (input ++ more).dropWhile kind) = _
    have inside : ¬ (input.takeWhile kind).length = input.length := by
      intro whole
      have parts := congrArg List.length (List.takeWhile_append_dropWhile (p := kind) (l := input))
      rw [List.length_append, whole] at parts
      exact stopped (List.length_eq_zero_iff.mp (by omega))
    rw [List.takeWhile_append, if_neg inside, List.dropWhile_append,
      if_neg (by simpa using stopped)]
  exhaust read := by
    cases read
    rfl

theorem Settled.optional {kind : UInt8 → Bool} {part : UInt8 → Reader Bytes}
    (parts : ∀ first, Settled (part first)) : Settled (optional kind part) where
  extend {input value rest} read stopped more := by
    cases input with
    | nil =>
        cases read
        exact absurd rfl stopped
    | cons first rest =>
        change (if kind first then (part first).run rest else some ([], first :: rest)) = _ at read
        change (if kind first then (part first).run (rest ++ more)
          else some ([], first :: (rest ++ more))) = _
        split at read
        · rename_i met
          rw [if_pos met]
          exact (parts first).extend read stopped more
        · rename_i unmet
          rw [if_neg unmet]
          cases read
          rfl
  exhaust read := by
    cases read
    rfl

end Reader

end SkPqc.Library

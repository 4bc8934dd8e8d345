import SkPqc.Library.Bytes
import Mathlib.Algebra.Group.Int.Defs

/-!
# Binary codecs

A codec writes a value to bytes, and takes it from the front of a byte string again.
Reading panics where the bytes end too early.

A value is read back when its bytes are, whatever stands behind them
(`Codec.ReadsBack`). Numbers are read back in either byte order, and what two values
are read back alone they are one behind the other (`readsBack_pair`). A list has its length
in front, as a signed word of 32 bits, so that it is read back exactly when the length
fits one (`readsBack_list_iff`).
-/

set_option autoImplicit false

namespace SkPqc.Library

variable {α β : Type}

/-- How values of a type are written, and read from the front of a byte string. -/
structure Codec (α : Type) where
  encode : α → Bytes
  decode : Method Bytes Empty α

/-- The value is read from its bytes, and nothing of what stands behind them. -/
def Codec.ReadsBack (codec : Codec α) (value : α) : Prop :=
  ∀ rest, codec.decode.run (codec.encode value ++ rest) = (.ok value, rest)

/-! ## Reading bytes -/

/-- The next bytes, of a given number. -/
def readExact (count : Nat) : Method Bytes Empty Bytes := do
  let input ← Method.get
  if input.length < count then Method.lift .panic
  else do
    Method.set (input.drop count)
    return input.take count

theorem run_readExact {count : Nat} {chunk : Bytes} (length : chunk.length = count)
    (rest : Bytes) : (readExact count).run (chunk ++ rest) = (.ok chunk, rest) := by
  have enough : ¬ (chunk ++ rest).length < count := by
    rw [List.length_append]
    omega
  subst length
  rw [readExact, Method.run_get_bind, if_neg enough, Method.run_set_bind, Method.run_pure,
    List.take_left, List.drop_left]

/-! ## Byte orders -/

/-- The order of the bytes of a number. -/
inductive Endian where
  | little
  | big
  deriving DecidableEq, Repr

/-- The low bytes of a number. -/
def Endian.write (endian : Endian) (width number : Nat) : Bytes :=
  match endian with
  | .little => (natToBe width number).reverse
  | .big => natToBe width number

/-- The number that some bytes spell. -/
def Endian.read (endian : Endian) (bytes : Bytes) : Nat :=
  match endian with
  | .little => beNat bytes.reverse
  | .big => beNat bytes

theorem Endian.length_write (endian : Endian) (width number : Nat) :
    (endian.write width number).length = width := by
  cases endian with
  | little => rw [write, List.length_reverse, length_natToBe]
  | big => rw [write, length_natToBe]

theorem Endian.read_write (endian : Endian) (width number : Nat) :
    endian.read (endian.write width number) = number % 256 ^ width := by
  cases endian with
  | little => rw [write, read, List.reverse_reverse, beNat_natToBe]
  | big => rw [write, read, beNat_natToBe]

/-! ## Elementary codecs -/

namespace Codec

/-- No bytes. -/
def unit : Codec Unit where
  encode _ := []
  decode := return ()

/-- One byte. -/
def byte : Codec UInt8 where
  encode value := [value]
  decode := do
    let input ← Method.get
    match input with
    | [] => Method.lift .panic
    | first :: rest => do
        Method.set rest
        return first

section Words

variable (endian : Endian)

def u64 : Codec UInt64 where
  encode value := endian.write 8 value.toNat
  decode := do
    let chunk ← readExact 8
    return UInt64.ofNat (endian.read chunk)

def i32 : Codec Int32 where
  encode value := endian.write 4 value.toUInt32.toNat
  decode := do
    let chunk ← readExact 4
    return (UInt32.ofNat (endian.read chunk)).toInt32

end Words

/-- One value behind the other. -/
def pair (first : Codec α) (second : Codec β) : Codec (α × β) where
  encode value := first.encode value.1 ++ second.encode value.2
  decode := do
    let front ← first.decode
    let back ← second.decode
    return (front, back)

/-- The same bytes for another type. -/
def mapped (codec : Codec α) (pack : α → β) (unpack : β → α) : Codec β where
  encode value := codec.encode (unpack value)
  decode := do
    let value ← codec.decode
    return pack value

/-! ## Lists -/

/-- A number of values, one behind the other. -/
def times (item : Codec α) : Nat → Method Bytes Empty (List α)
  | 0 => return []
  | count + 1 => do
      let first ← item.decode
      let others ← item.times count
      return first :: others

/-- Room for as many values of a size as a signed word says. The word is extended to a
`usize`, and more than half of the address space is no room. -/
def withCapacity (build : Build) (size : Nat) (count : Int32) : Outcome Empty Unit :=
  let capacity := (count.toInt % 2 ^ build.pointerWidth.bits).toNat
  if capacity * size < 2 ^ (build.pointerWidth.bits - 1) then .ok () else .panic

/-- A list of values of a size, behind its length. The length wraps to 32 bits, and a
negative number of values is none. -/
def list (build : Build) (endian : Endian) (size : Nat) (item : Codec α) : Codec (List α) where
  encode values := (i32 endian).encode (Int32.ofNat values.length) ++ values.flatMap item.encode
  decode := do
    let count ← (i32 endian).decode
    Method.lift (withCapacity build size count)
    item.times count.toInt.toNat

/-! ## What is read back -/

theorem readsBack_unit : unit.ReadsBack () := fun _ => rfl

theorem readsBack_byte (value : UInt8) : byte.ReadsBack value := fun _ => rfl

theorem readsBack_u64 (endian : Endian) (value : UInt64) : (u64 endian).ReadsBack value := by
  intro rest
  have chunk := run_readExact (endian.length_write 8 value.toNat) rest
  have small : value.toNat % 256 ^ 8 = value.toNat := Nat.mod_eq_of_lt value.toNat_lt
  change (readExact 8 >>= _).run (endian.write 8 value.toNat ++ rest) = _
  rw [Method.run_bind_ok chunk, Method.run_pure, endian.read_write, small, UInt64.ofNat_toNat]

theorem readsBack_i32 (endian : Endian) (value : Int32) : (i32 endian).ReadsBack value := by
  intro rest
  have chunk := run_readExact (endian.length_write 4 value.toUInt32.toNat) rest
  have small : value.toUInt32.toNat % 256 ^ 4 = value.toUInt32.toNat :=
    Nat.mod_eq_of_lt value.toUInt32.toNat_lt
  change (readExact 4 >>= _).run (endian.write 4 value.toUInt32.toNat ++ rest) = _
  rw [Method.run_bind_ok chunk, Method.run_pure, endian.read_write, small, UInt32.ofNat_toNat,
    Int32.toInt32_toUInt32]

/-- Two values are read back one behind the other. -/
theorem readsBack_pair {first : Codec α} {second : Codec β} {value : α × β}
    (front : first.ReadsBack value.1) (back : second.ReadsBack value.2) :
    (pair first second).ReadsBack value := by
  intro rest
  change (first.decode >>= _).run (first.encode value.1 ++ second.encode value.2 ++ rest) = _
  rw [List.append_assoc, Method.run_bind_ok (front _), Method.run_bind_ok (back rest)]
  rfl

theorem readsBack_mapped {codec : Codec α} {pack : α → β} {unpack : β → α} {value : β}
    (inverse : pack (unpack value) = value) (own : codec.ReadsBack (unpack value)) :
    (mapped codec pack unpack).ReadsBack value := by
  intro rest
  change (codec.decode >>= _).run (codec.encode (unpack value) ++ rest) = _
  rw [Method.run_bind_ok (own rest), Method.run_pure, inverse]

section Lists

variable {item : Codec α} {values : List α}

/-- Values are read one after the other. -/
theorem run_times (each : ∀ value ∈ values, item.ReadsBack value) (rest : Bytes) :
    (item.times values.length).run (values.flatMap item.encode ++ rest) = (.ok values, rest) := by
  induction values with
  | nil => rfl
  | cons value others ih =>
      obtain ⟨own, later⟩ := List.forall_mem_cons.mp each
      rw [List.length_cons, List.flatMap_cons, List.append_assoc, times,
        Method.run_bind_ok (own _), Method.run_bind_ok (ih later)]
      rfl

theorem length_of_run_times {count : Nat} {input rest : Bytes}
    (read : (item.times count).run input = (.ok values, rest)) : values.length = count := by
  induction count generalizing values input with
  | zero =>
      cases read
      rfl
  | succ count ih =>
      obtain ⟨first, between, -, read⟩ := Method.run_bind_eq_ok.mp read
      obtain ⟨others, after, later, done⟩ := Method.run_bind_eq_ok.mp read
      cases done
      rw [List.length_cons, ih later]

/-- **A list is read back exactly when its length fits the word in front.** -/
theorem readsBack_list_iff {build : Build} (endian : Endian) {size : Nat}
    (held : values.length * size < 2 ^ (build.pointerWidth.bits - 1))
    (each : ∀ value ∈ values, item.ReadsBack value) :
    (list build endian size item).ReadsBack values ↔ values.length < 2 ^ 31 := by
  constructor
  · intro readsBack
    have counted := readsBack_i32 endian (Int32.ofNat values.length)
      (values.flatMap item.encode ++ [])
    have read := readsBack []
    change ((i32 endian).decode >>= _).run ((i32 endian).encode (Int32.ofNat values.length) ++
      values.flatMap item.encode ++ []) = _ at read
    rw [List.append_assoc, Method.run_bind_ok counted] at read
    obtain ⟨-, between, -, read⟩ := Method.run_bind_eq_ok.mp read
    have length := length_of_run_times read
    have small := (Int32.ofNat values.length).toInt_lt
    omega
  · intro short rest
    have number : (Int32.ofNat values.length).toInt = values.length :=
      Int32.toInt_ofNat_of_lt short
    have below : values.length < 2 ^ build.pointerWidth.bits :=
      build.word_of_u32 (by omega)
    have capacity : withCapacity build size (Int32.ofNat values.length) = .ok () := by
      have whole : ((values.length : Int) % 2 ^ build.pointerWidth.bits).toNat =
          values.length := by
        have same : ((values.length % 2 ^ build.pointerWidth.bits : Nat) : Int) =
            (values.length : Int) % 2 ^ build.pointerWidth.bits := by push_cast; rfl
        rw [← same, Int.toNat_natCast, Nat.mod_eq_of_lt below]
      rw [withCapacity, number]
      rw [whole, if_pos held]
    change ((i32 endian).decode >>= _).run ((i32 endian).encode (Int32.ofNat values.length) ++
      values.flatMap item.encode ++ rest) = _
    rw [List.append_assoc, Method.run_bind_ok (readsBack_i32 endian _ _), Method.run_lift_bind,
      capacity]
    dsimp only
    rw [number, Int.toNat_natCast]
    exact run_times each rest

end Lists

/-! ## Byte strings and texts -/

section Texts

variable (build : Build) (endian : Endian)

def bytes : Codec Bytes := list build endian 1 byte

/-- The UTF-8 bytes of a text. Bytes that spell no text panic. -/
def string : Codec String where
  encode text := (bytes build endian).encode (utf8 text)
  decode := do
    let inner ← (bytes build endian).decode
    match String.fromUTF8? inner.toByteArray with
    | some text => return text
    | none => Method.lift .panic

end Texts

section ReadTexts

variable {build : Build} (endian : Endian)

theorem readsBack_bytes_iff {value : Bytes}
    (held : value.length < 2 ^ (build.pointerWidth.bits - 1)) :
    (bytes build endian).ReadsBack value ↔ value.length < 2 ^ 31 :=
  readsBack_list_iff endian (by rwa [Nat.mul_one]) fun _ _ => readsBack_byte _

/-- Short byte strings are read back on every target. -/
theorem readsBack_bytes {value : Bytes} (short : value.length < 2 ^ 31) :
    (bytes build endian).ReadsBack value := by
  refine (readsBack_bytes_iff endian (Nat.lt_of_lt_of_le short ?_)).mpr short
  cases build.pointerWidth with
  | w32 => exact Nat.le_refl _
  | w64 => exact Nat.pow_le_pow_right (by decide) (by decide)

/-- Bytes spell a text exactly when they are its UTF-8 bytes. -/
theorem fromUTF8?_eq_some {inner : Bytes} {text : String} :
    String.fromUTF8? inner.toByteArray = some text ↔ inner = utf8 text := by
  have same : (utf8 text).toByteArray = text.toByteArray := by
    rw [← String.utf8Encode_toList]
    rfl
  constructor
  · intro spelled
    unfold String.fromUTF8? at spelled
    split at spelled
    · cases spelled
      have equal : inner.toByteArray.data.toList = (utf8 _).toByteArray.data.toList :=
        congrArg (·.data.toList) same.symm
      simpa using equal
    · cases spelled
  · rintro rfl
    rw [same, String.fromUTF8?, dif_pos text.isValidUTF8]
    rfl

/-- A text is read back exactly when its bytes are. -/
theorem readsBack_string_iff {text : String} :
    (string build endian).ReadsBack text ↔ (bytes build endian).ReadsBack (utf8 text) := by
  refine forall_congr' fun rest => ?_
  change ((bytes build endian).decode >>= _).run
    ((bytes build endian).encode (utf8 text) ++ rest) = _ ↔ _
  rw [Method.run_bind_eq_ok]
  constructor
  · rintro ⟨inner, between, own, read⟩
    cases spelled : String.fromUTF8? inner.toByteArray with
    | none =>
        rw [spelled] at read
        cases read
    | some found =>
        rw [spelled] at read
        cases read
        rw [own, fromUTF8?_eq_some.mp spelled]
  · intro own
    refine ⟨utf8 text, rest, own, ?_⟩
    rw [fromUTF8?_eq_some.mpr rfl]
    rfl

end ReadTexts

end Codec

/-! ## The other side -/

/-- How another implementation writes values of a type, and reads a whole byte string. -/
structure Peer (α : Type) where
  write : α → Bytes
  read : Bytes → Option α

/-- Each side reads what the other writes, of the values that the codec reads back. -/
structure Peer.Agrees (peer : Peer α) (codec : Codec α) : Prop where
  decode_write : ∀ value, codec.ReadsBack value →
    codec.decode.run (peer.write value) = (.ok value, [])
  read_encode : ∀ value, codec.ReadsBack value → peer.read (codec.encode value) = some value

/-- The codec as the other side of itself. -/
def Codec.mirror (codec : Codec α) : Peer α where
  write := codec.encode
  read bytes :=
    match codec.decode.run bytes with
    | (.ok value, []) => some value
    | _ => none

theorem Codec.agrees_mirror (codec : Codec α) : codec.mirror.Agrees codec := by
  have whole : ∀ value, codec.ReadsBack value →
      codec.decode.run (codec.encode value) = (.ok value, []) := by
    intro value own
    have read := own []
    rwa [List.append_nil] at read
  refine ⟨whole, fun value own => ?_⟩
  simp only [mirror, whole value own]

end SkPqc.Library

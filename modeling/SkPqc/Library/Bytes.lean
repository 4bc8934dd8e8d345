import SkPqc.Library.Outcome
import Mathlib.Data.List.Induction

/-!
# Byte strings, fixed-size arrays and big-endian integers

A byte string is a list of bytes, and an array of `n` bytes is a byte string
that carries the proof of its length. Slicing and copying into an array panic
when a bound or a length is wrong, as they do in the languages this models.

Two concatenations are equal exactly when their parts are, once the first parts
have one length (`append_inj_of_length`). Big-endian integers have a fixed
width, so they can be cut off the front of a byte string
(`beNat_natToBe`, `natToBe_beNat`).
-/

set_option autoImplicit false

namespace SkPqc.Library

/-- A byte string. -/
abbrev Bytes : Type := List UInt8

/-- An array of exactly `n` bytes. -/
abbrev FixedBytes (n : Nat) : Type := { bytes : Bytes // bytes.length = n }

/-- The array of `n` copies of one byte. -/
def FixedBytes.fill (n : Nat) (byte : UInt8) : FixedBytes n :=
  ⟨List.replicate n byte, List.length_replicate⟩

/-! ## Slices and arrays -/

section Slices

variable {ε : Type}

/-- The bytes from `start` up to `stop`. Panics when the range is inverted or
runs past the end. -/
def slice (bytes : Bytes) (start stop : Nat) : Outcome ε Bytes :=
  if start ≤ stop ∧ stop ≤ bytes.length then .ok ((bytes.drop start).take (stop - start))
  else .panic

/-- Copy a byte string into an array of `n` bytes. Panics when the lengths
differ. -/
def copyFromSlice (n : Nat) (bytes : Bytes) : Outcome ε (FixedBytes n) :=
  if same : bytes.length = n then .ok ⟨bytes, same⟩ else .panic

/-- An array of `n` bytes, when there are `n` bytes. -/
def tryIntoArray (n : Nat) (bytes : Bytes) : Option (FixedBytes n) :=
  if same : bytes.length = n then some ⟨bytes, same⟩ else none

theorem slice_of_le {bytes : Bytes} {start stop : Nat} (order : start ≤ stop)
    (bound : stop ≤ bytes.length) :
    (slice bytes start stop : Outcome ε Bytes) =
      .ok ((bytes.drop start).take (stop - start)) := by
  simp only [slice, if_pos (And.intro order bound)]

theorem slice_of_lt {bytes : Bytes} {start stop : Nat} (inverted : stop < start) :
    (slice bytes start stop : Outcome ε Bytes) = .panic := by
  rw [slice, if_neg]
  exact fun bounds => absurd bounds.1 (Nat.not_le.mpr inverted)

theorem slice_eq_ok {bytes chunk : Bytes} {start stop : Nat}
    (sliced : (slice bytes start stop : Outcome ε Bytes) = .ok chunk) :
    start ≤ stop ∧ stop ≤ bytes.length ∧ chunk = (bytes.drop start).take (stop - start) := by
  unfold slice at sliced
  split at sliced
  · rename_i bounds
    exact ⟨bounds.1, bounds.2, (Outcome.ok.inj sliced).symm⟩
  · cases sliced

@[simp] theorem copyFromSlice_val {n : Nat} (array : FixedBytes n) :
    (copyFromSlice n array.val : Outcome ε (FixedBytes n)) = .ok array := by
  simp [copyFromSlice, array.property]

theorem copyFromSlice_of_length {n : Nat} {bytes : Bytes} (same : bytes.length = n) :
    (copyFromSlice n bytes : Outcome ε (FixedBytes n)) = .ok ⟨bytes, same⟩ := by
  simp only [copyFromSlice, dif_pos same]

theorem copyFromSlice_eq_panic {n : Nat} {bytes : Bytes} :
    (copyFromSlice n bytes : Outcome ε (FixedBytes n)) = .panic ↔ bytes.length ≠ n := by
  unfold copyFromSlice
  split <;> simp_all

@[simp] theorem tryIntoArray_val {n : Nat} (array : FixedBytes n) :
    tryIntoArray n array.val = some array := by
  simp [tryIntoArray, array.property]

theorem tryIntoArray_eq_some {n : Nat} {bytes : Bytes} {array : FixedBytes n} :
    tryIntoArray n bytes = some array ↔ bytes = array.val := by
  constructor
  · intro converted
    unfold tryIntoArray at converted
    split at converted
    · exact congrArg Subtype.val (Option.some.inj converted)
    · cases converted
  · rintro rfl
    exact tryIntoArray_val array

theorem tryIntoArray_of_length {n : Nat} {bytes : Bytes} (same : bytes.length = n) :
    tryIntoArray n bytes = some ⟨bytes, same⟩ := by
  simp only [tryIntoArray, dif_pos same]

end Slices

/-! ## Concatenations -/

/-- Concatenations whose first parts have one length agree only part by part. -/
theorem append_inj_of_length {left left' right right' : Bytes}
    (same : left.length = left'.length) :
    left ++ right = left' ++ right' ↔ left = left' ∧ right = right' :=
  ⟨fun equal => List.append_inj equal same, by rintro ⟨rfl, rfl⟩; rfl⟩

/-- Concatenations that start with arrays of one length agree only part by part. -/
theorem fixed_append_inj {n : Nat} {left left' : FixedBytes n} {right right' : Bytes}
    (same : left.val ++ right = left'.val ++ right') : left = left' ∧ right = right' := by
  obtain ⟨front, back⟩ := List.append_inj same (left.property.trans left'.property.symm)
  exact ⟨Subtype.ext front, back⟩

/-- A byte string cut at two offsets. -/
theorem eq_append_slices (bytes : Bytes) (first second : Nat) :
    bytes = bytes.take first ++ (bytes.drop first).take second ++ bytes.drop (first + second) := by
  rw [List.append_assoc, ← List.drop_drop, List.take_append_drop, List.take_append_drop]

/-- A byte string of `n + m` bytes is an array of `n` followed by one of `m`. -/
theorem exists_fixed_append (n m : Nat) {bytes : Bytes} (length : bytes.length = n + m) :
    ∃ (front : FixedBytes n) (back : FixedBytes m), bytes = front.val ++ back.val :=
  ⟨⟨bytes.take n, by simp [length]⟩, ⟨bytes.drop n, by simp [length]⟩,
    (List.take_append_drop n bytes).symm⟩

section FixedFront

variable {ε : Type} {n : Nat} (front : FixedBytes n) (back : Bytes)

theorem slice_front : (slice (front.val ++ back) 0 n : Outcome ε Bytes) = .ok front.val := by
  rw [slice_of_le (Nat.zero_le n) (by simp [front.property])]
  simp [front.property]

theorem slice_back :
    (slice (front.val ++ back) n (front.val ++ back).length : Outcome ε Bytes) = .ok back := by
  rw [slice_of_le (by simp [front.property]) (Nat.le_refl _)]
  simp [front.property]

theorem slice_middle {m : Nat} (middle : FixedBytes m) (after : Bytes) :
    (slice (front.val ++ (middle.val ++ after)) n (n + m) : Outcome ε Bytes) =
      .ok middle.val := by
  rw [slice_of_le (by omega) (by simp [front.property, middle.property])]
  simp [front.property, middle.property]

theorem slice_rest {m : Nat} (middle : FixedBytes m) (after : Bytes) :
    (slice (front.val ++ (middle.val ++ after)) (n + m)
      (front.val ++ (middle.val ++ after)).length : Outcome ε Bytes) = .ok after := by
  rw [slice_of_le (by simp [front.property, middle.property]) (Nat.le_refl _), ← List.drop_drop]
  simp [front.property, middle.property, Nat.add_sub_add_left]

end FixedFront

/-! ## Big-endian integers -/

/-- The low `width` bytes of a number, most significant first. -/
def natToBe : Nat → Nat → Bytes
  | 0, _ => []
  | width + 1, number => natToBe width (number / 256) ++ [UInt8.ofNat number]

/-- The number that a byte string spells, most significant byte first. -/
def beNat (bytes : Bytes) : Nat :=
  bytes.foldl (fun number byte => number * 256 + byte.toNat) 0

@[simp] theorem length_natToBe (width number : Nat) :
    (natToBe width number).length = width := by
  induction width generalizing number with
  | zero => rfl
  | succ width ih => simp [natToBe, ih]

theorem beNat_append_singleton (bytes : Bytes) (byte : UInt8) :
    beNat (bytes ++ [byte]) = beNat bytes * 256 + byte.toNat := by
  simp [beNat]

/-- Reading back a written integer keeps its low bytes. -/
theorem beNat_natToBe (width number : Nat) :
    beNat (natToBe width number) = number % 256 ^ width := by
  induction width generalizing number with
  | zero => simp [natToBe, beNat, Nat.mod_one]
  | succ width ih =>
      have parts : number % 256 ^ (width + 1) =
          number % 256 + 256 * (number / 256 % 256 ^ width) := by
        rw [Nat.pow_succ', Nat.mod_mul]
      rw [natToBe, beNat_append_singleton, ih, UInt8.toNat_ofNat', parts]
      omega

/-- Writing back a read integer gives the bytes read. -/
theorem natToBe_beNat (bytes : Bytes) : natToBe bytes.length (beNat bytes) = bytes := by
  induction bytes using List.reverseRecOn with
  | nil => rfl
  | append_singleton bytes byte ih =>
      have small : byte.toNat < 256 := byte.toNat_lt
      rw [List.length_append, List.length_singleton, natToBe, beNat_append_singleton]
      have high : (beNat bytes * 256 + byte.toNat) / 256 = beNat bytes := by omega
      have low : UInt8.ofNat (beNat bytes * 256 + byte.toNat) = byte := by
        apply UInt8.toNat_inj.mp
        rw [UInt8.toNat_ofNat']
        omega
      rw [high, low, ih]

theorem beNat_lt (bytes : Bytes) : beNat bytes < 256 ^ bytes.length := by
  induction bytes using List.reverseRecOn with
  | nil => simp [beNat]
  | append_singleton bytes byte ih =>
      have small : byte.toNat < 256 := byte.toNat_lt
      rw [beNat_append_singleton, List.length_append, List.length_singleton, Nat.pow_succ]
      omega

/-- The eight big-endian bytes of a `u64`. -/
def u64ToBe (number : UInt64) : Bytes := natToBe 8 number.toNat

/-- The `u64` that eight big-endian bytes spell. -/
def u64FromBe (bytes : Bytes) : UInt64 := UInt64.ofNat (beNat bytes)

@[simp] theorem length_u64ToBe (number : UInt64) : (u64ToBe number).length = 8 :=
  length_natToBe 8 number.toNat

@[simp] theorem u64FromBe_u64ToBe (number : UInt64) : u64FromBe (u64ToBe number) = number := by
  have small : number.toNat < 256 ^ 8 := number.toNat_lt
  rw [u64FromBe, u64ToBe, beNat_natToBe, Nat.mod_eq_of_lt small, UInt64.ofNat_toNat]

theorem u64ToBe_u64FromBe {bytes : Bytes} (eight : bytes.length = 8) :
    u64ToBe (u64FromBe bytes) = bytes := by
  have small : beNat bytes < 2 ^ 64 := by
    have bound := beNat_lt bytes
    rw [eight] at bound
    exact bound
  rw [u64ToBe, u64FromBe, UInt64.toNat_ofNat_of_lt' small]
  have back := natToBe_beNat bytes
  rwa [eight] at back

theorem u64ToBe_injective : Function.Injective u64ToBe := by
  intro first second equal
  rw [← u64FromBe_u64ToBe first, equal, u64FromBe_u64ToBe]

/-- The four big-endian bytes of a length cast to `u32`: `(len as u32).to_be_bytes()`. -/
def u32ToBe (length : Nat) : Bytes := natToBe 4 (length % 2 ^ 32)

@[simp] theorem length_u32ToBe (length : Nat) : (u32ToBe length).length = 4 :=
  length_natToBe 4 _

theorem beNat_u32ToBe {length : Nat} (small : length < 2 ^ 32) :
    beNat (u32ToBe length) = length := by
  rw [u32ToBe, beNat_natToBe, Nat.mod_mod_of_dvd _ (by decide), Nat.mod_eq_of_lt (by omega)]

/-- The cast keeps a length up to a multiple of `2 ^ 32`. -/
theorem u32ToBe_mod (length : Nat) : u32ToBe (length % 2 ^ 32) = u32ToBe length := by
  rw [u32ToBe, u32ToBe, Nat.mod_mod]

theorem beNat_lt_of_four {bytes : Bytes} (four : bytes.length = 4) : beNat bytes < 2 ^ 32 := by
  have bound := beNat_lt bytes
  rw [four] at bound
  exact bound

theorem u32ToBe_beNat {bytes : Bytes} (four : bytes.length = 4) :
    u32ToBe (beNat bytes) = bytes := by
  rw [u32ToBe, Nat.mod_eq_of_lt (beNat_lt_of_four four)]
  have back := natToBe_beNat bytes
  rwa [four] at back

/-! ## Text -/

/-- The UTF-8 bytes of a string. -/
def utf8 (text : String) : Bytes := text.toList.flatMap String.utf8EncodeChar

theorem utf8_append (first second : String) :
    utf8 (first ++ second) = utf8 first ++ utf8 second := by
  rw [utf8, String.toList_append, List.flatMap_append, utf8, utf8]

/-- Distinct strings have distinct UTF-8 encodings. -/
theorem utf8_injective : Function.Injective utf8 := by
  intro first second equal
  have encoded : first.toList.utf8Encode = second.toList.utf8Encode := by
    exact congrArg List.toByteArray equal
  rw [String.utf8Encode_toList, String.utf8Encode_toList] at encoded
  exact String.toByteArray_inj.mp encoded

/-- The text after a prefix, when it has that prefix. -/
def stripPrefix (start text : String) : Option String :=
  if start.toList.isPrefixOf text.toList then
    some (String.ofList (text.toList.drop start.toList.length))
  else none

theorem stripPrefix_eq_some {start text rest : String} :
    stripPrefix start text = some rest ↔ text = start ++ rest := by
  unfold stripPrefix
  constructor
  · intro stripped
    split at stripped
    · rename_i found
      obtain ⟨after, same⟩ := List.isPrefixOf_iff_prefix.mp found
      rw [← Option.some.inj stripped, ← String.toList_inj, String.toList_append,
        String.toList_ofList, ← same, List.drop_left]
    · cases stripped
  · rintro rfl
    rw [String.toList_append, if_pos (List.isPrefixOf_iff_prefix.mpr (List.prefix_append _ _)),
      List.drop_left, String.ofList_toList]

/-- The texts in front of and behind the first occurrence of a character, when it
occurs. -/
def splitOnce (delimiter : Char) (text : String) : Option (String × String) :=
  let front := text.toList.takeWhile (· ≠ delimiter)
  match text.toList.dropWhile (· ≠ delimiter) with
  | [] => none
  | _ :: back => some (String.ofList front, String.ofList back)

theorem dropWhile_append_cons {delimiter : Char} {front : List Char} (absent : delimiter ∉ front)
    (back : List Char) :
    (front ++ delimiter :: back).dropWhile (· ≠ delimiter) = delimiter :: back ∧
      (front ++ delimiter :: back).takeWhile (· ≠ delimiter) = front := by
  induction front with
  | nil => simp
  | cons ch front ih =>
      rw [List.mem_cons, not_or] at absent
      obtain ⟨dropped, taken⟩ := ih absent.2
      have other : decide (ch ≠ delimiter) = true := decide_eq_true (Ne.symm absent.1)
      rw [List.cons_append, List.dropWhile_cons, List.takeWhile_cons, if_pos other, if_pos other]
      exact ⟨dropped, by rw [taken]⟩

/-- A text splits at the first delimiter, and nowhere else. -/
theorem splitOnce_eq_some {delimiter : Char} {text front back : String} :
    splitOnce delimiter text = some (front, back) ↔
      delimiter ∉ front.toList ∧ text.toList = front.toList ++ delimiter :: back.toList := by
  constructor
  · intro split
    have whole := List.takeWhile_append_dropWhile (p := (· ≠ delimiter)) (l := text.toList)
    unfold splitOnce at split
    cases behind : text.toList.dropWhile (· ≠ delimiter) with
    | nil => simp only [behind, reduceCtorEq] at split
    | cons found rest =>
        simp only [behind, Option.some.injEq, Prod.mk.injEq] at split
        obtain ⟨rfl, rfl⟩ := split
        have stopped := List.head?_dropWhile_not (· ≠ delimiter) text.toList
        rw [behind] at stopped
        obtain rfl : found = delimiter := by simpa using stopped
        rw [behind] at whole
        rw [String.toList_ofList, String.toList_ofList]
        refine ⟨fun inside => ?_, whole.symm⟩
        have kept := List.all_eq_true.mp List.all_takeWhile _ inside
        simp at kept
  · rintro ⟨absent, same⟩
    obtain ⟨dropped, taken⟩ := dropWhile_append_cons absent back.toList
    simp only [splitOnce, same, dropped, taken, String.ofList_toList]

/-- A string of ASCII characters. -/
def asciiString (bytes : Bytes) : String :=
  String.ofList (bytes.map fun byte => Char.ofNat byte.toNat)

/-- An ASCII character is one byte of UTF-8. -/
theorem utf8EncodeChar_of_lt {code : Nat} (small : code < 128) :
    String.utf8EncodeChar (Char.ofNat code) = [UInt8.ofNat code] := by
  have every : ∀ code : Fin 128,
      String.utf8EncodeChar (Char.ofNat code) = [UInt8.ofNat code] := by decide
  exact every ⟨code, small⟩

theorem utf8_asciiString {bytes : Bytes} (ascii : ∀ byte ∈ bytes, byte.toNat < 128) :
    utf8 (asciiString bytes) = bytes := by
  rw [utf8, asciiString, String.toList_ofList, List.flatMap_map]
  induction bytes with
  | nil => rfl
  | cons byte rest ih =>
      rw [List.flatMap_cons, ih fun other found => ascii other (List.mem_cons_of_mem _ found),
        utf8EncodeChar_of_lt (ascii byte List.mem_cons_self), UInt8.ofNat_toNat]
      rfl

end SkPqc.Library

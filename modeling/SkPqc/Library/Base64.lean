import SkPqc.Library.Bytes

/-!
# Base64 engines

An engine turns a byte string into text and reads text back. It is canonical
when it accepts exactly the texts that it writes.

The engine with padding takes three bytes to four symbols, and ends in one or two
padding symbols when bytes are left over. It rejects symbols outside the alphabet,
padding anywhere else, and left-over bits that are not zero, so it is canonical
over every alphabet (`padded_canonical`). The engine without padding leaves the
padding out and fills it up again, and is canonical too (`unpadded_canonical`).
-/

set_option autoImplicit false

namespace SkPqc.Library

/-- A base64 engine. Decoding fails with the text of an error. -/
structure Base64Engine where
  encode (bytes : Bytes) : String
  decode (text : Bytes) : Except String Bytes

/-- An engine that decodes exactly what it encodes. -/
def Base64Engine.Canonical (engine : Base64Engine) : Prop :=
  ∀ text bytes, engine.decode text = .ok bytes ↔ text = utf8 (engine.encode bytes)

/-- A canonical engine that writes four symbols for three bytes, rounded up, and no
padding. -/
structure Base64Engine.Unpadded (engine : Base64Engine) : Prop where
  canonical : engine.Canonical
  length_encode : ∀ bytes, (utf8 (engine.encode bytes)).length = (4 * bytes.length + 2) / 3

/-- A canonical engine that writes four symbols for every three bytes begun. -/
structure Base64Engine.Padded (engine : Base64Engine) : Prop where
  canonical : engine.Canonical
  length_encode : ∀ bytes, (utf8 (engine.encode bytes)).length = 4 * ((bytes.length + 2) / 3)

namespace Base64

/-- The padding symbol. -/
def pad : UInt8 := 0x3d

/-- Sixty-four ASCII symbols, none of them the padding, with their values. -/
structure Alphabet where
  symbol (value : Nat) : UInt8
  value (symbol : UInt8) : Option Nat
  value_symbol : ∀ number, number < 64 → value (symbol number) = some number
  symbol_value : ∀ byte number, value byte = some number → number < 64 ∧ symbol number = byte
  value_pad : value pad = none
  ascii : ∀ number, number < 64 → (symbol number).toNat < 128

variable (alphabet : Alphabet)

/-- The symbols of a byte string. -/
def encodeBytes : Bytes → Bytes
  | [] => []
  | [first] =>
      let bits := first.toNat * 16
      [alphabet.symbol (bits / 64), alphabet.symbol (bits % 64), pad, pad]
  | [first, second] =>
      let bits := first.toNat * 1024 + second.toNat * 4
      [alphabet.symbol (bits / 4096), alphabet.symbol (bits / 64 % 64),
        alphabet.symbol (bits % 64), pad]
  | first :: second :: third :: rest =>
      let bits := first.toNat * 65536 + second.toNat * 256 + third.toNat
      alphabet.symbol (bits / 262144) :: alphabet.symbol (bits / 4096 % 64) ::
        alphabet.symbol (bits / 64 % 64) :: alphabet.symbol (bits % 64) :: encodeBytes rest

/-- The one or two bytes of a last group, in front of its last padding symbol. -/
def decodeTail (w x y : UInt8) : Option Bytes := do
  let w ← alphabet.value w
  let x ← alphabet.value x
  if y = pad then
    if x % 16 = 0 then some [UInt8.ofNat ((w * 64 + x) / 16)] else none
  else
    let y ← alphabet.value y
    let bits := w * 4096 + x * 64 + y
    if y % 4 = 0 then some [UInt8.ofNat (bits / 1024), UInt8.ofNat (bits / 4)] else none

/-- The bytes that a list of symbols spells. -/
def decodeBytes : Bytes → Option Bytes
  | [] => some []
  | w :: x :: y :: z :: rest =>
      if z = pad then
        if rest = [] then decodeTail alphabet w x y else none
      else do
        let w ← alphabet.value w
        let x ← alphabet.value x
        let y ← alphabet.value y
        let z ← alphabet.value z
        let bits := w * 262144 + x * 4096 + y * 64 + z
        let bytes ← decodeBytes rest
        return UInt8.ofNat (bits / 65536) :: UInt8.ofNat (bits / 256) :: UInt8.ofNat bits :: bytes
  | _ => none

/-- The engine with padding. -/
def padded : Base64Engine where
  encode bytes := asciiString (encodeBytes alphabet bytes)
  decode text :=
    match decodeBytes alphabet text with
    | some bytes => .ok bytes
    | none => .error "invalid base64"

variable {alphabet}

theorem symbol_ne_pad {number : Nat} (small : number < 64) : alphabet.symbol number ≠ pad := by
  intro same
  have found := alphabet.value_symbol number small
  rw [same, alphabet.value_pad] at found
  cases found

/-- A byte given by a number that ends in its bits. -/
theorem ofNat_eq {number : Nat} {byte : UInt8} (same : number % 256 = byte.toNat) :
    UInt8.ofNat number = byte := by
  apply UInt8.toNat_inj.mp
  rw [UInt8.toNat_ofNat', same]

/-! ## Decoding reads what was encoded -/

theorem decodeBytes_encodeBytes (bytes : Bytes) :
    decodeBytes alphabet (encodeBytes alphabet bytes) = some bytes := by
  fun_induction encodeBytes alphabet bytes with
  | case1 => rfl
  | case2 first bits =>
      have byte : first.toNat < 256 := first.toNat_lt
      have high := alphabet.value_symbol (bits / 64) (by omega)
      have low := alphabet.value_symbol (bits % 64) (by omega)
      have zero : bits % 64 % 16 = 0 := by omega
      have back : UInt8.ofNat ((bits / 64 * 64 + bits % 64) / 16) = first := ofNat_eq (by omega)
      simp [decodeBytes, decodeTail, high, low, zero, back]
  | case3 first second bits =>
      have byte : first.toNat < 256 := first.toNat_lt
      have byte' : second.toNat < 256 := second.toNat_lt
      have high := alphabet.value_symbol (bits / 4096) (by omega)
      have middle := alphabet.value_symbol (bits / 64 % 64) (by omega)
      have low := alphabet.value_symbol (bits % 64) (by omega)
      have shown := @symbol_ne_pad alphabet (bits % 64) (by omega)
      have zero : bits % 64 % 4 = 0 := by omega
      have whole : bits / 4096 * 4096 + bits / 64 % 64 * 64 + bits % 64 = bits := by omega
      have back : UInt8.ofNat (bits / 1024) = first := ofNat_eq (by omega)
      have back' : UInt8.ofNat (bits / 4) = second := ofNat_eq (by omega)
      simp [decodeBytes, decodeTail, high, middle, low, shown, zero, whole, back, back']
  | case4 first second third rest bits ih =>
      have byte : first.toNat < 256 := first.toNat_lt
      have byte' : second.toNat < 256 := second.toNat_lt
      have byte₂ : third.toNat < 256 := third.toNat_lt
      have w := alphabet.value_symbol (bits / 262144) (by omega)
      have x := alphabet.value_symbol (bits / 4096 % 64) (by omega)
      have y := alphabet.value_symbol (bits / 64 % 64) (by omega)
      have z := alphabet.value_symbol (bits % 64) (by omega)
      have shown := @symbol_ne_pad alphabet (bits % 64) (by omega)
      have whole : bits / 262144 * 262144 + bits / 4096 % 64 * 4096 + bits / 64 % 64 * 64 +
          bits % 64 = bits := by omega
      have back : UInt8.ofNat (bits / 65536) = first := ofNat_eq (by omega)
      have back' : UInt8.ofNat (bits / 256) = second := ofNat_eq (by omega)
      have back₂ : UInt8.ofNat bits = third := ofNat_eq (by omega)
      simp only [decodeBytes, if_neg shown, w, x, y, z, Option.bind_eq_bind, Option.bind_some,
        whole, ih, Option.pure_def, back, back', back₂]

/-! ## Only encodings are decoded -/

theorem encodeBytes_of_decodeTail {w x y : UInt8} {bytes : Bytes}
    (decoded : decodeTail alphabet w x y = some bytes) :
    encodeBytes alphabet bytes = [w, x, y, pad] := by
  simp only [decodeTail, Option.bind_eq_bind, Option.bind_eq_some_iff] at decoded
  obtain ⟨high, found, low, found', group⟩ := decoded
  obtain ⟨small, rfl⟩ := alphabet.symbol_value w high found
  obtain ⟨small', rfl⟩ := alphabet.symbol_value x low found'
  split at group
  · rename_i padding
    split at group
    · rename_i zero
      cases group
      have byte : (UInt8.ofNat ((high * 64 + low) / 16)).toNat = (high * 64 + low) / 16 := by
        rw [UInt8.toNat_ofNat']
        omega
      simp only [encodeBytes, byte, padding, List.cons.injEq, and_true]
      exact ⟨congrArg _ (by omega), congrArg _ (by omega)⟩
    · cases group
  · obtain ⟨last, found₂, tail⟩ := Option.bind_eq_some_iff.mp group
    clear group
    obtain ⟨small₂, rfl⟩ := alphabet.symbol_value y last found₂
    split at tail
    · rename_i zero
      cases tail
      have byte : (UInt8.ofNat ((high * 4096 + low * 64 + last) / 1024)).toNat =
          (high * 4096 + low * 64 + last) / 1024 := by
        rw [UInt8.toNat_ofNat']
        omega
      have byte' : (UInt8.ofNat ((high * 4096 + low * 64 + last) / 4)).toNat =
          (high * 4096 + low * 64 + last) / 4 % 256 := UInt8.toNat_ofNat'
      simp only [encodeBytes, byte, byte', List.cons.injEq, and_true]
      exact ⟨congrArg _ (by omega), congrArg _ (by omega), congrArg _ (by omega)⟩
    · cases tail

theorem encodeBytes_of_decodeBytes {text bytes : Bytes}
    (decoded : decodeBytes alphabet text = some bytes) : encodeBytes alphabet bytes = text := by
  fun_induction decodeBytes alphabet text generalizing bytes with
  | case1 =>
      cases decoded
      rfl
  | case2 w x y => exact encodeBytes_of_decodeTail decoded
  | case3 w x y rest more => cases decoded
  | case4 w x y z rest shown ih =>
      simp only [Option.bind_eq_bind, Option.bind_eq_some_iff] at decoded
      obtain ⟨first, found, second, found', third, found₂, fourth, found₃, others, decodedRest,
        group⟩ := decoded
      obtain ⟨small, rfl⟩ := alphabet.symbol_value w first found
      obtain ⟨small', rfl⟩ := alphabet.symbol_value x second found'
      obtain ⟨small₂, rfl⟩ := alphabet.symbol_value y third found₂
      obtain ⟨small₃, rfl⟩ := alphabet.symbol_value z fourth found₃
      cases group
      have bytes : ∀ number, (UInt8.ofNat number).toNat = number % 256 :=
        fun _ => UInt8.toNat_ofNat'
      simp only [encodeBytes, bytes, ih decodedRest, List.cons.injEq, and_true]
      exact ⟨congrArg _ (by omega), congrArg _ (by omega), congrArg _ (by omega),
        congrArg _ (by omega)⟩
  | case5 text short long => cases decoded

theorem ascii_encodeBytes (bytes : Bytes) :
    ∀ byte ∈ encodeBytes alphabet bytes, byte.toNat < 128 := by
  have padding : pad.toNat < 128 := by decide
  fun_induction encodeBytes alphabet bytes with
  | case1 => simp
  | case2 first bits =>
      have byte : first.toNat < 256 := first.toNat_lt
      simp only [List.forall_mem_cons, List.not_mem_nil, false_implies, implies_true, and_true]
      exact ⟨alphabet.ascii _ (by omega), alphabet.ascii _ (by omega), padding, padding⟩
  | case3 first second bits =>
      have byte : first.toNat < 256 := first.toNat_lt
      have byte' : second.toNat < 256 := second.toNat_lt
      simp only [List.forall_mem_cons, List.not_mem_nil, false_implies, implies_true, and_true]
      exact ⟨alphabet.ascii _ (by omega), alphabet.ascii _ (by omega), alphabet.ascii _ (by omega),
        padding⟩
  | case4 first second third rest bits ih =>
      have byte : first.toNat < 256 := first.toNat_lt
      have byte' : second.toNat < 256 := second.toNat_lt
      have byte₂ : third.toNat < 256 := third.toNat_lt
      simp only [List.forall_mem_cons]
      exact ⟨alphabet.ascii _ (by omega), alphabet.ascii _ (by omega), alphabet.ascii _ (by omega),
        alphabet.ascii _ (by omega), ih⟩

/-- **The engine with padding decodes exactly what it encodes.** -/
theorem padded_canonical (alphabet : Alphabet) : (padded alphabet).Canonical := by
  intro text bytes
  have written : utf8 ((padded alphabet).encode bytes) = encodeBytes alphabet bytes :=
    utf8_asciiString (ascii_encodeBytes bytes)
  rw [written]
  cases decoded : decodeBytes alphabet text with
  | none =>
      simp only [padded, decoded, reduceCtorEq, false_iff]
      rintro rfl
      rw [decodeBytes_encodeBytes] at decoded
      cases decoded
  | some found =>
      simp only [padded, decoded, Except.ok.injEq]
      constructor
      · rintro rfl
        exact (encodeBytes_of_decodeBytes decoded).symm
      · rintro rfl
        rw [decodeBytes_encodeBytes] at decoded
        exact (Option.some.inj decoded).symm

theorem length_encodeBytes (bytes : Bytes) :
    (encodeBytes alphabet bytes).length = 4 * ((bytes.length + 2) / 3) := by
  fun_induction encodeBytes alphabet bytes with
  | case1 => rfl
  | case2 first bits => simp only [List.length_cons, List.length_nil]
  | case3 first second bits => simp only [List.length_cons, List.length_nil]
  | case4 first second third rest bits ih =>
      simp only [List.length_cons, ih]
      omega

theorem padded_padded (alphabet : Alphabet) : (padded alphabet).Padded where
  canonical := padded_canonical alphabet
  length_encode bytes := by
    have written : utf8 ((padded alphabet).encode bytes) = encodeBytes alphabet bytes :=
      utf8_asciiString (ascii_encodeBytes bytes)
    rw [written, length_encodeBytes]

/-! ## The engine without padding -/

/-- The engine without padding: a text with padding is rejected. -/
def unpadded (alphabet : Alphabet) : Base64Engine where
  encode bytes := asciiString ((encodeBytes alphabet bytes).filter (· ≠ pad))
  decode text :=
    if pad ∈ text then .error "invalid base64"
    else match decodeBytes alphabet (text ++ List.replicate ((4 - text.length % 4) % 4) pad) with
      | some bytes => .ok bytes
      | none => .error "invalid base64"

/-- An encoding is its symbols, filled up with padding to a multiple of four. -/
theorem exists_encodeBytes_eq (bytes : Bytes) :
    ∃ symbols, pad ∉ symbols ∧ symbols.length = (4 * bytes.length + 2) / 3 ∧
      encodeBytes alphabet bytes =
        symbols ++ List.replicate ((4 - symbols.length % 4) % 4) pad := by
  fun_induction encodeBytes alphabet bytes with
  | case1 => exact ⟨[], by simp, rfl, rfl⟩
  | case2 first bits =>
      have byte : first.toNat < 256 := first.toNat_lt
      have high := @symbol_ne_pad alphabet (bits / 64) (by omega)
      have low := @symbol_ne_pad alphabet (bits % 64) (by omega)
      refine ⟨[alphabet.symbol (bits / 64), alphabet.symbol (bits % 64)], ?_, by simp, rfl⟩
      simp [high.symm, low.symm]
  | case3 first second bits =>
      have byte : first.toNat < 256 := first.toNat_lt
      have byte' : second.toNat < 256 := second.toNat_lt
      have high := @symbol_ne_pad alphabet (bits / 4096) (by omega)
      have middle := @symbol_ne_pad alphabet (bits / 64 % 64) (by omega)
      have low := @symbol_ne_pad alphabet (bits % 64) (by omega)
      refine ⟨[alphabet.symbol (bits / 4096), alphabet.symbol (bits / 64 % 64),
        alphabet.symbol (bits % 64)], ?_, by simp, rfl⟩
      simp [high.symm, middle.symm, low.symm]
  | case4 first second third rest bits ih =>
      have byte : first.toNat < 256 := first.toNat_lt
      have byte' : second.toNat < 256 := second.toNat_lt
      have byte₂ : third.toNat < 256 := third.toNat_lt
      have w := @symbol_ne_pad alphabet (bits / 262144) (by omega)
      have x := @symbol_ne_pad alphabet (bits / 4096 % 64) (by omega)
      have y := @symbol_ne_pad alphabet (bits / 64 % 64) (by omega)
      have z := @symbol_ne_pad alphabet (bits % 64) (by omega)
      obtain ⟨symbols, absent, length, whole⟩ := ih
      refine ⟨alphabet.symbol (bits / 262144) :: alphabet.symbol (bits / 4096 % 64) ::
        alphabet.symbol (bits / 64 % 64) :: alphabet.symbol (bits % 64) :: symbols, ?_, ?_, ?_⟩
      · simp [w.symm, x.symm, y.symm, z.symm, absent]
      · simp only [List.length_cons, length]
        omega
      · have same : (symbols.length + 1 + 1 + 1 + 1) % 4 = symbols.length % 4 := by omega
        simp only [List.length_cons, same, whole, List.cons_append]

/-- What the engine without padding writes: the symbols of the encoding. -/
theorem filter_encodeBytes {bytes symbols : Bytes} {count : Nat} (absent : pad ∉ symbols)
    (whole : encodeBytes alphabet bytes = symbols ++ List.replicate count pad) :
    (encodeBytes alphabet bytes).filter (· ≠ pad) = symbols := by
  rw [whole, List.filter_append, List.filter_eq_self.mpr, List.filter_eq_nil_iff.mpr,
    List.append_nil]
  · intro symbol found
    simp [List.eq_of_mem_replicate found]
  · intro symbol found
    exact decide_eq_true fun same => absent (same ▸ found)

theorem utf8_encode_unpadded (bytes : Bytes) :
    utf8 ((unpadded alphabet).encode bytes) = (encodeBytes alphabet bytes).filter (· ≠ pad) :=
  utf8_asciiString fun byte found => ascii_encodeBytes bytes byte (List.mem_filter.mp found).1

/-- **The engine without padding decodes exactly what it encodes.** -/
theorem unpadded_canonical (alphabet : Alphabet) : (unpadded alphabet).Canonical := by
  intro text bytes
  obtain ⟨symbols, absent, -, whole⟩ := @exists_encodeBytes_eq alphabet bytes
  rw [utf8_encode_unpadded, filter_encodeBytes absent whole]
  constructor
  · intro returned
    simp only [unpadded] at returned
    split at returned
    · cases returned
    · rename_i bare
      split at returned
      · rename_i found decoded
        cases returned
        rw [← filter_encodeBytes absent whole]
        exact (filter_encodeBytes bare (encodeBytes_of_decodeBytes decoded)).symm
      · cases returned
  · rintro rfl
    have decoded := @decodeBytes_encodeBytes alphabet bytes
    rw [whole] at decoded
    simp only [unpadded, if_neg absent, decoded]

theorem unpadded_unpadded (alphabet : Alphabet) : (unpadded alphabet).Unpadded where
  canonical := unpadded_canonical alphabet
  length_encode bytes := by
    obtain ⟨symbols, absent, length, whole⟩ := @exists_encodeBytes_eq alphabet bytes
    rw [utf8_encode_unpadded, filter_encodeBytes absent whole, length]

/-! ## The standard alphabet -/

/-- The symbol of a value in the standard alphabet. -/
def standardSymbol (value : Nat) : UInt8 :=
  if value < 26 then UInt8.ofNat (0x41 + value)
  else if value < 52 then UInt8.ofNat (0x61 + (value - 26))
  else if value < 62 then UInt8.ofNat (0x30 + (value - 52))
  else if value = 62 then 0x2b
  else 0x2f

/-- The value of a symbol in the standard alphabet. -/
def standardValue (symbol : UInt8) : Option Nat :=
  if 0x41 ≤ symbol ∧ symbol ≤ 0x5a then some (symbol.toNat - 0x41)
  else if 0x61 ≤ symbol ∧ symbol ≤ 0x7a then some (symbol.toNat - 0x61 + 26)
  else if 0x30 ≤ symbol ∧ symbol ≤ 0x39 then some (symbol.toNat - 0x30 + 52)
  else if symbol = 0x2b then some 62
  else if symbol = 0x2f then some 63
  else none

/-- What holds of the values in a table of all symbols holds of every value. -/
theorem symbol_of_table {symbol : Nat → UInt8} {value : UInt8 → Option Nat}
    (table : ∀ code : Fin 256, ∀ number ∈ value (UInt8.ofNat code),
      number < 64 ∧ symbol number = UInt8.ofNat code)
    {byte : UInt8} {number : Nat} (found : value byte = some number) :
    number < 64 ∧ symbol number = byte := by
  have known := table ⟨byte.toNat, byte.toNat_lt⟩ number
  rw [UInt8.ofNat_toNat] at known
  exact known found

/-- The letters, the digits, `+` and `/`. -/
def standard : Alphabet where
  symbol := standardSymbol
  value := standardValue
  value_symbol number small := by
    have every : ∀ number : Fin 64, standardValue (standardSymbol number) = some number.val := by
      decide
    exact every ⟨number, small⟩
  symbol_value byte number found := by
    apply symbol_of_table ?_ found
    decide +kernel
  value_pad := by decide
  ascii number small := by
    have every : ∀ number : Fin 64, (standardSymbol number).toNat < 128 := by decide
    exact every ⟨number, small⟩

/-! ## The URL-safe alphabet -/

/-- The symbol of a value in the URL-safe alphabet. -/
def urlSafeSymbol (value : Nat) : UInt8 :=
  if value < 62 then standardSymbol value else if value = 62 then 0x2d else 0x5f

/-- The value of a symbol in the URL-safe alphabet. -/
def urlSafeValue (symbol : UInt8) : Option Nat :=
  if symbol = 0x2d then some 62
  else if symbol = 0x5f then some 63
  else if symbol = 0x2b ∨ symbol = 0x2f then none
  else standardValue symbol

/-- The letters, the digits, `-` and `_`. -/
def urlSafe : Alphabet where
  symbol := urlSafeSymbol
  value := urlSafeValue
  value_symbol number small := by
    have every : ∀ number : Fin 64, urlSafeValue (urlSafeSymbol number) = some number.val := by
      decide
    exact every ⟨number, small⟩
  symbol_value byte number found := by
    apply symbol_of_table ?_ found
    decide +kernel
  value_pad := by decide
  ascii number small := by
    have every : ∀ number : Fin 64, (urlSafeSymbol number).toNat < 128 := by decide
    exact every ⟨number, small⟩

end Base64

end SkPqc.Library

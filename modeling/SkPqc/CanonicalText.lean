import SkPqc.Idealised
import SkPqc.Pqroute
import SkPqc.Library.JsonRoundTrip

/-!
# What the canonical encoder writes is read back

The canonical encoder is a JSON writer with faithful escapes, the surrogate pairs
included, so canonical bytes determine the value (`canonical_injective`) and are
parsed back where the parser has room for the nesting (`fromSlice_canonical`).

The encoder has no limit of its own and the opener has two: the parser rejects 128
nested arrays or objects, and the lengths on the wire are cast to `u32`. So an
envelope that was sealed opens exactly within these limits
(`openRouted_sealRouted_iff`).

Under an ideal AEAD another header is always noticed, and putting the original
header back restores the envelope (`rewritten_header`).
-/

set_option autoImplicit false

namespace SkPqc
namespace Pqroute

open Library Library.Json Kem HybridBox

/-! ## The encoder is faithful -/

/-- A character is no surrogate. -/
theorem toNat_valid (ch : Char) : ch.toNat < 0xD800 ∨ 0xDFFF < ch.toNat ∧ ch.toNat < 0x110000 :=
  ch.valid

/-- A character above the basic plane is read back from its two surrogates. -/
theorem run_surrogates {ch : Char} (high : 0xFFFF < ch.toNat) (rest : Bytes) :
    stringCharacter.run (pushUEscape (0xD800 + (ch.toNat - 0x10000) / 1024) ++
      pushUEscape (0xDC00 + (ch.toNat - 0x10000) % 1024) ++ rest) = some (some ch, rest) := by
  have valid := toNat_valid ch
  have whole : 0x10000 + (0xD800 + (ch.toNat - 0x10000) / 1024 - 0xD800) * 1024 +
      (0xDC00 + (ch.toNat - 0x10000) % 1024 - 0xDC00) = ch.toNat := by omega
  have read := @run_escape_pair (0xD800 + (ch.toNat - 0x10000) / 1024)
    (0xDC00 + (ch.toNat - 0x10000) % 1024) (by omega) (by omega) rest
  rw [whole, Char.ofNat_toNat] at read
  rw [List.append_assoc, pushUEscape, pushUEscape]
  exact @run_stringCharacter_escape (0x75 :: (unitEscape _).drop 2) _ rest ch read

/-- **The canonical encoder is faithful.** -/
theorem faithful_encodeCharAscii : Faithful encodeCharAscii := by
  intro ch rest
  unfold encodeCharAscii
  dsimp only
  -- The characters with a short escape, in the order of the encoder.
  iterate 7
    split
    · rename_i code
      exact run_stringCharacter_short code (fun _ => rfl) rest
  split
  · rename_i notQuote notBackslash _ _ _ _ _ printable
    have raw := @utf8EncodeChar_of_lt ch.toNat (by omega)
    rw [Char.ofNat_toNat] at raw
    rw [← raw]
    exact run_stringCharacter_raw notQuote notBackslash (by omega) rest
  · split
    · rename_i unit
      have valid := toNat_valid ch
      have read := @run_escape_unit ch.toNat (by omega) (by omega) rest
      rw [Char.ofNat_toNat] at read
      exact @run_stringCharacter_escape (0x75 :: (unitEscape ch.toNat).drop 2) rest rest ch read
    · rename_i high
      exact run_surrogates (Nat.lt_of_not_le high) rest

section Canonical

variable {serde : SerdeJson}

theorem canonicalValues_eq_map (serde : SerdeJson) (values : List Value) :
    canonicalValues serde values = values.map (canonical serde) := by
  induction values with
  | nil => rfl
  | cons value rest ih => rw [canonicalValues, List.map_cons, ih]

theorem canonicalMembers_eq_map (serde : SerdeJson) (members : List (String × Value)) :
    canonicalMembers serde members =
      members.map fun member => (member.1, canonical serde member.2) := by
  induction members with
  | nil => rfl
  | cons member rest ih => rw [canonicalMembers, List.map_cons, ih]

/-- The canonical encoder writes no space, and keeps the members of an object in their
order. -/
theorem writesCompact_canonical (integers : serde.DecimalIntegers) :
    WritesCompact encodeCharAscii (canonical serde) where
  null := rfl
  bool value := by cases value <;> rfl
  posInt value := by rw [canonical, integers.posInt]
  negInt value negative := by rw [canonical, integers.negInt]
  string _ := rfl
  array values := by rw [canonical, canonicalValues_eq_map]
  object members sorted := by
    have sorted' : Sorted (members.map fun member => (member.1, canonical serde member.2)) :=
      List.pairwise_map.mpr sorted
    rw [canonical, canonicalMembers_eq_map, collectMembers_of_sorted sorted', List.map_map]
    rfl

/-- **Canonical bytes determine the value.** -/
theorem canonical_injective (integers : serde.DecimalIntegers) {value value' : Value}
    (integral : Integral value) (integral' : Integral value')
    (same : canonical serde value = canonical serde value') : value = value' :=
  text_injective (writesCompact_canonical integers) faithful_encodeCharAscii integral integral' same

/-- **The opener parses a front part of canonical bytes as the value** exactly when it is
all of them and the nesting is within the limit. -/
theorem fromSlice_take_canonical (integers : serde.DecimalIntegers) (parses : serde.ParsesJson)
    {value : Value} (integral : Integral value) :
    serde.fromSlice ((canonical serde value).take ((canonical serde value).length % 2 ^ 32)) =
        .ok value ↔
      depth value < recursionLimit ∧ (canonical serde value).length < 2 ^ 32 := by
  obtain ⟨decimalOf, parses⟩ := parses
  have writes := writesCompact_canonical integers
  rw [parses]
  constructor
  · intro parsed
    have shallow : depth value < recursionLimit :=
      Nat.lt_of_le_pred (by decide) (depth_le_of_parse parsed)
    refine ⟨shallow, Nat.lt_of_not_le fun long => ?_⟩
    have whole := eq_of_parse_prefix writes faithful_encodeCharAscii integral (by omega)
      (List.take_append_drop _ _).symm parsed
    have lengths := congrArg List.length whole
    rw [List.length_take] at lengths
    omega
  · rintro ⟨shallow, short⟩
    rw [Nat.mod_eq_of_lt short, List.take_length]
    exact parse_text decimalOf writes faithful_encodeCharAscii integral (Nat.le_pred_of_lt shallow)

end Canonical

/-! ## The limits of the opener -/

/-- A length prefix that was cast measures the front part it can. -/
theorem outerBytes_append_eq (bytes rest : Bytes) :
    outerBytes bytes ++ rest =
      outerBytes (bytes.take (bytes.length % 2 ^ 32)) ++
        (bytes.drop (bytes.length % 2 ^ 32) ++ rest) := by
  have measured : (bytes.take (bytes.length % 2 ^ 32)).length = bytes.length % 2 ^ 32 := by
    rw [List.length_take]
    exact Nat.min_eq_left (Nat.mod_le _ _)
  have front : outerBytes (bytes.take (bytes.length % 2 ^ 32)) ++
      bytes.drop (bytes.length % 2 ^ 32) = outerBytes bytes := by
    rw [outerBytes, measured, u32ToBe_mod, List.append_assoc, List.take_append_drop, outerBytes]
  rw [← List.append_assoc, front]

/-- What is within the limits of the opener: its nesting, and the length of its canonical
bytes. -/
def WithinLimits (serde : SerdeJson) (value : Value) : Prop :=
  depth value < recursionLimit ∧ (canonical serde value).length < 2 ^ 32

instance (serde : SerdeJson) (value : Value) : Decidable (WithinLimits serde value) :=
  inferInstanceAs (Decidable (_ ∧ _))

section Limits

variable {P : Primitives} {serde : SerdeJson} {build : Build}

/-- The front part that a cast length measures. -/
theorem length_take_mod (bytes : Bytes) : (bytes.take (bytes.length % 2 ^ 32)).length < 2 ^ 32 := by
  rw [List.length_take]
  omega

theorem lenPrefix_add_lt (wide : build.pointerWidth = .w64) {length : Nat}
    (short : length < 2 ^ 32) : lenPrefix + length < 2 ^ build.pointerWidth.bits := by
  rw [wide, lenPrefix, PointerWidth.bits]
  omega

/-- Where a pointer has 64 bits, an envelope always splits, perhaps within its header. -/
theorem splitOuter_outerBytes (wide : build.pointerWidth = .w64) (bytes rest : Bytes) :
    splitOuter build (outerBytes bytes ++ rest) =
      .ok (bytes.take (bytes.length % 2 ^ 32), bytes.drop (bytes.length % 2 ^ 32) ++ rest) := by
  have measured := length_take_mod bytes
  rw [outerBytes_append_eq]
  exact splitOuter_append _ measured (lenPrefix_add_lt wide measured)

/-- **The header of an envelope is read back** exactly when it is within the limits. -/
theorem readRouteHeader_eq_ok_iff (integers : serde.DecimalIntegers) (parses : serde.ParsesJson)
    (wide : build.pointerWidth = .w64) {header : Value} (integral : Integral header)
    (payload : Bytes) :
    readRouteHeader serde build (outerBytes (canonical serde header) ++ payload) = .ok header ↔
      WithinLimits serde header := by
  rw [WithinLimits, ← fromSlice_take_canonical integers parses integral, readRouteHeader,
    splitOuter_outerBytes wide, Outcome.ok_bind, parseRouteHeader_eq_ok]

/-- **The inner part of an envelope is read back** exactly when its metadata is within the
limits. -/
theorem readInner_eq_ok_iff (integers : serde.DecimalIntegers) (parses : serde.ParsesJson)
    (wide : build.pointerWidth = .w64) {innerMetadata : Value} (integral : Integral innerMetadata)
    (content : Bytes) :
    readInner serde build (innerBytes (canonical serde innerMetadata) content) =
        .ok (innerMetadata, content) ↔ WithinLimits serde innerMetadata := by
  have measured := length_take_mod (canonical serde innerMetadata)
  rw [WithinLimits, ← fromSlice_take_canonical integers parses integral, innerBytes, ← outerBytes,
    outerBytes_append_eq, readInner_append _ measured (lenPrefix_add_lt wide measured)]
  constructor
  · intro read
    split at read
    · rename_i value parsed
      rw [parsed, (Prod.mk.inj (Outcome.ok.inj read)).1]
    · cases read
  · intro parsed
    have short := ((fromSlice_take_canonical integers parses integral).mp parsed).2
    rw [parsed]
    dsimp only
    rw [Nat.mod_eq_of_lt short, List.drop_length, List.nil_append]

/-- Behind a header within the limits, the inner part of an envelope opens exactly when its
metadata is within them. -/
theorem openRouted_eq_ok_iff_metadata (kem : P.KemCorrect) (aead : P.AeadCorrect)
    (integers : serde.DecimalIntegers) (parses : serde.ParsesJson)
    (wide : build.pointerWidth = .w64) {header innerMetadata : Value}
    (integral : Integral header) (integral' : Integral innerMetadata)
    (limits : WithinLimits serde header) (content : Bytes) (keys : KeypairDraws)
    {draws : BoxDraws} {blob : Bytes}
    (sealed : sealRouted P serde innerMetadata content (hybridKeypair P keys).publicKey header
      draws = .ok blob) :
    openRouted P serde build blob (hybridKeypair P keys).privateKey =
        .ok (header, innerMetadata, content) ↔ WithinLimits serde innerMetadata := by
  obtain ⟨payload, box, rfl⟩ := sealRouted_eq_ok sealed
  have split := splitOuter_append payload limits.2 (lenPrefix_add_lt wide limits.2)
  have parsed := (fromSlice_take_canonical integers parses integral).mpr limits
  rw [Nat.mod_eq_of_lt limits.2, List.take_length] at parsed
  have long : ¬ payload.length < sealedMinLen := by
    rw [length_sealBox aead box, bodyOffset_eq, sealedMinLen_eq, tagLen]
    omega
  rw [openRouted_of_split split long parsed, openBox_sealBox kem aead keys box, Outcome.mapError_ok,
    Outcome.ok_bind, ← readInner_eq_ok_iff integers parses wide integral' content]
  constructor
  · intro opened
    obtain ⟨found, read, same⟩ := Outcome.bind_eq_ok.mp opened
    cases same
    exact read
  · intro read
    rw [read, Outcome.ok_bind]

/-- **The limits of routing envelopes.** A sealed envelope gives back its header, its
metadata and its content exactly when the header and the metadata are within the limits
of the opener. -/
theorem openRouted_sealRouted_iff (kem : P.KemCorrect) (aead : P.AeadCorrect)
    (integers : serde.DecimalIntegers) (parses : serde.ParsesJson)
    (wide : build.pointerWidth = .w64) {header innerMetadata : Value}
    (integral : Integral header) (integral' : Integral innerMetadata) (content : Bytes)
    (keys : KeypairDraws) {draws : BoxDraws} {blob : Bytes}
    (sealed : sealRouted P serde innerMetadata content (hybridKeypair P keys).publicKey header
      draws = .ok blob) :
    (openRouted P serde build blob (hybridKeypair P keys).privateKey =
        .ok (header, innerMetadata, content) ∧
      readRouteHeader serde build blob = .ok header) ↔
    WithinLimits serde header ∧ WithinLimits serde innerMetadata := by
  have headerRead : readRouteHeader serde build blob = .ok header ↔ WithinLimits serde header := by
    obtain ⟨payload, -, rfl⟩ := sealRouted_eq_ok sealed
    exact readRouteHeader_eq_ok_iff integers parses wide integral payload
  rw [headerRead, and_comm]
  exact and_congr_right fun limits =>
    openRouted_eq_ok_iff_metadata kem aead integers parses wide integral integral' limits content
      keys sealed

end Limits

/-! ## Rewritten headers -/

section Rewriting

variable {P : Primitives} {serde : SerdeJson} {build : Build}

/-- Replacing the header of an envelope. -/
theorem replaceRouteHeader_append {routeBytes : Bytes} (payload : Bytes)
    (short : routeBytes.length < 2 ^ 32)
    (fits : lenPrefix + routeBytes.length < 2 ^ build.pointerWidth.bits) (header : Value) :
    replaceRouteHeader serde build (outerBytes routeBytes ++ payload) header =
      .ok (outerBytes (canonical serde header) ++ payload) := by
  rw [replaceRouteHeader, splitOuter_append payload short fits, Outcome.ok_bind]
  rfl

/-- The bytes of another header do not authenticate. -/
theorem openRouted_other_header (kem : P.KemCorrect) (ideal : P.IdealAead) (keys : KeypairDraws)
    {routeBytes routeBytes' inner payload : Bytes} {draws : BoxDraws}
    (box : sealBox P (wrapInfo (buildAad routeBytes)) (buildAad routeBytes) inner
      (hybridKeypair P keys).publicKey draws = .ok payload)
    (other : routeBytes' ≠ routeBytes) (short : routeBytes'.length < 2 ^ 32)
    (fits : lenPrefix + routeBytes'.length < 2 ^ build.pointerWidth.bits) :
    ∃ reason, openRouted P serde build (outerBytes routeBytes' ++ payload)
      (hybridKeypair P keys).privateKey = .error reason := by
  have split := splitOuter_append payload short fits
  by_cases cut : payload.length < sealedMinLen
  · exact openRouted_rejects _ split (.inl cut)
  · cases parsed : serde.fromSlice routeBytes' with
    | error reason => exact openRouted_rejects _ split (.inr ⟨reason, parsed⟩)
    | ok value =>
        have otherAad : buildAad routeBytes' ≠ buildAad routeBytes :=
          fun same => other (buildAad_inj.mp same)
        rw [openRouted_of_split split cut parsed, openBox_of_aad_ne kem ideal keys _ box otherAad,
          Outcome.mapError_error, Outcome.error_bind]
        exact ⟨_, rfl⟩

/-- **A rewritten header is always noticed**, and writing the first header back restores
the envelope. The headers fit their length prefixes and the address space. -/
theorem rewritten_header (kem : P.KemCorrect) (ideal : P.IdealAead)
    (integers : serde.DecimalIntegers) {header header' innerMetadata : Value}
    (integral : Integral header) (integral' : Integral header') (other : header' ≠ header)
    (short : (canonical serde header).length < 2 ^ 32)
    (short' : (canonical serde header').length < 2 ^ 32)
    (fits : lenPrefix + (canonical serde header).length < 2 ^ build.pointerWidth.bits)
    (fits' : lenPrefix + (canonical serde header').length < 2 ^ build.pointerWidth.bits)
    (content : Bytes) (keys : KeypairDraws) {draws : BoxDraws} {blob : Bytes}
    (sealed : sealRouted P serde innerMetadata content (hybridKeypair P keys).publicKey header
      draws = .ok blob) :
    (∃ reason, (replaceRouteHeader serde build blob header' >>= fun rewritten =>
        openRouted P serde build rewritten (hybridKeypair P keys).privateKey) = .error reason) ∧
      (replaceRouteHeader serde build blob header' >>= fun rewritten =>
        replaceRouteHeader serde build rewritten header) = .ok blob := by
  obtain ⟨payload, box, rfl⟩ := sealRouted_eq_ok sealed
  have otherBytes : canonical serde header' ≠ canonical serde header :=
    fun same => other (canonical_injective integers integral' integral same)
  rw [replaceRouteHeader_append payload short fits, Outcome.ok_bind, Outcome.ok_bind]
  exact ⟨openRouted_other_header kem ideal keys box otherBytes short' fits',
    replaceRouteHeader_append payload short' fits' header⟩

end Rewriting

/-! ## Envelopes with given headers -/

/-- A value between so many brackets. -/
def nested : Nat → Value
  | 0 => .null
  | levels + 1 => .array [nested levels]

theorem depth_nested (levels : Nat) : depth (nested levels) = levels := by
  induction levels with
  | zero => rfl
  | succ levels ih => rw [nested, depth, depthOfValues, depthOfValues, ih, Nat.max_zero]

theorem integral_nested (levels : Nat) : Integral (nested levels) := by
  induction levels with
  | zero => exact .null
  | succ levels ih => exact .array _ (List.forall_mem_singleton.mpr ih)

/-- A header with a single number. -/
def versionHeader (version : UInt64) : Value := .object [("v", .number (.posInt version))]

theorem integral_versionHeader (version : UInt64) : Integral (versionHeader version) :=
  .object _ (List.pairwise_singleton _ _) (List.forall_mem_singleton.mpr (.posInt version))

/-- Primitives that have made the encryption of one envelope, and no other. -/
def routeOnce (header innerMetadata : Value) (content : Bytes) : Primitives :=
  let aad := buildAad (canonical integerJson header)
  Idealised.primitives (Idealised.logged [Idealised.boxEncryption (wrapInfo aad) aad
    (innerBytes (canonical integerJson innerMetadata) content) (Idealised.sampleKeys 1)
    (Idealised.sampleBoxDraws 2)])

/-- Such an envelope can be sealed. -/
theorem exists_sealRouted (header innerMetadata : Value) (content : Bytes) :
    let P := routeOnce header innerMetadata content
    ∃ blob, sealRouted P integerJson innerMetadata content
      (hybridKeypair P (Idealised.sampleKeys 1)).publicKey header (Idealised.sampleBoxDraws 2) =
        .ok blob := by
  intro P
  let aad := buildAad (canonical integerJson header)
  let inner := innerBytes (canonical integerJson innerMetadata) content
  obtain ⟨tag, tagged⟩ := Idealised.exists_logged (List.mem_singleton_self
    (Idealised.boxEncryption (wrapInfo aad) aad inner (Idealised.sampleKeys 1)
      (Idealised.sampleBoxDraws 2)))
  have length : (hybridKeypair P (Idealised.sampleKeys 1)).publicKey.length = publicKeyLen :=
    length_publicKey P _
  obtain ⟨payload, box⟩ : ∃ payload, sealBox P (wrapInfo aad) aad inner
      (hybridKeypair P (Idealised.sampleKeys 1)).publicKey (Idealised.sampleBoxDraws 2) =
        .ok payload := ⟨_, Idealised.sealBox_of_tag tagged⟩
  refine ⟨outerBytes (canonical integerJson header) ++ payload, ?_⟩
  rw [sealRouted, if_neg (not_not.mpr length)]
  dsimp only
  rw [box]
  rfl

/-- A flat header and flat metadata are read back. -/
theorem openRouted_sealRouted_version :
    let P := routeOnce (versionHeader 1) .null [7]
    let keys := hybridKeypair P (Idealised.sampleKeys 1)
    let build : Build := ⟨true, .w64⟩
    ∃ blob, sealRouted P integerJson .null [7] keys.publicKey (versionHeader 1)
        (Idealised.sampleBoxDraws 2) = .ok blob ∧
      openRouted P integerJson build blob keys.privateKey = .ok (versionHeader 1, .null, [7]) ∧
      readRouteHeader integerJson build blob = .ok (versionHeader 1) := by
  intro P keys build
  obtain ⟨blob, sealed⟩ := exists_sealRouted (versionHeader 1) .null [7]
  refine ⟨blob, sealed, ?_⟩
  have wide : build.pointerWidth = .w64 := rfl
  exact (openRouted_sealRouted_iff Idealised.kemCorrect Idealised.aeadCorrect
    decimalIntegers_integerJson parsesJson_integerJson wide (integral_versionHeader 1) .null [7]
    (Idealised.sampleKeys 1) sealed).mpr (by decide)

/-- An envelope opens; with another version in its header it does not, and with the first one
back in place it opens again. -/
theorem rewritten_header_version :
    let P := routeOnce (versionHeader 1) .null [7]
    let keys := hybridKeypair P (Idealised.sampleKeys 1)
    let build : Build := ⟨true, .w64⟩
    ∃ blob, sealRouted P integerJson .null [7] keys.publicKey (versionHeader 1)
        (Idealised.sampleBoxDraws 2) = .ok blob ∧
      openRouted P integerJson build blob keys.privateKey = .ok (versionHeader 1, .null, [7]) ∧
      (∃ reason, (replaceRouteHeader integerJson build blob (versionHeader 2) >>= fun rewritten =>
        openRouted P integerJson build rewritten keys.privateKey) = .error reason) ∧
      ∃ restored, (replaceRouteHeader integerJson build blob (versionHeader 2) >>= fun rewritten =>
          replaceRouteHeader integerJson build rewritten (versionHeader 1)) = .ok restored ∧
        restored = blob ∧
        openRouted P integerJson build restored keys.privateKey =
          .ok (versionHeader 1, .null, [7]) := by
  intro P keys build
  obtain ⟨blob, sealed⟩ := exists_sealRouted (versionHeader 1) .null [7]
  have other : versionHeader 2 ≠ versionHeader 1 := by
    intro same
    simp [versionHeader] at same
  have wide : build.pointerWidth = .w64 := rfl
  have opens : openRouted P integerJson build blob keys.privateKey =
      .ok (versionHeader 1, .null, [7]) :=
    (openRouted_eq_ok_iff_metadata Idealised.kemCorrect Idealised.aeadCorrect
      decimalIntegers_integerJson parsesJson_integerJson wide (integral_versionHeader 1) .null
      (by decide) [7] (Idealised.sampleKeys 1) sealed).mpr (by decide)
  have fits : lenPrefix + (canonical integerJson (versionHeader 1)).length <
      2 ^ build.pointerWidth.bits := by decide
  have fits' : lenPrefix + (canonical integerJson (versionHeader 2)).length <
      2 ^ build.pointerWidth.bits := by decide
  obtain ⟨rejected, restored⟩ := rewritten_header Idealised.kemCorrect
    (Idealised.idealAead_logged (by decide)) decimalIntegers_integerJson
    (integral_versionHeader 1) (integral_versionHeader 2) other (by decide) (by decide) fits fits'
    [7] (Idealised.sampleKeys 1) sealed
  exact ⟨blob, sealed, opens, rejected, blob, restored, rfl, opens⟩

/-- **An envelope that was sealed and does not open**: its header is 128 arrays deep. -/
theorem deep_header_does_not_open :
    let header := nested 128
    let P := routeOnce header .null [7]
    let keys := hybridKeypair P (Idealised.sampleKeys 1)
    let build : Build := ⟨true, .w64⟩
    (P.KemCorrect ∧ P.AeadCorrect ∧ integerJson.DecimalIntegers ∧ integerJson.ParsesJson ∧
      Integral header) ∧
    ∃ blob, sealRouted P integerJson .null [7] keys.publicKey header
        (Idealised.sampleBoxDraws 2) = .ok blob ∧
      readRouteHeader integerJson build blob ≠ .ok header ∧
      openRouted P integerJson build blob keys.privateKey ≠ .ok (header, .null, [7]) := by
  intro header P keys build
  refine ⟨⟨Idealised.kemCorrect, Idealised.aeadCorrect, decimalIntegers_integerJson,
    parsesJson_integerJson, integral_nested 128⟩, ?_⟩
  obtain ⟨blob, sealed⟩ := exists_sealRouted header .null [7]
  have unread : readRouteHeader integerJson build blob ≠ .ok header := by
    obtain ⟨payload, -, rfl⟩ := sealRouted_eq_ok sealed
    intro read
    have limits := (readRouteHeader_eq_ok_iff decimalIntegers_integerJson parsesJson_integerJson rfl
      (integral_nested 128) payload).mp read
    rw [WithinLimits, depth_nested] at limits
    exact absurd limits.1 (by decide)
  exact ⟨blob, sealed, unread, fun opened => unread (readRouteHeader_of_openRouted opened)⟩

end Pqroute
end SkPqc

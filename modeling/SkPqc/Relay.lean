import SkPqc.CanonicalText
import SkPqc.RouteSafety

/-!
# Envelopes on their way

An envelope passes relays, and each may write another header into it. The sealed part
does not change, so after any number of relays the envelope is the last header in front
of the sealed part (`relayed_eq`). Every relay reads what the one before it wrote, and
the destination opens the envelope exactly when the header it was sealed with stands in
front again (`relay_path`).

What the destination opens is well formed to the last byte: `openRouted_eq_ok_iff`
spells an accepted envelope out, part by part.
-/

set_option autoImplicit false

namespace SkPqc
namespace Pqroute

open Library Library.Json Kem HybridBox

/-! ## What opens -/

section Accepted

variable {P : Primitives} {serde : SerdeJson} {build : Build}

/-- A sealed payload opens exactly when it is a ciphertext, a nonce and a body, and the
body decrypts under the key that the ciphertext holds. -/
theorem openBox_eq_ok_iff {info aad payload hybridPriv msg : Bytes}
    (long : bodyOffset ≤ payload.length) :
    openBox P info aad payload hybridPriv = .ok msg ↔
      ∃ (ciphertext : FixedBytes 1120) (nonce : FixedBytes 12) (body shared : Bytes),
        payload = ciphertext.val ++ nonce.val ++ body ∧
        hybridDecap P ciphertext.val hybridPriv = .ok shared ∧
        P.aeadDecrypt (boxKey P info shared) nonce aad body = some msg := by
  constructor
  · intro opened
    obtain ⟨ciphertext, nonce, body, rfl⟩ := exists_payload_parts long
    rw [openBox_append] at opened
    obtain ⟨shared, decapsulated, decrypted⟩ := Outcome.bind_eq_ok.mp opened
    exact ⟨ciphertext, nonce, body, shared, (List.append_assoc _ _ _).symm,
      Outcome.mapError_eq_ok.mp decapsulated, Outcome.ofOption_eq_ok.mp decrypted⟩
  · rintro ⟨ciphertext, nonce, body, shared, rfl, decapsulated, decrypted⟩
    rw [List.append_assoc, openBox_append, decapsulated, Outcome.mapError_ok, Outcome.ok_bind,
      decrypted, Outcome.ofOption_some]

/-- Bytes that hold what their length prefix declares. -/
theorem exists_outerBytes_append {bytes : Bytes} (long : lenPrefix ≤ bytes.length)
    (inside : lenPrefix + beNat (bytes.take lenPrefix) ≤ bytes.length) :
    ∃ measured rest, bytes = outerBytes measured ++ rest ∧ measured.length < 2 ^ 32 ∧
      measured.length = beNat (bytes.take lenPrefix) := by
  simp only [lenPrefix] at long inside ⊢
  have four : (bytes.take 4).length = 4 := by
    rw [List.length_take]
    omega
  have length : ((bytes.drop 4).take (beNat (bytes.take 4))).length = beNat (bytes.take 4) := by
    rw [List.length_take, List.length_drop]
    omega
  refine ⟨(bytes.drop 4).take (beNat (bytes.take 4)), bytes.drop (4 + beNat (bytes.take 4)), ?_,
    lt_of_eq_of_lt length (beNat_lt_of_four four), length⟩
  rw [outerBytes, length, u32ToBe_beNat four]
  exact eq_append_slices bytes 4 (beNat (bytes.take 4))

/-- What is read of an inner part: the metadata that its prefix measures, and the
content behind it. -/
theorem readInner_eq_ok_iff_parts {inner content : Bytes} {innerMetadata : Value} :
    readInner serde build inner = .ok (innerMetadata, content) ↔
      ∃ metaBytes, inner = outerBytes metaBytes ++ content ∧ metaBytes.length < 2 ^ 32 ∧
        lenPrefix + metaBytes.length < 2 ^ build.pointerWidth.bits ∧
        serde.fromSlice metaBytes = .ok innerMetadata := by
  constructor
  · intro read
    have calm : ¬ Overruns build inner := by
      intro overruns
      rw [readInner_eq_panic.mpr overruns] at read
      cases read
    obtain ⟨long, read'⟩ := Outcome.ite_error_eq_ok.mp read
    have small : lenPrefix + beNat (inner.take lenPrefix) < 2 ^ build.pointerWidth.bits :=
      Nat.lt_of_not_le fun beyond => calm ⟨Nat.le_of_not_lt long, beyond⟩
    dsimp only at read'
    rw [build.add_of_lt small, Outcome.ok_bind] at read'
    obtain ⟨inside, -⟩ := Outcome.ite_error_eq_ok.mp read'
    obtain ⟨metaBytes, rest, rfl, short, measured⟩ :=
      exists_outerBytes_append (Nat.le_of_not_lt long) (Nat.le_of_not_lt inside)
    rw [← measured] at small
    rw [readInner_append rest short small] at read
    split at read
    · rename_i value parsed
      cases read
      exact ⟨metaBytes, rfl, short, small, parsed⟩
    · cases read
  · rintro ⟨metaBytes, rfl, short, small, parsed⟩
    rw [readInner_append content short small, parsed]

/-- **What the destination opens.** An envelope is accepted exactly when it is a measured
header that is JSON, a hybrid ciphertext, a nonce and a body, and the body decrypts under
the header to measured metadata that is JSON, and the content. -/
theorem openRouted_eq_ok_iff {blob destHybridPriv content : Bytes}
    {routeHdr innerMetadata : Value} :
    openRouted P serde build blob destHybridPriv = .ok (routeHdr, innerMetadata, content) ↔
      ∃ (routeBytes metaBytes body shared : Bytes) (ciphertext : FixedBytes 1120)
        (nonce : FixedBytes 12),
        blob = outerBytes routeBytes ++ (ciphertext.val ++ nonce.val ++ body) ∧
        routeBytes.length < 2 ^ 32 ∧ metaBytes.length < 2 ^ 32 ∧
        lenPrefix + routeBytes.length < 2 ^ build.pointerWidth.bits ∧
        lenPrefix + metaBytes.length < 2 ^ build.pointerWidth.bits ∧
        aesgcmTagLen ≤ body.length ∧
        serde.fromSlice routeBytes = .ok routeHdr ∧ serde.fromSlice metaBytes = .ok innerMetadata ∧
        hybridDecap P ciphertext.val destHybridPriv = .ok shared ∧
        P.aeadDecrypt (boxKey P (wrapInfo (buildAad routeBytes)) shared) nonce
          (buildAad routeBytes) body = some (outerBytes metaBytes ++ content) := by
  have size : ∀ (ciphertext : FixedBytes 1120) (nonce : FixedBytes 12) (body : Bytes),
      (ciphertext.val ++ nonce.val ++ body).length = 1132 + body.length := by
    intro ciphertext nonce body
    rw [List.length_append, List.length_append, ciphertext.property, nonce.property]
  constructor
  · intro opened
    obtain ⟨⟨routeBytes, sealed⟩, split, opened⟩ := Outcome.bind_eq_ok.mp opened
    obtain ⟨long, opened⟩ := Outcome.ite_error_eq_ok.mp opened
    obtain ⟨header, parsed, opened⟩ := Outcome.bind_eq_ok.mp opened
    obtain ⟨inner, decrypted, opened⟩ := Outcome.bind_eq_ok.mp opened
    obtain ⟨found, read, done⟩ := Outcome.bind_eq_ok.mp opened
    cases done
    obtain ⟨rfl, short, small⟩ := splitOuter_eq_ok split
    obtain ⟨metaBytes, rfl, short', small', parsed'⟩ := readInner_eq_ok_iff_parts.mp read
    rw [sealedMinLen_eq] at long
    obtain ⟨ciphertext, nonce, body, shared, rfl, decapsulated, plain⟩ :=
      (openBox_eq_ok_iff (by rw [bodyOffset_eq]; omega)).mp (Outcome.mapError_eq_ok.mp decrypted)
    rw [size] at long
    exact ⟨routeBytes, metaBytes, body, shared, ciphertext, nonce, rfl, short, short', small,
      small', by rw [aesgcmTagLen]; omega, parseRouteHeader_eq_ok.mp parsed, parsed', decapsulated,
      plain⟩
  · rintro ⟨routeBytes, metaBytes, body, shared, ciphertext, nonce, rfl, short, short', small,
      small', tagged, parsed, parsed', decapsulated, plain⟩
    have split := splitOuter_append (ciphertext.val ++ nonce.val ++ body) short small
    have long : bodyOffset ≤ (ciphertext.val ++ nonce.val ++ body).length := by
      rw [size, bodyOffset_eq]
      omega
    have longer : ¬ (ciphertext.val ++ nonce.val ++ body).length < sealedMinLen := by
      rw [aesgcmTagLen] at tagged
      rw [size, sealedMinLen_eq]
      omega
    have boxed : openBox P (wrapInfo (buildAad routeBytes)) (buildAad routeBytes)
        (ciphertext.val ++ nonce.val ++ body) destHybridPriv =
          .ok (outerBytes metaBytes ++ content) :=
      (openBox_eq_ok_iff long).mpr ⟨ciphertext, nonce, body, shared, rfl, decapsulated, plain⟩
    have read : readInner serde build (outerBytes metaBytes ++ content) =
        .ok (innerMetadata, content) :=
      readInner_eq_ok_iff_parts.mpr ⟨metaBytes, rfl, short', small', parsed'⟩
    rw [openRouted_of_split split longer parsed, boxed, Outcome.mapError_ok, Outcome.ok_bind, read,
      Outcome.ok_bind]

end Accepted

/-! ## Relays -/

/-- A header that fits its length prefix and the address space. -/
structure Fits (serde : SerdeJson) (build : Build) (header : Value) : Prop where
  integral : Integral header
  short : (canonical serde header).length < 2 ^ 32
  addressed : lenPrefix + (canonical serde header).length < 2 ^ build.pointerWidth.bits

/-- The envelope after relays wrote headers into it, one after the other. -/
def relayed (serde : SerdeJson) (build : Build) (blob : Bytes) :
    List Value → Outcome PqRouteError Bytes
  | [] => .ok blob
  | header :: path => do
      let forwarded ← replaceRouteHeader serde build blob header
      relayed serde build forwarded path

section Relays

variable {P : Primitives} {serde : SerdeJson} {build : Build}

/-- **The last header stands in front of what was sealed.** -/
theorem relayed_eq {header : Value} (payload : Bytes) {path : List Value}
    (fits : ∀ written ∈ header :: path, Fits serde build written) :
    relayed serde build (outerBytes (canonical serde header) ++ payload) path =
      .ok (outerBytes (canonical serde (path.getLastD header)) ++ payload) := by
  induction path generalizing header with
  | nil => rfl
  | cons next rest ih =>
      have first := fits header List.mem_cons_self
      rw [relayed, replaceRouteHeader_append payload first.short first.addressed, Outcome.ok_bind,
        ih fun written found => fits written (List.mem_cons_of_mem header found),
        List.getLastD_cons]

/-- A header that fits is read back when it is not nested too deeply. -/
theorem readRouteHeader_of_fits (integers : serde.DecimalIntegers) (parses : serde.ParsesJson)
    {header : Value} (fits : Fits serde build header) (payload : Bytes) :
    readRouteHeader serde build (outerBytes (canonical serde header) ++ payload) = .ok header ↔
      depth header < recursionLimit := by
  have parsed := fromSlice_take_canonical integers parses fits.integral
  rw [Nat.mod_eq_of_lt fits.short, List.take_length] at parsed
  rw [readRouteHeader, splitOuter_append payload fits.short fits.addressed, Outcome.ok_bind,
    parseRouteHeader_eq_ok, parsed]
  exact and_iff_left fits.short

/-- An envelope opens under the header it was sealed with. -/
theorem openRouted_of_fits (kem : P.KemCorrect) (aead : P.AeadCorrect)
    (integers : serde.DecimalIntegers) (parses : serde.ParsesJson) (keys : KeypairDraws)
    {header innerMetadata : Value} {content payload : Bytes} {draws : BoxDraws}
    (box : sealBox P (wrapInfo (buildAad (canonical serde header)))
      (buildAad (canonical serde header)) (innerBytes (canonical serde innerMetadata) content)
      (hybridKeypair P keys).publicKey draws = .ok payload)
    (fits : Fits serde build header) (shallow : depth header < recursionLimit)
    (fits' : Fits serde build innerMetadata) (shallow' : depth innerMetadata < recursionLimit) :
    openRouted P serde build (outerBytes (canonical serde header) ++ payload)
      (hybridKeypair P keys).privateKey = .ok (header, innerMetadata, content) := by
  have parsed : ∀ {value : Value}, Fits serde build value → depth value < recursionLimit →
      serde.fromSlice (canonical serde value) = .ok value := by
    intro value fits shallow
    have read := (fromSlice_take_canonical integers parses fits.integral).mpr ⟨shallow, fits.short⟩
    rwa [Nat.mod_eq_of_lt fits.short, List.take_length] at read
  have long : ¬ payload.length < sealedMinLen := by
    rw [length_sealBox aead box, bodyOffset_eq, sealedMinLen_eq, tagLen]
    omega
  have read : readInner serde build (innerBytes (canonical serde innerMetadata) content) =
      .ok (innerMetadata, content) :=
    readInner_eq_ok_iff_parts.mpr ⟨_, rfl, fits'.short, fits'.addressed, parsed fits' shallow'⟩
  rw [openRouted_of_split (splitOuter_append payload fits.short fits.addressed) long
    (parsed fits shallow), openBox_sealBox kem aead keys box, Outcome.mapError_ok, Outcome.ok_bind,
    read, Outcome.ok_bind]

/-- **An envelope on its way.** Whatever headers the relays write, each of them reads what the
one before it wrote. The destination opens the envelope, and to all that was sealed, exactly
when the last header is the first again; otherwise it notices. -/
theorem relay_path (kem : P.KemCorrect) (aead : P.AeadCorrect) (ideal : P.IdealAead)
    (integers : serde.DecimalIntegers) (parses : serde.ParsesJson)
    {header innerMetadata : Value} {path : List Value}
    (fits : ∀ written ∈ header :: path, Fits serde build written)
    (shallow : ∀ written ∈ header :: path, depth written < recursionLimit)
    (fits' : Fits serde build innerMetadata) (shallow' : depth innerMetadata < recursionLimit)
    (content : Bytes) (keys : KeypairDraws) {draws : BoxDraws} {blob : Bytes}
    (sealed : sealRouted P serde innerMetadata content (hybridKeypair P keys).publicKey header
      draws = .ok blob) :
    ∃ arrived, relayed serde build blob path = .ok arrived ∧
      readRouteHeader serde build arrived = .ok (path.getLastD header) ∧
      (path.getLastD header = header →
        openRouted P serde build arrived (hybridKeypair P keys).privateKey =
          .ok (header, innerMetadata, content)) ∧
      (path.getLastD header ≠ header →
        ∃ reason, openRouted P serde build arrived (hybridKeypair P keys).privateKey =
          .error reason) := by
  obtain ⟨payload, box, rfl⟩ := sealRouted_eq_ok sealed
  have last : path.getLastD header ∈ header :: path := by
    rw [List.getLastD_eq_getLast?]
    cases found : path.getLast? with
    | none => exact List.mem_cons_self
    | some written => exact List.mem_cons_of_mem header (List.mem_of_getLast? found)
  have lastFits := fits _ last
  refine ⟨_, relayed_eq payload fits, ?_, ?_, ?_⟩
  · exact (readRouteHeader_of_fits integers parses lastFits payload).mpr (shallow _ last)
  · intro same
    rw [same] at lastFits ⊢
    exact openRouted_of_fits kem aead integers parses keys box lastFits
      (shallow header List.mem_cons_self) fits' shallow'
  · intro other
    have otherBytes : canonical serde (path.getLastD header) ≠ canonical serde header :=
      fun same => other (canonical_injective integers lastFits.integral
        (fits header List.mem_cons_self).integral same)
    exact openRouted_other_header kem ideal keys box otherBytes lastFits.short lastFits.addressed

end Relays

/-- Two relays: the second writes the first header back. -/
theorem relay_path_restored :
    let P := routeOnce (versionHeader 1) .null [7]
    let keys := hybridKeypair P (Idealised.sampleKeys 1)
    let build : Build := ⟨true, .w64⟩
    ∃ blob arrived, sealRouted P integerJson .null [7] keys.publicKey (versionHeader 1)
        (Idealised.sampleBoxDraws 2) = .ok blob ∧
      relayed integerJson build blob [versionHeader 2, versionHeader 1] = .ok arrived ∧
      openRouted P integerJson build arrived keys.privateKey =
        .ok (versionHeader 1, .null, [7]) := by
  intro P keys build
  obtain ⟨blob, sealed⟩ := exists_sealRouted (versionHeader 1) .null [7]
  have fits : ∀ written ∈ [versionHeader 1, versionHeader 2, versionHeader 1],
      Fits integerJson build written := by
    intro written found
    simp only [List.mem_cons, List.not_mem_nil, or_false] at found
    rcases found with rfl | rfl | rfl
    · exact ⟨integral_versionHeader 1, by decide, by decide⟩
    · exact ⟨integral_versionHeader 2, by decide, by decide⟩
    · exact ⟨integral_versionHeader 1, by decide, by decide⟩
  have shallow : ∀ written ∈ [versionHeader 1, versionHeader 2, versionHeader 1],
      depth written < recursionLimit := by
    intro written found
    simp only [List.mem_cons, List.not_mem_nil, or_false] at found
    rcases found with rfl | rfl | rfl
    · decide
    · decide
    · decide
  obtain ⟨arrived, onTheWay, -, opens, -⟩ := relay_path Idealised.kemCorrect
    Idealised.aeadCorrect (Idealised.idealAead_logged (by decide)) decimalIntegers_integerJson
    parsesJson_integerJson fits shallow ⟨.null, by decide, by decide⟩ (by decide)
    [7] (Idealised.sampleKeys 1) sealed
  exact ⟨blob, arrived, sealed, onTheWay, opens rfl⟩

end Pqroute
end SkPqc

import SkPqc.CanonicalJson
import SkPqc.HybridBox

/-!
# Routing envelopes

A relay reads the route header in the clear, and only the destination reads the
inner metadata and the content. The header is part of the associated data and of
the wrap key, as the bytes that arrived.

Lengths on the wire are `u32` and are cast to `usize`, so the width of a pointer
is part of the build.
-/

set_option autoImplicit false

namespace SkPqc
namespace Pqroute

open Library Library.Json Kem HybridBox

/-! ## Interop constants -/

/-- The suite identifier, bound into the associated data. -/
def routeSuite : String := "pqroute1"

/-- The label of the wrap key. -/
def infoWrap : Bytes := utf8 "skcomms/pqroute/wrap/v1"

/-- Bytes of a length prefix. -/
def lenPrefix : Nat := 4

def wrapNonceLen : Nat := 12
def aesgcmTagLen : Nat := 16

/-- The shortest sealed inner part: a ciphertext, a nonce and a tag. -/
def sealedMinLen : Nat := ciphertextLen + wrapNonceLen + aesgcmTagLen

@[simp] theorem sealedMinLen_eq : sealedMinLen = 1148 := rfl

/-- Errors of routing envelopes. -/
inductive PqRouteError where
  | format (message : String)
  | «open» (message : String)
  | kem (reason : KemError)
  deriving DecidableEq, Repr

/-- While opening, a KEM error is an error of opening too. -/
def PqRouteError.ofOpen : BoxError → PqRouteError
  | .kem reason => .open ("hybrid decapsulation failed: " ++ reason.display)
  | .aead => .open ("pqroute1 open failed — wrong key, tampered inner, or a rewritten route " ++
      "header (the header is AEAD-bound)")

/-! ## The associated data and the inner part -/

/-- The header, bound to the suite. -/
def buildAad (routeCanonical : Bytes) : Bytes := utf8 routeSuite ++ utf8 "|" ++ routeCanonical

/-- The label of the wrap key, with the associated data folded in. -/
def wrapInfo (aad : Bytes) : Bytes := infoWrap ++ utf8 "|" ++ aad

/-- The plaintext of the sealed part: the metadata behind its length, then the
content. -/
def innerBytes (metaBytes content : Bytes) : Bytes :=
  u32ToBe metaBytes.length ++ metaBytes ++ content

/-- The outer header behind its length. -/
def outerBytes (routeBytes : Bytes) : Bytes := u32ToBe routeBytes.length ++ routeBytes

section Functions

variable (P : Primitives) (serde : SerdeJson) (build : Build)

/-- Seal metadata and content to the destination, under a plaintext header. -/
def sealRouted (innerMetadata : Value) (content destHybridPub : Bytes) (routeHdr : Value)
    (draws : BoxDraws) : Outcome PqRouteError Bytes :=
  if destHybridPub.length ≠ publicKeyLen then
    .error (.format ("dest_hybrid_pub must be " ++ toString publicKeyLen ++ " bytes, got " ++
      toString destHybridPub.length))
  else do
    let routeBytes := canonical serde routeHdr
    let inner := innerBytes (canonical serde innerMetadata) content
    let aad := buildAad routeBytes
    let sealed ← (sealBox P (wrapInfo aad) aad inner destHybridPub draws).mapError fun
      | .kem reason => .kem reason
      | .aead => .format "AES-256-GCM seal failed"
    return outerBytes routeBytes ++ sealed

/-- Split an envelope into the bytes of its header and the sealed part. -/
def splitOuter (blob : Bytes) : Outcome PqRouteError (Bytes × Bytes) :=
  if blob.length < lenPrefix then
    .error (.format "blob too short for a route-header length prefix")
  else
    let hdrLen := beNat (blob.take lenPrefix)
    let stop := lenPrefix + hdrLen
    if ¬ stop < 2 ^ build.pointerWidth.bits then .error (.format "route header length overflow")
    else if stop > blob.length then .error (.format "route header length exceeds blob size")
    else do
      let routeBytes ← slice blob lenPrefix stop
      let sealed ← slice blob stop blob.length
      return (routeBytes, sealed)

/-- Parse the header bytes of an envelope. -/
def parseRouteHeader (routeBytes : Bytes) : Outcome PqRouteError Value :=
  match serde.fromSlice routeBytes with
  | .ok value => .ok value
  | .error reason => .error (.format ("route header not valid JSON: " ++ reason))

/-- The header of an envelope, without decryption. -/
def readRouteHeader (blob : Bytes) : Outcome PqRouteError Value := do
  let split ← splitOuter build blob
  parseRouteHeader serde split.1

/-- The envelope with its header replaced. -/
def replaceRouteHeader (blob : Bytes) (newRouteHdr : Value) : Outcome PqRouteError Bytes := do
  let split ← splitOuter build blob
  return outerBytes (canonical serde newRouteHdr) ++ split.2

/-- Split a decrypted inner part into its metadata and the content. The sum of
the prefix and the length it spells is not checked. -/
def readInner (inner : Bytes) : Outcome PqRouteError (Value × Bytes) :=
  if inner.length < lenPrefix then .error (.open "decrypted inner is truncated")
  else do
    let metaLen := beNat (inner.take lenPrefix)
    let stop ← build.add build.pointerWidth.bits lenPrefix metaLen
    if stop > inner.length then
      .error (.open "decrypted inner metadata length is out of range")
    else
      let metaBytes ← slice inner lenPrefix stop
      let content ← slice inner stop inner.length
      match serde.fromSlice metaBytes with
      | .ok innerMetadata => return (innerMetadata, content)
      | .error reason => .error (.open ("inner metadata not valid JSON: " ++ reason))

/-- Open an envelope: the header, the metadata and the content. -/
def openRouted (blob destHybridPriv : Bytes) : Outcome PqRouteError (Value × Value × Bytes) := do
  let (routeBytes, sealed) ← splitOuter build blob
  if sealed.length < sealedMinLen then
    .error (.format ("sealed inner must be >= " ++ toString sealedMinLen ++ " bytes, got " ++
      toString sealed.length))
  else
    let routeHdr ← parseRouteHeader serde routeBytes
    let aad := buildAad routeBytes
    let inner ← (openBox P (wrapInfo aad) aad sealed destHybridPriv).mapError .ofOpen
    let (innerMetadata, content) ← readInner serde build inner
    return (routeHdr, innerMetadata, content)

end Functions

/-! ## What the functions compute -/

variable {P : Primitives} {serde : SerdeJson} {build : Build}

section Measured

variable {ε : Type} (bytes rest : Bytes)

theorem length_outerBytes_append :
    (outerBytes bytes ++ rest).length = lenPrefix + bytes.length + rest.length := by
  simp [outerBytes, lenPrefix, Nat.add_assoc]

theorem take_outerBytes_append :
    (outerBytes bytes ++ rest).take lenPrefix = u32ToBe bytes.length := by
  simp [outerBytes, lenPrefix, List.append_assoc]

/-- What a length prefix measures. -/
theorem slice_outerBytes :
    (slice (outerBytes bytes ++ rest) lenPrefix (lenPrefix + bytes.length) : Outcome ε Bytes) =
      .ok bytes := by
  let lengthBytes : FixedBytes 4 := ⟨u32ToBe bytes.length, length_u32ToBe _⟩
  let measured : FixedBytes bytes.length := ⟨bytes, rfl⟩
  have parts : outerBytes bytes ++ rest = lengthBytes.val ++ (measured.val ++ rest) :=
    List.append_assoc _ _ _
  rw [parts]
  exact slice_middle lengthBytes measured rest

/-- What stands behind it. -/
theorem slice_outerBytes_rest :
    (slice (outerBytes bytes ++ rest) (lenPrefix + bytes.length)
      (outerBytes bytes ++ rest).length : Outcome ε Bytes) = .ok rest := by
  let lengthBytes : FixedBytes 4 := ⟨u32ToBe bytes.length, length_u32ToBe _⟩
  let measured : FixedBytes bytes.length := ⟨bytes, rfl⟩
  have parts : outerBytes bytes ++ rest = lengthBytes.val ++ (measured.val ++ rest) :=
    List.append_assoc _ _ _
  rw [parts]
  exact slice_rest lengthBytes measured rest

end Measured

/-- An envelope splits into the parts it was made of. -/
theorem splitOuter_append {routeBytes : Bytes} (sealed : Bytes)
    (short : routeBytes.length < 2 ^ 32)
    (small : lenPrefix + routeBytes.length < 2 ^ build.pointerWidth.bits) :
    splitOuter build (outerBytes routeBytes ++ sealed) = .ok (routeBytes, sealed) := by
  have size := length_outerBytes_append routeBytes sealed
  simp only [splitOuter, take_outerBytes_append, beNat_u32ToBe short, slice_outerBytes,
    slice_outerBytes_rest, Outcome.ok_bind]
  rw [if_neg (by omega), if_neg (not_not.mpr small), if_neg (by omega)]
  rfl

/-- An inner part is read as the parts it was made of. -/
theorem readInner_append {metaBytes : Bytes} (content : Bytes) (short : metaBytes.length < 2 ^ 32)
    (small : lenPrefix + metaBytes.length < 2 ^ build.pointerWidth.bits) :
    readInner serde build (outerBytes metaBytes ++ content) =
      match serde.fromSlice metaBytes with
      | .ok innerMetadata => .ok (innerMetadata, content)
      | .error reason => .error (.open ("inner metadata not valid JSON: " ++ reason)) := by
  have size := length_outerBytes_append metaBytes content
  simp only [readInner, take_outerBytes_append, beNat_u32ToBe short]
  rw [if_neg (by omega), build.add_of_lt small, Outcome.ok_bind, if_neg (by omega),
    slice_outerBytes, Outcome.ok_bind, slice_outerBytes_rest, Outcome.ok_bind]
  rfl

theorem parseRouteHeader_eq_ok {routeBytes : Bytes} {value : Value} :
    parseRouteHeader serde routeBytes = .ok value ↔ serde.fromSlice routeBytes = .ok value := by
  unfold parseRouteHeader
  split
  · rename_i found parsed
    rw [parsed, Outcome.ok.injEq, Except.ok.injEq]
  · rename_i reason unparsed
    rw [unparsed]
    exact iff_of_false (by simp) (by simp)

/-- What is split off an envelope: the header that its prefix measures, and the
rest. -/
theorem splitOuter_eq_ok {blob routeBytes sealed : Bytes}
    (split : splitOuter build blob = .ok (routeBytes, sealed)) :
    blob = outerBytes routeBytes ++ sealed ∧ routeBytes.length < 2 ^ 32 ∧
      lenPrefix + routeBytes.length < 2 ^ build.pointerWidth.bits := by
  obtain ⟨long, split⟩ := Outcome.ite_error_eq_ok.mp split
  obtain ⟨small, split⟩ := Outcome.ite_error_eq_ok.mp split
  obtain ⟨inside, split⟩ := Outcome.ite_error_eq_ok.mp split
  have four : (blob.take 4).length = 4 := by
    simp only [lenPrefix] at long
    rw [List.length_take]
    omega
  obtain ⟨header, sliced, rest⟩ := Outcome.bind_eq_ok.mp split
  obtain ⟨tail, sliced', done⟩ := Outcome.bind_eq_ok.mp rest
  obtain ⟨-, bound, rfl⟩ := slice_eq_ok sliced
  obtain ⟨-, -, rfl⟩ := slice_eq_ok sliced'
  cases done
  simp only [lenPrefix] at bound ⊢
  rw [Nat.add_sub_cancel_left]
  have measured : ((blob.drop 4).take (beNat (blob.take 4))).length = beNat (blob.take 4) := by
    rw [List.length_take, List.length_drop]
    omega
  have whole : (blob.drop (4 + beNat (blob.take 4))).take
      (blob.length - (4 + beNat (blob.take 4))) = blob.drop (4 + beNat (blob.take 4)) :=
    List.take_of_length_le (by rw [List.length_drop])
  refine ⟨?_, lt_of_eq_of_lt measured (beNat_lt_of_four four), ?_⟩
  · rw [outerBytes, measured, u32ToBe_beNat four, whole]
    exact eq_append_slices blob 4 (beNat (blob.take 4))
  · rw [measured]
    exact not_not.mp small

theorem splitOuter_ne_panic (blob : Bytes) : splitOuter build blob ≠ .panic := by
  unfold splitOuter
  split
  · simp
  · dsimp only
    split
    · simp
    · split
      · simp
      · rename_i long _ inside
        rw [slice_of_le (by omega) (by omega), slice_of_le (by omega) (Nat.le_refl _)]
        simp

/-- The associated data determines the header. -/
theorem buildAad_inj {routeBytes routeBytes' : Bytes} :
    buildAad routeBytes = buildAad routeBytes' ↔ routeBytes = routeBytes' := by
  simp [buildAad]

/-- An envelope is its header and a box under the header. -/
theorem sealRouted_eq_ok {innerMetadata routeHdr : Value} {content destHybridPub blob : Bytes}
    {draws : BoxDraws}
    (sealed : sealRouted P serde innerMetadata content destHybridPub routeHdr draws = .ok blob) :
    let aad := buildAad (canonical serde routeHdr)
    ∃ payload, sealBox P (wrapInfo aad) aad
        (innerBytes (canonical serde innerMetadata) content) destHybridPub draws = .ok payload ∧
      blob = outerBytes (canonical serde routeHdr) ++ payload := by
  obtain ⟨-, sealed⟩ := Outcome.ite_error_eq_ok.mp sealed
  obtain ⟨payload, box, done⟩ := Outcome.bind_eq_ok.mp sealed
  cases done
  exact ⟨payload, Outcome.mapError_eq_ok.mp box, rfl⟩

/-- Opening an envelope whose header was split off and parsed. -/
theorem openRouted_of_split {blob routeBytes sealed destHybridPriv : Bytes} {routeHdr : Value}
    (split : splitOuter build blob = .ok (routeBytes, sealed))
    (long : ¬ sealed.length < sealedMinLen) (parsed : serde.fromSlice routeBytes = .ok routeHdr) :
    openRouted P serde build blob destHybridPriv =
      ((openBox P (wrapInfo (buildAad routeBytes)) (buildAad routeBytes) sealed
          destHybridPriv).mapError .ofOpen >>= fun inner =>
        readInner serde build inner >>= fun found => .ok (routeHdr, found.1, found.2)) := by
  rw [openRouted, split]
  simp only [Outcome.ok_bind, if_neg long, parseRouteHeader, parsed]
  rfl

/-- The header of an opened envelope is the one that a relay reads. -/
theorem readRouteHeader_of_openRouted {blob destHybridPriv content : Bytes}
    {routeHdr innerMetadata : Value}
    (opened : openRouted P serde build blob destHybridPriv =
      .ok (routeHdr, innerMetadata, content)) :
    readRouteHeader serde build blob = .ok routeHdr := by
  obtain ⟨⟨routeBytes, payload⟩, split, opened⟩ := Outcome.bind_eq_ok.mp opened
  obtain ⟨-, opened⟩ := Outcome.ite_error_eq_ok.mp opened
  obtain ⟨header, parsed, opened⟩ := Outcome.bind_eq_ok.mp opened
  obtain ⟨inner, -, opened⟩ := Outcome.bind_eq_ok.mp opened
  obtain ⟨found, -, done⟩ := Outcome.bind_eq_ok.mp opened
  cases done
  rw [readRouteHeader, split, Outcome.ok_bind, parsed]

/-- An envelope with a short inner part or a header that is no JSON is rejected. -/
theorem openRouted_rejects {blob routeBytes sealed : Bytes} (destHybridPriv : Bytes)
    (split : splitOuter build blob = .ok (routeBytes, sealed))
    (bad : sealed.length < sealedMinLen ∨ ∃ reason, serde.fromSlice routeBytes = .error reason) :
    ∃ reason, openRouted P serde build blob destHybridPriv = .error reason := by
  rw [openRouted, split]
  simp only [Outcome.ok_bind]
  by_cases short : sealed.length < sealedMinLen
  · rw [if_pos short]
    exact ⟨_, rfl⟩
  · obtain ⟨reason, unparsed⟩ := bad.resolve_left short
    rw [if_neg short, parseRouteHeader, unparsed]
    exact ⟨_, rfl⟩

end Pqroute
end SkPqc

import SkPqc.Idealised
import SkPqc.Library.JsonRoundTrip
import SkPqc.Pqroute

/-!
# The routing parsers on every target

An envelope is parsed in two layers. Splitting off the header adds two lengths with a
check, on every target. Reading the decrypted inner part adds them without one: where
the length it declares does not fit a machine word together with its prefix, the sum
overflows, or wraps to an end before its start. Both panic (`readInner_eq_panic`).

Such an inner part can only be declared on 32-bit targets. Whoever holds the public
key of the recipient can seal one (`openRouted_panics_overrun`).
-/

set_option autoImplicit false

namespace SkPqc
namespace Pqroute

open Library Library.Json Kem HybridBox Idealised

variable {P : Primitives} {serde : SerdeJson} {build : Build}

/-! ## The header -/

theorem parseRouteHeader_ne_panic (routeBytes : Bytes) :
    parseRouteHeader serde routeBytes ≠ .panic := by
  unfold parseRouteHeader
  split
  · simp
  · simp

theorem readRouteHeader_ne_panic (blob : Bytes) :
    readRouteHeader serde build blob ≠ .panic := by
  intro panicked
  rcases Outcome.bind_eq_panic.mp panicked with split | ⟨parts, -, parsed⟩
  · exact splitOuter_ne_panic blob split
  · exact parseRouteHeader_ne_panic _ parsed

theorem replaceRouteHeader_ne_panic (blob : Bytes) (newRouteHdr : Value) :
    replaceRouteHeader serde build blob newRouteHdr ≠ .panic := by
  intro panicked
  rcases Outcome.bind_eq_panic.mp panicked with split | ⟨parts, -, made⟩
  · exact splitOuter_ne_panic blob split
  · cases made

/-- The size of the buffer for a replaced header does not overflow: the envelope and the
new header are in memory together, and the buffer is no longer than the two. -/
theorem replaceRouteHeader_capacity {blob routeBytes sealed newRouteBytes : Bytes}
    (split : splitOuter build blob = .ok (routeBytes, sealed))
    (inMemory : blob.length + newRouteBytes.length < 2 ^ build.pointerWidth.bits) :
    lenPrefix + newRouteBytes.length + sealed.length < 2 ^ build.pointerWidth.bits := by
  obtain ⟨rfl, -, -⟩ := splitOuter_eq_ok split
  rw [length_outerBytes_append] at inMemory
  omega

/-! ## The inner part -/

/-- The metadata that an inner part declares ends beyond a machine word. -/
def Overruns (build : Build) (inner : Bytes) : Prop :=
  lenPrefix ≤ inner.length ∧
    2 ^ build.pointerWidth.bits ≤ lenPrefix + beNat (inner.take lenPrefix)

/-- A declared length is a `u32`. -/
theorem declared_lt {inner : Bytes} (long : lenPrefix ≤ inner.length) :
    beNat (inner.take lenPrefix) < 2 ^ 32 := by
  apply beNat_lt_of_four
  rw [List.length_take, lenPrefix] at *
  omega

/-- On 64-bit targets no inner part overruns. -/
theorem not_overruns_wide (wide : build.pointerWidth = .w64) (inner : Bytes) :
    ¬ Overruns build inner := by
  rintro ⟨long, overruns⟩
  have small := declared_lt long
  rw [wide] at overruns
  simp only [lenPrefix, PointerWidth.bits] at overruns small
  omega

/-- **Where reading an inner part panics**, whether overflow is checked or not. -/
theorem readInner_eq_panic {inner : Bytes} :
    readInner serde build inner = .panic ↔ Overruns build inner := by
  unfold readInner
  by_cases short : inner.length < lenPrefix
  · rw [if_pos short]
    exact iff_of_false (by simp) fun overruns => absurd overruns.1 (Nat.not_le.mpr short)
  · have long := Nat.le_of_not_lt short
    have four : lenPrefix < 2 ^ build.pointerWidth.bits := build.word_of_u32 (by decide)
    have word := build.word_of_u32 (declared_lt long)
    rw [if_neg short]
    dsimp only
    by_cases small : lenPrefix + beNat (inner.take lenPrefix) < 2 ^ build.pointerWidth.bits
    · rw [build.add_of_lt small, Outcome.ok_bind]
      apply iff_of_false
      · split
        · simp
        · rename_i bound
          rw [slice_of_le (Nat.le_add_right ..) (Nat.le_of_not_lt bound),
            slice_of_le (Nat.le_of_not_lt bound) (Nat.le_refl _)]
          simp only [Outcome.ok_bind]
          split
          · simp
          · simp
      · exact fun overruns => absurd overruns.2 (Nat.not_le.mpr small)
    · refine iff_of_true ?_ ⟨long, Nat.le_of_not_lt small⟩
      rcases build.add_of_not_lt (ε := PqRouteError) four word small with
        panicked | ⟨stop, sum, inverted⟩
      · rw [panicked, Outcome.panic_bind]
      · rw [sum, Outcome.ok_bind, if_neg (by omega), slice_of_lt inverted, Outcome.panic_bind]

/-- The envelope opens under the private key to an inner part: it is a header that is
JSON, and a box under that header. -/
def Encloses (P : Primitives) (serde : SerdeJson) (build : Build)
    (blob destHybridPriv inner : Bytes) : Prop :=
  ∃ routeBytes sealed routeHdr, blob = outerBytes routeBytes ++ sealed ∧
    routeBytes.length < 2 ^ 32 ∧
    lenPrefix + routeBytes.length < 2 ^ build.pointerWidth.bits ∧
    sealedMinLen ≤ sealed.length ∧ serde.fromSlice routeBytes = .ok routeHdr ∧
    openBox P (wrapInfo (buildAad routeBytes)) (buildAad routeBytes) sealed destHybridPriv =
      .ok inner

/-- Opening panics on what reading the inner part panics on, and on nothing else. -/
theorem openRouted_eq_panic {blob destHybridPriv : Bytes} :
    openRouted P serde build blob destHybridPriv = .panic ↔
      ∃ inner, Encloses P serde build blob destHybridPriv inner ∧ Overruns build inner := by
  constructor
  · intro panicked
    rcases Outcome.bind_eq_panic.mp panicked with split | ⟨⟨routeBytes, sealed⟩, split, rest⟩
    · exact absurd split (splitOuter_ne_panic blob)
    · obtain ⟨whole, short, small⟩ := splitOuter_eq_ok split
      dsimp only at rest
      split at rest
      · cases rest
      · rename_i long
        rcases Outcome.bind_eq_panic.mp rest with parsed | ⟨routeHdr, parsed, rest⟩
        · exact absurd parsed (parseRouteHeader_ne_panic routeBytes)
        · rcases Outcome.bind_eq_panic.mp rest with opened | ⟨inner, opened, rest⟩
          · have room : bodyOffset ≤ sealed.length := by
              simp only [sealedMinLen_eq, bodyOffset_eq] at long ⊢
              omega
            exact absurd (Outcome.mapError_eq_panic.mp opened) (openBox_ne_panic _ _ _ room)
          · rcases Outcome.bind_eq_panic.mp rest with read | ⟨found, -, done⟩
            · exact ⟨inner, ⟨routeBytes, sealed, routeHdr, whole, short, small,
                Nat.le_of_not_lt long, parseRouteHeader_eq_ok.mp parsed,
                Outcome.mapError_eq_ok.mp opened⟩, readInner_eq_panic.mp read⟩
            · cases done
  · rintro ⟨inner, encloses, overruns⟩
    obtain ⟨routeBytes, sealed, routeHdr, rfl, short, small, long, parsed, opened⟩ := encloses
    have split : splitOuter build (outerBytes routeBytes ++ sealed) = .ok (routeBytes, sealed) :=
      splitOuter_append sealed short small
    rw [openRouted_of_split split (Nat.not_lt.mpr long) parsed, opened, Outcome.mapError_ok,
      Outcome.ok_bind, readInner_eq_panic.mpr overruns, Outcome.panic_bind]

/-- **When the routing parsers are safe.** On every build, none of them panics exactly when
the envelope does not open to an inner part whose declared metadata ends beyond a
machine word. -/
theorem parsers_safe_iff (P : Primitives) (serde : SerdeJson) (build : Build)
    (blob destHybridPriv : Bytes) (newRouteHdr : Value) :
    (readRouteHeader serde build blob ≠ .panic ∧
        replaceRouteHeader serde build blob newRouteHdr ≠ .panic ∧
        openRouted P serde build blob destHybridPriv ≠ .panic) ↔
      ∀ inner, Encloses P serde build blob destHybridPriv inner → ¬ Overruns build inner := by
  rw [ne_eq (openRouted P serde build blob destHybridPriv), openRouted_eq_panic]
  constructor
  · rintro ⟨-, -, safe⟩ inner encloses overruns
    exact safe ⟨inner, encloses, overruns⟩
  · intro fits
    refine ⟨readRouteHeader_ne_panic blob, replaceRouteHeader_ne_panic blob newRouteHdr, ?_⟩
    rintro ⟨inner, encloses, overruns⟩
    exact fits inner encloses overruns

/-! ## An envelope that anyone can seal -/

/-- An inner part that declares metadata of 2³² − 1 bytes. -/
def endlessInner : Bytes := [0xff, 0xff, 0xff, 0xff]

theorem overruns_endlessInner (overflowChecks : Bool) :
    Overruns ⟨overflowChecks, .w32⟩ endlessInner := by
  constructor
  · decide
  · change 2 ^ 32 ≤ _
    decide

/-- **On 32-bit targets an envelope panics**, whether overflow is checked or not. It is
made with the public key alone. -/
theorem openRouted_panics_overrun :
    let header := utf8 "null"
    let aad := buildAad header
    let P := primitives (logged [boxEncryption (wrapInfo aad) aad endlessInner (sampleKeys 1)
      (sampleBoxDraws 2)])
    let keys := hybridKeypair P (sampleKeys 1)
    ∃ sealed, sealBox P (wrapInfo aad) aad endlessInner keys.publicKey (sampleBoxDraws 2) =
        .ok sealed ∧
      openRouted P integerJson ⟨true, .w32⟩ (outerBytes header ++ sealed) keys.privateKey =
        .panic ∧
      openRouted P integerJson ⟨false, .w32⟩ (outerBytes header ++ sealed) keys.privateKey =
        .panic := by
  intro header aad P keys
  obtain ⟨tag, tagged⟩ := exists_logged (List.mem_singleton_self
    (boxEncryption (wrapInfo aad) aad endlessInner (sampleKeys 1) (sampleBoxDraws 2)))
  have made := @sealBox_of_tag _ (sampleKeys 1) _ _ _ _ _ tagged
  have parsed : integerJson.fromSlice header = .ok .null := by rfl
  have encloses : ∀ overflowChecks, Encloses P integerJson ⟨overflowChecks, .w32⟩
      (outerBytes header ++ (boxCiphertext (sampleBoxDraws 2) ++ (sampleBoxDraws 2).nonce.val ++
        (endlessInner ++ tag.val))) keys.privateKey endlessInner := by
    intro overflowChecks
    refine ⟨header, _, .null, rfl, by decide, ?_, ?_, parsed, ?_⟩
    · change lenPrefix + header.length < 2 ^ 32
      decide
    · rw [length_sealBox aeadCorrect made, bodyOffset_eq, sealedMinLen_eq, tagLen]
      omega
    · exact openBox_sealBox kemCorrect aeadCorrect (sampleKeys 1) made
  refine ⟨_, made, ?_, ?_⟩
  · exact openRouted_eq_panic.mpr ⟨endlessInner, encloses true, overruns_endlessInner true⟩
  · exact openRouted_eq_panic.mpr ⟨endlessInner, encloses false, overruns_endlessInner false⟩

end Pqroute
end SkPqc

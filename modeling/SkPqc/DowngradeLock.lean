import SkPqc.CanonicalAad
import SkPqc.Idealised
import SkPqc.Library.JsonString

/-!
# The downgrade lock

The associated data of a direct message is a JSON object of the suite and the two
parties. Every string in it ends at its closing quote, whatever it holds, so the
object determines all three (`downgradeLockAad_append_inj`), also in front of
further bytes.

So a message opens exactly for the suite and the parties it was sealed for, and
everything else is reported as a downgrade (`openSealed_seal`).
-/

set_option autoImplicit false

namespace SkPqc
namespace Pqdm

open Library Library.Json Kem HybridBox Idealised

/-- What is appended stands behind the object as it is. -/
theorem downgradeLockAad_eq_append (serde : SerdeJson) (suite sender recipient : String)
    (extra : Option Bytes) :
    downgradeLockAad serde suite sender recipient extra =
      downgradeLockAad serde suite sender recipient none ++ extra.getD [] := by
  simp only [downgradeLockAad, Option.getD_none, List.append_nil]

/-- **The downgrade lock separates suites and parties**, whatever they spell and
whatever stands behind it. -/
theorem downgradeLockAad_append_inj {serde : SerdeJson} (compact : serde.Compact)
    {suite sender recipient suite' sender' recipient' : String} {rest rest' : Bytes}
    (same : downgradeLockAad serde suite sender recipient none ++ rest =
      downgradeLockAad serde suite' sender' recipient' none ++ rest') :
    suite = suite' ∧ sender = sender' ∧ recipient = recipient' ∧ rest = rest' := by
  rw [downgradeLockAad_eq compact, downgradeLockAad_eq compact] at same
  simp only [braced, List.intercalate_cons_cons, List.intercalate_singleton, List.append_assoc,
    List.append_cancel_left_eq] at same
  obtain ⟨sameSuite, same⟩ := quoted_append_inj faithful_escapeChar same
  simp only [List.append_cancel_left_eq] at same
  obtain ⟨sameRecipient, same⟩ := quoted_append_inj faithful_escapeChar same
  simp only [List.append_cancel_left_eq] at same
  obtain ⟨sameSender, same⟩ := quoted_append_inj faithful_escapeChar same
  simp only [List.append_cancel_left_eq] at same
  exact ⟨sameSuite, sameSender, sameRecipient, same⟩

theorem downgradeLockAad_inj {serde : SerdeJson} (compact : serde.Compact)
    {suite sender recipient suite' sender' recipient' : String}
    (same : downgradeLockAad serde suite sender recipient none =
      downgradeLockAad serde suite' sender' recipient' none) :
    suite = suite' ∧ sender = sender' ∧ recipient = recipient' := by
  have behind := congrArg (· ++ ([] : Bytes)) same
  obtain ⟨sameSuite, sameSender, sameRecipient, -⟩ := downgradeLockAad_append_inj compact behind
  exact ⟨sameSuite, sameSender, sameRecipient⟩

/-- **The downgrade lock separates its suffixes too.** Nothing stands between the object
and the bytes that are appended to it. -/
theorem downgradeLockAad_injective {serde : SerdeJson} (compact : serde.Compact)
    {suite sender recipient suite' sender' recipient' : String} {extra extra' : Option Bytes}
    (same : downgradeLockAad serde suite sender recipient extra =
      downgradeLockAad serde suite' sender' recipient' extra') :
    suite = suite' ∧ sender = sender' ∧ recipient = recipient' ∧
      extra.getD [] = extra'.getD [] := by
  rw [downgradeLockAad_eq_append, downgradeLockAad_eq_append serde suite'] at same
  exact downgradeLockAad_append_inj compact same

/-- No suffix and an empty one are the same bytes. -/
theorem downgradeLockAad_injective_empty :
    downgradeLockAad naturalJson hybridSuite "a" "b" none =
        downgradeLockAad naturalJson hybridSuite "a" "b" (some []) ∧
      hybridSuite = hybridSuite ∧ "a" = "a" ∧ "b" = "b" ∧
        (none : Option Bytes).getD [] = (some []).getD [] := by
  have same : downgradeLockAad naturalJson hybridSuite "a" "b" none =
      downgradeLockAad naturalJson hybridSuite "a" "b" (some []) := rfl
  exact ⟨same, downgradeLockAad_injective (compact_compactJson _ _) same⟩

section

variable {P : Primitives} {serde : SerdeJson} {keys : KeypairDraws} {draws : BoxDraws}
  {plaintext sealed : Bytes} {sender recipient : String}

/-- A sealed blob has room for a ciphertext, a nonce and a tag. -/
theorem not_length_seal_lt (aead : P.AeadCorrect)
    (made : «seal» P serde plaintext (hybridKeypair P keys).publicKey sender recipient draws =
      .ok sealed) : ¬ sealed.length < sealedMinLen := by
  rw [length_sealBox aead (seal_eq_ok made), bodyOffset_eq, sealedMinLen_eq, tagLen]
  omega

/-- **The downgrade lock.** A sealed message opens for the suite and the parties it was
sealed for, and is reported as a downgrade for all others. -/
theorem openSealed_seal (compact : serde.Compact) (kem : P.KemCorrect) (aead : P.AeadCorrect)
    (ideal : P.IdealAead)
    (made : «seal» P serde plaintext (hybridKeypair P keys).publicKey sender recipient draws =
      .ok sealed) (sender' recipient' expectedSuite : String) :
    openSealed P serde sealed (hybridKeypair P keys).privateKey sender' recipient'
        expectedSuite =
      if expectedSuite = hybridSuite ∧ sender' = sender ∧ recipient' = recipient then
        .ok plaintext
      else .error (.downgradeDetected (downgradeMessage P expectedSuite)) := by
  have box := seal_eq_ok made
  simp only [openSealed, if_neg (not_length_seal_lt aead made)]
  by_cases agreed : expectedSuite = hybridSuite ∧ sender' = sender ∧ recipient' = recipient
  · rw [if_pos agreed]
    obtain ⟨rfl, rfl, rfl⟩ := agreed
    rw [openBox_sealBox kem aead keys box, Outcome.mapError_ok]
  · rw [if_neg agreed]
    have other : downgradeLockAad serde expectedSuite sender' recipient' none ≠
        downgradeLockAad serde hybridSuite sender recipient none :=
      fun same => agreed (downgradeLockAad_inj compact same)
    rw [openBox_of_aad_ne kem ideal keys _ box other, Outcome.mapError_error]

end

/-- A sender that imitates the other fields is told apart from them. -/
theorem openSealed_seal_imitation :
    let aad := downgradeLockAad naturalJson hybridSuite "a" "b" none
    let P := primitives (logged [boxEncryption (wrapInfo aad) aad [7] (sampleKeys 1)
      (sampleBoxDraws 2)])
    let keys := hybridKeypair P (sampleKeys 1)
    ∃ sealed, «seal» P naturalJson [7] keys.publicKey "a" "b" (sampleBoxDraws 2) = .ok sealed ∧
      openSealed P naturalJson sealed keys.privateKey "a" "b" hybridSuite = .ok [7] ∧
      openSealed P naturalJson sealed keys.privateKey "a\",\"v\":1\x7d" "b" hybridSuite =
        .error (.downgradeDetected (downgradeMessage P hybridSuite)) := by
  intro aad P keys
  obtain ⟨tag, tagged⟩ := exists_logged (List.mem_singleton_self
    (boxEncryption (wrapInfo aad) aad [7] (sampleKeys 1) (sampleBoxDraws 2)))
  have length : keys.publicKey.length = publicKeyLen := length_publicKey P (sampleKeys 1)
  obtain ⟨sealed, box⟩ : ∃ sealed, sealBox P (wrapInfo aad) aad [7] keys.publicKey
      (sampleBoxDraws 2) = .ok sealed := ⟨_, sealBox_of_tag tagged⟩
  have made : «seal» P naturalJson [7] keys.publicKey "a" "b" (sampleBoxDraws 2) = .ok sealed := by
    rw [«seal», if_neg (not_not.mpr length)]
    exact Outcome.mapError_eq_ok.mpr box
  have opens := openSealed_seal (compact_compactJson _ _) kemCorrect aeadCorrect
    (idealAead_logged (by decide)) made
  refine ⟨sealed, made, (opens "a" "b" hybridSuite).trans (if_pos (by decide)), ?_⟩
  exact (opens "a\",\"v\":1\x7d" "b" hybridSuite).trans (if_neg (by decide))

end Pqdm
end SkPqc

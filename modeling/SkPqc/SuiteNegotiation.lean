import SkPqc.DowngradeLock
import SkPqc.Narrative

/-!
# Negotiated suites and what is said of them

Two sides agree on the hybrid suite when both can, and on the classical one otherwise. The
suite they agreed on is what a recipient expects when it opens a message, and what the
self-report is asked about.

The two go together: a report on the agreed suite claims quantum resistance exactly when a
sealed message opens under it (`negotiated_report`). Forward secrecy is claimed of nothing
but the running ratchet over a quantum-resistant suite, and the claim names the peer and
the epoch that were asked about (`forwardSecrecy_iff`).
-/

set_option autoImplicit false

namespace SkPqc
namespace SelfReport

open Library Library.Json Suites Kem HybridBox Pqdm Idealised

/-! ## What a report was assembled from -/

theorem exists_assembled {request : Request} {report : SurfaceReport}
    (built : request.build = .ok report) : ∃ surface component note,
      report = assembled surface component (usedSuite request.negotiatedSuite) note := by
  cases request with
  | dm negotiatedSuite ratchetLevel epoch peer =>
      obtain ⟨-, rfl⟩ := surfaceFrom_eq_ok.mp built
      exact ⟨_, _, _, rfl⟩
  | conversation negotiatedSuite kind peer =>
      obtain ⟨-, rfl⟩ := surfaceFrom_eq_ok.mp built
      exact ⟨_, _, _, rfl⟩

theorem quantumResistant_hybridSuite : (resolveSuite hybridSuite).quantumResistant = true := by
  have found : getSuite hybridSuite = some hybridKem := by
    rw [getSuite, Registry.getSuite, suites_seeded]
    rfl
  rw [quantumResistant_resolveSuite, status_of_registered found]
  rfl

theorem quantumResistant_classicalSuite :
    (resolveSuite classicalSuite).quantumResistant = false := by
  have found : getSuite classicalSuite = some pgpWrap := by
    rw [getSuite, Registry.getSuite, suites_seeded]
    rfl
  rw [quantumResistant_resolveSuite, status_of_registered found]
  rfl

section Negotiated

variable {localSupportsHybrid recipientHasHybrid : Bool}

theorem usedSuite_negotiateSuite :
    usedSuite (negotiateSuite localSupportsHybrid recipientHasHybrid) =
      negotiateSuite localSupportsHybrid recipientHasHybrid := by
  rw [usedSuite, if_neg]
  rw [negotiateSuite]
  split
  · decide
  · decide

theorem quantumResistant_negotiateSuite :
    (resolveSuite (negotiateSuite localSupportsHybrid recipientHasHybrid)).quantumResistant =
      (localSupportsHybrid && recipientHasHybrid) := by
  rw [negotiateSuite]
  split
  · rename_i both
    rw [quantumResistant_hybridSuite, both.1, both.2]
    rfl
  · rename_i other
    rw [quantumResistant_classicalSuite, eq_comm, ← Bool.not_eq_true, Bool.and_eq_true]
    exact other

theorem negotiateSuite_eq_hybridSuite :
    negotiateSuite localSupportsHybrid recipientHasHybrid = hybridSuite ↔
      (localSupportsHybrid && recipientHasHybrid) = true := by
  rw [negotiateSuite, Bool.and_eq_true]
  split
  · rename_i both
    exact iff_of_true rfl both
  · rename_i other
    exact iff_of_false (by decide) other

end Negotiated

/-! ## The agreed suite -/

section Agreed

variable {P : Primitives} {serde : SerdeJson} {keys : KeypairDraws} {draws : BoxDraws}
  {plaintext sealed : Bytes} {sender recipient : String}

/-- Between its parties, a sealed message opens for the hybrid suite alone. -/
theorem openSealed_suite (compact : serde.Compact) (kem : P.KemCorrect) (aead : P.AeadCorrect)
    (ideal : P.IdealAead)
    (made : «seal» P serde plaintext (hybridKeypair P keys).publicKey sender recipient draws =
      .ok sealed) (expectedSuite : String) :
    openSealed P serde sealed (hybridKeypair P keys).privateKey sender recipient expectedSuite =
      if expectedSuite = hybridSuite then .ok plaintext
      else .error (.downgradeDetected (downgradeMessage P expectedSuite)) := by
  have box := seal_eq_ok made
  simp only [openSealed, if_neg (not_length_seal_lt aead made)]
  split
  · rename_i agreed
    rw [agreed]
    rw [openBox_sealBox kem aead keys box, Outcome.mapError_ok]
  · rename_i other
    have locked : downgradeLockAad serde expectedSuite sender recipient none ≠
        downgradeLockAad serde hybridSuite sender recipient none :=
      fun same => other (downgradeLockAad_inj compact same).1
    rw [openBox_of_aad_ne kem ideal keys _ box locked, Outcome.mapError_error]

/-- **The report on a negotiated suite.** It names the suite that was agreed on, and claims
quantum resistance exactly when both sides could do the hybrid one. Then it tells the hybrid
story and a sealed message opens. Otherwise it tells the classical story, and a sealed
message is reported as a downgrade. -/
theorem negotiated_report (compact : serde.Compact) (kem : P.KemCorrect) (aead : P.AeadCorrect)
    (ideal : P.IdealAead)
    (made : «seal» P serde plaintext (hybridKeypair P keys).publicKey sender recipient draws =
      .ok sealed) {localSupportsHybrid recipientHasHybrid : Bool} {request : Request}
    {report : SurfaceReport}
    (asked : request.negotiatedSuite = negotiateSuite localSupportsHybrid recipientHasHybrid)
    (built : request.build = .ok report) :
    report.activeSuite = negotiateSuite localSupportsHybrid recipientHasHybrid ∧
      report.quantumResistant = (localSupportsHybrid && recipientHasHybrid) ∧
      (HybridNarrative report.note ↔ report.quantumResistant = true) ∧
      (ClassicalNarrative report.note ↔ report.quantumResistant = false) ∧
      openSealed P serde sealed (hybridKeypair P keys).privateKey sender recipient
          report.activeSuite =
        if report.quantumResistant then .ok plaintext
        else .error (.downgradeDetected (downgradeMessage P report.activeSuite)) := by
  have narrates := Narrates.of_build built
  obtain ⟨surface, component, note, shape⟩ := exists_assembled built
  rw [asked, usedSuite_negotiateSuite] at shape
  rw [Request.resolved, asked, usedSuite_negotiateSuite] at narrates
  have suite : report.activeSuite = negotiateSuite localSupportsHybrid recipientHasHybrid := by
    rw [shape]
    rfl
  have resistant : report.quantumResistant = (localSupportsHybrid && recipientHasHybrid) := by
    rw [shape]
    exact quantumResistant_negotiateSuite
  rw [quantumResistant_negotiateSuite, ← resistant] at narrates
  refine ⟨suite, resistant, narrates.hybrid_iff, ?_, ?_⟩
  · cases claimed : report.quantumResistant with
    | false =>
        rw [claimed] at narrates
        exact iff_of_true narrates rfl
    | true =>
        rw [claimed] at narrates
        exact iff_of_false narrates.not_classical Bool.noConfusion
  · rw [openSealed_suite compact kem aead ideal made, suite, resistant]
    simp only [negotiateSuite_eq_hybridSuite]

end Agreed

/-- The recipient has no hybrid prekey. -/
theorem negotiated_report_downgraded :
    let aad := downgradeLockAad naturalJson hybridSuite "a" "b" none
    let P := primitives (logged [boxEncryption (wrapInfo aad) aad [7] (sampleKeys 1)
      (sampleBoxDraws 2)])
    let keys := hybridKeypair P (sampleKeys 1)
    ∃ sealed report,
      «seal» P naturalJson [7] keys.publicKey "a" "b" (sampleBoxDraws 2) = .ok sealed ∧
      conversationSurfaceFor (negotiateSuite true false) .dm "a" = .ok report ∧
      report.activeSuite = classicalSuite ∧
      openSealed P naturalJson sealed keys.privateKey "a" "b" report.activeSuite =
        .error (.downgradeDetected (downgradeMessage P classicalSuite)) := by
  intro aad P keys
  obtain ⟨tag, tagged⟩ := exists_logged (List.mem_singleton_self
    (boxEncryption (wrapInfo aad) aad [7] (sampleKeys 1) (sampleBoxDraws 2)))
  have length : keys.publicKey.length = publicKeyLen := length_publicKey P (sampleKeys 1)
  obtain ⟨sealed, box⟩ : ∃ sealed, sealBox P (wrapInfo aad) aad [7] keys.publicKey
      (sampleBoxDraws 2) = .ok sealed := ⟨_, sealBox_of_tag tagged⟩
  have made : «seal» P naturalJson [7] keys.publicKey "a" "b" (sampleBoxDraws 2) = .ok sealed := by
    rw [«seal», if_neg (not_not.mpr length)]
    exact Outcome.mapError_eq_ok.mpr box
  obtain ⟨report, built⟩ := @exists_build (.conversation (negotiateSuite true false) .dm "a")
    (by decide) (by decide)
  obtain ⟨suite, resistant, -, -, opened⟩ := negotiated_report (compact_compactJson _ _)
    kemCorrect aeadCorrect (idealAead_logged (by decide)) made rfl built
  refine ⟨sealed, report, made, built, suite, opened.trans ?_⟩
  rw [resistant, suite]
  rfl

/-! ## Forward secrecy -/

/-- The note on the running ratchet in front of the epoch, and behind it. -/
theorem toList_epochDmNote (w : String) (epoch : UInt64) :
    (epochDmNote w epoch).toList =
      "DM".toList ++ w.toList ++
        (" on the running epoch-ratchet, FS + PCS, hybrid" ++
          " X25519+ML-KEM-768 rekey per epoch (epoch").toList ++
        ' ' :: (u64ToString epoch).toList ++
        ("). Each epoch" ++
          " re-derives the chain from a fresh hybrid-KEM secret, so a compromised" ++
          " key neither decrypts past epochs (forward secrecy) nor future ones" ++
          " once healed (post-compromise security). Secure while EITHER the" ++
          " X25519 or the ML-KEM-768 (FIPS 203) leg holds.").toList := by
  have gap : " X25519+ML-KEM-768 rekey per epoch (epoch ".toList =
      " X25519+ML-KEM-768 rekey per epoch (epoch".toList ++ [' '] := by decide +kernel
  simp only [epochDmNote, String.toList_append, List.append_assoc, gap, List.cons_append,
    List.nil_append]

/-- The note on the running ratchet tells the conversation and the epoch. -/
theorem epochDmNote_inj {w w' : String} {epoch epoch' : UInt64}
    (same : epochDmNote w epoch = epochDmNote w' epoch') : w = w' ∧ epoch = epoch' := by
  have chars := congrArg String.toList same
  rw [toList_epochDmNote, toList_epochDmNote] at chars
  obtain ⟨front, epochs⟩ := append_u64ToString_inj (by decide) (List.append_cancel_right chars)
  have named := List.append_cancel_left (List.append_cancel_right front)
  exact ⟨String.toList_inj.mp named, epochs⟩

theorem who_injective : Function.Injective who := by
  intro peer peer' same
  unfold who at same
  split at same
  · rename_i nobody
    split at same
    · rename_i nobody'
      rw [nobody, nobody']
    · exact absurd (congrArg String.toList same) (by simp)
  · split at same
    · exact absurd (congrArg String.toList same) (by simp)
    · have chars := congrArg String.toList same
      rw [String.toList_append, String.toList_append] at chars
      exact String.toList_inj.mp (List.append_cancel_left chars)

theorem ending_epochDmNote (w : String) (epoch : UInt64) :
    ending (epochDmNote w epoch) = ['.', 's'] :=
  ending_append_literal _ (by decide +kernel) rfl

/-- No other note on a direct message ends as the one on the running ratchet. -/
theorem oneshotDmNote_ne (w w' : String) (epoch : UInt64) :
    oneshotDmNote w ≠ epochDmNote w' epoch := by
  have last : ending (oneshotDmNote w) = ['.', 'S'] :=
    ending_append_literal _ (by decide +kernel) rfl
  intro same
  rw [same, ending_epochDmNote] at last
  exact absurd last (by decide)

/-- Nor does a note on a conversation. -/
theorem hybridConversationNote_ne (upper w w' : String) (epoch : UInt64) :
    hybridConversationNote upper w ≠ epochDmNote w' epoch := by
  have last : ending (hybridConversationNote upper w) = ['.', 't'] :=
    ending_append_literal _ (by decide +kernel) rfl
  intro same
  rw [same, ending_epochDmNote] at last
  exact absurd last (by decide)

theorem conversationNote_ne (suiteId surface peer w : String) (epoch : UInt64) :
    conversationNote suiteId surface peer ≠ epochDmNote w epoch := by
  rw [conversationNote]
  split
  · exact hybridConversationNote_ne _ _ _ _
  · intro same
    have classical := ClassicalNarrative.conversation
      (String.ofList (surface.toList.map Char.toUpper)) (who peer)
    rw [same] at classical
    exact (HybridNarrative.epoch w epoch).not_classical classical

theorem dmNote_eq_iff {suiteId peer peer' : String} {level : RatchetLevel}
    {epoch epoch' : UInt64} :
    dmNote suiteId level epoch peer = epochDmNote (who peer') epoch' ↔
      (resolveSuite suiteId).quantumResistant = true ∧ level = .l3Epoch ∧ epoch = epoch' ∧
        peer = peer' := by
  rw [dmNote]
  cases (resolveSuite suiteId).quantumResistant with
  | false =>
      refine iff_of_false ?_ fun claimed => Bool.noConfusion claimed.1
      intro same
      have classical := ClassicalNarrative.dm (who peer) suiteId level.asStr
      rw [if_pos Bool.false_ne_true] at same
      rw [same] at classical
      exact (HybridNarrative.epoch (who peer') epoch').not_classical classical
  | true =>
      rw [if_neg (not_not.mpr rfl), and_iff_right rfl]
      cases level with
      | l2Oneshot =>
          refine iff_of_false ?_ fun claimed => RatchetLevel.noConfusion claimed.1
          exact oneshotDmNote_ne (who peer) (who peer') epoch'
      | l3Epoch =>
          rw [if_pos rfl, and_iff_right rfl]
          constructor
          · intro same
            obtain ⟨named, epochs⟩ := epochDmNote_inj same
            exact ⟨epochs, who_injective named⟩
          · rintro ⟨rfl, rfl⟩
            rfl

/-- **Who is told of forward secrecy.** A report claims it for a peer and an epoch exactly
when the ratchet level was asked about for them, and the suite is quantum-resistant. -/
theorem forwardSecrecy_iff {request : Request} {report : SurfaceReport}
    (built : request.build = .ok report) (peer : String) (epoch : UInt64) :
    report.note = epochDmNote (who peer) epoch ↔
      report.quantumResistant = true ∧
        ∃ negotiatedSuite, request = .dm negotiatedSuite .l3Epoch epoch peer := by
  cases request with
  | dm negotiatedSuite ratchetLevel epoch' peer' =>
      obtain ⟨-, rfl⟩ := surfaceFrom_eq_ok.mp built
      refine dmNote_eq_iff.trans (and_congr_right fun _ => ?_)
      constructor
      · rintro ⟨rfl, rfl, rfl⟩
        exact ⟨negotiatedSuite, rfl⟩
      · rintro ⟨_, same⟩
        cases same
        exact ⟨rfl, rfl, rfl⟩
  | conversation negotiatedSuite kind peer' =>
      obtain ⟨-, rfl⟩ := surfaceFrom_eq_ok.mp built
      apply iff_of_false
      · exact conversationNote_ne _ _ _ _ _
      · rintro ⟨-, _, same⟩
        cases same

/-- The level is asked about by its name on the wire, in the right case. -/
theorem forwardSecrecy_iff_wire :
    ∃ report report',
      dmRatchetSurfaceFor hybridKemSuite (.fromWire "L3-epoch") 5 "alice" = .ok report ∧
      dmRatchetSurfaceFor hybridKemSuite (.fromWire "l3-epoch") 5 "alice" = .ok report' ∧
      report.note = epochDmNote (who "alice") 5 ∧ report'.note ≠ epochDmNote (who "alice") 5 := by
  obtain ⟨report, built⟩ := @exists_build (.dm hybridKemSuite (.fromWire "L3-epoch") 5 "alice")
    (by decide) (by decide)
  obtain ⟨report', built'⟩ := @exists_build (.dm hybridKemSuite (.fromWire "l3-epoch") 5 "alice")
    (by decide) (by decide)
  refine ⟨report, report', built, built', ?_, ?_⟩
  · refine (forwardSecrecy_iff built "alice" 5).mpr ⟨?_, hybridKemSuite, rfl⟩
    obtain ⟨_, _, _, rfl⟩ := exists_assembled built
    exact quantumResistant_hybridSuite
  · intro same
    obtain ⟨-, _, request⟩ := (forwardSecrecy_iff built' "alice" 5).mp same
    cases request

end SelfReport
end SkPqc

import SkPqc.SelfReport

/-!
# When the self-report is honest

The fixed text of every note is clean, and the peer and the suite that are spliced in
stand between frames: spaces or parentheses, which no forbidden word has. So a note is
honest exactly when what was spliced in is, and the assertion panics exactly when it is
not (`surfaces_honest_iff`).
-/

set_option autoImplicit false

namespace SkPqc
namespace SelfReport

open Library Suites

/-! ## The screen -/

/-- The forbidden words, letter by letter. -/
def spelled : List (List Char) := [
  ['q', 'u', 'a', 'n', 't', 'u', 'm', '-', 'p', 'r', 'o', 'o', 'f'],
  ['q', 'u', 'a', 'n', 't', 'u', 'm', '-', 's', 'a', 'f', 'e'],
  ['u', 'n', 'b', 'r', 'e', 'a', 'k', 'a', 'b', 'l', 'e']]

theorem map_toList_forbiddenWords : forbiddenWords.map String.toList = spelled := by
  simp [forbiddenWords, spelled]

theorem isHonestNote_iff {note : String} :
    isHonestNote note = true ↔ Clean spelled note.toList := by
  rw [← map_toList_forbiddenWords]
  simp [isHonestNote, Clean]

/-- The peer is spliced in behind a space. -/
theorem clean_who (first : List Char) (peer : String) :
    Clean spelled (first ++ (who peer).toList) ↔
      Clean spelled first ∧ Clean spelled peer.toList := by
  unfold who
  split
  · rename_i nobody
    have empty : Clean spelled "".toList := clean_nil (by decide)
    rw [nobody, String.toList_empty, List.append_nil]
    exact (and_iff_left empty).symm
  · rw [String.toList_append, ← List.append_assoc, clean_framed_literal (by decide)]

/-! ## The notes -/

theorem clean_dm : Clean spelled "DM".toList := clean_literal (by decide)

theorem clean_level (level : RatchetLevel) : Clean spelled level.asStr.toList := by
  cases level with
  | l2Oneshot => exact clean_literal (by decide)
  | l3Epoch => exact clean_literal (by decide)

theorem clean_u64ToString (number : UInt64) : Clean spelled (u64ToString number).toList :=
  clean_repr (by decide) (by decide) number.toNat

/-- The note on a classical key wrap is honest when the peer and the suite are. -/
theorem isHonest_classicalDmNote (peer suiteId : String) (level : RatchetLevel) :
    isHonestNote (classicalDmNote (who peer) suiteId level.asStr) = true ↔
      isHonestNote peer = true ∧ isHonestNote suiteId = true := by
  simp only [isHonestNote_iff, classicalDmNote, String.toList_append]
  rw [clean_append_literal (by decide +kernel), clean_append_literal (by decide +kernel),
    clean_append_literal (by decide +kernel), clean_framed_literal (by decide +kernel),
    clean_append_literal (by decide), clean_framed_literal (by decide), clean_who]
  exact (and_iff_left (clean_level level)).trans (and_congr_left fun _ => and_iff_right clean_dm)

theorem isHonest_epochDmNote (peer : String) (epoch : UInt64) :
    isHonestNote (epochDmNote (who peer) epoch) = true ↔ isHonestNote peer = true := by
  simp only [isHonestNote_iff, epochDmNote, String.toList_append]
  rw [clean_append_literal (by decide +kernel), clean_append_literal (by decide +kernel),
    clean_append_literal (by decide +kernel), clean_append_literal (by decide +kernel),
    clean_append_literal (by decide), clean_framed_literal (by decide),
    clean_append_literal (by decide), clean_who]
  exact (and_iff_left (clean_u64ToString epoch)).trans (and_iff_right clean_dm)

theorem isHonest_oneshotDmNote (peer : String) :
    isHonestNote (oneshotDmNote (who peer)) = true ↔ isHonestNote peer = true := by
  simp only [isHonestNote_iff, oneshotDmNote, String.toList_append]
  rw [clean_append_literal (by decide), clean_append_literal (by decide +kernel),
    clean_append_literal (by decide +kernel), clean_append_literal (by decide +kernel),
    clean_append_literal (by decide +kernel), clean_append_literal (by decide +kernel), clean_who]
  exact and_iff_right clean_dm

theorem isHonest_conversationNote (suiteId peer : String) (kind : ConversationKind) :
    isHonestNote (conversationNote suiteId kind.place.1 peer) = true ↔
      isHonestNote peer = true := by
  have start : Clean spelled ((String.ofList (kind.place.1.toList.map Char.toUpper)).toList ++
      " conversation".toList) := by
    rw [String.toList_ofList]
    cases kind with
    | dm => decide +kernel
    | envelope => decide +kernel
  unfold conversationNote
  dsimp only
  split
  · simp only [isHonestNote_iff, hybridConversationNote, String.toList_append]
    rw [clean_append_literal (by decide +kernel), clean_append_literal (by decide +kernel),
      clean_append_literal (by decide +kernel), clean_append_literal (by decide), clean_who]
    exact and_iff_right start
  · simp only [isHonestNote_iff, classicalConversationNote, String.toList_append]
    rw [clean_append_literal (by decide +kernel), clean_append_literal (by decide +kernel),
      clean_append_literal (by decide +kernel), clean_append_literal (by decide), clean_who]
    exact and_iff_right start

/-! ## What is spliced in -/

/-- What the registry says is clean. -/
theorem clean_registered : ∀ suite ∈ [hybridKem, aesGcm, pgpWrap],
    Clean spelled suite.suiteId.toList ∧
      (∀ primitive ∈ suite.primitives, Clean spelled primitive.toList) ∧
      ∀ reference ∈ suite.fipsRefs, Clean spelled reference.toList := by
  decide +kernel

theorem isHonest_of_getSuite {suiteId : String} {suite : CryptoSuite}
    (found : getSuite suiteId = some suite) : isHonestNote suiteId = true := by
  obtain ⟨registered, rfl⟩ := mem_of_getSuite found
  rw [isHonestNote_iff]
  exact (clean_registered suite registered).1

theorem isHonest_of_quantumResistant {suiteId : String}
    (resistant : (resolveSuite suiteId).quantumResistant = true) : isHonestNote suiteId = true := by
  unfold resolveSuite at resistant
  split at resistant
  · rename_i suite found
    exact isHonest_of_getSuite found
  · cases resistant

/-- The default suite is as honest as no suite. -/
theorem isHonest_usedSuite (negotiatedSuite : String) :
    isHonestNote (usedSuite negotiatedSuite) = true ↔ isHonestNote negotiatedSuite = true := by
  unfold usedSuite
  split
  · rename_i empty
    rw [empty]
    exact iff_of_true (by decide +kernel) (by decide)
  · rfl

/-- The note on a direct message splices in the peer, and an unregistered or classical
suite. -/
theorem isHonest_dmNote (suiteId : String) (level : RatchetLevel) (epoch : UInt64)
    (peer : String) :
    isHonestNote (dmNote suiteId level epoch peer) = true ↔
      isHonestNote peer = true ∧ isHonestNote suiteId = true := by
  unfold dmNote
  dsimp only
  split
  · exact isHonest_classicalDmNote peer suiteId level
  · rename_i resistant
    have registered := isHonest_of_quantumResistant (not_not.mp resistant)
    split
    · rw [isHonest_epochDmNote]
      exact (and_iff_left registered).symm
    · rw [isHonest_oneshotDmNote]
      exact (and_iff_left registered).symm

/-! ## The builders -/

/-- No suite is both classical and quantum-resistant. -/
theorem not_resistant_of_classical {suiteId : String}
    (classical : (resolveSuite suiteId).status.asStr = "classical") :
    (resolveSuite suiteId).quantumResistant = false := by
  unfold resolveSuite at classical ⊢
  split
  · rename_i suite found
    rw [found] at classical
    cases status : suite.status with
    | classical => simp [CryptoSuite.isQuantumResistant, status, SuiteStatus.isQuantumResistant]
    | hybridPq => simp [status, SuiteStatus.asStr] at classical
    | pq => simp [status, SuiteStatus.asStr] at classical
    | symmetric => simp [status, SuiteStatus.asStr] at classical
  · rfl

/-- The assertion fails on the note, or not at all. -/
theorem assertHonest_assembled (surface component suiteId note : String) :
    (assembled surface component suiteId note).assertHonest =
      if isHonestNote note = true then .ok () else .panic := by
  have consistent : ¬ ((assembled surface component suiteId note).status = "classical" ∧
      (assembled surface component suiteId note).quantumResistant = true) := by
    rintro ⟨classical, resistant⟩
    have vulnerable := not_resistant_of_classical classical
    rw [show (resolveSuite suiteId).quantumResistant = true from resistant] at vulnerable
    cases vulnerable
  rw [SurfaceReport.assertHonest, if_neg consistent]
  change (if ¬ isHonestNote note = true then _ else _) = _
  rw [ite_not]

theorem surfaceFrom_eq (surface component suiteId note : String) :
    surfaceFrom surface component suiteId note =
      if isHonestNote note = true then .ok (assembled surface component suiteId note)
      else .panic := by
  rw [surfaceFrom, assertHonest_assembled]
  split
  · rfl
  · rfl

theorem surfaceFrom_eq_ok {surface component suiteId note : String} {report : SurfaceReport} :
    surfaceFrom surface component suiteId note = .ok report ↔
      isHonestNote note = true ∧ report = assembled surface component suiteId note := by
  rw [surfaceFrom_eq]
  constructor
  · intro made
    split at made
    · rename_i own
      cases made
      exact ⟨own, rfl⟩
    · cases made
  · rintro ⟨own, rfl⟩
    rw [if_pos own]

theorem exists_surfaceFrom_iff {surface component suiteId note : String} :
    (∃ report, surfaceFrom surface component suiteId note = .ok report ∧
      isHonestNote report.note = true) ↔ isHonestNote note = true := by
  constructor
  · rintro ⟨report, made, -⟩
    exact (surfaceFrom_eq_ok.mp made).1
  · intro own
    exact ⟨_, surfaceFrom_eq_ok.mpr ⟨own, rfl⟩, own⟩

/-- **When the builders are total and honest.** They return an honest report exactly when
the peer is honest and, where the suite is spliced in, the suite. -/
theorem surfaces_honest_iff (negotiatedSuite : String) (ratchetLevel : RatchetLevel)
    (kind : ConversationKind) (epoch : UInt64) (peer : String) :
    ((∃ report, dmRatchetSurfaceFor negotiatedSuite ratchetLevel epoch peer = .ok report ∧
        isHonestNote report.note = true) ↔
      isHonestNote peer = true ∧ isHonestNote negotiatedSuite = true) ∧
    ((∃ report, conversationSurfaceFor negotiatedSuite kind peer = .ok report ∧
        isHonestNote report.note = true) ↔ isHonestNote peer = true) := by
  constructor
  · rw [dmRatchetSurfaceFor, exists_surfaceFrom_iff, isHonest_dmNote, isHonest_usedSuite]
  · rw [conversationSurfaceFor, exists_surfaceFrom_iff, isHonest_conversationNote]

/-- **The builders panic** on a peer that calls itself quantum-safe. -/
theorem surfaces_panic_quantum_safe :
    dmRatchetSurfaceFor hybridKemSuite .l3Epoch 5 "quantum-safe" = .panic ∧
      conversationSurfaceFor hybridKemSuite .dm "quantum-safe" = .panic := by
  have dishonest : ¬ isHonestNote "quantum-safe" = true := by decide
  constructor
  · rw [dmRatchetSurfaceFor, surfaceFrom_eq, if_neg]
    rw [isHonest_dmNote]
    exact fun both => dishonest both.1
  · unfold conversationSurfaceFor
    dsimp only
    rw [surfaceFrom_eq, if_neg]
    rw [isHonest_conversationNote]
    exact dishonest

end SelfReport
end SkPqc

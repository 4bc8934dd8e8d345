import SkPqc.Honesty

/-!
# The narratives of the self-report

A note tells one of two stories: that a hybrid KEM was used, or that the
conversation is exposed to harvesting. The last words of a note tell which
(`HybridNarrative.not_classical`).

The builders tell the hybrid story of every quantum-resistant suite
(`Narrates.of_build`). The bulk cipher is one, and no hybrid KEM. Of every other
suite, registered or not, the story is the one its status in the registry calls
for (`narrative_honest_iff`).
-/

set_option autoImplicit false

namespace SkPqc
namespace SelfReport

open Library Suites

/-- The note says that a hybrid X25519+ML-KEM-768 exchange protects the
conversation. -/
inductive HybridNarrative : String → Prop
  | epoch (w : String) (epoch : UInt64) : HybridNarrative (epochDmNote w epoch)
  | oneshot (w : String) : HybridNarrative (oneshotDmNote w)
  | conversation (upper w : String) : HybridNarrative (hybridConversationNote upper w)

/-- The note says that the key wrap is classical and the conversation exposed to
harvesting. -/
inductive ClassicalNarrative : String → Prop
  | dm (w suiteId level : String) : ClassicalNarrative (classicalDmNote w suiteId level)
  | conversation (upper w : String) : ClassicalNarrative (classicalConversationNote upper w)

/-! ## No note tells both stories -/

/-- The last two characters of a text, backwards. -/
def ending (text : String) : List Char := text.toList.reverse.take 2

/-- A text ends as the literal that it ends in. -/
theorem ending_append_literal {chars last : List Char} (front : String)
    (same : chars.reverse.take 2 = last) (two : last.length = 2) :
    ending (front ++ String.ofList chars) = last := by
  have long : 2 ≤ chars.reverse.length := by
    rw [← same, List.length_take] at two
    omega
  rw [ending, String.toList_append, String.toList_ofList, List.reverse_append,
    List.take_append_of_le_length long, same]

theorem HybridNarrative.ending_mem {note : String} (hybrid : HybridNarrative note) :
    ending note ∈ [['.', 's'], ['.', 'S'], ['.', 't']] := by
  cases hybrid with
  | epoch w epoch =>
      have last : ending (epochDmNote w epoch) = ['.', 's'] :=
        ending_append_literal _ (by decide +kernel) rfl
      simp [last]
  | oneshot w =>
      have last : ending (oneshotDmNote w) = ['.', 'S'] :=
        ending_append_literal _ (by decide +kernel) rfl
      simp [last]
  | conversation upper w =>
      have last : ending (hybridConversationNote upper w) = ['.', 't'] :=
        ending_append_literal _ (by decide +kernel) rfl
      simp [last]

theorem ClassicalNarrative.ending_mem {note : String} (classical : ClassicalNarrative note) :
    ending note ∈ [['.', 'p'], ['.', 'y']] := by
  cases classical with
  | dm w suiteId level =>
      have last : ending (classicalDmNote w suiteId level) = ['.', 'p'] :=
        ending_append_literal _ (by decide +kernel) rfl
      simp [last]
  | conversation upper w =>
      have last : ending (classicalConversationNote upper w) = ['.', 'y'] :=
        ending_append_literal _ (by decide +kernel) rfl
      simp [last]

/-- A note that tells the hybrid story does not tell the classical one. -/
theorem HybridNarrative.not_classical {note : String} (hybrid : HybridNarrative note) :
    ¬ ClassicalNarrative note := by
  intro classical
  have first := hybrid.ending_mem
  have second := classical.ending_mem
  simp only [List.mem_cons, List.not_mem_nil, or_false] at first second
  rcases first with last | last | last <;> simp [last] at second

/-! ## Which story is told -/

/-- A note that tells one of the stories: the hybrid one of a quantum-resistant suite,
and the classical one of another. -/
def Narrates (resistant : Bool) (note : String) : Prop :=
  if resistant then HybridNarrative note else ClassicalNarrative note

theorem Narrates.hybrid_iff {resistant : Bool} {note : String}
    (narrates : Narrates resistant note) : HybridNarrative note ↔ resistant = true := by
  cases resistant with
  | true => exact iff_of_true narrates rfl
  | false =>
      apply iff_of_false
      · intro hybrid
        exact hybrid.not_classical narrates
      · exact Bool.false_ne_true

theorem narrates_dmNote (suiteId : String) (level : RatchetLevel) (epoch : UInt64)
    (peer : String) :
    Narrates (resolveSuite suiteId).quantumResistant (dmNote suiteId level epoch peer) := by
  unfold Narrates dmNote
  dsimp only
  cases (resolveSuite suiteId).quantumResistant with
  | false => exact .dm (who peer) suiteId level.asStr
  | true =>
      cases level with
      | l3Epoch => exact .epoch (who peer) epoch
      | l2Oneshot => exact .oneshot (who peer)

theorem narrates_conversationNote (suiteId surface peer : String) :
    Narrates (resolveSuite suiteId).quantumResistant (conversationNote suiteId surface peer) := by
  unfold Narrates conversationNote
  dsimp only
  cases (resolveSuite suiteId).quantumResistant with
  | false => exact .conversation _ (who peer)
  | true => exact .conversation _ (who peer)

/-- What the registry says of the suite that a request reports. -/
def Request.resolved (request : Request) : Resolved :=
  resolveSuite (usedSuite request.negotiatedSuite)

/-- The peer that a request names. -/
def Request.peer : Request → String
  | .dm _ _ _ peer => peer
  | .conversation _ _ peer => peer

/-- **Which story a builder tells** depends on the quantum resistance of the suite
alone. -/
theorem Narrates.of_build {request : Request} {report : SurfaceReport}
    (built : request.build = .ok report) :
    Narrates request.resolved.quantumResistant report.note := by
  cases request with
  | dm negotiatedSuite ratchetLevel epoch peer =>
      obtain ⟨-, rfl⟩ := surfaceFrom_eq_ok.mp built
      exact narrates_dmNote (usedSuite negotiatedSuite) ratchetLevel epoch peer
  | conversation negotiatedSuite kind peer =>
      obtain ⟨-, rfl⟩ := surfaceFrom_eq_ok.mp built
      exact narrates_conversationNote (usedSuite negotiatedSuite) kind.place.1 peer

/-! ## What the registry says -/

/-- A resolved suite is as quantum-resistant as its status. -/
theorem quantumResistant_resolveSuite (suiteId : String) :
    (resolveSuite suiteId).quantumResistant =
      (resolveSuite suiteId).status.isQuantumResistant := by
  unfold resolveSuite
  split
  · rfl
  · rfl

/-- An unregistered suite is classical. -/
theorem status_of_unknown {suiteId : String} (unknown : getSuite suiteId = none) :
    (resolveSuite suiteId).status = .classical := by
  rw [resolveSuite, unknown]

theorem status_of_registered {suiteId : String} {suite : CryptoSuite}
    (found : getSuite suiteId = some suite) : (resolveSuite suiteId).status = suite.status := by
  rw [resolveSuite, found]

/-- No suite of the registry is purely post-quantum. -/
theorem status_ne_pq (suiteId : String) : (resolveSuite suiteId).status ≠ .pq := by
  cases found : getSuite suiteId with
  | none =>
      rw [status_of_unknown found]
      decide
  | some suite =>
      rw [status_of_registered found]
      obtain ⟨registered, -⟩ := mem_of_getSuite found
      simp only [List.mem_cons, List.not_mem_nil, or_false] at registered
      rcases registered with rfl | rfl | rfl <;> decide

/-- The bulk cipher is the one symmetric suite. -/
theorem status_eq_symmetric {suiteId : String} :
    (resolveSuite suiteId).status = .symmetric ↔ suiteId = "aes256-gcm-v1" := by
  constructor
  · intro symmetric
    cases found : getSuite suiteId with
    | none =>
        rw [status_of_unknown found] at symmetric
        cases symmetric
    | some suite =>
        rw [status_of_registered found] at symmetric
        obtain ⟨registered, named⟩ := mem_of_getSuite found
        simp only [List.mem_cons, List.not_mem_nil, or_false] at registered
        rcases registered with rfl | rfl | rfl
        · cases symmetric
        · exact named.symm
        · cases symmetric
  · rintro rfl
    have found : getSuite "aes256-gcm-v1" = some aesGcm := by
      rw [getSuite, Registry.getSuite, suites_seeded]
      decide
    rw [status_of_registered found]
    rfl

/-- The default suite is not the bulk cipher. -/
theorem usedSuite_eq_aesGcm {negotiatedSuite : String} :
    usedSuite negotiatedSuite = "aes256-gcm-v1" ↔ negotiatedSuite = "aes256-gcm-v1" := by
  unfold usedSuite
  split
  · rename_i empty
    rw [empty]
    decide
  · rfl

/-- **When the story is the one that the registry calls for.** The hybrid story is told of
exactly the hybrid suites, and the classical one of the classical and the unknown ones,
unless the suite is the bulk cipher. -/
theorem narrative_honest_iff {request : Request} {report : SurfaceReport}
    (built : request.build = .ok report) :
    ((HybridNarrative report.note ↔ request.resolved.status = .hybridPq) ∧
        (request.resolved.status = .classical ∨
            getSuite (usedSuite request.negotiatedSuite) = none →
          ClassicalNarrative report.note)) ↔
      request.negotiatedSuite ≠ "aes256-gcm-v1" := by
  have narrates := Narrates.of_build built
  have symmetric : request.resolved.status = .symmetric ↔
      request.negotiatedSuite = "aes256-gcm-v1" :=
    status_eq_symmetric.trans usedSuite_eq_aesGcm
  have resistant : request.resolved.quantumResistant =
      request.resolved.status.isQuantumResistant := quantumResistant_resolveSuite _
  have unknown : getSuite (usedSuite request.negotiatedSuite) = none →
      request.resolved.status = .classical := status_of_unknown
  have mixed : request.resolved.status ≠ .pq := status_ne_pq _
  rw [narrates.hybrid_iff, resistant, ne_eq, ← symmetric]
  rw [Narrates, resistant] at narrates
  cases status : request.resolved.status with
  | classical =>
      rw [status] at narrates
      refine iff_of_true ⟨?_, fun _ => narrates⟩ ?_
      · decide
      · decide
  | hybridPq =>
      refine iff_of_true ⟨?_, ?_⟩ ?_
      · decide
      · rintro (classical | absent)
        · cases classical
        · rw [unknown absent] at status
          cases status
      · decide
  | pq => exact absurd status mixed
  | symmetric =>
      apply iff_of_false
      · rintro ⟨hybrid, -⟩
        exact absurd (hybrid.mp rfl) (by decide)
      · exact fun different => different rfl

/-- A request about an honest peer and an honest suite is answered. -/
theorem exists_build {request : Request}
    (suite : isHonestNote request.negotiatedSuite = true)
    (peer : isHonestNote request.peer = true) : ∃ report, request.build = .ok report := by
  cases request with
  | dm negotiatedSuite ratchetLevel epoch peer' =>
      refine ⟨_, surfaceFrom_eq_ok.mpr ⟨?_, rfl⟩⟩
      exact (isHonest_dmNote _ _ _ _).mpr ⟨peer, (isHonest_usedSuite _).mpr suite⟩
  | conversation negotiatedSuite kind peer' =>
      refine ⟨_, surfaceFrom_eq_ok.mpr ⟨?_, rfl⟩⟩
      exact (isHonest_conversationNote _ _ kind).mpr peer

/-- A direct message under the hybrid KEM. -/
theorem narrative_honest_hybrid :
    let request := Request.dm hybridKemSuite .l3Epoch 5 "alice"
    ∃ report, request.build = .ok report ∧
      (HybridNarrative report.note ↔ request.resolved.status = .hybridPq) ∧
        (request.resolved.status = .classical ∨
            getSuite (usedSuite request.negotiatedSuite) = none →
          ClassicalNarrative report.note) := by
  intro request
  obtain ⟨report, built⟩ := @exists_build request (by decide) (by decide)
  exact ⟨report, built, (narrative_honest_iff built).mpr (by decide)⟩

/-- The hybrid story is told of the bulk cipher, at either kind of request. -/
theorem narrative_of_aesGcm :
    ∃ report report',
      dmRatchetSurfaceFor "aes256-gcm-v1" .l3Epoch 5 "alice" = .ok report ∧
        conversationSurfaceFor "aes256-gcm-v1" .dm "alice" = .ok report' ∧
        HybridNarrative report.note ∧ HybridNarrative report'.note ∧
        (resolveSuite (usedSuite "aes256-gcm-v1")).status = .symmetric := by
  have symmetric : (resolveSuite (usedSuite "aes256-gcm-v1")).status = .symmetric :=
    status_eq_symmetric.mpr (usedSuite_eq_aesGcm.mpr rfl)
  have resistant : (resolveSuite (usedSuite "aes256-gcm-v1")).quantumResistant = true := by
    rw [quantumResistant_resolveSuite, symmetric]
    rfl
  obtain ⟨report, built⟩ := @exists_build (.dm "aes256-gcm-v1" .l3Epoch 5 "alice")
    (by decide) (by decide)
  obtain ⟨report', built'⟩ := @exists_build (.conversation "aes256-gcm-v1" .dm "alice")
    (by decide) (by decide)
  refine ⟨report, report', built, built', ?_, ?_, symmetric⟩
  · exact (Narrates.of_build built).hybrid_iff.mpr resistant
  · exact (Narrates.of_build built').hybrid_iff.mpr resistant

end SelfReport
end SkPqc

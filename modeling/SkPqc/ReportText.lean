import Mathlib.Data.List.Forall2
import SkPqc.Honesty

/-!
# What a report says in all its fields

Only the notes are screened, and a report has other strings: the names of its surfaces,
what the registry says of their suites, and the suites as they were negotiated. All of
them are fixed but the last. A peer chooses what it negotiates, so the forbidden words
stay out of the text of a report exactly when they stay out of the negotiated suites
(`toJson_honest_iff`).
-/

set_option autoImplicit false

namespace SkPqc
namespace SelfReport

open Library Suites Json

theorem plain_spelled : Plain spelled where
  inhabited := by decide
  letters := by decide
  escapes := by decide +kernel
  yes := by decide
  no := by decide

/-! ## The fields of a surface -/

/-- The text of a document is honest when its strings and keys are. -/
theorem isHonest_pretty (doc : Doc) :
    isHonestNote (String.ofList (pretty 0 doc)) = true ↔
      ∀ text ∈ texts doc, Clean spelled text.toList := by
  rw [isHonestNote_iff, String.toList_ofList]
  exact plain_spelled.clean_pretty 0 doc

/-- Every field of a surface is screened. -/
theorem clean_serialize_surface (report : SurfaceReport) :
    (∀ text ∈ texts report.serialize, Clean spelled text.toList) ↔
      Clean spelled report.surface.toList ∧ Clean spelled report.component.toList ∧
      Clean spelled report.activeSuite.toList ∧ Clean spelled report.status.toList ∧
      (∀ primitive ∈ report.primitives, Clean spelled primitive.toList) ∧
      (∀ reference ∈ report.fipsRefs, Clean spelled reference.toList) ∧
      Clean spelled report.note.toList := by
  have keys : ∀ key ∈ ["surface", "component", "active_suite", "status", "quantum_resistant",
      "primitives", "fips_refs", "note"], Clean spelled key.toList := by
    decide +kernel
  rw [SurfaceReport.serialize, texts, forall_mem_textsOfFields]
  refine (and_iff_right keys).trans ?_
  simp [texts, forall_mem_textsOfItems]

/-- Everything that the registry adds to a surface is clean. -/
theorem clean_resolveSuite (suiteId : String) :
    Clean spelled (resolveSuite suiteId).status.asStr.toList ∧
      (∀ primitive ∈ (resolveSuite suiteId).primitives, Clean spelled primitive.toList) ∧
      ∀ reference ∈ (resolveSuite suiteId).fipsRefs, Clean spelled reference.toList := by
  have statuses : ∀ status : SuiteStatus, Clean spelled status.asStr.toList := by
    intro status
    cases status with
    | classical => exact clean_literal (by decide)
    | hybridPq => exact clean_literal (by decide)
    | pq => exact clean_literal (by decide)
    | symmetric => exact clean_literal (by decide)
  refine ⟨statuses _, ?_⟩
  unfold resolveSuite
  split
  · rename_i suite found
    exact (clean_registered suite (mem_of_getSuite found).1).2
  · exact ⟨by decide +kernel, List.forall_mem_nil _⟩

/-- What a request is reported as. -/
def Request.place : Request → String × String
  | .dm .. => ("dm", "skchat (DmRatchet)")
  | .conversation _ kind _ => kind.place

theorem clean_place (request : Request) :
    Clean spelled request.place.1.toList ∧ Clean spelled request.place.2.toList := by
  cases request with
  | dm negotiatedSuite ratchetLevel epoch peer =>
      exact ⟨clean_literal (by decide), clean_literal (by decide)⟩
  | conversation negotiatedSuite kind peer =>
      cases kind with
      | dm => exact ⟨clean_literal (by decide), clean_literal (by decide)⟩
      | envelope => exact ⟨clean_literal (by decide), clean_literal (by decide)⟩

/-- A builder that returns has assembled a surface around an honest note. -/
theorem exists_note_of_build {request : Request} {surface : SurfaceReport}
    (built : request.build = .ok surface) :
    ∃ note, isHonestNote note = true ∧ surface = assembled request.place.1 request.place.2
      (usedSuite request.negotiatedSuite) note := by
  cases request with
  | dm negotiatedSuite ratchetLevel epoch peer => exact ⟨_, surfaceFrom_eq_ok.mp built⟩
  | conversation negotiatedSuite kind peer => exact ⟨_, surfaceFrom_eq_ok.mp built⟩

/-- Only the suite can spoil a surface that a builder returned. -/
theorem clean_of_build {request : Request} {surface : SurfaceReport}
    (built : request.build = .ok surface) :
    (∀ text ∈ texts surface.serialize, Clean spelled text.toList) ↔
      isHonestNote request.negotiatedSuite = true := by
  obtain ⟨note, honest, rfl⟩ := exists_note_of_build built
  obtain ⟨place, component⟩ := clean_place request
  obtain ⟨status, primitives, references⟩ := clean_resolveSuite (usedSuite request.negotiatedSuite)
  rw [clean_serialize_surface, ← isHonest_usedSuite, isHonestNote_iff]
  rw [isHonestNote_iff] at honest
  constructor
  · rintro ⟨-, -, suite, -⟩
    exact suite
  · intro suite
    exact ⟨place, component, suite, status, primitives, references, honest⟩

/-! ## The whole report -/

/-- Surfaces that the builders returned are not asserted in vain. -/
theorem assertAll_of_build {requests : List Request} {surfaces : List SurfaceReport}
    (built : List.Forall₂ (fun request surface => request.build = .ok surface) requests surfaces) :
    assertAll surfaces = .ok () := by
  induction built with
  | nil => rfl
  | cons own _ ih =>
      obtain ⟨note, honest, rfl⟩ := exists_note_of_build own
      rw [assertAll, assertHonest_assembled, if_pos honest]
      exact ih

/-- The claims are clean. -/
theorem clean_honestClaim (surfaces : List SurfaceReport) :
    Clean spelled (honestClaim surfaces).toList := by
  unfold honestClaim
  dsimp only
  split
  · apply clean_literal
    decide +kernel
  split
  · simp only [String.toList_append]
    rw [clean_append_literal (by decide +kernel), clean_append_literal (by decide +kernel),
      clean_append_literal (by decide +kernel)]
    apply clean_literal
    decide +kernel
  · apply clean_literal
    decide +kernel

/-- The report adds clean texts to its surfaces. -/
theorem clean_serialize_report {report : Report} (title : Clean spelled report.report.toList)
    (claim : Clean spelled report.honestClaim.toList) :
    (∀ text ∈ texts report.serialize, Clean spelled text.toList) ↔
      ∀ surface ∈ report.surfaces, ∀ text ∈ texts surface.serialize, Clean spelled text.toList := by
  have keys : ∀ key ∈ ["report", "surfaces", "summary", "honest_claim"],
      Clean spelled key.toList := by
    decide +kernel
  have counts : ∀ key ∈ ["total_surfaces", "quantum_resistant", "classical", "symmetric"],
      Clean spelled key.toList := by
    decide +kernel
  have summary : ∀ text ∈ texts report.summary.serialize, Clean spelled text.toList := by
    rw [Summary.serialize, texts, forall_mem_textsOfFields]
    refine ⟨counts, ?_⟩
    simp [texts]
  rw [Report.serialize, texts, forall_mem_textsOfFields]
  refine (and_iff_right keys).trans ?_
  simp only [List.map_cons, List.map_nil, List.forall_mem_cons, texts, forall_mem_textsOfItems,
    List.not_mem_nil, false_implies, implies_true, and_true]
  constructor
  · rintro ⟨-, inSurfaces, -⟩
    exact inSurfaces
  · intro inSurfaces
    exact ⟨title, inSurfaces, summary, claim⟩

/-- **Every report is written**, and its text is as honest as the suites are. -/
theorem exists_toJson {toStringPretty : Doc → Except String String}
    (writes : WritesPretty toStringPretty) {requests : List Request} {surfaces : List SurfaceReport}
    (built : List.Forall₂ (fun request surface => request.build = .ok surface) requests surfaces) :
    ∃ report text, fromSurfaces surfaces = .ok report ∧
      report.toJson toStringPretty = .ok text ∧
      (isHonestNote text = true ↔
        ∀ request ∈ requests, isHonestNote request.negotiatedSuite = true) := by
  have title : Clean spelled "pqc-self-report".toList := clean_literal (by decide)
  have each : (∀ surface ∈ surfaces, ∀ text ∈ texts surface.serialize,
      Clean spelled text.toList) ↔
      ∀ request ∈ requests, isHonestNote request.negotiatedSuite = true := by
    induction built with
    | nil => exact iff_of_true (List.forall_mem_nil _) (List.forall_mem_nil _)
    | cons own _ ih => rw [List.forall_mem_cons, List.forall_mem_cons, clean_of_build own, ih]
  have written : ∀ report : Report, report.toJson toStringPretty =
      .ok (String.ofList (pretty 0 report.serialize)) := by
    intro report
    rw [Report.toJson, writes]
  rw [fromSurfaces, assertAll_of_build built]
  refine ⟨_, _, rfl, written _, ?_⟩
  rw [isHonest_pretty, clean_serialize_report]
  · exact each
  · exact title
  · exact clean_honestClaim surfaces

/-- **When the text of a report is honest**: exactly when no negotiated suite of its
surfaces has a forbidden word. -/
theorem toJson_honest_iff {toStringPretty : Doc → Except String String}
    (writes : WritesPretty toStringPretty) {requests : List Request} {surfaces : List SurfaceReport}
    (built : List.Forall₂ (fun request surface => request.build = .ok surface) requests surfaces) :
    (∃ report text, fromSurfaces surfaces = .ok report ∧
        report.toJson toStringPretty = .ok text ∧ isHonestNote text = true) ↔
      ∀ request ∈ requests, isHonestNote request.negotiatedSuite = true := by
  obtain ⟨report, text, made, written, honest⟩ := exists_toJson writes built
  rw [← honest]
  constructor
  · rintro ⟨report', text', made', written', honest'⟩
    cases made.symm.trans made'
    cases written.symm.trans written'
    exact honest'
  · intro honest'
    exact ⟨report, text, made, written, honest'⟩

/-- A conversation with an honest peer is reported. -/
theorem build_conversation (negotiatedSuite : String) (kind : ConversationKind) {peer : String}
    (honest : isHonestNote peer = true) :
    (Request.conversation negotiatedSuite kind peer).build =
      .ok (assembled kind.place.1 kind.place.2 (usedSuite negotiatedSuite)
        (conversationNote (usedSuite negotiatedSuite) kind.place.1 peer)) := by
  apply surfaceFrom_eq_ok.mpr
  exact ⟨(isHonest_conversationNote _ peer kind).mpr honest, rfl⟩

/-- So is a direct message with an honest peer, on an honest suite. -/
theorem build_dm (ratchetLevel : RatchetLevel) (epoch : UInt64) {negotiatedSuite peer : String}
    (honestSuite : isHonestNote negotiatedSuite = true) (honest : isHonestNote peer = true) :
    (Request.dm negotiatedSuite ratchetLevel epoch peer).build =
      .ok (assembled "dm" "skchat (DmRatchet)" (usedSuite negotiatedSuite)
        (dmNote (usedSuite negotiatedSuite) ratchetLevel epoch peer)) := by
  apply surfaceFrom_eq_ok.mpr
  exact ⟨(isHonest_dmNote _ _ _ _).mpr ⟨honest, (isHonest_usedSuite _).mpr honestSuite⟩, rfl⟩

/-- One surface of every status: hybrid, classical by default, and symmetric. -/
def mixedRequests : List Request :=
  [.conversation hybridKemSuite .envelope "alice", .dm "" .l3Epoch 5 "bob",
    .conversation "aes256-gcm-v1" .dm ""]

theorem exists_build_mixed : ∃ surfaces,
    List.Forall₂ (fun request surface => Request.build request = .ok surface) mixedRequests
      surfaces ∧ surfaces.map SurfaceReport.status = ["hybrid-pq", "classical", "symmetric"] := by
  have alice : isHonestNote "alice" = true := by decide
  have bob : isHonestNote "bob" = true := by decide
  have nobody : isHonestNote "" = true := by decide
  exact ⟨_, .cons (build_conversation hybridKemSuite .envelope alice)
    (.cons (build_dm .l3Epoch 5 nobody bob)
      (.cons (build_conversation "aes256-gcm-v1" .dm nobody) .nil)), rfl⟩

theorem toJson_honest_mixed : ∃ surfaces report text,
    List.Forall₂ (fun request surface => Request.build request = .ok surface) mixedRequests
      surfaces ∧ surfaces.map SurfaceReport.status = ["hybrid-pq", "classical", "symmetric"] ∧
      fromSurfaces surfaces = .ok report ∧ report.toJson prettyJson = .ok text ∧
      isHonestNote text = true := by
  obtain ⟨surfaces, built, statuses⟩ := exists_build_mixed
  obtain ⟨report, text, made, written, honest⟩ :=
    (toJson_honest_iff writesPretty_prettyJson built).mpr (by decide)
  exact ⟨surfaces, report, text, built, statuses, made, written, honest⟩

/-- **The report repeats a forbidden word** that a peer negotiated as its suite. -/
theorem toJson_says_unbreakable : ∃ surface report text,
    conversationSurfaceFor "unbreakable" .dm "" = .ok surface ∧
      fromSurfaces [surface] = .ok report ∧ report.toJson prettyJson = .ok text ∧
      isHonestNote text = false := by
  have nobody : isHonestNote "" = true := by decide
  have built := build_conversation "unbreakable" .dm nobody
  have forbidden : isHonestNote "unbreakable" = false := by decide
  obtain ⟨report, text, made, written, honest⟩ :=
    exists_toJson writesPretty_prettyJson (.cons built .nil)
  refine ⟨_, report, text, built, made, written, ?_⟩
  rw [← Bool.not_eq_true, honest, List.forall_mem_singleton]
  exact Bool.eq_false_iff.mp forbidden

end SelfReport
end SkPqc

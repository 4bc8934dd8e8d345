import SkPqc.Narrative
import SkPqc.ReportText

/-!
# The claim over all surfaces

A report counts its surfaces by the flag of quantum resistance, and again by the string
of the status. Of surfaces that the builders returned the flag says that the status is
not classical (`resistant_iff_of_build`), so the two counts make up the total.

Symmetric surfaces count as quantum-resistant. Where there are any surfaces, then, the
claim speaks of quantum resistance alone, and the claim that only symmetric surfaces are
present is made where no surface is (`honestClaim_eq`).
-/

set_option autoImplicit false

namespace SkPqc
namespace SelfReport

open Suites

/-- What a report claims of its surfaces. -/
inductive Claim where
  | allResistant
  | notEndToEnd
  | onlySymmetric
  deriving DecidableEq, Repr

/-- The words of a claim. -/
def Claim.text : Claim → String
  | .allResistant => "All owned surfaces are quantum-resistant."
  | .notEndToEnd =>
    "NOT quantum-resistant end-to-end. Asymmetric surfaces reported here are" ++
    " CLASSICAL (Shor-breakable) unless a hybrid X25519+ML-KEM-768 (FIPS 203) suite" ++
    " was negotiated. Symmetric/at-rest layers are quantum-acceptable. Do not claim" ++
    " hybrid/post-quantum protection where a surface reads classical."
  | .onlySymmetric => "Only symmetric surfaces present; no asymmetric PQ migration done."

/-- What a claim means. -/
def Claim.Holds (surfaces : List SurfaceReport) : Claim → Prop
  | .allResistant => surfaces ≠ [] ∧ ∀ surface ∈ surfaces, surface.status ≠ "classical"
  | .notEndToEnd => ∃ surface ∈ surfaces, surface.status = "classical"
  | .onlySymmetric => surfaces ≠ [] ∧ ∀ surface ∈ surfaces, surface.status = "symmetric"

/-- The report counts every surface, and claims what is true of them. -/
structure Report.Truthful (report : Report) (surfaces : List SurfaceReport) : Prop where
  counted : report.summary.quantumResistant + report.summary.classical =
    report.summary.totalSurfaces
  allResistant : report.honestClaim = Claim.allResistant.text ↔ Claim.allResistant.Holds surfaces
  notEndToEnd : report.honestClaim = Claim.notEndToEnd.text ↔ Claim.notEndToEnd.Holds surfaces
  onlySymmetric : report.honestClaim = Claim.onlySymmetric.text →
    Claim.onlySymmetric.Holds surfaces

/-- A text begins as its first part does. -/
theorem head?_append {front : String} {first : Char} (starts : front.toList.head? = some first)
    {rest : String} : (front ++ rest).toList.head? = some first := by
  rw [String.toList_append, List.head?_append, starts]
  rfl

/-- No two claims have the same words: the first letters differ. -/
theorem Claim.text_injective : Function.Injective Claim.text := by
  have first : ∀ claim : Claim, claim.text.toList.head? =
      match claim with
      | .allResistant => some 'A'
      | .notEndToEnd => some 'N'
      | .onlySymmetric => some 'O' := by
    intro claim
    cases claim with
    | allResistant => rfl
    | notEndToEnd => exact head?_append (head?_append (head?_append rfl))
    | onlySymmetric => rfl
  intro left right same
  have heads := (first left).symm.trans ((congrArg (·.toList.head?) same).trans (first right))
  cases left <;> cases right <;> first | rfl | cases heads

/-- The claim that surfaces call forth: one of symmetric surfaces where there are none. -/
def claimOver (surfaces : List SurfaceReport) : Claim :=
  if surfaces = [] then .onlySymmetric
  else if ∃ surface ∈ surfaces, surface.status = "classical" then .notEndToEnd
  else .allResistant

section ClaimOver

variable {surfaces : List SurfaceReport}

theorem claimOver_eq_onlySymmetric : claimOver surfaces = .onlySymmetric ↔ surfaces = [] := by
  unfold claimOver
  split
  · rename_i empty
    exact iff_of_true rfl empty
  split
  · rename_i some classical
    exact iff_of_false Claim.noConfusion some
  · rename_i some none
    exact iff_of_false Claim.noConfusion some

theorem claimOver_eq_notEndToEnd :
    claimOver surfaces = .notEndToEnd ↔ Claim.notEndToEnd.Holds surfaces := by
  unfold claimOver
  split
  · rename_i empty
    subst empty
    exact iff_of_false Claim.noConfusion fun ⟨surface, listed, _⟩ => List.not_mem_nil listed
  split
  · rename_i some classical
    exact iff_of_true rfl classical
  · rename_i some none
    exact iff_of_false Claim.noConfusion none

theorem claimOver_eq_allResistant :
    claimOver surfaces = .allResistant ↔ Claim.allResistant.Holds surfaces := by
  unfold claimOver
  split
  · rename_i empty
    exact iff_of_false Claim.noConfusion fun holds => holds.1 empty
  split
  · rename_i some classical
    obtain ⟨surface, listed, status⟩ := classical
    exact iff_of_false Claim.noConfusion fun holds => holds.2 surface listed status
  · rename_i some none
    exact iff_of_true rfl ⟨some, fun surface listed status => none ⟨surface, listed, status⟩⟩

end ClaimOver

/-! ## The flag and the status -/

/-- A status is classical exactly when it is not quantum-resistant. -/
theorem isQuantumResistant_iff (status : SuiteStatus) :
    status.isQuantumResistant = true ↔ status.asStr ≠ "classical" := by
  cases status with
  | classical => decide
  | hybridPq => decide
  | pq => decide
  | symmetric => decide

/-- A builder marks as quantum-resistant what it does not call classical. -/
theorem resistant_iff_of_build {request : Request} {surface : SurfaceReport}
    (built : request.build = .ok surface) :
    surface.quantumResistant = true ↔ surface.status ≠ "classical" := by
  obtain ⟨note, -, rfl⟩ := exists_note_of_build built
  change (resolveSuite _).quantumResistant = true ↔ (resolveSuite _).status.asStr ≠ "classical"
  rw [quantumResistant_resolveSuite]
  exact isQuantumResistant_iff _

section Surfaces

variable {requests : List Request} {surfaces : List SurfaceReport}
  (built : List.Forall₂ (fun request surface => request.build = .ok surface) requests surfaces)

include built

theorem forall_resistant_iff : ∀ surface ∈ surfaces,
    (surface.quantumResistant = true ↔ surface.status ≠ "classical") := by
  induction built with
  | nil => exact List.forall_mem_nil _
  | cons own _ ih => exact List.forall_mem_cons.mpr ⟨resistant_iff_of_build own, ih⟩

/-- Every surface is counted as quantum-resistant or as classical, and none as both. -/
theorem length_resistant_add_classical :
    (surfaces.filter fun surface => surface.quantumResistant).length +
      (surfaces.filter fun surface => surface.status = "classical").length = surfaces.length := by
  have others : (surfaces.filter fun surface => surface.status = "classical") =
      surfaces.filter fun surface => !surface.quantumResistant := by
    apply List.filter_congr
    intro surface listed
    have graded := forall_resistant_iff built surface listed
    rw [Bool.eq_iff_iff, decide_eq_true_eq, Bool.not_eq_true', ← Bool.not_eq_true, graded, not_not]
  rw [others]
  exact (List.length_eq_length_filter_add _).symm

/-- All surfaces are quantum-resistant when none is classical. -/
theorem length_resistant_eq_iff :
    (surfaces.filter fun surface => surface.quantumResistant).length = surfaces.length ↔
      ∀ surface ∈ surfaces, surface.status ≠ "classical" := by
  rw [List.length_filter_eq_length_iff]
  exact forall₂_congr (forall_resistant_iff built)

/-- **What a report claims** of surfaces that the builders returned. -/
theorem honestClaim_eq : honestClaim surfaces = (claimOver surfaces).text := by
  have allCounted : surfaces.length > 0 ∧
      (surfaces.filter fun surface => surface.quantumResistant).length = surfaces.length ↔
        Claim.allResistant.Holds surfaces :=
    and_congr List.length_pos_iff (length_resistant_eq_iff built)
  unfold honestClaim claimOver
  dsimp only
  by_cases empty : surfaces = []
  · subst empty
    rfl
  · rw [if_neg empty]
    by_cases classical : ∃ surface ∈ surfaces, surface.status = "classical"
    · have any : (surfaces.any fun surface => surface.status = "classical") = true := by
        simpa only [List.any_eq_true, decide_eq_true_eq] using classical
      rw [if_pos classical, if_neg, if_pos any]
      · rfl
      · intro counted
        obtain ⟨surface, listed, status⟩ := classical
        exact (allCounted.mp counted).2 surface listed status
    · rw [if_neg classical, if_pos]
      · rfl
      · apply allCounted.mpr
        exact ⟨empty, fun surface listed status => classical ⟨surface, listed, status⟩⟩

theorem honestClaim_eq_text_iff (claim : Claim) :
    honestClaim surfaces = claim.text ↔ claimOver surfaces = claim := by
  rw [honestClaim_eq built, Claim.text_injective.eq_iff]

end Surfaces

/-- **When a report is truthful**: exactly when it has surfaces. -/
theorem truthful_iff {requests : List Request} {surfaces : List SurfaceReport}
    (built : List.Forall₂ (fun request surface => request.build = .ok surface) requests surfaces) :
    (∃ report, fromSurfaces surfaces = .ok report ∧ report.Truthful surfaces) ↔
      surfaces ≠ [] := by
  have claims := honestClaim_eq_text_iff built
  constructor
  · rintro ⟨report, made, truthful⟩ empty
    rw [fromSurfaces, assertAll_of_build built] at made
    cases made
    exact (truthful.onlySymmetric ((claims .onlySymmetric).mpr
      (claimOver_eq_onlySymmetric.mpr empty))).1 empty
  · intro some
    rw [fromSurfaces, assertAll_of_build built]
    refine ⟨_, rfl, length_resistant_add_classical built, ?_, ?_, ?_⟩
    · exact (claims .allResistant).trans claimOver_eq_allResistant
    · exact (claims .notEndToEnd).trans claimOver_eq_notEndToEnd
    · intro claimed
      exact absurd (claimOver_eq_onlySymmetric.mp ((claims .onlySymmetric).mp claimed)) some

/-- A hybrid, a classical and a symmetric surface: the report says that not everything is
quantum-resistant. -/
theorem truthful_mixed : ∃ surfaces report,
    List.Forall₂ (fun request surface => Request.build request = .ok surface) mixedRequests
      surfaces ∧ surfaces.map SurfaceReport.status = ["hybrid-pq", "classical", "symmetric"] ∧
      fromSurfaces surfaces = .ok report ∧ report.Truthful surfaces ∧
      report.honestClaim = Claim.notEndToEnd.text := by
  obtain ⟨surfaces, built, statuses⟩ := exists_build_mixed
  have some : surfaces ≠ [] := by
    rintro rfl
    cases statuses
  obtain ⟨report, made, truthful⟩ := (truthful_iff built).mpr some
  have classical : "classical" ∈ surfaces.map SurfaceReport.status := by
    rw [statuses]
    decide
  obtain ⟨surface, listed, status⟩ := List.mem_map.mp classical
  exact ⟨surfaces, report, built, statuses, made, truthful,
    truthful.notEndToEnd.mpr ⟨surface, listed, status⟩⟩

/-- **Of no surfaces at all the report says that only symmetric ones are present.** -/
theorem not_truthful_nil : ∃ report, fromSurfaces [] = .ok report ∧
    report.honestClaim = Claim.onlySymmetric.text ∧ ¬ report.Truthful [] := by
  refine ⟨_, rfl, rfl, ?_⟩
  intro truthful
  exact (truthful.onlySymmetric rfl).1 rfl

end SelfReport
end SkPqc

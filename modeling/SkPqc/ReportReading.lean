import SkPqc.HonestClaim
import SkPqc.Library.JsonPrettyRead

/-!
# A report read back

The report is written for a person and for a program. A program parses the text and reads
the fields by their names: the surfaces in their order, the counts and the claim. What it
reads is the report that was written (`reportOf_toJson`), so the text determines the
report, and a consumer that checks the claim against the surfaces checks the claim that
was made.
-/

set_option autoImplicit false

namespace SkPqc
namespace SelfReport

open Library Library.Json Suites

/-! ## A consumer -/

/-- The strings of an array. -/
def stringsOf (value : Value) : Option (List String) := do
  let items ← value.asArray
  items.mapM Value.asStr

/-- The count that a value is. -/
def countOf (value : Value) : Option Nat := do
  let count ← value.asU64
  return count.toNat

/-- The surface that a value describes. -/
def surfaceOf (value : Value) : Option SurfaceReport := do
  let surface ← value.get "surface" >>= Value.asStr
  let component ← value.get "component" >>= Value.asStr
  let activeSuite ← value.get "active_suite" >>= Value.asStr
  let status ← value.get "status" >>= Value.asStr
  let quantumResistant ← value.get "quantum_resistant" >>= Value.asBool
  let primitives ← value.get "primitives" >>= stringsOf
  let fipsRefs ← value.get "fips_refs" >>= stringsOf
  let note ← value.get "note" >>= Value.asStr
  return { surface, component, activeSuite, status, quantumResistant, primitives, fipsRefs, note }

/-- The counts that a value describes. -/
def summaryOf (value : Value) : Option Summary := do
  let totalSurfaces ← value.get "total_surfaces" >>= countOf
  let quantumResistant ← value.get "quantum_resistant" >>= countOf
  let classical ← value.get "classical" >>= countOf
  let symmetric ← value.get "symmetric" >>= countOf
  return { totalSurfaces, quantumResistant, classical, symmetric }

/-- The report that a value describes. -/
def reportOf (value : Value) : Option Report := do
  let report ← value.get "report" >>= Value.asStr
  let items ← value.get "surfaces" >>= Value.asArray
  let surfaces ← items.mapM surfaceOf
  let summary ← value.get "summary" >>= summaryOf
  let honestClaim ← value.get "honest_claim" >>= Value.asStr
  return { report, surfaces, summary, honestClaim }

/-! ## The parts of a report -/

/-- Items that are read back one by one are read back together. -/
theorem mapM_of_forall {α : Type} {read : Value → Option α} {write : α → Value} {items : List α}
    (each : ∀ item ∈ items, read (write item) = some item) :
    (items.map write).mapM read = some items := by
  induction items with
  | nil => rfl
  | cons item rest ih =>
      obtain ⟨own, others⟩ := List.forall_mem_cons.mp each
      rw [List.map_cons, List.mapM_cons, own, ih others]
      rfl

theorem stringsOf_sequence (strings : List String) :
    stringsOf (valueOf (.sequence (strings.map Doc.string))) = some strings := by
  have written : valuesOf (strings.map Doc.string) = strings.map Value.string := by
    rw [valuesOf_eq_map, List.map_map]
    rfl
  rw [valueOf, written]
  exact mapM_of_forall fun _ _ => rfl

theorem countOf_number {count : Nat} (small : count < 2 ^ 64) :
    countOf (valueOf (.number count)) = some count :=
  congrArg some (UInt64.toNat_ofNat_of_lt' small)

/-- **A surface is read back from its fields.** -/
theorem surfaceOf_serialize (surface : SurfaceReport) :
    surfaceOf (valueOf surface.serialize) = some surface := by
  have distinct : ((fieldsOf surface.serialize).map Prod.fst).Nodup := by
    change (["surface", "component", "active_suite", "status", "quantum_resistant", "primitives",
      "fips_refs", "note"] : List String).Nodup
    decide
  have text : ∀ key string, (key, Doc.string string) ∈ fieldsOf surface.serialize →
      ((valueOf surface.serialize).get key >>= Value.asStr) = some string :=
    fun key string found => read_field distinct key _ found rfl
  have list : ∀ key strings,
      (key, Doc.sequence (strings.map Doc.string)) ∈ fieldsOf surface.serialize →
        ((valueOf surface.serialize).get key >>= stringsOf) = some strings :=
    fun key strings found => read_field distinct key _ found (stringsOf_sequence strings)
  have flag : ((valueOf surface.serialize).get "quantum_resistant" >>= Value.asBool) =
      some surface.quantumResistant :=
    read_field distinct "quantum_resistant" (.bool surface.quantumResistant)
      (by simp [fieldsOf, SurfaceReport.serialize]) rfl
  rw [surfaceOf, text "surface" surface.surface, text "component" surface.component,
    text "active_suite" surface.activeSuite, text "status" surface.status, flag,
    list "primitives" surface.primitives, list "fips_refs" surface.fipsRefs,
    text "note" surface.note]
  · rfl
  all_goals simp [fieldsOf, SurfaceReport.serialize]

/-- The counts of a report fit a word. -/
structure Summary.Counted (summary : Summary) : Prop where
  total : summary.totalSurfaces < 2 ^ 64
  resistant : summary.quantumResistant < 2 ^ 64
  classical : summary.classical < 2 ^ 64
  symmetric : summary.symmetric < 2 ^ 64

theorem summaryOf_serialize {summary : Summary} (counted : summary.Counted) :
    summaryOf (valueOf summary.serialize) = some summary := by
  have distinct : ((fieldsOf summary.serialize).map Prod.fst).Nodup := by
    change (["total_surfaces", "quantum_resistant", "classical", "symmetric"] : List String).Nodup
    decide
  have count : ∀ key number, number < 2 ^ 64 →
      (key, Doc.number number) ∈ fieldsOf summary.serialize →
        ((valueOf summary.serialize).get key >>= countOf) = some number :=
    fun key number small found => read_field distinct key _ found (countOf_number small)
  rw [summaryOf, count "total_surfaces" _ counted.total,
    count "quantum_resistant" _ counted.resistant, count "classical" _ counted.classical,
    count "symmetric" _ counted.symmetric]
  · rfl
  all_goals simp [fieldsOf, Summary.serialize]

/-- **A report is read back from its fields.** -/
theorem reportOf_serialize {report : Report} (counted : report.summary.Counted) :
    reportOf (valueOf report.serialize) = some report := by
  have distinct : ((fieldsOf report.serialize).map Prod.fst).Nodup := by
    change (["report", "surfaces", "summary", "honest_claim"] : List String).Nodup
    decide
  have text : ∀ key string, (key, Doc.string string) ∈ fieldsOf report.serialize →
      ((valueOf report.serialize).get key >>= Value.asStr) = some string :=
    fun key string found => read_field distinct key _ found rfl
  have surfaces : ((valueOf report.serialize).get "surfaces" >>= Value.asArray) =
      some ((report.surfaces.map SurfaceReport.serialize).map valueOf) := by
    refine read_field distinct "surfaces"
      (.sequence (report.surfaces.map SurfaceReport.serialize))
      (by simp [fieldsOf, Report.serialize]) ?_
    rw [valueOf, valuesOf_eq_map]
    rfl
  have each : ((report.surfaces.map SurfaceReport.serialize).map valueOf).mapM surfaceOf =
      some report.surfaces := by
    rw [List.map_map]
    exact mapM_of_forall fun surface _ => surfaceOf_serialize surface
  have counts : ((valueOf report.serialize).get "summary" >>= summaryOf) = some report.summary :=
    read_field distinct "summary" report.summary.serialize
      (by simp [fieldsOf, Report.serialize]) (summaryOf_serialize counted)
  rw [reportOf, text "report" report.report, surfaces]
  · change (List.mapM surfaceOf _ >>= _) = _
    rw [each, counts, text "honest_claim" report.honestClaim]
    · rfl
    · simp [fieldsOf, Report.serialize]
  · simp [fieldsOf, Report.serialize]

/-! ## The whole text -/

theorem within_serialize_surface (surface : SurfaceReport) (room : Nat) :
    Within (room + 2) surface.serialize := by
  have strings : ∀ strings : List String,
      Within (room + 1) (.sequence (strings.map Doc.string)) := by
    intro strings
    refine .sequence fun item found => ?_
    obtain ⟨text, -, rfl⟩ := List.mem_map.mp found
    exact .string _ text
  refine .struct fun field found => ?_
  simp only [List.mem_cons, List.not_mem_nil, or_false] at found
  rcases found with rfl | rfl | rfl | rfl | rfl | rfl | rfl | rfl
  · exact .string _ _
  · exact .string _ _
  · exact .string _ _
  · exact .string _ _
  · exact .bool _ _
  · exact strings _
  · exact strings _
  · exact .string _ _

theorem within_serialize_report {report : Report} (counted : report.summary.Counted) (room : Nat) :
    Within (room + 4) report.serialize := by
  have summary : Within (room + 3) report.summary.serialize := by
    refine .struct fun field found => ?_
    simp only [List.mem_cons, List.not_mem_nil, or_false] at found
    rcases found with rfl | rfl | rfl | rfl
    · exact .number _ counted.total
    · exact .number _ counted.resistant
    · exact .number _ counted.classical
    · exact .number _ counted.symmetric
  refine .struct fun field found => ?_
  simp only [List.mem_cons, List.not_mem_nil, or_false] at found
  rcases found with rfl | rfl | rfl | rfl
  · exact .string _ _
  · refine .sequence fun item listed => ?_
    obtain ⟨surface, -, rfl⟩ := List.mem_map.mp listed
    exact within_serialize_surface surface room
  · exact summary
  · exact .string _ _

section Texts

variable {toStringPretty : Doc → Except String String} {surfaces : List SurfaceReport}
  {report : Report}

/-- A report counts some of its surfaces at most. -/
theorem counted_of_fromSurfaces (short : surfaces.length < 2 ^ 64)
    (made : fromSurfaces surfaces = .ok report) : report.surfaces = surfaces ∧
      report.summary.Counted := by
  obtain ⟨-, -, made⟩ := Outcome.bind_eq_ok.mp made
  cases made
  have fewer : ∀ kept : SurfaceReport → Bool, (surfaces.filter kept).length < 2 ^ 64 :=
    fun kept => (List.length_filter_le kept surfaces).trans_lt short
  exact ⟨rfl, short, fewer _, fewer _, fewer _⟩

/-- A written report is parsed, and read back. -/
theorem exists_read (writes : WritesPretty toStringPretty) (decimalOf : Bytes → Option Number)
    (room : Nat) (counted : report.summary.Counted) :
    ∃ text value, report.toJson toStringPretty = .ok text ∧
      parse decimalOf (room + 4) (utf8 text) = some value ∧ reportOf value = some report := by
  refine ⟨_, _, ?_, parse_pretty decimalOf (within_serialize_report counted room) 0,
    reportOf_serialize counted⟩
  rw [Report.toJson, writes]

end Texts

/-- **The text of a report is the report.** A consumer that parses it reads back the
surfaces, the counts and the claim, and no other surfaces are reported by that text. -/
theorem reportOf_toJson {toStringPretty : Doc → Except String String}
    (writes : WritesPretty toStringPretty) (decimalOf : Bytes → Option Number) (room : Nat)
    {surfaces : List SurfaceReport} (short : surfaces.length < 2 ^ 64) {report : Report}
    (made : fromSurfaces surfaces = .ok report) :
    ∃ text value, report.toJson toStringPretty = .ok text ∧
      parse decimalOf (room + 4) (utf8 text) = some value ∧ reportOf value = some report ∧
      ∀ surfaces' report', surfaces'.length < 2 ^ 64 → fromSurfaces surfaces' = .ok report' →
        report'.toJson toStringPretty = .ok text → surfaces' = surfaces := by
  obtain ⟨own, counted⟩ := counted_of_fromSurfaces short made
  obtain ⟨text, value, written, parsed, read⟩ := exists_read writes decimalOf room counted
  refine ⟨text, value, written, parsed, read, ?_⟩
  intro surfaces' report' short' made' written'
  obtain ⟨own', counted'⟩ := counted_of_fromSurfaces short' made'
  obtain ⟨text', value', again, parsed', read'⟩ := exists_read writes decimalOf room counted'
  cases written'.symm.trans again
  cases parsed.symm.trans parsed'
  cases read.symm.trans read'
  exact own'.symm.trans own

/-- The report on one conversation. -/
theorem reportOf_toJson_alice : ∃ surface report,
    (Request.conversation hybridKemSuite .envelope "alice").build = .ok surface ∧
      fromSurfaces [surface] = .ok report ∧ ∃ text value,
        report.toJson prettyJson = .ok text ∧
          parse (fun _ => none) 4 (utf8 text) = some value ∧ reportOf value = some report := by
  have peer : isHonestNote "alice" = true := by decide
  obtain ⟨surface, built⟩ : ∃ surface,
      (Request.conversation hybridKemSuite .envelope "alice").build = .ok surface :=
    ⟨_, build_conversation hybridKemSuite .envelope peer⟩
  obtain ⟨report, made⟩ : ∃ report, fromSurfaces [surface] = .ok report := by
    rw [fromSurfaces, assertAll_of_build (.cons built .nil)]
    exact ⟨_, rfl⟩
  have short : [surface].length < 2 ^ 64 := by simp
  obtain ⟨text, value, written, parsed, read, -⟩ :=
    reportOf_toJson writesPretty_prettyJson (fun _ => none) 0 short made
  exact ⟨surface, report, built, made, text, value, written, parsed, read⟩

end SelfReport
end SkPqc

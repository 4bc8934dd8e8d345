import SkPqc.Listing
import SkPqc.Library.Json

/-!
# Questions to the registry

Whether a suite is quantum-resistant is asked in three ways: of the suite itself, of the
registry under an identifier, and of what was serialised of a listing. An identifier that
nobody registered is classical.

The serialised suites hold the strings of the wire. They tell a suite apart from every
other (`toDict_injective`), so the listing determines the registry
(`dicts_eq_iff_getSuite`), and a reader of the listing answers every question as the
registry does (`queries_of_dicts`).
-/

set_option autoImplicit false

namespace SkPqc
namespace Suites

open Library.Json

/-! ## The strings of the wire -/

/-- The string of a kind on the wire. -/
def SuiteKind.asStr : SuiteKind → String
  | .kem => "kem"
  | .sig => "sig"
  | .aead => "aead"

/-- The status that a string spells. An unknown string is classical. -/
def SuiteStatus.fromWire (s : String) : SuiteStatus :=
  match s with
  | "hybrid-pq" => .hybridPq
  | "pq" => .pq
  | "symmetric" => .symmetric
  | _ => .classical

/-- A status is read back from its string. -/
theorem SuiteStatus.fromWire_asStr (status : SuiteStatus) :
    SuiteStatus.fromWire status.asStr = status := by
  cases status with
  | classical => rfl
  | hybridPq => rfl
  | pq => rfl
  | symmetric => rfl

theorem SuiteStatus.asStr_injective : Function.Injective SuiteStatus.asStr :=
  Function.LeftInverse.injective fromWire_asStr

theorem SuiteKind.asStr_injective : Function.Injective SuiteKind.asStr := by
  intro left right same
  cases left <;> cases right <;> first | rfl | exact absurd same (by decide)

/-! ## Questions -/

namespace Registry

/-- The status of the suite under an identifier. -/
def suiteStatus (registry : Registry) (suiteId : String) : SuiteStatus :=
  ((registry.getSuite suiteId).map CryptoSuite.status).getD .classical

/-- Whether the suite under an identifier is quantum-resistant. -/
def isQuantumResistant (registry : Registry) (suiteId : String) : Bool :=
  ((registry.getSuite suiteId).map CryptoSuite.isQuantumResistant).getD false

end Registry

/-- The status in the registry of the process. -/
def suiteStatus (suiteId : String) : SuiteStatus := Registry.seeded.suiteStatus suiteId

/-- Whether a suite is quantum-resistant in the registry of the process. -/
def isQuantumResistant (suiteId : String) : Bool := Registry.seeded.isQuantumResistant suiteId

example : suiteStatus "x25519-mlkem768" = .hybridPq ∧ isQuantumResistant "kyber" = false := by
  decide

/-! ## Serialised suites -/

/-- What a suite replaces, if anything. -/
def replacesValue : Option String → Value
  | none => .null
  | some suiteId => .string suiteId

theorem replacesValue_injective : Function.Injective replacesValue := by
  intro first second equal
  cases first with
  | none =>
      cases second with
      | none => rfl
      | some suiteId => cases equal
  | some suiteId =>
      cases second with
      | none => cases equal
      | some suiteId' => exact congrArg some (Value.string.inj equal)

/-- The members of a serialised suite. -/
def CryptoSuite.members (suite : CryptoSuite) : List (String × Value) :=
  [("suite_id", .string suite.suiteId),
    ("kind", .string suite.kind.asStr),
    ("status", .string suite.status.asStr),
    ("primitives", .array (suite.primitives.map Value.string)),
    ("fips_refs", .array (suite.fipsRefs.map Value.string)),
    ("description", .string suite.description),
    ("active", .bool suite.active),
    ("quantum_resistant", .bool suite.isQuantumResistant),
    ("replaces", replacesValue suite.replaces)]

/-- The JSON view of a suite. -/
def CryptoSuite.toDict (suite : CryptoSuite) : Value := .object (collectMembers suite.members)

/-- A member of a serialised suite is found under its key. -/
theorem CryptoSuite.get_toDict (suite : CryptoSuite) (key : String) (value : Value)
    (found : (key, value) ∈ suite.members) : suite.toDict.get key = some value := by
  have distinct : (suite.members.map Prod.fst).Nodup := by
    change (["suite_id", "kind", "status", "primitives", "fips_refs", "description", "active",
      "quantum_resistant", "replaces"] : List String).Nodup
    decide
  exact lookup_collectMembers distinct found

/-- **A serialised suite tells what it is of.** -/
theorem toDict_injective : Function.Injective CryptoSuite.toDict := by
  intro left right same
  have field : ∀ key (own : CryptoSuite → Value), (∀ suite, (key, own suite) ∈ suite.members) →
      own left = own right := by
    intro key own held
    have found := left.get_toDict key (own left) (held left)
    rw [same, right.get_toDict key (own right) (held right)] at found
    exact (Option.some.inj found).symm
  have text : ∀ key (own : CryptoSuite → String),
      (∀ suite, (key, Value.string (own suite)) ∈ suite.members) → own left = own right :=
    fun key own held => Value.string.inj (field key (fun suite => .string (own suite)) held)
  have list : ∀ key (own : CryptoSuite → List String),
      (∀ suite, (key, Value.array ((own suite).map .string)) ∈ suite.members) →
        own left = own right := by
    intro key own held
    have equal := Value.array.inj (field key (fun suite => .array ((own suite).map .string)) held)
    exact List.map_injective_iff.mpr (fun _ _ => Value.string.inj) equal
  have suiteId := text "suite_id" CryptoSuite.suiteId fun suite => by simp [CryptoSuite.members]
  have kind := text "kind" (fun suite => suite.kind.asStr) fun suite => by
    simp [CryptoSuite.members]
  have status := text "status" (fun suite => suite.status.asStr) fun suite => by
    simp [CryptoSuite.members]
  have primitives := list "primitives" CryptoSuite.primitives fun suite => by
    simp [CryptoSuite.members]
  have fipsRefs := list "fips_refs" CryptoSuite.fipsRefs fun suite => by
    simp [CryptoSuite.members]
  have description := text "description" CryptoSuite.description fun suite => by
    simp [CryptoSuite.members]
  have active := Value.bool.inj (field "active" (fun suite => .bool suite.active) fun suite => by
    simp [CryptoSuite.members])
  have replaces := replacesValue_injective (field "replaces"
    (fun suite => replacesValue suite.replaces) fun suite => by simp [CryptoSuite.members])
  cases left
  cases right
  simp only [CryptoSuite.mk.injEq]
  exact ⟨suiteId, SuiteKind.asStr_injective kind, SuiteStatus.asStr_injective status, primitives,
    fipsRefs, description, active, replaces⟩

/-! ## The listing tells the registry -/

section Listings

variable {registry registry' : Registry} (order : registry.Iteration)
  (order' : registry'.Iteration)

/-- The suite under an identifier is the one that the listing has there. -/
theorem find?_allSuites (suiteId : String) :
    ((allSuites order).find? fun suite => suite.suiteId = suiteId) =
      registry.getSuite suiteId := by
  rw [← List.head?_filter, filter_allSuites, Option.head?_toList]

/-- **The serialised listing determines the registry**, and is determined by it. -/
theorem dicts_eq_iff_getSuite :
    (allSuites order).map CryptoSuite.toDict = (allSuites order').map CryptoSuite.toDict ↔
      ∀ suiteId, registry.getSuite suiteId = registry'.getSuite suiteId := by
  constructor
  · intro same suiteId
    have listed := List.map_injective_iff.mpr toDict_injective same
    rw [← find?_allSuites order, listed, find?_allSuites order']
  · intro same
    rw [allSuites_eq order order' same]

end Listings

/-! ## A reader of the listing -/

/-- The serialised suite under an identifier. -/
def described (dicts : List Value) (suiteId : String) : Option Value :=
  dicts.find? fun dict => (dict.get "suite_id").bind Value.asStr = some suiteId

/-- The status that the serialised suites spell for an identifier. -/
def statusIn (dicts : List Value) (suiteId : String) : SuiteStatus :=
  match ((described dicts suiteId).bind (·.get "status")).bind Value.asStr with
  | some status => .fromWire status
  | none => .classical

/-- Whether the serialised suites say that an identifier is quantum-resistant. -/
def resistantIn (dicts : List Value) (suiteId : String) : Bool :=
  (((described dicts suiteId).bind (·.get "quantum_resistant")).bind Value.asBool).getD false

theorem described_allSuites {registry : Registry} (order : registry.Iteration)
    (suiteId : String) :
    described ((allSuites order).map CryptoSuite.toDict) suiteId =
      (registry.getSuite suiteId).map CryptoSuite.toDict := by
  have named : (fun dict : Value =>
      decide ((dict.get "suite_id").bind Value.asStr = some suiteId)) ∘ CryptoSuite.toDict =
        fun suite => decide (suite.suiteId = suiteId) := by
    funext suite
    have held := suite.get_toDict "suite_id" (.string suite.suiteId) (by simp [CryptoSuite.members])
    simp [held]
  rw [described, List.find?_map, named, find?_allSuites order]

/-- **Every way to ask has one answer.** After any registrations, in whatever order the map
hands out its entries, a reader of the serialised listing finds for every string the
status and the resistance that the registry gives: those of the last suite registered
under it, and a classical suite that is not quantum-resistant where there is none. -/
theorem queries_of_dicts (history : List CryptoSuite) (order : (registered history).Iteration)
    (suiteId : String) :
    let dicts := (allSuites order).map CryptoSuite.toDict
    (registered history).suiteStatus suiteId = statusIn dicts suiteId ∧
      (registered history).isQuantumResistant suiteId = resistantIn dicts suiteId ∧
      resistantIn dicts suiteId = (statusIn dicts suiteId).isQuantumResistant ∧
      (resistantIn dicts suiteId = true ↔
        ∃ suite, lastRegistered history suiteId = some suite ∧ suite.status ≠ .classical) := by
  intro dicts
  have resistant : ∀ status : SuiteStatus,
      status.isQuantumResistant = true ↔ status ≠ .classical := by
    intro status
    cases status with
    | classical => exact iff_of_false Bool.false_ne_true (not_not.mpr rfl)
    | hybridPq => exact iff_of_true rfl SuiteStatus.noConfusion
    | pq => exact iff_of_true rfl SuiteStatus.noConfusion
    | symmetric => exact iff_of_true rfl SuiteStatus.noConfusion
  have found : described dicts suiteId =
      (lastRegistered history suiteId).map CryptoSuite.toDict := by
    rw [described_allSuites, getSuite_registered]
  have held := getSuite_registered history suiteId
  rw [Registry.suiteStatus, Registry.isQuantumResistant, statusIn, resistantIn, found, held]
  cases last : lastRegistered history suiteId with
  | none => exact ⟨rfl, rfl, rfl, iff_of_false Bool.false_ne_true (by simp)⟩
  | some suite =>
      have status := suite.get_toDict "status" (.string suite.status.asStr)
        (by simp [CryptoSuite.members])
      have flag := suite.get_toDict "quantum_resistant" (.bool suite.isQuantumResistant)
        (by simp [CryptoSuite.members])
      simp [status, flag, SuiteStatus.fromWire_asStr, CryptoSuite.isQuantumResistant, resistant]

end Suites
end SkPqc

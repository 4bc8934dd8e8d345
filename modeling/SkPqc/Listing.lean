import SkPqc.Suites
import SkPqc.Library.Sorting

/-!
# The listings of the registry

The registry keeps its suites in a hash map. The map hands them out in an order of its
own (`Registry.Iteration`), and the listings sort them.

What the map holds after some registrations is, under every identifier, the last suite
registered (`getSuite_registered`). No two suites of the map compare as equal, since
their identifiers differ, so the listings do not depend on the order of the map.
-/

set_option autoImplicit false

namespace SkPqc
namespace Suites

open Library

/-- An order in which the map of a registry hands out its entries: each of them once,
under its key. -/
structure Registry.Iteration (registry : Registry) where
  entries : List (String × CryptoSuite)
  distinct : (entries.map Prod.fst).Nodup
  complete : ∀ key suite, (key, suite) ∈ entries ↔ registry.getSuite key = some suite

/-- Suites compare by whether they are inactive, then by the string of their status,
then by their identifier. -/
def compareSuites : CryptoSuite → CryptoSuite → Ordering :=
  compareLex (fun left right => cmpUsing FlagBefore (!left.active) (!right.active)) <|
  compareLex (fun left right => cmpUsing TextBefore left.status.asStr right.status.asStr)
    fun left right => cmpUsing TextBefore left.suiteId right.suiteId

/-- Every suite of the registry, the active ones first. -/
def allSuites {registry : Registry} (order : registry.Iteration) : List CryptoSuite :=
  sortBy compareSuites (order.entries.map Prod.snd)

/-- The suites that are wired into running code. -/
def activeSuites {registry : Registry} (order : registry.Iteration) : List CryptoSuite :=
  (allSuites order).filter CryptoSuite.active

/-! ## What the map holds -/

namespace Registry

variable {registry : Registry}

/-- The entries of the map: every suite under its identifier. -/
def byId (registry : Registry) : List (String × CryptoSuite) :=
  registry.suites.map fun suite => (suite.suiteId, suite)

/-- Registering a suite inserts it into the map under its identifier, in the place of
whatever has that key. -/
theorem byId_register (suite : CryptoSuite) : (registry.register suite).2.byId =
    (suite.suiteId, suite) :: registry.byId.filter fun entry => entry.1 ≠ suite.suiteId := by
  rw [byId, register, List.map_cons, byId, List.filter_map]
  rfl

/-- The suite under an identifier is one of the registry that has the identifier. -/
theorem getSuite_eq_some {key : String} {suite : CryptoSuite} :
    registry.getSuite key = some suite ↔ suite ∈ registry.suites ∧ suite.suiteId = key := by
  constructor
  · intro found
    have named := List.find?_some found
    exact ⟨List.mem_of_find?_eq_some found, of_decide_eq_true named⟩
  · rintro ⟨stored, rfl⟩
    cases found : registry.getSuite suite.suiteId with
    | none =>
        have missing := List.find?_eq_none.mp found suite stored
        rw [decide_eq_true_eq] at missing
        exact absurd rfl missing
    | some other =>
        have named := List.find?_some found
        have stored' : other ∈ registry.suites := List.mem_of_find?_eq_some found
        exact congrArg some
          (List.inj_on_of_nodup_map registry.distinct stored' stored (of_decide_eq_true named))

theorem mem_byId {key : String} {suite : CryptoSuite} :
    (key, suite) ∈ registry.byId ↔ registry.getSuite key = some suite := by
  rw [getSuite_eq_some, byId, List.mem_map]
  constructor
  · rintro ⟨other, stored, paired⟩
    cases paired
    exact ⟨stored, rfl⟩
  · rintro ⟨stored, rfl⟩
    exact ⟨suite, stored, rfl⟩

theorem distinct_byId (registry : Registry) : (registry.byId.map Prod.fst).Nodup := by
  rw [byId, List.map_map]
  exact registry.distinct

/-- Registering a suite changes what stands under its identifier, and nothing else. -/
theorem getSuite_register (suite : CryptoSuite) (key : String) :
    (registry.register suite).2.getSuite key =
      if suite.suiteId = key then some suite else registry.getSuite key := by
  by_cases same : suite.suiteId = key
  · rw [if_pos same, getSuite_eq_some]
    exact ⟨List.mem_cons_self, same⟩
  · rw [if_neg same]
    ext other
    rw [getSuite_eq_some, getSuite_eq_some]
    constructor
    · rintro ⟨stored, rfl⟩
      rcases List.mem_cons.mp stored with rfl | older
      · exact absurd rfl same
      · exact ⟨List.mem_of_mem_filter older, rfl⟩
    · rintro ⟨stored, rfl⟩
      refine ⟨List.mem_cons_of_mem _ (List.mem_filter.mpr ⟨stored, ?_⟩), rfl⟩
      exact decide_eq_true (Ne.symm same)

end Registry

/-- The registry after some registrations. -/
def registered (history : List CryptoSuite) : Registry :=
  history.foldl (fun registry suite => (registry.register suite).2) Registry.empty

/-- The last suite registered under an identifier. -/
def lastRegistered (history : List CryptoSuite) (suiteId : String) : Option CryptoSuite :=
  (history.filter fun suite => suite.suiteId = suiteId).getLast?

theorem lastRegistered_append (history : List CryptoSuite) (suite : CryptoSuite)
    (suiteId : String) : lastRegistered (history ++ [suite]) suiteId =
      if suite.suiteId = suiteId then some suite else lastRegistered history suiteId := by
  rw [lastRegistered, List.filter_append, List.filter_singleton]
  by_cases same : suite.suiteId = suiteId
  · rw [if_pos same, decide_eq_true same, cond_true, List.getLast?_concat]
  · rw [if_neg same, decide_eq_false same, cond_false, List.append_nil]
    rfl

/-- **The last write wins.** -/
theorem getSuite_registered (history : List CryptoSuite) (suiteId : String) :
    (registered history).getSuite suiteId = lastRegistered history suiteId := by
  induction history using List.reverseRecOn with
  | nil => rfl
  | append_singleton history suite ih =>
      rw [lastRegistered_append, ← ih, registered, List.foldl_append]
      exact Registry.getSuite_register suite suiteId

/-! ## The order of the listings -/

/-- The order of suites: active suites come first, then the order is that of the string
of the status, then that of the identifier. -/
def SortsBefore (left right : CryptoSuite) : Prop :=
  left.active = true ∧ right.active = false ∨
    left.active = right.active ∧ (TextBefore left.status.asStr right.status.asStr ∨
      left.status.asStr = right.status.asStr ∧ TextBefore left.suiteId right.suiteId)

instance : Std.TransCmp compareSuites := by
  have byActive := transCmp_on (cmpUsing FlagBefore) fun suite : CryptoSuite => !suite.active
  have byStatus := transCmp_on (cmpUsing TextBefore) fun suite : CryptoSuite => suite.status.asStr
  have byId := transCmp_on (cmpUsing TextBefore) CryptoSuite.suiteId
  unfold compareSuites
  infer_instance

theorem compareSuites_eq_lt {left right : CryptoSuite} :
    compareSuites left right = .lt ↔ SortsBefore left right := by
  rw [compareSuites, compareLex, compareLex, Ordering.then_eq_lt, Ordering.then_eq_lt]
  simp only [cmpUsing_eq_lt, cmpUsing_eq_eq_iff]
  simp [FlagBefore, SortsBefore]

/-- Suites that compare as equal have one identifier. -/
theorem suiteId_eq_of_compareSuites {left right : CryptoSuite}
    (same : compareSuites left right = .eq) : left.suiteId = right.suiteId := by
  rw [compareSuites, compareLex, compareLex, Ordering.then_eq_eq, Ordering.then_eq_eq] at same
  exact cmpUsing_eq_eq_iff.mp same.2.2

/-! ## One entry for every identifier -/

namespace Registry.Iteration

variable {registry registry' : Registry} (order : registry.Iteration)
  (order' : registry'.Iteration)

/-- The keys of the map are the identifiers of its suites. -/
theorem suiteId_of_mem {key : String} {suite : CryptoSuite} (held : (key, suite) ∈ order.entries) :
    suite.suiteId = key :=
  (getSuite_eq_some.mp ((order.complete key suite).mp held)).2

theorem keys_eq : order.entries.map Prod.fst =
    (order.entries.map Prod.snd).map CryptoSuite.suiteId := by
  rw [List.map_map]
  apply List.map_congr_left
  rintro ⟨key, suite⟩ held
  exact (order.suiteId_of_mem held).symm

theorem distinct_suiteIds : ((order.entries.map Prod.snd).map CryptoSuite.suiteId).Nodup :=
  order.keys_eq ▸ order.distinct

/-- The map hands out every suite under its own identifier. -/
theorem mem_suites {suite : CryptoSuite} :
    suite ∈ order.entries.map Prod.snd ↔ registry.getSuite suite.suiteId = some suite := by
  rw [← order.complete, List.mem_map]
  constructor
  · rintro ⟨⟨key, suite⟩, held, rfl⟩
    have named := order.suiteId_of_mem held
    subst named
    exact held
  · intro held
    exact ⟨(suite.suiteId, suite), held, rfl⟩

/-- The map may hand out its entries in any order at all. -/
def ofPerm {entries : List (String × CryptoSuite)} (same : entries.Perm registry.byId) :
    registry.Iteration where
  entries := entries
  distinct := (same.map Prod.fst).nodup_iff.mpr registry.distinct_byId
  complete := fun _ _ => same.mem_iff.trans mem_byId

/-- What the map hands out are its entries. -/
theorem perm_byId : order.entries.Perm registry.byId := by
  rw [List.perm_ext_iff_of_nodup order.distinct.of_map registry.distinct_byId.of_map]
  rintro ⟨key, suite⟩
  rw [order.complete, mem_byId]

/-- No two suites of the map compare as equal. -/
theorem compareSuites_ne_eq :
    (order.entries.map Prod.snd).Pairwise fun left right => compareSuites left right ≠ .eq := by
  refine (List.pairwise_map.mp order.distinct_suiteIds).imp fun different same => ?_
  exact different (suiteId_eq_of_compareSuites same)

/-- Maps that hold the same hand out the same suites, each in its order. -/
theorem suites_perm (same : ∀ key, registry.getSuite key = registry'.getSuite key) :
    (order.entries.map Prod.snd).Perm (order'.entries.map Prod.snd) := by
  rw [List.perm_ext_iff_of_nodup order.distinct_suiteIds.of_map order'.distinct_suiteIds.of_map]
  intro suite
  rw [order.mem_suites, order'.mem_suites, same]

end Registry.Iteration

section Listings

variable {registry registry' : Registry} (order : registry.Iteration)
  (order' : registry'.Iteration)

/-- Registries that hold the same have one listing. -/
theorem allSuites_eq (same : ∀ key, registry.getSuite key = registry'.getSuite key) :
    allSuites order = allSuites order' :=
  sortBy_eq_of_perm order.compareSuites_ne_eq (order.suites_perm order' same)

theorem activeSuites_eq (same : ∀ key, registry.getSuite key = registry'.getSuite key) :
    activeSuites order = activeSuites order' := by
  rw [activeSuites, activeSuites, allSuites_eq order order' same]

/-- The listing is strictly in order. -/
theorem sorted_allSuites : (allSuites order).Pairwise SortsBefore :=
  (strict_sortBy order.compareSuites_ne_eq).imp compareSuites_eq_lt.mp

theorem mem_allSuites {suite : CryptoSuite} :
    suite ∈ allSuites order ↔ registry.getSuite suite.suiteId = some suite := by
  rw [← order.mem_suites]
  exact (sortBy_perm _).mem_iff

/-- The entries of the listing under an identifier are what the map holds there. -/
theorem filter_allSuites (suiteId : String) :
    ((allSuites order).filter fun suite => suite.suiteId = suiteId) =
      (registry.getSuite suiteId).toList := by
  have distinct : (allSuites order).Nodup :=
    (sortBy_perm _).nodup_iff.mpr order.distinct_suiteIds.of_map
  have members : ∀ suite, suite ∈ ((allSuites order).filter fun suite => suite.suiteId = suiteId) ↔
      registry.getSuite suiteId = some suite := by
    intro suite
    rw [List.mem_filter, mem_allSuites, decide_eq_true_eq]
    constructor
    · rintro ⟨found, rfl⟩
      exact found
    · intro found
      have named := (Registry.getSuite_eq_some.mp found).2
      subst named
      exact ⟨found, rfl⟩
  cases held : registry.getSuite suiteId with
  | none =>
      apply List.eq_nil_iff_forall_not_mem.mpr
      intro suite listed
      cases held.symm.trans ((members suite).mp listed)
  | some suite =>
      apply List.perm_singleton.mp
      rw [List.perm_ext_iff_of_nodup (distinct.filter _) (List.nodup_singleton _)]
      intro other
      rw [members, held, Option.some_inj, List.mem_singleton, eq_comm]

end Listings

example (order : Registry.seeded.Iteration) :
    allSuites order = [pgpWrap, hybridKem, aesGcm] := by
  apply sortBy_eq_of_strict order.compareSuites_ne_eq
  · have held : (Registry.seeded.byId.map Prod.snd).Perm (order.entries.map Prod.snd) :=
      order.perm_byId.symm.map Prod.snd
    rw [Registry.byId, suites_seeded] at held
    exact (List.perm_append_singleton pgpWrap [hybridKem, aesGcm]).symm.trans held
  · decide +kernel

/-- **The listings depend on the last suites registered, and on nothing else.** They are
strictly in order, and hold the last suite under every identifier once. -/
theorem listings_of_lastRegistered {history history' : List CryptoSuite}
    (same : ∀ suiteId, lastRegistered history suiteId = lastRegistered history' suiteId)
    (order active : (registered history).Iteration)
    (order' active' : (registered history').Iteration) :
    allSuites order = allSuites order' ∧ activeSuites active = activeSuites active' ∧
      (allSuites order).Pairwise SortsBefore ∧
      (∀ suiteId, ((allSuites order).filter fun suite => suite.suiteId = suiteId) =
        (lastRegistered history suiteId).toList) ∧
      activeSuites active = (allSuites order).filter CryptoSuite.active := by
  have held : ∀ key, (registered history).getSuite key = (registered history').getSuite key := by
    intro key
    rw [getSuite_registered, getSuite_registered, same]
  refine ⟨allSuites_eq order order' held, activeSuites_eq active active' held,
    sorted_allSuites order, ?_, ?_⟩
  · intro suiteId
    rw [filter_allSuites, getSuite_registered]
  · rw [activeSuites, allSuites_eq active order fun _ => rfl]

theorem listings_registered_again :
    let history := [{ pgpWrap with active := false }, aesGcm, pgpWrap]
    let order := Registry.Iteration.ofPerm (List.Perm.refl (registered history).byId)
    let active := Registry.Iteration.ofPerm (List.reverse_perm (registered history).byId)
    let history' := [pgpWrap, aesGcm]
    let order' := Registry.Iteration.ofPerm (List.reverse_perm (registered history').byId)
    let active' := Registry.Iteration.ofPerm (List.Perm.refl (registered history').byId)
    allSuites order = allSuites order' ∧ activeSuites active = activeSuites active' ∧
      (allSuites order).Pairwise SortsBefore ∧
      (∀ suiteId, ((allSuites order).filter fun suite => suite.suiteId = suiteId) =
        (lastRegistered history suiteId).toList) ∧
      activeSuites active = (allSuites order).filter CryptoSuite.active := by
  intro history order active history' order' active'
  refine listings_of_lastRegistered (fun suiteId => ?_) order active order' active'
  by_cases bulk : aesGcm.suiteId = suiteId
  · subst bulk
    decide
  · by_cases wrap : pgpWrap.suiteId = suiteId
    · subst wrap
      decide
    · simp [history, history', lastRegistered, bulk, wrap]

end Suites
end SkPqc

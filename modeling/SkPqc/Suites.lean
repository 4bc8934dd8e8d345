import Mathlib.Data.List.Nodup

/-!
# The registry of suites

What every suite identifier means, and whether the suite is quantum-resistant. No
cryptography happens here.

The registry is a map from identifiers to suites. It is a list in no particular order
that holds every identifier once (`Registry.distinct`).
-/

set_option autoImplicit false

namespace SkPqc
namespace Suites

/-- What a suite does. -/
inductive SuiteKind where
  | kem
  | sig
  | aead
  deriving DecidableEq, Repr

/-- The posture of a suite against a quantum computer. -/
inductive SuiteStatus where
  | classical
  | hybridPq
  | pq
  | symmetric
  deriving DecidableEq, Repr

/-- The string of a status on the wire. -/
def SuiteStatus.asStr : SuiteStatus → String
  | .classical => "classical"
  | .hybridPq => "hybrid-pq"
  | .pq => "pq"
  | .symmetric => "symmetric"

def SuiteStatus.isQuantumResistant : SuiteStatus → Bool
  | .hybridPq | .pq | .symmetric => true
  | .classical => false

/-- A registered suite. -/
structure CryptoSuite where
  suiteId : String
  kind : SuiteKind
  status : SuiteStatus
  primitives : List String
  fipsRefs : List String
  description : String
  /-- Whether the suite is wired into running code. -/
  active : Bool
  /-- The suite that this one is the migration target for. -/
  replaces : Option String
  deriving DecidableEq, Repr

def CryptoSuite.isQuantumResistant (suite : CryptoSuite) : Bool := suite.status.isQuantumResistant

/-- The suites under their identifiers. -/
structure Registry where
  suites : List CryptoSuite
  distinct : (suites.map CryptoSuite.suiteId).Nodup

namespace Registry

def empty : Registry := ⟨[], List.nodup_nil⟩

/-- Register a suite, in the place of one with the same identifier. Returns the stored
suite as well. -/
def register (registry : Registry) (suite : CryptoSuite) : CryptoSuite × Registry :=
  (suite,
    { suites := suite :: registry.suites.filter fun other => other.suiteId ≠ suite.suiteId
      distinct := by
        rw [List.map_cons, List.nodup_cons]
        refine ⟨fun found => ?_, (List.filter_sublist.map _).nodup registry.distinct⟩
        obtain ⟨other, kept, same⟩ := List.mem_map.mp found
        exact of_decide_eq_true (List.mem_filter.mp kept).2 same })

/-- The suite under an identifier. -/
def getSuite (registry : Registry) (suiteId : String) : Option CryptoSuite :=
  registry.suites.find? fun suite => suite.suiteId = suiteId

end Registry

/-- The classical key wrap. -/
def pgpWrap : CryptoSuite where
  suiteId := "x25519-pgp-wrap-v1"
  kind := .kem
  status := .classical
  primitives := ["X25519 (Curve25519) PGP key-wrap", "AES-256 session key"]
  fipsRefs := ["RFC 7748", "RFC 9580"]
  description := "Classical X25519 PGP key-wrap of an AES-256 session key" ++
    " (skcomms envelope payload / DM wrap today)."
  active := true
  replaces := none

/-- The symmetric bulk cipher. -/
def aesGcm : CryptoSuite where
  suiteId := "aes256-gcm-v1"
  kind := .aead
  status := .symmetric
  primitives := ["AES-256-GCM", "HKDF-SHA256"]
  fipsRefs := ["FIPS 197", "SP 800-38D", "SP 800-108"]
  description := "AES-256-GCM bulk cipher — Grover-only (~128-bit)," ++
    " quantum-acceptable. Do not migrate."
  active := true
  replaces := none

/-- The hybrid KEM. -/
def hybridKem : CryptoSuite where
  suiteId := "x25519-mlkem768"
  kind := .kem
  status := .hybridPq
  primitives := ["X25519 (ephemeral-static DHKEM)", "ML-KEM-768 (FIPS 203, liboqs)",
    "HKDF-SHA256 concat-KDF combiner"]
  fipsRefs := ["FIPS 203", "RFC 7748", "RFC 5869"]
  description := "LIVE hybrid X25519 || ML-KEM-768 key-encapsulation primitive" ++
    " (sk_pqc::kem). Secret unless BOTH primitives break." ++
    " Cross-impl interoperable with sk_pqc (Dart) and skcomms.pqkem."
  active := true
  replaces := some "x25519-pgp-wrap-v1"

/-- The registry with the canonical suites. -/
def Registry.seeded : Registry :=
  (((Registry.empty.register pgpWrap).2.register aesGcm).2.register hybridKem).2

/-- The suite under an identifier in the registry of the process, which is seeded once. -/
def getSuite (suiteId : String) : Option CryptoSuite := Registry.seeded.getSuite suiteId

theorem suites_seeded : Registry.seeded.suites = [hybridKem, aesGcm, pgpWrap] := by
  simp [Registry.seeded, Registry.register, Registry.empty, pgpWrap, aesGcm, hybridKem]

/-- Whatever is found is one of the canonical suites, under its own identifier. -/
theorem mem_of_getSuite {suiteId : String} {suite : CryptoSuite}
    (found : getSuite suiteId = some suite) :
    suite ∈ [hybridKem, aesGcm, pgpWrap] ∧ suite.suiteId = suiteId := by
  rw [getSuite, Registry.getSuite, suites_seeded] at found
  have named := List.find?_some found
  exact ⟨List.mem_of_find?_eq_some found, by simpa using named⟩

end Suites
end SkPqc

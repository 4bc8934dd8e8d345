import SkPqc.Library.Digits
import SkPqc.Library.JsonPretty
import SkPqc.Suites

/-!
# The self-report

For a negotiated suite and a ratchet level the report states what a conversation
really provides. The status comes from the registry alone, and every note is screened
for forbidden words: an assertion panics on a note that has one.
-/

set_option autoImplicit false

namespace SkPqc
namespace SelfReport

open Library Suites

/-- Words that no note may have. -/
def forbiddenWords : List String := ["quantum-proof", "quantum-safe", "unbreakable"]

/-- The classical suite of a conversation without a hybrid prekey. -/
def defaultConversationSuite : String := "x25519-pgp-wrap-v1"

def hybridKemSuite : String := "x25519-mlkem768"

/-- Whether the note has none of the forbidden words, without regard to case. -/
def isHonestNote (note : String) : Bool :=
  let lower := lowercase note.toList
  !forbiddenWords.any fun word => word.toList <:+: lower

/-- How much forward secrecy a session provides. -/
inductive RatchetLevel where
  | l2Oneshot
  | l3Epoch
  deriving DecidableEq, Repr

def RatchetLevel.asStr : RatchetLevel → String
  | .l2Oneshot => "L2-oneshot"
  | .l3Epoch => "L3-epoch"

/-- The level of a wire string: whatever is not the ratchet is the one-shot seal. -/
def RatchetLevel.fromWire (s : String) : RatchetLevel :=
  if s = "L3-epoch" then .l3Epoch else .l2Oneshot

/-- What is reported of one surface. -/
structure SurfaceReport where
  surface : String
  component : String
  activeSuite : String
  status : String
  quantumResistant : Bool
  primitives : List String
  fipsRefs : List String
  note : String
  deriving DecidableEq, Repr

/-- Panics when the note has a forbidden word, or a classical surface is marked
quantum-resistant. -/
def SurfaceReport.assertHonest (report : SurfaceReport) : Outcome Empty Unit :=
  if ¬ isHonestNote report.note then .panic
  else if report.status = "classical" ∧ report.quantumResistant then .panic
  else .ok ()

/-- What the registry says of a suite. -/
structure Resolved where
  status : SuiteStatus
  primitives : List String
  fipsRefs : List String
  quantumResistant : Bool

/-- An unknown suite is classical. -/
def resolveSuite (suiteId : String) : Resolved :=
  match getSuite suiteId with
  | some suite =>
      { status := suite.status
        primitives := suite.primitives
        fipsRefs := suite.fipsRefs
        quantumResistant := suite.isQuantumResistant }
  | none =>
      { status := .classical, primitives := ["unknown"], fipsRefs := [], quantumResistant := false }

/-- The report of a surface, before it is asserted to be honest. -/
def assembled (surface component suiteId note : String) : SurfaceReport :=
  let resolved := resolveSuite suiteId
  { surface := surface
    component := component
    activeSuite := suiteId
    status := resolved.status.asStr
    quantumResistant := resolved.quantumResistant
    primitives := resolved.primitives
    fipsRefs := resolved.fipsRefs
    note := note }

/-- Assemble the report of a surface, and assert that it is honest. -/
def surfaceFrom (surface component suiteId note : String) : Outcome Empty SurfaceReport := do
  let report := assembled surface component suiteId note
  report.assertHonest
  return report

/-- The peer of a conversation, where there is one to name. -/
def who (peer : String) : String := if peer = "" then "" else " with " ++ peer

/-- The suite that was used, or the classical default. -/
def usedSuite (negotiatedSuite : String) : String :=
  if negotiatedSuite = "" then defaultConversationSuite else negotiatedSuite

/-! ## Notes -/

/-- The note on a classical key wrap, at either level. -/
def classicalDmNote (w suiteId level : String) : String :=
  "DM" ++ w ++ " on the CLASSICAL PGP key-wrap (" ++ suiteId ++ ") — HNDL-exposed:" ++
    " recorded ciphertext is retroactively decryptable. The " ++ level ++
    " ratchet structure provides NO post-quantum confidentiality while the" ++
    " KEM is classical; negotiate the hybrid X25519+ML-KEM-768 (FIPS 203)" ++
    " suite to close the harvest-now-decrypt-later gap."

/-- The note on the running ratchet over the hybrid KEM. -/
def epochDmNote (w : String) (epoch : UInt64) : String :=
  "DM" ++ w ++ " on the running epoch-ratchet, FS + PCS, hybrid" ++
    " X25519+ML-KEM-768 rekey per epoch (epoch " ++ u64ToString epoch ++ "). Each epoch" ++
    " re-derives the chain from a fresh hybrid-KEM secret, so a compromised" ++
    " key neither decrypts past epochs (forward secrecy) nor future ones" ++
    " once healed (post-compromise security). Secure while EITHER the" ++
    " X25519 or the ML-KEM-768 (FIPS 203) leg holds."

/-- The note on the stateless seal over the hybrid KEM. -/
def oneshotDmNote (w : String) : String :=
  "DM" ++ w ++ " sealed with a stateless one-shot hybrid seal — PQ at the" ++
    " published prekey only, no running ratchet. Forward secrecy is limited" ++
    " to prekey rotation (no per-message/per-epoch rekey, no" ++
    " post-compromise security). Secure while EITHER the X25519 or the" ++
    " ML-KEM-768 (FIPS 203) leg holds; upgrade to the L3 epoch-ratchet for" ++
    " FS + PCS."

/-- The note on a conversation under the hybrid KEM. -/
def hybridConversationNote (upper w : String) : String :=
  upper ++ " conversation" ++ w ++ " negotiated the hybrid KEM: the" ++
    " body symmetric key is wrapped via X25519+ML-KEM-768 (PQXDH-style" ++
    " signed prekey) and AES-256-GCM seals the body. Negotiated suite is" ++
    " bound into the AEAD AAD (downgrade-lock). HNDL-resistant."

/-- The note on a conversation under the classical key wrap. -/
def classicalConversationNote (upper w : String) : String :=
  upper ++ " conversation" ++ w ++ " on the CLASSICAL PGP key-wrap" ++
    " (HNDL-exposed). Either the peer advertised no hybrid prekey or a" ++
    " downgrade occurred — recorded honestly. Hybrid engages only when" ++
    " both sides advertise a hybrid prekey."

/-! ## Builders -/

/-- The note on a direct message. -/
def dmNote (suiteId : String) (ratchetLevel : RatchetLevel) (epoch : UInt64) (peer : String) :
    String :=
  let resolved := resolveSuite suiteId
  let isHybrid := resolved.quantumResistant
  let w := who peer
  let level := ratchetLevel.asStr
  if ¬ isHybrid then classicalDmNote w suiteId level
  else if ratchetLevel = .l3Epoch then epochDmNote w epoch
  else oneshotDmNote w

/-- The surface of a direct message, with its ratchet level. -/
def dmRatchetSurfaceFor (negotiatedSuite : String) (ratchetLevel : RatchetLevel) (epoch : UInt64)
    (peer : String) : Outcome Empty SurfaceReport :=
  let suiteId := usedSuite negotiatedSuite
  let note := dmNote suiteId ratchetLevel epoch peer
  surfaceFrom "dm" "skchat (DmRatchet)" suiteId note

/-- The kind of conversation a surface describes. -/
inductive ConversationKind where
  | dm
  | envelope
  deriving DecidableEq, Repr

/-- The surface and the component of a conversation. -/
def ConversationKind.place : ConversationKind → String × String
  | .envelope => ("envelope-payload", "skcomms (EnvelopeCrypto)")
  | .dm => ("dm", "skchat (ChatCrypto)")

/-- The note on a conversation. -/
def conversationNote (suiteId surface peer : String) : String :=
  let resolved := resolveSuite suiteId
  let w := who peer
  let upper := String.ofList (surface.toList.map Char.toUpper)
  if resolved.quantumResistant then hybridConversationNote upper w
  else classicalConversationNote upper w

/-- The surface of a conversation. -/
def conversationSurfaceFor (negotiatedSuite : String) (kind : ConversationKind) (peer : String) :
    Outcome Empty SurfaceReport :=
  let suiteId := usedSuite negotiatedSuite
  let (surface, component) := kind.place
  let note := conversationNote suiteId surface peer
  surfaceFrom surface component suiteId note

/-! ## What a caller asks for -/

/-- A call of one of the builders. -/
inductive Request where
  | dm (negotiatedSuite : String) (ratchetLevel : RatchetLevel) (epoch : UInt64) (peer : String)
  | conversation (negotiatedSuite : String) (kind : ConversationKind) (peer : String)

/-- The suite that was negotiated, as the caller gives it. -/
def Request.negotiatedSuite : Request → String
  | .dm negotiatedSuite _ _ _ => negotiatedSuite
  | .conversation negotiatedSuite _ _ => negotiatedSuite

def Request.build : Request → Outcome Empty SurfaceReport
  | .dm negotiatedSuite ratchetLevel epoch peer =>
      dmRatchetSurfaceFor negotiatedSuite ratchetLevel epoch peer
  | .conversation negotiatedSuite kind peer => conversationSurfaceFor negotiatedSuite kind peer

/-! ## The whole report -/

/-- The claim over all surfaces. -/
def honestClaim (surfaces : List SurfaceReport) : String :=
  let total := surfaces.length
  let qr := (surfaces.filter fun surface => surface.quantumResistant).length
  let anyClassical := surfaces.any fun surface => surface.status = "classical"
  if total > 0 ∧ qr = total then "All owned surfaces are quantum-resistant."
  else if anyClassical then
    "NOT quantum-resistant end-to-end. Asymmetric surfaces reported here are" ++
    " CLASSICAL (Shor-breakable) unless a hybrid X25519+ML-KEM-768 (FIPS 203) suite" ++
    " was negotiated. Symmetric/at-rest layers are quantum-acceptable. Do not claim" ++
    " hybrid/post-quantum protection where a surface reads classical."
  else "Only symmetric surfaces present; no asymmetric PQ migration done."

/-- Counts over the surfaces of a report. -/
structure Summary where
  totalSurfaces : Nat
  quantumResistant : Nat
  classical : Nat
  symmetric : Nat
  deriving DecidableEq, Repr

/-- A whole self-report. -/
structure Report where
  report : String
  surfaces : List SurfaceReport
  summary : Summary
  honestClaim : String

/-- Every surface is asserted to be honest again. -/
def assertAll : List SurfaceReport → Outcome Empty Unit
  | [] => .ok ()
  | surface :: rest => do
      surface.assertHonest
      assertAll rest

/-- The report over given surfaces. -/
def fromSurfaces (surfaces : List SurfaceReport) : Outcome Empty Report := do
  assertAll surfaces
  return {
    report := "pqc-self-report"
    surfaces := surfaces
    summary := {
      totalSurfaces := surfaces.length
      quantumResistant := (surfaces.filter fun surface => surface.quantumResistant).length
      classical := (surfaces.filter fun surface => surface.status = "classical").length
      symmetric := (surfaces.filter fun surface => surface.status = "symmetric").length }
    honestClaim := honestClaim surfaces }

/-! ## The report as text -/

/-- The fields of a surface, as they are serialised. -/
def SurfaceReport.serialize (report : SurfaceReport) : Json.Doc :=
  .struct [
    ("surface", .string report.surface),
    ("component", .string report.component),
    ("active_suite", .string report.activeSuite),
    ("status", .string report.status),
    ("quantum_resistant", .bool report.quantumResistant),
    ("primitives", .sequence (report.primitives.map Json.Doc.string)),
    ("fips_refs", .sequence (report.fipsRefs.map Json.Doc.string)),
    ("note", .string report.note)]

def Summary.serialize (summary : Summary) : Json.Doc :=
  .struct [
    ("total_surfaces", .number summary.totalSurfaces),
    ("quantum_resistant", .number summary.quantumResistant),
    ("classical", .number summary.classical),
    ("symmetric", .number summary.symmetric)]

def Report.serialize (report : Report) : Json.Doc :=
  .struct [
    ("report", .string report.report),
    ("surfaces", .sequence (report.surfaces.map SurfaceReport.serialize)),
    ("summary", report.summary.serialize),
    ("honest_claim", .string report.honestClaim)]

/-- The report as pretty JSON. The writer is expected not to fail. -/
def Report.toJson (toStringPretty : Json.Doc → Except String String) (report : Report) :
    Outcome Empty String :=
  match toStringPretty report.serialize with
  | .ok text => .ok text
  | .error _ => .panic

end SelfReport
end SkPqc

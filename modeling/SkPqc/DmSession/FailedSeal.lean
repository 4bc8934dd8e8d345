import SkPqc.DmSession.FirstFrames

/-!
# Seals that fail

A seal can fail at two places. When the epoch secret does not wrap to the key of
the peer nothing was stored yet, and the session is as before. When the body does
not encrypt the message index was already taken, in an epoch that may have begun
in the same call, and neither is given back.

So a failed seal leaves the session alone exactly when the plaintext is short
enough to encrypt, or the call ends before it takes an index
(`seal_leavesNoTrace_iff`).
-/

set_option autoImplicit false

namespace SkPqc

open Library Kem Ratchet Primitives Idealised

/-- Up to this length AES-GCM takes a message, and associated data. -/
def gcmLimit : Nat := 2 ^ 36

/-- An AEAD that fails on overlong messages and on no others. -/
def Primitives.LengthLimited (P : Primitives) : Prop :=
  ∀ key nonce aad msg, aad.length ≤ gcmLimit →
    (P.aeadEncrypt key nonce aad msg = none ↔ gcmLimit < msg.length)

namespace DmSession

/-! ## What a failed call should leave -/

section

variable (P : Primitives) (build : Build)

/-- The second session is in the state of the first one, and every run from it sends the
frames that a run from the first one would send. -/
structure Untouched (session after : DmSession) : Prop where
  ratchet : after.ratchet = session.ratchet
  epochSecrets : after.epochSecrets = session.epochSecrets
  currentKam : after.currentKam = session.currentKam
  resumes : ∀ calls, sent P build after calls = sent P build session calls

/-- Whenever the call fails, it leaves the session untouched. -/
def LeavesNoTrace (session : DmSession) (plaintext peerHybridPub : Bytes) (draws : SealDraws) :
    Prop :=
  ∀ (reason : DmSessionError) (after : DmSession),
    (DmSession.seal P build plaintext peerHybridPub draws).run session = (.error reason, after) →
      Untouched P build session after

/-- The call comes to take a message index: the epoch goes on, or the secret of the one that
begins wraps to the key of the peer. -/
def TakesIndex (session : DmSession) (peerHybridPub : Bytes) (draws : SealDraws) : Prop :=
  match (session.beginAt build draws.now : Outcome DmSessionError (Option UInt64)) with
  | .ok none => True
  | .ok (some _) =>
      ∃ kam, wrapDmEpochSecret P draws.epochSecret.val peerHybridPub draws.wrap = .ok kam
  | _ => False

end

section

variable {P : Primitives} {build : Build} {session : DmSession} {plaintext peerHybridPub : Bytes}
  {draws : SealDraws}

theorem Untouched.refl (session : DmSession) : Untouched P build session session where
  ratchet := rfl
  epochSecrets := rfl
  currentKam := rfl
  resumes _ := rfl

theorem takesIndex_of_keyed {keyed : DmSession} {ratchet : DmRatchet}
    (key : Keyed P build session peerHybridPub draws keyed ratchet) :
    TakesIndex P build session peerHybridPub draws := by
  unfold TakesIndex
  cases key with
  | current holds young =>
      simp [beginAt, holds, young]
  | fresh beginning wrapped =>
      rw [beginning]
      exact ⟨_, wrapped⟩

theorem exists_keyed (takes : TakesIndex P build session peerHybridPub draws) :
    ∃ keyed ratchet, Keyed P build session peerHybridPub draws keyed ratchet := by
  unfold TakesIndex at takes
  split at takes
  · rename_i beginning
    obtain ⟨ratchet, holds, young⟩ := beginAt_eq_none beginning
    exact ⟨session, ratchet, .current holds young⟩
  · rename_i epoch beginning
    obtain ⟨kam, wrapped⟩ := takes
    exact ⟨_, _, .fresh beginning wrapped⟩
  · exact takes.elim

/-- A ratchet that advanced is not the one of the session before the call. -/
theorem Keyed.advanced_ratchet_ne {keyed : DmSession} {ratchet : DmRatchet}
    (key : Keyed P build session peerHybridPub draws keyed ratchet) :
    (keyed.advanced ratchet).ratchet ≠ session.ratchet := by
  intro same
  cases key with
  | current holds young =>
      rw [holds] at same
      have index := congrArg DmRatchet.messageIndex (Option.some.inj same)
      simp at index
  | fresh beginning wrapped =>
      rcases beginAt_eq_some beginning with ⟨idle, _⟩ | ⟨old, holds, _, next, _⟩
      · rw [idle] at same
        cases same
      · rw [holds] at same
        have epoch := congrArg DmRatchet.epoch (Option.some.inj same)
        simp [DmRatchet.withBounds, next] at epoch

theorem length_frameAad_le (epoch index : UInt64) :
    (frameAad epoch index).length ≤ gcmLimit := by
  have length : (frameAad epoch index).length = (aadPrefix ++ utf8 "|").length + 16 := by
    simp [frameAad, Nat.add_assoc]
  rw [length]
  decide

/-- An overlong plaintext fails after the ratchet advanced. -/
theorem Keyed.run_seal_of_overlong {keyed : DmSession} {ratchet : DmRatchet}
    (key : Keyed P build session peerHybridPub draws keyed ratchet) (limited : P.LengthLimited)
    (overlong : gcmLimit < plaintext.length) :
    (DmSession.seal P build plaintext peerHybridPub draws).run session =
      (.error .openFailed, keyed.advanced ratchet) := by
  have failed := (limited (messageKey P ratchet.epochSecret ratchet.epoch ratchet.messageIndex)
    draws.frameNonce _ plaintext
    (length_frameAad_le ratchet.epoch ratchet.messageIndex)).mpr overlong
  rw [run_seal_of_keyed key, run_sealNext plaintext draws key.ratchet_eq key.room, failed]

/-- **When a failed seal leaves no trace.** It does exactly when the plaintext is not too long
for AES-GCM, or the call ends before it takes a message index. -/
theorem seal_leavesNoTrace_iff (limited : P.LengthLimited) :
    LeavesNoTrace P build session plaintext peerHybridPub draws ↔
      plaintext.length ≤ gcmLimit ∨ ¬ TakesIndex P build session peerHybridPub draws := by
  constructor
  · intro untouched
    by_contra taken
    push Not at taken
    obtain ⟨overlong, takes⟩ := taken
    obtain ⟨keyed, ratchet, key⟩ := exists_keyed takes
    have failed := key.run_seal_of_overlong limited overlong
    exact key.advanced_ratchet_ne (untouched _ _ failed).ratchet
  · intro condition reason after failed
    have step := run_seal P build session plaintext peerHybridPub draws
    rw [failed] at step
    cases step with
    | wrapFailed beginning rejected => exact .refl session
    | encryptFailed key rejected =>
        have overlong := (limited _ _ _ _ (length_frameAad_le _ _)).mp rejected
        rcases condition with short | stopped
        · exact absurd overlong (Nat.not_lt.mpr short)
        · exact absurd (takesIndex_of_keyed key) stopped

end

/-! ## Tried on a new session -/

/-- A tag for every encryption of a message that is not too long. -/
def gcmTag (encryption : Encryption) : Option (FixedBytes 16) :=
  if encryption.msg.length ≤ gcmLimit then some (.fill 16 0) else none

theorem lengthLimited_gcmTag : (primitives gcmTag).LengthLimited := by
  intro key nonce aad msg _
  simp [primitives, gcmTag]

/-- A key of the wrong length leaves no trace. -/
theorem seal_leavesNoTrace_badKey :
    let session := DmSession.withBounds "peer" 50 604800
    let calls := DmSession.seal (primitives gcmTag) ⟨true, .w64⟩ [] [] (sampleDraws 1)
    calls.run session = (.error (.ratchet (.badPublicKeyLen 0)), session) ∧
      LeavesNoTrace (primitives gcmTag) ⟨true, .w64⟩ session [] [] (sampleDraws 1) := by
  intro session calls
  refine ⟨?_, (seal_leavesNoTrace_iff lengthLimited_gcmTag).mpr (.inl (Nat.zero_le _))⟩
  have beginning := due_withBounds ⟨true, .w64⟩ "peer" 50 604800 (sampleDraws 1).now
  rw [run_seal_of_begin [] [] (sampleDraws 1) beginning, wrapDmEpochSecret_secret]
  rfl

/-- A plaintext that is too long begins the first epoch and takes its first index, though
nothing is sent. -/
theorem seal_overlong_leaves_trace :
    let P := primitives gcmTag
    let session := DmSession.withBounds "peer" 50 604800
    let pub := (hybridKeypair P (sampleKeys 1)).publicKey
    let plaintext := List.replicate (gcmLimit + 1) (0 : UInt8)
    P.LengthLimited ∧
      (∃ kam, (DmSession.seal P ⟨true, .w64⟩ plaintext pub (sampleDraws 1)).run session =
        (.error .openFailed, session.afterFirst 0 (sampleDraws 1) kam)) ∧
      ¬ LeavesNoTrace P ⟨true, .w64⟩ session plaintext pub (sampleDraws 1) := by
  intro P session pub plaintext
  have overlong : gcmLimit < plaintext.length := by
    rw [List.length_replicate]
    exact Nat.lt_succ_self _
  obtain ⟨kam, wrapped⟩ : ∃ kam,
      wrapDmEpochSecret P (sampleDraws 1).epochSecret.val pub (sampleDraws 1).wrap = .ok kam := by
    refine ⟨_, @wrapDmEpochSecret_of_tag gcmTag (sampleKeys 1) _ (.fill 16 0) _ ?_⟩
    decide
  have key : Keyed P ⟨true, .w64⟩ session pub (sampleDraws 1) _ _ :=
    .fresh (due_withBounds ⟨true, .w64⟩ "peer" 50 604800 (sampleDraws 1).now) wrapped
  have failed := key.run_seal_of_overlong lengthLimited_gcmTag overlong
  refine ⟨lengthLimited_gcmTag, ⟨kam, failed⟩, fun untouched => ?_⟩
  exact key.advanced_ratchet_ne (untouched _ _ failed).ratchet

end DmSession
end SkPqc

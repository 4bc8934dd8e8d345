import SkPqc.DmSession.FirstFrames
import SkPqc.DmSession.Token

/-!
# What a sent frame looks like on the wire

Whatever a session has gone through, a frame it sends has a nonce of 12 bytes, a body
longer than the message by the tag, and a KAM of one fixed length on the first frames
of its epoch. So its token is read back, and the length of the token is a function of
the length of the message and of whether the frame is among the first of its epoch
(`token_of_sent`). An observer of lengths sees where epochs begin.
-/

set_option autoImplicit false

namespace SkPqc

open Library Kem HybridBox Ratchet Primitives Idealised

namespace DmSession

/-- The parts of a frame have the lengths that its message and index give them. -/
structure Measured (sent : Sent) : Prop where
  nonce : sent.frame.nonce.length = nonceLen
  body : sent.frame.body.length = sent.plaintext.length + tagLen
  carries : sent.frame.index < kamRepeat →
    ∃ kam, sent.frame.kam = some kam ∧ kam.length = wrappedPayloadLen
  bare : ¬ sent.frame.index < kamRepeat → sent.frame.kam = none

/-- A session with a ratchet holds a KAM of the length of a wrapped secret. -/
structure HoldsKam (session : DmSession) : Prop where
  persistent : session.Persistent
  current : ∀ ratchet, session.ratchet = some ratchet →
    ∃ kam, session.currentKam = some kam ∧ kam.length = wrappedPayloadLen

/-- The length of the binary layout of a frame, given its message and whether it carries
the KAM. -/
def blobLen (plaintext : Nat) (carries : Bool) : Nat :=
  8 + 8 + (4 + nonceLen) + (4 + (plaintext + tagLen)) +
    if carries then 1 + (4 + wrappedPayloadLen) else 1

/-- The length of the token of a frame. -/
def tokenLen (plaintext : Nat) (carries : Bool) : Nat :=
  (utf8 pqdrScheme).length + 4 * ((blobLen plaintext carries + 2) / 3)

section

variable {P : Primitives} {build : Build} {session keyed : DmSession} {ratchet : DmRatchet}
  {peerHybridPub : Bytes} {draws : SealDraws}

/-- A wrapped secret has one length, whoever it is wrapped to. -/
theorem length_wrapDmEpochSecret (aead : P.AeadCorrect) {secret : EpochSecret} {payload : Bytes}
    {wrap : BoxDraws} (wrapped : wrapDmEpochSecret P secret.val peerHybridPub wrap = .ok payload) :
    payload.length = wrappedPayloadLen := by
  obtain ⟨-, made⟩ := wrapDmEpochSecret_eq_ok wrapped
  rw [length_sealBox aead made, secret.property]
  rfl

theorem HoldsKam.advanced (aead : P.AeadCorrect) (holds : HoldsKam session)
    (key : Keyed P build session peerHybridPub draws keyed ratchet) :
    HoldsKam (keyed.advanced ratchet) ∧
      ∃ kam, keyed.currentKam = some kam ∧ kam.length = wrappedPayloadLen := by
  have persistent := holds.persistent.keyed key
  cases key with
  | current has young =>
      have current := holds.current ratchet has
      exact ⟨⟨persistent, fun _ _ => current⟩, current⟩
  | @fresh epoch kam beginning wrapped =>
      have current : ∃ kam', some kam = some kam' ∧ kam'.length = wrappedPayloadLen :=
        ⟨kam, rfl, length_wrapDmEpochSecret aead wrapped⟩
      exact ⟨⟨persistent, fun _ _ => current⟩, current⟩

/-- **One call**: the session goes on holding its KAM, and what it sends is measured. -/
theorem HoldsKam.step (aead : P.AeadCorrect) {past : List Sent}
    (holds : HoldsKam session) (measured : ∀ frame ∈ past, Measured frame) (call : Call) :
    HoldsKam ((machine P build).step session call).2 ∧
      ∀ frame ∈ past ++ (sentBy call ((machine P build).step session call).1
        ((machine P build).step session call).2).toList, Measured frame := by
  cases call with
  | «seal» plaintext peerHybridPub draws =>
      have sealing := run_seal P build session plaintext peerHybridPub draws
      rw [step_seal]
      generalize (DmSession.seal P build plaintext peerHybridPub draws).run session = result at *
      cases sealing with
      | overflow beginning => exact ⟨holds, by simpa [sentBy] using measured⟩
      | wrapFailed beginning failed => exact ⟨holds, by simpa [sentBy] using measured⟩
      | encryptFailed key failed =>
          exact ⟨(holds.advanced aead key).1, by simpa [sentBy] using measured⟩
      | @emitted keyed ratchet body key encrypted =>
          obtain ⟨after, kam, current, length⟩ := holds.advanced aead key
          refine ⟨after, fun frame found => ?_⟩
          rcases List.mem_append.mp found with earlier | last
          · exact measured frame earlier
          · obtain rfl := List.mem_singleton.mp last
            exact ⟨draws.frameNonce.property, aead.length_encrypt encrypted,
              fun early => ⟨kam, (if_pos early).trans current, length⟩, fun late => if_neg late⟩
  | «open» frame myHybridPriv =>
      have persistent : ((DmSession.open P frame myHybridPriv).run session).2.Persistent :=
        holds.persistent.open
      have opening := run_open P session frame myHybridPriv
      rw [step_open]
      generalize (DmSession.open P frame myHybridPriv).run session = result at opening persistent
      refine ⟨⟨persistent, ?_⟩, by simpa [sentBy] using measured⟩
      cases opening with
      | kamRejected carried vacant failed => exact holds.current
      | installed carried vacant unwrapped => exact holds.current
      | missing bare vacant => exact holds.current
      | known stored => exact holds.current
  | reload =>
      rw [step_reload, run_reload holds.persistent]
      exact ⟨holds, by simpa [sentBy] using measured⟩

/-- Whatever a new session goes through, what it sends is measured. -/
theorem measured_sent (aead : P.AeadCorrect) (peer : String)
    (rekeyMsgBound rekeyAgeSeconds : UInt64) (calls : List Call) :
    ∀ frame ∈ sent P build (withBounds peer rekeyMsgBound rekeyAgeSeconds) calls,
      Measured frame := by
  let start := withBounds peer rekeyMsgBound rekeyAgeSeconds
  have holds : HoldsKam start := ⟨.withBounds peer rekeyMsgBound rekeyAgeSeconds, by rintro _ ⟨⟩⟩
  have keeps : ∀ (past : List Sent) (session : DmSession) (call : Call),
      (HoldsKam session ∧ ∀ frame ∈ past, Measured frame) → True →
      HoldsKam ((machine P build).step session call).2 ∧
        ∀ frame ∈ past ++ (sentBy call ((machine P build).step session call).1
          ((machine P build).step session call).2).toList, Measured frame :=
    fun past session call both _ => both.1.step aead both.2 call
  have none : ∀ frame ∈ ([] : List Sent), Measured frame := fun _ impossible => by cases impossible
  exact (Machine.log_invariant keeps ⟨holds, none⟩ (Machine.guarded_true start calls)).2

/-- The layout of a measured frame. -/
theorem Measured.length_blob {sent : Sent} (measured : Measured sent) :
    sent.frame.blob.length =
      blobLen sent.plaintext.length (decide (sent.frame.index < kamRepeat)) := by
  have flag : (kamBlob sent.frame.kam).length =
      if decide (sent.frame.index < kamRepeat) then 1 + (4 + wrappedPayloadLen) else 1 := by
    by_cases early : sent.frame.index < kamRepeat
    · obtain ⟨kam, carried, length⟩ := measured.carries early
      rw [carried, if_pos (decide_eq_true early), kamBlob, List.length_cons, List.length_append,
        length_u32ToBe, length]
      omega
    · rw [measured.bare early, if_neg (by simpa using early)]
      rfl
  simp only [SealedDmFrame.blob, List.length_append, length_u64ToBe, length_u32ToBe,
    measured.nonce, measured.body, flag, blobLen]
  omega

end

/-- **The token of a sent frame.** It is read back as the frame, and its length tells the length
of the message, up to the rounding of base64, and whether the frame is one of the first of
its epoch, and nothing else. -/
theorem token_of_sent {P : Primitives} (aead : P.AeadCorrect) {build : Build}
    (wide : build.pointerWidth = .w64) {engine : Base64Engine} (padded : engine.Padded)
    (peer : String) (rekeyMsgBound rekeyAgeSeconds : UInt64) (calls : List Call) {frame : Sent}
    (found : frame ∈ sent P build (withBounds peer rekeyMsgBound rekeyAgeSeconds) calls)
    (short : frame.plaintext.length + tagLen < 2 ^ 32) :
    SealedDmFrame.fromToken build engine (frame.frame.toToken engine) = .ok frame.frame ∧
      (utf8 (frame.frame.toToken engine)).length =
        tokenLen frame.plaintext.length (decide (frame.frame.index < kamRepeat)) := by
  have measured := measured_sent aead peer rekeyMsgBound rekeyAgeSeconds calls frame found
  constructor
  · refine fromToken_toToken wide padded.canonical ?_ ?_ ?_
    · rw [measured.nonce]
      decide
    · rw [measured.body]
      exact short
    · intro kam carried
      have early : frame.frame.index < kamRepeat := by
        by_contra late
        rw [measured.bare late] at carried
        cases carried
      obtain ⟨kam', carries, length⟩ := measured.carries early
      rw [carries] at carried
      cases carried
      rw [length]
      decide
  · rw [SealedDmFrame.toToken, utf8_append, List.length_append, padded.length_encode,
      measured.length_blob, tokenLen]

/-- The tokens of the first frame of an epoch, which carries the KAM, and of the fourth, which
does not. -/
theorem token_of_sent_first_and_fourth :
    let build : Build := ⟨true, .w64⟩
    let engine := Base64.padded Base64.standard
    let pub := (hybridKeypair (markedZero 1) (sampleKeys 1)).publicKey
    let sent := DmSession.sent (markedZero 1) build (withBounds "peer" 50 604800)
      (sealsTo pub fourMessages)
    (∃ first ∈ sent, first.frame.kam ≠ none ∧
      SealedDmFrame.fromToken build engine (first.frame.toToken engine) = .ok first.frame ∧
      (utf8 (first.frame.toToken engine)).length = 1658) ∧
    ∃ fourth ∈ sent, fourth.frame.kam = none ∧ fourth.plaintext = [7, 8, 9] ∧
      SealedDmFrame.fromToken build engine (fourth.frame.toToken engine) = .ok fourth.frame ∧
      (utf8 (fourth.frame.toToken engine)).length = 82 := by
  intro build engine pub sent
  have young : ∀ message ∈ fourMessages.tail, message.2.now - (sampleDraws 1).startedAt <
      ((withBounds "peer" 50 604800).rekeyAgeSeconds.toNat : Rat) :=
    young_sampleDraws (by decide) (by simp [fourMessages, sampleDraws]) 1
  obtain ⟨kam, -, ⟨body, first⟩, later⟩ := @exists_sent_epoch _ build _ 0 (sampleKeys 1)
    (due_withBounds build "peer" 50 604800) ([], sampleDraws 1) fourMessages.tail (by decide) young
    (exists_marked (frameEncryption (sampleDraws 1).epochSecret 0 0 (sampleDraws 1).frameNonce []))
  obtain ⟨body', fourth⟩ := later 2 ([7, 8, 9], sampleDraws 4) rfl
  have wide : build.pointerWidth = .w64 := rfl
  have padded := Base64.padded_padded Base64.standard
  have firstShort : ([] : Bytes).length + tagLen < 2 ^ 32 := by decide
  have fourthShort : ([7, 8, 9] : Bytes).length + tagLen < 2 ^ 32 := by decide
  have firstSize : tokenLen 0 (decide ((0 : UInt64) < kamRepeat)) = 1658 := by decide
  have fourthSize : tokenLen 3 (decide ((3 : UInt64) < kamRepeat)) = 82 := by decide
  obtain ⟨firstReads, firstLength⟩ :=
    token_of_sent aeadCorrect wide padded "peer" 50 604800 _ first firstShort
  obtain ⟨fourthReads, fourthLength⟩ :=
    token_of_sent aeadCorrect wide padded "peer" 50 604800 _ fourth fourthShort
  exact ⟨⟨_, first, by simp [firstSent, firstFrame], firstReads, firstLength.trans firstSize⟩,
    _, fourth, rfl, rfl, fourthReads, fourthLength.trans fourthSize⟩

end DmSession
end SkPqc

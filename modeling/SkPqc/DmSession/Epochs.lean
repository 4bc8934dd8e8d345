import SkPqc.DmSession.FirstFrames

/-!
# Epochs are independent

Two runs of a sender that draw the same, but for the secret of one epoch, send the
same frames outside of that epoch. Inside of it they send frames of the same shape:
the same slot, the same nonce, and a KAM in the same places.

The sessions of the two runs are twins (`Twins`): they differ in nothing but what
was made from the secret of that epoch. No decision of the sender reads a secret,
and a fresh epoch reads nothing of the one before, so a call keeps twins twins
(`Twins.seal`).

That encryption fails for no other reason than the lengths of its inputs is an
assumption about the AEAD (`Primitives.EncryptsByLength`).
-/

set_option autoImplicit false

namespace SkPqc

open Library Kem HybridBox Ratchet Idealised

/-- Whether encryption succeeds depends on the lengths of the data and the message. -/
def Primitives.EncryptsByLength (P : Primitives) : Prop :=
  ∀ key nonce aad msg key' nonce' aad' msg', aad.length = aad'.length →
    msg.length = msg'.length →
      (P.aeadEncrypt key nonce aad msg).isSome = (P.aeadEncrypt key' nonce' aad' msg').isSome

/-- Two encryptions of one length both succeed, or both fail. -/
theorem Primitives.EncryptsByLength.cases {P : Primitives} (lengths : P.EncryptsByLength)
    (key key' : Bytes) (nonce : FixedBytes 12) (aad : Bytes) {msg msg' : Bytes}
    (same : msg.length = msg'.length) :
    (∃ body body', P.aeadEncrypt key nonce aad msg = some body ∧
        P.aeadEncrypt key' nonce aad msg' = some body') ∨
      P.aeadEncrypt key nonce aad msg = none ∧ P.aeadEncrypt key' nonce aad msg' = none := by
  have both := lengths key nonce aad msg key' nonce aad msg' rfl same
  cases encrypted : P.aeadEncrypt key nonce aad msg with
  | none =>
      rw [encrypted] at both
      exact .inr ⟨rfl, Option.not_isSome_iff_eq_none.mp (by simp [← both])⟩
  | some body =>
      rw [encrypted] at both
      obtain ⟨body', encrypted'⟩ := Option.isSome_iff_exists.mp both.symm
      exact .inl ⟨body, body', rfl, encrypted'⟩

namespace DmSession

/-! ## Twins -/

/-- The ratchets differ at most in the secret, and only in the epoch `e`. -/
structure RatchetTwins (e : UInt64) (left right : DmRatchet) : Prop where
  shape : ∃ secret, right = { left with epochSecret := secret }
  other : left.epoch ≠ e → right = left

/-- The sessions differ at most in what was made from the secret of the epoch `e`. -/
structure Twins (e : UInt64) (left right : DmSession) : Prop where
  msgBound : left.rekeyMsgBound = right.rekeyMsgBound
  ageBound : left.rekeyAgeSeconds = right.rekeyAgeSeconds
  secrets : ∀ epoch, epoch ≠ e → left.epochSecrets[epoch]? = right.epochSecrets[epoch]?
  ratchet : Option.Rel (RatchetTwins e) left.ratchet right.ratchet
  kamPresence : left.currentKam.isSome = right.currentKam.isSome
  kam : ∀ ratchet, left.ratchet = some ratchet → ratchet.epoch ≠ e →
    left.currentKam = right.currentKam

/-- The frames differ at most in the body and the KAM, and only in the epoch `e`. -/
structure FramesAlike (e : UInt64) (left right : SealedDmFrame) : Prop where
  epoch : left.epoch = right.epoch
  index : left.index = right.index
  nonce : left.nonce = right.nonce
  kamPresence : left.kam.isSome = right.kam.isSome
  other : left.epoch ≠ e → left = right

/-- Both calls sealed a frame, or both failed alike. -/
inductive SealedAlike (e : UInt64) :
    Outcome DmSessionError SealedDmFrame → Outcome DmSessionError SealedDmFrame → Prop
  | ok {left right : SealedDmFrame} (alike : FramesAlike e left right) :
      SealedAlike e (.ok left) (.ok right)
  | error (reason : DmSessionError) : SealedAlike e (.error reason) (.error reason)
  | panic : SealedAlike e .panic .panic

/-- Answers to two calls of `seal`. -/
inductive AnswersAlike (e : UInt64) : Answer → Answer → Prop
  | sealed {left right : Outcome DmSessionError SealedDmFrame} (alike : SealedAlike e left right) :
      AnswersAlike e (.sealed left) (.sealed right)

/-- Two calls of `seal` that differ at most in the secret drawn, and only when the
epoch `e` begins, or no epoch does. -/
inductive SameButSecret (build : Build) (e : UInt64) (session : DmSession) : Call → Call → Prop
  | «seal» {plaintext peerHybridPub : Bytes} {draws : SealDraws} {secret : EpochSecret}
      (drawn : ∀ epoch, (session.beginAt build draws.now : Outcome DmSessionError _) =
        .ok (some epoch) → epoch ≠ e → secret = draws.epochSecret) :
      SameButSecret build e session (.seal plaintext peerHybridPub draws)
        (.seal plaintext peerHybridPub { draws with epochSecret := secret })

section Twins

variable {P : Primitives} {build : Build} {e : UInt64} {left right : DmSession}

theorem RatchetTwins.refl (ratchet : DmRatchet) : RatchetTwins e ratchet ratchet where
  shape := ⟨ratchet.epochSecret, rfl⟩
  other _ := rfl

theorem Twins.refl (session : DmSession) : Twins e session session where
  msgBound := rfl
  ageBound := rfl
  secrets _ _ := rfl
  ratchet := by
    cases session.ratchet with
    | none => exact .none
    | some ratchet => exact .some (.refl ratchet)
  kamPresence := rfl
  kam _ _ _ := rfl

/-- No decision to begin an epoch reads a secret. -/
theorem Twins.beginAt {ε : Type} (twins : Twins e left right) (now : Rat) :
    (left.beginAt build now : Outcome ε (Option UInt64)) = right.beginAt build now := by
  have ratchets := twins.ratchet
  unfold DmSession.beginAt
  cases hasLeft : left.ratchet with
  | none =>
      rw [hasLeft] at ratchets
      cases hasRight : right.ratchet with
      | none => rfl
      | some ratchet =>
          rw [hasRight] at ratchets
          cases ratchets
  | some ratchet =>
      rw [hasLeft] at ratchets
      cases hasRight : right.ratchet with
      | none =>
          rw [hasRight] at ratchets
          cases ratchets
      | some ratchet' =>
          rw [hasRight] at ratchets
          cases ratchets with
          | some twin =>
              obtain ⟨secret, rfl⟩ := twin.shape
              rfl

/-- Wrapping reads no more of a secret than its length. -/
theorem wrapDmEpochSecret_shape (lengths : P.EncryptsByLength) (secret secret' : EpochSecret)
    (peerHybridPub : Bytes) (draws : BoxDraws) :
    (∃ kam kam', wrapDmEpochSecret P secret.val peerHybridPub draws = .ok kam ∧
        wrapDmEpochSecret P secret'.val peerHybridPub draws = .ok kam') ∨
      ∃ reason, wrapDmEpochSecret P secret.val peerHybridPub draws = .error reason ∧
        wrapDmEpochSecret P secret'.val peerHybridPub draws = .error reason := by
  rw [wrapDmEpochSecret_secret, wrapDmEpochSecret_secret]
  by_cases length : peerHybridPub.length = publicKeyLen
  · rw [if_neg (not_not.mpr length), if_neg (not_not.mpr length), sealBox, sealBox]
    cases encapsulated : (hybridEncap P peerHybridPub draws.kem).mapError BoxError.kem with
    | panic => exact absurd (Outcome.mapError_eq_panic.mp encapsulated) (hybridEncap_ne_panic _ _)
    | error reason => exact .inr ⟨_, rfl, rfl⟩
    | ok pair =>
        simp only [Outcome.ok_bind]
        let key := boxKey P infoDmWrap pair.2
        rcases lengths.cases key key draws.nonce []
          (secret.property.trans secret'.property.symm) with
          ⟨body, body', encrypted, encrypted'⟩ | ⟨failed, failed'⟩
        · rw [encrypted, encrypted']
          exact .inl ⟨_, _, rfl, rfl⟩
        · rw [failed, failed']
          exact .inr ⟨_, rfl, rfl⟩
  · rw [if_pos length, if_pos length]
    exact .inr ⟨_, rfl, rfl⟩

/-- Twins begin an epoch as twins, with one secret unless it is the epoch `e`. -/
theorem Twins.begun (twins : Twins e left right) (epoch : UInt64) (secret secret' : EpochSecret)
    {kam kam' : Bytes} (startedAt : Rat)
    (other : epoch ≠ e → secret' = secret ∧ kam' = kam) :
    Twins e (left.begun epoch secret kam startedAt) (right.begun epoch secret' kam' startedAt) where
  msgBound := twins.msgBound
  ageBound := twins.ageBound
  secrets another different := by
    by_cases same : epoch = another
    · subst same
      rw [getElem?_begun_self, getElem?_begun_self, (other different).1]
    · rw [getElem?_begun_of_ne _ _ _ _ same, getElem?_begun_of_ne _ _ _ _ same]
      exact twins.secrets another different
  ratchet := by
    refine .some ⟨⟨secret', ?_⟩, fun different => ?_⟩
    · rw [twins.msgBound, twins.ageBound]
      rfl
    · rw [(other different).1, twins.msgBound, twins.ageBound]
  kamPresence := rfl
  kam ratchet holds different := by
    cases holds
    change some kam = some kam'
    rw [(other different).2]

/-- Ratchets that advance together stay twins. -/
theorem Twins.advanced (twins : Twins e left right) {ratchet ratchet' : DmRatchet}
    (holds : left.ratchet = some ratchet) (twin : RatchetTwins e ratchet ratchet') :
    Twins e (left.advanced ratchet) (right.advanced ratchet') where
  msgBound := twins.msgBound
  ageBound := twins.ageBound
  secrets := twins.secrets
  ratchet := by
    obtain ⟨secret, rfl⟩ := twin.shape
    refine .some ⟨⟨secret, rfl⟩, fun different => ?_⟩
    have sameSecret : secret = ratchet.epochSecret :=
      congrArg DmRatchet.epochSecret (twin.other different)
    rw [sameSecret]
  kamPresence := twins.kamPresence
  kam found advanced different := by
    cases advanced
    exact twins.kam ratchet holds different

/-- Twins send their next frame alike. -/
theorem Twins.sealNext (lengths : P.EncryptsByLength) (twins : Twins e left right)
    (plaintext : Bytes) (draws draws' : SealDraws)
    (sameNonce : draws'.frameNonce = draws.frameNonce)
    {ratchet : DmRatchet} (holds : left.ratchet = some ratchet)
    (room : ratchet.messageIndex.toNat + 1 < 2 ^ 64) :
    SealedAlike e ((sealNext P build plaintext draws).run left).1
        ((sealNext P build plaintext draws').run right).1 ∧
      Twins e ((sealNext P build plaintext draws).run left).2
        ((sealNext P build plaintext draws').run right).2 := by
  have ratchets := twins.ratchet
  rw [holds] at ratchets
  cases holds' : right.ratchet with
  | none =>
      rw [holds'] at ratchets
      cases ratchets
  | some ratchet' =>
      rw [holds'] at ratchets
      cases ratchets with
      | some twin =>
          obtain ⟨secret, rfl⟩ := twin.shape
          rw [run_sealNext plaintext draws holds room, run_sealNext plaintext draws' holds' room,
            sameNonce]
          refine ⟨?_, twins.advanced holds twin⟩
          rcases lengths.cases (messageKey P ratchet.epochSecret ratchet.epoch ratchet.messageIndex)
            (messageKey P secret ratchet.epoch ratchet.messageIndex) draws.frameNonce
            (frameAad ratchet.epoch ratchet.messageIndex) (Eq.refl plaintext.length) with
            ⟨body, body', encrypted, encrypted'⟩ | ⟨failed, failed'⟩
          · rw [encrypted, encrypted']
            refine .ok ⟨rfl, rfl, rfl, ?_, fun different => ?_⟩
            · dsimp only
              split
              · exact twins.kamPresence
              · rfl
            · have sameSecret : secret = ratchet.epochSecret :=
                congrArg DmRatchet.epochSecret (twin.other different)
              rw [sameSecret, encrypted] at encrypted'
              rw [Option.some.inj encrypted', twins.kam ratchet holds different]
          · rw [failed, failed']
            exact .error _

/-- **Twins seal alike, and stay twins.** -/
theorem Twins.seal (lengths : P.EncryptsByLength) (twins : Twins e left right)
    (plaintext peerHybridPub : Bytes) (draws : SealDraws) {secret : EpochSecret}
    (drawn : ∀ epoch, (left.beginAt build draws.now : Outcome DmSessionError _) =
      .ok (some epoch) → epoch ≠ e → secret = draws.epochSecret) :
    let draws' := { draws with epochSecret := secret }
    SealedAlike e ((DmSession.seal P build plaintext peerHybridPub draws).run left).1
        ((DmSession.seal P build plaintext peerHybridPub draws').run right).1 ∧
      Twins e ((DmSession.seal P build plaintext peerHybridPub draws).run left).2
        ((DmSession.seal P build plaintext peerHybridPub draws').run right).2 := by
  intro draws'
  cases beginning : (left.beginAt build draws.now : Outcome DmSessionError _) with
  | error reason => exact absurd beginning beginAt_ne_error
  | panic =>
      have beginning' : (right.beginAt build draws'.now : Outcome DmSessionError _) = .panic :=
        (twins.beginAt draws.now).symm.trans beginning
      rw [run_seal_of_overflow plaintext peerHybridPub draws beginning,
        run_seal_of_overflow plaintext peerHybridPub draws' beginning']
      exact ⟨.panic, twins⟩
  | ok begins =>
      have beginning' : (right.beginAt build draws'.now : Outcome DmSessionError _) = .ok begins :=
        (twins.beginAt draws.now).symm.trans beginning
      cases begins with
      | none =>
          obtain ⟨ratchet, holds, young⟩ := beginAt_eq_none beginning
          have key : Keyed P build left peerHybridPub draws left ratchet := .current holds young
          rw [run_seal_of_current plaintext peerHybridPub draws beginning,
            run_seal_of_current plaintext peerHybridPub draws' beginning']
          exact twins.sealNext lengths plaintext draws draws' rfl holds key.room
      | some epoch =>
          rw [run_seal_of_begin plaintext peerHybridPub draws beginning,
            run_seal_of_begin plaintext peerHybridPub draws' beginning']
          rcases wrapDmEpochSecret_shape lengths draws.epochSecret secret peerHybridPub
            draws.wrap with
            ⟨kam, kam', wrapped, wrapped'⟩ | ⟨reason, failed, failed'⟩
          · have key : Keyed P build left peerHybridPub draws _ _ := .fresh beginning wrapped
            have other : epoch ≠ e → secret = draws.epochSecret ∧ kam' = kam := by
              intro different
              obtain rfl := drawn epoch beginning different
              rw [wrapped] at wrapped'
              exact ⟨rfl, (Outcome.ok.inj wrapped').symm⟩
            have begun := twins.begun epoch draws.epochSecret secret draws.startedAt other
            rw [wrapped, wrapped']
            exact begun.sealNext lengths plaintext draws draws' rfl key.ratchet_eq key.room
          · rw [failed, failed']
            exact ⟨.error _, twins⟩

end Twins

/-! ## Two runs -/

/-- **Epochs are independent.** Two runs of a sender that draw the same but for the
secret of one epoch send the same frames outside of it, and frames of the same shape
inside. -/
theorem epochs_independent {P : Primitives} (lengths : P.EncryptsByLength) (build : Build)
    (e : UInt64) (session : DmSession) {calls calls' : List Call}
    (draws : (machine P build).Parallel (SameButSecret build e) session calls calls') :
    List.Forall₂ (AnswersAlike e) ((machine P build).outputs session calls)
      ((machine P build).outputs session calls') := by
  have start : Twins e session session := .refl session
  refine Machine.forall₂_outputs ?_ start draws
  intro left right call call' twins pair
  cases pair with
  | «seal» drawn =>
      obtain ⟨answer, next⟩ := twins.seal lengths _ _ _ drawn
      exact ⟨.sealed answer, next⟩

/-- Where every encryption has a tag, none fails. -/
theorem encryptsByLength_marked (special : Encryption) :
    (primitives (marked special)).EncryptsByLength := by
  have succeeds : ∀ key nonce aad msg,
      ((primitives (marked special)).aeadEncrypt key nonce aad msg).isSome = true := by
    intro key nonce aad msg
    obtain ⟨tag, tagged⟩ := exists_marked special ⟨key, nonce, aad, msg⟩
    rw [aeadEncrypt_eq_some.mpr ⟨tag, tagged, rfl⟩]
    rfl
  intro key nonce aad msg key' nonce' aad' msg' _ _
  rw [succeeds, succeeds]

/-- The secret of epoch zero changes, and the frame of epoch one does not. -/
theorem epochs_independent_of_first :
    let P := markedZero 1
    let build : Build := ⟨true, .w64⟩
    let pub := (hybridKeypair P (sampleKeys 1)).publicKey
    let session := withBounds "peer" 1 604800
    let changed := { sampleDraws 1 with epochSecret := .fill 32 9 }
    List.Forall₂ (AnswersAlike 0)
      ((machine P build).outputs session
        [.seal [7] pub (sampleDraws 1), .seal [8] pub (sampleDraws 2)])
      ((machine P build).outputs session
        [.seal [7] pub changed, .seal [8] pub (sampleDraws 2)]) := by
  intro P build pub session changed
  refine epochs_independent (encryptsByLength_marked _) build 0 session
    (.cons (.seal ?_) (.cons (.seal fun _ _ _ => rfl) .nil))
  intro epoch beginning different
  cases beginning
  exact absurd rfl different

end DmSession
end SkPqc

import SkPqc.DmSession.FirstFrames
import Mathlib.Data.List.Induction

/-!
# Delivery over a lossy network

The frames of one sender reach a fresh receiver in any order, some of them never
and some more than once. The receiver's store then holds exactly the secrets of
the epochs of which a frame with a KAM arrived (`Received`), so a frame opens
exactly when it carries a KAM itself or one of its epoch came before
(`delivery`).
-/

set_option autoImplicit false

namespace SkPqc

open Library Kem Ratchet Idealised

namespace DmSession

/-- The store holds the secrets of the epochs whose KAM arrived, and no other. -/
def Received (arrived : List Sent) (session : DmSession) : Prop :=
  ∀ (epoch : UInt64) (secret : EpochSecret), session.epochSecrets[epoch]? = some secret ↔
    ∃ frame ∈ arrived, frame.frame.epoch = epoch ∧ frame.frame.index < kamRepeat ∧
      frame.secret = secret

/-- A frame of the epoch that carries the KAM is among those that arrived. -/
def KamArrived (arrived : List Sent) (epoch : UInt64) : Prop :=
  ∃ earlier ∈ arrived, earlier.frame.epoch = epoch ∧ earlier.frame.index < kamRepeat

instance (arrived : List Sent) (epoch : UInt64) : Decidable (KamArrived arrived epoch) :=
  List.decidableBEx
    (fun earlier : Sent => earlier.frame.epoch = epoch ∧ earlier.frame.index < kamRepeat) arrived

/-- What opening a frame should return. -/
def delivered (arrived : List Sent) (frame : Sent) : Outcome DmSessionError Bytes :=
  if frame.frame.index < kamRepeat ∨ KamArrived arrived frame.frame.epoch then
    .ok frame.plaintext
  else .error (.missingEpochSecret frame.frame.epoch)

section

variable {P : Primitives} {build : Build} {keys : KeypairDraws} {sent arrived : List Sent}
  {sender receiver : DmSession}

/-- Frames of one epoch have one secret. -/
theorem Announces.secret_eq (announces : Announces P keys sent sender) {first second : Sent}
    (found : first ∈ sent) (found' : second ∈ sent)
    (same : first.frame.epoch = second.frame.epoch) : first.secret = second.secret := by
  have stored := announces.stored first found
  rw [same, announces.stored second found'] at stored
  exact (Option.some.inj stored).symm

theorem Received.withBounds (peer : String) (rekeyMsgBound rekeyAgeSeconds : UInt64) :
    Received [] (withBounds peer rekeyMsgBound rekeyAgeSeconds) := by
  intro epoch secret
  simp [DmSession.withBounds]

/-- A frame whose KAM is already known, or that has none, adds nothing to the
store. -/
theorem Received.append_old (received : Received arrived receiver) {frame : Sent}
    (old : frame.frame.index < kamRepeat →
      receiver.epochSecrets[frame.frame.epoch]? = some frame.secret) :
    Received (arrived ++ [frame]) receiver := by
  intro epoch secret
  constructor
  · intro stored
    obtain ⟨earlier, found, rest⟩ := (received epoch secret).mp stored
    exact ⟨earlier, List.mem_append_left _ found, rest⟩
  · rintro ⟨earlier, found, sameEpoch, early, sameSecret⟩
    rcases List.mem_append.mp found with before | new
    · exact (received epoch secret).mpr ⟨earlier, before, sameEpoch, early, sameSecret⟩
    · rw [List.mem_singleton.mp new] at sameEpoch early sameSecret
      rw [← sameEpoch, old early, sameSecret]

/-- A frame that carries a KAM for an unknown epoch adds its secret. -/
theorem Received.append_new (received : Received arrived receiver) {frame : Sent}
    (early : frame.frame.index < kamRepeat)
    (vacant : receiver.epochSecrets[frame.frame.epoch]? = none) :
    Received (arrived ++ [frame]) (receiver.installed frame.frame.epoch frame.secret) := by
  intro epoch secret
  by_cases same : frame.frame.epoch = epoch
  · subst same
    rw [getElem?_installed_self]
    constructor
    · intro stored
      exact ⟨frame, by simp, rfl, early, Option.some.inj stored⟩
    · rintro ⟨earlier, found, sameEpoch, earlier', sameSecret⟩
      rcases List.mem_append.mp found with before | new
      · -- An earlier frame of this epoch would have filled the slot.
        have stored := (received _ _).mpr ⟨earlier, before, sameEpoch, earlier', sameSecret⟩
        rw [vacant] at stored
        cases stored
      · rw [← sameSecret, List.mem_singleton.mp new]
  · rw [getElem?_installed_of_ne _ _ same, received]
    constructor
    · rintro ⟨earlier, found, rest⟩
      exact ⟨earlier, List.mem_append_left _ found, rest⟩
    · rintro ⟨earlier, found, sameEpoch, rest⟩
      rcases List.mem_append.mp found with before | new
      · exact ⟨earlier, before, sameEpoch, rest⟩
      · rw [List.mem_singleton.mp new] at sameEpoch
        exact absurd sameEpoch same

/-- **One delivery**: what opening returns, and what the store holds after. -/
theorem Received.open (aead : P.AeadCorrect) (announces : Announces P keys sent sender)
    (arrivedSent : ∀ frame ∈ arrived, frame ∈ sent) (received : Received arrived receiver)
    {frame : Sent} (frameSent : frame ∈ sent) :
    ((DmSession.open P frame.frame (hybridKeypair P keys).privateKey).run receiver).1 =
        delivered arrived frame ∧
      Received (arrived ++ [frame])
        ((DmSession.open P frame.frame (hybridKeypair P keys).privateKey).run receiver).2 := by
  have honest := announces.honest frame frameSent
  have opening := run_open P receiver frame.frame (hybridKeypair P keys).privateKey
  have notArrived : receiver.epochSecrets[frame.frame.epoch]? = none →
      ¬ KamArrived arrived frame.frame.epoch := by
    rintro vacant ⟨earlier, found, sameEpoch, early⟩
    have stored := (received _ _).mpr ⟨earlier, found, sameEpoch, early, rfl⟩
    rw [vacant] at stored
    cases stored
  generalize (DmSession.open P frame.frame (hybridKeypair P keys).privateKey).run receiver =
    result at opening
  cases opening with
  | kamRejected carried vacant failed =>
      rw [honest.unwrap_kam carried] at failed
      cases failed
  | installed carried vacant unwrapped =>
      have early := honest.early_of_kam carried
      rw [honest.unwrap_kam carried] at unwrapped
      cases unwrapped
      exact ⟨(honest.openBody aead).trans (if_pos (.inl early)).symm,
        received.append_new early vacant⟩
  | missing bare vacant =>
      have late : ¬ frame.frame.index < kamRepeat := by
        intro early
        obtain ⟨kam, carries, _⟩ := honest.carries early
        rw [bare] at carries
        cases carries
      exact ⟨(if_neg (not_or.mpr ⟨late, notArrived vacant⟩)).symm,
        received.append_old fun early => absurd early late⟩
  | known stored =>
      obtain ⟨earlier, found, sameEpoch, early, rfl⟩ := (received _ _).mp stored
      have sameSecret := announces.secret_eq (arrivedSent earlier found) frameSent sameEpoch
      rw [sameSecret] at stored ⊢
      exact ⟨(honest.openBody aead).trans (if_pos (.inr ⟨earlier, found, sameEpoch, early⟩)).symm,
        received.append_old fun _ => stored⟩

/-- After any deliveries the store holds what arrived. -/
theorem received_final (aead : P.AeadCorrect) (announces : Announces P keys sent sender)
    (start : Received [] receiver) (arrivedSent : ∀ frame ∈ arrived, frame ∈ sent) :
    Received arrived ((machine P build).final receiver
      (opensWith (hybridKeypair P keys).privateKey (arrived.map Sent.frame))) := by
  induction arrived using List.reverseRecOn with
  | nil => exact start
  | append_singleton arrived frame ih =>
      have before := ih fun other found => arrivedSent other (List.mem_append_left _ found)
      have last := before.open aead announces
        (fun other found => arrivedSent other (List.mem_append_left _ found))
        (arrivedSent frame (by simp))
      rw [opensWith, List.map_append, List.map_append, Machine.final_append]
      exact last.2

/-- **Loss- and reorder-tolerant delivery.** -/
theorem delivery (kem : P.KemCorrect) (aead : P.AeadCorrect) (build : Build) (keys : KeypairDraws)
    (senderPeer receiverPeer : String)
    (rekeyMsgBound rekeyAgeSeconds receiverMsgBound receiverAgeSeconds : UInt64)
    {messages : List (Bytes × SealDraws)}
    (counted : build.overflowChecks = true ∨ messages.length ≤ 2 ^ 64)
    {arrived : List Sent} {frame : Sent} :
    let sent := DmSession.sent P build (withBounds senderPeer rekeyMsgBound rekeyAgeSeconds)
      (sealsTo (hybridKeypair P keys).publicKey messages)
    let receiver := (machine P build).final
      (withBounds receiverPeer receiverMsgBound receiverAgeSeconds)
      (opensWith (hybridKeypair P keys).privateKey (arrived.map Sent.frame))
    (∀ earlier ∈ arrived, earlier ∈ sent) → frame ∈ sent →
      ((DmSession.open P frame.frame (hybridKeypair P keys).privateKey).run receiver).1 =
        if frame.frame.index < kamRepeat ∨ KamArrived arrived frame.frame.epoch then
          .ok frame.plaintext
        else .error (.missingEpochSecret frame.frame.epoch) := by
  intro sent receiver arrivedSent frameSent
  have announces : Announces P keys sent _ :=
    announces_sent kem aead senderPeer rekeyMsgBound rekeyAgeSeconds counted
  have received : Received arrived receiver :=
    received_final aead announces
      (Received.withBounds receiverPeer receiverMsgBound receiverAgeSeconds) arrivedSent
  exact (received.open aead announces arrivedSent frameSent).1

end

/-! ## Frames of two epochs -/

/-- The fourth frame of an epoch carries no KAM. With the first frame of the next epoch it does
not open, and once a first frame of its own has arrived it does. -/
theorem delivery_two_epochs :
    let build : Build := ⟨true, .w64⟩
    let keys := hybridKeypair (markedZero 1) (sampleKeys 1)
    let sent := DmSession.sent (markedZero 1) build (withBounds "receiver" 4 604800)
      (sealsTo keys.publicKey (fourMessages ++ [([1], sampleDraws 5)]))
    ∃ first ∈ sent, ∃ fourth ∈ sent, ∃ next ∈ sent,
      next.frame.epoch = 1 ∧ fourth.frame.epoch = 0 ∧ fourth.frame.kam = none ∧
      ((DmSession.open (markedZero 1) fourth.frame keys.privateKey).run
        ((machine (markedZero 1) build).final (withBounds "sender" 50 604800)
          (opensWith keys.privateKey ([next].map Sent.frame)))).1 =
        .error (.missingEpochSecret 0) ∧
      ((DmSession.open (markedZero 1) fourth.frame keys.privateKey).run
        ((machine (markedZero 1) build).final (withBounds "sender" 50 604800)
          (opensWith keys.privateKey ([next, first].map Sent.frame)))).1 = .ok [7, 8, 9] := by
  intro build keys sent
  have young : ∀ message ∈ fourMessages.tail, message.2.now - (sampleDraws 1).startedAt <
      ((withBounds "receiver" 4 604800).rekeyAgeSeconds.toNat : Rat) :=
    young_sampleDraws (by decide) (by simp [fourMessages, sampleDraws]) 1
  obtain ⟨kam, final, ⟨body, first⟩, later⟩ := @exists_sent_epoch _ build _ 0 (sampleKeys 1)
    (due_withBounds build "receiver" 4 604800) ([], sampleDraws 1) fourMessages.tail (by decide)
    young
    (exists_marked (frameEncryption (sampleDraws 1).epochSecret 0 0 (sampleDraws 1).frameNonce []))
  obtain ⟨body', fourth⟩ := later 2 ([7, 8, 9], sampleDraws 4) rfl
  -- The message bound is reached, so the fifth message begins the next epoch.
  have due : Due build ((withBounds "receiver" 4 604800).afterFrames 0 (sampleDraws 1) kam
      (1 + UInt64.ofNat fourMessages.tail.length)) (0 + 1) :=
    due_afterFrames (by decide) fun _ => by decide
  obtain ⟨kam', body'', step, -⟩ := exists_firstFrame_marked 1 due [1] (sampleKeys 1)
    (sampleDraws 5)
  let nextSent := firstSent (0 + 1) [1] (sampleDraws 5) kam' body''
  have sentEq : sent = DmSession.sent (markedZero 1) build (withBounds "receiver" 4 604800)
      (sealsTo keys.publicKey fourMessages) ++ [nextSent] := by
    have appended : sealsTo keys.publicKey (fourMessages ++ [([1], sampleDraws 5)]) =
        sealsTo keys.publicKey fourMessages ++ [.seal [1] keys.publicKey (sampleDraws 5)] :=
      List.map_append
    have last : (machine (markedZero 1) build).final (withBounds "receiver" 4 604800)
        (sealsTo keys.publicKey fourMessages) = _ := final
    simp only [sent, DmSession.sent, appended]
    rw [Machine.log_append, last, Machine.log_cons, step]
    rfl
  have firstFound : firstSent 0 [] (sampleDraws 1) kam body ∈ sent := by
    rw [sentEq]
    exact List.mem_append_left _ first
  have fourthFound : laterSent 0 3 (sampleDraws 1).epochSecret [7, 8, 9] (sampleDraws 4) kam
      body' ∈ sent := by
    rw [sentEq]
    exact List.mem_append_left _ fourth
  have nextFound : nextSent ∈ sent := by
    rw [sentEq]
    exact List.mem_append_right _ List.mem_cons_self
  have opens : ∀ arrived : List Sent, (∀ earlier ∈ arrived, earlier ∈ sent) → _ :=
    fun arrived arrivedSent => delivery kemCorrect aeadCorrect build (sampleKeys 1) "receiver"
      "sender" 4 604800 50 604800 (.inl rfl) arrivedSent fourthFound
  refine ⟨_, firstFound, _, fourthFound, _, nextFound, rfl, rfl, rfl, ?_, ?_⟩
  · refine (opens [nextSent] (by simpa using nextFound)).trans (if_neg ?_)
    rintro (early | ⟨earlier, found, sameEpoch, -⟩)
    · exact absurd early (show ¬ (3 : UInt64) < kamRepeat by decide)
    · obtain rfl := List.mem_singleton.mp found
      exact absurd sameEpoch (show ¬ (0 + 1 : UInt64) = 0 by decide)
  · refine (opens [nextSent, firstSent 0 [] (sampleDraws 1) kam body]
      (by simpa using ⟨nextFound, firstFound⟩)).trans (if_pos (.inr ?_))
    exact ⟨_, List.mem_cons_of_mem _ List.mem_cons_self, rfl,
      show (0 : UInt64) < kamRepeat by decide⟩

/-! ## When the epoch number wraps -/

/-- A message in every epoch up to a count, and one more. -/
def roundTrip (count : Nat) : List (Bytes × SealDraws) :=
  ([], sampleDraws 1) :: (List.replicate count ([], sampleDraws 1) ++ [([], sampleDraws 2)])

/-- Epoch zero begins again after a count of messages that wraps its number, and the
frame that begins it does not open at a receiver that knows the old secret. -/
theorem exists_undelivered (count : Nat) (wraps : 1 + UInt64.ofNat count = 0) :
    let P := markedZero 2
    let build : Build := ⟨false, .w64⟩
    let keys := hybridKeypair P (sampleKeys 1)
    let sent := DmSession.sent P build (withBounds "receiver" 1 604800)
      (sealsTo keys.publicKey (roundTrip count))
    ∃ first ∈ sent, ∃ last ∈ sent, last.frame.index < kamRepeat ∧
      ((DmSession.open P last.frame keys.privateKey).run
        ((machine P build).final (withBounds "sender" 50 604800)
          (opensWith keys.privateKey [first.frame]))).1 = .error .openFailed := by
  intro P build keys sent
  have different : (sampleDraws 1).epochSecret ≠ (sampleDraws 2).epochSecret := by decide
  -- The first epoch, and the session after it.
  obtain ⟨kam, body, step, honest⟩ := exists_firstFrame_marked 2
    (due_withBounds build "receiver" 1 604800) [] (sampleKeys 1) (sampleDraws 1)
  let begun := (withBounds "receiver" 1 604800).afterFirst 0 (sampleDraws 1) kam
  let repeats := sealsTo keys.publicKey (List.replicate count ([], sampleDraws 1))
  have eager : begun.rekeyMsgBound ≤ 1 := by
    change (1 : UInt64) ≤ 1
    decide
  have due : Due build begun (0 + 1) := due_afterFirst eager fun checked => by cases checked
  -- Every message in between begins an epoch, until the number is zero again.
  have dueAgain : Due build ((machine P build).final begun repeats) 0 := by
    have later : Due build ((machine P build).final begun repeats)
        (0 + 1 + UInt64.ofNat count) := due_replicate due eager rfl (exists_marked _) count
    rwa [UInt64.zero_add, wraps] at later
  obtain ⟨kam', body', step', honest'⟩ := exists_firstFrame_marked 2 dueAgain [] (sampleKeys 1)
    (sampleDraws 2)
  let again : Call := .seal [] keys.publicKey (sampleDraws 2)
  have sentEq : sent = firstSent 0 [] (sampleDraws 1) kam body ::
      (DmSession.sent P build begun repeats ++ [firstSent 0 [] (sampleDraws 2) kam' body']) :=
    calc sent
      _ = firstSent 0 [] (sampleDraws 1) kam body ::
          (machine P build).log sentBy begun (repeats ++ [again]) := by
        simp only [sent, P, keys, DmSession.sent, roundTrip, sealsTo, List.map_cons,
          List.map_append, List.map_nil, Machine.log_cons, step]
        rfl
      _ = _ := by
        rw [Machine.log_append, Machine.log_cons, step']
        rfl
  refine ⟨firstSent 0 [] (sampleDraws 1) kam body, by simp [sentEq],
    firstSent 0 [] (sampleDraws 2) kam' body', by simp [sentEq], ?_, ?_⟩
  · change (0 : UInt64) < kamRepeat
    decide
  · have vacant : (withBounds "sender" 50 604800).epochSecrets[(0 : UInt64)]? = none := by
      simp [withBounds]
    have stored := @getElem?_open_of_kam P _ (firstFrame 0 (sampleDraws 1) kam body) kam
      keys.privateKey _ vacant rfl (honest.unwrap_kam rfl)
    exact honest'.open_of_other hkdfInjective (exact_marked honest'.encrypted) stored different _

/-- **Delivery fails** after `2 ^ 64 + 1` messages, each in an epoch of its own, when
overflow is not checked. -/
theorem delivery_fails_wrapped :
    let P := markedZero 2
    let build : Build := ⟨false, .w64⟩
    let keys := hybridKeypair P (sampleKeys 1)
    let sent := DmSession.sent P build (withBounds "receiver" 1 604800)
      (sealsTo keys.publicKey (roundTrip (2 ^ 64 - 1)))
    (P.KemCorrect ∧ P.AeadCorrect) ∧
      ∃ first ∈ sent, ∃ last ∈ sent, last.frame.index < kamRepeat ∧
        ((DmSession.open P last.frame keys.privateKey).run
          ((machine P build).final (withBounds "sender" 50 604800)
            (opensWith keys.privateKey [first.frame]))).1 ≠ .ok last.plaintext := by
  intro P build keys sent
  obtain ⟨first, foundFirst, last, foundLast, early, failed⟩ :=
    exists_undelivered (2 ^ 64 - 1) (by decide)
  refine ⟨⟨kemCorrect, aeadCorrect⟩, first, foundFirst, last, foundLast, early, ?_⟩
  intro opened
  cases failed.symm.trans opened

end DmSession
end SkPqc

import SkPqc.DmSession.Delivery
import SkPqc.DmSession.FirstFrames

/-!
# A network that edits frames

The network may recombine what the sender emitted: any epoch, index, nonce and
body, with any KAM the sender ever attached to a frame. The receiver installs
the first KAM that arrives under an epoch it does not know, before it
authenticates anything, and the wrapped secret is not tied to an epoch.

So the stores of the two sessions agree as long as every KAM that arrives under
an unknown epoch was emitted for that epoch (`Matched`), and then every honest
frame with a KAM opens (`agreement`). One KAM under the wrong epoch ends the
agreement, when the secrets of the epochs differ (`matched_of_agreement`).
-/

set_option autoImplicit false

namespace SkPqc

open Library Kem Ratchet Idealised

namespace DmSession

/-- Where the receiver has a secret, the sender has the same one. -/
def Agrees (sender receiver : DmSession) : Prop :=
  ∀ epoch : UInt64, receiver.epochSecrets[epoch]? = none ∨
    receiver.epochSecrets[epoch]? = sender.epochSecrets[epoch]?

/-- A KAM that arrives under an unknown epoch was emitted for that epoch. -/
def Matched (sent : List Sent) (receiver : DmSession) : Call → Prop
  | .open frame _ => receiver.epochSecrets[frame.epoch]? = none → ∀ kam ∈ frame.kam,
      ∃ original ∈ sent, original.frame.epoch = frame.epoch ∧ original.frame.kam = some kam
  | _ => True

section

variable {P : Primitives} {build : Build} {keys : KeypairDraws} {sent : List Sent}
  {sender receiver : DmSession}

theorem Agrees.withBounds (peer : String) (rekeyMsgBound rekeyAgeSeconds : UInt64) :
    Agrees sender (withBounds peer rekeyMsgBound rekeyAgeSeconds) := by
  intro epoch
  simp [DmSession.withBounds]

/-- Storing a secret that the sender has keeps the stores in agreement. -/
theorem Agrees.installed (agrees : Agrees sender receiver) {epoch : UInt64}
    {secret : EpochSecret} (stored : sender.epochSecrets[epoch]? = some secret) :
    Agrees sender (receiver.installed epoch secret) := by
  intro other
  by_cases same : epoch = other
  · subst same
    rw [getElem?_installed_self, stored]
    exact .inr rfl
  · rw [getElem?_installed_of_ne _ _ same]
    exact agrees other

/-- **One delivery keeps the stores in agreement, when its KAM is matched.** -/
theorem Agrees.open (announces : Announces P keys sent sender) (agrees : Agrees sender receiver)
    {frame : SealedDmFrame}
    (matched : Matched sent receiver (.open frame (hybridKeypair P keys).privateKey)) :
    Agrees sender
      ((DmSession.open P frame (hybridKeypair P keys).privateKey).run receiver).2 := by
  have opening := run_open P receiver frame (hybridKeypair P keys).privateKey
  generalize (DmSession.open P frame (hybridKeypair P keys).privateKey).run receiver =
    result at opening
  cases opening with
  | kamRejected carried vacant failed => exact agrees
  | installed carried vacant unwrapped =>
      obtain ⟨original, found, sameEpoch, sameKam⟩ := matched vacant _ carried
      have unwraps := (announces.honest original found).unwrap_kam sameKam
      rw [unwrapped] at unwraps
      cases unwraps
      rw [← sameEpoch]
      exact agrees.installed (announces.stored original found)
  | missing bare vacant => exact agrees
  | known stored => exact agrees

/-- Every run of matched deliveries leaves the stores in agreement. -/
theorem agrees_final (announces : Announces P keys sent sender)
    (start : Agrees sender receiver) {frames : List SealedDmFrame}
    (matched : (machine P build).Guarded (Matched sent) receiver
      (opensWith (hybridKeypair P keys).privateKey frames)) :
    Agrees sender ((machine P build).final receiver
      (opensWith (hybridKeypair P keys).privateKey frames)) := by
  induction frames generalizing receiver with
  | nil => exact start
  | cons frame rest ih =>
      obtain ⟨meets, later⟩ := Machine.guarded_cons.mp matched
      exact ih (start.open announces meets) later

/-- An honest frame with a KAM opens at a receiver that agrees with the
sender. -/
theorem Agrees.open_honest (aead : P.AeadCorrect) (announces : Announces P keys sent sender)
    (agrees : Agrees sender receiver) {frame : Sent} (found : frame ∈ sent)
    (carries : frame.frame.kam ≠ none) :
    ((DmSession.open P frame.frame (hybridKeypair P keys).privateKey).run receiver).1 =
      .ok frame.plaintext := by
  have honest := announces.honest frame found
  rcases agrees frame.frame.epoch with vacant | same
  · exact honest.open_of_vacant aead carries vacant
  · exact honest.open_of_stored aead (same.trans (announces.stored frame found)) _

/-- **Epoch-secret agreement under an active network.** In every run in which each
KAM that arrives under an unknown epoch was emitted for that epoch, the receiver
stores under an epoch either nothing or the secret of the sender, and every
honest frame with a KAM opens to its plaintext. -/
theorem agreement (kem : P.KemCorrect) (aead : P.AeadCorrect) (build : Build)
    (keys : KeypairDraws) (senderPeer receiverPeer : String)
    (rekeyMsgBound rekeyAgeSeconds receiverMsgBound receiverAgeSeconds : UInt64)
    {messages : List (Bytes × SealDraws)}
    (counted : build.overflowChecks = true ∨ messages.length ≤ 2 ^ 64)
    {frames : List SealedDmFrame} :
    let fresh := withBounds senderPeer rekeyMsgBound rekeyAgeSeconds
    let seals := sealsTo (hybridKeypair P keys).publicKey messages
    let sent := DmSession.sent P build fresh seals
    let sender := (machine P build).final fresh seals
    let start := withBounds receiverPeer receiverMsgBound receiverAgeSeconds
    let opens := opensWith (hybridKeypair P keys).privateKey frames
    let receiver := (machine P build).final start opens
    (machine P build).Guarded (Matched sent) start opens →
      (∀ epoch : UInt64, receiver.epochSecrets[epoch]? = none ∨
        receiver.epochSecrets[epoch]? = sender.epochSecrets[epoch]?) ∧
      ∀ frame ∈ sent, frame.frame.kam ≠ none →
        ((DmSession.open P frame.frame (hybridKeypair P keys).privateKey).run receiver).1 =
          .ok frame.plaintext := by
  intro fresh seals sent sender start opens receiver matched
  have announces : Announces P keys sent sender :=
    announces_sent kem aead senderPeer rekeyMsgBound rekeyAgeSeconds counted
  have agrees : Agrees sender receiver :=
    agrees_final announces
      (Agrees.withBounds receiverPeer receiverMsgBound receiverAgeSeconds) matched
  exact ⟨agrees, fun frame found carries => agrees.open_honest aead announces found carries⟩

/-- Frames that the sender sent are matched, in any order and any number. -/
theorem guarded_matched {arrived : List Sent} (arrivedSent : ∀ frame ∈ arrived, frame ∈ sent)
    (myHybridPriv : Bytes) :
    (machine P build).Guarded (Matched sent) receiver
      (opensWith myHybridPriv (arrived.map Sent.frame)) := by
  induction arrived generalizing receiver with
  | nil => exact .nil
  | cons frame rest ih =>
      obtain ⟨found, others⟩ := List.forall_mem_cons.mp arrivedSent
      exact .cons (fun _ kam carried => ⟨frame, found, rfl, carried⟩) (ih others)

end

/-! ## Two epochs -/

/-- Primitives that have made the first frames of two epochs. -/
def twoEpochs : Primitives :=
  primitives (logged (firstEncryptions (sampleKeys 1) 0 [] (sampleDraws 1) ++
    firstEncryptions (sampleKeys 1) 1 [] (sampleDraws 2)))

/-- A sender that re-keys at every message. -/
def eagerSender : DmSession := withBounds "receiver" 1 604800

/-- Two messages, each of which begins an epoch. -/
def twoMessages : List (Bytes × SealDraws) := [([], sampleDraws 1), ([], sampleDraws 2)]

/-- Two epochs, delivered as they were sent. -/
theorem agreement_two_epochs :
    let build : Build := ⟨true, .w64⟩
    let seals := sealsTo (hybridKeypair twoEpochs (sampleKeys 1)).publicKey twoMessages
    let sent := DmSession.sent twoEpochs build eagerSender seals
    let sender := (machine twoEpochs build).final eagerSender seals
    let receiver := (machine twoEpochs build).final (withBounds "sender" 50 604800)
      (opensWith (hybridKeypair twoEpochs (sampleKeys 1)).privateKey (sent.map Sent.frame))
    (∀ epoch : UInt64, receiver.epochSecrets[epoch]? = none ∨
        receiver.epochSecrets[epoch]? = sender.epochSecrets[epoch]?) ∧
      ∀ frame ∈ sent, frame.frame.kam ≠ none →
        ((DmSession.open twoEpochs frame.frame
          (hybridKeypair twoEpochs (sampleKeys 1)).privateKey).run receiver).1 =
            .ok frame.plaintext :=
  agreement kemCorrect aeadCorrect ⟨true, .w64⟩ (sampleKeys 1) "receiver" "sender" 1 604800 50
    604800 (.inl rfl) (guarded_matched (fun _ found => found) _)

/-- A frame of epoch zero, delivered under epoch one, brings the secret of epoch zero
there, and the stores no longer agree. -/
theorem agreement_fails_relabelled :
    let build : Build := ⟨true, .w64⟩
    let seals := sealsTo (hybridKeypair twoEpochs (sampleKeys 1)).publicKey twoMessages
    let sender := (machine twoEpochs build).final eagerSender seals
    (twoEpochs.KemCorrect ∧ twoEpochs.AeadCorrect ∧ twoEpochs.IdealAead ∧
        twoEpochs.HkdfInjective) ∧
      ∃ original ∈ DmSession.sent twoEpochs build eagerSender seals,
        let receiver := (machine twoEpochs build).final (withBounds "sender" 50 604800)
          (opensWith (hybridKeypair twoEpochs (sampleKeys 1)).privateKey
            [{ original.frame with epoch := 1 }])
        ¬ ∀ epoch : UInt64, receiver.epochSecrets[epoch]? = none ∨
          receiver.epochSecrets[epoch]? = sender.epochSecrets[epoch]? := by
  intro build seals sender
  refine ⟨⟨kemCorrect, aeadCorrect, idealAead_logged (by decide), hkdfInjective⟩, ?_⟩
  obtain ⟨kam, body, kam', body', sentEq, senderEq, honest⟩ :=
    @exists_two_firstFrames _ build eagerSender 0 (sampleKeys 1) [] (sampleDraws 1)
      (sampleDraws 2) [] (due_withBounds build "receiver" 1 604800) (by decide) (fun _ => by decide)
      (fun _ found => exists_logged found)
  have unwrapped : unwrapDmEpochSecret twoEpochs kam
      (hybridKeypair twoEpochs (sampleKeys 1)).privateKey = .ok (sampleDraws 1).epochSecret :=
    honest.unwrap_kam rfl
  refine ⟨firstSent 0 [] (sampleDraws 1) kam body, ?_, ?_⟩
  · rw [show DmSession.sent twoEpochs build eagerSender seals = _ from sentEq]
    exact List.mem_cons_self
  · intro receiver agrees
    have stored : receiver.epochSecrets[(1 : UInt64)]? = some (sampleDraws 1).epochSecret := by
      let relabelled : SealedDmFrame := { firstFrame 0 (sampleDraws 1) kam body with epoch := 1 }
      have vacant : (withBounds "sender" 50 604800).epochSecrets[relabelled.epoch]? = none := by
        simp [withBounds]
      exact getElem?_open_of_kam vacant rfl unwrapped
    have began : sender.epochSecrets[(1 : UInt64)]? = some (sampleDraws 2).epochSecret := by
      rw [show sender = _ from senderEq]
      exact getElem?_afterFirst_self _ 1 (sampleDraws 2) kam'
    rcases agrees 1 with absent | same
    · rw [stored] at absent
      cases absent
    · rw [stored, began] at same
      exact absurd same (by decide)

section

variable {P : Primitives} {build : Build} {keys : KeypairDraws} {sent : List Sent}
  {sender receiver : DmSession}

/-- The condition is needed: when the epochs of the sender have different
secrets, a delivery of one of its KAMs that leaves the stores in agreement was
matched. -/
theorem matched_of_agreement (announces : Announces P keys sent sender)
    (distinct : ∀ (epoch epoch' : UInt64) (secret : EpochSecret),
      sender.epochSecrets[epoch]? = some secret → sender.epochSecrets[epoch']? = some secret →
        epoch = epoch')
    {frame : SealedDmFrame}
    (emitted : ∀ kam ∈ frame.kam, ∃ original ∈ sent, original.frame.kam = some kam)
    (agrees : Agrees sender
      ((DmSession.open P frame (hybridKeypair P keys).privateKey).run receiver).2) :
    Matched sent receiver (.open frame (hybridKeypair P keys).privateKey) := by
  intro vacant kam carried
  obtain ⟨original, found, sameKam⟩ := emitted kam carried
  have unwraps := (announces.honest original found).unwrap_kam sameKam
  refine ⟨original, found, ?_, sameKam⟩
  have opening := run_open P receiver frame (hybridKeypair P keys).privateKey
  generalize (DmSession.open P frame (hybridKeypair P keys).privateKey).run receiver =
    result at opening agrees
  cases opening with
  | kamRejected carried' vacant failed =>
      rw [Option.some.inj (carried'.symm.trans carried), unwraps] at failed
      cases failed
  | installed carried' vacant unwrapped =>
      rw [Option.some.inj (carried'.symm.trans carried), unwraps] at unwrapped
      cases unwrapped
      have agreed := agrees frame.epoch
      rw [getElem?_installed_self] at agreed
      rcases agreed with impossible | same
      · cases impossible
      · exact distinct _ _ _ (announces.stored original found) same.symm
  | missing bare vacant =>
      rw [bare] at carried
      cases carried
  | known stored =>
      rw [vacant] at stored
      cases stored

end

end DmSession
end SkPqc

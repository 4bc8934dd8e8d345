import SkPqc.DmSession.FirstFrames
import SkPqc.DmSession.Token

/-!
# Opening a frame that anyone may have made

A frame comes from an untrusted token, so each of its fields is arbitrary, and
the store of the receiver may hold anything. Three results say what opening such a
frame can do.

It panics exactly when the secret of the epoch is at hand and the nonce is not
12 bytes long (`open_ne_panic_iff`). A rejected frame leaves the session as it
was, unless its KAM was installed before its body failed
(`rejected_unchanged_iff`). And a body that a session sealed opens in the slot it
was sealed for and nowhere else, since the epoch and the index are part of the
associated data (`frame_cannot_move`).
-/

set_option autoImplicit false

namespace SkPqc

open Library Kem Ratchet Idealised

namespace DmSession

variable {P : Primitives} {build : Build}

/-! ## Panics -/

theorem openBody_eq_panic {secret : EpochSecret} {frame : SealedDmFrame} :
    openBody P secret frame = .panic ↔ frame.nonce.length ≠ 12 := by
  rw [openBody_eq]
  by_cases same : frame.nonce.length = 12
  · simp [same]
  · simp [same]

/-- **When `open` does not panic.** Either the nonce has its length, or no secret
is at hand for the epoch: none is stored, and the frame carries no KAM that
unwraps. -/
theorem open_ne_panic_iff (session : DmSession) (frame : SealedDmFrame) (myHybridPriv : Bytes) :
    ((DmSession.open P frame myHybridPriv).run session).1 ≠ .panic ↔
      frame.nonce.length = 12 ∨
        session.epochSecrets[frame.epoch]? = none ∧
          ∀ kam ∈ frame.kam, ∀ secret, unwrapDmEpochSecret P kam myHybridPriv ≠ .ok secret := by
  have opening := run_open P session frame myHybridPriv
  generalize (DmSession.open P frame myHybridPriv).run session = result at opening
  cases opening with
  | kamRejected carried vacant failed => simp [carried, vacant, failed]
  | @installed kam secret carried vacant unwrapped =>
      rw [ne_eq, openBody_eq_panic, not_not]
      refine ⟨.inl, fun safe => safe.resolve_right fun ⟨_, rejected⟩ => ?_⟩
      exact rejected kam carried secret unwrapped
  | missing bare vacant => simp [bare, vacant]
  | known stored => simp [openBody_eq_panic, stored]

/-- **An untrusted token makes `open` panic**: its nonce is empty, and the epoch it
names is one that the session has begun. -/
theorem open_panics_empty_nonce :
    let build : Build := ⟨true, .w64⟩
    let engine := Base64.padded Base64.standard
    let frame : SealedDmFrame := ⟨0, 0, [], [], none⟩
    let session := (machine (markedZero 1) build).final (new "peer")
      [.seal [] (hybridKeypair (markedZero 1) (sampleKeys 1)).publicKey (sampleDraws 1)]
    SealedDmFrame.fromToken build engine (frame.toToken engine) = .ok frame ∧
      ((DmSession.open (markedZero 1) frame []).run session).1 = .panic := by
  intro build engine frame session
  refine ⟨fromToken_toToken rfl (Base64.padded_canonical Base64.standard) (by decide) (by decide)
    (by decide), ?_⟩
  obtain ⟨kam, body, step, -⟩ := exists_firstFrame_marked 1
    (due_withBounds build "peer" defaultRekeyMsgBound defaultRekeyAgeSeconds) [] (sampleKeys 1)
    (sampleDraws 1)
  have reached : session = (new "peer").afterFirst 0 (sampleDraws 1) kam := congrArg Prod.snd step
  have stored : session.epochSecrets[frame.epoch]? = some (sampleDraws 1).epochSecret := by
    rw [reached]
    exact getElem?_afterFirst_self (new "peer") 0 (sampleDraws 1) kam
  rw [run_open_of_stored [] stored]
  exact openBody_eq_panic.mpr (by decide)

/-! ## Rejected frames -/

/-- The KAM of the frame unwraps for an epoch that is not known yet, and the body
does not authenticate under the secret it holds. -/
def KamOutlivesFrame (P : Primitives) (session : DmSession) (frame : SealedDmFrame)
    (myHybridPriv : Bytes) : Prop :=
  session.epochSecrets[frame.epoch]? = none ∧
    ∃ kam secret, frame.kam = some kam ∧
      unwrapDmEpochSecret P kam myHybridPriv = .ok secret ∧
      ∀ nonce : FixedBytes 12, frame.nonce = nonce.val →
        P.aeadDecrypt (messageKey P secret frame.epoch frame.index) nonce
          (frameAad frame.epoch frame.index) frame.body = none

/-- With a nonce of the right length, a body is rejected exactly when it does not
authenticate. -/
theorem exists_openBody_eq_error {secret : EpochSecret} {frame : SealedDmFrame}
    (twelve : frame.nonce.length = 12) :
    (∃ reason, openBody P secret frame = .error reason) ↔
      ∀ nonce : FixedBytes 12, frame.nonce = nonce.val →
        P.aeadDecrypt (messageKey P secret frame.epoch frame.index) nonce
          (frameAad frame.epoch frame.index) frame.body = none := by
  rw [openBody_eq, dif_pos twelve]
  constructor
  · rintro ⟨reason, rejected⟩ nonce same
    have own : nonce = ⟨frame.nonce, twelve⟩ := Subtype.ext same.symm
    rw [own]
    cases decrypted : P.aeadDecrypt (messageKey P secret frame.epoch frame.index)
        ⟨frame.nonce, twelve⟩ (frameAad frame.epoch frame.index) frame.body with
    | none => rfl
    | some plaintext =>
        rw [decrypted] at rejected
        cases rejected
  · intro fails
    rw [fails ⟨frame.nonce, twelve⟩ rfl]
    exact ⟨.openFailed, rfl⟩

/-- A secret installed at a vacant epoch changes the session. -/
theorem installed_ne_of_vacant {session : DmSession} {epoch : UInt64} (secret : EpochSecret)
    (vacant : session.epochSecrets[epoch]? = none) : session.installed epoch secret ≠ session := by
  intro same
  have stored := getElem?_installed_self session epoch secret
  rw [same, vacant] at stored
  cases stored

/-- **When a rejected frame leaves no trace.** It always does, unless its KAM is
installed before its body fails. -/
theorem rejected_unchanged_iff (session : DmSession) (frame : SealedDmFrame)
    (myHybridPriv : Bytes) (twelve : frame.nonce.length = 12) :
    (∀ reason, ((DmSession.open P frame myHybridPriv).run session).1 = .error reason →
        ((DmSession.open P frame myHybridPriv).run session).2 = session) ↔
      ¬ KamOutlivesFrame P session frame myHybridPriv := by
  have opening := run_open P session frame myHybridPriv
  generalize (DmSession.open P frame myHybridPriv).run session = result at opening
  cases opening with
  | kamRejected carried vacant failed =>
      refine ⟨?_, fun _ _ _ => rfl⟩
      rintro - ⟨-, kam, secret, carried', unwrapped, -⟩
      rw [carried] at carried'
      cases carried'
      rw [failed] at unwrapped
      cases unwrapped
  | @installed kam secret carried vacant unwrapped =>
      constructor
      · rintro unchanged ⟨-, kam', secret', carried', unwrapped', fails⟩
        rw [carried] at carried'
        cases carried'
        rw [unwrapped] at unwrapped'
        cases unwrapped'
        obtain ⟨reason, rejected⟩ := (exists_openBody_eq_error twelve).mpr fails
        exact installed_ne_of_vacant secret vacant (unchanged reason rejected)
      · intro kept reason rejected
        refine absurd ⟨vacant, kam, secret, carried, unwrapped, ?_⟩ kept
        exact (exists_openBody_eq_error twelve).mp ⟨reason, rejected⟩
  | missing bare vacant =>
      refine ⟨?_, fun _ _ _ => rfl⟩
      rintro - ⟨-, kam, secret, carried, -⟩
      rw [bare] at carried
      cases carried
  | known stored =>
      refine ⟨?_, fun _ _ _ => rfl⟩
      rintro - ⟨vacant, -⟩
      rw [stored] at vacant
      cases vacant

/-- A frame of an unknown epoch without a KAM leaves no trace. -/
theorem rejected_unchanged_bare :
    let frame : SealedDmFrame := ⟨0, 0, List.replicate 12 0, [], none⟩
    ((DmSession.open (markedZero 1) frame []).run (new "peer")).2 = new "peer" := by
  intro frame
  have vacant : (new "peer").epochSecrets[frame.epoch]? = none := rfl
  refine (rejected_unchanged_iff (new "peer") frame [] (by decide)).mpr ?_
    (.missingEpochSecret 0) ?_
  · rintro ⟨-, kam, secret, carried, -⟩
    cases carried
  · rw [run_open_of_bare [] vacant rfl]

/-- **A rejected frame leaves a trace.** It carries a KAM that anyone can make for the
receiver's public key, and an empty body. -/
theorem rejected_changes_session :
    let P := markedZero 1
    let keys := hybridKeypair P (sampleKeys 1)
    ∃ kam, wrapDmEpochSecret P (sampleDraws 1).epochSecret.val keys.publicKey (sampleBoxDraws 1) =
        .ok kam ∧
      let frame : SealedDmFrame := ⟨0, 0, List.replicate 12 0, [], some kam⟩
      let result := (DmSession.open P frame keys.privateKey).run (new "peer")
      result.1 = .error .openFailed ∧ result.2 ≠ new "peer" := by
  intro P keys
  obtain ⟨tag, tagged⟩ := exists_marked
    (frameEncryption (sampleDraws 1).epochSecret 0 0 (sampleDraws 1).frameNonce [])
    (boxEncryption infoDmWrap [] (sampleDraws 1).epochSecret.val (sampleKeys 1) (sampleBoxDraws 1))
  obtain ⟨kam, wrapped⟩ : ∃ kam, wrapDmEpochSecret P (sampleDraws 1).epochSecret.val
      keys.publicKey (sampleBoxDraws 1) = .ok kam := ⟨_, wrapDmEpochSecret_of_tag tagged⟩
  refine ⟨kam, wrapped, ?_⟩
  intro frame result
  have vacant : (new "peer").epochSecrets[frame.epoch]? = none := rfl
  have twelve : frame.nonce.length = 12 := List.length_replicate
  have unwrapped : unwrapDmEpochSecret P kam keys.privateKey = .ok (sampleDraws 1).epochSecret :=
    unwrap_wrapDmEpochSecret kemCorrect aeadCorrect (sampleKeys 1) wrapped
  have opened : result =
      (openBody P (sampleDraws 1).epochSecret frame,
        (new "peer").installed frame.epoch (sampleDraws 1).epochSecret) := by
    refine (run_open_of_kam keys.privateKey vacant rfl).trans ?_
    rw [unwrapped]
  -- An empty body has no room for a tag.
  have fails : ∀ nonce : FixedBytes 12, frame.nonce = nonce.val →
      P.aeadDecrypt (messageKey P (sampleDraws 1).epochSecret frame.epoch frame.index) nonce
        (frameAad frame.epoch frame.index) frame.body = none := by
    intro nonce _
    rw [Option.eq_none_iff_forall_not_mem]
    intro plaintext decrypted
    obtain ⟨tag', -, empty⟩ := aeadDecrypt_eq_some.mp decrypted
    have lengths := congrArg List.length empty
    rw [List.length_append, tag'.property] at lengths
    exact absurd lengths (by simp [frame])
  rw [opened]
  refine ⟨?_, installed_ne_of_vacant _ vacant⟩
  rw [openBody_eq, dif_pos twelve, fails _ rfl, Outcome.ofOption_none]

/-! ## Slots -/

/-- The associated data determines the slot. -/
theorem frameAad_inj {epoch epoch' index index' : UInt64} :
    frameAad epoch index = frameAad epoch' index' ↔ epoch = epoch' ∧ index = index' := by
  simp only [frameAad]
  rw [append_inj_of_length (by simp), append_inj_of_length (by simp)]
  simp [u64ToBe_injective.eq_iff]

/-- An opened frame decrypted under the key and the associated data of its
slot. -/
theorem openBody_eq_ok {secret : EpochSecret} {frame : SealedDmFrame} {plaintext : Bytes}
    (opened : openBody P secret frame = .ok plaintext) :
    ∃ nonce : FixedBytes 12, frame.nonce = nonce.val ∧
      P.aeadDecrypt (messageKey P secret frame.epoch frame.index) nonce
        (frameAad frame.epoch frame.index) frame.body = some plaintext := by
  rw [openBody_eq] at opened
  split at opened
  · rename_i same
    exact ⟨⟨frame.nonce, same⟩, rfl, Outcome.ofOption_eq_ok.mp opened⟩
  · cases opened

/-- Whatever the store holds and the frame carries, a frame opens with some
secret. -/
theorem exists_openBody_of_open {session : DmSession} {frame : SealedDmFrame}
    {myHybridPriv plaintext : Bytes}
    (opened : ((DmSession.open P frame myHybridPriv).run session).1 = .ok plaintext) :
    ∃ secret, openBody P secret frame = .ok plaintext := by
  have opening := run_open P session frame myHybridPriv
  generalize (DmSession.open P frame myHybridPriv).run session = result at opening opened
  cases opening with
  | kamRejected carried vacant failed => cases opened
  | @installed _ secret carried vacant unwrapped => exact ⟨secret, opened⟩
  | missing bare vacant => cases opened
  | @known secret stored => exact ⟨secret, opened⟩

/-- **A frame cannot move slots.** A body that a session sealed opens only with
the epoch, the index and the nonce it was sealed with, and to the plaintext it
was sealed from, whatever the store of the receiver holds and whatever KAM comes
along. -/
theorem frame_cannot_move {sender receiver : DmSession} {call : Call} {sent : Sent}
    {moved : SealedDmFrame} {myHybridPriv plaintext : Bytes}
    (sealed : sentBy call ((machine P build).step sender call).1
      ((machine P build).step sender call).2 = some sent)
    (ideal : P.Exact (sent.sealing P))
    (carries : moved.body = sent.frame.body)
    (opened : ((DmSession.open P moved myHybridPriv).run receiver).1 = .ok plaintext) :
    moved.epoch = sent.frame.epoch ∧ moved.index = sent.frame.index ∧
      moved.nonce = sent.frame.nonce ∧ plaintext = sent.plaintext := by
  obtain ⟨_, _, _, _, _, _, _, _, frame⟩ := keyed_of_sentBy sealed
  obtain ⟨secret, body⟩ := exists_openBody_of_open opened
  obtain ⟨nonce, nonceEq, decrypted⟩ := openBody_eq_ok body
  rw [carries] at decrypted
  obtain ⟨_, sameNonce, sameAad, samePlaintext⟩ := ideal _ _ _ _ decrypted
  obtain ⟨epoch, index⟩ := frameAad_inj.mp sameAad
  refine ⟨epoch, index, ?_, samePlaintext⟩
  rw [nonceEq, sameNonce, frame]
  rfl

/-- The first frame of an epoch opens at its own session without its KAM, in its
slot. -/
theorem frame_cannot_move_first :
    let build : Build := ⟨true, .w64⟩
    let call : Call :=
      .seal [] (hybridKeypair (markedZero 1) (sampleKeys 1)).publicKey (sampleDraws 1)
    let result := (machine (markedZero 1) build).step (new "peer") call
    ∃ sent moved plaintext, sentBy call result.1 result.2 = some sent ∧
      moved.body = sent.frame.body ∧ moved.kam = none ∧
      ((DmSession.open (markedZero 1) moved []).run result.2).1 = .ok plaintext ∧
      moved.epoch = sent.frame.epoch ∧ moved.index = sent.frame.index ∧
      moved.nonce = sent.frame.nonce ∧ plaintext = sent.plaintext := by
  intro build call result
  obtain ⟨kam, body, step, honest⟩ := exists_firstFrame_marked 1
    (due_withBounds build "peer" defaultRekeyMsgBound defaultRekeyAgeSeconds) [] (sampleKeys 1)
    (sampleDraws 1)
  let sent := firstSent 0 [] (sampleDraws 1) kam body
  let moved : SealedDmFrame := { sent.frame with kam := none }
  have sealed : sentBy call result.1 result.2 = some sent := by
    rw [show result = _ from step]
    rfl
  have opened : ((DmSession.open (markedZero 1) moved []).run result.2).1 = .ok sent.plaintext := by
    have stored : result.2.epochSecrets[moved.epoch]? = some sent.secret := by
      rw [show result = _ from step]
      exact getElem?_afterFirst_self (new "peer") 0 (sampleDraws 1) kam
    rw [run_open_of_stored [] stored]
    exact honest.openBody aeadCorrect
  exact ⟨sent, moved, sent.plaintext, sealed, rfl, rfl, opened,
    frame_cannot_move sealed (exact_marked honest.encrypted) rfl opened⟩

end DmSession
end SkPqc

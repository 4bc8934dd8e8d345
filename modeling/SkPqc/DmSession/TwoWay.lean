import SkPqc.DmSession.Store

/-!
# The two directions of a session

A session seals its own frames and opens those of its peer. Opening never
touches the ratchet or the current KAM, so what is sealed does not depend on
what was opened. The other direction is not free: the epochs of both sides share
one store, and beginning an epoch overwrites whatever is stored under its
number. Opening is undisturbed as long as every frame is opened before a seal
of the run begins an epoch of that number (`directions_independent`).

Both halves are instances of unwinding: one relation between sessions for what
sealing reads, another for what opening reads. The second one looks back at the
epochs that the run has begun.
-/

set_option autoImplicit false

namespace SkPqc

open Library Kem Ratchet Idealised

namespace DmSession

def Call.isSeal : Call → Bool
  | .seal .. => true
  | _ => false

def Call.isOpen : Call → Bool
  | .open .. => true
  | _ => false

/-- Nothing but seals and opens, and no frame is opened after a seal has begun an epoch of its
number. -/
structure Undisturbed (P : Primitives) (build : Build) (session : DmSession)
    (calls : List Call) : Prop where
  bothWays : ∀ call ∈ calls, call.isSeal = true ∨ call.isOpen = true
  unbegun : ∀ before frame myHybridPriv after,
    calls = before ++ .open frame myHybridPriv :: after →
      ∀ secret, (frame.epoch, secret) ∉ begunBy P build session before

/-- The sessions agree on everything that sealing reads. -/
structure SealAlike (left right : DmSession) : Prop where
  ratchet : left.ratchet = right.ratchet
  currentKam : left.currentKam = right.currentKam
  msgBound : left.rekeyMsgBound = right.rekeyMsgBound
  ageBound : left.rekeyAgeSeconds = right.rekeyAgeSeconds

/-- The sessions agree on every epoch but those that were begun. -/
def OpenAlike (taken : List (UInt64 × EpochSecret)) (left right : DmSession) : Prop :=
  ∀ epoch : UInt64, (∀ secret, (epoch, secret) ∉ taken) →
    left.epochSecrets[epoch]? = right.epochSecrets[epoch]?

section

variable {P : Primitives} {build : Build} {taken : List (UInt64 × EpochSecret)}
  {left right session : DmSession}

/-! ## Opening reads the store of one epoch -/

/-- Two sessions that agree on the epoch of a frame open it alike, and store the
same secret or none. -/
theorem run_open_congr (P : Primitives) {frame : SealedDmFrame} (myHybridPriv : Bytes)
    (same : left.epochSecrets[frame.epoch]? = right.epochSecrets[frame.epoch]?) :
    ((DmSession.open P frame myHybridPriv).run left).1 =
        ((DmSession.open P frame myHybridPriv).run right).1 ∧
      (((DmSession.open P frame myHybridPriv).run left).2 = left ∧
          ((DmSession.open P frame myHybridPriv).run right).2 = right ∨
        ∃ secret,
          ((DmSession.open P frame myHybridPriv).run left).2 = left.installed frame.epoch secret ∧
          ((DmSession.open P frame myHybridPriv).run right).2 =
            right.installed frame.epoch secret) := by
  cases stored : right.epochSecrets[frame.epoch]? with
  | some secret =>
      rw [run_open_of_stored myHybridPriv stored,
        run_open_of_stored myHybridPriv (same.trans stored)]
      exact ⟨rfl, .inl ⟨rfl, rfl⟩⟩
  | none =>
      cases carried : frame.kam with
      | none =>
          rw [run_open_of_bare myHybridPriv stored carried,
            run_open_of_bare myHybridPriv (same.trans stored) carried]
          exact ⟨rfl, .inl ⟨rfl, rfl⟩⟩
      | some kam =>
          rw [run_open_of_kam myHybridPriv stored carried,
            run_open_of_kam myHybridPriv (same.trans stored) carried]
          cases unwrapDmEpochSecret P kam myHybridPriv with
          | ok secret => exact ⟨rfl, .inr ⟨secret, rfl, rfl⟩⟩
          | error reason => exact ⟨rfl, .inl ⟨rfl, rfl⟩⟩
          | panic => exact ⟨rfl, .inl ⟨rfl, rfl⟩⟩

theorem OpenAlike.installed (alike : OpenAlike taken left right) (epoch : UInt64)
    (secret : EpochSecret) :
    OpenAlike taken (left.installed epoch secret) (right.installed epoch secret) := by
  intro other unbegun
  by_cases same : epoch = other
  · subst same
    rw [getElem?_installed_self, getElem?_installed_self]
  · rw [getElem?_installed_of_ne _ _ same, getElem?_installed_of_ne _ _ same]
    exact alike other unbegun

/-- A seal changes only the store of the epoch it begins. -/
theorem OpenAlike.keyed (alike : OpenAlike taken left right) {keyed : DmSession}
    {ratchet : DmRatchet} {plaintext peerHybridPub : Bytes} {draws : SealDraws}
    (key : Keyed P build left peerHybridPub draws keyed ratchet) :
    OpenAlike (taken ++ (begins P build left (.seal plaintext peerHybridPub draws)).toList)
      (keyed.advanced ratchet) right := by
  intro other unbegun
  have before : ∀ secret, (other, secret) ∉ taken :=
    fun secret found => unbegun secret (List.mem_append_left _ found)
  cases key with
  | current holds young => exact alike other before
  | @fresh epoch kam beginning wrapped =>
      rw [begins_of_fresh beginning wrapped] at unbegun
      have different : epoch ≠ other := by
        rintro rfl
        exact unbegun draws.epochSecret (List.mem_append_right _ List.mem_cons_self)
      exact (getElem?_begun_of_ne left _ kam draws.startedAt different).trans (alike other before)

theorem OpenAlike.seal (alike : OpenAlike taken left right) {plaintext peerHybridPub : Bytes}
    {draws : SealDraws} :
    OpenAlike (taken ++ (begins P build left (.seal plaintext peerHybridPub draws)).toList)
      ((DmSession.seal P build plaintext peerHybridPub draws).run left).2 right := by
  have unchanged : OpenAlike
      (taken ++ (begins P build left (.seal plaintext peerHybridPub draws)).toList) left right :=
    fun other unbegun => alike other fun secret found =>
      unbegun secret (List.mem_append_left _ found)
  have sealing := run_seal P build left plaintext peerHybridPub draws
  generalize (DmSession.seal P build plaintext peerHybridPub draws).run left = result at sealing
  cases sealing with
  | overflow beginning => exact unchanged
  | wrapFailed beginning failed => exact unchanged
  | encryptFailed key failed => exact alike.keyed key
  | emitted key encrypted => exact alike.keyed key

/-! ## Sealing reads the ratchet and the current KAM -/

theorem SealAlike.beginAt {ε : Type} (alike : SealAlike left right) (now : Rat) :
    (left.beginAt build now : Outcome ε (Option UInt64)) = right.beginAt build now := by
  simp only [DmSession.beginAt, alike.ratchet]

theorem SealAlike.begun (alike : SealAlike left right) (epoch : UInt64) (secret : EpochSecret)
    (kam : Bytes) (startedAt : Rat) :
    SealAlike (left.begun epoch secret kam startedAt) (right.begun epoch secret kam startedAt) where
  ratchet := by simp only [DmSession.begun, alike.msgBound, alike.ageBound]
  currentKam := rfl
  msgBound := alike.msgBound
  ageBound := alike.ageBound

theorem SealAlike.sealNext (alike : SealAlike left right) (plaintext : Bytes)
    (draws : SealDraws) {ratchet : DmRatchet} (holds : right.ratchet = some ratchet)
    (room : ratchet.messageIndex.toNat + 1 < 2 ^ 64) :
    ((sealNext P build plaintext draws).run left).1 =
        ((sealNext P build plaintext draws).run right).1 ∧
      SealAlike ((sealNext P build plaintext draws).run left).2
        ((sealNext P build plaintext draws).run right).2 := by
  rw [run_sealNext plaintext draws holds room,
    run_sealNext plaintext draws (alike.ratchet.trans holds) room, alike.currentKam]
  exact ⟨rfl, rfl, alike.currentKam, alike.msgBound, alike.ageBound⟩

/-- Two sessions that agree on what sealing reads seal alike, and go on
agreeing. -/
theorem SealAlike.seal (alike : SealAlike left right) (P : Primitives) (build : Build)
    (plaintext peerHybridPub : Bytes) (draws : SealDraws) :
    ((DmSession.seal P build plaintext peerHybridPub draws).run left).1 =
        ((DmSession.seal P build plaintext peerHybridPub draws).run right).1 ∧
      SealAlike ((DmSession.seal P build plaintext peerHybridPub draws).run left).2
        ((DmSession.seal P build plaintext peerHybridPub draws).run right).2 := by
  cases beginning : (right.beginAt build draws.now : Outcome DmSessionError _) with
  | error reason => exact absurd beginning beginAt_ne_error
  | panic =>
      rw [run_seal_of_overflow plaintext peerHybridPub draws beginning,
        run_seal_of_overflow plaintext peerHybridPub draws
          ((alike.beginAt draws.now).trans beginning)]
      exact ⟨rfl, alike⟩
  | ok begins =>
      cases begins with
      | none =>
          obtain ⟨ratchet, holds, young⟩ := beginAt_eq_none beginning
          have key : Keyed P build right peerHybridPub draws right ratchet := .current holds young
          rw [run_seal_of_current plaintext peerHybridPub draws beginning,
            run_seal_of_current plaintext peerHybridPub draws
              ((alike.beginAt draws.now).trans beginning)]
          exact alike.sealNext plaintext draws holds key.room
      | some epoch =>
          rw [run_seal_of_begin plaintext peerHybridPub draws beginning,
            run_seal_of_begin plaintext peerHybridPub draws
              ((alike.beginAt draws.now).trans beginning)]
          cases wrapped : wrapDmEpochSecret P draws.epochSecret.val peerHybridPub draws.wrap with
          | panic => exact ⟨rfl, alike⟩
          | error reason => exact ⟨rfl, alike⟩
          | ok kam =>
              have key : Keyed P build right peerHybridPub draws _ _ := .fresh beginning wrapped
              exact (alike.begun epoch draws.epochSecret kam draws.startedAt).sealNext plaintext
                draws key.ratchet_eq key.room

/-- Opening changes nothing that sealing reads. -/
theorem SealAlike.open (alike : SealAlike left right) (frame : SealedDmFrame)
    (myHybridPriv : Bytes) :
    SealAlike ((DmSession.open P frame myHybridPriv).run left).2 right := by
  have opening := run_open P left frame myHybridPriv
  generalize (DmSession.open P frame myHybridPriv).run left = result at opening
  cases opening with
  | kamRejected carried vacant failed => exact alike
  | installed carried vacant unwrapped =>
      exact ⟨alike.ratchet, alike.currentKam, alike.msgBound, alike.ageBound⟩
  | missing bare vacant => exact alike
  | known stored => exact alike

/-! ## Both directions -/

/-- What a session seals does not depend on what it opens. -/
theorem seals_undisturbed {calls : List Call}
    (undisturbed : Undisturbed P build session calls) :
    Machine.visible Call.isSeal ((machine P build).trace session calls) =
      (machine P build).trace session (calls.filter Call.isSeal) := by
  have start : SealAlike session session := ⟨rfl, rfl, rfl, rfl⟩
  have guarded : (machine P build).Guarded
      (fun _ call => call.isSeal = true ∨ call.isOpen = true) session calls :=
    Machine.guarded_of_mem undisturbed.bothWays session
  refine Machine.visible_trace_eq_purged ?_ ?_ start guarded
  · intro left right call alike _ shown
    cases call with
    | «seal» plaintext peerHybridPub draws =>
        obtain ⟨answer, next⟩ := alike.seal P build plaintext peerHybridPub draws
        exact ⟨congrArg Answer.sealed answer, next⟩
    | «open» frame myHybridPriv => cases shown
    | reload => cases shown
  · intro left right call alike allowed hidden
    cases call with
    | «seal» plaintext peerHybridPub draws => cases hidden
    | «open» frame myHybridPriv => exact alike.open frame myHybridPriv
    | reload => simp [Call.isSeal, Call.isOpen] at allowed

/-- A call finds what it opens untouched by the epochs that were begun. -/
def Untaken (recorded : DmSession × List (UInt64 × EpochSecret)) : Call → Prop
  | .seal .. => True
  | .open frame _ => ∀ secret, (frame.epoch, secret) ∉ recorded.2
  | .reload => False

theorem Undisturbed.guarded {calls : List Call} (undisturbed : Undisturbed P build session calls) :
    ((machine P build).recording (begins P build)).Guarded Untaken (session, []) calls := by
  refine Machine.guarded_recording fun before call after same => ?_
  cases call with
  | «seal» plaintext peerHybridPub draws => trivial
  | «open» frame myHybridPriv => exact undisturbed.unbegun before frame myHybridPriv after same
  | reload =>
      have member : Call.reload ∈ calls := by
        rw [same]
        exact List.mem_append_right _ List.mem_cons_self
      have either := undisturbed.bothWays _ member
      simp [Call.isSeal, Call.isOpen] at either

/-- What a session opens does not depend on what it seals, while it opens no
frame of an epoch that one of the seals has begun. -/
theorem opens_undisturbed {calls : List Call}
    (undisturbed : Undisturbed P build session calls) :
    Machine.visible Call.isOpen ((machine P build).trace session calls) =
      (machine P build).trace session (calls.filter Call.isOpen) := by
  let alike (left right : DmSession × List (UInt64 × EpochSecret)) : Prop :=
    OpenAlike left.2 left.1 right.1
  have start : alike (session, []) (session, []) := fun _ _ => rfl
  rw [← Machine.trace_recording (begins P build) session [] calls,
    ← Machine.trace_recording (begins P build) session [] (calls.filter Call.isOpen)]
  refine Machine.visible_trace_eq_purged ?_ ?_ start undisturbed.guarded
  · rintro ⟨left, taken⟩ ⟨right, _⟩ call related allowed shown
    cases call with
    | «seal» plaintext peerHybridPub draws => cases shown
    | «open» frame myHybridPriv =>
        obtain ⟨answer, stores⟩ := run_open_congr P myHybridPriv (related frame.epoch allowed)
        refine ⟨congrArg Answer.opened answer, ?_⟩
        have after : OpenAlike taken ((DmSession.open P frame myHybridPriv).run left).2
            ((DmSession.open P frame myHybridPriv).run right).2 := by
          rcases stores with ⟨sameLeft, sameRight⟩ | ⟨secret, newLeft, newRight⟩
          · rw [sameLeft, sameRight]
            exact related
          · rw [newLeft, newRight]
            exact related.installed frame.epoch secret
        have nothing : taken ++ (begins P build left (.open frame myHybridPriv)).toList = taken :=
          List.append_nil taken
        rw [← nothing] at after
        exact after
    | reload => cases shown
  · rintro ⟨left, taken⟩ ⟨right, _⟩ call related allowed hidden
    cases call with
    | «seal» plaintext peerHybridPub draws => exact related.seal
    | «open» frame myHybridPriv => cases hidden
    | reload => cases allowed

/-- **The two directions do not disturb each other** in a run that opens no frame
of an epoch that one of its seals has begun. -/
theorem directions_independent (session : DmSession) {calls : List Call}
    (undisturbed : Undisturbed P build session calls) :
    Machine.visible Call.isOpen ((machine P build).trace session calls) =
        (machine P build).trace session (calls.filter Call.isOpen) ∧
      Machine.visible Call.isSeal ((machine P build).trace session calls) =
        (machine P build).trace session (calls.filter Call.isSeal) :=
  ⟨opens_undisturbed undisturbed, seals_undisturbed undisturbed⟩

end

/-! ## Both sides key an epoch -/

/-- Primitives that have made the first frame of each side. -/
def bothSides : Primitives :=
  primitives (logged (firstEncryptions (sampleKeys 2) 0 [] (sampleDraws 1) ++
    firstEncryptions (sampleKeys 1) 0 [] (sampleDraws 2)))

/-- The peer sends the first frame of its epoch zero. -/
theorem exists_peer_frame (build : Build) :
    ∃ kam body,
      firstSent 0 [] (sampleDraws 2) kam body ∈
        DmSession.sent bothSides build (withBounds "own" 50 604800)
          [.seal [] (hybridKeypair bothSides (sampleKeys 1)).publicKey (sampleDraws 2)] ∧
      Honest bothSides (sampleKeys 1) (firstSent 0 [] (sampleDraws 2) kam body) := by
  obtain ⟨kam, body, step, honest⟩ :
      ∃ kam body,
        (machine bothSides build).step (withBounds "own" 50 604800)
            (.seal [] (hybridKeypair bothSides (sampleKeys 1)).publicKey (sampleDraws 2)) =
          (.sealed (.ok (firstFrame 0 (sampleDraws 2) kam body)),
            (withBounds "own" 50 604800).afterFirst 0 (sampleDraws 2) kam) ∧
        Honest bothSides (sampleKeys 1) (firstSent 0 [] (sampleDraws 2) kam body) :=
    exists_firstFrame (due_withBounds build "own" 50 604800)
      fun _ found => exists_logged (List.mem_append_right _ found)
  refine ⟨kam, body, ?_, honest⟩
  simp only [DmSession.sent, Machine.log_cons, Machine.log_nil, step]
  exact List.mem_cons_self

/-- A frame of the peer is opened before the session keys its own epoch. -/
theorem directions_independent_peer_first :
    let build : Build := ⟨true, .w64⟩
    let own := hybridKeypair bothSides (sampleKeys 1)
    let peer := hybridKeypair bothSides (sampleKeys 2)
    let session := withBounds "peer" 50 604800
    ∃ sent ∈ DmSession.sent bothSides build (withBounds "own" 50 604800)
        [.seal [] own.publicKey (sampleDraws 2)],
      let calls : List Call := [.open sent.frame own.privateKey,
        .seal [] peer.publicKey (sampleDraws 1)]
      Machine.visible Call.isOpen ((machine bothSides build).trace session calls) =
          (machine bothSides build).trace session (calls.filter Call.isOpen) ∧
        Machine.visible Call.isSeal ((machine bothSides build).trace session calls) =
          (machine bothSides build).trace session (calls.filter Call.isSeal) := by
  intro build own peer session
  obtain ⟨kam, body, found, -⟩ := exists_peer_frame build
  refine ⟨_, found, directions_independent session ⟨by simp [Call.isSeal, Call.isOpen], ?_⟩⟩
  rintro (_ | ⟨first, before⟩) frame myHybridPriv after same secret
  · exact List.not_mem_nil
  · -- The second call is no open.
    obtain ⟨-, rest⟩ := List.cons.inj same
    cases before with
    | nil => cases rest
    | cons second before => cases before <;> cases rest

/-- A seal in front of one open goes unnoticed exactly when the open answers alike. -/
theorem seal_unnoticed_iff {P : Primitives} {build : Build} {session : DmSession}
    {plaintext peerHybridPub myHybridPriv : Bytes} {draws : SealDraws} {frame : SealedDmFrame} :
    let sealing : Call := .seal plaintext peerHybridPub draws
    let calls : List Call := [sealing, .open frame myHybridPriv]
    Machine.visible Call.isOpen ((machine P build).trace session calls) =
        (machine P build).trace session (calls.filter Call.isOpen) ↔
      ((DmSession.open P frame myHybridPriv).run
          ((machine P build).step session sealing).2).1 =
        ((DmSession.open P frame myHybridPriv).run session).1 := by
  intro sealing calls
  simp [calls, sealing, Machine.visible, List.filter_cons, Call.isOpen]

/-- Once both sides have keyed epoch zero, a frame of the peer no longer opens. -/
theorem directions_interfere :
    let build : Build := ⟨true, .w64⟩
    let own := hybridKeypair bothSides (sampleKeys 1)
    let peer := hybridKeypair bothSides (sampleKeys 2)
    (bothSides.KemCorrect ∧ bothSides.AeadCorrect ∧ bothSides.IdealAead ∧
        (sampleDraws 1).epochSecret ≠ (sampleDraws 2).epochSecret) ∧
      ∃ sent ∈ DmSession.sent bothSides build (withBounds "own" 50 604800)
          [.seal [] own.publicKey (sampleDraws 2)],
        let session := withBounds "peer" 50 604800
        let calls : List Call := [.seal [] peer.publicKey (sampleDraws 1),
          .open sent.frame own.privateKey]
        Machine.visible Call.isOpen ((machine bothSides build).trace session calls) ≠
          (machine bothSides build).trace session (calls.filter Call.isOpen) := by
  intro build own peer
  have ideal : bothSides.IdealAead := idealAead_logged (by decide)
  have different : (sampleDraws 1).epochSecret ≠ (sampleDraws 2).epochSecret := by decide
  refine ⟨⟨kemCorrect, aeadCorrect, ideal, different⟩, ?_⟩
  obtain ⟨kam, body, found, honest⟩ := exists_peer_frame build
  obtain ⟨ownKam, ownBody, ownStep, -⟩ :
      ∃ kam body,
        (machine bothSides build).step (withBounds "peer" 50 604800)
            (.seal [] peer.publicKey (sampleDraws 1)) =
          (.sealed (.ok (firstFrame 0 (sampleDraws 1) kam body)),
            (withBounds "peer" 50 604800).afterFirst 0 (sampleDraws 1) kam) ∧
        Honest bothSides (sampleKeys 2) (firstSent 0 [] (sampleDraws 1) kam body) :=
    exists_firstFrame (due_withBounds build "peer" 50 604800)
      fun _ found => exists_logged (List.mem_append_left _ found)
  refine ⟨firstSent 0 [] (sampleDraws 2) kam body, found, ?_⟩
  intro session calls same
  have stored : (session.afterFirst 0 (sampleDraws 1) ownKam).epochSecrets[(0 : UInt64)]? =
      some (sampleDraws 1).epochSecret :=
    getElem?_afterFirst_self session 0 (sampleDraws 1) ownKam
  have vacant : session.epochSecrets[(0 : UInt64)]? = none := by simp [session, withBounds]
  have fails := honest.open_of_other hkdfInjective (ideal _ _ _ _ _ honest.encrypted) stored
    different own.privateKey
  have opens := honest.open_of_vacant aeadCorrect (by simp [firstSent, firstFrame]) vacant
  have answers := seal_unnoticed_iff.mp same
  rw [ownStep] at answers
  exact absurd (fails.symm.trans (answers.trans opens)) (by simp)

end DmSession
end SkPqc

import SkPqc.DmSession.Restoring
import SkPqc.DmSession.Schedule
import Mathlib.Data.Prod.Lex
import Mathlib.Order.WithBot

/-!
# The counters of a session

Sealing adds one to the message index of the ratchet, or to its epoch number when the epoch
is to be left. The message index is always below the message bound when it is taken, so its
addition never overflows. Nothing guards the epoch number: it overflows when the last epoch
is to be left, and there alone (`run_seal_eq_panic_iff`).

A session stands at a place: the next slot of its ratchet. As long as the last epoch need not
be left, no call goes back, and a frame is sent at a place between those before and after
the call. So every slot is behind the ones before it (`counters_advance`).
-/

set_option autoImplicit false

namespace SkPqc

open Library Library.Json Kem Ratchet Idealised

namespace DmSession

/-! ## Places -/

/-- The slots of a session in the order they are used in, with a place before them all. -/
abbrev Place : Type := WithBot (Nat ×ₗ Nat)

/-- The place of a slot. -/
def placeOf (epoch index : UInt64) : Place := ((toLex (epoch.toNat, index.toNat) : Nat ×ₗ Nat))

/-- The next slot of the ratchet. -/
def place (session : DmSession) : Place :=
  match session.ratchet with
  | none => ⊥
  | some ratchet => placeOf ratchet.epoch ratchet.messageIndex

/-- The place that a frame was sent at. -/
def Sent.place (sent : Sent) : Place := placeOf sent.frame.epoch sent.frame.index

theorem placeOf_lt_iff {epoch index epoch' index' : UInt64} :
    placeOf epoch index < placeOf epoch' index' ↔
      epoch.toNat < epoch'.toNat ∨ epoch = epoch' ∧ index.toNat < index'.toNat := by
  rw [placeOf, placeOf, WithBot.coe_lt_coe, Prod.Lex.toLex_lt_toLex]
  simp only [UInt64.toNat_inj]

theorem before_of_place_lt {earlier later : Sent} (less : earlier.place < later.place) :
    Before earlier later :=
  placeOf_lt_iff.mp less

/-! ## What a call does to the counters -/

/-- A session as it is made, or as it is restored from a snapshot. -/
def Starts (session : DmSession) : Prop :=
  (∃ peer rekeyMsgBound rekeyAgeSeconds,
      session = withBounds peer rekeyMsgBound rekeyAgeSeconds) ∨
    ∃ snap, restore snap = .ok session

/-- The last epoch is not left: no seal arrives in it when a re-key is due. -/
def EpochRoom (session : DmSession) : Call → Prop
  | .seal _ _ draws => ∀ ratchet, session.ratchet = some ratchet →
      ratchet.shouldRekey draws.now = true → ratchet.epoch.toNat + 1 < 2 ^ 64
  | _ => True

/-- The message index that a seal takes is not the last one. -/
def IndexRoom (P : Primitives) (build : Build) (session : DmSession) : Call → Prop
  | .seal _ peerHybridPub draws => ∀ keyed ratchet,
      Keyed P build session peerHybridPub draws keyed ratchet →
        ratchet.messageIndex.toNat + 1 < 2 ^ 64
  | _ => True

section

variable {P : Primitives} {build : Build} {session : DmSession}

theorem Starts.persistent (starts : Starts session) : session.Persistent := by
  rcases starts with ⟨peer, msgBound, ageBound, rfl⟩ | ⟨snap, restored⟩
  · exact .withBounds peer msgBound ageBound
  · exact .restored restored

/-- Every message index that is taken can be counted up, in any session. -/
theorem indexRoom (call : Call) : IndexRoom P build session call := by
  cases call with
  | «seal» plaintext peerHybridPub draws => exact fun _ _ key => key.room
  | «open» frame myHybridPriv => trivial
  | reload => trivial

theorem beginAt_eq_panic {ε : Type} {now : Rat} :
    (session.beginAt build now : Outcome ε (Option UInt64)) = .panic ↔
      build.overflowChecks = true ∧ ∃ ratchet, session.ratchet = some ratchet ∧
        ratchet.shouldRekey now = true ∧ ¬ ratchet.epoch.toNat + 1 < 2 ^ 64 := by
  unfold beginAt
  cases holds : session.ratchet with
  | none => simp
  | some ratchet =>
      cases due : ratchet.shouldRekey now with
      | false => simp [due]
      | true =>
          have sum : (build.addU64 ratchet.epoch 1 : Outcome ε UInt64) = .panic ↔
              build.overflowChecks = true ∧ ¬ ratchet.epoch.toNat + 1 < 2 ^ 64 :=
            Build.addU64_eq_panic
          simp [due, Outcome.bind_eq_panic, sum]

/-- **When sealing panics.** It does when overflow is checked and the last epoch is to be
left. -/
theorem run_seal_eq_panic_iff {plaintext peerHybridPub : Bytes} {draws : SealDraws} :
    ((DmSession.seal P build plaintext peerHybridPub draws).run session).1 = .panic ↔
      build.overflowChecks = true ∧ ∃ ratchet, session.ratchet = some ratchet ∧
        ratchet.shouldRekey draws.now = true ∧ ¬ ratchet.epoch.toNat + 1 < 2 ^ 64 := by
  have overflows : ((DmSession.seal P build plaintext peerHybridPub draws).run session).1 =
      .panic ↔ (session.beginAt build draws.now : Outcome DmSessionError _) = .panic := by
    constructor
    · intro panicked
      have step := run_seal P build session plaintext peerHybridPub draws
      generalize (DmSession.seal P build plaintext peerHybridPub draws).run session = result
        at step panicked
      cases step with
      | overflow beginning => exact beginning
      | wrapFailed beginning failed => cases panicked
      | encryptFailed key failed => cases panicked
      | emitted key encrypted => cases panicked
    · intro beginning
      rw [run_seal_of_overflow plaintext peerHybridPub draws beginning]
  rw [overflows, beginAt_eq_panic]

/-- A frame is keyed at a place that the session has not passed. -/
theorem Keyed.place_le {keyed : DmSession} {ratchet : DmRatchet} {plaintext peerHybridPub : Bytes}
    {draws : SealDraws} (key : Keyed P build session peerHybridPub draws keyed ratchet)
    (room : EpochRoom session (.seal plaintext peerHybridPub draws)) :
    session.place ≤ placeOf ratchet.epoch ratchet.messageIndex := by
  cases key with
  | current holds young =>
      rw [place, holds]
  | fresh beginning wrapped =>
      rcases beginAt_eq_some beginning with ⟨idle, _⟩ | ⟨old, holds, due, rfl, _⟩
      · rw [place, idle]
        exact bot_le
      · have next := toNat_add_one (room old holds due)
        rw [place, holds]
        refine le_of_lt (placeOf_lt_iff.mpr (.inl ?_))
        change old.epoch.toNat < (old.epoch + 1).toNat
        omega

/-- The ratchet has advanced beyond the place it was keyed at. -/
theorem Keyed.place_lt {keyed : DmSession} {ratchet : DmRatchet} {peerHybridPub : Bytes}
    {draws : SealDraws} (key : Keyed P build session peerHybridPub draws keyed ratchet) :
    placeOf ratchet.epoch ratchet.messageIndex < (keyed.advanced ratchet).place := by
  have next := toNat_add_one key.room
  refine placeOf_lt_iff.mpr (.inr ⟨rfl, ?_⟩)
  change ratchet.messageIndex.toNat < (ratchet.messageIndex + 1).toNat
  omega

/-- Opening leaves the ratchet alone. -/
theorem ratchet_run_open (session : DmSession) (frame : SealedDmFrame) (myHybridPriv : Bytes) :
    ((DmSession.open P frame myHybridPriv).run session).2.ratchet = session.ratchet := by
  have step := run_open P session frame myHybridPriv
  generalize (DmSession.open P frame myHybridPriv).run session = result at step
  cases step with
  | kamRejected carried vacant failed => rfl
  | installed carried vacant unwrapped => rfl
  | missing bare vacant => rfl
  | known stored => rfl

/-- A call does not go back. -/
theorem place_le_step (persistent : session.Persistent) {call : Call}
    (room : EpochRoom session call) :
    session.place ≤ ((machine P build).step session call).2.place := by
  cases call with
  | «seal» plaintext peerHybridPub draws =>
      have step := run_seal P build session plaintext peerHybridPub draws
      rw [step_seal]
      generalize (DmSession.seal P build plaintext peerHybridPub draws).run session = result
        at step
      cases step with
      | overflow beginning => exact le_refl _
      | wrapFailed beginning failed => exact le_refl _
      | encryptFailed key failed => exact (key.place_le room).trans key.place_lt.le
      | emitted key encrypted => exact (key.place_le room).trans key.place_lt.le
  | «open» frame myHybridPriv =>
      rw [step_open, place, place, ratchet_run_open]
  | reload => rw [step_reload, run_reload persistent]

/-- A call begins at most one epoch. -/
theorem epochsBegun_step_le (persistent : session.Persistent) (call : Call) :
    ((machine P build).step session call).2.epochsBegun ≤ session.epochsBegun + 1 := by
  cases call with
  | «seal» plaintext peerHybridPub draws =>
      exact epochsBegun_seal_le P build session plaintext peerHybridPub draws
  | «open» frame myHybridPriv =>
      rw [step_open, epochsBegun, epochsBegun, ratchet_run_open]
      exact Nat.le_succ _
  | reload =>
      rw [step_reload, run_reload persistent]
      exact Nat.le_succ _

/-- A run begins at most one epoch with every call. -/
theorem epochsBegun_final_le (persistent : session.Persistent) (calls : List Call) :
    ((machine P build).final session calls).epochsBegun ≤ session.epochsBegun + calls.length := by
  induction calls generalizing session with
  | nil => exact Nat.le_refl _
  | cons call rest ih =>
      have first := @epochsBegun_step_le P build session persistent call
      have later := @ih _ (@Persistent.step P build session persistent call)
      rw [Machine.final_cons, List.length_cons]
      omega

/-- A frame is sent at a place between those before and after the call. -/
theorem between_of_sentBy {call : Call} (room : EpochRoom session call) {sent : Sent}
    (found : sentBy call ((machine P build).step session call).1
      ((machine P build).step session call).2 = some sent) :
    session.place ≤ sent.place ∧
      sent.place < ((machine P build).step session call).2.place := by
  obtain ⟨peerHybridPub, keyed, ratchet, rfl, key, after, _, _, frame⟩ := keyed_of_sentBy found
  have place : sent.place = placeOf ratchet.epoch ratchet.messageIndex := by
    rw [Sent.place, frame]
  rw [after, place]
  exact ⟨key.place_le room, key.place_lt⟩

/-- With room for the next epoch no seal panics. -/
theorem seal_answer_ne_panic {call : Call} (room : EpochRoom session call) :
    ((machine P build).step session call).1 ≠ .sealed .panic := by
  cases call with
  | «seal» plaintext peerHybridPub draws =>
      intro panicked
      obtain ⟨_, ratchet, holds, due, last⟩ :=
        run_seal_eq_panic_iff.mp (Answer.sealed.inj panicked)
      exact last (room ratchet holds due)
  | «open» frame myHybridPriv => exact fun impossible => by cases impossible
  | reload => exact fun impossible => by cases impossible

end

/-! ## The counters over whole runs -/

/-- In a run every message index that is taken can be counted up, no seal panics, the session
never goes back, and every slot is behind those used before. -/
structure CountersAdvance (P : Primitives) (build : Build) (session : DmSession)
    (calls : List Call) : Prop where
  indexRoom : (machine P build).Guarded (IndexRoom P build) session calls
  noPanic : ∀ answer ∈ (machine P build).outputs session calls, answer ≠ .sealed .panic
  forward : session.place ≤ ((machine P build).final session calls).place
  behind : ∀ frame ∈ sent P build session calls, session.place ≤ frame.place
  before : (sent P build session calls).Pairwise Before

section

variable {P : Primitives} {build : Build} {session : DmSession} {calls : List Call}

/-- **The counters advance.** In every run from a new or restored session in which the last
epoch is not left, neither counter overflows and no slot is used twice. -/
theorem counters_advance (starts : Starts session)
    (room : (machine P build).Guarded EpochRoom session calls) :
    CountersAdvance P build session calls := by
  have keeps : ∀ (session : DmSession) (call : Call), session.Persistent →
      EpochRoom session call → ((machine P build).step session call).2.Persistent :=
    fun _ call persistent _ => persistent.step call
  have order : (machine P build).InOrder sentBy DmSession.place Sent.place session calls :=
    Machine.inOrder keeps (fun _ _ persistent room => place_le_step persistent room)
      (fun _ _ _ room _ found => between_of_sentBy room found) starts.persistent room
  exact
    { indexRoom := Machine.guarded_of_forall (fun _ call => indexRoom call) session calls
      noPanic := Machine.forall_mem_outputs (fun _ _ room => seal_answer_ne_panic room) room
      forward := order.forward
      behind := order.behind
      before := order.increasing.imp before_of_place_lt }

/-- **A run has room when it is short.** The calls and the epochs begun before them are
together no more than there are epoch numbers. -/
theorem epochRoom_of_short (persistent : session.Persistent)
    (short : session.epochsBegun + calls.length ≤ 2 ^ 64) :
    (machine P build).Guarded EpochRoom session calls := by
  induction calls generalizing session with
  | nil => exact .nil
  | cons call rest ih =>
      rw [List.length_cons] at short
      have grows := @epochsBegun_step_le P build session persistent call
      refine .cons ?_ (ih (persistent.step call) (by omega))
      cases call with
      | «seal» plaintext peerHybridPub draws =>
          intro ratchet holds _
          have begun : session.epochsBegun = ratchet.epoch.toNat + 1 := by
            rw [epochsBegun, holds]
          omega
      | «open» frame myHybridPriv => trivial
      | reload => trivial

end

/-! ## Tried at both ends -/

/-- Two epochs with a reload between them. -/
theorem counters_advance_two_epochs :
    let pub := (hybridKeypair (markedZero 1) (sampleKeys 1)).publicKey
    CountersAdvance (markedZero 1) ⟨true, .w64⟩ (DmSession.withBounds "peer" 1 604800)
      [.seal [] pub (sampleDraws 1), .reload, .seal [] pub (sampleDraws 2)] := by
  intro pub
  have starts : Starts (DmSession.withBounds "peer" 1 604800) := .inl ⟨_, _, _, rfl⟩
  have short : (DmSession.withBounds "peer" 1 604800).epochsBegun + 3 ≤ 2 ^ 64 := by decide
  exact counters_advance starts (epochRoom_of_short starts.persistent short)

/-- A session in its last epoch, which has reached the message bound. -/
def lastEpoch : DmSession :=
  { DmSession.withBounds "peer" 50 604800 with
    ratchet := some ⟨18446744073709551615, .fill 32 7, 50, 50, 604800, 0⟩
    epochSecrets :=
      (∅ : Std.ExtTreeMap UInt64 EpochSecret).insert 18446744073709551615 (.fill 32 7) }

theorem persistent_lastEpoch : lastEpoch.Persistent := by
  refine ⟨?_, ?_, ?_⟩ <;> rintro _ ⟨⟩
  · simp [lastEpoch]
  · rfl
  · rfl

theorem shouldRekey_lastEpoch (now : Rat) :
    DmRatchet.shouldRekey ⟨18446744073709551615, .fill 32 7, 50, 50, 604800, 0⟩ now = true := rfl

/-- Unchecked, the epoch after the last one is the first. -/
theorem due_lastEpoch : Due ⟨false, .w64⟩ lastEpoch 0 := by
  intro now
  have sum : (Build.addU64 ⟨false, .w64⟩ 18446744073709551615 1 :
      Outcome DmSessionError UInt64) = .ok 0 := rfl
  simp only [beginAt, lastEpoch, shouldRekey_lastEpoch, if_true, sum, Outcome.ok_bind,
    Outcome.pure_eq]

/-- The session in its last epoch is restored, and its next seal panics when overflow is
checked. Unchecked, it begins epoch zero. -/
theorem seal_overflows_lastEpoch :
    let pub := (hybridKeypair (markedZero 1) (sampleKeys 1)).publicKey
    restore lastEpoch.snapshot = .ok lastEpoch ∧
      ((DmSession.seal (markedZero 1) ⟨true, .w64⟩ [] pub (sampleDraws 1)).run lastEpoch).1 =
        .panic ∧
      ∃ kam body, ((DmSession.seal (markedZero 1) ⟨false, .w64⟩ [] pub (sampleDraws 1)).run
        lastEpoch).1 = .ok (firstFrame 0 (sampleDraws 1) kam body) := by
  intro pub
  refine ⟨restore_snapshot persistent_lastEpoch, ?_, ?_⟩
  · refine run_seal_eq_panic_iff.mpr ⟨rfl, _, rfl, shouldRekey_lastEpoch _, ?_⟩
    decide
  · obtain ⟨kam, body, step, _⟩ :=
      exists_firstFrame_marked 1 due_lastEpoch [] (sampleKeys 1) (sampleDraws 1)
    exact ⟨kam, body, Answer.sealed.inj (congrArg Prod.fst step)⟩

end DmSession
end SkPqc

import SkPqc.DmSession.FirstFrames
import Mathlib.Data.List.Chain
import Mathlib.Tactic.Linarith

/-!
# The send schedule

The frames of a session occupy the slots `(0, 0), (0, 1), …` and so on: each
next one is the next index of the same epoch, or the start of the next epoch. An
index stays below the message bound, and an epoch is not used once it is too
old. `Schedule` says this of a list of sent frames.

The run lemma is `tracks_sent`: the session stands right after the last frame it
sent, whatever was opened, reloaded or failed in between. Slots only move
forward, so none is used twice (`Schedule.nodup_slots`).
-/

set_option autoImplicit false

namespace SkPqc

open Library Ratchet Kem Idealised

namespace DmSession

/-! ## Slots -/

/-- The slot of a frame. -/
def SealedDmFrame.slot (frame : SealedDmFrame) : UInt64 × UInt64 := (frame.epoch, frame.index)

/-- What the key of a frame is derived from. -/
def Sent.keyInput (sent : Sent) : EpochSecret × UInt64 × UInt64 :=
  (sent.secret, sent.frame.epoch, sent.frame.index)

/-- The later frame has the next index, or starts the next epoch. -/
def Follows (earlier later : Sent) : Prop :=
  later.frame.epoch = earlier.frame.epoch ∧
      later.frame.index.toNat = earlier.frame.index.toNat + 1 ∨
    later.frame.epoch.toNat = earlier.frame.epoch.toNat + 1 ∧ later.frame.index = 0

/-- The slot of the first frame is before that of the second. -/
def Before (earlier later : Sent) : Prop :=
  earlier.frame.epoch.toNat < later.frame.epoch.toNat ∨
    earlier.frame.epoch = later.frame.epoch ∧
      earlier.frame.index.toNat < later.frame.index.toNat

theorem Follows.before {earlier later : Sent} (follows : Follows earlier later) :
    Before earlier later := by
  rcases follows with ⟨epoch, index⟩ | ⟨epoch, _⟩
  · exact .inr ⟨epoch.symm, by omega⟩
  · exact .inl (by omega)

instance : Trans Before Before Before where
  trans := by
    intro first second third earlier later
    rcases earlier with epoch | ⟨epoch, index⟩ <;> rcases later with epoch' | ⟨epoch', index'⟩
    · exact .inl (epoch.trans epoch')
    · exact .inl (epoch' ▸ epoch)
    · exact .inl (epoch ▸ epoch')
    · exact .inr ⟨epoch.trans epoch', index.trans index'⟩

theorem Before.slot_ne {earlier later : Sent} (before : Before earlier later) :
    earlier.frame.slot ≠ later.frame.slot := by
  intro equal
  obtain ⟨epoch, index⟩ := Prod.mk.inj equal
  rcases before with less | ⟨_, less⟩
  · exact absurd (congrArg UInt64.toNat epoch) (Nat.ne_of_lt less)
  · exact absurd (congrArg UInt64.toNat index) (Nat.ne_of_lt less)

/-! ## Schedules -/

/-- The frame is sealed before the epoch it belongs to reaches the age bound. The
age counts from the clock reading of the epoch's first frame. -/
def Young (rekeyAgeSeconds : UInt64) (sent : List Sent) (frame : Sent) : Prop :=
  ∃ first ∈ sent, first.frame.index = 0 ∧ first.frame.epoch = frame.frame.epoch ∧
    frame.draws.now - first.draws.startedAt < (rekeyAgeSeconds.toNat : Rat)

/-- The order in which a session uses slots. -/
structure Schedule (rekeyMsgBound rekeyAgeSeconds : UInt64) (sent : List Sent) : Prop where
  starts : ∀ first ∈ sent.head?, first.frame.slot = (0, 0)
  follows : sent.IsChain Follows
  bounded : ∀ frame ∈ sent, frame.frame.index.toNat < max 1 rekeyMsgBound.toNat
  young : ∀ frame ∈ sent, frame.frame.index ≠ 0 → Young rekeyAgeSeconds sent frame

section

variable {rekeyMsgBound rekeyAgeSeconds : UInt64} {sent : List Sent}

theorem Schedule.before (schedule : Schedule rekeyMsgBound rekeyAgeSeconds sent) :
    sent.Pairwise Before :=
  (schedule.follows.imp fun _ _ follows => follows.before).pairwise

/-- No slot is used twice. -/
theorem Schedule.nodup_slots (schedule : Schedule rekeyMsgBound rekeyAgeSeconds sent) :
    (sent.map fun frame => frame.frame.slot).Nodup :=
  List.pairwise_map.mpr (schedule.before.imp fun before => before.slot_ne)

/-- No message key is derived twice from the same input. -/
theorem Schedule.nodup_keyInputs (schedule : Schedule rekeyMsgBound rekeyAgeSeconds sent) :
    (sent.map Sent.keyInput).Nodup :=
  List.pairwise_map.mpr (schedule.before.imp fun before equal =>
    before.slot_ne (Prod.mk.inj equal).2)

theorem Schedule.nil : Schedule rekeyMsgBound rekeyAgeSeconds [] where
  starts _ impossible := by cases impossible
  follows := .nil
  bounded _ impossible := by cases impossible
  young _ impossible := by cases impossible

theorem Young.append {frame : Sent} (young : Young rekeyAgeSeconds sent frame) (next : Sent) :
    Young rekeyAgeSeconds (sent ++ [next]) frame := by
  obtain ⟨first, found, rest⟩ := young
  exact ⟨first, List.mem_append_left _ found, rest⟩

/-- A schedule goes on with a frame that follows the last one. -/
theorem Schedule.append (schedule : Schedule rekeyMsgBound rekeyAgeSeconds sent) {next : Sent}
    (starts : sent = [] → next.frame.slot = (0, 0))
    (follows : ∀ last ∈ sent.getLast?, Follows last next)
    (bounded : next.frame.index.toNat < max 1 rekeyMsgBound.toNat)
    (young : next.frame.index ≠ 0 → Young rekeyAgeSeconds sent next) :
    Schedule rekeyMsgBound rekeyAgeSeconds (sent ++ [next]) where
  starts first found := by
    cases sent with
    | nil =>
        cases found
        exact starts rfl
    | cons head rest => exact schedule.starts first found
  follows := schedule.follows.append (.singleton next) fun last found first same => by
    cases same
    exact follows last found
  bounded frame found := by
    rcases List.mem_append.mp found with earlier | new
    · exact schedule.bounded frame earlier
    · rw [List.mem_singleton.mp new]
      exact bounded
  young frame found later := by
    rcases List.mem_append.mp found with earlier | new
    · exact (schedule.young frame earlier later).append next
    · rw [List.mem_singleton.mp new] at later ⊢
      exact (young later).append next

end

/-! ## The session follows its schedule -/

/-- The session stands right after the last frame it sent. -/
structure Tracks (rekeyMsgBound rekeyAgeSeconds : UInt64) (sent : List Sent)
    (session : DmSession) : Prop where
  schedule : Schedule rekeyMsgBound rekeyAgeSeconds sent
  persistent : session.Persistent
  msgBound : session.rekeyMsgBound = rekeyMsgBound
  ageBound : session.rekeyAgeSeconds = rekeyAgeSeconds
  idle : session.ratchet = none → sent = []
  last : ∀ ratchet, session.ratchet = some ratchet → ∃ last ∈ sent.getLast?,
    last.frame.epoch = ratchet.epoch ∧ last.frame.epoch.toNat < 2 ^ 64 - 1 ∧
      ratchet.messageIndex.toNat = last.frame.index.toNat + 1
  started : ∀ ratchet, session.ratchet = some ratchet → ∃ first ∈ sent,
    first.frame.index = 0 ∧ first.frame.epoch = ratchet.epoch ∧
      first.draws.startedAt = ratchet.epochStartedAt

/-- What a run is assumed to do at each call: a seal either returns or fails in
the KEM, and the epoch number of a frame is not the last one. -/
def Regular (P : Primitives) (build : Build) (session : DmSession) : Call → Prop
  | .seal plaintext peerHybridPub draws =>
      let outcome := ((DmSession.seal P build plaintext peerHybridPub draws).run session).1
      outcome ≠ .error .openFailed ∧
        ∀ frame, outcome = .ok frame → frame.epoch.toNat < 2 ^ 64 - 1
  | _ => True

section

variable {P : Primitives} {build : Build} {rekeyMsgBound rekeyAgeSeconds : UInt64}
  {sent : List Sent} {session : DmSession}

theorem Tracks.withBounds (peer : String) (rekeyMsgBound rekeyAgeSeconds : UInt64) :
    Tracks rekeyMsgBound rekeyAgeSeconds [] (withBounds peer rekeyMsgBound rekeyAgeSeconds) where
  schedule := .nil
  persistent := .withBounds peer rekeyMsgBound rekeyAgeSeconds
  msgBound := rfl
  ageBound := rfl
  idle _ := rfl
  last _ impossible := by cases impossible
  started _ impossible := by cases impossible

/-- Storing a secret does not move the session. -/
theorem Tracks.installed (tracks : Tracks rekeyMsgBound rekeyAgeSeconds sent session)
    {epoch : UInt64} {secret : EpochSecret} (vacant : session.epochSecrets[epoch]? = none) :
    Tracks rekeyMsgBound rekeyAgeSeconds sent (session.installed epoch secret) :=
  { tracks with persistent := tracks.persistent.installed vacant }

/-- A frame in the epoch that goes on. -/
theorem Tracks.schedule_current (tracks : Tracks rekeyMsgBound rekeyAgeSeconds sent session)
    {ratchet : DmRatchet} (holds : session.ratchet = some ratchet) {next : Sent}
    (young : ratchet.shouldRekey next.draws.now = false)
    (slot : next.frame.slot = (ratchet.epoch, ratchet.messageIndex)) :
    Schedule rekeyMsgBound rekeyAgeSeconds (sent ++ [next]) := by
  obtain ⟨last, found, epoch, _, index⟩ := tracks.last ratchet holds
  obtain ⟨nextEpoch, nextIndex⟩ := Prod.mk.inj slot
  obtain ⟨below, age⟩ := DmRatchet.shouldRekey_eq_false.mp young
  refine tracks.schedule.append ?_ ?_ ?_ ?_
  · rintro rfl
    cases found
  · intro other found'
    rw [Option.mem_unique found' found]
    exact .inl ⟨nextEpoch.trans epoch.symm, by rw [nextIndex, index]⟩
  · rw [tracks.persistent.msgBound ratchet holds, tracks.msgBound] at below
    rw [nextIndex]
    exact lt_max_of_lt_right (UInt64.lt_iff_toNat_lt.mp below)
  · intro _
    obtain ⟨first, sentFirst, start, firstEpoch, startedAt⟩ := tracks.started ratchet holds
    rw [tracks.persistent.ageBound ratchet holds, tracks.ageBound, ← startedAt] at age
    exact ⟨first, sentFirst, start, firstEpoch.trans nextEpoch.symm, age⟩

/-- The first frame of an epoch that begins. -/
theorem Tracks.schedule_fresh (tracks : Tracks rekeyMsgBound rekeyAgeSeconds sent session)
    {now : Rat} {epoch : UInt64} {next : Sent}
    (beginning : (session.beginAt build now : Outcome DmSessionError _) = .ok (some epoch))
    (slot : next.frame.slot = (epoch, 0)) :
    Schedule rekeyMsgBound rekeyAgeSeconds (sent ++ [next]) := by
  obtain ⟨nextEpoch, nextIndex⟩ := Prod.mk.inj slot
  have bounded : next.frame.index.toNat < max 1 rekeyMsgBound.toNat := by
    rw [nextIndex]
    exact lt_max_of_lt_left (by decide)
  have first : next.frame.index ≠ 0 → Young rekeyAgeSeconds sent next :=
    fun later => absurd nextIndex later
  rcases beginAt_eq_some beginning with ⟨idle, rfl⟩ | ⟨ratchet, holds, _, rfl, _⟩
  · refine tracks.schedule.append (fun _ => slot) ?_ bounded first
    intro last found
    rw [tracks.idle idle] at found
    cases found
  · obtain ⟨last, found, epoch, small, _⟩ := tracks.last ratchet holds
    refine tracks.schedule.append ?_ ?_ bounded first
    · rintro rfl
      cases found
    · intro other found'
      rw [Option.mem_unique found' found]
      refine .inr ⟨?_, nextIndex⟩
      rw [nextEpoch, ← epoch]
      exact toNat_add_one (by omega)

/-- Sending a frame moves the session right after it. -/
theorem Tracks.emitted (tracks : Tracks rekeyMsgBound rekeyAgeSeconds sent session)
    {keyed : DmSession} {ratchet : DmRatchet} {peerHybridPub : Bytes} {next : Sent}
    (key : Keyed P build session peerHybridPub next.draws keyed ratchet)
    (slot : next.frame.slot = (ratchet.epoch, ratchet.messageIndex))
    (small : next.frame.epoch.toNat < 2 ^ 64 - 1) :
    Tracks rekeyMsgBound rekeyAgeSeconds (sent ++ [next]) (keyed.advanced ratchet) := by
  obtain ⟨nextEpoch, nextIndex⟩ := Prod.mk.inj slot
  have isLast : next ∈ (sent ++ [next]).getLast? := by simp
  have room := key.room
  have advanced : (ratchet.messageIndex + 1).toNat = next.frame.index.toNat + 1 := by
    rw [toNat_add_one room, nextIndex]
  have persistent := tracks.persistent.keyed key
  cases key with
  | current holds young =>
      obtain ⟨first, found, start⟩ := tracks.started ratchet holds
      exact
        { schedule := tracks.schedule_current holds young slot
          persistent := persistent
          msgBound := tracks.msgBound
          ageBound := tracks.ageBound
          idle := by rintro ⟨⟩
          last := by
            rintro _ ⟨⟩
            exact ⟨next, isLast, nextEpoch, small, advanced⟩
          started := by
            rintro _ ⟨⟩
            exact ⟨first, List.mem_append_left _ found, start⟩ }
  | fresh beginning wrapped =>
      exact
        { schedule := tracks.schedule_fresh beginning slot
          persistent := persistent
          msgBound := tracks.msgBound
          ageBound := tracks.ageBound
          idle := by rintro ⟨⟩
          last := by
            rintro _ ⟨⟩
            exact ⟨next, isLast, nextEpoch, small, advanced⟩
          started := by
            rintro _ ⟨⟩
            exact ⟨next, by simp, nextIndex, nextEpoch, rfl⟩ }

/-- **One call keeps the session right after the last frame it sent.** -/
theorem Tracks.step (tracks : Tracks rekeyMsgBound rekeyAgeSeconds sent session) (call : Call)
    (regular : Regular P build session call) :
    Tracks rekeyMsgBound rekeyAgeSeconds
      (sent ++ (sentBy call ((machine P build).step session call).1
        ((machine P build).step session call).2).toList)
      ((machine P build).step session call).2 := by
  cases call with
  | «seal» plaintext peerHybridPub draws =>
      obtain ⟨encrypts, small⟩ := regular
      have sealing := run_seal P build session plaintext peerHybridPub draws
      rw [step_seal]
      generalize (DmSession.seal P build plaintext peerHybridPub draws).run session = result at *
      cases sealing with
      | overflow beginning => simpa [sentBy] using tracks
      | wrapFailed beginning failed => simpa [sentBy] using tracks
      | encryptFailed key failed => exact absurd rfl encrypts
      | emitted key encrypted => exact tracks.emitted key rfl (small _ rfl)
  | «open» frame myHybridPriv =>
      have opening := run_open P session frame myHybridPriv
      rw [step_open]
      generalize (DmSession.open P frame myHybridPriv).run session = result at *
      cases opening with
      | kamRejected carried vacant failed => simpa [sentBy] using tracks
      | installed carried vacant unwrapped => simpa [sentBy] using tracks.installed vacant
      | missing bare vacant => simpa [sentBy] using tracks
      | known stored => simpa [sentBy] using tracks
  | reload =>
      rw [step_reload, run_reload tracks.persistent]
      simpa [sentBy] using tracks

/-- Every regular run leaves the session right after the last frame it sent. -/
theorem tracks_sent (peer : String) {calls : List Call}
    (regular : (machine P build).Guarded (Regular P build)
      (DmSession.withBounds peer rekeyMsgBound rekeyAgeSeconds) calls) :
    Tracks rekeyMsgBound rekeyAgeSeconds
      (DmSession.sent P build (DmSession.withBounds peer rekeyMsgBound rekeyAgeSeconds) calls)
      ((machine P build).final (DmSession.withBounds peer rekeyMsgBound rekeyAgeSeconds)
        calls) := by
  have keeps : ∀ (past : List Sent) (session : DmSession) (call : Call),
      Tracks rekeyMsgBound rekeyAgeSeconds past session → Regular P build session call →
      Tracks rekeyMsgBound rekeyAgeSeconds
        (past ++ (sentBy call ((machine P build).step session call).1
          ((machine P build).step session call).2).toList)
        ((machine P build).step session call).2 :=
    fun _ _ call tracks regular => tracks.step call regular
  exact Machine.log_invariant keeps (Tracks.withBounds peer rekeyMsgBound rekeyAgeSeconds) regular

/-- A seal that fails in the KEM leaves the session as it was. -/
theorem seal_unchanged_of_ratchet_error {plaintext peerHybridPub : Bytes} {draws : SealDraws}
    {reason : RatchetError} {after : DmSession}
    (failed : (DmSession.seal P build plaintext peerHybridPub draws).run session =
      (.error (.ratchet reason), after)) : after = session := by
  have sealing := run_seal P build session plaintext peerHybridPub draws
  rw [failed] at sealing
  cases sealing with
  | wrapFailed beginning failed => rfl

/-- **Send schedule and slot uniqueness.** In every regular run of seals, opens
and reloads from a new session, the frames that the calls returned follow the
schedule, no slot and no key input is used by two of them, and a failed seal
changes nothing. -/
theorem send_schedule (peer : String) {calls : List Call}
    (regular : (machine P build).Guarded (Regular P build)
      (DmSession.withBounds peer rekeyMsgBound rekeyAgeSeconds) calls) :
    let start := DmSession.withBounds peer rekeyMsgBound rekeyAgeSeconds
    let sent := DmSession.sent P build start calls
    sent.map Sent.frame = returned P build start calls ∧
      Schedule rekeyMsgBound rekeyAgeSeconds sent ∧
      (sent.map fun frame => frame.frame.slot).Nodup ∧
      (sent.map Sent.keyInput).Nodup ∧
      ∀ (session after : DmSession) (plaintext peerHybridPub : Bytes) (draws : SealDraws)
        (reason : RatchetError),
        (DmSession.seal P build plaintext peerHybridPub draws).run session =
          (.error (.ratchet reason), after) → after = session :=
  have schedule := (tracks_sent peer regular).schedule
  ⟨map_frame_sent P build _ calls, schedule, schedule.nodup_slots, schedule.nodup_keyInputs,
    fun _ _ _ _ _ _ failed => seal_unchanged_of_ratchet_error failed⟩

end

/-! ## A regular run -/

/-- Beginning an epoch is regular, short of the last one. -/
theorem exists_regular_of_due {build : Build} {session : DmSession} {epoch : UInt64}
    (due : Due build session epoch) (small : epoch.toNat < 2 ^ 64 - 1) (plaintext : Bytes)
    (keys : KeypairDraws) (draws : SealDraws) :
    let call : Call := .seal plaintext (hybridKeypair (markedZero 1) keys).publicKey draws
    Regular (markedZero 1) build session call ∧
      ∃ kam body, (machine (markedZero 1) build).step session call =
        (.sealed (.ok (firstFrame epoch draws kam body)), session.afterFirst epoch draws kam) := by
  intro call
  obtain ⟨kam, body, step, -⟩ := exists_firstFrame_marked 1 due plaintext keys draws
  have outcome : ((DmSession.seal (markedZero 1) build plaintext
      (hybridKeypair (markedZero 1) keys).publicKey draws).run session).1 =
        .ok (firstFrame epoch draws kam body) := Answer.sealed.inj (congrArg Prod.fst step)
  refine ⟨⟨by simp [outcome], fun frame emitted => ?_⟩, kam, body, step⟩
  rw [outcome] at emitted
  cases emitted
  exact small

/-- Two epochs with a reload between them: two frames are sent. -/
theorem send_schedule_two_epochs :
    let build : Build := ⟨true, .w64⟩
    let pub := (hybridKeypair (markedZero 1) (sampleKeys 1)).publicKey
    let start := DmSession.withBounds "peer" 1 604800
    let calls : List Call :=
      [.seal [] pub (sampleDraws 1), .reload, .seal [] pub (sampleDraws 2)]
    let sent := DmSession.sent (markedZero 1) build start calls
    sent.map (fun frame => frame.frame.slot) = [(0, 0), (1, 0)] ∧
      sent.map Sent.frame = returned (markedZero 1) build start calls ∧
      Schedule 1 604800 sent ∧ (sent.map fun frame => frame.frame.slot).Nodup ∧
      (sent.map Sent.keyInput).Nodup ∧
      ∀ (session after : DmSession) (plaintext peerHybridPub : Bytes) (draws : SealDraws)
        (reason : RatchetError),
        (DmSession.seal (markedZero 1) build plaintext peerHybridPub draws).run session =
          (.error (.ratchet reason), after) → after = session := by
  intro build pub start calls sent
  have persistent : start.Persistent := .withBounds "peer" 1 604800
  obtain ⟨first, kam, body, step⟩ := exists_regular_of_due (due_withBounds build "peer" 1 604800)
    (by decide) [] (sampleKeys 1) (sampleDraws 1)
  have due : Due build (start.afterFirst 0 (sampleDraws 1) kam) (0 + 1) :=
    due_afterFirst (by decide) fun _ => by decide
  obtain ⟨second, kam', body', step'⟩ := exists_regular_of_due due (by decide) [] (sampleKeys 1)
    (sampleDraws 2)
  have reloaded : (machine (markedZero 1) build).step (start.afterFirst 0 (sampleDraws 1) kam)
      .reload = (.reloaded (.ok ()), start.afterFirst 0 (sampleDraws 1) kam) := by
    have after := @Persistent.step (markedZero 1) build start persistent
      (.seal [] pub (sampleDraws 1))
    rw [step] at after
    rw [step_reload, run_reload after]
  have regular : (machine (markedZero 1) build).Guarded (Regular (markedZero 1) build)
      start calls := by
    refine .cons first (.cons trivial (.cons ?_ .nil))
    rw [step, reloaded]
    exact second
  refine ⟨?_, send_schedule "peer" regular⟩
  simp only [sent, calls, DmSession.sent, Machine.log_cons, Machine.log_nil, pub, start, step,
    reloaded, step', sentBy]
  rfl

end DmSession
end SkPqc

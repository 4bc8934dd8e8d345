import SkPqc.DmSession.Store
import SkPqc.DmSession.Counters
import SkPqc.DmSession.TwoWay
import SkPqc.KeySchedule
import SkPqc.Library.Interleaving

/-!
# Two sessions in conversation

Each side seals to the key of the other and opens what the other sent. The network
loses, delays, reorders and repeats frames, and either side may be rebuilt from its
snapshot at any time. What each side has sent and stored follows from its own calls
alone (`speaks_final`, `store_eq_lookup`); the other side enters only through the
frames that arrive.

The epochs of the two sides share their numbers. A frame opens when its epoch is known
from a KAM that arrived, and never once the receiver has begun an epoch of the same
number (`conversation_delivery`). No message key serves twice on either side
(`keys_nodup`), and a stored snapshot opens everything its owner ever sent
(`snapshot_opens_sent`).
-/

set_option autoImplicit false

namespace SkPqc

open Library Kem Ratchet Idealised

namespace DmSession

/-! ## Parties and events -/

inductive Side where
  | left
  | right
  deriving DecidableEq, Repr

def Side.other : Side → Side
  | left => right
  | right => left

@[simp] theorem Side.other_other (side : Side) : side.other.other = side := by
  cases side <;> rfl

/-- Who talks: the key pair of each side and the arguments its session is made with. -/
structure Parties where
  keys : Side → KeypairDraws
  peer : Side → String
  rekeyMsgBound : Side → UInt64
  rekeyAgeSeconds : Side → UInt64

/-- The session that each side starts with. -/
def Parties.start (parties : Parties) (side : Side) : DmSession :=
  withBounds (parties.peer side) (parties.rekeyMsgBound side) (parties.rekeyAgeSeconds side)

/-- The frame that a call opens. -/
def Call.opened : Call → Option SealedDmFrame
  | .open frame _ => some frame
  | _ => none

/-- The epoch secret that a call would begin an epoch with. -/
def Call.drawn : Call → Option EpochSecret
  | .seal _ _ draws => some draws.epochSecret
  | _ => none

/-- The frames that arrived at one side, in order of arrival. -/
def arrivedAt (events : List (Side × Call)) (side : Side) : List SealedDmFrame :=
  (inputsOf side events).filterMap Call.opened

/-- The epoch secrets that one side drew. -/
def drawnBy (events : List (Side × Call)) (side : Side) : List EpochSecret :=
  (inputsOf side events).filterMap Call.drawn

/-- A frame of the epoch that carries the KAM is among those that arrived. -/
def KamAt (arrived : List SealedDmFrame) (epoch : UInt64) : Prop :=
  ∃ earlier ∈ arrived, earlier.epoch = epoch ∧ earlier.index < kamRepeat

instance decidableKamAt (arrived : List SealedDmFrame) (epoch : UInt64) :
    Decidable (KamAt arrived epoch) :=
  List.decidableBEx
    (fun earlier : SealedDmFrame => earlier.epoch = epoch ∧ earlier.index < kamRepeat) arrived

section

variable (P : Primitives) (build : Build) (parties : Parties)

/-- The key pair of a side. -/
def Parties.own (side : Side) : HybridKeyPair := hybridKeypair P (parties.keys side)

/-- The session of a side after some events. -/
def sessionAt (events : List (Side × Call)) (side : Side) : DmSession :=
  (Machine.interleaved fun _ => machine P build).final parties.start events side

/-- The frames that a side sent, in order. -/
def sentFrom (events : List (Side × Call)) (side : Side) : List Sent :=
  sent P build (parties.start side) (inputsOf side events)

/-- The events that two honest sides and a network that makes up no frame bring about. -/
inductive Conversation : List (Side × Call) → Prop
  | nil : Conversation []
  | «seal» {events : List (Side × Call)} (before : Conversation events) (side : Side)
      (plaintext : Bytes) (draws : SealDraws) :
      Conversation
        (events ++ [(side, .seal plaintext (parties.own P side.other).publicKey draws)])
  | deliver {events : List (Side × Call)} (before : Conversation events) (side : Side)
      {frame : Sent} (found : frame ∈ sentFrom P build parties events side.other) :
      Conversation (events ++ [(side, .open frame.frame (parties.own P side).privateKey)])
  | reload {events : List (Side × Call)} (before : Conversation events) (side : Side) :
      Conversation (events ++ [(side, .reload)])

end

/-! ## What one side sends -/

/-- What a session that seals to one key has begun and sent. It has begun the epochs from
zero on, each once, and sent its frames at places in order, each under the secret of an
epoch it has begun. -/
structure Speaks (P : Primitives) (keys : KeypairDraws) (begun : List (UInt64 × EpochSecret))
    (sent : List Sent) (session : DmSession) : Prop where
  persistent : session.Persistent
  epochs : (begun.map fun entry => entry.1.toNat) = List.range session.epochsBegun
  current : ∀ ratchet, session.ratchet = some ratchet →
    (ratchet.epoch, ratchet.epochSecret) ∈ begun ∧ ∃ kam, session.currentKam = some kam ∧
      unwrapDmEpochSecret P kam (hybridKeypair P keys).privateKey = .ok ratchet.epochSecret
  honest : ∀ frame ∈ sent, Honest P keys frame
  under : ∀ frame ∈ sent, (frame.frame.epoch, frame.secret) ∈ begun
  passed : ∀ frame ∈ sent, frame.place < session.place
  increasing : sent.Pairwise fun first second => first.place < second.place

section

variable {P : Primitives} {build : Build} {keys : KeypairDraws}
  {begun : List (UInt64 × EpochSecret)} {sent : List Sent} {session keyed : DmSession}
  {ratchet : DmRatchet} {draws : SealDraws}

theorem Speaks.withBounds (peer : String) (rekeyMsgBound rekeyAgeSeconds : UInt64) :
    Speaks P keys [] [] (withBounds peer rekeyMsgBound rekeyAgeSeconds) where
  persistent := .withBounds peer rekeyMsgBound rekeyAgeSeconds
  epochs := rfl
  current _ impossible := by cases impossible
  honest _ impossible := by cases impossible
  under _ impossible := by cases impossible
  passed _ impossible := by cases impossible
  increasing := .nil

/-- An epoch is begun at most once. -/
theorem Speaks.secret_unique (speaks : Speaks P keys begun sent session) {epoch : UInt64}
    {secret secret' : EpochSecret} (found : (epoch, secret) ∈ begun)
    (found' : (epoch, secret') ∈ begun) : secret = secret' := by
  have nodup : (begun.map fun entry => entry.1.toNat).Nodup := by
    rw [speaks.epochs]
    exact List.nodup_range
  exact (Prod.mk.inj (List.inj_on_of_nodup_map nodup found found' rfl)).2

/-- The epochs that were begun are those below the count. -/
theorem Speaks.exists_secret_iff (speaks : Speaks P keys begun sent session) {epoch : UInt64} :
    (∃ secret, (epoch, secret) ∈ begun) ↔ epoch.toNat < session.epochsBegun := by
  rw [← List.mem_range, ← speaks.epochs, List.mem_map]
  constructor
  · rintro ⟨secret, found⟩
    exact ⟨_, found, rfl⟩
  · rintro ⟨⟨other, secret⟩, found, same⟩
    obtain rfl : other = epoch := UInt64.toNat_inj.mp same
    exact ⟨secret, found⟩

/-- Room for the next epoch is room for the one that a seal begins. -/
theorem HasNextEpoch.epochRoom (next : HasNextEpoch build session) {plaintext peerHybridPub : Bytes}
    (key : Keyed P build session peerHybridPub draws keyed ratchet) :
    EpochRoom session (.seal plaintext peerHybridPub draws) := by
  intro old holds due
  cases key with
  | current holds' young =>
      cases holds.symm.trans holds'
      rw [due] at young
      cases young
  | fresh beginning wrapped =>
      rcases beginAt_eq_some beginning with ⟨idle, _⟩ | ⟨old', holds', _, _, checked⟩
      · cases holds.symm.trans idle
      · cases holds.symm.trans holds'
        simp only [HasNextEpoch, epochsBegun, holds] at next
        exact next.elim checked id

/-- Keying the session for the next frame begins the epoch it is sent in, if need be. -/
theorem Speaks.advanced (kem : P.KemCorrect) (aead : P.AeadCorrect)
    (speaks : Speaks P keys begun sent session) (next : HasNextEpoch build session)
    (plaintext : Bytes) (key : Keyed P build session (hybridKeypair P keys).publicKey draws
      keyed ratchet) :
    let begun' := begun ++ (begins P build session
      (.seal plaintext (hybridKeypair P keys).publicKey draws)).toList
    Speaks P keys begun' sent (keyed.advanced ratchet) ∧
      (ratchet.epoch, ratchet.epochSecret) ∈ begun' ∧
      session.place ≤ placeOf ratchet.epoch ratchet.messageIndex ∧
      ∃ kam, keyed.currentKam = some kam ∧
        unwrapDmEpochSecret P kam (hybridKeypair P keys).privateKey =
          .ok ratchet.epochSecret := by
  intro begun'
  have room : EpochRoom session (.seal plaintext (hybridKeypair P keys).publicKey draws) :=
    next.epochRoom key
  have behind : session.place ≤ placeOf ratchet.epoch ratchet.messageIndex := key.place_le room
  have passed : ∀ frame ∈ sent, frame.place < (keyed.advanced ratchet).place :=
    fun frame found => ((speaks.passed frame found).trans_le behind).trans key.place_lt
  have persistent := speaks.persistent.keyed key
  cases key with
  | current holds young =>
      have same : begun' = begun := by
        simp only [begun', begins_of_current holds young]
        exact List.append_nil begun
      obtain ⟨known, announced⟩ := speaks.current ratchet holds
      rw [same]
      refine ⟨⟨persistent, ?_, ?_, speaks.honest, speaks.under, passed, speaks.increasing⟩, known,
        behind, announced⟩
      · rw [speaks.epochs]
        simp only [epochsBegun, advanced, holds]
      · rintro _ ⟨⟩
        exact ⟨known, announced⟩
  | @fresh epoch kam beginning wrapped =>
      have number := next.toNat_beginAt beginning
      have same : begun' = begun ++ [(epoch, draws.epochSecret)] := by
        simp only [begun', begins_of_fresh beginning wrapped, Option.toList_some]
      have known : (epoch, draws.epochSecret) ∈ begun ++ [(epoch, draws.epochSecret)] := by simp
      have announced := unwrap_wrapDmEpochSecret kem aead keys wrapped
      rw [same]
      refine ⟨⟨persistent, ?_, ?_, speaks.honest, ?_, passed, speaks.increasing⟩, known, behind,
        kam, rfl, announced⟩
      · change _ = List.range (epoch.toNat + 1)
        rw [List.map_append, speaks.epochs, List.range_succ, number]
        simp [number]
      · rintro _ ⟨⟩
        exact ⟨known, kam, rfl, announced⟩
      · intro frame found
        exact List.mem_append_left _ (speaks.under frame found)

/-- A call of a session that seals to one key. -/
def SealsOnlyTo (peerHybridPub : Bytes) : Call → Prop
  | .seal _ pub _ => pub = peerHybridPub
  | _ => True

/-- **One call keeps what a session has begun and sent.** -/
theorem Speaks.step (kem : P.KemCorrect) (aead : P.AeadCorrect)
    (speaks : Speaks P keys begun sent session) (next : HasNextEpoch build session) {call : Call}
    (only : SealsOnlyTo (hybridKeypair P keys).publicKey call) :
    Speaks P keys (begun ++ (begins P build session call).toList)
      (sent ++ (sentBy call ((machine P build).step session call).1
        ((machine P build).step session call).2).toList)
      ((machine P build).step session call).2 := by
  cases call with
  | «seal» plaintext peerHybridPub draws =>
      cases only
      have sealing := run_seal P build session plaintext (hybridKeypair P keys).publicKey draws
      rw [step_seal]
      generalize (DmSession.seal P build plaintext (hybridKeypair P keys).publicKey draws).run
        session = result at sealing
      cases sealing with
      | overflow beginning => simpa [sentBy, begins, beginning] using speaks
      | wrapFailed beginning failed => simpa [sentBy, begins, beginning, failed] using speaks
      | encryptFailed key failed =>
          simpa [sentBy] using (speaks.advanced kem aead next plaintext key).1
      | @emitted keyed ratchet body key encrypted =>
          obtain ⟨moved, known, behind, kam, current, unwrapped⟩ :=
            speaks.advanced kem aead next plaintext key
          have split : ∀ {property : Sent → Prop} {last : Sent}, (∀ frame ∈ sent, property frame) →
              property last → ∀ frame ∈ sent ++ [last], property frame := by
            intro property last earlier new frame found
            rcases List.mem_append.mp found with before | here
            · exact earlier frame before
            · exact List.mem_singleton.mp here ▸ new
          refine ⟨moved.persistent, moved.epochs, moved.current, split moved.honest ?_,
            split moved.under known, split moved.passed key.place_lt, ?_⟩
          · exact ⟨rfl, encrypted, fun early => ⟨kam, (if_pos early).trans current, unwrapped⟩,
              fun late => if_neg late⟩
          · refine List.pairwise_append.mpr ⟨moved.increasing, List.pairwise_singleton _ _, ?_⟩
            intro first found second found'
            rw [List.mem_singleton.mp found']
            exact (speaks.passed first found).trans_le behind
  | «open» frame myHybridPriv =>
      have persistent : ((DmSession.open P frame myHybridPriv).run session).2.Persistent :=
        speaks.persistent.open
      have opening := run_open P session frame myHybridPriv
      rw [step_open]
      generalize (DmSession.open P frame myHybridPriv).run session = result at opening persistent
      cases opening with
      | kamRejected carried vacant failed => simpa [sentBy, begins] using speaks
      | installed carried vacant unwrapped =>
          simpa [sentBy, begins] using
            (⟨persistent, speaks.epochs, speaks.current, speaks.honest, speaks.under,
              speaks.passed, speaks.increasing⟩ : Speaks P keys begun sent _)
      | missing bare vacant => simpa [sentBy, begins] using speaks
      | known stored => simpa [sentBy, begins] using speaks
  | reload =>
      rw [step_reload, run_reload speaks.persistent]
      simpa [sentBy, begins] using speaks

/-- Every run of a session that seals to one key. -/
theorem speaks_final (kem : P.KemCorrect) (aead : P.AeadCorrect)
    (speaks : Speaks P keys begun sent session) {calls : List Call}
    (only : ∀ call ∈ calls, SealsOnlyTo (hybridKeypair P keys).publicKey call)
    (counted : build.overflowChecks = true ∨ session.epochsBegun + calls.length ≤ 2 ^ 64) :
    Speaks P keys (begun ++ begunBy P build session calls)
      (sent ++ DmSession.sent P build session calls) ((machine P build).final session calls) := by
  induction calls generalizing begun sent session with
  | nil => simpa [begunBy, DmSession.sent] using speaks
  | cons call rest ih =>
      rw [List.length_cons] at counted
      have grows := @epochsBegun_step_le P build session speaks.persistent call
      have next : HasNextEpoch build session := counted.imp_right fun count => by omega
      have moved := speaks.step kem aead next (only call List.mem_cons_self)
      have later := ih moved (fun call found => only call (List.mem_cons_of_mem _ found))
        (counted.imp_right fun count => by omega)
      simpa [begunBy, DmSession.sent] using later

/-- What a run began, one of its seals drew. -/
theorem exists_drawn_of_begun {session : DmSession} {calls : List Call} {epoch : UInt64}
    {secret : EpochSecret} (found : (epoch, secret) ∈ begunBy P build session calls) :
    secret ∈ calls.filterMap Call.drawn := by
  induction calls generalizing session with
  | nil => cases found
  | cons call rest ih =>
      rcases List.mem_append.mp found with here | later
      · obtain ⟨plaintext, peerHybridPub, draws, kam, rfl, rfl, _⟩ :=
          begins_eq_some (Option.mem_toList.mp here)
        exact List.mem_filterMap.mpr ⟨_, List.mem_cons_self, rfl⟩
      · obtain ⟨earlier, member, drew⟩ := List.mem_filterMap.mp (ih later)
        exact List.mem_filterMap.mpr ⟨earlier, List.mem_cons_of_mem _ member, drew⟩

/-- An honest frame brings its secret along when it is one of the first of its epoch. -/
theorem Honest.brings {frame : Sent} (honest : Honest P keys frame) :
    DmSession.brings P (.open frame.frame (hybridKeypair P keys).privateKey) =
      if frame.frame.index < kamRepeat then some (frame.frame.epoch, frame.secret) else none := by
  by_cases early : frame.frame.index < kamRepeat
  · obtain ⟨kam, carried, unwrapped⟩ := honest.carries early
    rw [brings_open carried, unwrapped, if_pos early]
  · rw [brings_bare _ (honest.bare early), if_neg early]

end

/-! ## What a side is in a conversation -/

section

variable {P : Primitives} {build : Build} {parties : Parties} {events : List (Side × Call)}

theorem sessionAt_eq (side : Side) :
    sessionAt P build parties events side =
      (machine P build).final (parties.start side) (inputsOf side events) :=
  Machine.final_interleaved _ _ events side

theorem sentFrom_append {side : Side} {frame : Sent}
    (found : frame ∈ sentFrom P build parties events side) (later : List (Side × Call)) :
    frame ∈ sentFrom P build parties (events ++ later) side := by
  rw [sentFrom, inputsOf_append, sent, Machine.log_append]
  exact List.mem_append_left _ found

/-- What a side calls: it seals to the other, and opens what the other sent. -/
def Spoken (P : Primitives) (build : Build) (parties : Parties) (events : List (Side × Call))
    (side : Side) : Call → Prop
  | .seal _ peerHybridPub _ => peerHybridPub = (parties.own P side.other).publicKey
  | .open frame myHybridPriv => myHybridPriv = (parties.own P side).privateKey ∧
      ∃ origin ∈ sentFrom P build parties events side.other, origin.frame = frame
  | .reload => True

theorem Spoken.append {side : Side} {call : Call} (spoken : Spoken P build parties events side call)
    (later : List (Side × Call)) : Spoken P build parties (events ++ later) side call := by
  cases call with
  | «seal» plaintext peerHybridPub draws => exact spoken
  | «open» frame myHybridPriv =>
      obtain ⟨own, origin, sent, same⟩ := spoken
      exact ⟨own, origin, sentFrom_append sent later, same⟩
  | reload => trivial

theorem Conversation.spoken (conversation : Conversation P build parties events) {side : Side}
    {call : Call} (found : (side, call) ∈ events) : Spoken P build parties events side call := by
  induction conversation with
  | nil => cases found
  | «seal» before speaker plaintext draws ih =>
      rcases List.mem_append.mp found with earlier | last
      · exact (ih earlier).append _
      · cases List.mem_singleton.mp last
        rfl
  | deliver before listener sent ih =>
      rcases List.mem_append.mp found with earlier | last
      · exact (ih earlier).append _
      · cases List.mem_singleton.mp last
        exact ⟨rfl, _, sentFrom_append sent _, rfl⟩
  | reload before owner ih =>
      rcases List.mem_append.mp found with earlier | last
      · exact (ih earlier).append _
      · cases List.mem_singleton.mp last
        trivial

/-- Each side speaks to the other. -/
theorem Conversation.speaks (conversation : Conversation P build parties events)
    (kem : P.KemCorrect) (aead : P.AeadCorrect)
    (counted : build.overflowChecks = true ∨ events.length ≤ 2 ^ 64) (side : Side) :
    Speaks P (parties.keys side.other)
      (begunBy P build (parties.start side) (inputsOf side events))
      (sentFrom P build parties events side) (sessionAt P build parties events side) := by
  have start : Speaks P (parties.keys side.other) [] [] (parties.start side) :=
    .withBounds (parties.peer side) (parties.rekeyMsgBound side) (parties.rekeyAgeSeconds side)
  have only : ∀ call ∈ inputsOf side events,
      SealsOnlyTo (parties.own P side.other).publicKey call := by
    intro call found
    have spoken := conversation.spoken (mem_inputsOf.mp found)
    cases call with
    | «seal» plaintext peerHybridPub draws => exact spoken
    | «open» frame myHybridPriv => trivial
    | reload => trivial
  have fresh : build.overflowChecks = true ∨
      (parties.start side).epochsBegun + (inputsOf side events).length ≤ 2 ^ 64 := by
    refine counted.imp_right fun count => ?_
    have fewer := length_inputsOf_le side events
    have none : (parties.start side).epochsBegun = 0 := rfl
    omega
  rw [sessionAt_eq]
  exact speaks_final kem aead start only fresh

/-- What the other side sent is honest. -/
theorem Conversation.honest (conversation : Conversation P build parties events)
    (kem : P.KemCorrect) (aead : P.AeadCorrect)
    (counted : build.overflowChecks = true ∨ events.length ≤ 2 ^ 64) {side : Side} {frame : Sent}
    (found : frame ∈ sentFrom P build parties events side.other) :
    Honest P (parties.keys side) frame := by
  have honest := (conversation.speaks kem aead counted side.other).honest frame found
  rwa [Side.other_other] at honest

/-- What arrived at a side, the other one sent. -/
theorem Conversation.exists_origin (conversation : Conversation P build parties events)
    {side : Side} {frame : SealedDmFrame} (arrived : frame ∈ arrivedAt events side) :
    ∃ origin ∈ sentFrom P build parties events side.other, origin.frame = frame ∧
      .open frame (parties.own P side).privateKey ∈ inputsOf side events := by
  obtain ⟨call, called, opened⟩ := List.mem_filterMap.mp arrived
  have spoken := conversation.spoken (mem_inputsOf.mp called)
  cases call with
  | «seal» plaintext peerHybridPub draws => cases opened
  | «open» frame myHybridPriv =>
      cases opened
      obtain ⟨rfl, origin, sent, same⟩ := spoken
      exact ⟨origin, sent, same, called⟩
  | reload => cases opened

/-- The secrets brought along are those of the early frames that arrived. -/
theorem Conversation.mem_brought_iff (conversation : Conversation P build parties events)
    (kem : P.KemCorrect) (aead : P.AeadCorrect)
    (counted : build.overflowChecks = true ∨ events.length ≤ 2 ^ 64) {side : Side}
    {epoch : UInt64} {secret : EpochSecret} :
    (epoch, secret) ∈ broughtBy P (inputsOf side events) ↔
      ∃ origin ∈ sentFrom P build parties events side.other,
        origin.frame ∈ arrivedAt events side ∧ origin.frame.epoch = epoch ∧
          origin.frame.index < kamRepeat ∧ origin.secret = secret := by
  constructor
  · intro found
    obtain ⟨call, called, brought⟩ := List.mem_filterMap.mp found
    have spoken := conversation.spoken (mem_inputsOf.mp called)
    cases call with
    | «seal» plaintext peerHybridPub draws => cases brought
    | «open» frame myHybridPriv =>
        obtain ⟨rfl, origin, sent, rfl⟩ := spoken
        rw [Parties.own, (conversation.honest kem aead counted sent).brings] at brought
        split at brought
        · rename_i early
          cases brought
          exact ⟨origin, sent, List.mem_filterMap.mpr ⟨_, called, rfl⟩, rfl, early, rfl⟩
        · cases brought
    | reload => cases brought
  · rintro ⟨origin, sent, arrived, rfl, early, rfl⟩
    obtain ⟨-, -, -, called⟩ := conversation.exists_origin arrived
    refine List.mem_filterMap.mpr ⟨_, called, ?_⟩
    rw [Parties.own, (conversation.honest kem aead counted sent).brings, if_pos early]

/-! ## What a side stores -/

/-- An epoch that a side began holds the secret it drew for it. -/
theorem Conversation.getElem?_begun (conversation : Conversation P build parties events)
    (kem : P.KemCorrect) (aead : P.AeadCorrect)
    (counted : build.overflowChecks = true ∨ events.length ≤ 2 ^ 64) {side : Side}
    {epoch : UInt64} {secret : EpochSecret}
    (found : (epoch, secret) ∈ begunBy P build (parties.start side) (inputsOf side events)) :
    (sessionAt P build parties events side).epochSecrets[epoch]? = some secret := by
  have speaks := conversation.speaks kem aead counted side
  have looked : (begunBy P build (parties.start side) (inputsOf side events)).reverse.lookup
      epoch = some secret :=
    lookup_of_unique (List.mem_reverse.mpr found) fun other found' =>
      speaks.secret_unique (List.mem_reverse.mp found') found
  rw [Parties.start] at looked
  rw [sessionAt_eq, Parties.start, store_eq_lookup, looked, Option.some_or]

/-- An epoch that a side has not begun holds the secret of the other, once a frame with the
KAM arrived. -/
theorem Conversation.getElem?_unbegun (conversation : Conversation P build parties events)
    (kem : P.KemCorrect) (aead : P.AeadCorrect)
    (counted : build.overflowChecks = true ∨ events.length ≤ 2 ^ 64) {side : Side} {frame : Sent}
    (sent : frame ∈ sentFrom P build parties events side.other)
    (unbegun : ¬ frame.frame.epoch.toNat < (sessionAt P build parties events side).epochsBegun) :
    (sessionAt P build parties events side).epochSecrets[frame.frame.epoch]? =
      if KamAt (arrivedAt events side) frame.frame.epoch then some frame.secret else none := by
  have own := conversation.speaks kem aead counted side
  have peer := conversation.speaks kem aead counted side.other
  have none : (begunBy P build (parties.start side) (inputsOf side events)).reverse.lookup
      frame.frame.epoch = none :=
    lookup_of_absent fun secret found =>
      unbegun (own.exists_secret_iff.mp ⟨secret, List.mem_reverse.mp found⟩)
  -- All frames of the epoch were sent under one secret.
  have unique : ∀ secret, (frame.frame.epoch, secret) ∈ broughtBy P (inputsOf side events) →
      secret = frame.secret := by
    intro secret brought
    obtain ⟨origin, sent', -, sameEpoch, -, rfl⟩ :=
      (conversation.mem_brought_iff kem aead counted).mp brought
    have under := peer.under origin sent'
    rw [sameEpoch] at under
    exact peer.secret_unique under (peer.under frame sent)
  rw [Parties.start] at none
  rw [sessionAt_eq, Parties.start, store_eq_lookup, none, Option.none_or]
  split
  · rename_i arrived
    obtain ⟨earlier, arrived, sameEpoch, early⟩ := arrived
    obtain ⟨origin, sent', rfl, -⟩ := conversation.exists_origin arrived
    have brought : (frame.frame.epoch, origin.secret) ∈ broughtBy P (inputsOf side events) :=
      (conversation.mem_brought_iff kem aead counted).mpr
        ⟨origin, sent', arrived, sameEpoch, early, rfl⟩
    rw [unique _ brought] at brought
    exact lookup_of_unique brought unique
  · rename_i waiting
    refine lookup_of_absent fun secret brought => waiting ?_
    obtain ⟨origin, -, arrived, sameEpoch, early, -⟩ :=
      (conversation.mem_brought_iff kem aead counted).mp brought
    exact ⟨origin.frame, arrived, sameEpoch, early⟩

end

/-! ## A conversation in which both sides begin epoch zero -/

/-- Two parties that agree on the default bounds. -/
def sampleParties : Parties where
  keys
    | .left => sampleKeys 1
    | .right => sampleKeys 2
  peer
    | .left => "right"
    | .right => "left"
  rekeyMsgBound _ := 50
  rekeyAgeSeconds _ := 604800

/-- Each side seals a message before anything arrives. -/
def crossing : List (Side × Call) :=
  [(.left, .seal [] (sampleParties.own bothSides .right).publicKey (sampleDraws 1)),
    (.right, .seal [] (sampleParties.own bothSides .left).publicKey (sampleDraws 2))]

theorem conversation_crossing (build : Build) :
    Conversation bothSides build sampleParties crossing :=
  (Conversation.nil.seal .left [] (sampleDraws 1)).seal .right [] (sampleDraws 2)

theorem disjoint_crossing : (drawnBy crossing .left).Disjoint (drawnBy crossing .right) := by
  have left : drawnBy crossing .left = [(sampleDraws 1).epochSecret] := rfl
  have right : drawnBy crossing .right = [(sampleDraws 2).epochSecret] := rfl
  have different : (sampleDraws 2).epochSecret ≠ (sampleDraws 1).epochSecret := by decide
  rw [left, right]
  intro secret found found'
  exact different ((List.mem_singleton.mp found').symm.trans (List.mem_singleton.mp found))

/-- The first frame of the left side, and the session of the right one. -/
theorem exists_crossing (build : Build) :
    ∃ frame ∈ sentFrom bothSides build sampleParties crossing .left, frame.plaintext = [] ∧
      frame.frame.epoch.toNat <
        (sessionAt bothSides build sampleParties crossing .right).epochsBegun := by
  obtain ⟨kam, body, step, -⟩ :
      ∃ kam body,
        (machine bothSides build).step (sampleParties.start .left)
            (.seal [] (hybridKeypair bothSides (sampleKeys 2)).publicKey (sampleDraws 1)) =
          (.sealed (.ok (firstFrame 0 (sampleDraws 1) kam body)),
            (sampleParties.start .left).afterFirst 0 (sampleDraws 1) kam) ∧
        Honest bothSides (sampleKeys 2) (firstSent 0 [] (sampleDraws 1) kam body) :=
    exists_firstFrame (due_withBounds build "right" 50 604800)
      fun _ found => exists_logged (List.mem_append_left _ found)
  obtain ⟨kam', body', step', -⟩ :
      ∃ kam body,
        (machine bothSides build).step (sampleParties.start .right)
            (.seal [] (hybridKeypair bothSides (sampleKeys 1)).publicKey (sampleDraws 2)) =
          (.sealed (.ok (firstFrame 0 (sampleDraws 2) kam body)),
            (sampleParties.start .right).afterFirst 0 (sampleDraws 2) kam) ∧
        Honest bothSides (sampleKeys 1) (firstSent 0 [] (sampleDraws 2) kam body) :=
    exists_firstFrame (due_withBounds build "left" 50 604800)
      fun _ found => exists_logged (List.mem_append_right _ found)
  have sentLeft : sentFrom bothSides build sampleParties crossing .left =
      (machine bothSides build).log sentBy (sampleParties.start .left)
        [.seal [] (hybridKeypair bothSides (sampleKeys 2)).publicKey (sampleDraws 1)] := rfl
  have right : sessionAt bothSides build sampleParties crossing .right =
      (machine bothSides build).final (sampleParties.start .right)
        [.seal [] (hybridKeypair bothSides (sampleKeys 1)).publicKey (sampleDraws 2)] :=
    sessionAt_eq .right
  refine ⟨firstSent 0 [] (sampleDraws 1) kam body, ?_, rfl, ?_⟩
  · rw [sentLeft, Machine.log_cons, step]
    exact List.mem_cons_self
  · rw [right, Machine.final_cons, step']
    exact Nat.zero_lt_one

/-! ## What opens -/

/-- **Delivery in both directions.** A frame of the other side never opens once the receiver
has begun an epoch of its number. Until then it opens exactly when it carries a KAM or one of
its epoch arrived before. -/
theorem conversation_delivery {P : Primitives} (kem : P.KemCorrect) (aead : P.AeadCorrect)
    (hkdf : P.HkdfInjective) (ideal : P.IdealAead) {build : Build} {parties : Parties}
    {events : List (Side × Call)} (conversation : Conversation P build parties events)
    (counted : build.overflowChecks = true ∨ events.length ≤ 2 ^ 64)
    (fresh : (drawnBy events .left).Disjoint (drawnBy events .right)) {side : Side} {frame : Sent}
    (sent : frame ∈ sentFrom P build parties events side.other) :
    let session := sessionAt P build parties events side
    ((DmSession.open P frame.frame (parties.own P side).privateKey).run session).1 =
      if frame.frame.epoch.toNat < session.epochsBegun then .error .openFailed
      else if frame.frame.index < kamRepeat ∨ KamAt (arrivedAt events side) frame.frame.epoch then
        .ok frame.plaintext
      else .error (.missingEpochSecret frame.frame.epoch) := by
  intro session
  have own := conversation.speaks kem aead counted side
  have peer := conversation.speaks kem aead counted side.other
  have honest := conversation.honest kem aead counted sent
  split
  · rename_i begun
    obtain ⟨secret, found⟩ := own.exists_secret_iff.mpr begun
    have stored := conversation.getElem?_begun kem aead counted found
    have different : secret ≠ frame.secret := by
      intro same
      have drawn := exists_drawn_of_begun found
      have drawn' := exists_drawn_of_begun (peer.under frame sent)
      rw [← same] at drawn'
      cases side with
      | left => exact fresh drawn drawn'
      | right => exact fresh drawn' drawn
    exact honest.open_of_other hkdf (ideal _ _ _ _ _ honest.encrypted) stored different _
  · rename_i unbegun
    have stored := conversation.getElem?_unbegun kem aead counted sent unbegun
    by_cases arrived : KamAt (arrivedAt events side) frame.frame.epoch
    · rw [if_pos arrived] at stored
      rw [if_pos (.inr arrived)]
      exact honest.open_of_stored aead stored _
    · rw [if_neg arrived] at stored
      by_cases early : frame.frame.index < kamRepeat
      · rw [if_pos (.inl early)]
        obtain ⟨kam, carried, -⟩ := honest.carries early
        exact honest.open_of_vacant aead (by simp [carried]) stored
      · rw [if_neg (not_or.mpr ⟨early, arrived⟩), run_open_of_bare _ stored (honest.bare early)]

/-- Once both sides have begun epoch zero, a frame that is still under way is lost. -/
theorem conversation_delivery_crossing :
    let build : Build := ⟨true, .w64⟩
    ∃ frame ∈ sentFrom bothSides build sampleParties crossing .left,
      ((DmSession.open bothSides frame.frame (sampleParties.own bothSides .right).privateKey).run
        (sessionAt bothSides build sampleParties crossing .right)).1 = .error .openFailed := by
  intro build
  obtain ⟨frame, sent, -, begun⟩ := exists_crossing build
  have ideal : bothSides.IdealAead := idealAead_logged (by decide)
  have opened := @conversation_delivery bothSides kemCorrect aeadCorrect hkdfInjective ideal build
    sampleParties crossing (conversation_crossing build) (.inl rfl) disjoint_crossing .right frame
    sent
  exact ⟨frame, sent, opened.trans (if_pos begun)⟩

/-! ## Message keys -/

/-- A message key tells its secret and slot. -/
theorem messageKey_inj {P : Primitives} (hkdf : P.HkdfInjective) {secret secret' : EpochSecret}
    {epoch epoch' index index' : UInt64}
    (same : messageKey P secret epoch index = messageKey P secret' epoch' index') :
    secret = secret' ∧ epoch = epoch' ∧ index = index' := by
  obtain ⟨salts, secrets, infos⟩ := hkdf _ _ _ _ _ _ same
  have sameSalt := KeySchedule.hmacPad_inj_of_length (by simp) salts
  exact ⟨Subtype.ext secrets, u64ToBe_injective (List.append_cancel_left sameSalt),
    u64ToBe_injective (List.append_cancel_left infos)⟩

/-- **No message key serves twice**, on either side or on both. -/
theorem keys_nodup {P : Primitives} (kem : P.KemCorrect) (aead : P.AeadCorrect)
    (hkdf : P.HkdfInjective) {build : Build} {parties : Parties} {events : List (Side × Call)}
    (conversation : Conversation P build parties events)
    (counted : build.overflowChecks = true ∨ events.length ≤ 2 ^ 64)
    (fresh : (drawnBy events .left).Disjoint (drawnBy events .right)) :
    ((sentFrom P build parties events .left ++ sentFrom P build parties events .right).map
      fun frame => (frame.sealing P).key).Nodup := by
  have left := conversation.speaks kem aead counted .left
  have right := conversation.speaks kem aead counted .right
  have apart : ∀ {first second : Sent}, first.place < second.place →
      (first.sealing P).key ≠ (second.sealing P).key := by
    intro first second less same
    obtain ⟨-, epochs, indices⟩ := messageKey_inj hkdf same
    rw [Sent.place, Sent.place, epochs, indices] at less
    exact absurd less (lt_irrefl _)
  refine List.pairwise_map.mpr (List.pairwise_append.mpr
    ⟨left.increasing.imp apart, right.increasing.imp apart, ?_⟩)
  intro first found second found' same
  obtain ⟨secrets, -, -⟩ := messageKey_inj hkdf same
  have drawn := exists_drawn_of_begun (left.under first found)
  have drawn' := exists_drawn_of_begun (right.under second found')
  rw [← secrets] at drawn'
  exact fresh drawn drawn'

/-- The keys of the two first frames. -/
theorem keys_nodup_crossing :
    let build : Build := ⟨true, .w64⟩
    ((sentFrom bothSides build sampleParties crossing .left ++
        sentFrom bothSides build sampleParties crossing .right).map
      fun frame => (frame.sealing bothSides).key).Nodup :=
  keys_nodup kemCorrect aeadCorrect hkdfInjective (conversation_crossing ⟨true, .w64⟩) (.inl rfl)
    disjoint_crossing

/-! ## Secrets at rest -/

/-- **A stored snapshot opens all that its owner ever sent**, with any key or none. -/
theorem snapshot_opens_sent {P : Primitives} (kem : P.KemCorrect) (aead : P.AeadCorrect)
    {build : Build} {parties : Parties} {events : List (Side × Call)}
    (conversation : Conversation P build parties events)
    (counted : build.overflowChecks = true ∨ events.length ≤ 2 ^ 64) {side : Side} {frame : Sent}
    (sent : frame ∈ sentFrom P build parties events side) (anyKey : Bytes) :
    ∃ session, restore (sessionAt P build parties events side).snapshot = .ok session ∧
      ((DmSession.open P frame.frame anyKey).run session).1 = .ok frame.plaintext := by
  have speaks := conversation.speaks kem aead counted side
  have stored := conversation.getElem?_begun kem aead counted (speaks.under frame sent)
  exact ⟨_, restore_snapshot speaks.persistent,
    (speaks.honest frame sent).open_of_stored aead stored anyKey⟩

/-- The frame of the left side, opened with no key after a restart. -/
theorem snapshot_opens_crossing :
    let build : Build := ⟨true, .w64⟩
    ∃ frame ∈ sentFrom bothSides build sampleParties crossing .left, ∃ session,
      restore (sessionAt bothSides build sampleParties crossing .left).snapshot = .ok session ∧
        ((DmSession.open bothSides frame.frame []).run session).1 = .ok [] := by
  intro build
  obtain ⟨frame, sent, empty, -⟩ := exists_crossing build
  obtain ⟨session, restored, opened⟩ := snapshot_opens_sent kemCorrect aeadCorrect
    (conversation_crossing build) (.inl rfl) sent []
  rw [empty] at opened
  exact ⟨frame, sent, session, restored, opened⟩

end DmSession
end SkPqc

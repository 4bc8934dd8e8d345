import SkPqc.DmSession.Snapshot
import SkPqc.Library.Machines

/-!
# Runs of a session

A run of a session is a list of calls: seals, opens, and reloads, where the
session is replaced by the one rebuilt from its snapshot. The machine keeps what
a call leaves behind whether it returned, failed or panicked.

Every call keeps a session persistent (`Persistent.step`), so a reload never
changes a session that was reached from a new one (`persistence_invisible`).
-/

set_option autoImplicit false

namespace SkPqc

open Library Kem Ratchet

namespace DmSession

/-- A call on a session. -/
inductive Call where
  | «seal» (plaintext peerHybridPub : Bytes) (draws : SealDraws)
  | «open» (frame : SealedDmFrame) (myHybridPriv : Bytes)
  | reload

/-- The outcome of a call. -/
inductive Answer where
  | sealed (outcome : Outcome DmSessionError SealedDmFrame)
  | opened (outcome : Outcome DmSessionError Bytes)
  | reloaded (outcome : Outcome DmSessionError Unit)
  deriving DecidableEq

/-- Replace the session by the one rebuilt from its snapshot, when there is
one. -/
def reload : Method DmSession DmSessionError Unit := do
  let session ← Method.get
  let restored ← Method.lift (restore session.snapshot)
  Method.set restored

section Runs

variable (P : Primitives) (build : Build)

/-- One call, with the session it leaves behind. -/
def call (session : DmSession) : Call → Answer × DmSession
  | .seal plaintext peerHybridPub draws =>
      let sealed := (DmSession.seal P build plaintext peerHybridPub draws).run session
      (.sealed sealed.1, sealed.2)
  | .open frame myHybridPriv =>
      let opened := (DmSession.open P frame myHybridPriv).run session
      (.opened opened.1, opened.2)
  | .reload =>
      let reloaded := reload.run session
      (.reloaded reloaded.1, reloaded.2)

/-- A session under calls. -/
def machine : Machine Call DmSession Answer where
  step := call P build

/-- A frame that was sent, with the plaintext and the draws of the call that
sealed it, and the epoch secret it was sealed under. -/
structure Sent where
  plaintext : Bytes
  draws : SealDraws
  secret : EpochSecret
  frame : SealedDmFrame

/-- The encryption of the body of a sent frame. -/
def Sent.sealing (sent : Sent) : Primitives.Sealing where
  key := messageKey P sent.secret sent.frame.epoch sent.frame.index
  nonce := sent.draws.frameNonce
  aad := frameAad sent.frame.epoch sent.frame.index
  msg := sent.plaintext
  body := sent.frame.body

/-- The frame that a call sent, if it did. The ratchet it was keyed by is still
the current one after the call. -/
def sentBy : Call → Answer → DmSession → Option Sent
  | .seal plaintext _ draws, .sealed (.ok frame), session =>
      session.ratchet.map fun ratchet => ⟨plaintext, draws, ratchet.epochSecret, frame⟩
  | _, _, _ => none

/-- The frames that a run sends, in order. -/
def sent (session : DmSession) (calls : List Call) : List Sent :=
  (machine P build).log sentBy session calls

/-- The frame that a call returned. -/
def Answer.frame : Answer → Option SealedDmFrame
  | .sealed (.ok frame) => some frame
  | _ => none

/-- The frames that the calls of a run returned, in order. -/
def returned (session : DmSession) (calls : List Call) : List SealedDmFrame :=
  ((machine P build).trace session calls).filterMap fun entry => entry.2.frame

end Runs

variable {P : Primitives} {build : Build}

@[simp] theorem step_seal (session : DmSession) (plaintext peerHybridPub : Bytes)
    (draws : SealDraws) :
    (machine P build).step session (.seal plaintext peerHybridPub draws) =
      (.sealed ((DmSession.seal P build plaintext peerHybridPub draws).run session).1,
        ((DmSession.seal P build plaintext peerHybridPub draws).run session).2) := rfl

@[simp] theorem step_open (session : DmSession) (frame : SealedDmFrame) (myHybridPriv : Bytes) :
    (machine P build).step session (.open frame myHybridPriv) =
      (.opened ((DmSession.open P frame myHybridPriv).run session).1,
        ((DmSession.open P frame myHybridPriv).run session).2) := rfl

@[simp] theorem step_reload (session : DmSession) :
    (machine P build).step session .reload =
      (.reloaded (reload.run session).1, (reload.run session).2) := rfl

/-- **What a call sent.** The frame carries the nonce drawn for it, the plaintext
encrypted under the key of its slot, and the current KAM when it is among the
first of its epoch. -/
theorem keyed_of_sentBy {session : DmSession} {call : Call} {sent : Sent}
    (found : sentBy call ((machine P build).step session call).1
      ((machine P build).step session call).2 = some sent) :
    ∃ peerHybridPub keyed ratchet, call = .seal sent.plaintext peerHybridPub sent.draws ∧
      Keyed P build session peerHybridPub sent.draws keyed ratchet ∧
      ((machine P build).step session call).2 = keyed.advanced ratchet ∧
      sent.secret = ratchet.epochSecret ∧
      P.aeadEncrypt (sent.sealing P).key (sent.sealing P).nonce (sent.sealing P).aad
        (sent.sealing P).msg = some sent.frame.body ∧
      sent.frame =
        { epoch := ratchet.epoch
          index := ratchet.messageIndex
          nonce := sent.draws.frameNonce.val
          body := sent.frame.body
          kam := if ratchet.messageIndex < kamRepeat then keyed.currentKam else none } := by
  cases call with
  | «seal» plaintext peerHybridPub draws =>
      have sealing := run_seal P build session plaintext peerHybridPub draws
      rw [step_seal] at found ⊢
      generalize (DmSession.seal P build plaintext peerHybridPub draws).run session = result at *
      cases sealing with
      | overflow beginning => cases found
      | wrapFailed beginning failed => cases found
      | encryptFailed key failed => cases found
      | emitted key encrypted =>
          cases found
          exact ⟨peerHybridPub, _, _, rfl, key, rfl, rfl, encrypted, rfl⟩
  | «open» frame myHybridPriv => cases found
  | reload => cases found

/-- A call sent what it returned. -/
theorem map_frame_sentBy (session : DmSession) (call : Call) :
    (sentBy call ((machine P build).step session call).1
        ((machine P build).step session call).2).map Sent.frame =
      ((machine P build).step session call).1.frame := by
  cases call with
  | «seal» plaintext peerHybridPub draws =>
      have sealing := run_seal P build session plaintext peerHybridPub draws
      rw [step_seal]
      generalize (DmSession.seal P build plaintext peerHybridPub draws).run session = result at *
      cases sealing with
      | overflow beginning => rfl
      | wrapFailed beginning failed => rfl
      | encryptFailed key failed => rfl
      | emitted key encrypted => rfl
  | «open» frame myHybridPriv => rfl
  | reload => rfl

/-- **The frames that were sent are those that the calls returned.** -/
theorem map_frame_sent (P : Primitives) (build : Build) (session : DmSession)
    (calls : List Call) :
    (sent P build session calls).map Sent.frame = returned P build session calls := by
  induction calls generalizing session with
  | nil => rfl
  | cons call rest ih =>
      have first := @map_frame_sentBy P build session call
      have later := ih ((machine P build).step session call).2
      rw [sent, returned] at later ⊢
      rw [Machine.log_cons, Machine.trace_cons, List.map_append, later, List.filterMap_cons,
        ← first]
      cases sentBy call ((machine P build).step session call).1
          ((machine P build).step session call).2 <;> rfl

/-! ## Sessions stay persistent -/

theorem Persistent.withBounds (peer : String) (rekeyMsgBound rekeyAgeSeconds : UInt64) :
    (withBounds peer rekeyMsgBound rekeyAgeSeconds).Persistent where
  stored _ impossible := by cases impossible
  msgBound _ impossible := by cases impossible
  ageBound _ impossible := by cases impossible

/-- The session a frame is sent from stays persistent after the ratchet
advanced. -/
theorem Persistent.keyed {session keyed : DmSession} {peerHybridPub : Bytes}
    {draws : SealDraws} {ratchet : DmRatchet} (persistent : session.Persistent)
    (key : Keyed P build session peerHybridPub draws keyed ratchet) :
    (keyed.advanced ratchet).Persistent := by
  cases key with
  | current holds young =>
      refine ⟨?_, ?_, ?_⟩ <;> rintro _ ⟨⟩
      · exact persistent.stored ratchet holds
      · exact persistent.msgBound ratchet holds
      · exact persistent.ageBound ratchet holds
  | @fresh _ kam beginning wrapped =>
      refine ⟨?_, ?_, ?_⟩ <;> rintro _ ⟨⟩
      · exact getElem?_begun_self session _ _ kam draws.startedAt
      · rfl
      · rfl

theorem Persistent.seal {session : DmSession} {plaintext peerHybridPub : Bytes}
    {draws : SealDraws} (persistent : session.Persistent) :
    ((DmSession.seal P build plaintext peerHybridPub draws).run session).2.Persistent := by
  have step := run_seal P build session plaintext peerHybridPub draws
  generalize (DmSession.seal P build plaintext peerHybridPub draws).run session = result at step
  cases step with
  | overflow beginning => exact persistent
  | wrapFailed beginning failed => exact persistent
  | encryptFailed key failed => exact persistent.keyed key
  | emitted key encrypted => exact persistent.keyed key

/-- Installing a secret at a vacant epoch leaves the stored secret of the
ratchet alone. -/
theorem Persistent.installed {session : DmSession} {epoch : UInt64} {secret : EpochSecret}
    (persistent : session.Persistent) (vacant : session.epochSecrets[epoch]? = none) :
    (session.installed epoch secret).Persistent where
  stored ratchet holds := by
    have stored := persistent.stored ratchet holds
    have different : epoch ≠ ratchet.epoch := by
      rintro rfl
      rw [vacant] at stored
      cases stored
    rw [getElem?_installed_of_ne session secret different, stored]
  msgBound ratchet holds := persistent.msgBound ratchet holds
  ageBound ratchet holds := persistent.ageBound ratchet holds

theorem Persistent.open {session : DmSession} {frame : SealedDmFrame} {myHybridPriv : Bytes}
    (persistent : session.Persistent) :
    ((DmSession.open P frame myHybridPriv).run session).2.Persistent := by
  have step := run_open P session frame myHybridPriv
  generalize (DmSession.open P frame myHybridPriv).run session = result at step
  cases step with
  | kamRejected carried vacant failed => exact persistent
  | installed carried vacant unwrapped => exact persistent.installed vacant
  | missing bare vacant => exact persistent
  | known stored => exact persistent

/-- Reloading a persistent session changes nothing. -/
theorem run_reload {session : DmSession} (persistent : session.Persistent) :
    reload.run session = (.ok (), session) := by
  simp only [reload, Method.run_get_bind, Method.run_lift_bind, restore_snapshot persistent,
    Method.run_set]

theorem Persistent.step {session : DmSession} (persistent : session.Persistent) (call : Call) :
    ((machine P build).step session call).2.Persistent := by
  cases call with
  | «seal» plaintext peerHybridPub draws => exact persistent.seal
  | «open» frame myHybridPriv => exact persistent.open
  | reload =>
      rw [step_reload, run_reload persistent]
      exact persistent

/-- Every session reached from a persistent one is persistent. -/
theorem Persistent.final {session : DmSession} (persistent : session.Persistent)
    (calls : List Call) : ((machine P build).final session calls).Persistent := by
  have keeps : ∀ (session : DmSession) (call : Call), session.Persistent → True →
      ((machine P build).step session call).2.Persistent :=
    fun _ call persistent _ => persistent.step call
  exact Machine.state_invariant keeps persistent (Machine.guarded_true session calls)

/-- **Persistence is invisible.** A session reached from a new one by any calls
is rebuilt from its snapshot as it was, field by field. -/
theorem persistence_invisible (peer : String) (rekeyMsgBound rekeyAgeSeconds : UInt64)
    (calls : List Call) :
    let session := (machine P build).final (withBounds peer rekeyMsgBound rekeyAgeSeconds) calls
    restore session.snapshot = .ok session :=
  restore_snapshot ((Persistent.withBounds peer rekeyMsgBound rekeyAgeSeconds).final calls)

end DmSession
end SkPqc

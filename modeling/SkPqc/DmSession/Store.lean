import SkPqc.DmSession.Delivery
import SkPqc.Library.Directory

/-!
# The store of epoch secrets as a directory

The store of a session is a directory of secrets by epoch. An epoch that the
session begins is a claim, since beginning overwrites what the store holds. A KAM
that arrives is an offer, since it is looked at only when the epoch is unknown.
Nothing else touches the store.

So after any run, over frames from anyone at all, an epoch holds the secret the
session last began it with, or else the first that arrived and unwrapped
(`store_eq_lookup`), and this alone decides what a frame opens to
(`open_eq_openedWith`). What an epoch holds stays until the session begins the epoch
itself. A frame that opened once opens again (`reopens`), and a forged frame that
arrives first shuts the honest frames of its epoch out for good (`hijacked`).
-/

set_option autoImplicit false

namespace SkPqc

open Library Kem HybridBox Ratchet Idealised

namespace DmSession

/-- The secrets of a session by epoch. -/
def directory (session : DmSession) (epoch : UInt64) : Option EpochSecret :=
  session.epochSecrets[epoch]?

section Filings

variable (P : Primitives) (build : Build)

/-- The epoch that a call begins, with its secret. -/
def begins (session : DmSession) : Call → Option (UInt64 × EpochSecret)
  | .seal _ peerHybridPub draws =>
      match (session.beginAt build draws.now : Outcome DmSessionError _),
        wrapDmEpochSecret P draws.epochSecret.val peerHybridPub draws.wrap with
      | .ok (some epoch), .ok _ => some (epoch, draws.epochSecret)
      | _, _ => none
  | _ => none

/-- The epoch and secret that a frame brings along, when its KAM unwraps. -/
def brings : Call → Option (UInt64 × EpochSecret)
  | .open frame myHybridPriv =>
      match frame.kam.map fun kam => unwrapDmEpochSecret P kam myHybridPriv with
      | some (.ok secret) => some (frame.epoch, secret)
      | _ => none
  | _ => none

/-- What a call files in the store. -/
def filing (session : DmSession) (call : Call) : Option (Filing UInt64 EpochSecret) :=
  ((begins P build session call).map fun entry => .claim entry.1 entry.2).or
    ((brings P call).map fun entry => .offer entry.1 entry.2)

/-- The epochs that a run begins, in order. -/
def begunBy (session : DmSession) (calls : List Call) : List (UInt64 × EpochSecret) :=
  (machine P build).effects (begins P build) session calls

/-- The secrets that the frames of a run bring along, in order of arrival. -/
def broughtBy (calls : List Call) : List (UInt64 × EpochSecret) := calls.filterMap (brings P)

end Filings

section

variable {P : Primitives} {build : Build} {session : DmSession}

/-! ## What a call files -/

theorem begins_of_current {plaintext peerHybridPub : Bytes} {draws : SealDraws}
    {ratchet : DmRatchet} (holds : session.ratchet = some ratchet)
    (young : ratchet.shouldRekey draws.now = false) :
    begins P build session (.seal plaintext peerHybridPub draws) = none := by
  simp [begins, beginAt, holds, young]

theorem begins_of_fresh {plaintext peerHybridPub kam : Bytes} {draws : SealDraws}
    {epoch : UInt64}
    (beginning : (session.beginAt build draws.now : Outcome DmSessionError _) = .ok (some epoch))
    (wrapped : wrapDmEpochSecret P draws.epochSecret.val peerHybridPub draws.wrap = .ok kam) :
    begins P build session (.seal plaintext peerHybridPub draws) =
      some (epoch, draws.epochSecret) := by
  simp only [begins, beginning, wrapped]

theorem begins_eq_some {call : Call} {epoch : UInt64} {secret : EpochSecret}
    (begun : begins P build session call = some (epoch, secret)) :
    ∃ plaintext peerHybridPub draws kam, call = .seal plaintext peerHybridPub draws ∧
      draws.epochSecret = secret ∧
      (session.beginAt build draws.now : Outcome DmSessionError _) = .ok (some epoch) ∧
      wrapDmEpochSecret P draws.epochSecret.val peerHybridPub draws.wrap = .ok kam := by
  cases call with
  | «seal» plaintext peerHybridPub draws =>
      simp only [begins] at begun
      split at begun
      · rename_i kam beginning wrapped
        cases begun
        exact ⟨plaintext, peerHybridPub, draws, kam, rfl, rfl, beginning, wrapped⟩
      · cases begun
  | «open» frame myHybridPriv => cases begun
  | reload => cases begun

theorem brings_open {frame : SealedDmFrame} {kam myHybridPriv : Bytes}
    (carried : frame.kam = some kam) :
    brings P (.open frame myHybridPriv) =
      match unwrapDmEpochSecret P kam myHybridPriv with
      | .ok secret => some (frame.epoch, secret)
      | _ => none := by
  simp only [brings, carried, Option.map_some]
  cases unwrapDmEpochSecret P kam myHybridPriv <;> rfl

theorem brings_bare {frame : SealedDmFrame} (myHybridPriv : Bytes) (bare : frame.kam = none) :
    brings P (.open frame myHybridPriv) = none := by
  simp only [brings, bare, Option.map_none]

theorem directory_installed (session : DmSession) (epoch : UInt64) (secret : EpochSecret) :
    (session.installed epoch secret).directory =
      Function.update session.directory epoch (some secret) := by
  funext other
  by_cases same : other = epoch
  · subst same
    simp [directory]
  · rw [Function.update_of_ne same]
    exact getElem?_installed_of_ne session secret (Ne.symm same)

/-- A session keyed for the next frame has filed what its call begins. -/
theorem Keyed.directory {plaintext peerHybridPub : Bytes} {draws : SealDraws}
    {keyed : DmSession} {ratchet : DmRatchet}
    (key : Keyed P build session peerHybridPub draws keyed ratchet) :
    (keyed.advanced ratchet).directory =
      Filing.settle session.directory
        (filing P build session (.seal plaintext peerHybridPub draws)).toList := by
  cases key with
  | current holds young =>
      rw [filing, begins_of_current holds young]
      rfl
  | fresh beginning wrapped =>
      rw [filing, begins_of_fresh beginning wrapped]
      exact directory_installed session _ draws.epochSecret

/-- **The store changes as the call files.** -/
theorem directory_step (persistent : session.Persistent) (call : Call) :
    ((machine P build).step session call).2.directory =
      Filing.settle session.directory (filing P build session call).toList := by
  cases call with
  | «seal» plaintext peerHybridPub draws =>
      have sealing := run_seal P build session plaintext peerHybridPub draws
      rw [step_seal]
      generalize (DmSession.seal P build plaintext peerHybridPub draws).run session = result at *
      cases sealing with
      | overflow beginning =>
          simp only [filing, begins, brings, beginning]
          rfl
      | wrapFailed beginning failed =>
          simp only [filing, begins, brings, beginning, failed]
          rfl
      | encryptFailed key failed => exact key.directory
      | emitted key encrypted => exact key.directory
  | «open» frame myHybridPriv =>
      have opening := run_open P session frame myHybridPriv
      rw [step_open]
      generalize (DmSession.open P frame myHybridPriv).run session = result at *
      cases opening with
      | kamRejected carried vacant failed =>
          rw [filing, brings_open carried, failed]
          rfl
      | @installed kam secret carried vacant unwrapped =>
          rw [filing, brings_open carried, unwrapped]
          exact (directory_installed session frame.epoch secret).trans
            (Filing.apply_offer_of_none vacant secret).symm
      | missing bare vacant =>
          rw [filing, brings_bare myHybridPriv bare]
          rfl
      | known stored =>
          cases brought : brings P (.open frame myHybridPriv) with
          | none =>
              rw [filing, brought]
              rfl
          | some entry =>
              -- Whatever the frame brings, it brings for its own epoch, which holds a secret.
              have same : entry.1 = frame.epoch := by
                cases carried : frame.kam with
                | none =>
                    rw [brings_bare myHybridPriv carried] at brought
                    cases brought
                | some kam =>
                    rw [brings_open carried] at brought
                    split at brought
                    · cases brought
                      rfl
                    · cases brought
              rw [filing, brought]
              exact (Filing.apply_offer_of_some (same ▸ stored) entry.2).symm
  | reload =>
      rw [step_reload, run_reload persistent]
      rfl

/-- The store after a run. -/
theorem directory_final (persistent : session.Persistent) (calls : List Call) :
    ((machine P build).final session calls).directory =
      Filing.settle session.directory
        ((machine P build).effects (filing P build) session calls) :=
  Machine.view_final (fun _ call persistent => Persistent.step persistent call)
    (fun _ call persistent => directory_step persistent call) persistent calls

/-! ## The store in closed form -/

theorem claims_filing (session : DmSession) (call : Call) :
    Filing.claims (filing P build session call).toList = (begins P build session call).toList := by
  cases call with
  | «seal» plaintext peerHybridPub draws =>
      cases begun : begins P build session (.seal plaintext peerHybridPub draws) with
      | none => simp [filing, begun, brings]
      | some entry => simp [filing, begun]
  | «open» frame myHybridPriv =>
      cases brought : brings P (.open frame myHybridPriv) with
      | none => simp [filing, begins, brought]
      | some entry => simp [filing, begins, brought]
  | reload => rfl

theorem offers_filing (session : DmSession) (call : Call) :
    Filing.offers (filing P build session call).toList = (brings P call).toList := by
  cases call with
  | «seal» plaintext peerHybridPub draws =>
      cases begun : begins P build session (.seal plaintext peerHybridPub draws) with
      | none => simp [filing, begun, brings]
      | some entry => simp [filing, begun, brings]
  | «open» frame myHybridPriv =>
      cases brought : brings P (.open frame myHybridPriv) with
      | none => simp [filing, begins, brought]
      | some entry => simp [filing, begins, brought]
  | reload => rfl

theorem claims_effects (session : DmSession) (calls : List Call) :
    Filing.claims ((machine P build).effects (filing P build) session calls) =
      begunBy P build session calls := by
  induction calls generalizing session with
  | nil => rfl
  | cons call rest ih =>
      rw [Machine.effects_cons, Filing.claims_append, claims_filing, ih]
      rfl

theorem offers_effects (session : DmSession) (calls : List Call) :
    Filing.offers ((machine P build).effects (filing P build) session calls) =
      broughtBy P calls := by
  induction calls generalizing session with
  | nil => rfl
  | cons call rest ih =>
      rw [Machine.effects_cons, Filing.offers_append, offers_filing, ih, broughtBy, broughtBy]
      cases brought : brings P call with
      | none => rw [List.filterMap_cons_none brought]; rfl
      | some entry => rw [List.filterMap_cons_some brought]; rfl

/-- The secret that a run from a persistent session leaves under an epoch. -/
theorem getElem?_final (persistent : session.Persistent) (calls : List Call) (epoch : UInt64) :
    ((machine P build).final session calls).epochSecrets[epoch]? =
      ((begunBy P build session calls).reverse.lookup epoch).or
        (session.epochSecrets[epoch]?.or ((broughtBy P calls).lookup epoch)) := by
  have settled : ((machine P build).final session calls).epochSecrets[epoch]? =
      Filing.settle session.directory ((machine P build).effects (filing P build) session calls)
        epoch := congrFun (directory_final persistent calls) epoch
  rw [Filing.settle_eq_lookup, claims_effects, offers_effects] at settled
  exact settled

end

/-- The store of a session that was new. -/
theorem store_eq_lookup (P : Primitives) (build : Build) (peer : String)
    (rekeyMsgBound rekeyAgeSeconds : UInt64) (calls : List Call) (epoch : UInt64) :
    ((machine P build).final (withBounds peer rekeyMsgBound rekeyAgeSeconds)
        calls).epochSecrets[epoch]? =
      ((begunBy P build (withBounds peer rekeyMsgBound rekeyAgeSeconds) calls).reverse.lookup
        epoch).or ((broughtBy P calls).lookup epoch) := by
  have empty : (withBounds peer rekeyMsgBound rekeyAgeSeconds).epochSecrets[epoch]? = none := by
    simp [withBounds]
  rw [getElem?_final (Persistent.withBounds peer rekeyMsgBound rekeyAgeSeconds), empty,
    Option.none_or]

/-- What opening a frame comes to, given the secret that its epoch then holds. -/
def openedWith (P : Primitives) (frame : SealedDmFrame) (myHybridPriv : Bytes) :
    Option EpochSecret → Outcome DmSessionError Bytes
  | some secret => openBody P secret frame
  | none =>
      match frame.kam.map fun kam => unwrapDmEpochSecret P kam myHybridPriv with
      | some (.error reason) => .error (.ratchet reason)
      | _ => .error (.missingEpochSecret frame.epoch)

/-- **A session is its directory.** After any run the answer to a frame is the one that the
directory gives: by the secret that the session last began the epoch with, or else the first
that ever arrived for it, with this frame or before. -/
theorem open_eq_openedWith (P : Primitives) (build : Build) (peer : String)
    (rekeyMsgBound rekeyAgeSeconds : UInt64) (calls : List Call) (frame : SealedDmFrame)
    (myHybridPriv : Bytes) :
    let start := withBounds peer rekeyMsgBound rekeyAgeSeconds
    let opening := (DmSession.open P frame myHybridPriv).run ((machine P build).final start calls)
    let brought := broughtBy P (calls ++ [.open frame myHybridPriv])
    opening.1 = openedWith P frame myHybridPriv
        (((begunBy P build start calls).reverse.lookup frame.epoch).or
          (brought.lookup frame.epoch)) ∧
      ∀ epoch : UInt64, opening.2.epochSecrets[epoch]? =
        ((begunBy P build start calls).reverse.lookup epoch).or (brought.lookup epoch) := by
  intro start opening brought
  let call : Call := .open frame myHybridPriv
  have after : ∀ epoch : UInt64, opening.2.epochSecrets[epoch]? =
      ((begunBy P build start calls).reverse.lookup epoch).or (brought.lookup epoch) := by
    intro epoch
    have begun : begunBy P build start (calls ++ [call]) = begunBy P build start calls := by
      rw [begunBy, Machine.effects_append]
      exact List.append_nil _
    have stored := store_eq_lookup P build peer rekeyMsgBound rekeyAgeSeconds (calls ++ [call])
      epoch
    rw [Machine.final_append, begun] at stored
    exact stored
  refine ⟨?_, after⟩
  -- The session after the call holds the secret that the body was opened with.
  rw [← after frame.epoch]
  have step := run_open P ((machine P build).final start calls) frame myHybridPriv
  change OpenStep P _ frame myHybridPriv opening at step
  generalize opening = result at step
  cases step with
  | kamRejected carried vacant failed =>
      simp only [vacant, openedWith, carried, Option.map_some, failed]
  | @installed kam secret carried vacant unwrapped =>
      simp only [getElem?_installed_self, openedWith]
  | missing bare vacant => simp only [vacant, openedWith, bare, Option.map_none]
  | known stored => simp only [stored, openedWith]

/-! ## What an epoch holds, stays -/

section

variable {P : Primitives} {build : Build} {session : DmSession}

/-- A stored secret stays until the session begins its epoch. -/
theorem getElem?_final_of_stored (persistent : session.Persistent) {epoch : UInt64}
    {secret : EpochSecret} (stored : session.epochSecrets[epoch]? = some secret)
    {later : List Call} (unbegun : ∀ secret, (epoch, secret) ∉ begunBy P build session later) :
    ((machine P build).final session later).epochSecrets[epoch]? = some secret := by
  have unclaimed : ∀ secret, Filing.claim epoch secret ∉
      (machine P build).effects (filing P build) session later := by
    intro other found
    have member := Filing.mem_claims.mpr found
    rw [claims_effects] at member
    exact unbegun other member
  exact (congrFun (directory_final persistent later) epoch).trans
    (Filing.settle_of_unclaimed stored unclaimed)

/-- A frame that opened was opened with a secret that is now stored. -/
theorem exists_stored_of_open {frame : SealedDmFrame} {myHybridPriv plaintext : Bytes}
    (opened : ((DmSession.open P frame myHybridPriv).run session).1 = .ok plaintext) :
    ∃ secret, openBody P secret frame = .ok plaintext ∧
      ((DmSession.open P frame myHybridPriv).run session).2.epochSecrets[frame.epoch]? =
        some secret := by
  have opening := run_open P session frame myHybridPriv
  generalize (DmSession.open P frame myHybridPriv).run session = result at *
  cases opening with
  | kamRejected carried vacant failed => cases opened
  | @installed kam secret carried vacant unwrapped =>
      exact ⟨secret, opened, getElem?_installed_self session frame.epoch secret⟩
  | missing bare vacant => cases opened
  | @known secret stored => exact ⟨secret, opened, stored⟩

end

/-! ## Frames from anyone -/

/-- A frame that whoever knows the public key of the receiver can make: a secret of
their own, wrapped to that key, and a body under it. -/
structure Forged (P : Primitives) (keys : KeypairDraws) (secret : EpochSecret) (plaintext : Bytes)
    (frame : SealedDmFrame) : Prop where
  wrapped : ∃ draws kam, frame.kam = some kam ∧
    wrapDmEpochSecret P secret.val (hybridKeypair P keys).publicKey draws = .ok kam
  encrypted : ∃ nonce : FixedBytes 12, frame.nonce = nonce.val ∧
    P.aeadEncrypt (messageKey P secret frame.epoch frame.index) nonce
      (frameAad frame.epoch frame.index) plaintext = some frame.body

section

variable {P : Primitives} {build : Build} {keys : KeypairDraws} {session : DmSession}
  {secret : EpochSecret} {plaintext : Bytes} {frame : SealedDmFrame}

theorem Forged.openBody (aead : P.AeadCorrect) (forged : Forged P keys secret plaintext frame) :
    openBody P secret frame = .ok plaintext := by
  obtain ⟨nonce, same, encrypted⟩ := forged.encrypted
  have length : frame.nonce.length = 12 := by rw [same, nonce.property]
  have sameNonce : (⟨frame.nonce, length⟩ : FixedBytes 12) = nonce := Subtype.ext same
  rw [openBody_eq, dif_pos length, sameNonce]
  exact congrArg (Outcome.ofOption _) (aead.decrypt_encrypt encrypted)

/-- A forged frame of an unknown epoch opens, and leaves its secret behind. -/
theorem Forged.run_open (kem : P.KemCorrect) (aead : P.AeadCorrect)
    (forged : Forged P keys secret plaintext frame)
    (vacant : session.epochSecrets[frame.epoch]? = none) :
    (DmSession.open P frame (hybridKeypair P keys).privateKey).run session =
      (.ok plaintext, session.installed frame.epoch secret) := by
  obtain ⟨draws, kam, carried, wrapped⟩ := forged.wrapped
  rw [run_open_of_kam _ vacant carried, unwrap_wrapDmEpochSecret kem aead keys wrapped]
  exact congrArg (fun answer => (answer, session.installed frame.epoch secret))
    (forged.openBody aead)

end

/-- A forged first frame of epoch zero. -/
theorem exists_forged (special byte : UInt8) (keys : KeypairDraws) :
    ∃ frame, Forged (markedZero special) keys (sampleDraws byte).epochSecret [] frame ∧
      frame.epoch = 0 := by
  obtain ⟨wrapTag, wrapTagged⟩ := exists_marked
    (frameEncryption (sampleDraws special).epochSecret 0 0 (sampleDraws special).frameNonce [])
    (boxEncryption infoDmWrap [] (sampleDraws byte).epochSecret.val keys (sampleDraws byte).wrap)
  obtain ⟨bodyTag, bodyTagged⟩ := exists_marked
    (frameEncryption (sampleDraws special).epochSecret 0 0 (sampleDraws special).frameNonce [])
    (frameEncryption (sampleDraws byte).epochSecret 0 0 (sampleDraws byte).frameNonce [])
  obtain ⟨kam, wrapped⟩ : ∃ kam, wrapDmEpochSecret (markedZero special)
      (sampleDraws byte).epochSecret.val (hybridKeypair (markedZero special) keys).publicKey
      (sampleDraws byte).wrap = .ok kam :=
    ⟨_, wrapDmEpochSecret_of_tag wrapTagged⟩
  exact ⟨firstFrame 0 (sampleDraws byte) kam ([] ++ bodyTag.val), ⟨⟨_, kam, rfl, wrapped⟩,
    (sampleDraws byte).frameNonce, rfl, aeadEncrypt_eq_some.mpr ⟨bodyTag, bodyTagged, rfl⟩⟩, rfl⟩

/-! ## Opening again -/

/-- **A frame that opened once opens again**, to the same plaintext and with any key, until
the session begins its epoch itself. Opening it again changes nothing. -/
theorem reopens (P : Primitives) (build : Build) (peer : String)
    (rekeyMsgBound rekeyAgeSeconds : UInt64) (earlier later : List Call) (frame : SealedDmFrame)
    (myHybridPriv myHybridPriv' : Bytes) {plaintext : Bytes} :
    let session := (machine P build).final (withBounds peer rekeyMsgBound rekeyAgeSeconds) earlier
    let first := (DmSession.open P frame myHybridPriv).run session
    let session' := (machine P build).final first.2 later
    first.1 = .ok plaintext → (∀ secret, (frame.epoch, secret) ∉ begunBy P build first.2 later) →
      (DmSession.open P frame myHybridPriv').run session' = (.ok plaintext, session') := by
  intro session first session' opened unbegun
  have persistent : session.Persistent :=
    (Persistent.withBounds peer rekeyMsgBound rekeyAgeSeconds).final earlier
  obtain ⟨secret, body, stored⟩ := exists_stored_of_open opened
  have stored' : session'.epochSecrets[frame.epoch]? = some secret :=
    getElem?_final_of_stored persistent.open stored unbegun
  rw [run_open_of_stored myHybridPriv' stored', body]

/-- A frame that opened is opened twice more, the second time with no key at all. -/
theorem reopens_forged :
    let P := markedZero 2
    let own := hybridKeypair P (sampleKeys 1)
    ∃ frame : SealedDmFrame,
      let first := (DmSession.open P frame own.privateKey).run (withBounds "sender" 50 604800)
      let second := (DmSession.open P frame own.privateKey).run first.2
      first.1 = .ok [] ∧ (DmSession.open P frame []).run second.2 = (.ok [], second.2) := by
  intro P own
  obtain ⟨frame, forged, -⟩ := exists_forged 2 1 (sampleKeys 1)
  have opened : ((DmSession.open P frame own.privateKey).run
      (withBounds "sender" 50 604800)).1 = .ok [] :=
    congrArg Prod.fst (forged.run_open kemCorrect aeadCorrect (by simp [withBounds]))
  exact ⟨frame, opened, reopens P ⟨true, .w64⟩ "sender" 50 604800 []
    [.open frame own.privateKey] frame own.privateKey [] opened
    fun _ impossible => by cases impossible⟩

/-! ## Taking an epoch over -/

/-- **One forged frame takes an epoch over.** At a receiver that does not know the epoch it
opens to what its maker chose. From then on no honest frame of the epoch opens, until the
receiver begins the epoch itself. -/
theorem hijacked {P : Primitives} (kem : P.KemCorrect) (aead : P.AeadCorrect)
    (hkdf : P.HkdfInjective) (build : Build) (peer : String)
    (rekeyMsgBound rekeyAgeSeconds : UInt64) (earlier : List Call) {keys : KeypairDraws}
    {secret : EpochSecret} {plaintext : Bytes} {frame : SealedDmFrame}
    (forged : Forged P keys secret plaintext frame) :
    let own := hybridKeypair P keys
    let session := (machine P build).final (withBounds peer rekeyMsgBound rekeyAgeSeconds) earlier
    let first := (DmSession.open P frame own.privateKey).run session
    session.epochSecrets[frame.epoch]? = none →
      first.1 = .ok plaintext ∧
        ∀ (later : List Call) (honest : Sent),
          (∀ secret, (frame.epoch, secret) ∉ begunBy P build first.2 later) →
          Honest P keys honest → P.Exact (honest.sealing P) →
          honest.frame.epoch = frame.epoch → honest.secret ≠ secret →
          ((DmSession.open P honest.frame own.privateKey).run
            ((machine P build).final first.2 later)).1 = .error .openFailed := by
  intro own session first vacant
  have opened : first = (.ok plaintext, session.installed frame.epoch secret) :=
    forged.run_open kem aead vacant
  have persistent : first.2.Persistent :=
    ((Persistent.withBounds peer rekeyMsgBound rekeyAgeSeconds).final earlier).open
  have stored : first.2.epochSecrets[frame.epoch]? = some secret := by
    rw [opened]
    exact getElem?_installed_self session frame.epoch secret
  refine ⟨congrArg Prod.fst opened, ?_⟩
  intro later honest unbegun fair exact sameEpoch different
  have stored' := getElem?_final_of_stored persistent stored unbegun
  rw [← sameEpoch] at stored'
  exact fair.open_of_other hkdf exact stored' (Ne.symm different) own.privateKey

/-- Epoch zero of a new session, taken over before the first honest frame arrives. -/
theorem hijacked_new :
    let P := markedZero 2
    let own := hybridKeypair P (sampleKeys 1)
    let session := withBounds "sender" 50 604800
    ∃ (forged : SealedDmFrame) (honest : Sent), Honest P (sampleKeys 1) honest ∧
      ((DmSession.open P forged own.privateKey).run session).1 = .ok [] ∧
      ((DmSession.open P honest.frame own.privateKey).run
        ((DmSession.open P forged own.privateKey).run session).2).1 = .error .openFailed := by
  intro P own session
  let build : Build := ⟨true, .w64⟩
  obtain ⟨frame, forged, first⟩ := exists_forged 2 1 (sampleKeys 1)
  obtain ⟨kam, body, -, honest⟩ := exists_firstFrame_marked 2
    (due_withBounds build "receiver" 50 604800) [] (sampleKeys 1) (sampleDraws 2)
  have vacant : session.epochSecrets[frame.epoch]? = none := by simp [session, withBounds]
  have different : (sampleDraws 2).epochSecret ≠ (sampleDraws 1).epochSecret := by decide
  obtain ⟨opened, shut⟩ := hijacked kemCorrect aeadCorrect hkdfInjective build "sender" 50 604800
    [] forged vacant
  exact ⟨frame, _, honest, opened, shut [] _ (fun _ impossible => by cases impossible) honest
    (exact_marked honest.encrypted) first.symm different⟩

end DmSession
end SkPqc

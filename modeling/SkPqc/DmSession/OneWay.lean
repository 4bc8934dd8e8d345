import SkPqc.DmSession.Runs

/-!
# One session sends, another receives

A sender seals messages to the key of one receiver. Each frame it sends is
honest: its body is the plaintext under the key of its slot, and its KAM, carried
by the first frames of an epoch, unwraps to the secret of that epoch. The sender
keeps the secret of every epoch it began, since no epoch begins twice
(`announces_sent`).

An epoch begins twice only when its number wraps, which takes more than `2 ^ 64`
calls and a build that does not check overflow.
-/

set_option autoImplicit false

namespace SkPqc

open Library Kem Ratchet

namespace DmSession

/-- The calls of a session that seals messages to one key. -/
def sealsTo (peerHybridPub : Bytes) (messages : List (Bytes × SealDraws)) : List Call :=
  messages.map fun message => .seal message.1 peerHybridPub message.2

/-- The calls of a session that opens frames with one key. -/
def opensWith (myHybridPriv : Bytes) (frames : List SealedDmFrame) : List Call :=
  frames.map fun frame => .open frame myHybridPriv

/-! ## The epoch number does not wrap -/

/-- How many epochs a session has begun, when none was begun twice. -/
def epochsBegun (session : DmSession) : Nat :=
  match session.ratchet with
  | none => 0
  | some ratchet => ratchet.epoch.toNat + 1

/-- The next epoch number does not wrap: there is one, or overflow panics. -/
def HasNextEpoch (build : Build) (session : DmSession) : Prop :=
  build.overflowChecks = true ∨ session.epochsBegun < 2 ^ 64

section

variable {P : Primitives} {build : Build} {session keyed : DmSession} {ratchet : DmRatchet}
  {peerHybridPub : Bytes} {draws : SealDraws}

/-- An epoch that begins has the number of epochs begun before. -/
theorem HasNextEpoch.toNat_beginAt (next : HasNextEpoch build session) {now : Rat} {epoch : UInt64}
    (beginning : (session.beginAt build now : Outcome DmSessionError _) = .ok (some epoch)) :
    epoch.toNat = session.epochsBegun := by
  rcases beginAt_eq_some beginning with ⟨idle, rfl⟩ | ⟨ratchet, holds, _, rfl, checked⟩
  · simp [epochsBegun, idle]
  · simp only [HasNextEpoch, epochsBegun, holds] at next ⊢
    exact toNat_add_one (next.elim checked id)

theorem Keyed.epochsBegun_le (key : Keyed P build session peerHybridPub draws keyed ratchet) :
    (keyed.advanced ratchet).epochsBegun ≤ session.epochsBegun + 1 := by
  cases key with
  | current holds young => simp [epochsBegun, advanced, holds]
  | fresh beginning wrapped =>
      simp only [epochsBegun, advanced, DmRatchet.withBounds]
      rcases beginAt_eq_some beginning with ⟨idle, rfl⟩ | ⟨ratchet, holds, _, rfl, _⟩
      · simp [idle]
      · rw [holds, UInt64.toNat_add]
        exact Nat.add_le_add_right (Nat.mod_le _ _) 1

theorem epochsBegun_seal_le (P : Primitives) (build : Build) (session : DmSession)
    (plaintext peerHybridPub : Bytes) (draws : SealDraws) :
    ((machine P build).step session (.seal plaintext peerHybridPub draws)).2.epochsBegun ≤
      session.epochsBegun + 1 := by
  have sealing := run_seal P build session plaintext peerHybridPub draws
  rw [step_seal]
  generalize (DmSession.seal P build plaintext peerHybridPub draws).run session = result at *
  cases sealing with
  | overflow beginning => exact Nat.le_succ _
  | wrapFailed beginning failed => exact Nat.le_succ _
  | encryptFailed key failed => exact key.epochsBegun_le
  | emitted key encrypted => exact key.epochsBegun_le

/-- A sender seals to its one key, and its epoch number does not wrap. -/
def Sends (build : Build) (peerHybridPub : Bytes) (session : DmSession) (call : Call) : Prop :=
  HasNextEpoch build session ∧ ∃ plaintext draws, call = .seal plaintext peerHybridPub draws

/-- Up to `2 ^ 64` calls never wrap the epoch number. -/
theorem guarded_sends {messages : List (Bytes × SealDraws)}
    (counted : build.overflowChecks = true ∨
      session.epochsBegun + messages.length ≤ 2 ^ 64) :
    (machine P build).Guarded (Sends build peerHybridPub) session
      (sealsTo peerHybridPub messages) := by
  induction messages generalizing session with
  | nil => exact .nil
  | cons message rest ih =>
      rw [List.length_cons] at counted
      have one := epochsBegun_seal_le P build session message.1 peerHybridPub message.2
      have counted' : build.overflowChecks = true ∨
          ((machine P build).step session (.seal message.1 peerHybridPub message.2)).2.epochsBegun +
            rest.length ≤ 2 ^ 64 := counted.imp_right fun count => by omega
      exact .cons ⟨counted.imp_right fun count => by omega, message.1, message.2, rfl⟩ (ih counted')

end

/-! ## What the sender sent -/

/-- A frame as an honest sender makes it for the owner of a key pair. -/
structure Honest (P : Primitives) (keys : KeypairDraws) (sent : Sent) : Prop where
  nonce : sent.frame.nonce = sent.draws.frameNonce.val
  encrypted : P.aeadEncrypt (sent.sealing P).key (sent.sealing P).nonce (sent.sealing P).aad
    (sent.sealing P).msg = some sent.frame.body
  carries : sent.frame.index < kamRepeat → ∃ kam, sent.frame.kam = some kam ∧
    unwrapDmEpochSecret P kam (hybridKeypair P keys).privateKey = .ok sent.secret
  bare : ¬ sent.frame.index < kamRepeat → sent.frame.kam = none

/-- The sender keeps the secret of every epoch it sent in, and its current KAM
unwraps to the secret of its ratchet. No epoch beyond the current one is
stored. -/
structure Announces (P : Primitives) (keys : KeypairDraws) (sent : List Sent)
    (session : DmSession) : Prop where
  persistent : session.Persistent
  honest : ∀ frame ∈ sent, Honest P keys frame
  stored : ∀ frame ∈ sent, session.epochSecrets[frame.frame.epoch]? = some frame.secret
  current : ∀ ratchet, session.ratchet = some ratchet → ∃ kam, session.currentKam = some kam ∧
    unwrapDmEpochSecret P kam (hybridKeypair P keys).privateKey = .ok ratchet.epochSecret
  below : ∀ epoch : UInt64, session.epochSecrets[epoch]? ≠ none → epoch.toNat < session.epochsBegun

section

variable {P : Primitives} {build : Build} {keys : KeypairDraws} {sent : List Sent}
  {session keyed : DmSession} {ratchet : DmRatchet} {draws : SealDraws}

/-- An honest body opens with the secret it was sealed under. -/
theorem Honest.openBody (aead : P.AeadCorrect) {frame : Sent} (honest : Honest P keys frame) :
    openBody P frame.secret frame.frame = .ok frame.plaintext := by
  have length : frame.frame.nonce.length = 12 := by
    rw [honest.nonce, frame.draws.frameNonce.property]
  have nonce : (⟨frame.frame.nonce, length⟩ : FixedBytes 12) = frame.draws.frameNonce :=
    Subtype.ext honest.nonce
  rw [openBody_eq, dif_pos length, nonce]
  exact congrArg (Outcome.ofOption _) (aead.decrypt_encrypt honest.encrypted)

/-- It does not open with another secret, when it decrypts only as it was made. -/
theorem Honest.openBody_of_ne (hkdf : P.HkdfInjective) {frame : Sent} (honest : Honest P keys frame)
    (exact : P.Exact (frame.sealing P)) {secret : EpochSecret} (different : secret ≠ frame.secret) :
    DmSession.openBody P secret frame.frame = .error .openFailed := by
  have length : frame.frame.nonce.length = 12 := by
    rw [honest.nonce, frame.draws.frameNonce.property]
  rw [openBody_eq, dif_pos length]
  cases decrypted : P.aeadDecrypt (messageKey P secret frame.frame.epoch frame.frame.index)
      ⟨frame.frame.nonce, length⟩ (frameAad frame.frame.epoch frame.frame.index)
      frame.frame.body with
  | none => rfl
  | some opened =>
      obtain ⟨-, sameSecret, -⟩ := hkdf _ _ _ _ _ _ (exact _ _ _ _ decrypted).1
      exact absurd (Subtype.ext sameSecret) different

/-- A sent frame with a KAM is one of the first of its epoch. -/
theorem Honest.early_of_kam {frame : Sent} (honest : Honest P keys frame) {kam : Bytes}
    (carried : frame.frame.kam = some kam) : frame.frame.index < kamRepeat := by
  by_contra late
  rw [honest.bare late] at carried
  cases carried

/-- A KAM of a sent frame unwraps to the secret of its epoch. -/
theorem Honest.unwrap_kam {frame : Sent} (honest : Honest P keys frame) {kam : Bytes}
    (carried : frame.frame.kam = some kam) :
    unwrapDmEpochSecret P kam (hybridKeypair P keys).privateKey = .ok frame.secret := by
  obtain ⟨kam', carries, unwrapped⟩ := honest.carries (honest.early_of_kam carried)
  rw [Option.some.inj (carried.symm.trans carries)]
  exact unwrapped

section

variable {receiver : DmSession} {frame : Sent}

/-- The secret of a KAM is stored under whatever epoch the frame names. -/
theorem getElem?_open_of_kam {frame : SealedDmFrame} {kam myHybridPriv : Bytes}
    {secret : EpochSecret} (vacant : receiver.epochSecrets[frame.epoch]? = none)
    (carried : frame.kam = some kam)
    (unwrapped : unwrapDmEpochSecret P kam myHybridPriv = .ok secret) :
    ((DmSession.open P frame myHybridPriv).run receiver).2.epochSecrets[frame.epoch]? =
      some secret := by
  rw [run_open_of_kam myHybridPriv vacant carried, unwrapped]
  exact getElem?_installed_self receiver frame.epoch secret

/-- An honest frame with a KAM opens at a receiver that does not know its epoch. -/
theorem Honest.open_of_vacant (aead : P.AeadCorrect) (honest : Honest P keys frame)
    (carries : frame.frame.kam ≠ none)
    (vacant : receiver.epochSecrets[frame.frame.epoch]? = none) :
    ((DmSession.open P frame.frame (hybridKeypair P keys).privateKey).run receiver).1 =
      .ok frame.plaintext := by
  obtain ⟨kam, carried⟩ := Option.ne_none_iff_exists'.mp carries
  rw [run_open_of_kam _ vacant carried, honest.unwrap_kam carried]
  exact honest.openBody aead

/-- An honest frame opens at a receiver that knows the secret of its epoch. -/
theorem Honest.open_of_stored (aead : P.AeadCorrect) (honest : Honest P keys frame)
    (stored : receiver.epochSecrets[frame.frame.epoch]? = some frame.secret)
    (myHybridPriv : Bytes) :
    ((DmSession.open P frame.frame myHybridPriv).run receiver).1 = .ok frame.plaintext := by
  rw [run_open_of_stored myHybridPriv stored]
  exact honest.openBody aead

/-- It does not open at a receiver that stores another secret for its epoch. -/
theorem Honest.open_of_other (hkdf : P.HkdfInjective) (honest : Honest P keys frame)
    (exact : P.Exact (frame.sealing P)) {secret : EpochSecret}
    (stored : receiver.epochSecrets[frame.frame.epoch]? = some secret)
    (different : secret ≠ frame.secret) (myHybridPriv : Bytes) :
    ((DmSession.open P frame.frame myHybridPriv).run receiver).1 = .error .openFailed := by
  rw [run_open_of_stored myHybridPriv stored]
  exact honest.openBody_of_ne hkdf exact different

end

theorem Announces.withBounds (peer : String) (rekeyMsgBound rekeyAgeSeconds : UInt64) :
    Announces P keys [] (withBounds peer rekeyMsgBound rekeyAgeSeconds) where
  persistent := .withBounds peer rekeyMsgBound rekeyAgeSeconds
  honest _ impossible := by cases impossible
  stored _ impossible := by cases impossible
  current _ impossible := by cases impossible
  below epoch impossible := absurd (by simp [DmSession.withBounds]) impossible

/-- Keying the session for the next frame announces its epoch. -/
theorem Announces.advanced (kem : P.KemCorrect) (aead : P.AeadCorrect)
    (announces : Announces P keys sent session) (next : HasNextEpoch build session)
    (key : Keyed P build session (hybridKeypair P keys).publicKey draws keyed ratchet) :
    Announces P keys sent (keyed.advanced ratchet) ∧
      ∃ kam, keyed.currentKam = some kam ∧
        unwrapDmEpochSecret P kam (hybridKeypair P keys).privateKey = .ok ratchet.epochSecret := by
  have persistent := announces.persistent.keyed key
  cases key with
  | current holds young =>
      have current := announces.current ratchet holds
      refine ⟨⟨persistent, announces.honest, announces.stored, ?_, ?_⟩, current⟩
      · rintro _ ⟨⟩
        exact current
      · intro epoch found
        have below := announces.below epoch found
        simpa [epochsBegun, advanced, holds] using below
  | @fresh epoch kam beginning wrapped =>
      have number := next.toNat_beginAt beginning
      have current := unwrap_wrapDmEpochSecret kem aead keys wrapped
      -- The new epoch is beyond all stored ones, so no stored secret is lost.
      have unknown : session.epochSecrets[epoch]? = none := by
        by_contra found
        exact absurd (announces.below epoch found) (by omega)
      refine ⟨⟨persistent, announces.honest, ?_, ?_, ?_⟩, kam, rfl, current⟩
      · intro frame found
        have stored := announces.stored frame found
        have different : epoch ≠ frame.frame.epoch := by
          rintro rfl
          rw [unknown] at stored
          cases stored
        exact (getElem?_begun_of_ne session _ kam draws.startedAt different).trans stored
      · rintro _ ⟨⟩
        exact ⟨kam, rfl, current⟩
      · intro other found
        change other.toNat < epoch.toNat + 1
        by_cases same : epoch = other
        · rw [same]
          exact Nat.lt_succ_self _
        · have old : session.epochSecrets[other]? ≠ none := by
            rw [← getElem?_begun_of_ne session draws.epochSecret kam draws.startedAt same]
            exact found
          have below := announces.below other old
          omega

theorem Announces.append (announces : Announces P keys sent session) {next : Sent}
    (honest : Honest P keys next)
    (stored : session.epochSecrets[next.frame.epoch]? = some next.secret) :
    Announces P keys (sent ++ [next]) session :=
  { announces with
    honest := fun frame found => by
      rcases List.mem_append.mp found with earlier | new
      · exact announces.honest frame earlier
      · exact List.mem_singleton.mp new ▸ honest
    stored := fun frame found => by
      rcases List.mem_append.mp found with earlier | new
      · exact announces.stored frame earlier
      · exact List.mem_singleton.mp new ▸ stored }

/-- **One sealing call keeps what the sender announces.** -/
theorem Announces.step (kem : P.KemCorrect) (aead : P.AeadCorrect)
    (announces : Announces P keys sent session) (next : HasNextEpoch build session)
    (plaintext : Bytes) (draws : SealDraws) :
    let call : Call := .seal plaintext (hybridKeypair P keys).publicKey draws
    Announces P keys
      (sent ++ (sentBy call ((machine P build).step session call).1
        ((machine P build).step session call).2).toList)
      ((machine P build).step session call).2 := by
  intro call
  have sealing := run_seal P build session plaintext (hybridKeypair P keys).publicKey draws
  simp only [call, step_seal]
  generalize (DmSession.seal P build plaintext (hybridKeypair P keys).publicKey draws).run session =
    result at sealing
  cases sealing with
  | overflow beginning => simpa [sentBy] using announces
  | wrapFailed beginning failed => simpa [sentBy] using announces
  | encryptFailed key failed =>
      simpa [sentBy] using (announces.advanced kem aead next key).1
  | @emitted keyed ratchet body key encrypted =>
      obtain ⟨advanced, kam, current, unwrapped⟩ := announces.advanced kem aead next key
      refine advanced.append ⟨rfl, encrypted, ?_, ?_⟩ ?_
      · intro early
        exact ⟨kam, (if_pos early).trans current, unwrapped⟩
      · intro late
        exact if_neg late
      · exact advanced.persistent.stored
          { ratchet with messageIndex := ratchet.messageIndex + 1 } rfl

/-- Every run of a sender announces what it sent. -/
theorem announces_sent (kem : P.KemCorrect) (aead : P.AeadCorrect) (peer : String)
    (rekeyMsgBound rekeyAgeSeconds : UInt64) {messages : List (Bytes × SealDraws)}
    (counted : build.overflowChecks = true ∨ messages.length ≤ 2 ^ 64) :
    let start := DmSession.withBounds peer rekeyMsgBound rekeyAgeSeconds
    let calls := sealsTo (hybridKeypair P keys).publicKey messages
    Announces P keys (DmSession.sent P build start calls)
      ((machine P build).final start calls) := by
  intro start calls
  have fresh : build.overflowChecks = true ∨
      start.epochsBegun + messages.length ≤ 2 ^ 64 := by
    simpa [start, epochsBegun, DmSession.withBounds] using counted
  have keeps : ∀ (past : List Sent) (session : DmSession) (call : Call),
      Announces P keys past session → Sends build (hybridKeypair P keys).publicKey session call →
      Announces P keys
        (past ++ (sentBy call ((machine P build).step session call).1
          ((machine P build).step session call).2).toList)
        ((machine P build).step session call).2 := by
    rintro past session _ announces ⟨next, plaintext, draws, rfl⟩
    exact announces.step kem aead next plaintext draws
  exact Machine.log_invariant keeps (Announces.withBounds peer rekeyMsgBound rekeyAgeSeconds)
    (guarded_sends fresh)

end

end DmSession
end SkPqc

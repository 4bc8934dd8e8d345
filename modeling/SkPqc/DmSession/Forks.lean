import SkPqc.DmSession.Conversation

/-!
# Rolling a session back

A snapshot can be restored while the session it was taken from goes on, or after that
session has sent more. Nothing in it tells that it is old. So there are two sessions with
one past, which seal to one peer.

In the epochs that were begun before the snapshot both go on with the same counter under
the same secret, and use its keys twice (`forked_keys`). In later epochs their secrets
differ under the same numbers. A peer that has heard one of the two in such an epoch
refuses all that the other one sends in it (`forked_delivery`).
-/

set_option autoImplicit false

namespace SkPqc

open Library Kem Ratchet Idealised

namespace DmSession

/-- The calls of a session until a snapshot, and those of the two sessions that go on from
it. All seal to one peer, and the two draw no secret in common. -/
structure Forked (P : Primitives) (build : Build) (keys : KeypairDraws)
    (earlier left right : List Call) : Prop where
  onlyEarlier : ∀ call ∈ earlier, SealsOnlyTo (hybridKeypair P keys).publicKey call
  onlyLeft : ∀ call ∈ left, SealsOnlyTo (hybridKeypair P keys).publicKey call
  onlyRight : ∀ call ∈ right, SealsOnlyTo (hybridKeypair P keys).publicKey call
  counted : build.overflowChecks = true ∨
    earlier.length + left.length ≤ 2 ^ 64 ∧ earlier.length + right.length ≤ 2 ^ 64
  fresh : (left.filterMap Call.drawn).Disjoint (right.filterMap Call.drawn)

section

variable {P : Primitives} {build : Build} {keys : KeypairDraws}
  {begun : List (UInt64 × EpochSecret)} {past : List Sent} {session : DmSession}
  {calls earlier left right : List Call} {frame frame' : Sent}

/-! ## What a session goes on with -/

/-- In an epoch that was begun before, a session goes on under its secret. -/
theorem Speaks.mem_of_old (speaks : Speaks P keys begun past session) (kem : P.KemCorrect)
    (aead : P.AeadCorrect)
    (only : ∀ call ∈ calls, SealsOnlyTo (hybridKeypair P keys).publicKey call)
    (counted : build.overflowChecks = true ∨ session.epochsBegun + calls.length ≤ 2 ^ 64)
    (found : frame ∈ sent P build session calls)
    (old : frame.frame.epoch.toNat < session.epochsBegun) :
    (frame.frame.epoch, frame.secret) ∈ begun := by
  obtain ⟨secret, known⟩ := speaks.exists_secret_iff.mpr old
  have later := speaks_final kem aead speaks only counted
  have under := later.under frame (List.mem_append_right _ found)
  rwa [later.secret_unique under (List.mem_append_left _ known)]

/-- In a later epoch it has drawn the secret since. -/
theorem Speaks.drawn_of_new (speaks : Speaks P keys begun past session) (kem : P.KemCorrect)
    (aead : P.AeadCorrect)
    (only : ∀ call ∈ calls, SealsOnlyTo (hybridKeypair P keys).publicKey call)
    (counted : build.overflowChecks = true ∨ session.epochsBegun + calls.length ≤ 2 ^ 64)
    (found : frame ∈ sent P build session calls)
    (new : ¬ frame.frame.epoch.toNat < session.epochsBegun) :
    frame.secret ∈ calls.filterMap Call.drawn := by
  have later := speaks_final kem aead speaks only counted
  rcases List.mem_append.mp (later.under frame (List.mem_append_right _ found)) with known | since
  · exact absurd (speaks.exists_secret_iff.mp ⟨_, known⟩) new
  · exact exists_drawn_of_begun since

/-! ## Two sessions with one past -/

/-- What is known of both sessions where they part. -/
theorem Forked.speaks (forked : Forked P build keys earlier left right) (kem : P.KemCorrect)
    (aead : P.AeadCorrect) (peer : String) (rekeyMsgBound rekeyAgeSeconds : UInt64) :
    let start := withBounds peer rekeyMsgBound rekeyAgeSeconds
    let session := (machine P build).final start earlier
    Speaks P keys (begunBy P build start earlier) (sent P build start earlier) session ∧
      (build.overflowChecks = true ∨ session.epochsBegun + left.length ≤ 2 ^ 64) ∧
      (build.overflowChecks = true ∨ session.epochsBegun + right.length ≤ 2 ^ 64) := by
  intro start session
  have few : session.epochsBegun ≤ 0 + earlier.length :=
    epochsBegun_final_le (.withBounds peer rekeyMsgBound rekeyAgeSeconds) earlier
  refine ⟨?_, forked.counted.imp_right fun count => by omega,
    forked.counted.imp_right fun count => by omega⟩
  refine speaks_final kem aead (Speaks.withBounds peer rekeyMsgBound rekeyAgeSeconds)
    forked.onlyEarlier (forked.counted.imp_right fun count => ?_)
  change 0 + earlier.length ≤ 2 ^ 64
  omega

/-- Frames of one epoch that the two sessions send have one secret when the epoch was begun
before they parted, and different ones otherwise. -/
theorem Forked.secret_eq_iff (forked : Forked P build keys earlier left right)
    (kem : P.KemCorrect) (aead : P.AeadCorrect) {peer : String}
    {rekeyMsgBound rekeyAgeSeconds : UInt64}
    (parted : session = (machine P build).final (withBounds peer rekeyMsgBound rekeyAgeSeconds)
      earlier)
    (found : frame ∈ sent P build session left) (found' : frame' ∈ sent P build session right)
    (sameEpoch : frame.frame.epoch = frame'.frame.epoch) :
    frame.secret = frame'.secret ↔ frame.frame.epoch.toNat < session.epochsBegun := by
  subst parted
  obtain ⟨speaks, countedLeft, countedRight⟩ :=
    forked.speaks kem aead peer rekeyMsgBound rekeyAgeSeconds
  constructor
  · intro same
    by_contra new
    have drawn := speaks.drawn_of_new kem aead forked.onlyLeft countedLeft found new
    have drawn' := speaks.drawn_of_new kem aead forked.onlyRight countedRight found'
      (by rwa [← sameEpoch])
    rw [← same] at drawn'
    exact forked.fresh drawn drawn'
  · intro old
    have known := speaks.mem_of_old kem aead forked.onlyLeft countedLeft found old
    have known' := speaks.mem_of_old kem aead forked.onlyRight countedRight found'
      (by rwa [← sameEpoch])
    rw [← sameEpoch] at known'
    exact speaks.secret_unique known known'

/-- **Keys after a rollback.** The snapshot is restored to the session that it was taken from.
Of two sessions that go on from there, two frames have one message key exactly when they
have one place in an epoch that was begun before the snapshot. -/
theorem forked_keys (kem : P.KemCorrect) (aead : P.AeadCorrect) (hkdf : P.HkdfInjective)
    (peer : String) (rekeyMsgBound rekeyAgeSeconds : UInt64)
    (forked : Forked P build keys earlier left right) :
    let session := (machine P build).final (withBounds peer rekeyMsgBound rekeyAgeSeconds) earlier
    restore session.snapshot = .ok session ∧
      ∀ frame ∈ sent P build session left, ∀ frame' ∈ sent P build session right,
        (frame.sealing P).key = (frame'.sealing P).key ↔
          frame.frame.epoch = frame'.frame.epoch ∧ frame.frame.index = frame'.frame.index ∧
            frame.frame.epoch.toNat < session.epochsBegun := by
  intro session
  refine ⟨restore_snapshot
    ((Persistent.withBounds peer rekeyMsgBound rekeyAgeSeconds).final earlier), ?_⟩
  intro frame found frame' found'
  constructor
  · intro same
    obtain ⟨secrets, epochs, indices⟩ := messageKey_inj hkdf same
    exact ⟨epochs, indices, (forked.secret_eq_iff kem aead rfl found found' epochs).mp secrets⟩
  · rintro ⟨epochs, indices, old⟩
    have secrets := (forked.secret_eq_iff kem aead rfl found found' epochs).mpr old
    simp only [Sent.sealing, secrets, epochs, indices]

/-- **Delivery after a rollback.** A peer that opened a frame of the one session opens the frames
of the other in an epoch that was begun before the snapshot, and refuses them in all later
ones, whatever else it does, short of beginning the epoch itself. -/
theorem forked_delivery (kem : P.KemCorrect) (aead : P.AeadCorrect) (hkdf : P.HkdfInjective)
    (peer : String) (rekeyMsgBound rekeyAgeSeconds : UInt64)
    (forked : Forked P build keys earlier left right) :
    let session := (machine P build).final (withBounds peer rekeyMsgBound rekeyAgeSeconds) earlier
    restore session.snapshot = .ok session ∧
      ∀ frame ∈ sent P build session left, ∀ frame' ∈ sent P build session right,
        frame.frame.epoch = frame'.frame.epoch → frame.frame.kam ≠ none →
        P.Exact (frame'.sealing P) →
        ∀ receiver : DmSession, receiver.Persistent →
          receiver.epochSecrets[frame.frame.epoch]? = none →
          let opened := (DmSession.open P frame.frame (hybridKeypair P keys).privateKey).run
            receiver
          ∀ later : List Call,
            (∀ secret, (frame.frame.epoch, secret) ∉ begunBy P build opened.2 later) →
            ∀ myHybridPriv, opened.1 = .ok frame.plaintext ∧
              ((DmSession.open P frame'.frame myHybridPriv).run
                ((machine P build).final opened.2 later)).1 =
                if frame.frame.epoch.toNat < session.epochsBegun then .ok frame'.plaintext
                else .error .openFailed := by
  intro session
  refine ⟨restore_snapshot
    ((Persistent.withBounds peer rekeyMsgBound rekeyAgeSeconds).final earlier), ?_⟩
  intro frame found frame' found' sameEpoch carries exact receiver persistent vacant opened later
    unbegun myHybridPriv
  obtain ⟨speaks, countedLeft, countedRight⟩ :=
    forked.speaks kem aead peer rekeyMsgBound rekeyAgeSeconds
  have honest := (speaks_final kem aead speaks forked.onlyLeft countedLeft).honest frame
    (List.mem_append_right _ found)
  have honest' := (speaks_final kem aead speaks forked.onlyRight countedRight).honest frame'
    (List.mem_append_right _ found')
  obtain ⟨kam, carried⟩ := Option.ne_none_iff_exists'.mp carries
  have stored : opened.2.epochSecrets[frame.frame.epoch]? = some frame.secret :=
    getElem?_open_of_kam vacant carried (honest.unwrap_kam carried)
  have stored' := getElem?_final_of_stored persistent.open stored unbegun
  rw [sameEpoch] at stored'
  refine ⟨honest.open_of_vacant aead carries vacant, ?_⟩
  have secrets := forked.secret_eq_iff kem aead rfl found found' sameEpoch
  split
  · rename_i old
    rw [secrets.mpr old] at stored'
    exact honest'.open_of_stored aead stored' myHybridPriv
  · rename_i new
    exact honest'.open_of_other hkdf exact stored' (fun same => new (secrets.mp same))
      myHybridPriv

end

/-! ## A session restored too late -/

/-- A session that has sent one frame goes on, and so does a copy of it: their second frames
have one key. -/
theorem forked_keys_second :
    let P := markedZero 1
    let build : Build := ⟨true, .w64⟩
    let pub := (hybridKeypair P (sampleKeys 1)).publicKey
    let session := (machine P build).final (withBounds "peer" 50 604800)
      [.seal [] pub (sampleDraws 1)]
    restore session.snapshot = .ok session ∧
      ∃ frame ∈ DmSession.sent P build session [.seal [7] pub (sampleDraws 2)],
        ∃ frame' ∈ DmSession.sent P build session [.seal [8] pub (sampleDraws 3)],
          frame.plaintext ≠ frame'.plaintext ∧
            (frame.sealing P).key = (frame'.sealing P).key := by
  intro P build pub session
  have forked : Forked P build (sampleKeys 1) [.seal [] pub (sampleDraws 1)]
      [.seal [7] pub (sampleDraws 2)] [.seal [8] pub (sampleDraws 3)] := by
    refine ⟨?_, ?_, ?_, .inl rfl, ?_⟩
    · exact List.forall_mem_singleton.mpr rfl
    · exact List.forall_mem_singleton.mpr rfl
    · exact List.forall_mem_singleton.mpr rfl
    · simp [Call.drawn, sampleDraws, FixedBytes.fill]
  obtain ⟨restored, keys⟩ := forked_keys kemCorrect aeadCorrect hkdfInjective "peer" 50 604800
    forked
  obtain ⟨kam, body, step, -⟩ := exists_firstFrame_marked 1 (due_withBounds build "peer" 50 604800)
    [] (sampleKeys 1) (sampleDraws 1)
  have stands : session = (withBounds "peer" 50 604800).afterFrames 0 (sampleDraws 1) kam 1 :=
    congrArg Prod.snd step
  have next : ∀ (plaintext : Bytes) (byte : UInt8), ∃ body,
      laterSent 0 1 (sampleDraws 1).epochSecret plaintext (sampleDraws byte) kam body ∈
        DmSession.sent P build session [.seal plaintext pub (sampleDraws byte)] := by
    intro plaintext byte
    have young : ∀ message ∈ [(plaintext, sampleDraws byte)],
        message.2.now - (sampleDraws 1).startedAt <
          ((withBounds "peer" 50 604800).rekeyAgeSeconds.toNat : Rat) :=
      young_sampleDraws (by decide) (List.forall_mem_singleton.mpr rfl) 1
    have below : (1 : UInt64).toNat + 1 ≤ (50 : UInt64).toNat := by decide
    rw [stands]
    exact (exists_sent_later below young (exists_marked _)).2 0 _ rfl
  obtain ⟨body', found⟩ := next [7] 2
  obtain ⟨body'', found'⟩ := next [8] 3
  refine ⟨restored, _, found, _, found', by simp [laterSent], ?_⟩
  refine (keys _ found _ found').mpr ⟨rfl, rfl, ?_⟩
  change 0 < session.epochsBegun
  rw [stands]
  exact Nat.succ_pos _

/-- A new session and a copy of it: a peer that heard the one refuses the other. -/
theorem forked_delivery_refused :
    let P := markedZero 2
    let build : Build := ⟨true, .w64⟩
    let own := hybridKeypair P (sampleKeys 1)
    let session := withBounds "peer" 50 604800
    restore session.snapshot = .ok session ∧
      ∃ frame ∈ DmSession.sent P build session [.seal [] own.publicKey (sampleDraws 1)],
        ∃ frame' ∈ DmSession.sent P build session [.seal [] own.publicKey (sampleDraws 2)],
          let opened := (DmSession.open P frame.frame own.privateKey).run
            (withBounds "me" 50 604800)
          opened.1 = .ok [] ∧
            ((DmSession.open P frame'.frame own.privateKey).run opened.2).1 =
              .error .openFailed := by
  intro P build own session
  have forked : Forked P build (sampleKeys 1) [] [.seal [] own.publicKey (sampleDraws 1)]
      [.seal [] own.publicKey (sampleDraws 2)] := by
    refine ⟨?_, ?_, ?_, .inl rfl, ?_⟩
    · exact List.forall_mem_nil _
    · exact List.forall_mem_singleton.mpr rfl
    · exact List.forall_mem_singleton.mpr rfl
    · simp [Call.drawn, sampleDraws, FixedBytes.fill]
  have due := due_withBounds build "peer" 50 604800
  obtain ⟨kam, body, step, -⟩ := exists_firstFrame_marked 2 due [] (sampleKeys 1) (sampleDraws 1)
  obtain ⟨kam', body', step', honest'⟩ := exists_firstFrame_marked 2 due [] (sampleKeys 1)
    (sampleDraws 2)
  have found : firstSent 0 [] (sampleDraws 1) kam body ∈ DmSession.sent P build session
      [.seal [] own.publicKey (sampleDraws 1)] := by
    rw [DmSession.sent, Machine.log_cons, step]
    exact List.mem_cons_self
  have found' : firstSent 0 [] (sampleDraws 2) kam' body' ∈ DmSession.sent P build session
      [.seal [] own.publicKey (sampleDraws 2)] := by
    rw [DmSession.sent, Machine.log_cons, step']
    exact List.mem_cons_self
  have vacant : (withBounds "me" 50 604800).epochSecrets[(0 : UInt64)]? = none := by
    simp [withBounds]
  obtain ⟨restored, delivery⟩ := forked_delivery kemCorrect aeadCorrect hkdfInjective "peer" 50
    604800 forked
  refine ⟨restored, _, found, _, found', ?_⟩
  exact delivery _ found _ found' rfl (by simp [firstSent, firstFrame])
    (exact_marked honest'.encrypted) (withBounds "me" 50 604800) (.withBounds "me" 50 604800) vacant
    [] (fun _ impossible => by cases impossible) own.privateKey

end DmSession
end SkPqc

import SkPqc.GroupRatchet
import SkPqc.Idealised
import SkPqc.Library.Machines
import Mathlib.Data.List.Nodup

/-!
# One epoch of a group

The epoch secret is wrapped once for each member, and each member unwraps its own
payload alone. Then the sender counts its messages, and every member derives the
key of a message from the index it carries.

The counter is a `u64`. As long as it does not wrap, no index is issued twice
(`group_epoch_agrees`); without overflow checks the call after `2 ^ 64` others
issues index zero again (`index_reissued`).
-/

set_option autoImplicit false

namespace SkPqc
namespace GroupRatchet

open Library Kem HybridBox Idealised

/-! ## Distribution -/

/-- Decapsulating with the second key pair what was encapsulated to the first gives
another secret. -/
def Separates (P : Primitives) (keys keys' : KeypairDraws) : Prop :=
  ∀ draws ciphertext shared,
    hybridEncap P (hybridKeypair P keys).publicKey draws = .ok (ciphertext, shared) →
    ∃ shared', hybridDecap P ciphertext (hybridKeypair P keys').privateKey = .ok shared' ∧
      shared' ≠ shared

section

variable {P : Primitives} {keys keys' : KeypairDraws} {secret : FixedBytes 32}
  {draws : BoxDraws} {payload : Bytes}

/-- **The payload of another member does not unwrap.** -/
theorem unwrap_of_separates (aead : P.AeadCorrect) (hkdf : P.HkdfInjective) (ideal : P.IdealAead)
    (separates : Separates P keys keys')
    (wrapped : wrapEpochSecret P secret.val (hybridKeypair P keys).publicKey draws =
      .ok payload) :
    unwrapEpochSecret P payload (hybridKeypair P keys').privateKey = .error .unwrapFailed := by
  obtain ⟨-, made⟩ := wrapEpochSecret_eq_ok wrapped
  rw [unwrapEpochSecret_of_length (length_wrapEpochSecret aead wrapped)
    (length_privateKey P keys')]
  obtain ⟨ciphertext, shared, body, encapsulated, encrypted, rfl⟩ := sealBox_eq_ok made
  obtain ⟨shared', decapsulated, different⟩ := separates _ _ _ encapsulated
  rw [openBox_append, decapsulated, Outcome.mapError_ok, Outcome.ok_bind]
  cases decrypted : P.aeadDecrypt (boxKey P epochWrapInfo shared') draws.nonce [] body with
  | none => rfl
  | some plaintext =>
      obtain ⟨sameKey, -⟩ := ideal _ _ _ _ _ encrypted _ _ _ _ decrypted
      exact absurd (hkdf _ _ _ _ _ _ sameKey).2.1 different

/-- What a member makes of the payload of a member. -/
theorem unwrap_wrapped (kem : P.KemCorrect) (aead : P.AeadCorrect) (hkdf : P.HkdfInjective)
    (ideal : P.IdealAead) {members : List (KeypairDraws × BoxDraws)}
    (distinct : members.Pairwise fun first second =>
      hybridKeypair P first.1 ≠ hybridKeypair P second.1)
    (separates : ∀ first ∈ members, ∀ second ∈ members,
      hybridKeypair P first.1 ≠ hybridKeypair P second.1 → Separates P first.1 second.1)
    {i j : Nat} (ith : i < members.length) (jth : j < members.length)
    (wrapped : wrapEpochSecret P secret.val (hybridKeypair P members[i].1).publicKey
      members[i].2 = .ok payload) :
    unwrapEpochSecret P payload (hybridKeypair P members[j].1).privateKey =
      if i = j then .ok secret else .error .unwrapFailed := by
  by_cases same : i = j
  · subst same
    rw [if_pos rfl]
    exact unwrap_wrapEpochSecret kem aead members[i].1 wrapped
  · rw [if_neg same]
    have different : hybridKeypair P members[i].1 ≠ hybridKeypair P members[j].1 := by
      rcases Nat.lt_or_gt_of_ne same with before | after
      · exact List.pairwise_iff_getElem.mp distinct i j ith jth before
      · exact (List.pairwise_iff_getElem.mp distinct j i jth ith after).symm
    exact unwrap_of_separates aead hkdf ideal
      (separates _ (List.getElem_mem ith) _ (List.getElem_mem jth) different) wrapped

end

/-! ## Messages -/

section

variable (P : Primitives) (build : Build)

/-- A sender under calls for the next key. -/
def sending : Machine Unit EpochRatchet (Outcome GroupRatchetError (UInt64 × Bytes)) where
  step ratchet _ := (EpochRatchet.nextOutboundKey P build).run ratchet

/-- The index and key that a call returned. -/
def issuedBy (_ : Unit) (outcome : Outcome GroupRatchetError (UInt64 × Bytes))
    (_ : EpochRatchet) : Option (UInt64 × Bytes) :=
  match outcome with
  | .ok issued => some issued
  | _ => none

/-- The indices and keys that a number of calls issue. -/
def issued (ratchet : EpochRatchet) (count : Nat) : List (UInt64 × Bytes) :=
  (sending P build).log issuedBy ratchet (List.replicate count ())

end

section

variable {P : Primitives} {build : Build}

/-- The counter advances, or its overflow panics and leaves the ratchet as it
was. -/
theorem run_nextOutboundKey (ratchet : EpochRatchet) :
    (sending P build).step ratchet () =
      (.ok (ratchet.messageIndex, ratchet.messageKey P ratchet.messageIndex),
        { ratchet with messageIndex := ratchet.messageIndex + 1 }) ∧
        (build.overflowChecks = true → ratchet.messageIndex.toNat + 1 < 2 ^ 64) ∨
      (sending P build).step ratchet () = (.panic, ratchet) ∧ build.overflowChecks = true := by
  change (EpochRatchet.nextOutboundKey P build).run ratchet = _ ∧ _ ∨
    (EpochRatchet.nextOutboundKey P build).run ratchet = _ ∧ _
  cases added : (build.addU64 ratchet.messageIndex 1 : Outcome GroupRatchetError UInt64) with
  | ok sum =>
      obtain ⟨rfl, room⟩ := Build.addU64_eq_ok.mp added
      refine .inl ⟨?_, room⟩
      simp only [EpochRatchet.nextOutboundKey, Method.run_get_bind, Method.run_lift_bind, added,
        Method.run_set_bind, Method.run_pure, EpochRatchet.messageKey]
  | error reason =>
      rcases build.addU64_cases (ε := GroupRatchetError) ratchet.messageIndex 1 with sum | sum
      · rw [sum] at added
        cases added
      · rw [sum] at added
        cases added
  | panic =>
      refine .inr ⟨?_, ?_⟩
      · simp only [EpochRatchet.nextOutboundKey, Method.run_get_bind, Method.run_lift_bind, added]
      · by_contra unchecked
        have sum : (build.addU64 ratchet.messageIndex 1 : Outcome GroupRatchetError UInt64) =
            .ok (ratchet.messageIndex + 1) :=
          Build.addU64_eq_ok.mpr ⟨rfl, fun checked => absurd checked unchecked⟩
        rw [sum] at added
        cases added

/-- **What a sender issues**: the indices from its counter on, each with its key. With
overflow checks it stops below the last index; without them it goes on. -/
theorem exists_issued_eq (ratchet : EpochRatchet) (count : Nat) :
    ∃ used ≤ count, (build.overflowChecks = true → ratchet.messageIndex.toNat + used < 2 ^ 64) ∧
      (build.overflowChecks = false → used = count) ∧
      issued P build ratchet count = (List.range used).map fun step =>
        (ratchet.messageIndex + UInt64.ofNat step,
          ratchet.messageKey P (ratchet.messageIndex + UInt64.ofNat step)) := by
  induction count generalizing ratchet with
  | zero => exact ⟨0, Nat.le_refl 0, fun _ => ratchet.messageIndex.toNat_lt, fun _ => rfl, rfl⟩
  | succ count ih =>
      rcases @run_nextOutboundKey P build ratchet with ⟨step, room⟩ | ⟨step, checked⟩
      · obtain ⟨used, few, below, all, rest⟩ :=
          ih { ratchet with messageIndex := ratchet.messageIndex + 1 }
        refine ⟨used + 1, Nat.succ_le_succ few, ?_, fun unchecked => by rw [all unchecked], ?_⟩
        · intro checked
          have next := below checked
          have sum := toNat_add_one (room checked)
          dsimp only at next
          omega
        · have first : ratchet.messageIndex + UInt64.ofNat 0 = ratchet.messageIndex :=
            UInt64.add_zero _
          have later : ∀ step, ratchet.messageIndex + 1 + UInt64.ofNat step =
              ratchet.messageIndex + UInt64.ofNat (step + 1) := by
            intro step
            rw [UInt64.ofNat_add, UInt64.add_assoc, UInt64.add_comm (UInt64.ofNat step)]
            rfl
          rw [issued, List.replicate_succ, Machine.log_cons, step]
          change _ :: issued P build _ count = _
          rw [rest, List.range_succ_eq_map, List.map_cons, List.map_map, first]
          simp only [later, Function.comp_def]
          rfl
      · obtain ⟨used, few, below, all, rest⟩ := ih ratchet
        refine ⟨used, Nat.le_succ_of_le few, below, fun unchecked => ?_, ?_⟩
        · rw [checked] at unchecked
          cases unchecked
        · rw [issued, List.replicate_succ, Machine.log_cons, step]
          exact rest

/-- An issued key is the key of its index. -/
theorem messageKey_of_issued {ratchet : EpochRatchet} {count : Nat} {index : UInt64} {key : Bytes}
    (found : (index, key) ∈ issued P build ratchet count) : key = ratchet.messageKey P index := by
  obtain ⟨used, -, -, -, same⟩ := @exists_issued_eq P build ratchet count
  rw [same] at found
  obtain ⟨step, -, pair⟩ := List.mem_map.mp found
  cases pair
  rfl

/-- No index is issued twice before the counter wraps. -/
theorem nodup_issued {ratchet : EpochRatchet} {count : Nat} (fresh : ratchet.messageIndex = 0)
    (few : build.overflowChecks = false → count ≤ 2 ^ 64) :
    ((issued P build ratchet count).map Prod.fst).Nodup := by
  obtain ⟨used, -, below, all, same⟩ := @exists_issued_eq P build ratchet count
  have room : used ≤ 2 ^ 64 := by
    cases checks : build.overflowChecks with
    | false =>
        rw [all checks]
        exact few checks
    | true =>
        have bound := below checks
        omega
  rw [same, List.map_map]
  refine List.Nodup.map_on ?_ List.nodup_range
  intro first inside second inside' equal
  have indices : UInt64.ofNat first = UInt64.ofNat second := by simpa [fresh] using equal
  have numbers := congrArg UInt64.toNat indices
  rw [UInt64.toNat_ofNat_of_lt' (Nat.lt_of_lt_of_le (List.mem_range.mp inside) room),
    UInt64.toNat_ofNat_of_lt' (Nat.lt_of_lt_of_le (List.mem_range.mp inside') room)] at numbers
  exact numbers

end

/-! ## The epoch -/

/-- **A group epoch agrees.** Each member unwraps the secret from its own payload and
nothing from the payload of another. Every member that unwrapped it derives the key
of each message the sender sends, whatever else it received, and no index is issued
twice before the counter wraps. -/
theorem group_epoch_agrees {P : Primitives} (kem : P.KemCorrect) (aead : P.AeadCorrect)
    (hkdf : P.HkdfInjective) (ideal : P.IdealAead) (epoch : UInt64) (secret : FixedBytes 32)
    {members : List (KeypairDraws × BoxDraws)}
    (distinct : members.Pairwise fun first second =>
      hybridKeypair P first.1 ≠ hybridKeypair P second.1)
    (separates : ∀ first ∈ members, ∀ second ∈ members,
      hybridKeypair P first.1 ≠ hybridKeypair P second.1 → Separates P first.1 second.1) :
    (∀ (i j : Nat) (ith : i < members.length) (jth : j < members.length) (payload : Bytes),
        wrapEpochSecret P secret.val (hybridKeypair P members[i].1).publicKey members[i].2 =
          .ok payload →
        unwrapEpochSecret P payload (hybridKeypair P members[j].1).privateKey =
          if i = j then .ok secret else .error .unwrapFailed) ∧
      ∀ (build : Build) (epochStartedAt : Rat) (count : Nat),
        (build.overflowChecks = false → count ≤ 2 ^ 64) →
        let sent := issued P build (.newWithStartedAt epoch secret epochStartedAt) count
        (sent.map Prod.fst).Nodup ∧
          ∀ member ∈ members, ∀ payload recovered (receiver : EpochRatchet),
            wrapEpochSecret P secret.val (hybridKeypair P member.1).publicKey member.2 =
              .ok payload →
            unwrapEpochSecret P payload (hybridKeypair P member.1).privateKey = .ok recovered →
            receiver.epoch = epoch → receiver.epochSecret = recovered →
            ∀ message ∈ sent, receiver.messageKey P message.1 = message.2 := by
  refine ⟨?_, ?_⟩
  · intro i j ith jth payload wrapped
    exact unwrap_wrapped kem aead hkdf ideal distinct separates ith jth wrapped
  · intro build epochStartedAt count few sent
    refine ⟨nodup_issued rfl few, ?_⟩
    intro member _ payload recovered receiver wrapped unwrapped sameEpoch sameSecret message found
    rw [unwrap_wrapEpochSecret kem aead member.1 wrapped] at unwrapped
    cases unwrapped
    rw [messageKey_of_issued found, EpochRatchet.messageKey, sameEpoch, sameSecret]
    rfl

/-- Key pairs with different ML-KEM coins separate. -/
theorem separates_of_coins_ne {tagOf : Encryption → Option (FixedBytes 16)}
    {keys keys' : KeypairDraws} (different : keys.mlkemCoins ≠ keys'.mlkemCoins) :
    Separates (primitives tagOf) keys keys' := by
  intro draws ciphertext shared encapsulated
  obtain ⟨point, ek, ct, secret, publicKey, drawn, layout, combined⟩ :=
    hybridEncap_eq_ok encapsulated
  rw [layout, combined]
  obtain ⟨-, sameKey⟩ := fixed_append_inj publicKey
  have decapsulated : hybridDecap (primitives tagOf)
      (((primitives tagOf).x25519Public draws.xEph).val ++ ct.val)
      (keys'.xSeed.val ++ ((primitives tagOf).mlkemGenerate keys'.mlkemCoins).1.val) =
        .ok (combine (primitives tagOf) _ _) := hybridDecap_eq_ok.mpr ⟨_, rfl, rfl⟩
  refine ⟨_, decapsulated, ?_⟩
  intro same
  obtain ⟨-, sameSecrets, -⟩ := @hkdfInjective tagOf _ _ _ _ _ _ same
  obtain ⟨-, sameSecret⟩ := fixed_append_inj sameSecrets
  cases drawn
  have coins : (extended keys'.mlkemCoins 2336).val.take 64 = ek.val.take 64 :=
    List.append_cancel_right sameSecret
  rw [← sameKey] at coins
  change _ = (extended keys.mlkemCoins 1120).val.take 64 at coins
  rw [take_extended, take_extended] at coins
  exact different (Subtype.ext coins.symm)

theorem mlkemCoins_sampleKeys_ne :
    (sampleKeys 1).mlkemCoins ≠ (sampleKeys 2).mlkemCoins := by
  intro same
  have heads := congrArg (fun coins : FixedBytes 64 => coins.val.head?) same
  exact absurd heads (by decide)

/-- An epoch of two members and three messages. -/
theorem group_epoch_agrees_two :
    let members := [(sampleKeys 1, sampleBoxDraws 1), (sampleKeys 2, sampleBoxDraws 2)]
    let secret : FixedBytes 32 := .fill 32 5
    let P := primitives (logged (members.map fun member =>
      boxEncryption epochWrapInfo [] secret.val member.1 member.2))
    let build : Build := ⟨false, .w64⟩
    (∃ payload, wrapEpochSecret P secret.val (hybridKeypair P (sampleKeys 1)).publicKey
          (sampleBoxDraws 1) = .ok payload ∧
        unwrapEpochSecret P payload (hybridKeypair P (sampleKeys 1)).privateKey = .ok secret ∧
        unwrapEpochSecret P payload (hybridKeypair P (sampleKeys 2)).privateKey =
          .error .unwrapFailed) ∧
      ((issued P build (.newWithStartedAt 4 secret 0) 3).map Prod.fst).Nodup := by
  intro members secret P build
  have different : hybridKeypair P (sampleKeys 1) ≠ hybridKeypair P (sampleKeys 2) := by
    intro same
    have heads := congrArg (fun keys : HybridKeyPair => keys.privateKey.head?) same
    exact absurd heads (by decide)
  have separates : ∀ first ∈ members, ∀ second ∈ members,
      hybridKeypair P first.1 ≠ hybridKeypair P second.1 → Separates P first.1 second.1 := by
    intro first firstIn second secondIn other
    simp only [members, List.mem_cons, List.not_mem_nil, or_false] at firstIn secondIn
    rcases firstIn with rfl | rfl <;> rcases secondIn with rfl | rfl
    · exact absurd rfl other
    · exact separates_of_coins_ne mlkemCoins_sampleKeys_ne
    · exact separates_of_coins_ne mlkemCoins_sampleKeys_ne.symm
    · exact absurd rfl other
  obtain ⟨distribution, messages⟩ := @group_epoch_agrees P kemCorrect aeadCorrect hkdfInjective
    (idealAead_logged (by decide)) 4 secret members (List.pairwise_pair.mpr different) separates
  refine ⟨?_, (messages build 0 3 (fun _ => by decide)).1⟩
  obtain ⟨tag, tagged⟩ := exists_logged (List.mem_map_of_mem
    (f := fun member => boxEncryption epochWrapInfo [] secret.val member.1 member.2)
    (List.mem_cons_self : (sampleKeys 1, sampleBoxDraws 1) ∈ members))
  have length : (hybridKeypair P (sampleKeys 1)).publicKey.length = publicKeyLen :=
    length_publicKey P (sampleKeys 1)
  obtain ⟨payload, box⟩ : ∃ payload, sealBox P epochWrapInfo [] secret.val
      (hybridKeypair P (sampleKeys 1)).publicKey (sampleBoxDraws 1) = .ok payload :=
    ⟨_, sealBox_of_tag tagged⟩
  have wrapped : wrapEpochSecret P secret.val (hybridKeypair P (sampleKeys 1)).publicKey
      (sampleBoxDraws 1) = .ok payload := by
    rw [wrapEpochSecret_secret, if_neg (not_not.mpr length), box]
    rfl
  exact ⟨payload, wrapped, distribution 0 0 (by decide) (by decide) payload wrapped,
    distribution 0 1 (by decide) (by decide) payload wrapped⟩

/-- **An index is issued twice** when the counter wraps. -/
theorem index_reissued :
    let P := primitives (logged [])
    (P.KemCorrect ∧ P.AeadCorrect ∧ P.HkdfInjective ∧ P.IdealAead) ∧
      ¬ ((issued P ⟨false, .w64⟩ (.newWithStartedAt 0 (.fill 32 5) 0) (2 ^ 64 + 1)).map
        Prod.fst).Nodup := by
  intro P
  refine ⟨⟨kemCorrect, aeadCorrect, hkdfInjective, idealAead_logged (by decide)⟩, ?_⟩
  intro distinct
  obtain ⟨used, -, -, all, same⟩ := @exists_issued_eq P ⟨false, .w64⟩
    (.newWithStartedAt 0 (.fill 32 5) 0) (2 ^ 64 + 1)
  obtain rfl := all rfl
  rw [same, List.map_map] at distinct
  have wraps : UInt64.ofNat 0 = UInt64.ofNat (2 ^ 64) := by decide
  have equal := List.inj_on_of_nodup_map distinct (x := 0) (y := 2 ^ 64)
    (List.mem_range.mpr (by decide)) (List.mem_range.mpr (by decide))
  have numbers := equal (congrArg (fun index => (0 : UInt64) + index) wraps)
  exact absurd numbers (by decide)

end GroupRatchet
end SkPqc

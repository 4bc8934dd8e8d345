import SkPqc.BoxReaders

/-!
# The history of a group

With each epoch the members of a group may change: the secret of the epoch is wrapped for
the members it has, and for no others. The payloads are public.

Whoever holds private keys, present or past, unwraps what payloads they can, and derives
keys from every secret they come by. They come to the message keys of exactly the epochs
that a key pair of theirs was a member of, or whose secret leaked (`reads_iff`). So a member
that was removed reads nothing of what follows, and a leaked secret tells nothing of other
epochs.
-/

set_option autoImplicit false

namespace SkPqc
namespace GroupRatchet

open Library Kem HybridBox Idealised

/-- The distribution of the secret of an epoch, once for each member. -/
structure Distribution where
  epoch : UInt64
  epochSecret : FixedBytes 32
  members : List (KeypairDraws × BoxDraws)

/-- A payload as it was sent to a member. -/
structure Parcel where
  distribution : Distribution
  member : KeypairDraws × BoxDraws
  payload : Bytes

section

variable (P : Primitives)

def Distribution.wrapFor (distribution : Distribution) (member : KeypairDraws × BoxDraws) :
    Outcome GroupRatchetError Bytes :=
  wrapEpochSecret P distribution.epochSecret.val (hybridKeypair P member.1).publicKey member.2

/-- Every member was sent a payload. -/
def Distribution.Complete (distribution : Distribution) : Prop :=
  ∀ member ∈ distribution.members, ∃ payload, distribution.wrapFor P member = .ok payload

/-- One of some key pairs is that of a member. -/
def Distribution.Includes (distribution : Distribution) (holds : List KeypairDraws) : Prop :=
  ∃ keys ∈ holds, ∃ member ∈ distribution.members,
    IsFor P (hybridKeypair P member.1).publicKey keys

/-- The payloads of a history. -/
def parcels (history : List Distribution) : Post KeypairDraws Parcel Bytes (FixedBytes 32) where
  sent parcel := parcel.distribution ∈ history ∧ parcel.member ∈ parcel.distribution.members ∧
    parcel.distribution.wrapFor P parcel.member = .ok parcel.payload
  text := Parcel.payload
  secret parcel := parcel.distribution.epochSecret
  addressed parcel := IsFor P (hybridKeypair P parcel.member.1).publicKey

/-- A key pair unwraps a payload to a secret. -/
def Unwraps (keys : KeypairDraws) (payload : Bytes) (secret : FixedBytes 32) : Prop :=
  unwrapEpochSecret P payload (hybridKeypair P keys).privateKey = .ok secret

/-- An observer derives a key from what it unwraps of a history. -/
def Reads (observer : Observer KeypairDraws (FixedBytes 32)) (history : List Distribution)
    (key : Bytes) : Prop :=
  observer.Derives (parcels P history) (Unwraps P) (deriveUnder P) key

/-- The keys of members are separated from the other keys of an observer. -/
def Separated (holds : List KeypairDraws) (history : List Distribution) : Prop :=
  ∀ distribution ∈ history, ∀ member ∈ distribution.members, ∀ keys ∈ holds,
    ¬ IsFor P (hybridKeypair P member.1).publicKey keys → Separates P member.1 keys

end

/-! ## What an observer comes to know -/

section

variable {P : Primitives} {observer : Observer KeypairDraws (FixedBytes 32)}
  {history : List Distribution}

/-- A payload unwraps for the key pair it is for, to the secret of its epoch. -/
theorem unwraps_iff (kem : P.KemCorrect) (aead : P.AeadCorrect) (hkdf : P.HkdfInjective)
    (ideal : P.IdealAead) {member keys : KeypairDraws} {secret secret' : FixedBytes 32}
    {draws : BoxDraws} {payload : Bytes}
    (separates : ¬ IsFor P (hybridKeypair P member).publicKey keys → Separates P member keys)
    (wrapped : wrapEpochSecret P secret.val (hybridKeypair P member).publicKey draws =
      .ok payload) :
    Unwraps P keys payload secret' ↔
      IsFor P (hybridKeypair P member).publicKey keys ∧ secret' = secret := by
  apply eq_ok_iff_isFor
  · intro own
    rw [own] at wrapped
    exact unwrap_wrapEpochSecret kem aead keys wrapped
  · intro other
    exact unwrap_of_separates aead hkdf ideal (separates other) wrapped

theorem exact_parcels (kem : P.KemCorrect) (aead : P.AeadCorrect) (hkdf : P.HkdfInjective)
    (ideal : P.IdealAead) (separated : Separated P observer.holds history) :
    observer.Exact (parcels P history) (Unwraps P) := by
  rintro parcel ⟨past, found, wrapped⟩ keys held secret
  exact unwraps_iff kem aead hkdf ideal (separated _ past _ found keys held) wrapped

/-- A secret is addressed to whom its distribution includes. -/
theorem addressed_iff (complete : ∀ distribution ∈ history, distribution.Complete P)
    (fresh : (history.map Distribution.epochSecret).Nodup) {distribution : Distribution}
    (past : distribution ∈ history) :
    observer.Addressed (parcels P history) distribution.epochSecret ↔
      distribution.Includes P observer.holds := by
  constructor
  · rintro ⟨parcel, ⟨past', found, -⟩, same, keys, held, own⟩
    have one : parcel.distribution = distribution :=
      List.inj_on_of_nodup_map fresh past' past same
    rw [one] at found
    exact ⟨keys, held, parcel.member, found, own⟩
  · rintro ⟨keys, held, member, found, own⟩
    obtain ⟨payload, wrapped⟩ := complete distribution past member found
    exact ⟨⟨distribution, member, payload⟩, ⟨past, found, wrapped⟩, rfl, keys, held, own⟩

/-- **Who reads a group.** The key of a message of an epoch is derived exactly by those of
whom a key pair was a member in that epoch, and by those to whom its secret leaked. -/
theorem reads_iff (kem : P.KemCorrect) (aead : P.AeadCorrect) (hkdf : P.HkdfInjective)
    (ideal : P.IdealAead) (separated : Separated P observer.holds history)
    (complete : ∀ distribution ∈ history, distribution.Complete P)
    (fresh : (history.map Distribution.epochSecret).Nodup)
    {distribution : Distribution} (past : distribution ∈ history) {build : Build}
    {epochStartedAt : Rat} {count : Nat} {message : UInt64 × Bytes}
    (sent : message ∈ issued P build
      (.newWithStartedAt distribution.epoch distribution.epochSecret epochStartedAt) count) :
    Reads P observer history message.2 ↔
      distribution.epochSecret ∈ observer.leaked ∨ distribution.Includes P observer.holds := by
  obtain ⟨number, key⟩ := message
  have derived := messageKey_of_issued sent
  have context : key = deriveUnder P distribution.epochSecret
      (msgSaltPrefix ++ u64ToBe distribution.epoch, msgInfoPrefix ++ u64ToBe number) := by
    rw [derived]
    rfl
  rw [Reads]
  dsimp only
  rw [context, Observer.derives_iff (exact_parcels kem aead hkdf ideal separated)
    (deriveUnder_secret hkdf), addressed_iff complete fresh past]

end

/-! ## A member that was removed -/

/-- The boxes of a history. -/
def boxes (history : List Distribution) : List Encryption :=
  history.flatMap fun distribution => distribution.members.map fun member =>
    boxEncryption epochWrapInfo [] distribution.epochSecret.val member.1 member.2

theorem complete_logged {history : List Distribution} {distribution : Distribution}
    (past : distribution ∈ history) :
    distribution.Complete (primitives (logged (boxes history))) := by
  intro member found
  have made : boxEncryption epochWrapInfo [] distribution.epochSecret.val member.1 member.2 ∈
      boxes history := List.mem_flatMap.mpr ⟨distribution, past, List.mem_map_of_mem found⟩
  obtain ⟨tag, tagged⟩ := exists_logged made
  have length : (hybridKeypair (primitives (logged (boxes history))) member.1).publicKey.length =
      publicKeyLen := length_publicKey _ member.1
  have sealed := sealBox_of_tag tagged
  refine ⟨boxCiphertext member.2 ++ member.2.nonce.val ++
    (distribution.epochSecret.val ++ tag.val), ?_⟩
  rw [Distribution.wrapFor, wrapEpochSecret_secret, if_neg (not_not.mpr length), sealed,
    Outcome.mapError_ok]

/-- Of two members one is removed, keeps its private key and records all payloads. -/
theorem reads_iff_removed :
    let first : Distribution :=
      { epoch := 0, epochSecret := .fill 32 5
        members := [(sampleKeys 1, sampleBoxDraws 1), (sampleKeys 2, sampleBoxDraws 2)] }
    let second : Distribution :=
      { epoch := 1, epochSecret := .fill 32 6, members := [(sampleKeys 1, sampleBoxDraws 3)] }
    let P := primitives (logged (boxes [first, second]))
    let removed : Observer KeypairDraws (FixedBytes 32) :=
      { holds := [sampleKeys 2], leaked := [] }
    Reads P removed [first, second] (deriveMessageKeyArr P first.epochSecret 0 0) ∧
      ¬ Reads P removed [first, second] (deriveMessageKeyArr P second.epochSecret 1 0) := by
  intro first second P removed
  have separated : Separated P removed.holds [first, second] := by
    intro distribution past member found keys held other
    obtain rfl := List.mem_singleton.mp held
    have one : member.1 = sampleKeys 1 ∨ member.1 = sampleKeys 2 := by
      simp only [List.mem_cons, List.not_mem_nil, or_false] at past
      rcases past with rfl | rfl
      · simp only [first, List.mem_cons, List.not_mem_nil, or_false] at found
        rcases found with rfl | rfl
        · exact .inl rfl
        · exact .inr rfl
      · simp only [second, List.mem_cons, List.not_mem_nil, or_false] at found
        rw [found]
        exact .inl rfl
    rcases one with one | one
    · rw [one]
      exact separates_of_coins_ne mlkemCoins_sampleKeys_ne
    · rw [one] at other
      exact absurd rfl other
  have fresh : ([first, second].map Distribution.epochSecret).Nodup := by decide
  have reads := fun distribution past => @reads_iff P removed [first, second] kemCorrect
    aeadCorrect hkdfInjective (idealAead_logged (by decide)) separated
    (fun _ => complete_logged) fresh distribution past ⟨true, .w64⟩ 0 1
    (0, deriveMessageKeyArr P distribution.epochSecret distribution.epoch 0)
  constructor
  · apply (reads first List.mem_cons_self List.mem_cons_self).mpr
    exact .inr ⟨_, List.mem_cons_self, _, List.mem_cons_of_mem _ List.mem_cons_self, rfl⟩
  · intro derived
    have past : second ∈ [first, second] := List.mem_cons_of_mem _ List.mem_cons_self
    rcases (reads second past List.mem_cons_self).mp derived with
      leaked | ⟨keys, held, member, found, own⟩
    · cases leaked
    · obtain rfl := List.mem_singleton.mp held
      obtain rfl := List.mem_singleton.mp found
      exact not_isFor_sampleKeys own

end GroupRatchet
end SkPqc

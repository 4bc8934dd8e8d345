import SkPqc.GroupRatchet
import SkPqc.Idealised
import SkPqc.Pqdm
import SkPqc.Pqroute

/-!
# The key schedule of the crate

Every key comes from HKDF, and the families of keys are kept apart by a label at the
front of the `info`. No label is a prefix of another (`label_prefix_free`), so two
calls with one `info`, and with salts that agree once padded, are calls of one
family with the same epoch, index and associated data (`hkdfCall_separated`). A key
that the crate derives determines the call and the input key (`Derives.unique`).

Four families are wrap keys under which the same layout is sealed to the same key
pairs. Under an injective key derivation and an ideal AEAD no surface opens what
another sealed (`SealedPart.rejects`).
-/

set_option autoImplicit false

namespace SkPqc
namespace KeySchedule

open Library Library.Json Kem HybridBox Primitives Idealised

/-! ## The calls -/

/-- The families of keys. -/
inductive Family where
  | kemCombine
  | dmMessage
  | groupMessage
  | dmWrap
  | groupWrap
  | pqdmWrap
  | pqrouteWrap
  deriving DecidableEq, Repr

/-- The fixed front of the `info` of a family. -/
def Family.label : Family → Bytes
  | .kemCombine => Kem.hkdfInfo
  | .dmMessage => Ratchet.msgInfoPrefix
  | .groupMessage => GroupRatchet.msgInfoPrefix
  | .dmWrap => Ratchet.infoDmWrap
  | .groupWrap => GroupRatchet.epochWrapInfo
  | .pqdmWrap => Pqdm.infoWrap ++ utf8 "|"
  | .pqrouteWrap => Pqroute.infoWrap ++ utf8 "|"

/-- A call of HKDF, given by what it depends on beside the input key. -/
inductive HkdfCall where
  | kemCombine
  | dmMessage (epoch index : UInt64)
  | groupMessage (epoch index : UInt64)
  | dmWrap
  | groupWrap
  | pqdmWrap (aad : Bytes)
  | pqrouteWrap (aad : Bytes)
  deriving DecidableEq, Repr

namespace HkdfCall

def family : HkdfCall → Family
  | .kemCombine => .kemCombine
  | .dmMessage _ _ => .dmMessage
  | .groupMessage _ _ => .groupMessage
  | .dmWrap => .dmWrap
  | .groupWrap => .groupWrap
  | .pqdmWrap _ => .pqdmWrap
  | .pqrouteWrap _ => .pqrouteWrap

/-- What the `info` of a call holds behind its label. -/
def suffix : HkdfCall → Bytes
  | .dmMessage _ index => u64ToBe index
  | .groupMessage _ index => u64ToBe index
  | .pqdmWrap aad => aad
  | .pqrouteWrap aad => aad
  | _ => []

def salt : HkdfCall → Bytes
  | .dmMessage epoch _ => Ratchet.epochSaltPrefix ++ u64ToBe epoch
  | .groupMessage epoch _ => GroupRatchet.msgSaltPrefix ++ u64ToBe epoch
  | _ => []

def info (call : HkdfCall) : Bytes := call.family.label ++ call.suffix

@[simp] theorem info_dmWrap : HkdfCall.dmWrap.info = Ratchet.infoDmWrap := List.append_nil _

@[simp] theorem info_groupWrap : HkdfCall.groupWrap.info = GroupRatchet.epochWrapInfo :=
  List.append_nil _

/-- The key that a call derives. -/
def key (P : Primitives) (ikm : Bytes) (call : HkdfCall) : Bytes := P.hkdf call.salt ikm call.info

end HkdfCall

/-! ## The calls are those of the crate -/

section

variable (P : Primitives)

theorem combine_eq_key (x25519Ss : FixedBytes 32) (mlkemSs : Bytes) :
    combine P x25519Ss mlkemSs = HkdfCall.kemCombine.key P (x25519Ss.val ++ mlkemSs) := by
  simp [combine, HkdfCall.key, HkdfCall.salt, HkdfCall.info, HkdfCall.family, HkdfCall.suffix,
    Family.label]

theorem deriveDmMessageKey_eq_key (secret : FixedBytes 32) (epoch index : UInt64) :
    Ratchet.deriveDmMessageKey P secret.val epoch index =
      .ok ((HkdfCall.dmMessage epoch index).key P secret.val) :=
  Ratchet.deriveDmMessageKey_secret secret epoch index

theorem deriveMessageKeyArr_eq_key (secret : FixedBytes 32) (epoch index : UInt64) :
    GroupRatchet.deriveMessageKeyArr P secret epoch index =
      (HkdfCall.groupMessage epoch index).key P secret.val := rfl

/-- The label of a box is the `info` of its wrap key. -/
theorem boxKey_eq_key (shared aad : Bytes) :
    boxKey P Ratchet.infoDmWrap shared = HkdfCall.dmWrap.key P shared ∧
      boxKey P GroupRatchet.epochWrapInfo shared = HkdfCall.groupWrap.key P shared ∧
      boxKey P (Pqdm.wrapInfo aad) shared = (HkdfCall.pqdmWrap aad).key P shared ∧
      boxKey P (Pqroute.wrapInfo aad) shared = (HkdfCall.pqrouteWrap aad).key P shared := by
  simp [boxKey, HkdfCall.key, HkdfCall.salt, HkdfCall.info, HkdfCall.family, HkdfCall.suffix,
    Family.label, Pqdm.wrapInfo, Pqroute.wrapInfo]

/-- A function of the crate derives the key, by the call and from the input key. -/
inductive Derives : HkdfCall → Bytes → Bytes → Prop
  | combine (x25519Ss : FixedBytes 32) (mlkemSs : Bytes) :
      Derives .kemCombine (x25519Ss.val ++ mlkemSs) (combine P x25519Ss mlkemSs)
  | dmMessage {epochSecret key : Bytes} {epoch index : UInt64}
      (made : Ratchet.deriveDmMessageKey P epochSecret epoch index = .ok key) :
      Derives (.dmMessage epoch index) epochSecret key
  | groupMessage {epochSecret key : Bytes} {epoch index : UInt64}
      (made : GroupRatchet.deriveMessageKey P epochSecret epoch index = .ok key) :
      Derives (.groupMessage epoch index) epochSecret key
  | dmWrap (shared : Bytes) : Derives .dmWrap shared (boxKey P Ratchet.infoDmWrap shared)
  | groupWrap (shared : Bytes) :
      Derives .groupWrap shared (boxKey P GroupRatchet.epochWrapInfo shared)
  | pqdmWrap (aad shared : Bytes) :
      Derives (.pqdmWrap aad) shared (boxKey P (Pqdm.wrapInfo aad) shared)
  | pqrouteWrap (aad shared : Bytes) :
      Derives (.pqrouteWrap aad) shared (boxKey P (Pqroute.wrapInfo aad) shared)

variable {P}

theorem Derives.key_eq {call : HkdfCall} {ikm key : Bytes} (derived : Derives P call ikm key) :
    key = call.key P ikm := by
  cases derived with
  | combine x25519Ss mlkemSs => exact combine_eq_key P x25519Ss mlkemSs
  | @dmMessage _ _ epoch index made =>
      obtain ⟨length, -⟩ := Outcome.ite_error_eq_ok.mp made
      let secret : FixedBytes 32 := ⟨ikm, not_not.mp length⟩
      exact Outcome.ok.inj (made.symm.trans (deriveDmMessageKey_eq_key P secret epoch index))
  | @groupMessage _ _ epoch index made =>
      obtain ⟨secret, converted, done⟩ := Outcome.bind_eq_ok.mp made
      obtain rfl := tryIntoArray_eq_some.mp (Outcome.ofOption_eq_ok.mp converted)
      exact (Outcome.ok.inj done).symm.trans (deriveMessageKeyArr_eq_key P secret epoch index)
  | dmWrap => exact (boxKey_eq_key P ikm []).1
  | groupWrap => exact (boxKey_eq_key P ikm []).2.1
  | pqdmWrap aad => exact (boxKey_eq_key P ikm aad).2.2.1
  | pqrouteWrap aad => exact (boxKey_eq_key P ikm aad).2.2.2

end

/-! ## The families are apart -/

/-- **No label is a prefix of another.** -/
theorem label_prefix_free (first second : Family) (front : first.label <+: second.label) :
    first = second := by
  revert front
  cases first <;> cases second <;> decide

/-- The `info` determines the family and what stands behind the label. -/
theorem info_inj {first second : HkdfCall} (same : first.info = second.info) :
    first.family = second.family ∧ first.suffix = second.suffix := by
  have front : first.family.label <+: second.info := ⟨first.suffix, same⟩
  have families : first.family = second.family := by
    rcases List.prefix_or_prefix_of_prefix front ⟨second.suffix, rfl⟩ with before | after
    · exact label_prefix_free _ _ before
    · exact (label_prefix_free _ _ after).symm
  refine ⟨families, ?_⟩
  rw [HkdfCall.info, HkdfCall.info, families] at same
  exact List.append_cancel_left same

/-- Padding keeps salts of one length apart. -/
theorem hmacPad_inj_of_length {salt salt' : Bytes} (lengths : salt.length = salt'.length)
    (same : hmacPad salt = hmacPad salt') : salt = salt' :=
  (List.append_inj same lengths).1

/-- **The key schedule is separated.** Calls with one `info`, and with salts that agree
once padded, are one call. -/
theorem hkdfCall_separated (first second : HkdfCall) (sameInfo : first.info = second.info)
    (sameSalt : hmacPad first.salt = hmacPad second.salt) : first = second := by
  obtain ⟨families, suffixes⟩ := info_inj sameInfo
  cases first with
  | kemCombine => cases second <;> first | rfl | cases families
  | dmWrap => cases second <;> first | rfl | cases families
  | groupWrap => cases second <;> first | rfl | cases families
  | pqdmWrap aad =>
      cases second with
      | pqdmWrap aad' => exact congrArg _ suffixes
      | _ => cases families
  | pqrouteWrap aad =>
      cases second with
      | pqrouteWrap aad' => exact congrArg _ suffixes
      | _ => cases families
  | dmMessage epoch index =>
      cases second with
      | dmMessage epoch' index' =>
          have salts := hmacPad_inj_of_length (by simp [HkdfCall.salt]) sameSalt
          rw [u64ToBe_injective (List.append_cancel_left salts), u64ToBe_injective suffixes]
      | _ => cases families
  | groupMessage epoch index =>
      cases second with
      | groupMessage epoch' index' =>
          have salts := hmacPad_inj_of_length (by simp [HkdfCall.salt]) sameSalt
          rw [u64ToBe_injective (List.append_cancel_left salts), u64ToBe_injective suffixes]
      | _ => cases families

/-- **A derived key determines the call and the input key.** -/
theorem Derives.unique {P : Primitives} (hkdf : P.HkdfInjective) {call call' : HkdfCall}
    {ikm ikm' key : Bytes} (derived : Derives P call ikm key)
    (derived' : Derives P call' ikm' key) :
    call = call' ∧ ikm = ikm' := by
  obtain ⟨sameSalt, sameIkm, sameInfo⟩ :=
    hkdf _ _ _ _ _ _ (derived.key_eq.symm.trans derived'.key_eq)
  exact ⟨hkdfCall_separated call call' sameInfo sameSalt, sameIkm⟩

/-! ## The surfaces are apart -/

section

variable {P : Primitives} {hybridPub payload : Bytes} {draws : BoxDraws} {call other : HkdfCall}
  {aad msg : Bytes}

/-- A sealed box does not open under the wrap key of another call. -/
theorem openBox_rejects_of_call_ne (hkdf : P.HkdfInjective) (ideal : P.IdealAead)
    (made : sealBox P call.info aad msg hybridPub draws = .ok payload)
    (different : other.info ≠ call.info) (aad' hybridPriv : Bytes) :
    ∃ reason, openBox P other.info aad' payload hybridPriv = .error reason := by
  have long : bodyOffset ≤ payload.length := by
    obtain ⟨ciphertext, _, _, _, _, rfl⟩ := sealBox_eq_ok made
    simp only [List.length_append, ciphertext.property, draws.nonce.property, bodyOffset_eq]
    omega
  refine (Outcome.exists_error_iff (openBox_ne_panic _ _ _ long)).mpr ?_
  rintro ⟨plain, opened⟩
  obtain ⟨_, _, _, _, _, sameKey, -⟩ := openBox_of_ideal ideal made opened
  exact different (hkdf _ _ _ _ _ _ sameKey).2.2

/-- Nor does what is left of it behind some of its bytes. -/
theorem openBox_rejects_of_suffix (hkdf : P.HkdfInjective) (aead : P.AeadCorrect)
    {sole : Sealing} (only : P.OnlyCiphertext sole payload)
    (made : sealBox P call.info aad msg hybridPub draws = .ok payload)
    (different : other.info ≠ call.info) {tail : Bytes} (ends : tail <:+ payload)
    (long : bodyOffset ≤ tail.length) (aad' hybridPriv : Bytes) :
    ∃ reason, openBox P other.info aad' tail hybridPriv = .error reason := by
  refine (Outcome.exists_error_iff (openBox_ne_panic _ _ _ long)).mpr ?_
  rintro ⟨plain, opened⟩
  obtain ⟨ciphertext, shared, body, _, encrypted, rfl⟩ := sealBox_eq_ok made
  obtain ⟨ciphertext', nonce', body', rfl⟩ := exists_payload_parts long
  rw [openBox_append] at opened
  obtain ⟨shared', _, decrypted⟩ := Outcome.bind_eq_ok.mp opened
  have own := only _ _ _ _ _ ⟨ciphertext.val ++ draws.nonce.val, List.append_assoc _ _ _⟩
    (aead.decrypt_encrypt encrypted)
  have theirs := only _ _ _ _ _
    (List.IsSuffix.trans ⟨ciphertext'.val ++ nonce'.val, List.append_assoc _ _ _⟩ ends)
    (Outcome.ofOption_eq_ok.mp decrypted)
  have sameKey := congrArg Sealing.key (theirs.trans own.symm)
  exact different (hkdf _ _ _ _ _ _ sameKey).2.2

end

section

variable (P : Primitives) (serde : SerdeJson)

/-- The payload was sealed on the surface of a family of wrap keys. A routing envelope
is taken without its header. -/
inductive SealedPart (hybridPub : Bytes) (draws : BoxDraws) (payload : Bytes) : Family → Prop
  | dmEpoch {epochSecret : Bytes}
      (made : Ratchet.wrapDmEpochSecret P epochSecret hybridPub draws = .ok payload) :
      SealedPart hybridPub draws payload .dmWrap
  | groupEpoch {epochSecret : Bytes}
      (made : GroupRatchet.wrapEpochSecret P epochSecret hybridPub draws = .ok payload) :
      SealedPart hybridPub draws payload .groupWrap
  | pqdm {plaintext : Bytes} {sender recipient : String}
      (made : Pqdm.seal P serde plaintext hybridPub sender recipient draws = .ok payload) :
      SealedPart hybridPub draws payload .pqdmWrap
  | pqroute {innerMetadata routeHdr : Value} {content : Bytes}
      (made : Pqroute.sealRouted P serde innerMetadata content hybridPub routeHdr draws =
        .ok (Pqroute.outerBytes (Pqroute.canonical serde routeHdr) ++ payload)) :
      SealedPart hybridPub draws payload .pqrouteWrap

/-- The opener of a surface returns an error on the payload, whatever else it is given:
parties and a suite, or a route header in front. -/
def Rejects (build : Build) (hybridPriv payload : Bytes) : Family → Prop
  | .dmWrap => ∃ reason, Ratchet.unwrapDmEpochSecret P payload hybridPriv = .error reason
  | .groupWrap => ∃ reason, GroupRatchet.unwrapEpochSecret P payload hybridPriv = .error reason
  | .pqdmWrap => ∀ sender recipient expectedSuite, ∃ reason,
      Pqdm.openSealed P serde payload hybridPriv sender recipient expectedSuite = .error reason
  | .pqrouteWrap => ∀ blob routeBytes,
      Pqroute.splitOuter build blob = .ok (routeBytes, payload) →
        ∃ reason, Pqroute.openRouted P serde build blob hybridPriv = .error reason
  | .kemCombine | .dmMessage | .groupMessage => True

end

section

variable {P : Primitives} {serde : SerdeJson} {build : Build} {hybridPub payload : Bytes}
  {draws : BoxDraws} {family other : Family}

/-- What a surface seals is a box under a call of its family. -/
theorem SealedPart.exists_box (sealed : SealedPart P serde hybridPub draws payload family) :
    ∃ (call : HkdfCall) (aad msg : Bytes), call.family = family ∧
      sealBox P call.info aad msg hybridPub draws = .ok payload := by
  cases sealed with
  | @dmEpoch epochSecret made =>
      obtain ⟨-, box⟩ := Ratchet.wrapDmEpochSecret_eq_ok made
      refine ⟨.dmWrap, [], epochSecret, rfl, ?_⟩
      rw [HkdfCall.info_dmWrap]
      exact box
  | @groupEpoch epochSecret made =>
      obtain ⟨-, box⟩ := GroupRatchet.wrapEpochSecret_eq_ok made
      refine ⟨.groupWrap, [], epochSecret, rfl, ?_⟩
      rw [HkdfCall.info_groupWrap]
      exact box
  | @pqdm plaintext sender recipient made =>
      exact ⟨.pqdmWrap _, _, plaintext, rfl, Pqdm.seal_eq_ok made⟩
  | @pqroute innerMetadata routeHdr content made =>
      obtain ⟨payload', box, parts⟩ := Pqroute.sealRouted_eq_ok made
      obtain rfl := List.append_cancel_left parts
      exact ⟨.pqrouteWrap _, _, _, rfl, box⟩

theorem info_ne_of_family_ne {call call' : HkdfCall} (different : call'.family ≠ call.family) :
    call'.info ≠ call.info := fun same => different (info_inj same).1

/-- An opener that unwraps a box rejects it with the box. -/
theorem exists_error_of_box {info aad hybridPriv : Bytes} {ε β : Type} {translate : BoxError → ε}
    {next : Bytes → Outcome ε β}
    (rejected : ∃ reason, openBox P info aad payload hybridPriv = .error reason) :
    ∃ reason, ((openBox P info aad payload hybridPriv).mapError translate >>= next) =
      .error reason := by
  obtain ⟨reason, failed⟩ := rejected
  exact ⟨translate reason, by rw [failed]; rfl⟩

/-- An envelope is rejected when its sealed part is, under its own header. -/
theorem openRouted_rejects_of_box {blob routeBytes hybridPriv : Bytes}
    (split : Pqroute.splitOuter build blob = .ok (routeBytes, payload))
    (rejected : bodyOffset ≤ payload.length → ∃ reason,
      openBox P (Pqroute.wrapInfo (Pqroute.buildAad routeBytes)) (Pqroute.buildAad routeBytes)
        payload hybridPriv = .error reason) :
    ∃ reason, Pqroute.openRouted P serde build blob hybridPriv = .error reason := by
  by_cases short : payload.length < Pqroute.sealedMinLen
  · exact Pqroute.openRouted_rejects hybridPriv split (.inl short)
  · cases parsed : serde.fromSlice routeBytes with
    | error reason => exact Pqroute.openRouted_rejects hybridPriv split (.inr ⟨reason, parsed⟩)
    | ok routeHdr =>
        rw [Pqroute.openRouted_of_split split short parsed]
        refine exists_error_of_box (rejected ?_)
        rw [Pqroute.sealedMinLen_eq] at short
        rw [bodyOffset_eq]
        omega

/-- **No surface opens what another sealed.** -/
theorem SealedPart.rejects (hkdf : P.HkdfInjective) (ideal : P.IdealAead)
    (sealed : SealedPart P serde hybridPub draws payload family) (different : other ≠ family)
    (hybridPriv : Bytes) : Rejects P serde build hybridPriv payload other := by
  obtain ⟨call, aad, msg, rfl, made⟩ := sealed.exists_box
  have box : ∀ call' : HkdfCall, call'.family = other → ∀ aad', ∃ reason,
      openBox P call'.info aad' payload hybridPriv = .error reason := by
    intro call' same aad'
    refine openBox_rejects_of_call_ne hkdf ideal made (info_ne_of_family_ne ?_) aad' hybridPriv
    rw [same]
    exact different
  cases other with
  | dmWrap =>
      have rejected := box .dmWrap rfl []
      rw [HkdfCall.info_dmWrap] at rejected
      change ∃ reason, Ratchet.unwrapDmEpochSecret P payload hybridPriv = .error reason
      unfold Ratchet.unwrapDmEpochSecret
      split
      · exact ⟨_, rfl⟩
      · exact exists_error_of_box rejected
  | groupWrap =>
      have rejected := box .groupWrap rfl []
      rw [HkdfCall.info_groupWrap] at rejected
      change ∃ reason, GroupRatchet.unwrapEpochSecret P payload hybridPriv = .error reason
      unfold GroupRatchet.unwrapEpochSecret
      split
      · exact ⟨_, rfl⟩
      · split
        · exact ⟨_, rfl⟩
        · exact exists_error_of_box rejected
  | pqdmWrap =>
      intro sender recipient expectedSuite
      unfold Pqdm.openSealed
      split
      · exact ⟨_, rfl⟩
      · exact Outcome.exists_mapError_eq_error.mpr
          (box (.pqdmWrap (Pqdm.downgradeLockAad serde expectedSuite sender recipient none)) rfl _)
  | pqrouteWrap =>
      intro blob routeBytes split
      exact openRouted_rejects_of_box split fun _ =>
        box (.pqrouteWrap (Pqroute.buildAad routeBytes)) rfl _
  | kemCombine => exact trivial
  | dmMessage => exact trivial
  | groupMessage => exact trivial

/-- A payload of another surface is rejected as an envelope of its own, when it ends in
no other ciphertext. -/
theorem SealedPart.openRouted_rejects (hkdf : P.HkdfInjective) (aead : P.AeadCorrect)
    (sealed : SealedPart P serde hybridPub draws payload family)
    (different : family ≠ .pqrouteWrap) {sole : Sealing} (only : P.OnlyCiphertext sole payload)
    (hybridPriv : Bytes) :
    ∃ reason, Pqroute.openRouted P serde build payload hybridPriv = .error reason := by
  obtain ⟨call, aad, msg, rfl, made⟩ := sealed.exists_box
  cases split : Pqroute.splitOuter build payload with
  | panic => exact absurd split (Pqroute.splitOuter_ne_panic payload)
  | error reason =>
      refine ⟨reason, ?_⟩
      rw [Pqroute.openRouted, split]
      rfl
  | ok parts =>
      obtain ⟨routeBytes, tail⟩ := parts
      obtain ⟨whole, -, -⟩ := Pqroute.splitOuter_eq_ok split
      refine openRouted_rejects_of_box split fun long => ?_
      have otherInfo : (HkdfCall.pqrouteWrap (Pqroute.buildAad routeBytes)).info ≠ call.info :=
        info_ne_of_family_ne different.symm
      exact openBox_rejects_of_suffix hkdf aead only made otherInfo ⟨_, whole.symm⟩ long _
        hybridPriv

end

/-- **The key schedule is domain separated**, and so are the surfaces that share a key
pair. -/
theorem key_schedule_separated {P : Primitives} (hkdf : P.HkdfInjective) (aead : P.AeadCorrect)
    (ideal : P.IdealAead) :
    (∀ first second : HkdfCall, first.info = second.info →
        hmacPad first.salt = hmacPad second.salt → first = second) ∧
      (∀ (call call' : HkdfCall) (ikm ikm' key : Bytes), Derives P call ikm key →
        Derives P call' ikm' key → call = call' ∧ ikm = ikm') ∧
      ∀ (serde : SerdeJson) (build : Build) (hybridPub hybridPriv payload : Bytes)
        (draws : BoxDraws) (family other : Family),
        SealedPart P serde hybridPub draws payload family → other ≠ family →
        Rejects P serde build hybridPriv payload other ∧
          (other = .pqrouteWrap → ∀ sole, P.OnlyCiphertext sole payload →
            ∃ reason, Pqroute.openRouted P serde build payload hybridPriv = .error reason) := by
  refine ⟨hkdfCall_separated, fun _ _ _ _ _ => Derives.unique hkdf, ?_⟩
  intro serde build hybridPub hybridPriv payload draws family other sealed different
  refine ⟨sealed.rejects hkdf ideal different hybridPriv, ?_⟩
  rintro rfl sole only
  exact sealed.openRouted_rejects hkdf aead different.symm only hybridPriv

/-- The epoch secret of a DM, wrapped to a member, is no payload of the group. -/
theorem key_schedule_separated_dm :
    let secret : FixedBytes 32 := .fill 32 5
    let P := primitives (logged [boxEncryption Ratchet.infoDmWrap [] secret.val (sampleKeys 1)
      (sampleBoxDraws 2)])
    let keys := hybridKeypair P (sampleKeys 1)
    ∃ payload, Ratchet.wrapDmEpochSecret P secret.val keys.publicKey (sampleBoxDraws 2) =
        .ok payload ∧
      ∃ reason, GroupRatchet.unwrapEpochSecret P payload keys.privateKey = .error reason := by
  intro secret P keys
  obtain ⟨tag, tagged⟩ := exists_logged (List.mem_singleton_self
    (boxEncryption Ratchet.infoDmWrap [] secret.val (sampleKeys 1) (sampleBoxDraws 2)))
  obtain ⟨payload, wrapped⟩ : ∃ payload, Ratchet.wrapDmEpochSecret P secret.val keys.publicKey
      (sampleBoxDraws 2) = .ok payload := ⟨_, wrapDmEpochSecret_of_tag tagged⟩
  refine ⟨payload, wrapped, ?_⟩
  exact ((key_schedule_separated hkdfInjective aeadCorrect (idealAead_logged (by decide))).2.2
    naturalJson ⟨true, .w64⟩ keys.publicKey keys.privateKey payload (sampleBoxDraws 2) .dmWrap
    .groupWrap (.dmEpoch wrapped) (by decide)).1

end KeySchedule
end SkPqc

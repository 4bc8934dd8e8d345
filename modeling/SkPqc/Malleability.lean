import SkPqc.KeySchedule

/-!
# Which changed blobs still open

Four surfaces send a hybrid ciphertext, a nonce and an encrypted body. The AEAD
binds the body, the nonce and the associated data, and the key it is used with
depends on both shared secrets. The hybrid ciphertext itself is hashed nowhere, so
a change of it is noticed only when it changes a shared secret.

X25519 gives one secret for many encodings of a public value: it ignores the top
bit, for one. `EphemeralAlias` relates two blobs that differ in nothing but such
an encoding. It is the whole extent of malleability: whatever is put together of
the blobs that were sealed, and of anything else, is rejected exactly when it is
an alias of none of them (`rejected_iff`).
-/

set_option autoImplicit false

namespace SkPqc

open Library Library.Json Kem HybridBox Primitives Idealised KeySchedule

/-- The blobs differ at most in the X25519 ephemeral at the offset, and both
ephemerals give the recipient the same X25519 secret. -/
def EphemeralAlias (P : Primitives) (seed : FixedBytes 32) (offset : Nat) (blob blob' : Bytes) :
    Prop :=
  ∃ (front : Bytes) (point point' : FixedBytes 32) (rest : Bytes), front.length = offset ∧
    blob = front ++ (point.val ++ rest) ∧ blob' = front ++ (point'.val ++ rest) ∧
    P.x25519 seed point = P.x25519 seed point'

section

variable {P : Primitives} {seed : FixedBytes 32} {offset : Nat} {blob blob' : Bytes}

theorem EphemeralAlias.length_eq (aliased : EphemeralAlias P seed offset blob blob') :
    blob'.length = blob.length := by
  obtain ⟨front, point, point', rest, -, rfl, rfl, -⟩ := aliased
  simp [point.property, point'.property]

/-- An alias keeps what is in front of the ephemeral. -/
theorem EphemeralAlias.exists_append {front : Bytes}
    (aliased : EphemeralAlias P seed front.length (front ++ blob) blob') :
    ∃ rest, blob' = front ++ rest := by
  obtain ⟨front', point, point', rest, length, left, rfl, -⟩ := aliased
  obtain ⟨rfl, -⟩ := List.append_inj left length.symm
  exact ⟨_, rfl⟩

/-- Bytes in front of the blobs move the ephemeral. -/
theorem EphemeralAlias.append_left (front : Bytes) :
    EphemeralAlias P seed front.length (front ++ blob) (front ++ blob') ↔
      EphemeralAlias P seed 0 blob blob' := by
  constructor
  · rintro ⟨front', point, point', rest, length, left, right, secret⟩
    obtain ⟨rfl, rfl⟩ := List.append_inj left length.symm
    obtain ⟨-, rfl⟩ := List.append_inj right rfl
    exact ⟨[], point, point', rest, rfl, rfl, rfl, secret⟩
  · rintro ⟨front', point, point', rest, length, left, right, secret⟩
    rw [List.length_eq_zero_iff.mp length, List.nil_append] at left right
    exact ⟨front, point, point', rest, rfl, by rw [left], by rw [right], secret⟩

end

theorem Primitives.OnlyLogged.of_suffix {P : Primitives} {log : List Sealing} {blob tail : Bytes}
    (only : P.OnlyLogged log blob) (ends : tail <:+ blob) : P.OnlyLogged log tail :=
  fun key nonce aad msg body found decrypted =>
    only key nonce aad msg body (found.trans ends) decrypted

/-! ## The shared layout -/

/-- A box, with what it was sealed from. -/
structure SealedBox where
  info : Bytes
  aad : Bytes
  msg : Bytes
  draws : BoxDraws
  payload : Bytes

section

variable (P : Primitives) (keys : KeypairDraws)

/-- The box was sealed to the key pair. -/
def SealedBox.Honest (box : SealedBox) : Prop :=
  sealBox P box.info box.aad box.msg (hybridKeypair P keys).publicKey box.draws = .ok box.payload

/-- The encryption was made for the box. -/
def SealedBox.Made (box : SealedBox) (made : Sealing) : Prop :=
  ∃ ciphertext shared,
    hybridEncap P (hybridKeypair P keys).publicKey box.draws.kem = .ok (ciphertext, shared) ∧
      made.key = boxKey P box.info shared ∧ made.nonce = box.draws.nonce ∧
      made.aad = box.aad ∧ made.msg = box.msg ∧
      P.aeadEncrypt made.key made.nonce made.aad made.msg = some made.body

/-- The recipient derives the key for no box, whatever its hybrid ciphertext and label. -/
def Elsewhere (key : Bytes) : Prop :=
  ∀ info ciphertext shared,
    hybridDecap P ciphertext (hybridKeypair P keys).privateKey = .ok shared →
      key ≠ boxKey P info shared

/-- The encryptions of the log were made for the boxes, or under keys from elsewhere. -/
def Accounts (boxes : List SealedBox) (log : List Sealing) : Prop :=
  ∀ made ∈ log, (∃ box ∈ boxes, box.Made P keys made) ∨ Elsewhere P keys made.key

end

section Box

variable {P : Primitives} {keys : KeypairDraws} {boxes : List SealedBox} {log : List Sealing}
  {box : SealedBox} {payload info aad : Bytes}

/-- The key of a box determines its label and both shared secrets. -/
theorem boxKey_inj (hkdf : P.HkdfInjective) {info info' : Bytes} {point point' : FixedBytes 32}
    {secret secret' : Bytes}
    (same : boxKey P info' (combine P point' secret') = boxKey P info (combine P point secret)) :
    info' = info ∧ point' = point ∧ secret' = secret := by
  obtain ⟨-, sameShared, sameInfo⟩ := hkdf _ _ _ _ _ _ same
  obtain ⟨-, sameSecrets, -⟩ := hkdf _ _ _ _ _ _ sameShared
  obtain ⟨samePoint, sameSecret⟩ := fixed_append_inj sameSecrets
  exact ⟨sameInfo, samePoint, sameSecret⟩

/-- An honest box, with both secrets of its hybrid ciphertext and with its encryption. -/
theorem SealedBox.Honest.exists_parts (kem : P.KemCorrect) (honest : box.Honest P keys) :
    ∃ (point : FixedBytes 32) (ct : FixedBytes 1088) (secret body : Bytes),
      box.payload = point.val ++ (ct.val ++ (box.draws.nonce.val ++ body)) ∧
      P.mlkemDecapsulate (P.mlkemGenerate keys.mlkemCoins).1 ct = some secret ∧
      hybridEncap P (hybridKeypair P keys).publicKey box.draws.kem =
        .ok (point.val ++ ct.val, combine P (P.x25519 keys.xSeed point) secret) ∧
      P.aeadEncrypt (boxKey P box.info (combine P (P.x25519 keys.xSeed point) secret))
        box.draws.nonce box.aad box.msg = some body := by
  obtain ⟨ciphertext, shared, body, encapsulated, encrypted, whole⟩ := sealBox_eq_ok honest
  have decapsulated := hybridDecap_hybridEncap kem keys encapsulated
  obtain ⟨point, ct, parts⟩ := exists_fixed_append 32 1088 ciphertext.property
  rw [parts, hybridKeypair, hybridDecap_eq_ok] at decapsulated
  obtain ⟨secret, opened, rfl⟩ := decapsulated
  rw [parts] at encapsulated whole
  exact ⟨point, ct, secret, body, whole.trans (List.append_assoc _ _ _), opened, encapsulated,
    encrypted⟩

/-- An alias of an honest box opens, as the box does. -/
theorem openBox_of_alias (kem : P.KemCorrect) (aead : P.AeadCorrect) (honest : box.Honest P keys)
    (aliased : EphemeralAlias P keys.xSeed 0 box.payload payload) :
    openBox P box.info box.aad payload (hybridKeypair P keys).privateKey = .ok box.msg := by
  obtain ⟨point, ct, secret, body, whole, opened, -, encrypted⟩ := honest.exists_parts kem
  obtain ⟨front, first, second, rest, length, left, rfl, sameSecret⟩ := aliased
  rw [List.length_eq_zero_iff.mp length, List.nil_append] at left ⊢
  rw [whole] at left
  obtain ⟨rfl, rfl⟩ := fixed_append_inj left
  let changed : FixedBytes 1120 := ⟨second.val ++ ct.val, by simp [second.property, ct.property]⟩
  have regrouped : second.val ++ (ct.val ++ (box.draws.nonce.val ++ body)) =
      changed.val ++ (box.draws.nonce.val ++ body) := (List.append_assoc _ _ _).symm
  have opens : hybridDecap P changed.val (hybridKeypair P keys).privateKey =
      .ok (combine P (P.x25519 keys.xSeed point) secret) :=
    hybridDecap_eq_ok.mpr ⟨secret, opened, by rw [sameSecret]⟩
  rw [regrouped, openBox_append, opens, Outcome.mapError_ok, Outcome.ok_bind,
    aead.decrypt_encrypt encrypted, Outcome.ofOption_some]

/-- What opens is an alias of an honest box. -/
theorem exists_box_of_openBox (kem : P.KemCorrect) (hkdf : P.HkdfInjective)
    (decapsulate : P.DecapsulateInjective) (honest : ∀ box ∈ boxes, box.Honest P keys)
    (accounts : Accounts P keys boxes log) (only : P.OnlyLogged log payload)
    (long : bodyOffset ≤ payload.length) {plain : Bytes}
    (returned : openBox P info aad payload (hybridKeypair P keys).privateKey = .ok plain) :
    ∃ box ∈ boxes, info = box.info ∧ aad = box.aad ∧ plain = box.msg ∧
      EphemeralAlias P keys.xSeed 0 box.payload payload := by
  obtain ⟨ciphertext', nonce', body', rfl⟩ := exists_payload_parts long
  obtain ⟨point', ct', parts'⟩ := exists_fixed_append 32 1088 ciphertext'.property
  rw [openBox_append] at returned
  obtain ⟨shared', decapsulated', decrypted⟩ := Outcome.bind_eq_ok.mp returned
  rw [Outcome.mapError_eq_ok] at decapsulated'
  -- The encryption at the end of the payload is in the log.
  have entry := only _ _ _ _ _ ⟨ciphertext'.val ++ nonce'.val, List.append_assoc _ _ _⟩
    (Outcome.ofOption_eq_ok.mp decrypted)
  rcases accounts _ entry with ⟨box, found, ciphertext, shared, encapsulated, sameKey, sameNonce,
    sameAad, sameMsg, encrypted'⟩ | elsewhere
  · obtain ⟨point, ct, secret, body, whole, opened, encapsulated', encrypted⟩ :=
      (honest box found).exists_parts kem
    obtain ⟨-, rfl⟩ := Prod.mk.inj (Outcome.ok.inj (encapsulated.symm.trans encapsulated'))
    rw [parts', hybridKeypair] at decapsulated'
    obtain ⟨secret', opened', rfl⟩ := hybridDecap_eq_ok.mp decapsulated'
    obtain ⟨sameInfo, samePoint, rfl⟩ := boxKey_inj hkdf sameKey
    obtain rfl := decapsulate _ _ _ _ opened opened'
    rw [sameKey, sameNonce, sameAad, sameMsg] at encrypted'
    obtain rfl := Option.some.inj (encrypted.symm.trans encrypted')
    refine ⟨box, found, sameInfo, sameAad, sameMsg, [], point, point',
      ct.val ++ (box.draws.nonce.val ++ body), rfl, whole, ?_, samePoint.symm⟩
    have sameNonce' : nonce' = box.draws.nonce := sameNonce
    rw [parts', sameNonce', List.nil_append, List.append_assoc]
  · exact absurd rfl (elsewhere info _ _ decapsulated')

/-- Opening a box and going on with the message fails exactly when the payload is an
alias of no box that was sealed alike, with a message on which the rest succeeds. -/
theorem openBox_bind_rejects_iff (kem : P.KemCorrect) (aead : P.AeadCorrect)
    (hkdf : P.HkdfInjective) (decapsulate : P.DecapsulateInjective)
    (honest : ∀ box ∈ boxes, box.Honest P keys) (accounts : Accounts P keys boxes log)
    (only : P.OnlyLogged log payload) (long : bodyOffset ≤ payload.length) {ε β : Type}
    (translate : BoxError → ε) (next : Bytes → Outcome ε β) :
    (∃ reason, ((openBox P info aad payload
        (hybridKeypair P keys).privateKey).mapError translate >>= next) = .error reason) ↔
      ∀ box ∈ boxes, info = box.info → aad = box.aad →
        EphemeralAlias P keys.xSeed 0 box.payload payload →
          ∃ reason, next box.msg = .error reason := by
  constructor
  · rintro ⟨reason, failed⟩ box found rfl rfl aliased
    rw [openBox_of_alias kem aead (honest box found) aliased, Outcome.mapError_ok,
      Outcome.ok_bind] at failed
    exact ⟨reason, failed⟩
  · intro every
    cases opened : openBox P info aad payload (hybridKeypair P keys).privateKey with
    | ok plain =>
        obtain ⟨box, found, rfl, rfl, rfl, aliased⟩ :=
          exists_box_of_openBox kem hkdf decapsulate honest accounts only long opened
        rw [Outcome.mapError_ok, Outcome.ok_bind]
        exact every box found rfl rfl aliased
    | error reason => exact ⟨translate reason, by rw [Outcome.mapError_error, Outcome.error_bind]⟩
    | panic => exact absurd opened (openBox_ne_panic _ _ _ long)

end Box

/-! ## The four surfaces -/

/-- What is sealed, and on which surface. -/
inductive Surface where
  | pqdm (plaintext : Bytes) (sender recipient : String)
  | pqroute (innerMetadata : Value) (content : Bytes) (routeHdr : Value)
  | dmEpoch (epochSecret : Bytes)
  | groupEpoch (epochSecret : Bytes)

section Surfaces

variable (P : Primitives) (serde : SerdeJson) (build : Build) (keys : KeypairDraws)

/-- The surface sealed the blob to the key pair. -/
def Surface.Sealed (draws : BoxDraws) (blob : Bytes) : Surface → Prop
  | .pqdm plaintext sender recipient =>
      Pqdm.seal P serde plaintext (hybridKeypair P keys).publicKey sender recipient draws =
        .ok blob
  | .pqroute innerMetadata content routeHdr =>
      Pqroute.sealRouted P serde innerMetadata content (hybridKeypair P keys).publicKey routeHdr
        draws = .ok blob
  | .dmEpoch epochSecret =>
      Ratchet.wrapDmEpochSecret P epochSecret (hybridKeypair P keys).publicKey draws = .ok blob
  | .groupEpoch epochSecret =>
      GroupRatchet.wrapEpochSecret P epochSecret (hybridKeypair P keys).publicKey draws = .ok blob

/-- The opener of the surface returns an error on the blob. -/
def Surface.Rejected (blob : Bytes) : Surface → Prop
  | .pqdm _ sender recipient =>
      ∃ reason, Pqdm.openSealed P serde blob (hybridKeypair P keys).privateKey sender recipient
        Pqdm.hybridSuite = .error reason
  | .pqroute _ _ _ =>
      ∃ reason, Pqroute.openRouted P serde build blob (hybridKeypair P keys).privateKey =
        .error reason
  | .dmEpoch _ =>
      ∃ reason, Ratchet.unwrapDmEpochSecret P blob (hybridKeypair P keys).privateKey =
        .error reason
  | .groupEpoch _ =>
      ∃ reason, GroupRatchet.unwrapEpochSecret P blob (hybridKeypair P keys).privateKey =
        .error reason

/-- Where the surface puts the hybrid ciphertext: behind the route header, or at the
front. -/
def Surface.offset : Surface → Nat
  | .pqroute _ _ routeHdr => (Pqroute.outerBytes (Pqroute.canonical serde routeHdr)).length
  | _ => 0

/-- What was sealed can be read back: the header fits its length prefix, and the
header and the inner part parse. -/
def Surface.ReadsBack : Surface → Prop
  | .pqroute innerMetadata content routeHdr =>
      (Pqroute.canonical serde routeHdr).length < 2 ^ 32 ∧
        Pqroute.lenPrefix + (Pqroute.canonical serde routeHdr).length <
          2 ^ build.pointerWidth.bits ∧
        (∃ value, serde.fromSlice (Pqroute.canonical serde routeHdr) = .ok value) ∧
        ∀ reason, Pqroute.readInner serde build
          (Pqroute.innerBytes (Pqroute.canonical serde innerMetadata) content) ≠ .error reason
  | _ => True

/-- The opener of the first surface is the one for what was sealed on the second: that of
the same surface, and for direct messages of parties with the same associated data. -/
def Surface.Answers : Surface → Surface → Prop
  | .pqdm _ sender recipient, .pqdm _ sender' recipient' =>
      Pqdm.downgradeLockAad serde Pqdm.hybridSuite sender recipient none =
        Pqdm.downgradeLockAad serde Pqdm.hybridSuite sender' recipient' none
  | .pqroute _ _ _, .pqroute _ _ _ => True
  | .dmEpoch _, .dmEpoch _ => True
  | .groupEpoch _, .groupEpoch _ => True
  | _, _ => False

/-- The call of HKDF that gives the wrap key of a surface. -/
def Surface.call : Surface → HkdfCall
  | .pqdm _ sender recipient =>
      .pqdmWrap (Pqdm.downgradeLockAad serde Pqdm.hybridSuite sender recipient none)
  | .pqroute _ _ routeHdr => .pqrouteWrap (Pqroute.buildAad (Pqroute.canonical serde routeHdr))
  | .dmEpoch _ => .dmWrap
  | .groupEpoch _ => .groupWrap

/-- The message that a surface encrypts. -/
def Surface.message : Surface → Bytes
  | .pqdm plaintext _ _ => plaintext
  | .pqroute innerMetadata content _ =>
      Pqroute.innerBytes (Pqroute.canonical serde innerMetadata) content
  | .dmEpoch epochSecret => epochSecret
  | .groupEpoch epochSecret => epochSecret

/-- A blob, with what it was sealed from. -/
structure SealedBlob where
  surface : Surface
  draws : BoxDraws
  blob : Bytes

/-- The box of a blob. What a surface binds beside its label is its associated data. -/
def SealedBlob.box (made : SealedBlob) : SealedBox where
  info := (made.surface.call serde).info
  aad := (made.surface.call serde).suffix
  msg := made.surface.message serde
  draws := made.draws
  payload := made.blob.drop (made.surface.offset serde)

/-- The blobs were sealed to the recipient, and the log holds nothing else that was
encrypted under a key of its boxes. -/
structure Recorded (blobs : List SealedBlob) (log : List Sealing) : Prop where
  sealed : ∀ made ∈ blobs, made.surface.Sealed P serde keys made.draws made.blob
  accounts : Accounts P keys (blobs.map fun made => made.box serde) log

/-- The blob is a sealed one with an alias of its ephemeral, that one can be read back,
and the opener of the surface is the one for it. -/
def Surface.AliasOf (surface : Surface) (made : SealedBlob) (blob' : Bytes) : Prop :=
  surface.Answers serde made.surface ∧ made.surface.ReadsBack serde build ∧
    EphemeralAlias P keys.xSeed (made.surface.offset serde) made.blob blob'

end Surfaces

section Boxes

variable {P : Primitives} {serde : SerdeJson} {build : Build} {keys : KeypairDraws}
  {blobs : List SealedBlob} {log : List Sealing} {made : SealedBlob} {surface other : Surface}

/-- A surface seals a box, behind the header if there is one. -/
theorem Surface.Sealed.exists_payload {draws : BoxDraws} {blob : Bytes}
    (sealed : surface.Sealed P serde keys draws blob) :
    ∃ front payload, front.length = surface.offset serde ∧ blob = front ++ payload ∧
      sealBox P (surface.call serde).info (surface.call serde).suffix (surface.message serde)
        (hybridKeypair P keys).publicKey draws = .ok payload := by
  cases surface with
  | pqdm plaintext sender recipient =>
      exact ⟨[], blob, List.length_nil, (List.nil_append blob).symm, Pqdm.seal_eq_ok sealed⟩
  | pqroute innerMetadata content routeHdr =>
      obtain ⟨payload, box, whole⟩ := Pqroute.sealRouted_eq_ok sealed
      exact ⟨Pqroute.outerBytes (Pqroute.canonical serde routeHdr), payload, rfl, whole, box⟩
  | dmEpoch epochSecret =>
      obtain ⟨-, box⟩ := Ratchet.wrapDmEpochSecret_eq_ok sealed
      refine ⟨[], blob, List.length_nil, (List.nil_append blob).symm, ?_⟩
      simp only [Surface.call, HkdfCall.info_dmWrap]
      exact box
  | groupEpoch epochSecret =>
      obtain ⟨-, box⟩ := GroupRatchet.wrapEpochSecret_eq_ok sealed
      refine ⟨[], blob, List.length_nil, (List.nil_append blob).symm, ?_⟩
      simp only [Surface.call, HkdfCall.info_groupWrap]
      exact box

/-- A sealed blob is its box behind the header. -/
theorem SealedBlob.exists_front (sealed : made.surface.Sealed P serde keys made.draws made.blob) :
    (made.box serde).Honest P keys ∧ ∃ front : Bytes,
      front.length = made.surface.offset serde ∧ made.blob = front ++ (made.box serde).payload := by
  obtain ⟨front, payload, length, whole, box⟩ := sealed.exists_payload
  have behind : (made.box serde).payload = payload := by
    rw [SealedBlob.box, whole, ← length, List.drop_left]
  refine ⟨?_, front, length, by rw [behind, whole]⟩
  rw [SealedBox.Honest, behind]
  exact box

theorem Recorded.honest (recorded : Recorded P serde keys blobs log) :
    ∀ box ∈ blobs.map (fun made => made.box serde), box.Honest P keys := by
  intro box found
  obtain ⟨made, member, rfl⟩ := List.mem_map.mp found
  exact (SealedBlob.exists_front (recorded.sealed made member)).1

/-- The length of a sealed blob. -/
theorem Surface.Sealed.length_eq (aead : P.AeadCorrect) {draws : BoxDraws} {blob : Bytes}
    (sealed : surface.Sealed P serde keys draws blob) :
    blob.length =
      surface.offset serde + (bodyOffset + (surface.message serde).length + tagLen) := by
  obtain ⟨front, payload, length, rfl, box⟩ := sealed.exists_payload
  rw [List.length_append, length, length_sealBox aead box]

/-- Of the surfaces without a header, the one for a box has its label. -/
theorem Surface.answers_of_info (bare : (surface.call serde).family ≠ .pqrouteWrap)
    (same : (surface.call serde).info = (other.call serde).info) :
    surface.Answers serde other := by
  obtain ⟨families, suffixes⟩ := info_inj same
  cases surface with
  | pqdm plaintext sender recipient =>
      cases other with
      | pqdm plaintext' sender' recipient' => exact suffixes
      | _ => cases families
  | pqroute innerMetadata content routeHdr => exact absurd rfl bare
  | dmEpoch epochSecret =>
      cases other with
      | dmEpoch epochSecret' => trivial
      | _ => cases families
  | groupEpoch epochSecret =>
      cases other with
      | groupEpoch epochSecret' => trivial
      | _ => cases families

/-- And what it is the one for has no header either, and is always read back. -/
theorem Surface.Answers.alike (bare : (surface.call serde).family ≠ .pqrouteWrap)
    (answers : surface.Answers serde other) (build : Build) :
    surface.call serde = other.call serde ∧ other.offset serde = 0 ∧
      other.ReadsBack serde build := by
  cases surface with
  | pqdm plaintext sender recipient =>
      cases other with
      | pqdm plaintext' sender' recipient' =>
          exact ⟨congrArg HkdfCall.pqdmWrap answers, rfl, trivial⟩
      | _ => cases answers
  | pqroute innerMetadata content routeHdr => exact absurd rfl bare
  | dmEpoch epochSecret =>
      cases other with
      | dmEpoch epochSecret' => exact ⟨rfl, rfl, trivial⟩
      | _ => cases answers
  | groupEpoch epochSecret =>
      cases other with
      | groupEpoch epochSecret' => exact ⟨rfl, rfl, trivial⟩
      | _ => cases answers

theorem Surface.answers_self (surface : Surface) : surface.Answers serde surface := by
  cases surface with
  | pqdm plaintext sender recipient => rfl
  | _ => trivial

end Boxes

section Rejection

variable {P : Primitives} {serde : SerdeJson} {build : Build} {keys : KeypairDraws}
  {blobs : List SealedBlob} {log : List Sealing} {blob' : Bytes}

/-- On a surface without a header, an opener that refuses some lengths and goes on with what
the box holds. -/
theorem bare_rejects_iff (kem : P.KemCorrect) (aead : P.AeadCorrect) (hkdf : P.HkdfInjective)
    (decapsulate : P.DecapsulateInjective) (recorded : Recorded P serde keys blobs log)
    (only : P.OnlyLogged log blob') {surface : Surface}
    (bare : (surface.call serde).family ≠ .pqrouteWrap) (fits : Prop) {ε β : Type}
    {opener : Outcome ε β} (next : Bytes → Outcome ε β)
    (refuses : ¬ fits → ∃ reason, opener = .error reason)
    (opens : fits → ∃ translate, opener = ((openBox P (surface.call serde).info
      (surface.call serde).suffix blob' (hybridKeypair P keys).privateKey).mapError translate >>=
        next))
    (long : fits → bodyOffset ≤ blob'.length)
    (reads : ∀ made ∈ blobs, surface.Answers serde made.surface →
      (blob'.length = made.blob.length → fits) ∧
        ∀ reason, next (made.surface.message serde) ≠ .error reason) :
    (∃ reason, opener = .error reason) ↔
      ∀ made ∈ blobs, ¬ surface.AliasOf P serde build keys made blob' := by
  by_cases right : fits
  · obtain ⟨translate, opened⟩ := opens right
    rw [opened, openBox_bind_rejects_iff kem aead hkdf decapsulate recorded.honest
      recorded.accounts only (long right)]
    constructor
    · rintro every made found ⟨answers, -, aliased⟩
      obtain ⟨sameCall, atFront, -⟩ := answers.alike bare build
      have inBox : EphemeralAlias P keys.xSeed 0 (made.box serde).payload blob' := by
        rwa [SealedBlob.box, atFront, List.drop_zero, ← atFront]
      obtain ⟨reason, failed⟩ := every _ (List.mem_map_of_mem found)
        (congrArg HkdfCall.info sameCall) (congrArg HkdfCall.suffix sameCall) inBox
      exact (reads made found answers).2 reason failed
    · intro none box found sameInfo _ aliased
      obtain ⟨made, member, rfl⟩ := List.mem_map.mp found
      have answers : surface.Answers serde made.surface := Surface.answers_of_info bare sameInfo
      obtain ⟨-, atFront, reads⟩ := answers.alike bare build
      rw [SealedBlob.box, atFront, List.drop_zero] at aliased
      exact absurd ⟨answers, reads, by rwa [atFront]⟩ (none made member)
  · refine iff_of_true (refuses right) ?_
    rintro made found ⟨answers, -, aliased⟩
    exact right ((reads made found answers).1 aliased.length_eq)

theorem pqdm_rejected_iff (kem : P.KemCorrect) (aead : P.AeadCorrect) (hkdf : P.HkdfInjective)
    (decapsulate : P.DecapsulateInjective) (recorded : Recorded P serde keys blobs log)
    (only : P.OnlyLogged log blob') (plaintext : Bytes) (sender recipient : String) :
    let surface : Surface := .pqdm plaintext sender recipient
    surface.Rejected P serde build keys blob' ↔
      ∀ made ∈ blobs, ¬ surface.AliasOf P serde build keys made blob' := by
  intro surface
  refine bare_rejects_iff kem aead hkdf decapsulate recorded only (fun same => by cases same)
    (Pqdm.sealedMinLen ≤ blob'.length) .ok (fun short => ?_) (fun fits => ?_) (fun fits => ?_) ?_
  · exact ⟨_, by rw [Pqdm.openSealed, if_pos (Nat.lt_of_not_le short)]⟩
  · rw [Pqdm.openSealed, if_neg (Nat.not_lt_of_le fits)]
    exact ⟨_, (Outcome.bind_ok _).symm⟩
  · rw [Pqdm.sealedMinLen_eq] at fits
    rw [bodyOffset_eq]
    omega
  · intro made found answers
    have size := (recorded.sealed made found).length_eq aead
    refine ⟨fun same => ?_, fun reason failed => by cases failed⟩
    rw [same, size, Pqdm.sealedMinLen_eq, bodyOffset_eq, tagLen]
    omega

/-- A wrapped secret of 32 bytes. -/
theorem length_of_wrapped (aead : P.AeadCorrect) {made : SealedBlob}
    (sealed : made.surface.Sealed P serde keys made.draws made.blob)
    (atFront : made.surface.offset serde = 0) (length : (made.surface.message serde).length = 32) :
    made.blob.length = 1180 := by
  rw [sealed.length_eq aead, atFront, length, bodyOffset_eq, tagLen]

theorem dmEpoch_rejected_iff (kem : P.KemCorrect) (aead : P.AeadCorrect) (hkdf : P.HkdfInjective)
    (decapsulate : P.DecapsulateInjective) (recorded : Recorded P serde keys blobs log)
    (only : P.OnlyLogged log blob') (epochSecret : Bytes) :
    let surface : Surface := .dmEpoch epochSecret
    surface.Rejected P serde build keys blob' ↔
      ∀ made ∈ blobs, ¬ surface.AliasOf P serde build keys made blob' := by
  intro surface
  have info : (surface.call serde).info = Ratchet.infoDmWrap := HkdfCall.info_dmWrap
  refine bare_rejects_iff kem aead hkdf decapsulate recorded only (fun same => by cases same)
    (blob'.length = Ratchet.wrappedPayloadLen)
    (fun plain => if plain.length ≠ Ratchet.epochSecretLen then .error .unwrapFailed
      else copyFromSlice 32 plain) (fun other => ?_) (fun fits => ?_) (fun fits => ?_) ?_
  · exact ⟨_, by rw [Ratchet.unwrapDmEpochSecret, if_pos other]⟩
  · rw [Ratchet.unwrapDmEpochSecret, if_neg (not_not.mpr fits), info]
    exact ⟨_, rfl⟩
  · rw [fits]
    decide
  · rintro ⟨made, draws, blob⟩ found answers
    have sealed := recorded.sealed _ found
    cases made with
    | dmEpoch secret =>
        obtain ⟨length, -⟩ := Ratchet.wrapDmEpochSecret_eq_ok sealed
        refine ⟨fun same => same.trans (length_of_wrapped aead sealed rfl length), ?_⟩
        intro reason failed
        have copied : (if secret.length ≠ Ratchet.epochSecretLen then
            Outcome.error Ratchet.RatchetError.unwrapFailed else copyFromSlice 32 secret) =
              .ok ⟨secret, length⟩ := by
          rw [if_neg (not_not.mpr length)]
          exact copyFromSlice_of_length length
        cases copied.symm.trans failed
    | _ => cases answers

theorem groupEpoch_rejected_iff (kem : P.KemCorrect) (aead : P.AeadCorrect)
    (hkdf : P.HkdfInjective) (decapsulate : P.DecapsulateInjective)
    (recorded : Recorded P serde keys blobs log) (only : P.OnlyLogged log blob')
    (epochSecret : Bytes) :
    let surface : Surface := .groupEpoch epochSecret
    surface.Rejected P serde build keys blob' ↔
      ∀ made ∈ blobs, ¬ surface.AliasOf P serde build keys made blob' := by
  intro surface
  have info : (surface.call serde).info = GroupRatchet.epochWrapInfo := HkdfCall.info_groupWrap
  refine bare_rejects_iff kem aead hkdf decapsulate recorded only (fun same => by cases same)
    (blob'.length = GroupRatchet.wrappedPayloadLen)
    (fun plaintext => Outcome.ofOption (.badSecretLen plaintext.length)
      (tryIntoArray 32 plaintext)) (fun other => ?_) (fun fits => ?_) (fun fits => ?_) ?_
  · exact ⟨_, by rw [GroupRatchet.unwrapEpochSecret, if_pos other]⟩
  · rw [GroupRatchet.unwrapEpochSecret, if_neg (not_not.mpr fits),
      if_neg (not_not.mpr (length_privateKey P keys)), info]
    exact ⟨_, rfl⟩
  · rw [fits]
    decide
  · rintro ⟨made, draws, blob⟩ found answers
    have sealed := recorded.sealed _ found
    cases made with
    | groupEpoch secret =>
        obtain ⟨length, -⟩ := GroupRatchet.wrapEpochSecret_eq_ok sealed
        refine ⟨fun same => same.trans (length_of_wrapped aead sealed rfl length), ?_⟩
        intro reason failed
        have copied : Outcome.ofOption (GroupRatchet.GroupRatchetError.badSecretLen secret.length)
            (tryIntoArray 32 secret) = .ok ⟨secret, length⟩ :=
          congrArg (Outcome.ofOption _) (tryIntoArray_of_length length)
        cases copied.symm.trans failed
    | _ => cases answers

/-- The label of an envelope is that of no other surface, and gives its header. -/
theorem exists_pqroute_of_info {surface : Surface} {routeBytes : Bytes}
    (same : Pqroute.wrapInfo (Pqroute.buildAad routeBytes) = (surface.call serde).info) :
    ∃ innerMetadata content routeHdr, surface = .pqroute innerMetadata content routeHdr ∧
      Pqroute.canonical serde routeHdr = routeBytes := by
  have calls : (HkdfCall.pqrouteWrap (Pqroute.buildAad routeBytes)).info =
      (surface.call serde).info := same
  obtain ⟨families, suffixes⟩ := info_inj calls
  cases surface with
  | pqroute innerMetadata content routeHdr =>
      exact ⟨innerMetadata, content, routeHdr, rfl, (Pqroute.buildAad_inj.mp suffixes).symm⟩
  | _ => cases families

/-- The box of an envelope is what stands behind its header. -/
theorem payload_box_pqroute {innerMetadata routeHdr : Value} {content payload : Bytes}
    {draws : BoxDraws} :
    (SealedBlob.box serde ⟨.pqroute innerMetadata content routeHdr, draws,
      Pqroute.outerBytes (Pqroute.canonical serde routeHdr) ++ payload⟩).payload = payload :=
  List.drop_left

/-- What is an alias of an envelope splits behind its header, and what follows is an alias of
its box. -/
theorem Surface.AliasOf.exists_split {innerMetadata routeHdr : Value} {content : Bytes}
    {made : SealedBlob} (sealed : made.surface.Sealed P serde keys made.draws made.blob)
    (aliasOf : (Surface.pqroute innerMetadata content routeHdr).AliasOf P serde build keys made
      blob') :
    ∃ innerMetadata' content' routeHdr' payload',
      made.surface = .pqroute innerMetadata' content' routeHdr' ∧
      made.surface.ReadsBack serde build ∧
      Pqroute.splitOuter build blob' = .ok (Pqroute.canonical serde routeHdr', payload') ∧
      EphemeralAlias P keys.xSeed 0 (made.box serde).payload payload' := by
  obtain ⟨answers, reads, aliased⟩ := aliasOf
  obtain ⟨surface, draws, blob⟩ := made
  cases surface with
  | pqroute innerMetadata' content' routeHdr' =>
      obtain ⟨payload, -, rfl⟩ := Pqroute.sealRouted_eq_ok sealed
      obtain ⟨payload', rfl⟩ := aliased.exists_append
      refine ⟨innerMetadata', content', routeHdr', payload', rfl, reads,
        Pqroute.splitOuter_append payload' reads.1 reads.2.1, ?_⟩
      rw [payload_box_pqroute]
      exact (EphemeralAlias.append_left _).mp aliased
  | _ => cases answers

/-- An alias of an envelope is long enough behind its header, and the header parses. -/
theorem Surface.AliasOf.payload_fits (aead : P.AeadCorrect) {innerMetadata routeHdr : Value}
    {content routeBytes payload' : Bytes} {made : SealedBlob}
    (sealed : made.surface.Sealed P serde keys made.draws made.blob)
    (aliasOf : (Surface.pqroute innerMetadata content routeHdr).AliasOf P serde build keys made
      blob') (split : Pqroute.splitOuter build blob' = .ok (routeBytes, payload')) :
    Pqroute.sealedMinLen ≤ payload'.length ∧ ∃ value, serde.fromSlice routeBytes = .ok value := by
  obtain ⟨_, _, _, _, is, reads, same, aliased⟩ := aliasOf.exists_split sealed
  obtain ⟨rfl, rfl⟩ := Prod.mk.inj (Outcome.ok.inj (split.symm.trans same))
  rw [is] at reads
  have length := length_sealBox aead (SealedBlob.exists_front sealed).1
  refine ⟨?_, reads.2.2.1⟩
  rw [aliased.length_eq, length, bodyOffset_eq, Pqroute.sealedMinLen_eq, tagLen]
  omega

/-- The header of an envelope in front of an alias of its box. -/
theorem EphemeralAlias.of_box {innerMetadata routeHdr : Value} {content blob payload' : Bytes}
    {draws : BoxDraws}
    (sealed : Surface.Sealed P serde keys draws blob (.pqroute innerMetadata content routeHdr))
    (aliased : EphemeralAlias P keys.xSeed 0
      (SealedBlob.box serde ⟨.pqroute innerMetadata content routeHdr, draws, blob⟩).payload
      payload') :
    EphemeralAlias P keys.xSeed
      (Surface.offset serde (.pqroute innerMetadata content routeHdr)) blob
      (Pqroute.outerBytes (Pqroute.canonical serde routeHdr) ++ payload') := by
  obtain ⟨payload, -, rfl⟩ := Pqroute.sealRouted_eq_ok sealed
  rw [payload_box_pqroute] at aliased
  exact (EphemeralAlias.append_left _).mpr aliased

theorem pqroute_rejected_iff (kem : P.KemCorrect) (aead : P.AeadCorrect) (hkdf : P.HkdfInjective)
    (decapsulate : P.DecapsulateInjective) (recorded : Recorded P serde keys blobs log)
    (only : P.OnlyLogged log blob') (innerMetadata : Value) (content : Bytes) (routeHdr : Value) :
    let surface : Surface := .pqroute innerMetadata content routeHdr
    surface.Rejected P serde build keys blob' ↔
      ∀ made ∈ blobs, ¬ surface.AliasOf P serde build keys made blob' := by
  intro surface
  cases split : Pqroute.splitOuter build blob' with
  | panic => exact absurd split (Pqroute.splitOuter_ne_panic _)
  | error reason =>
      refine iff_of_true ⟨reason, by rw [Pqroute.openRouted, split, Outcome.error_bind]⟩ ?_
      intro made found aliasOf
      obtain ⟨_, _, _, _, -, -, same, -⟩ := aliasOf.exists_split (recorded.sealed made found)
      cases split.symm.trans same
  | ok parts =>
      obtain ⟨routeBytes, payload'⟩ := parts
      obtain ⟨rfl, fits, inside⟩ := Pqroute.splitOuter_eq_ok split
      by_cases bad : payload'.length < Pqroute.sealedMinLen ∨
          ∃ reason, serde.fromSlice routeBytes = .error reason
      · refine iff_of_true (Pqroute.openRouted_rejects _ split bad) ?_
        intro made found aliasOf
        obtain ⟨long, value, parsed⟩ := aliasOf.payload_fits aead (recorded.sealed made found) split
        rcases bad with short | ⟨reason, unparsed⟩
        · omega
        · cases parsed.symm.trans unparsed
      · obtain ⟨long, parses⟩ := not_or.mp bad
        cases parsed : serde.fromSlice routeBytes with
        | error reason => exact absurd ⟨reason, parsed⟩ parses
        | ok value =>
            have holds : bodyOffset ≤ payload'.length := by
              rw [Pqroute.sealedMinLen_eq] at long
              rw [bodyOffset_eq]
              omega
            change (∃ reason, Pqroute.openRouted P serde build _ _ = .error reason) ↔ _
            rw [Pqroute.openRouted_of_split split long parsed,
              openBox_bind_rejects_iff kem aead hkdf decapsulate recorded.honest
                recorded.accounts (only.of_suffix (List.suffix_append _ _)) holds]
            simp only [Outcome.bind_ok_eq_error]
            constructor
            · rintro every ⟨other, draws, blob⟩ found aliasOf
              obtain ⟨_, _, _, _, is, reads, same, aliased⟩ :=
                aliasOf.exists_split (recorded.sealed _ found)
              obtain ⟨rfl, rfl⟩ := Prod.mk.inj (Outcome.ok.inj (split.symm.trans same))
              obtain rfl : other = _ := is
              obtain ⟨reason, failed⟩ := every _ (List.mem_map_of_mem found) rfl rfl aliased
              exact reads.2.2.2 reason failed
            · intro none box found sameInfo _ aliased
              obtain ⟨⟨other, draws, blob⟩, member, rfl⟩ := List.mem_map.mp found
              obtain ⟨innerMetadata', content', routeHdr', rfl, rfl⟩ :=
                exists_pqroute_of_info sameInfo
              by_contra reads
              exact none _ member ⟨trivial,
                ⟨fits, inside, ⟨value, parsed⟩, fun reason failed => reads ⟨reason, failed⟩⟩,
                aliased.of_box (recorded.sealed _ member)⟩

/-- An opener rejects what is an alias of nothing it is meant for. -/
theorem rejected_iff_aliasOf (kem : P.KemCorrect) (aead : P.AeadCorrect) (hkdf : P.HkdfInjective)
    (decapsulate : P.DecapsulateInjective) (surface : Surface)
    (recorded : Recorded P serde keys blobs log) (only : P.OnlyLogged log blob') :
    surface.Rejected P serde build keys blob' ↔
      ∀ made ∈ blobs, ¬ surface.AliasOf P serde build keys made blob' := by
  cases surface with
  | pqdm plaintext sender recipient =>
      exact pqdm_rejected_iff kem aead hkdf decapsulate recorded only plaintext sender recipient
  | pqroute innerMetadata content routeHdr =>
      exact pqroute_rejected_iff kem aead hkdf decapsulate recorded only innerMetadata content
        routeHdr
  | dmEpoch epochSecret =>
      exact dmEpoch_rejected_iff kem aead hkdf decapsulate recorded only epochSecret
  | groupEpoch epochSecret =>
      exact groupEpoch_rejected_iff kem aead hkdf decapsulate recorded only epochSecret

/-- **The extent of malleability.** On every surface, a blob put together of what was sealed to
the recipient and of anything else is rejected exactly when it is not the sealed blob with
an alias of its ephemeral, or what was sealed cannot be read back, and it is no such alias
of another blob that the opener is meant for. -/
theorem rejected_iff (kem : P.KemCorrect) (aead : P.AeadCorrect) (hkdf : P.HkdfInjective)
    (decapsulate : P.DecapsulateInjective) (surface : Surface) {draws : BoxDraws} {blob : Bytes}
    {others : List SealedBlob}
    (recorded : Recorded P serde keys (⟨surface, draws, blob⟩ :: others) log)
    (only : P.OnlyLogged log blob') :
    surface.Rejected P serde build keys blob' ↔
      ¬ (surface.ReadsBack serde build ∧
        EphemeralAlias P keys.xSeed (surface.offset serde) blob blob') ∧
      ∀ other ∈ others, ¬ surface.AliasOf P serde build keys other blob' := by
  rw [rejected_iff_aliasOf kem aead hkdf decapsulate surface recorded only,
    List.forall_mem_cons]
  refine and_congr_left fun _ => not_congr ?_
  exact and_iff_right surface.answers_self

end Rejection

/-! ## Wrapped secrets, an alias and a splice -/

/-- The wrap of a DM epoch secret, with what it is made of. -/
structure Wrap where
  keys : KeypairDraws
  secret : Ratchet.EpochSecret
  draws : BoxDraws

def Wrap.encryption (wrap : Wrap) : Encryption :=
  boxEncryption Ratchet.infoDmWrap [] wrap.secret.val wrap.keys wrap.draws

def Wrap.surface (wrap : Wrap) : Surface := .dmEpoch wrap.secret.val

/-- Primitives that have made the encryptions of the wraps, and no other. -/
def wrapped (wraps : List Wrap) : Primitives := primitives (logged (wraps.map Wrap.encryption))

/-- The encryptions of the wraps. -/
def sealings (wraps : List Wrap) : List Sealing :=
  (wraps.map Wrap.encryption).map (loggedSealing (wraps.map Wrap.encryption))

/-- What follows the hybrid ciphertext of a wrap: the nonce and the body. -/
def Wrap.rest (wraps : List Wrap) (wrap : Wrap) : Bytes :=
  wrap.draws.nonce.val ++ (loggedSealing (wraps.map Wrap.encryption) wrap.encryption).body

def Wrap.sealedBlob (wraps : List Wrap) (wrap : Wrap) : SealedBlob where
  surface := wrap.surface
  draws := wrap.draws
  blob := boxCiphertext wrap.draws ++ wrap.rest wraps

section Wraps

variable {keys : KeypairDraws} {wraps : List Wrap} {wrap : Wrap}
  {serde : SerdeJson}

theorem Wrap.sealed (found : wrap ∈ wraps) :
    wrap.surface.Sealed (wrapped wraps) serde wrap.keys wrap.draws
      (boxCiphertext wrap.draws ++ wrap.rest wraps) := by
  have tagged : logged (wraps.map Wrap.encryption) wrap.encryption =
      some ⟨_, length_natToBe 16 _⟩ := if_pos (List.mem_map_of_mem found)
  have made := wrapDmEpochSecret_of_tag tagged
  rw [List.append_assoc] at made
  exact made

/-- The key of a wrap to another ML-KEM key is derived from no hybrid ciphertext. -/
theorem Wrap.elsewhere (apart : wrap.keys.mlkemCoins ≠ keys.mlkemCoins) :
    Elsewhere (wrapped wraps) keys wrap.encryption.key := by
  intro info ciphertext shared decapsulated same
  have length : ciphertext.length = ciphertextLen := by
    by_contra different
    cases (hybridDecap_of_ciphertext_length_ne different).symm.trans decapsulated
  obtain ⟨point, ct, rfl⟩ := exists_fixed_append 32 1088 length
  rw [hybridKeypair, hybridDecap_eq_ok] at decapsulated
  obtain ⟨secret, opened, rfl⟩ := decapsulated
  obtain ⟨-, -, sameSecret⟩ := boxKey_inj hkdfInjective same
  have sameStart := congrArg (List.take 64) (sameSecret.trans (Option.some.inj opened).symm)
  exact apart (Subtype.ext ((take_mlkemSecret wrap.keys.mlkemCoins _).2.symm.trans
    (sameStart.trans (take_mlkemSecret keys.mlkemCoins ct).1)))

/-- A wrap to the recipient is the encryption of its box. -/
theorem Wrap.made (found : wrap ∈ wraps) :
    ((wrap.sealedBlob wraps).box serde).Made (wrapped wraps) wrap.keys
      (loggedSealing (wraps.map Wrap.encryption) wrap.encryption) := by
  obtain ⟨shared, encapsulated, sameKey⟩ :=
    exists_hybridEncap (logged (wraps.map Wrap.encryption)) wrap.keys wrap.draws
  refine ⟨_, shared, encapsulated, ?_, rfl, rfl, rfl,
    aeadEncrypt_loggedSealing (List.mem_map_of_mem found)⟩
  have info : ((wrap.sealedBlob wraps).box serde).info = Ratchet.infoDmWrap :=
    HkdfCall.info_dmWrap
  rw [info]
  exact sameKey _ [] wrap.secret.val

/-- The wraps to the recipient are recorded, in a log with other wraps. -/
theorem recorded_wraps (own others : List Wrap) (toOwn : ∀ wrap ∈ own, wrap.keys = keys)
    (apart : ∀ wrap ∈ others, wrap.keys.mlkemCoins ≠ keys.mlkemCoins) :
    let wraps := own ++ others
    Recorded (wrapped wraps) serde keys (own.map fun wrap => wrap.sealedBlob wraps)
      (sealings wraps) := by
  intro wraps
  constructor
  · intro made found
    obtain ⟨wrap, member, rfl⟩ := List.mem_map.mp found
    rw [← toOwn wrap member]
    exact Wrap.sealed (List.mem_append_left _ member)
  · intro made entry
    obtain ⟨encryption, found, rfl⟩ := List.mem_map.mp entry
    obtain ⟨wrap, member, rfl⟩ := List.mem_map.mp found
    rcases List.mem_append.mp member with ours | theirs
    · left
      rw [← toOwn wrap ours]
      exact ⟨_, List.mem_map_of_mem (List.mem_map_of_mem ours), Wrap.made member⟩
    · exact .inr (Wrap.elsewhere (apart wrap theirs))

end Wraps

/-- Two wraps to one recipient, and one to another. -/
def firstWrap : Wrap := ⟨sampleKeys 1, .fill 32 1, sampleBoxDraws 2⟩
def secondWrap : Wrap := ⟨sampleKeys 1, .fill 32 4, sampleBoxDraws 3⟩
def thirdWrap : Wrap := ⟨sampleKeys 5, .fill 32 1, sampleBoxDraws 6⟩

/-- An alias has the ML-KEM ciphertext, the nonce and the body of the wrap. -/
theorem EphemeralAlias.rest_eq {P : Primitives} {seed : FixedBytes 32} {draws draws' : BoxDraws}
    {rest rest' : Bytes}
    (aliased : EphemeralAlias P seed 0 (boxCiphertext draws ++ rest)
      (boxCiphertext draws' ++ rest')) :
    mlkemCiphertext draws.kem.mlkemCoins = mlkemCiphertext draws'.kem.mlkemCoins ∧
      rest = rest' := by
  obtain ⟨front, point, point', tail, length, left, right, -⟩ := aliased
  rw [List.length_eq_zero_iff.mp length, List.nil_append, boxCiphertext, List.append_assoc] at left
  rw [List.length_eq_zero_iff.mp length, List.nil_append, boxCiphertext, List.append_assoc] at right
  exact fixed_append_inj ((fixed_append_inj left).2.trans (fixed_append_inj right).2.symm)

/-- A splice of two wraps to the recipient is rejected: the hybrid ciphertext of the first,
with the nonce and the body of the second. -/
theorem rejected_iff_spliced :
    let wraps := [firstWrap, secondWrap, thirdWrap]
    let P := wrapped wraps
    let build : Build := ⟨true, .w64⟩
    firstWrap.surface.Sealed P naturalJson (sampleKeys 1) (sampleBoxDraws 2)
        (boxCiphertext (sampleBoxDraws 2) ++ firstWrap.rest wraps) ∧
      secondWrap.surface.Sealed P naturalJson (sampleKeys 1) (sampleBoxDraws 3)
        (boxCiphertext (sampleBoxDraws 3) ++ secondWrap.rest wraps) ∧
      firstWrap.surface.Rejected P naturalJson build (sampleKeys 1)
        (boxCiphertext (sampleBoxDraws 2) ++ secondWrap.rest wraps) := by
  intro wraps P build
  have recorded : Recorded P naturalJson (sampleKeys 1)
      [firstWrap.sealedBlob wraps, secondWrap.sealedBlob wraps] (sealings wraps) := by
    refine recorded_wraps [firstWrap, secondWrap] [thirdWrap] ?_ ?_
    · simp [firstWrap, secondWrap]
    · simp [thirdWrap, sampleKeys, FixedBytes.fill]
  refine ⟨recorded.sealed _ List.mem_cons_self,
    recorded.sealed _ (List.mem_cons_of_mem _ List.mem_cons_self), ?_⟩
  refine (rejected_iff kemCorrect aeadCorrect hkdfInjective decapsulateInjective firstWrap.surface
    recorded (onlyLogged_logged _ _)).mpr ⟨?_, ?_⟩
  · rintro ⟨-, aliased⟩
    have sameNonce := (fixed_append_inj aliased.rest_eq.2).1
    revert sameNonce
    decide
  · rintro other found ⟨-, -, aliased⟩
    obtain rfl := List.mem_singleton.mp found
    have sameCoins := congrArg (fun ct => ct.val.take 32) aliased.rest_eq.1
    simp only [mlkemCiphertext] at sameCoins
    rw [take_extended, take_extended] at sameCoins
    revert sameCoins
    decide

/-- A wrap has an alias with another ephemeral. -/
theorem Wrap.exists_alias (seed : FixedBytes 32) (wraps : List Wrap) (wrap : Wrap) :
    ∃ blob', blob' ≠ (wrap.sealedBlob wraps).blob ∧
      EphemeralAlias (wrapped wraps) seed 0 (wrap.sealedBlob wraps).blob blob' := by
  obtain ⟨point', other, secrets⟩ := exists_other_encoding wrap.draws.kem.xEph
  obtain ⟨point, own⟩ : ∃ point, point = Idealised.x25519 wrap.draws.kem.xEph basePoint := ⟨_, rfl⟩
  obtain ⟨rest, parts⟩ : ∃ rest, (wrap.sealedBlob wraps).blob = point.val ++ rest :=
    ⟨_, by rw [own]; exact List.append_assoc _ _ _⟩
  rw [← own] at other secrets
  rw [parts]
  refine ⟨point'.val ++ rest, fun same => other (fixed_append_inj same).1, ?_⟩
  exact ⟨[], point, point', rest, rfl, rfl, rfl, secrets seed⟩

/-- **A changed blob that opens**: the top bit of the ephemeral is set. -/
theorem malleable_ephemeral :
    let P := wrapped [firstWrap]
    let surface : Surface := .dmEpoch (FixedBytes.fill 32 1).val
    let build : Build := ⟨true, .w64⟩
    (P.KemCorrect ∧ P.AeadCorrect ∧ P.IdealAead ∧ P.HkdfInjective ∧ P.DecapsulateInjective) ∧
      ∃ blob blob', surface.Sealed P naturalJson (sampleKeys 1) (sampleBoxDraws 2) blob ∧
        blob' ≠ blob ∧ ¬ surface.Rejected P naturalJson build (sampleKeys 1) blob' := by
  intro P surface build
  refine ⟨⟨kemCorrect, aeadCorrect, idealAead_logged (by decide), hkdfInjective,
    decapsulateInjective⟩, ?_⟩
  have recorded : Recorded P naturalJson (sampleKeys 1) [firstWrap.sealedBlob [firstWrap]]
      (sealings [firstWrap]) := by
    refine recorded_wraps [firstWrap] [] ?_ (by simp)
    simp [firstWrap]
  obtain ⟨blob', other, aliased⟩ :=
    firstWrap.exists_alias (sampleKeys 1).xSeed [firstWrap]
  refine ⟨_, blob', recorded.sealed _ List.mem_cons_self, other, fun rejected => ?_⟩
  exact (dmEpoch_rejected_iff kemCorrect aeadCorrect hkdfInjective decapsulateInjective recorded
    (onlyLogged_logged _ _) _).mp rejected _ List.mem_cons_self ⟨trivial, trivial, aliased⟩

end SkPqc

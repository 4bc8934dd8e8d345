import SkPqc.Library.Base64

/-!
# Addresses of anonymous queues

A queue is addressed by a relay and the sender id of the queue: a scheme marker,
the relay, a slash, and the id in URL-safe base64 without padding. The relay may
hold anything but a slash, so the first slash ends it.

Decoding inverts encoding and accepts nothing else (`decodeAqid_eq_ok_iff`). The
base64 engine is a parameter.

A message to a queue is authenticated by a tag under a shared secret. The tag is
over the nonce followed by the message, so it says which bytes these are
together, and not where the one ends and the other starts
(`verifyTag_authTag_iff`). HMAC is a parameter.
-/

set_option autoImplicit false

namespace SkPqc
namespace AnonQueue

open Library

/-- Length of a queue id. -/
def queueIdLen : Nat := 16

/-- The scheme marker of an address. -/
def aqidScheme : String := "aqid:"

/-- Errors of the address codec. -/
inductive AnonQueueError where
  | badRelay (message : String)
  | badIdLen (what : String) (got : Nat)
  | badAddress (message : String)
  | badBase64
  deriving DecidableEq, Repr

/-! ## Ids of a new queue -/

/-- The next draw that is not the recipient id, with the draws behind it. -/
def redraw (recipientId : FixedBytes 16) :
    List (FixedBytes 16) → Option (FixedBytes 16 × List (FixedBytes 16))
  | [] => none
  | senderId :: draws =>
      if senderId = recipientId then redraw recipientId draws else some (senderId, draws)

/-- A recipient id and a sender id, with the draws that are left. `none` is a generator that
has given no other draw so far. -/
def newQueuePair :
    List (FixedBytes 16) → Option ((FixedBytes 16 × FixedBytes 16) × List (FixedBytes 16))
  | [] => none
  | recipientId :: draws => do
      let (senderId, rest) ← redraw recipientId draws
      return ((recipientId, senderId), rest)

/-! ## Addresses -/

section Codec

variable (engine : Base64Engine)

/-- The address of a queue at a relay. -/
def encodeAqid (relay : String) (senderId : Bytes) : Outcome AnonQueueError String :=
  if relay = "" then .error (.badRelay "must be a non-empty string")
  else if '/' ∈ relay.toList then .error (.badRelay "must not contain '/'")
  else if senderId.length ≠ queueIdLen then .error (.badIdLen "sender_id" senderId.length)
  else .ok (aqidScheme ++ relay ++ "/" ++ engine.encode senderId)

/-- The relay and the sender id of an address. -/
def decodeAqid (s : String) : Outcome AnonQueueError (String × FixedBytes 16) := do
  let body ← Outcome.ofOption (.badAddress "must start with 'aqid:'") (stripPrefix aqidScheme s)
  let (relay, b64) ← Outcome.ofOption (.badAddress "must be 'aqid:<relay>/<id>'")
    (splitOnce '/' body)
  if relay = "" then .error (.badAddress "relay must be non-empty")
  else if b64 = "" then .error (.badAddress "id must be non-empty")
  else
    match engine.decode (utf8 b64) with
    | .error _ => .error .badBase64
    | .ok raw =>
        if raw.length ≠ queueIdLen then .error (.badIdLen "decoded id" raw.length)
        else do
          let senderId ← copyFromSlice 16 raw
          return (relay, senderId)

end Codec

variable {engine : Base64Engine}

/-- What an address is made of. -/
theorem encodeAqid_eq_ok {relay address : String} {senderId : Bytes} :
    encodeAqid engine relay senderId = .ok address ↔
      relay ≠ "" ∧ '/' ∉ relay.toList ∧ senderId.length = queueIdLen ∧
        address = aqidScheme ++ relay ++ "/" ++ engine.encode senderId := by
  unfold encodeAqid
  split
  · rename_i empty
    simp [empty]
  · rename_i relayHolds
    split
    · rename_i slash
      simp [slash]
    · rename_i slashless
      split
      · rename_i length
        simp [length]
      · rename_i length
        simp [relayHolds, slashless, not_not.mp length, eq_comm]

/-- What an accepted address was split into. -/
theorem decodeAqid_eq_ok {s relay : String} {senderId : FixedBytes 16} :
    decodeAqid engine s = .ok (relay, senderId) ↔
      relay ≠ "" ∧ ∃ body b64, s = aqidScheme ++ body ∧ splitOnce '/' body = some (relay, b64) ∧
        b64 ≠ "" ∧ engine.decode (utf8 b64) = .ok senderId.val := by
  simp only [decodeAqid, Outcome.bind_eq_ok, Outcome.ofOption_eq_ok, stripPrefix_eq_some]
  constructor
  · rintro ⟨body, stripped, ⟨relay', b64⟩, split, rest⟩
    dsimp only at rest
    obtain ⟨relayHolds, rest⟩ := Outcome.ite_error_eq_ok.mp rest
    obtain ⟨idHolds, rest⟩ := Outcome.ite_error_eq_ok.mp rest
    cases decoded : engine.decode (utf8 b64) with
    | error reason =>
        rw [decoded] at rest
        cases rest
    | ok raw =>
        rw [decoded] at rest
        obtain ⟨length, rest⟩ := Outcome.ite_error_eq_ok.mp rest
        have sixteen : raw.length = 16 := not_not.mp length
        rw [copyFromSlice_of_length sixteen] at rest
        cases rest
        exact ⟨relayHolds, body, b64, stripped, split, idHolds, decoded⟩
  · rintro ⟨relayHolds, body, b64, stripped, split, idHolds, decoded⟩
    refine ⟨body, stripped, (relay, b64), split, ?_⟩
    have length : senderId.val.length = queueIdLen := senderId.property
    dsimp only
    rw [if_neg relayHolds, if_neg idHolds, decoded]
    dsimp only
    rw [if_neg (not_not.mpr length), copyFromSlice_val]
    rfl

/-- A text is read as a queue exactly when it is the address of that queue. -/
theorem decodeAqid_eq_ok_iff (unpadded : engine.Unpadded) {s relay : String}
    {senderId : FixedBytes 16} :
    decodeAqid engine s = .ok (relay, senderId) ↔
      encodeAqid engine relay senderId.val = .ok s := by
  rw [decodeAqid_eq_ok, encodeAqid_eq_ok]
  constructor
  · rintro ⟨relayHolds, body, b64, rfl, split, -, decoded⟩
    obtain ⟨slashless, parts⟩ := splitOnce_eq_some.mp split
    obtain rfl := utf8_injective ((unpadded.canonical _ _).mp decoded)
    refine ⟨relayHolds, slashless, senderId.property, ?_⟩
    rw [← String.toList_inj]
    simp [parts]
  · rintro ⟨relayHolds, slashless, -, rfl⟩
    refine ⟨relayHolds, relay ++ "/" ++ engine.encode senderId.val, engine.encode senderId.val,
      ?_, splitOnce_eq_some.mpr ⟨slashless, ?_⟩, ?_, (unpadded.canonical _ _).mpr rfl⟩
    · rw [← String.toList_inj]
      simp
    · simp
    · intro empty
      have length := unpadded.length_encode senderId.val
      rw [empty, senderId.property] at length
      cases length

/-- Every queue at a relay without a slash has an address. -/
theorem exists_encodeAqid {relay : String} (senderId : FixedBytes 16) (relayHolds : relay ≠ "")
    (slashless : '/' ∉ relay.toList) :
    ∃ address, encodeAqid engine relay senderId.val = .ok address := by
  refine ⟨aqidScheme ++ relay ++ "/" ++ engine.encode senderId.val, ?_⟩
  exact encodeAqid_eq_ok.mpr ⟨relayHolds, slashless, senderId.property, rfl⟩

/-- **Addresses and queues correspond one to one.** Encoding and decoding a queue at a
relay without a slash gives it back. A text that is read as a queue is the one
address of that queue. And the texts that are accepted are the addresses. -/
theorem aqid_codec (unpadded : engine.Unpadded) :
    (∀ relay (senderId : FixedBytes 16), relay ≠ "" → '/' ∉ relay.toList →
        (encodeAqid engine relay senderId.val >>= decodeAqid engine) = .ok (relay, senderId)) ∧
      (∀ s relay senderId, decodeAqid engine s = .ok (relay, senderId) →
        encodeAqid engine relay senderId.val = .ok s) ∧
      (∀ s s' queue, decodeAqid engine s = .ok queue → decodeAqid engine s' = .ok queue →
        s = s') ∧
      ∀ s, (∃ queue, decodeAqid engine s = .ok queue) ↔
        ∃ relay senderId, encodeAqid engine relay senderId = .ok s := by
  refine ⟨?_, ?_, ?_, ?_⟩
  · intro relay senderId relayHolds slashless
    obtain ⟨address, written⟩ := @exists_encodeAqid engine relay senderId relayHolds slashless
    rw [written, Outcome.ok_bind]
    exact (decodeAqid_eq_ok_iff unpadded).mpr written
  · intro s relay senderId read
    exact (decodeAqid_eq_ok_iff unpadded).mp read
  · rintro s s' ⟨relay, senderId⟩ read read'
    have written := (decodeAqid_eq_ok_iff unpadded).mp read
    rw [(decodeAqid_eq_ok_iff unpadded).mp read'] at written
    exact (Outcome.ok.inj written).symm
  · intro s
    constructor
    · rintro ⟨⟨relay, senderId⟩, read⟩
      exact ⟨relay, senderId.val, (decodeAqid_eq_ok_iff unpadded).mp read⟩
    · rintro ⟨relay, senderId, written⟩
      obtain ⟨-, -, length, -⟩ := encodeAqid_eq_ok.mp written
      exact ⟨(relay, ⟨senderId, length⟩), (decodeAqid_eq_ok_iff unpadded).mpr written⟩

/-- The codec over the URL-safe engine without padding. -/
theorem aqid_codec_urlSafe :
    let engine := Base64.unpadded Base64.urlSafe
    (encodeAqid engine "relay.example:5223" (FixedBytes.fill 16 7).val >>= decodeAqid engine) =
      .ok ("relay.example:5223", FixedBytes.fill 16 7) :=
  (aqid_codec (Base64.unpadded_unpadded Base64.urlSafe)).1 "relay.example:5223" (.fill 16 7)
    (by decide) (by decide)

section Queues

variable {recipientId senderId : FixedBytes 16} {draws rest : List (FixedBytes 16)}

/-- The loop passes over the draws of the recipient id. -/
theorem redraw_eq_some : redraw recipientId draws = some (senderId, rest) ↔
    senderId ≠ recipientId ∧
      ∃ passed, draws = List.replicate passed recipientId ++ senderId :: rest := by
  induction draws with
  | nil => simp [redraw]
  | cons first draws ih =>
      rw [redraw]
      split
      · rename_i same
        rw [ih, same]
        refine and_congr_right fun other => ?_
        constructor
        · rintro ⟨passed, rfl⟩
          exact ⟨passed + 1, rfl⟩
        · rintro ⟨passed, spelled⟩
          cases passed with
          | zero => exact absurd (List.cons.inj spelled).1.symm other
          | succ passed => exact ⟨passed, (List.cons.inj spelled).2⟩
      · rename_i different
        constructor
        · intro drawn
          cases drawn
          exact ⟨different, 0, rfl⟩
        · rintro ⟨-, passed, spelled⟩
          cases passed with
          | zero =>
              obtain ⟨rfl, rfl⟩ := List.cons.inj spelled
              rfl
          | succ passed => exact absurd (List.cons.inj spelled).1 different

/-- A queue has the first draw and the next one that differs from it. -/
theorem newQueuePair_eq_some : newQueuePair draws = some ((recipientId, senderId), rest) ↔
    senderId ≠ recipientId ∧
      ∃ passed, draws = recipientId :: (List.replicate passed recipientId ++ senderId :: rest) := by
  cases draws with
  | nil => simp [newQueuePair]
  | cons first draws =>
      rw [newQueuePair, Option.bind_eq_bind, Option.bind_eq_some_iff]
      constructor
      · rintro ⟨⟨second, others⟩, drawn, made⟩
        cases made
        obtain ⟨different, passed, rfl⟩ := redraw_eq_some.mp drawn
        exact ⟨different, passed, rfl⟩
      · rintro ⟨different, passed, spelled⟩
        obtain ⟨rfl, rfl⟩ := List.cons.inj spelled
        exact ⟨(senderId, rest), redraw_eq_some.mpr ⟨different, passed, rfl⟩, rfl⟩

/-- **A new queue and its address.** The ids are the first draw and the next one that
differs, and no draw behind them is taken. The address that is handed out is read as the
sender id, and is no address of the recipient id at any relay. -/
theorem newQueuePair_address (unpadded : engine.Unpadded) {relay : String} (relayHolds : relay ≠ "")
    (slashless : '/' ∉ relay.toList)
    (made : newQueuePair draws = some ((recipientId, senderId), rest)) :
    (∃ passed, draws = recipientId :: (List.replicate passed recipientId ++ senderId :: rest)) ∧
      ∃ address, encodeAqid engine relay senderId.val = .ok address ∧
        decodeAqid engine address = .ok (relay, senderId) ∧
        ∀ relay', encodeAqid engine relay' recipientId.val ≠ .ok address := by
  obtain ⟨different, spelled⟩ := newQueuePair_eq_some.mp made
  obtain ⟨address, written⟩ := @exists_encodeAqid engine relay senderId relayHolds slashless
  have read := (decodeAqid_eq_ok_iff unpadded).mpr written
  refine ⟨spelled, address, written, read, ?_⟩
  intro relay' own
  rw [(decodeAqid_eq_ok_iff unpadded).mpr own] at read
  cases read
  exact different rfl

/-- A generator that repeats itself twice. -/
theorem newQueuePair_address_repeated :
    let engine := Base64.unpadded Base64.urlSafe
    let draws := [FixedBytes.fill 16 7, FixedBytes.fill 16 7, FixedBytes.fill 16 7,
      FixedBytes.fill 16 9, FixedBytes.fill 16 8]
    newQueuePair draws = some ((.fill 16 7, .fill 16 9), [.fill 16 8]) ∧
      ∃ address, encodeAqid engine "relay" (FixedBytes.fill 16 9).val = .ok address ∧
        decodeAqid engine address = .ok ("relay", .fill 16 9) ∧
        ∀ relay', encodeAqid engine relay' (FixedBytes.fill 16 7).val ≠ .ok address := by
  intro engine draws
  have made : newQueuePair draws = some ((.fill 16 7, .fill 16 9), [.fill 16 8]) := by decide
  exact ⟨made, (newQueuePair_address (Base64.unpadded_unpadded Base64.urlSafe) (by decide)
    (by decide) made).2⟩

end Queues

/-! ## The deniable authenticator -/

section Authenticator

variable (hmacSha256 : Bytes → Bytes → Bytes)

/-- The tag of a message under a shared secret. The nonce is prepended. -/
def authTag (secret message nonce : Bytes) : Bytes := hmacSha256 secret (nonce ++ message)

/-- Whether a tag is the one of the message and the nonce. -/
def verifyTag (secret message nonce tag : Bytes) : Bool :=
  decide (authTag hmacSha256 secret message nonce = tag)

end Authenticator

/-- A tag made for a nonce and a message verifies exactly for the nonces and
messages that spell the same bytes. -/
theorem verifyTag_authTag_eq_true {hmacSha256 : Bytes → Bytes → Bytes} {secret : Bytes}
    (injective : Function.Injective (hmacSha256 secret))
    {message nonce message' nonce' : Bytes} :
    verifyTag hmacSha256 secret message' nonce' (authTag hmacSha256 secret message nonce) = true ↔
      nonce' ++ message' = nonce ++ message := by
  rw [verifyTag, decide_eq_true_iff]
  exact injective.eq_iff

/-- **The tag binds its nonce and its message** exactly where the bytes that they spell
together are not also spelled with a nonce of another length. -/
theorem verifyTag_authTag_iff {hmacSha256 : Bytes → Bytes → Bytes}
    (injective : ∀ secret, Function.Injective (hmacSha256 secret))
    (secret nonce message nonce' message' : Bytes) :
    (verifyTag hmacSha256 secret message' nonce' (authTag hmacSha256 secret message nonce) = true →
        message' = message ∧ nonce' = nonce) ↔
      (nonce' ++ message' = nonce ++ message → nonce'.length = nonce.length) := by
  rw [verifyTag_authTag_eq_true (injective secret)]
  constructor
  · intro binds spelled
    obtain ⟨-, sameNonce⟩ := binds spelled
    rw [sameNonce]
  · intro lengths spelled
    obtain ⟨sameNonce, sameMessage⟩ := (append_inj_of_length (lengths spelled)).mp spelled
    exact ⟨sameMessage, sameNonce⟩

/-- An injective stand-in for HMAC, which takes keys of any length. -/
def plainMac (secret input : Bytes) : Bytes := secret ++ input

theorem plainMac_injective (secret : Bytes) : Function.Injective (plainMac secret) :=
  fun _ _ same => List.append_cancel_left same

/-- Two nonces of one length. -/
theorem verifyTag_authTag_twelve :
    verifyTag plainMac [1] [5] (.replicate 12 7) (authTag plainMac [1] [5] (.replicate 12 8)) =
      false := by
  rw [Bool.eq_false_iff]
  intro verified
  have binds := (verifyTag_authTag_iff plainMac_injective [1] (.replicate 12 8) [5]
    (.replicate 12 7) [5]).mpr fun _ => rfl
  exact absurd (binds verified).2 (by decide)

/-- The nonce `a` with the message `b`, and the nonce `ab` with no message, have one
tag. -/
theorem verifyTag_shifted :
    (∀ secret, Function.Injective (plainMac secret)) ∧
      verifyTag plainMac [1] [] (utf8 "ab") (authTag plainMac [1] (utf8 "b") (utf8 "a")) = true ∧
      utf8 "ab" ≠ utf8 "a" ∧ [] ≠ utf8 "b" := by
  refine ⟨plainMac_injective, ?_, ?_, ?_⟩
  · apply (verifyTag_authTag_eq_true (plainMac_injective [1])).mpr
    rfl
  · intro same
    cases congrArg List.length same
  · intro same
    cases same

end AnonQueue
end SkPqc

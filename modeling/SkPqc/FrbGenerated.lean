import SkPqc.FrbApi
import SkPqc.Idealised
import SkPqc.Library.Codec

/-!
# Calls from Dart

Dart writes the arguments of a call to bytes, and the generated code reads them, calls the
function of that number, and writes what it came to. Numbers are in the byte order of the
machine, and a list has its length in front. The side of Dart is not in this crate. It is a
parameter, and what is asked of it is that each side reads what the other writes.

Whatever is short crosses unchanged: a call from Dart comes to what the function comes to,
be it a value or the text of an error (`remote_calls`). So a secret that was encapsulated
from Dart is decapsulated from Dart (`secret_across_calls`). A list that is longer than a
signed word of 32 bits can say does not cross (`crosses_iff`).

The runtime of the bridge is a parameter. It checks that no bytes of the arguments are
left, and frames what comes back as a success or an error.
-/

set_option autoImplicit false

namespace SkPqc
namespace FrbGenerated

open Library FrbApi

/-- What the runtime of the bridge does around a call. -/
structure Bridge where
  /-- Called with the bytes behind the arguments: `SseDeserializer::end`. -/
  finish (rest : Bytes) : Outcome Empty Unit
  /-- The message of a success or of an error. -/
  message (succeeded : Bool) (payload : Bytes) : Bytes
  /-- How Dart reads a message. -/
  opened (message : Bytes) : Option (Bool × Bytes)

/-- The end of the arguments is the end, and messages are read as they were framed. -/
structure Bridge.Faithful (bridge : Bridge) : Prop where
  finish_nil : bridge.finish [] = .ok ()
  opened_message : ∀ succeeded payload,
    bridge.opened (bridge.message succeeded payload) = some (succeeded, payload)

/-- What the functions draw. -/
structure Draws where
  keypair : Kem.KeypairDraws
  encap : Kem.EncapDraws

/-! ## The codec -/

section Codecs

variable (build : Build) (endian : Endian)

def vecU8 : Codec Bytes := .bytes build endian

def vecU64 : Codec (List UInt64) := .list build endian 8 (.u64 endian)

def string : Codec String := .string build endian

def encapResult : Codec FrbEncapResult :=
  ((vecU8 build endian).pair (vecU8 build endian)).mapped
    (fun fields => { ciphertext := fields.1, sharedSecret := fields.2 })
    fun result => (result.ciphertext, result.sharedSecret)

def hybridKeyPair : Codec FrbHybridKeyPair :=
  ((vecU8 build endian).pair (vecU8 build endian)).mapped
    (fun fields => { publicKey := fields.1, privateKey := fields.2 })
    fun pair => (pair.publicKey, pair.privateKey)

/-- A secret, an epoch and an index. -/
def messageKeyArguments : Codec (Bytes × UInt64 × UInt64) :=
  (vecU8 build endian).pair ((Codec.u64 endian).pair (.u64 endian))

/-- A ciphertext and a private key. -/
def decapArguments : Codec (Bytes × Bytes) := (vecU8 build endian).pair (vecU8 build endian)

end Codecs

/-- How Dart writes the arguments of the functions, and reads what comes back. -/
structure Dart where
  unit : Peer Unit
  vecU8 : Peer Bytes
  vecU64 : Peer (List UInt64)
  string : Peer String
  encapResult : Peer FrbEncapResult
  hybridKeyPair : Peer FrbHybridKeyPair
  messageKeyArguments : Peer (Bytes × UInt64 × UInt64)
  decapArguments : Peer (Bytes × Bytes)

/-- Dart was generated for the same codec as this side. -/
structure Dart.Agrees (dart : Dart) (build : Build) (endian : Endian) : Prop where
  unit : dart.unit.Agrees .unit
  vecU8 : dart.vecU8.Agrees (FrbGenerated.vecU8 build endian)
  vecU64 : dart.vecU64.Agrees (FrbGenerated.vecU64 build endian)
  string : dart.string.Agrees (FrbGenerated.string build endian)
  encapResult : dart.encapResult.Agrees (FrbGenerated.encapResult build endian)
  hybridKeyPair : dart.hybridKeyPair.Agrees (FrbGenerated.hybridKeyPair build endian)
  messageKeyArguments :
    dart.messageKeyArguments.Agrees (FrbGenerated.messageKeyArguments build endian)
  decapArguments : dart.decapArguments.Agrees (FrbGenerated.decapArguments build endian)

/-! ## The generated functions -/

section Generated

variable (P : Primitives) (bridge : Bridge) (build : Build) (endian : Endian)

/-- The arguments of a call, up to the end of the message. -/
def readArguments {α : Type} (arguments : Codec α) (message : Bytes) : Outcome Empty α :=
  Prod.fst <| Method.run (do
    let value ← arguments.decode
    let rest ← Method.get
    Method.lift (bridge.finish rest)
    return value) message

/-- The message with what a call came to. -/
def transformResult {ε α : Type} (ok : Codec α) (err : Codec ε) :
    Outcome ε α → Outcome Empty Bytes
  | .ok value => .ok (bridge.message true (ok.encode value))
  | .error reason => .ok (bridge.message false (err.encode reason))
  | .panic => .panic

def wireDeriveDmMessageKey (message : Bytes) : Outcome Empty Bytes := do
  let (epochSecret, epoch, index) ←
    readArguments bridge (messageKeyArguments build endian) message
  transformResult bridge (vecU8 build endian) (string build endian)
    (deriveDmMessageKey P epochSecret epoch index)

def wireHybridDecap (message : Bytes) : Outcome Empty Bytes := do
  let (ciphertext, privateKey) ← readArguments bridge (decapArguments build endian) message
  transformResult bridge (vecU8 build endian) (string build endian)
    (hybridDecap P ciphertext privateKey)

def wireHybridEncap (draws : Draws) (message : Bytes) : Outcome Empty Bytes := do
  let peerPublicKey ← readArguments bridge (vecU8 build endian) message
  transformResult bridge (encapResult build endian) (string build endian)
    (hybridEncap P peerPublicKey draws.encap)

def wireHybridKeypair (draws : Draws) (message : Bytes) : Outcome Empty Bytes := do
  readArguments bridge .unit message
  transformResult bridge (hybridKeyPair build endian) .unit
    (.ok (hybridKeypair P draws.keypair) : Outcome Unit _)

def wireSuiteId (message : Bytes) : Outcome Empty Bytes := do
  readArguments bridge .unit message
  transformResult bridge (string build endian) .unit (.ok suiteId : Outcome Unit _)

def wireWireSizes (message : Bytes) : Outcome Empty Bytes := do
  readArguments bridge .unit message
  transformResult bridge (vecU64 build endian) .unit (.ok wireSizes : Outcome Unit _)

/-- The call of a function by its number. There are no others. -/
def dispatch (draws : Draws) (funcId : Int32) (message : Bytes) : Outcome Empty Bytes :=
  if funcId = 1 then wireDeriveDmMessageKey P bridge build endian message
  else if funcId = 2 then wireHybridDecap P bridge build endian message
  else if funcId = 3 then wireHybridEncap P bridge build endian draws message
  else if funcId = 4 then wireHybridKeypair P bridge build endian draws message
  else if funcId = 5 then wireSuiteId bridge build endian message
  else if funcId = 6 then wireWireSizes bridge build endian message
  else .panic

/-- What Dart makes of a message. -/
def receive {ε α : Type} (ok : Peer α) (err : Peer ε) (message : Bytes) : Outcome ε α :=
  match bridge.opened message with
  | some (true, payload) => (ok.read payload).elim .panic .ok
  | some (false, payload) => (err.read payload).elim .panic .error
  | none => .panic

/-- A call from Dart. -/
def remote {ε α β : Type} (arguments : Peer α) (ok : Peer β) (err : Peer ε) (draws : Draws)
    (funcId : Int32) (value : α) : Outcome ε β :=
  (dispatch P bridge build endian draws funcId (arguments.write value)).expect >>=
    receive bridge ok err

end Generated

/-! ## What crosses -/

section Crossing

variable {bridge : Bridge} {build : Build} {endian : Endian}

/-- **What crosses.** A byte string, a list of numbers or a text that the target can hold at
all is read back exactly when a signed word of 32 bits can say how long it is. -/
theorem crosses_iff :
    (∀ value : Bytes, value.length < 2 ^ (build.pointerWidth.bits - 1) →
        ((vecU8 build endian).ReadsBack value ↔ value.length < 2 ^ 31)) ∧
      (∀ values : List UInt64, values.length * 8 < 2 ^ (build.pointerWidth.bits - 1) →
        ((vecU64 build endian).ReadsBack values ↔ values.length < 2 ^ 31)) ∧
      ∀ text : String, (utf8 text).length < 2 ^ (build.pointerWidth.bits - 1) →
        ((string build endian).ReadsBack text ↔ (utf8 text).length < 2 ^ 31) := by
  refine ⟨fun value held => ?_, fun values held => ?_, fun text held => ?_⟩
  · exact Codec.readsBack_bytes_iff endian held
  · exact Codec.readsBack_list_iff endian held fun value _ => Codec.readsBack_u64 endian value
  · exact (Codec.readsBack_string_iff endian).trans (Codec.readsBack_bytes_iff endian held)

theorem readsBack_string {text : String} (short : (utf8 text).length < 2 ^ 31) :
    (string build endian).ReadsBack text :=
  (Codec.readsBack_string_iff endian).mpr (Codec.readsBack_bytes endian short)

theorem readsBack_vecU64 {values : List UInt64} (short : values.length < 2 ^ 28) :
    (vecU64 build endian).ReadsBack values := by
  have room : 2 ^ 31 ≤ 2 ^ (build.pointerWidth.bits - 1) := by
    cases build.pointerWidth with
    | w32 => exact Nat.le_refl _
    | w64 => exact Nat.pow_le_pow_right (by decide) (by decide)
  refine (Codec.readsBack_list_iff endian (Nat.lt_of_lt_of_le ?_ room) ?_).mpr ?_
  · omega
  · intro value found
    exact Codec.readsBack_u64 endian value
  · omega

theorem readsBack_encapResult {result : FrbEncapResult}
    (ciphertext : result.ciphertext.length < 2 ^ 31)
    (sharedSecret : result.sharedSecret.length < 2 ^ 31) :
    (encapResult build endian).ReadsBack result :=
  Codec.readsBack_mapped rfl
    (Codec.readsBack_pair (Codec.readsBack_bytes endian ciphertext)
      (Codec.readsBack_bytes endian sharedSecret))

theorem readsBack_hybridKeyPair {pair : FrbHybridKeyPair}
    (publicKey : pair.publicKey.length < 2 ^ 31) (privateKey : pair.privateKey.length < 2 ^ 31) :
    (hybridKeyPair build endian).ReadsBack pair :=
  Codec.readsBack_mapped rfl
    (Codec.readsBack_pair (Codec.readsBack_bytes endian publicKey)
      (Codec.readsBack_bytes endian privateKey))

/-- Arguments that are read back are the arguments of the call. -/
theorem readArguments_write {α : Type} (faithful : bridge.Faithful) {codec : Codec α}
    {arguments : Peer α} (agrees : arguments.Agrees codec) {value : α}
    (own : codec.ReadsBack value) :
    readArguments bridge codec (arguments.write value) = .ok value := by
  rw [readArguments, Method.run_bind_ok (agrees.decode_write value own), Method.run_get_bind,
    Method.run_lift_bind, faithful.finish_nil]
  rfl

/-- A result that is read back is received as it was. -/
theorem receive_transformResult {ε α : Type} (faithful : bridge.Faithful) {ok : Codec α}
    {err : Codec ε} {okPeer : Peer α} {errPeer : Peer ε} (agrees : okPeer.Agrees ok)
    (agrees' : errPeer.Agrees err) {result : Outcome ε α}
    (value : ∀ found, result = .ok found → ok.ReadsBack found)
    (text : ∀ reason, result = .error reason → err.ReadsBack reason) :
    ((transformResult bridge ok err result).expect >>= receive bridge okPeer errPeer) =
      result := by
  cases result with
  | ok found =>
      change receive bridge okPeer errPeer (bridge.message true (ok.encode found)) = _
      rw [receive, faithful.opened_message]
      dsimp only
      rw [agrees.read_encode found (value found rfl), Option.elim_some]
  | error reason =>
      change receive bridge okPeer errPeer (bridge.message false (err.encode reason)) = _
      rw [receive, faithful.opened_message]
      dsimp only
      rw [agrees'.read_encode reason (text reason rfl), Option.elim_some]
  | panic => rfl

end Crossing

/-! ## A bridge and primitives -/

/-- A message is the payload behind a byte for the success. -/
def flagged : Bridge where
  finish rest := if rest = [] then .ok () else .panic
  message succeeded payload := (if succeeded then 0 else 1) :: payload
  opened message :=
    match message with
    | [] => none
    | flag :: payload => some (flag = 0, payload)

/-- Dart with the codec of this side. -/
def mirrored (build : Build) (endian : Endian) : Dart where
  unit := Codec.unit.mirror
  vecU8 := (vecU8 build endian).mirror
  vecU64 := (vecU64 build endian).mirror
  string := (string build endian).mirror
  encapResult := (encapResult build endian).mirror
  hybridKeyPair := (hybridKeyPair build endian).mirror
  messageKeyArguments := (messageKeyArguments build endian).mirror
  decapArguments := (decapArguments build endian).mirror

theorem agrees_mirrored (build : Build) (endian : Endian) :
    (mirrored build endian).Agrees build endian where
  unit := Codec.agrees_mirror _
  vecU8 := Codec.agrees_mirror _
  vecU64 := Codec.agrees_mirror _
  string := Codec.agrees_mirror _
  encapResult := Codec.agrees_mirror _
  hybridKeyPair := Codec.agrees_mirror _
  messageKeyArguments := Codec.agrees_mirror _
  decapArguments := Codec.agrees_mirror _

theorem faithful_flagged : flagged.Faithful where
  finish_nil := rfl
  opened_message succeeded payload := by
    cases succeeded with
    | false => rfl
    | true => rfl

/-- The idealised primitives, with every key cut or filled up to 32 bytes. -/
def arrayed (P : Primitives) : Primitives :=
  { P with hkdf := fun salt ikm info => List.takeD 32 (P.hkdf salt ikm info) 0 }

theorem derivesArrays_arrayed (P : Primitives) : DerivesArrays (arrayed P) := fun _ _ _ => rfl

theorem kemCorrect_arrayed {P : Primitives} (correct : P.KemCorrect) :
    (arrayed P).KemCorrect where
  x25519_comm := correct.x25519_comm
  mlkem_correct := correct.mlkem_correct

/-- What the functions draw, for every byte. -/
def sampleDraws (byte : UInt8) : Draws where
  keypair := Idealised.sampleKeys byte
  encap := (Idealised.sampleBoxDraws byte).kem

/-! ## Calls -/

section Calls

variable {P : Primitives} {bridge : Bridge} {build : Build} {endian : Endian} {draws : Draws}
  {dart : Dart}

theorem expect_readArguments_bind {ε α β : Type} (faithful : bridge.Faithful)
    {codec : Codec α} {arguments : Peer α} (agrees : arguments.Agrees codec) {value : α}
    (own : codec.ReadsBack value) (next : α → Outcome Empty Bytes) (after : Bytes → Outcome ε β) :
    ((readArguments bridge codec (arguments.write value) >>= next).expect >>= after) =
      ((next value).expect >>= after) := by
  rw [readArguments_write faithful agrees own, Outcome.ok_bind]

theorem remote_hybridEncap (faithful : bridge.Faithful) (agrees : dart.Agrees build endian)
    (derives : DerivesArrays P) {peerPublicKey : Bytes} (short : peerPublicKey.length < 2 ^ 31) :
    remote P bridge build endian dart.vecU8 dart.encapResult dart.string draws 3 peerPublicKey =
      hybridEncap P peerPublicKey draws.encap := by
  have own : (vecU8 build endian).ReadsBack peerPublicKey := Codec.readsBack_bytes endian short
  refine (expect_readArguments_bind faithful agrees.vecU8 own _ _).trans
    (receive_transformResult faithful agrees.encapResult agrees.string ?_ ?_)
  · intro result called
    obtain ⟨ciphertext, sharedSecret⟩ := short_of_hybridEncap derives called
    exact readsBack_encapResult ciphertext sharedSecret
  · intro reason failed
    exact readsBack_string (short_of_hybridEncap_error short failed)

theorem remote_hybridDecap (faithful : bridge.Faithful) (agrees : dart.Agrees build endian)
    (derives : DerivesArrays P) {ciphertext privateKey : Bytes}
    (shortCiphertext : ciphertext.length < 2 ^ 31)
    (shortKey : privateKey.length < 2 ^ 31) :
    remote P bridge build endian dart.decapArguments dart.vecU8 dart.string draws 2
        (ciphertext, privateKey) =
      hybridDecap P ciphertext privateKey := by
  have own : (decapArguments build endian).ReadsBack (ciphertext, privateKey) :=
    Codec.readsBack_pair (Codec.readsBack_bytes endian shortCiphertext)
      (Codec.readsBack_bytes endian shortKey)
  refine (expect_readArguments_bind faithful agrees.decapArguments own _ _).trans
    (receive_transformResult faithful agrees.vecU8 agrees.string ?_ ?_)
  · intro secret called
    exact Codec.readsBack_bytes endian (short_of_hybridDecap derives called)
  · intro reason failed
    exact readsBack_string (short_of_hybridDecap_error shortCiphertext shortKey failed)

theorem remote_deriveDmMessageKey (faithful : bridge.Faithful) (agrees : dart.Agrees build endian)
    (derives : DerivesArrays P) {epochSecret : Bytes} (short : epochSecret.length < 2 ^ 31)
    (epoch index : UInt64) :
    remote P bridge build endian dart.messageKeyArguments dart.vecU8 dart.string draws 1
        (epochSecret, epoch, index) =
      deriveDmMessageKey P epochSecret epoch index := by
  have own : (messageKeyArguments build endian).ReadsBack (epochSecret, epoch, index) :=
    Codec.readsBack_pair (Codec.readsBack_bytes endian short)
      (Codec.readsBack_pair (Codec.readsBack_u64 endian epoch) (Codec.readsBack_u64 endian index))
  refine (expect_readArguments_bind faithful agrees.messageKeyArguments own _ _).trans
    (receive_transformResult faithful agrees.vecU8 agrees.string ?_ ?_)
  · intro key called
    exact Codec.readsBack_bytes endian (short_of_deriveDmMessageKey derives called)
  · intro reason failed
    exact readsBack_string (short_of_deriveDmMessageKey_error short failed)

theorem remote_hybridKeypair (faithful : bridge.Faithful) (agrees : dart.Agrees build endian) :
    remote P bridge build endian dart.unit dart.hybridKeyPair dart.unit draws 4 () =
      .ok (hybridKeypair P draws.keypair) := by
  refine (expect_readArguments_bind faithful agrees.unit Codec.readsBack_unit _ _).trans
    (receive_transformResult faithful agrees.hybridKeyPair agrees.unit ?_ ?_)
  · intro pair found
    obtain rfl := Outcome.ok.inj found
    refine readsBack_hybridKeyPair ?_ ?_
    · rw [hybridKeypair, Kem.length_publicKey]
      decide
    · rw [hybridKeypair, Kem.length_privateKey]
      decide
  · intro reason failed
    cases failed

theorem remote_suiteId (faithful : bridge.Faithful) (agrees : dart.Agrees build endian) :
    remote P bridge build endian dart.unit dart.string dart.unit draws 5 () = .ok suiteId := by
  refine (expect_readArguments_bind faithful agrees.unit Codec.readsBack_unit _ _).trans
    (receive_transformResult faithful agrees.string agrees.unit ?_ ?_)
  · intro text found
    obtain rfl := Outcome.ok.inj found
    exact readsBack_string (by decide)
  · intro reason failed
    cases failed

theorem remote_wireSizes (faithful : bridge.Faithful) (agrees : dart.Agrees build endian) :
    remote P bridge build endian dart.unit dart.vecU64 dart.unit draws 6 () = .ok wireSizes := by
  refine (expect_readArguments_bind faithful agrees.unit Codec.readsBack_unit _ _).trans
    (receive_transformResult faithful agrees.vecU64 agrees.unit ?_ ?_)
  · intro sizes found
    obtain rfl := Outcome.ok.inj found
    exact readsBack_vecU64 (by decide)
  · intro reason failed
    cases failed

/-- **A call from Dart.** With arguments that a signed word can count, the call of each
function comes to what the function comes to, the text of its error included. No other
number is a call. -/
theorem remote_calls (faithful : bridge.Faithful) (agrees : dart.Agrees build endian)
    (derives : DerivesArrays P) :
    (∀ epochSecret epoch index, epochSecret.length < 2 ^ 31 →
        remote P bridge build endian dart.messageKeyArguments dart.vecU8 dart.string draws 1
            (epochSecret, epoch, index) =
          deriveDmMessageKey P epochSecret epoch index) ∧
      (∀ ciphertext privateKey, ciphertext.length < 2 ^ 31 → privateKey.length < 2 ^ 31 →
        remote P bridge build endian dart.decapArguments dart.vecU8 dart.string draws 2
            (ciphertext, privateKey) =
          hybridDecap P ciphertext privateKey) ∧
      (∀ peerPublicKey, peerPublicKey.length < 2 ^ 31 →
        remote P bridge build endian dart.vecU8 dart.encapResult dart.string draws 3 peerPublicKey =
          hybridEncap P peerPublicKey draws.encap) ∧
      remote P bridge build endian dart.unit dart.hybridKeyPair dart.unit draws 4 () =
        .ok (hybridKeypair P draws.keypair) ∧
      remote P bridge build endian dart.unit dart.string dart.unit draws 5 () = .ok suiteId ∧
      remote P bridge build endian dart.unit dart.vecU64 dart.unit draws 6 () = .ok wireSizes ∧
      ∀ funcId message, funcId ∉ [1, 2, 3, 4, 5, 6] →
        dispatch P bridge build endian draws funcId message = .panic := by
  refine ⟨?_, ?_, ?_, remote_hybridKeypair faithful agrees, remote_suiteId faithful agrees,
    remote_wireSizes faithful agrees, ?_⟩
  · intro epochSecret epoch index short
    exact remote_deriveDmMessageKey faithful agrees derives short epoch index
  · intro ciphertext privateKey shortCiphertext shortKey
    exact remote_hybridDecap faithful agrees derives shortCiphertext shortKey
  · intro peerPublicKey short
    exact remote_hybridEncap faithful agrees derives short
  · intro funcId message other
    simp only [List.mem_cons, List.not_mem_nil, or_false, not_or] at other
    obtain ⟨first, second, third, fourth, fifth, sixth⟩ := other
    rw [dispatch, if_neg first, if_neg second, if_neg third, if_neg fourth, if_neg fifth,
      if_neg sixth]

/-- An encapsulation to no key at all. -/
theorem remote_calls_refused :
    let build : Build := { overflowChecks := true, pointerWidth := .w64 }
    let dart := mirrored build .little
    remote (arrayed (Idealised.primitives (Idealised.logged []))) flagged build .little
        dart.vecU8 dart.encapResult dart.string (sampleDraws 1) 3 [] =
      .error "hybrid public key must be 1216 bytes, got 0" := by
  intro build dart
  obtain ⟨-, -, encap, -⟩ := @remote_calls _ flagged build .little (sampleDraws 1) dart
    faithful_flagged (agrees_mirrored build .little)
    (derivesArrays_arrayed (Idealised.primitives (Idealised.logged [])))
  exact encap [] (by decide)

/-- **A secret across calls.** Of a key pair from one device the public key goes to another,
of another width and byte order, and the ciphertext comes back. Both devices have the same
secret, of 32 bytes. -/
theorem secret_across_calls {bridge' : Bridge} {build' : Build} {endian' : Endian}
    {draws' : Draws} {dart' : Dart} (faithful : bridge.Faithful) (faithful' : bridge'.Faithful)
    (agrees : dart.Agrees build endian) (agrees' : dart'.Agrees build' endian')
    (derives : DerivesArrays P) (correct : P.KemCorrect) :
    ∃ pair result,
      remote P bridge build endian dart.unit dart.hybridKeyPair dart.unit draws 4 () = .ok pair ∧
      remote P bridge' build' endian' dart'.vecU8 dart'.encapResult dart'.string draws' 3
        pair.publicKey = .ok result ∧
      remote P bridge build endian dart.decapArguments dart.vecU8 dart.string draws 2
        (result.ciphertext, pair.privateKey) = .ok result.sharedSecret ∧
      result.sharedSecret.length = 32 := by
  obtain ⟨ciphertext, shared, encapsulated⟩ :=
    Kem.exists_hybridEncap correct draws.keypair draws'.encap
  have packed : hybridEncap P (hybridKeypair P draws.keypair).publicKey draws'.encap =
      .ok ⟨ciphertext, shared⟩ := hybridEncap_eq_ok.mpr encapsulated
  have opened := Kem.hybridDecap_hybridEncap correct draws.keypair encapsulated
  have publicKey := Kem.length_publicKey P draws.keypair
  have privateKey := Kem.length_privateKey P draws.keypair
  have short := (short_of_hybridEncap derives packed).1
  refine ⟨hybridKeypair P draws.keypair, ⟨ciphertext, shared⟩,
    remote_hybridKeypair faithful agrees, ?_, ?_, ?_⟩
  · rw [remote_hybridEncap faithful' agrees' derives (by rw [hybridKeypair, publicKey]; decide),
      packed]
  · rw [remote_hybridDecap faithful agrees derives short
      (by rw [hybridKeypair, privateKey]; decide), FrbApi.hybridDecap, hybridKeypair, opened,
      Outcome.mapError_ok]
  · obtain ⟨_, _, _, _, -, -, -, derived⟩ := Kem.hybridEncap_eq_ok encapsulated
    rw [derived, Kem.combine, derives]

/-- From a device of 64 bits to one of 32, with the other byte order. -/
theorem secret_across_calls_devices :
    let P := arrayed (Idealised.primitives (Idealised.logged []))
    let build : Build := { overflowChecks := true, pointerWidth := .w64 }
    let build' : Build := { overflowChecks := false, pointerWidth := .w32 }
    let dart := mirrored build .little
    let dart' := mirrored build' .big
    ∃ pair result,
      remote P flagged build .little dart.unit dart.hybridKeyPair dart.unit (sampleDraws 1) 4 () =
        .ok pair ∧
      remote P flagged build' .big dart'.vecU8 dart'.encapResult dart'.string (sampleDraws 2) 3
        pair.publicKey = .ok result ∧
      remote P flagged build .little dart.decapArguments dart.vecU8 dart.string (sampleDraws 1) 2
        (result.ciphertext, pair.privateKey) = .ok result.sharedSecret ∧
      result.sharedSecret.length = 32 := by
  intro P build build' dart dart'
  exact secret_across_calls faithful_flagged faithful_flagged (agrees_mirrored build .little)
    (agrees_mirrored build' .big) (derivesArrays_arrayed _)
    (kemCorrect_arrayed Idealised.kemCorrect)

end Calls

end FrbGenerated
end SkPqc

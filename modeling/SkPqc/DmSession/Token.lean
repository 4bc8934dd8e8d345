import SkPqc.DmSession.Session
import SkPqc.Library.Base64
import SkPqc.Library.Cursor

/-!
# The token of a frame

A frame travels as a text token: a scheme marker, followed by the base64 of its
fields. The nonce, the body and the KAM are preceded by their lengths as `u32`,
and a flag byte tells a frame without a KAM from one with an empty KAM.

The base64 engine is a parameter. When it decodes exactly the canonical
encodings, tokens and frames correspond one to one: a frame whose fields fit
their length prefixes is read back from its token, and an accepted text is the
token of the frame it was read as (`token_codec`).

The lengths are added to an offset before they are compared with the bytes. On
64-bit targets no sum overflows (`readsBelow_wide`), and on 32-bit targets a
declared length can make one overflow, which panics (`fromToken_safe_iff`).
-/

set_option autoImplicit false

namespace SkPqc

open Library

namespace DmSession

/-- The wire marker of a sealed ratchet frame. -/
def pqdrScheme : String := "pqdr1:"

/-! ## Writing -/

/-- The flag byte, and the KAM if there is one. -/
def kamBlob : Option Bytes → Bytes
  | none => [0]
  | some kam => 1 :: (u32ToBe kam.length ++ kam)

/-- The binary layout of a frame. -/
def SealedDmFrame.blob (frame : SealedDmFrame) : Bytes :=
  u64ToBe frame.epoch ++ u64ToBe frame.index ++
    u32ToBe frame.nonce.length ++ frame.nonce ++
    u32ToBe frame.body.length ++ frame.body ++
    kamBlob frame.kam

/-- Serialize a frame to its wire token. -/
def SealedDmFrame.toToken (engine : Base64Engine) (frame : SealedDmFrame) : String :=
  pqdrScheme ++ engine.encode frame.blob

/-! ## Reading -/

section Read

variable (build : Build) (blob : Bytes)

/-- Take the next bytes of the frame. -/
def take (count : Nat) : Method Nat DmSessionError Bytes :=
  takeBytes build (.badToken "truncated frame") blob count

/-- Take a field that is preceded by its length. -/
def takeField : Method Nat DmSessionError Bytes := do
  let length ← take build blob 4
  take build blob (beNat length)

/-- Take the presence flag, and the KAM if there is one. -/
def takeKam : Method Nat DmSessionError (Option Bytes) := do
  let flag ← take build blob 1
  match flag with
  | [0] => return none
  | [1] => do
      let kam ← takeField build blob
      return some kam
  | _ => Method.lift (.error (.badToken
      ("invalid kam presence flag: " ++ toString (beNat flag))))

/-- Read the fields of a frame, up to the end of the bytes. -/
def takeFrame : Method Nat DmSessionError SealedDmFrame := do
  let epoch ← take build blob 8
  let index ← take build blob 8
  let nonce ← takeField build blob
  let body ← takeField build blob
  let kam ← takeKam build blob
  let off ← Method.get
  if off ≠ blob.length then Method.lift (.error (.badToken "trailing bytes after frame"))
  else return {
    epoch := u64FromBe epoch
    index := u64FromBe index
    nonce := nonce
    body := body
    kam := kam }

end Read

/-- The bytes behind the scheme marker. -/
def decodeBody (engine : Base64Engine) (body : String) : Outcome DmSessionError Bytes :=
  match engine.decode (utf8 body) with
  | .ok blob => .ok blob
  | .error reason => .error (.badToken ("invalid base64: " ++ reason))

/-- Parse a token back into a frame. -/
def SealedDmFrame.fromToken (build : Build) (engine : Base64Engine) (token : String) :
    Outcome DmSessionError SealedDmFrame := do
  let body ← Outcome.ofOption (.badToken ("not a " ++ pqdrScheme ++ " token"))
    (stripPrefix pqdrScheme token)
  let blob ← decodeBody engine body
  ((takeFrame build blob).run 0).1

/-! ## A written frame is read back -/

section Written

variable (build : Build) {blob rest : Bytes} {off : Nat}

theorem run_take_of_drop (count : Nat) {chunk : Bytes} (ahead : blob.drop off = chunk ++ rest)
    (inside : off ≤ blob.length) (length : chunk.length = count)
    (small : off + count < 2 ^ build.pointerWidth.bits) :
    (take build blob count).run off = (.ok chunk, off + count) ∧
      blob.drop (off + count) = rest ∧ off + count ≤ blob.length :=
  run_takeBytes_of_drop ahead inside length small

theorem run_takeField_of_drop {field : Bytes}
    (ahead : blob.drop off = u32ToBe field.length ++ (field ++ rest)) (inside : off ≤ blob.length)
    (short : field.length < 2 ^ 32)
    (small : off + (4 + field.length) < 2 ^ build.pointerWidth.bits) :
    (takeField build blob).run off = (.ok field, off + (4 + field.length)) ∧
      blob.drop (off + (4 + field.length)) = rest ∧
      off + (4 + field.length) ≤ blob.length := by
  rw [← Nat.add_assoc] at small ⊢
  obtain ⟨length, ahead, inside⟩ :=
    run_take_of_drop build 4 ahead inside (length_u32ToBe field.length) (by omega)
  obtain ⟨taken, ahead, inside⟩ := run_take_of_drop build field.length ahead inside rfl small
  refine ⟨?_, ahead, inside⟩
  rw [takeField, Method.run_bind_ok length, beNat_u32ToBe short]
  exact taken

theorem run_takeKam_of_drop {kam : Option Bytes} (ahead : blob.drop off = kamBlob kam ++ rest)
    (inside : off ≤ blob.length) (short : ∀ bytes ∈ kam, bytes.length < 2 ^ 32)
    (small : off + (kamBlob kam).length < 2 ^ build.pointerWidth.bits) :
    (takeKam build blob).run off = (.ok kam, off + (kamBlob kam).length) ∧
      blob.drop (off + (kamBlob kam).length) = rest ∧
      off + (kamBlob kam).length ≤ blob.length := by
  cases kam with
  | none =>
      obtain ⟨flag, ahead, inside⟩ := run_take_of_drop build 1 ahead inside rfl small
      refine ⟨?_, ahead, inside⟩
      rw [takeKam, Method.run_bind_ok flag]
      rfl
  | some bytes =>
      have layout : kamBlob (some bytes) = [1] ++ (u32ToBe bytes.length ++ bytes) := rfl
      have length : off + (kamBlob (some bytes)).length = off + 1 + (4 + bytes.length) := by
        simp only [layout, List.length_append, length_u32ToBe, List.length_singleton]
        omega
      rw [layout, List.append_assoc, List.append_assoc] at ahead
      rw [length] at small ⊢
      obtain ⟨flag, ahead, inside⟩ := run_take_of_drop build 1 ahead inside rfl (by omega)
      obtain ⟨field, ahead, inside⟩ :=
        run_takeField_of_drop build ahead inside (short bytes rfl) small
      refine ⟨?_, ahead, inside⟩
      rw [takeKam, Method.run_bind_ok flag]
      change (takeField build blob >>= fun kam => pure (some kam)).run (off + 1) = _
      rw [Method.run_bind_ok field]
      rfl

theorem length_kamBlob_lt {kam : Option Bytes} (short : ∀ bytes ∈ kam, bytes.length < 2 ^ 32) :
    (kamBlob kam).length < 2 ^ 33 := by
  cases kam with
  | none => simp [kamBlob]
  | some bytes =>
      have small := short bytes rfl
      simp only [kamBlob, List.length_cons, List.length_append, length_u32ToBe]
      omega

/-- A written frame is read back as it was. -/
theorem run_takeFrame_blob (wide : build.pointerWidth = .w64) {frame : SealedDmFrame}
    (nonceShort : frame.nonce.length < 2 ^ 32) (bodyShort : frame.body.length < 2 ^ 32)
    (kamShort : ∀ kam ∈ frame.kam, kam.length < 2 ^ 32) :
    ((takeFrame build frame.blob).run 0).1 = .ok frame := by
  have kamSmall := length_kamBlob_lt kamShort
  have bits : 2 ^ build.pointerWidth.bits = 2 ^ 64 := by rw [wide]; rfl
  have ahead : frame.blob.drop 0 = u64ToBe frame.epoch ++ (u64ToBe frame.index ++
      (u32ToBe frame.nonce.length ++ (frame.nonce ++
        (u32ToBe frame.body.length ++ (frame.body ++ (kamBlob frame.kam ++ [])))))) := by
    simp only [List.drop_zero, SealedDmFrame.blob, List.append_assoc, List.append_nil]
  obtain ⟨epoch, ahead, inside⟩ :=
    run_take_of_drop build 8 ahead (Nat.zero_le _) (length_u64ToBe _) (by omega)
  obtain ⟨index, ahead, inside⟩ :=
    run_take_of_drop build 8 ahead inside (length_u64ToBe _) (by omega)
  obtain ⟨nonce, ahead, inside⟩ := run_takeField_of_drop build ahead inside nonceShort (by omega)
  obtain ⟨body, ahead, inside⟩ := run_takeField_of_drop build ahead inside bodyShort (by omega)
  obtain ⟨kam, ahead, inside⟩ := run_takeKam_of_drop build ahead inside kamShort (by omega)
  rw [takeFrame, Method.run_bind_ok epoch, Method.run_bind_ok index, Method.run_bind_ok nonce,
    Method.run_bind_ok body, Method.run_bind_ok kam, Method.run_get_bind,
    if_neg (not_not.mpr (Nat.le_antisymm inside (List.drop_eq_nil_iff.mp ahead))),
    u64FromBe_u64ToBe, u64FromBe_u64ToBe]
  rfl

end Written

/-! ## A frame that is read was written so -/

section Accepted

variable {build : Build} {blob : Bytes} {off stop : Nat}

theorem run_take_eq_ok {count : Nat} {chunk : Bytes} (inside : off ≤ blob.length)
    (below : off < 2 ^ build.pointerWidth.bits) (small : count < 2 ^ 32)
    (taken : (take build blob count).run off = (.ok chunk, stop)) :
    chunk.length = count ∧ stop = off + count ∧ stop ≤ blob.length ∧
      stop < 2 ^ build.pointerWidth.bits ∧ blob.drop off = chunk ++ blob.drop stop :=
  run_takeBytes_eq_ok inside below (build.word_of_u32 small) taken

theorem run_takeField_eq_ok {field : Bytes} (inside : off ≤ blob.length)
    (below : off < 2 ^ build.pointerWidth.bits)
    (taken : (takeField build blob).run off = (.ok field, stop)) :
    field.length < 2 ^ 32 ∧ stop ≤ blob.length ∧ stop < 2 ^ build.pointerWidth.bits ∧
      blob.drop off = u32ToBe field.length ++ field ++ blob.drop stop := by
  obtain ⟨length, middle, lengthTaken, fieldTaken⟩ := Method.run_bind_eq_ok.mp taken
  obtain ⟨four, -, inside', below', ahead⟩ :=
    run_take_eq_ok inside below (by decide) lengthTaken
  have short := beNat_lt_of_four four
  obtain ⟨fieldLength, -, inside'', below'', ahead'⟩ :=
    run_take_eq_ok inside' below' short fieldTaken
  rw [fieldLength]
  refine ⟨short, inside'', below'', ?_⟩
  rw [ahead, ahead', u32ToBe_beNat four, List.append_assoc]

theorem run_takeKam_eq_ok {kam : Option Bytes} (inside : off ≤ blob.length)
    (below : off < 2 ^ build.pointerWidth.bits)
    (taken : (takeKam build blob).run off = (.ok kam, stop)) :
    (∀ bytes ∈ kam, bytes.length < 2 ^ 32) ∧ blob.drop off = kamBlob kam ++ blob.drop stop := by
  obtain ⟨flag, middle, flagTaken, rest⟩ := Method.run_bind_eq_ok.mp taken
  obtain ⟨-, -, inside', below', ahead⟩ := run_take_eq_ok inside below (by decide) flagTaken
  split at rest
  · cases rest
    refine ⟨?_, ahead⟩
    intro bytes impossible
    cases impossible
  · obtain ⟨field, middle, fieldTaken, done⟩ := Method.run_bind_eq_ok.mp rest
    obtain ⟨short, -, -, ahead'⟩ := run_takeField_eq_ok inside' below' fieldTaken
    cases done
    constructor
    · rintro _ ⟨⟩
      exact short
    · rw [ahead, ahead']
      simp only [kamBlob, List.cons_append, List.nil_append, List.append_assoc]
  · cases rest

/-- The fields of a frame fit their length prefixes, and tile the bytes. -/
structure SealedDmFrame.Tiles (frame : SealedDmFrame) (blob : Bytes) : Prop where
  nonce : frame.nonce.length < 2 ^ 32
  body : frame.body.length < 2 ^ 32
  kam : ∀ kam ∈ frame.kam, kam.length < 2 ^ 32
  layout : frame.blob = blob

/-- A frame that was read has the layout of the bytes it was read from, on every
build. -/
theorem run_takeFrame_eq_ok {frame : SealedDmFrame}
    (taken : ((takeFrame build blob).run 0).1 = .ok frame) : frame.Tiles blob := by
  have below : 0 < 2 ^ build.pointerWidth.bits := Nat.two_pow_pos _
  obtain ⟨epoch, _, epochTaken, rest⟩ :=
    Method.run_bind_eq_ok.mp (Prod.ext taken rfl : (takeFrame build blob).run 0 = (_, _))
  obtain ⟨index, _, indexTaken, rest⟩ := Method.run_bind_eq_ok.mp rest
  obtain ⟨nonce, _, nonceTaken, rest⟩ := Method.run_bind_eq_ok.mp rest
  obtain ⟨body, _, bodyTaken, rest⟩ := Method.run_bind_eq_ok.mp rest
  obtain ⟨kam, finish, kamTaken, checked⟩ := Method.run_bind_eq_ok.mp rest
  obtain ⟨epochLength, -, inside, below, ahead⟩ :=
    run_take_eq_ok (Nat.zero_le _) below (by decide) epochTaken
  obtain ⟨indexLength, -, inside, below, ahead₁⟩ :=
    run_take_eq_ok inside below (by decide) indexTaken
  obtain ⟨nonceShort, inside, below, ahead₂⟩ := run_takeField_eq_ok inside below nonceTaken
  obtain ⟨bodyShort, inside, below, ahead₃⟩ := run_takeField_eq_ok inside below bodyTaken
  obtain ⟨kamShort, ahead₄⟩ := run_takeKam_eq_ok inside below kamTaken
  rw [Method.run_get_bind] at checked
  split at checked
  · cases checked
  · rename_i finished
    cases checked
    refine ⟨nonceShort, bodyShort, kamShort, ?_⟩
    rw [List.drop_zero, ahead₁, ahead₂, ahead₃, ahead₄,
      List.drop_of_length_le (Nat.le_of_eq (not_not.mp finished).symm)] at ahead
    rw [ahead]
    simp only [SealedDmFrame.blob, u64ToBe_u64FromBe epochLength, u64ToBe_u64FromBe indexLength,
      List.append_assoc, List.append_nil]

end Accepted

/-! ## Reading fails cleanly -/

section Rejected

variable {build : Build} {blob : Bytes} {off : Nat}

/-- The error of a malformed token. -/
def IsBadToken (reason : DmSessionError) : Prop := ∃ why, reason = .badToken why

theorem failsAs_take (count : Nat) : FailsAs IsBadToken (take build blob count) :=
  FailsAs.takeBytes build blob count ⟨_, rfl⟩

theorem failsAs_takeField : FailsAs IsBadToken (takeField build blob) :=
  (failsAs_take 4).bind fun length => failsAs_take (beNat length)

theorem failsAs_takeKam : FailsAs IsBadToken (takeKam build blob) := by
  refine (failsAs_take 1).bind fun flag => ?_
  split
  · exact FailsAs.pure none
  · exact failsAs_takeField.bind fun kam => FailsAs.pure (some kam)
  · exact FailsAs.lift_error ⟨_, rfl⟩

/-- Reading fails with the error of a malformed token, if it fails. -/
theorem failsAs_takeFrame : FailsAs IsBadToken (takeFrame build blob) := by
  refine (failsAs_take 8).bind fun epoch => ?_
  refine (failsAs_take 8).bind fun index => ?_
  refine failsAs_takeField.bind fun nonce => ?_
  refine failsAs_takeField.bind fun body => ?_
  refine failsAs_takeKam.bind fun kam => ?_
  refine FailsAs.get.bind fun off => ?_
  split
  · exact FailsAs.lift_error ⟨_, rfl⟩
  · exact FailsAs.pure _

/-! ### The reads of a frame -/

/-- The length that is declared at an offset. -/
def lengthAt (blob : Bytes) (off : Nat) : Nat := beNat ((blob.drop off).take 4)

/-- The end of a field whose length is declared at an offset. -/
def fieldEnd (blob : Bytes) (off : Nat) : Nat := off + 4 + lengthAt blob off

/-- The ends of the reads that a field at an offset takes. -/
def fieldEnds (blob : Bytes) (off : Nat) : List Nat := [off + 4, fieldEnd blob off]

/-- The ends of the reads that a KAM at an offset takes. -/
def kamEnds (blob : Bytes) (off : Nat) : List Nat :=
  (off + 1) :: if (blob.drop off).take 1 = [1] then fieldEnds blob (off + 1) else []

/-- The ends of all reads of a frame, by the lengths that the bytes declare. -/
def readEnds (blob : Bytes) : List Nat :=
  let bodyStart := fieldEnd blob 16
  [8, 16] ++ fieldEnds blob 16 ++ fieldEnds blob bodyStart ++
    kamEnds blob (fieldEnd blob bodyStart)

theorem lengthAt_lt (blob : Bytes) (off : Nat) : lengthAt blob off < 2 ^ 32 := by
  have bound := beNat_lt ((blob.drop off).take 4)
  have short : ((blob.drop off).take 4).length ≤ 4 := List.length_take_le _ _
  have grows : 256 ^ ((blob.drop off).take 4).length ≤ 256 ^ 4 :=
    Nat.pow_le_pow_right (by decide) short
  exact bound.trans_le grows

theorem fieldEnd_lt (blob : Bytes) (off : Nat) : fieldEnd blob off < off + 4 + 2 ^ 32 :=
  Nat.add_lt_add_left (lengthAt_lt blob off) (off + 4)

theorem le_of_mem_fieldEnds {blob : Bytes} {off stop : Nat} (found : stop ∈ fieldEnds blob off) :
    stop ≤ fieldEnd blob off := by
  simp only [fieldEnds, List.mem_cons, List.not_mem_nil, or_false] at found
  rcases found with rfl | rfl
  · exact Nat.le_add_right _ _
  · exact Nat.le_refl _

theorem le_of_mem_kamEnds {blob : Bytes} {off stop : Nat} (found : stop ∈ kamEnds blob off) :
    stop ≤ fieldEnd blob (off + 1) := by
  rcases List.mem_cons.mp found with rfl | found
  · rw [fieldEnd]
    omega
  · split at found
    · exact le_of_mem_fieldEnds found
    · cases found

/-- Three declared lengths do not add up to a word of 64 bits. -/
theorem readsBelow_wide (blob : Bytes) : ReadsBelow (2 ^ 64) blob.length (readEnds blob) := by
  have nonce := fieldEnd_lt blob 16
  have body := fieldEnd_lt blob (fieldEnd blob 16)
  have kam := fieldEnd_lt blob (fieldEnd blob (fieldEnd blob 16) + 1)
  apply readsBelow_of_forall
  intro stop found
  simp only [readEnds, List.mem_append, List.mem_cons, List.not_mem_nil, or_false] at found
  rcases found with ((fixed | field) | field) | field
  · omega
  · have bound := le_of_mem_fieldEnds field
    omega
  · have bound := le_of_mem_fieldEnds field
    omega
  · have bound := le_of_mem_kamEnds field
    omega

section Reads

variable {α : Type} {stops : List Nat}

theorem readsAs_take_bind {count : Nat} {next : Bytes → Method Nat DmSessionError α}
    (small : count < 2 ^ 32)
    (rest : ReadsAs build blob (off + count) (next ((blob.drop off).take count)) stops) :
    ReadsAs build blob off (take build blob count >>= next) ((off + count) :: stops) :=
  ReadsAs.takeBytes_bind (build.word_of_u32 small) rest

theorem readsAs_takeField_bind {next : Bytes → Method Nat DmSessionError α}
    (rest : ∀ field, ReadsAs build blob (fieldEnd blob off) (next field) stops) :
    ReadsAs build blob off (takeField build blob >>= next) (fieldEnds blob off ++ stops) := by
  rw [takeField, Method.bind_assoc]
  apply readsAs_take_bind (by decide)
  exact readsAs_take_bind (lengthAt_lt blob off) (rest _)

theorem readsAs_takeKam_bind {next : Option Bytes → Method Nat DmSessionError α}
    (safe : ∀ kam off, ((next kam).run off).1 ≠ .panic) :
    ReadsAs build blob off (takeKam build blob >>= next) (kamEnds blob off) := by
  rw [takeKam, Method.bind_assoc]
  apply readsAs_take_bind (by decide)
  split
  · rename_i absent
    rw [if_neg (by rw [absent]; decide)]
    exact ReadsAs.nil (safe none _)
  · rename_i present
    rw [if_pos present, ← List.append_nil (fieldEnds blob (off + 1)), Method.bind_assoc]
    exact readsAs_takeField_bind fun field => ReadsAs.nil (safe (some field) _)
  · rename_i absent present
    rw [if_neg present]
    apply ReadsAs.nil
    simp

/-- **Where reading a frame panics.** -/
theorem run_takeFrame_ne_panic (build : Build) (blob : Bytes) :
    ((takeFrame build blob).run 0).1 ≠ .panic ↔
      ReadsBelow (2 ^ build.pointerWidth.bits) blob.length (readEnds blob) := by
  have reads : ReadsAs build blob 0 (takeFrame build blob) (readEnds blob) := by
    apply readsAs_take_bind (by decide)
    apply readsAs_take_bind (by decide)
    apply readsAs_takeField_bind
    intro nonce
    apply readsAs_takeField_bind
    intro body
    apply readsAs_takeKam_bind
    intro kam off
    rw [Method.run_get_bind]
    split
    · simp
    · simp
  exact reads (Nat.zero_le _) (Nat.two_pow_pos _)

end Reads

end Rejected

/-! ## The codec -/

section Codec

variable {build : Build} {engine : Base64Engine}

/-- Parsing a token that has the scheme and decodes. -/
theorem fromToken_of_decode {token body : String} {blob : Bytes}
    (scheme : token = pqdrScheme ++ body) (decoded : engine.decode (utf8 body) = .ok blob) :
    SealedDmFrame.fromToken build engine token = ((takeFrame build blob).run 0).1 := by
  simp only [SealedDmFrame.fromToken, stripPrefix_eq_some.mpr scheme, Outcome.ofOption_some,
    Outcome.ok_bind, decodeBody, decoded]

/-- A token that parses has the scheme, and decodes to bytes that a frame is read
from. -/
theorem fromToken_eq_ok {token : String} {frame : SealedDmFrame}
    (parsed : SealedDmFrame.fromToken build engine token = .ok frame) :
    ∃ body blob, token = pqdrScheme ++ body ∧ engine.decode (utf8 body) = .ok blob ∧
      ((takeFrame build blob).run 0).1 = .ok frame := by
  obtain ⟨body, stripped, rest⟩ := Outcome.bind_eq_ok.mp parsed
  have scheme := stripPrefix_eq_some.mp (Outcome.ofOption_eq_ok.mp stripped)
  obtain ⟨blob, decoded, taken⟩ := Outcome.bind_eq_ok.mp rest
  refine ⟨body, blob, scheme, ?_, taken⟩
  unfold decodeBody at decoded
  split at decoded
  · rename_i found
    rw [found, Outcome.ok.inj decoded]
  · cases decoded

/-- What a token declares: the bytes behind its scheme marker, when they decode. -/
def Decodes (engine : Base64Engine) (token : String) (blob : Bytes) : Prop :=
  ∃ body, token = pqdrScheme ++ body ∧ engine.decode (utf8 body) = .ok blob

/-- Parsing a token without the scheme, or one that does not decode. -/
theorem fromToken_of_not_decodes {token : String} (foreign : ∀ blob, ¬ Decodes engine token blob) :
    ∃ why, SealedDmFrame.fromToken build engine token = .error (.badToken why) := by
  cases stripped : stripPrefix pqdrScheme token with
  | none =>
      refine ⟨"not a " ++ pqdrScheme ++ " token", ?_⟩
      simp only [SealedDmFrame.fromToken, stripped, Outcome.ofOption_none, Outcome.error_bind]
  | some body =>
      cases decoded : engine.decode (utf8 body) with
      | error reason =>
          refine ⟨"invalid base64: " ++ reason, ?_⟩
          simp only [SealedDmFrame.fromToken, stripped, Outcome.ofOption_some, Outcome.ok_bind,
            decodeBody, decoded, Outcome.error_bind]
      | ok blob =>
          exact absurd ⟨body, stripPrefix_eq_some.mp stripped, decoded⟩ (foreign blob)

/-- Parsing returns a frame, fails with the error of a malformed token, or panics. -/
theorem fromToken_cases (token : String) :
    (∃ frame, SealedDmFrame.fromToken build engine token = .ok frame) ∨
      (∃ why, SealedDmFrame.fromToken build engine token = .error (.badToken why)) ∨
      ∃ blob, Decodes engine token blob ∧ SealedDmFrame.fromToken build engine token = .panic ∧
        ¬ ReadsBelow (2 ^ build.pointerWidth.bits) blob.length (readEnds blob) := by
  by_cases found : ∃ blob, Decodes engine token blob
  · obtain ⟨blob, body, scheme, decoded⟩ := found
    have safe := run_takeFrame_ne_panic build blob
    rw [fromToken_of_decode scheme decoded]
    rcases read : (takeFrame build blob).run 0 with ⟨outcome, off⟩
    rw [read] at safe
    cases outcome with
    | ok frame => exact .inl ⟨frame, rfl⟩
    | error reason =>
        obtain ⟨why, rfl⟩ := failsAs_takeFrame 0 reason off read
        exact .inr (.inl ⟨why, rfl⟩)
    | panic =>
        refine .inr (.inr ⟨blob, ⟨body, scheme, decoded⟩, rfl, ?_⟩)
        exact fun below => safe.mpr below rfl
  · obtain ⟨why, failed⟩ :
        ∃ why, SealedDmFrame.fromToken build engine token = .error (.badToken why) :=
      fromToken_of_not_decodes (not_exists.mp found)
    exact .inr (.inl ⟨why, failed⟩)

/-- A frame whose fields fit their length prefixes is read back from its token. -/
theorem fromToken_toToken (wide : build.pointerWidth = .w64) (canonical : engine.Canonical)
    {frame : SealedDmFrame} (nonceShort : frame.nonce.length < 2 ^ 32)
    (bodyShort : frame.body.length < 2 ^ 32) (kamShort : ∀ kam ∈ frame.kam, kam.length < 2 ^ 32) :
    SealedDmFrame.fromToken build engine (frame.toToken engine) = .ok frame := by
  have decoded := (canonical (utf8 (engine.encode frame.blob)) frame.blob).mpr rfl
  rw [SealedDmFrame.toToken, fromToken_of_decode rfl decoded]
  exact run_takeFrame_blob build wide nonceShort bodyShort kamShort

/-- An accepted text is the token of the frame it was read as. -/
theorem toToken_of_fromToken (canonical : engine.Canonical)
    {token : String} {frame : SealedDmFrame}
    (parsed : SealedDmFrame.fromToken build engine token = .ok frame) :
    frame.toToken engine = token := by
  obtain ⟨body, blob, rfl, decoded, taken⟩ := fromToken_eq_ok parsed
  have body' := utf8_injective ((canonical _ _).mp decoded)
  rw [SealedDmFrame.toToken, (run_takeFrame_eq_ok taken).layout, body']

/-- **Tokens and frames correspond one to one.** A frame whose fields fit their
length prefixes is read back from its token; an accepted text is the token of
the frame it was read as; and a text that is no token is rejected. -/
theorem token_codec (wide : build.pointerWidth = .w64) (canonical : engine.Canonical) :
    (∀ frame : SealedDmFrame, frame.nonce.length < 2 ^ 32 → frame.body.length < 2 ^ 32 →
        (∀ kam ∈ frame.kam, kam.length < 2 ^ 32) →
        SealedDmFrame.fromToken build engine (frame.toToken engine) = .ok frame) ∧
      (∀ (token : String) (frame : SealedDmFrame),
        SealedDmFrame.fromToken build engine token = .ok frame →
        frame.toToken engine = token) ∧
      ∀ token : String, (∀ frame : SealedDmFrame, token ≠ frame.toToken engine) →
        ∃ why, SealedDmFrame.fromToken build engine token = .error (.badToken why) := by
  refine ⟨?_, ?_, ?_⟩
  · intro frame nonceShort bodyShort kamShort
    exact fromToken_toToken wide canonical nonceShort bodyShort kamShort
  · intro token frame parsed
    exact toToken_of_fromToken canonical parsed
  · intro token foreign
    rcases fromToken_cases token with ⟨frame, parsed⟩ | rejected | ⟨blob, -, -, beyond⟩
    · exact absurd (toToken_of_fromToken canonical parsed).symm (foreign frame)
    · exact rejected
    · rw [wide] at beyond
      exact absurd (readsBelow_wide blob) beyond

/-- The codec on 64-bit targets, with the engine of the standard alphabet: a frame
with an empty KAM is not confused with one that has none. -/
theorem token_codec_standard :
    let build : Build := ⟨true, .w64⟩
    let engine := Base64.padded Base64.standard
    let frame : SealedDmFrame := ⟨7, 2, List.replicate 12 0xff, [1, 2, 3], some []⟩
    SealedDmFrame.fromToken build engine (frame.toToken engine) = .ok frame ∧
      ∀ other : SealedDmFrame, SealedDmFrame.fromToken build engine (frame.toToken engine) =
        .ok other → other.toToken engine = frame.toToken engine := by
  intro build engine frame
  obtain ⟨reads, accepted, -⟩ :=
    @token_codec build engine rfl (Base64.padded_canonical Base64.standard)
  exact ⟨reads frame (by decide) (by decide) (by decide), accepted _⟩

/-! ### Every build -/

/-- **When a token is read safely.** On every build, parsing returns a frame that tiles the
decoded bytes, or the error of a malformed token, exactly when no read of the frame
ends beyond the machine word. -/
theorem fromToken_safe_iff (build : Build) (engine : Base64Engine) (token : String) :
    (((∃ frame, SealedDmFrame.fromToken build engine token = .ok frame) ∨
        ∃ why, SealedDmFrame.fromToken build engine token = .error (.badToken why)) ∧
      ∀ frame, SealedDmFrame.fromToken build engine token = .ok frame →
        ∃ blob, Decodes engine token blob ∧ frame.Tiles blob) ↔
    ∀ blob, Decodes engine token blob →
      ReadsBelow (2 ^ build.pointerWidth.bits) blob.length (readEnds blob) := by
  constructor
  · rintro ⟨returns, -⟩ blob ⟨body, scheme, decoded⟩
    rw [fromToken_of_decode scheme decoded] at returns
    apply (run_takeFrame_ne_panic build blob).mp
    intro panicked
    rw [panicked] at returns
    rcases returns with ⟨frame, impossible⟩ | ⟨why, impossible⟩
    · cases impossible
    · cases impossible
  · intro below
    constructor
    · rcases @fromToken_cases build _ token with parsed | failed | ⟨blob, found, -, beyond⟩
      · exact .inl parsed
      · exact .inr failed
      · exact absurd (below blob found) beyond
    · intro frame parsed
      obtain ⟨body, blob, scheme, decoded, taken⟩ := fromToken_eq_ok parsed
      exact ⟨blob, ⟨body, scheme, decoded⟩, run_takeFrame_eq_ok taken⟩

/-- A frame that declares a nonce of 2³² − 1 bytes. -/
def endlessNonce : Bytes := List.replicate 16 0 ++ [0xff, 0xff, 0xff, 0xff]

/-- On 32-bit targets a decoded frame that declares it panics. -/
theorem run_takeFrame_endlessNonce (overflowChecks : Bool) :
    ((takeFrame ⟨overflowChecks, .w32⟩ endlessNonce).run 0).1 = .panic := by
  by_contra safe
  have below : ReadsBelow (2 ^ 32) endlessNonce.length (readEnds endlessNonce) :=
    (run_takeFrame_ne_panic ⟨overflowChecks, .w32⟩ endlessNonce).mp safe
  exact absurd below (by decide)

/-- **On 32-bit targets a token panics**, whether overflow is checked or not. -/
theorem fromToken_panics_endless :
    let engine := Base64.padded Base64.standard
    let token := pqdrScheme ++ engine.encode endlessNonce
    SealedDmFrame.fromToken ⟨true, .w32⟩ engine token = .panic ∧
      SealedDmFrame.fromToken ⟨false, .w32⟩ engine token = .panic := by
  intro engine token
  have decoded : engine.decode (utf8 (engine.encode endlessNonce)) = .ok endlessNonce :=
    (Base64.padded_canonical Base64.standard _ _).mpr rfl
  rw [fromToken_of_decode rfl decoded, fromToken_of_decode rfl decoded]
  exact ⟨run_takeFrame_endlessNonce true, run_takeFrame_endlessNonce false⟩

end Codec

end DmSession
end SkPqc

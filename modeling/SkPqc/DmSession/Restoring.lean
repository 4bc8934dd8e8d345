import SkPqc.DmSession.Snapshot

/-!
# What restoring reads

Restoring takes a snapshot field by field. A required field has one reading, or the
snapshot is refused: the snapshots that are accepted are described by `Accepted`, and what
they rebuild by `Rebuilds` (`restore_eq_ok`, `exists_restore_iff`).

Three fields are read more loosely. Epoch secrets that are not an object count as none, and a
KAM that is not a string counts as none. The store keeps one secret for an epoch, whatever
the number of keys that spell it. And a start time is rounded to a float. So an accepted
snapshot is rebuilt as written exactly when nothing was dropped in these ways
(`restore_asWritten_iff`).
-/

set_option autoImplicit false

namespace SkPqc

open Library Library.Json Ratchet

namespace DmSession

/-! ## Reading the fields -/

/-- A member of the epoch secrets spells an entry of the store. -/
def Spells (member : String × Value) (entry : UInt64 × EpochSecret) : Prop :=
  parseU64 member.1 = some entry.1 ∧
    ∃ text, member.2 = .string text ∧ hexDecode text = some entry.2.val

/-- The members that secrets are read from. -/
def readMembers (snap : Value) : List (String × Value) :=
  ((snap.get "epoch_secrets").bind Value.asObject).getD []

/-- A captured ratchet is read as a ratchet of the session. -/
structure Loads (session : DmSession) (rt : Value) (ratchet : DmRatchet) : Prop where
  epoch : rt.get "epoch" = some (.number (.posInt ratchet.epoch))
  messageIndex : rt.get "message_index" = some (.number (.posInt ratchet.messageIndex))
  epochStartedAt : (rt.get "epoch_started_at").bind Value.asF64 = some ratchet.epochStartedAt
  stored : session.epochSecrets[ratchet.epoch]? = some ratchet.epochSecret
  msgBound : ratchet.rekeyMsgBound = session.rekeyMsgBound
  ageBound : ratchet.rekeyAgeSeconds = session.rekeyAgeSeconds

/-- There is no captured ratchet. -/
def NoRatchet (snap : Value) : Prop :=
  snap.get "ratchet" = none ∨ snap.get "ratchet" = some .null

/-- A snapshot is rebuilt as a session. -/
structure Rebuilds (snap : Value) (session : DmSession) : Prop where
  peer : snap.get "peer" = some (.string session.peer)
  rekeyMsgBound : snap.get "rekey_msg_bound" = some (.number (.posInt session.rekeyMsgBound))
  rekeyAgeSeconds :
    snap.get "rekey_age_seconds" = some (.number (.posInt session.rekeyAgeSeconds))
  epochSecrets : restoreSecrets ∅ (readMembers snap) = .ok session.epochSecrets
  currentKam : restoreKam snap = .ok session.currentKam
  ratchet : NoRatchet snap ∧ session.ratchet = none ∨
    ∃ rt ratchet, snap.get "ratchet" = some rt ∧ rt ≠ .null ∧ session.ratchet = some ratchet ∧
      Loads session rt ratchet

section

variable {snap : Value} {session : DmSession}

theorem bind_asStr_eq_some {found : Option Value} {text : String} :
    found.bind Value.asStr = some text ↔ found = some (.string text) := by
  cases found with
  | none => simp
  | some value => cases value <;> simp [Value.asStr]

theorem bind_asU64_eq_some {found : Option Value} {number : UInt64} :
    found.bind Value.asU64 = some number ↔ found = some (.number (.posInt number)) := by
  cases found with
  | none => simp
  | some value =>
      cases value with
      | number held => cases held <;> simp [Value.asU64]
      | _ => simp [Value.asU64]

/-- A captured ratchet is read exactly when it loads. -/
theorem restoreRatchet_eq_ok {rt : Value} {ratchet : DmRatchet} :
    restoreRatchet session rt = .ok ratchet ↔ Loads session rt ratchet := by
  constructor
  · intro restored
    obtain ⟨epoch, readEpoch, restored⟩ := Outcome.bind_eq_ok.mp restored
    obtain ⟨messageIndex, readIndex, restored⟩ := Outcome.bind_eq_ok.mp restored
    obtain ⟨startedAt, readStart, restored⟩ := Outcome.bind_eq_ok.mp restored
    obtain ⟨secret, found, restored⟩ := Outcome.bind_eq_ok.mp restored
    obtain rfl := Outcome.ok.inj restored
    exact
      { epoch := bind_asU64_eq_some.mp (Outcome.ofOption_eq_ok.mp readEpoch)
        messageIndex := bind_asU64_eq_some.mp (Outcome.ofOption_eq_ok.mp readIndex)
        epochStartedAt := Outcome.ofOption_eq_ok.mp readStart
        stored := Outcome.ofOption_eq_ok.mp found
        msgBound := rfl
        ageBound := rfl }
  · intro loads
    simp only [restoreRatchet, loads.epoch, loads.messageIndex, loads.epochStartedAt,
      loads.stored, Option.bind_some, Value.asU64_posInt, Outcome.ofOption_some,
      Outcome.ok_bind, Outcome.pure_eq, ← loads.msgBound, ← loads.ageBound]

/-- The session that the ratchet is read into. -/
def withoutRatchet (peer : String) (rekeyMsgBound rekeyAgeSeconds : UInt64)
    (epochSecrets : Std.ExtTreeMap UInt64 EpochSecret) (currentKam : Option Bytes) : DmSession :=
  { withBounds peer rekeyMsgBound rekeyAgeSeconds with
    epochSecrets := epochSecrets
    currentKam := currentKam }

/-- Restoring, with the secrets of an absent object read as none. -/
theorem restore_eq (snap : Value) :
    restore snap = (do
      let peer ← Outcome.ofOption (badSnapshot "missing peer")
        ((snap.get "peer").bind Value.asStr)
      let rekeyMsgBound ← Outcome.ofOption (badSnapshot "missing rekey_msg_bound")
        ((snap.get "rekey_msg_bound").bind Value.asU64)
      let rekeyAgeSeconds ← Outcome.ofOption (badSnapshot "missing rekey_age_seconds")
        ((snap.get "rekey_age_seconds").bind Value.asU64)
      let epochSecrets ← restoreSecrets ∅ (readMembers snap)
      let currentKam ← restoreKam snap
      let session := withoutRatchet peer rekeyMsgBound rekeyAgeSeconds epochSecrets currentKam
      match snap.get "ratchet" with
      | none => .ok session
      | some .null => .ok session
      | some rt => do
          let ratchet ← restoreRatchet session rt
          return { session with ratchet := some ratchet }) := by
  unfold restore readMembers
  cases (snap.get "epoch_secrets").bind Value.asObject <;> rfl

/-- The last step: the captured ratchet, if there is one. -/
theorem restoreLast_eq_ok {before : DmSession} :
    (match snap.get "ratchet" with
      | none => Outcome.ok before
      | some .null => Outcome.ok before
      | some rt => do
          let ratchet ← restoreRatchet before rt
          return { before with ratchet := some ratchet }) = .ok session ↔
      NoRatchet snap ∧ session = before ∨
        ∃ rt ratchet, snap.get "ratchet" = some rt ∧ rt ≠ .null ∧
          session = { before with ratchet := some ratchet } ∧ Loads before rt ratchet := by
  split
  · rename_i absent
    simp [NoRatchet, absent, eq_comm]
  · rename_i empty
    simp [NoRatchet, empty, eq_comm]
  · rename_i rt nonNull captured
    have present : ¬ NoRatchet snap := by
      rintro (absent | empty)
      · rw [captured] at absent
        cases absent
      · rw [captured] at empty
        exact nonNull (Option.some.inj empty)
    constructor
    · intro restored
      obtain ⟨ratchet, loaded, restored⟩ := Outcome.bind_eq_ok.mp restored
      exact .inr ⟨rt, ratchet, captured, nonNull, (Outcome.ok.inj restored).symm,
        restoreRatchet_eq_ok.mp loaded⟩
    · rintro (⟨absent, _⟩ | ⟨_, ratchet, captured', _, rfl, loads⟩)
      · exact absurd absent present
      · obtain rfl := Option.some.inj (captured.symm.trans captured')
        rw [restoreRatchet_eq_ok.mpr loads]
        rfl

/-- **What a snapshot is rebuilt as.** -/
theorem restore_eq_ok : restore snap = .ok session ↔ Rebuilds snap session := by
  rw [restore_eq]
  constructor
  · intro restored
    obtain ⟨peer, readPeer, restored⟩ := Outcome.bind_eq_ok.mp restored
    obtain ⟨msgBound, readMsgBound, restored⟩ := Outcome.bind_eq_ok.mp restored
    obtain ⟨ageBound, readAgeBound, restored⟩ := Outcome.bind_eq_ok.mp restored
    obtain ⟨secrets, readSecrets, restored⟩ := Outcome.bind_eq_ok.mp restored
    obtain ⟨kam, readKam, restored⟩ := Outcome.bind_eq_ok.mp restored
    have last := restoreLast_eq_ok.mp restored
    have peer' := bind_asStr_eq_some.mp (Outcome.ofOption_eq_ok.mp readPeer)
    have msgBound' := bind_asU64_eq_some.mp (Outcome.ofOption_eq_ok.mp readMsgBound)
    have ageBound' := bind_asU64_eq_some.mp (Outcome.ofOption_eq_ok.mp readAgeBound)
    rcases last with ⟨absent, rfl⟩ | ⟨rt, ratchet, captured, nonNull, rfl, loads⟩
    · exact ⟨peer', msgBound', ageBound', readSecrets, readKam, .inl ⟨absent, rfl⟩⟩
    · exact ⟨peer', msgBound', ageBound', readSecrets, readKam,
        .inr ⟨rt, ratchet, captured, nonNull, rfl, { loads with }⟩⟩
  · intro rebuilds
    simp only [rebuilds.peer, rebuilds.rekeyMsgBound, rebuilds.rekeyAgeSeconds,
      rebuilds.epochSecrets, rebuilds.currentKam, Option.bind_some, Value.asStr_string,
      Value.asU64_posInt, Outcome.ofOption_some, Outcome.ok_bind]
    refine restoreLast_eq_ok.mpr ?_
    rcases rebuilds.ratchet with ⟨absent, idle⟩ | ⟨rt, ratchet, captured, nonNull, holds, loads⟩
    · refine .inl ⟨absent, ?_⟩
      cases session
      cases idle
      rfl
    · refine .inr ⟨rt, ratchet, captured, nonNull, ?_, { loads with }⟩
      cases session
      cases holds
      rfl

/-- A restored session is persistent. -/
theorem Persistent.restored (restored : restore snap = .ok session) : session.Persistent := by
  have loads : ∀ ratchet, session.ratchet = some ratchet → ∃ rt, Loads session rt ratchet := by
    intro ratchet holds
    rcases (restore_eq_ok.mp restored).ratchet with ⟨_, idle⟩ | ⟨rt, _, _, _, holds', loads⟩
    · rw [idle] at holds
      cases holds
    · cases holds'.symm.trans holds
      exact ⟨rt, loads⟩
  refine ⟨?_, ?_, ?_⟩
  · intro ratchet holds
    obtain ⟨_, loaded⟩ := loads ratchet holds
    exact loaded.stored
  · intro ratchet holds
    obtain ⟨_, loaded⟩ := loads ratchet holds
    exact loaded.msgBound
  · intro ratchet holds
    obtain ⟨_, loaded⟩ := loads ratchet holds
    exact loaded.ageBound

/-- A member that is read spells the entry it adds. -/
theorem restoreSecrets_cons_eq_ok {secrets after : Std.ExtTreeMap UInt64 EpochSecret}
    {member : String × Value} {rest : List (String × Value)} :
    restoreSecrets secrets (member :: rest) = .ok after ↔
      ∃ entry, Spells member entry ∧
        restoreSecrets (secrets.insert entry.1 entry.2) rest = .ok after := by
  obtain ⟨key, value⟩ := member
  constructor
  · intro restored
    obtain ⟨epoch, readKey, restored⟩ := Outcome.bind_eq_ok.mp restored
    obtain ⟨text, readText, restored⟩ := Outcome.bind_eq_ok.mp restored
    obtain ⟨raw, readHex, restored⟩ := Outcome.bind_eq_ok.mp restored
    obtain ⟨length, restored⟩ := Outcome.ite_error_eq_ok.mp restored
    obtain ⟨secret, copied, restored⟩ := Outcome.bind_eq_ok.mp restored
    have same : raw.length = 32 := not_not.mp length
    rw [copyFromSlice_of_length same] at copied
    obtain rfl := Outcome.ok.inj copied
    have readText' : (some value).bind Value.asStr = some text :=
      Outcome.ofOption_eq_ok.mp readText
    have string := bind_asStr_eq_some.mp readText'
    exact ⟨(epoch, _), ⟨Outcome.ofOption_eq_ok.mp readKey, text, Option.some.inj string,
      Outcome.ofOption_eq_ok.mp readHex⟩, restored⟩
  · rintro ⟨⟨epoch, secret⟩, ⟨readKey, text, rfl, readHex⟩, restored⟩
    simp only [restoreSecrets, readKey, Value.asStr_string, readHex, Outcome.ofOption_some,
      Outcome.ok_bind, secret.property, epochSecretLen, ne_eq, not_true_eq_false, if_false,
      copyFromSlice_val]
    exact restored

/-- The store that is read is that of the entries which the members spell. -/
theorem restoreSecrets_eq_ok {secrets after : Std.ExtTreeMap UInt64 EpochSecret}
    {members : List (String × Value)} :
    restoreSecrets secrets members = .ok after ↔
      ∃ entries, List.Forall₂ Spells members entries ∧
        after = entries.foldl (fun secrets entry => secrets.insert entry.1 entry.2) secrets := by
  induction members generalizing secrets with
  | nil =>
      constructor
      · intro restored
        exact ⟨[], .nil, (Outcome.ok.inj restored).symm⟩
      · rintro ⟨entries, spelled, rfl⟩
        cases spelled
        rfl
  | cons member rest ih =>
      rw [restoreSecrets_cons_eq_ok]
      constructor
      · rintro ⟨entry, spells, restored⟩
        obtain ⟨entries, spelled, rfl⟩ := ih.mp restored
        exact ⟨entry :: entries, .cons spells spelled, rfl⟩
      · rintro ⟨entries, spelled, rfl⟩
        cases spelled with
        | cons spells spelled => exact ⟨_, spells, ih.mpr ⟨_, spelled, rfl⟩⟩

/-- The entries have the epochs that the keys spell. -/
theorem filterMap_parseU64 {members : List (String × Value)}
    {entries : List (UInt64 × EpochSecret)} (spelled : List.Forall₂ Spells members entries) :
    members.filterMap (fun member => parseU64 member.1) = entries.map Prod.fst := by
  induction spelled with
  | nil => rfl
  | cons spells spelled ih => simp only [List.filterMap_cons, spells.1, ih, List.map_cons]

/-- Members that can be read spell entries. -/
theorem exists_entries {members : List (String × Value)}
    (readable : ∀ member ∈ members, ∃ entry, Spells member entry) :
    ∃ entries, List.Forall₂ Spells members entries := by
  induction members with
  | nil => exact ⟨[], .nil⟩
  | cons member rest ih =>
      obtain ⟨entry, spells⟩ := readable member List.mem_cons_self
      obtain ⟨entries, spelled⟩ := ih fun other later =>
        readable other (List.mem_cons_of_mem _ later)
      exact ⟨entry :: entries, .cons spells spelled⟩

theorem spells_of_mem {members : List (String × Value)} {entries : List (UInt64 × EpochSecret)}
    (spelled : List.Forall₂ Spells members entries) {member : String × Value}
    (found : member ∈ members) : ∃ entry, Spells member entry := by
  induction spelled with
  | nil => cases found
  | cons spells spelled ih =>
      rcases List.mem_cons.mp found with rfl | later
      · exact ⟨_, spells⟩
      · exact ih later

/-- An epoch has a secret in the store exactly when a key spells it. -/
theorem exists_stored_iff {secrets : Std.ExtTreeMap UInt64 EpochSecret}
    {entries : List (UInt64 × EpochSecret)} {epoch : UInt64} :
    (∃ secret, (entries.foldl (fun secrets entry => secrets.insert entry.1 entry.2)
        secrets)[epoch]? = some secret) ↔
      epoch ∈ entries.map Prod.fst ∨ ∃ secret, secrets[epoch]? = some secret := by
  induction entries generalizing secrets with
  | nil => simp
  | cons entry rest ih =>
      rw [List.foldl_cons, ih, List.map_cons, List.mem_cons]
      by_cases same : epoch = entry.1
      · subst same
        simp
      · simp [Std.ExtTreeMap.getElem?_insert, same, Ne.symm same]

/-! ## Which snapshots are accepted -/

/-- What restoring asks of a snapshot. -/
structure Accepted (snap : Value) : Prop where
  peer : ∃ peer, snap.get "peer" = some (.string peer)
  rekeyMsgBound : ∃ bound, snap.get "rekey_msg_bound" = some (.number (.posInt bound))
  rekeyAgeSeconds : ∃ bound, snap.get "rekey_age_seconds" = some (.number (.posInt bound))
  epochSecrets : ∀ member ∈ readMembers snap, ∃ entry, Spells member entry
  currentKam : ∀ text, snap.get "current_kam" = some (.string text) →
    ∃ kam, hexDecode text = some kam
  ratchet : NoRatchet snap ∨ ∃ rt epoch messageIndex startedAt, snap.get "ratchet" = some rt ∧
    rt.get "epoch" = some (.number (.posInt epoch)) ∧
    rt.get "message_index" = some (.number (.posInt messageIndex)) ∧
    (rt.get "epoch_started_at").bind Value.asF64 = some startedAt ∧
    epoch ∈ (readMembers snap).filterMap fun member => parseU64 member.1

theorem restoreKam_eq_ok {kam : Option Bytes} :
    restoreKam snap = .ok kam ↔
      (∃ text bytes, snap.get "current_kam" = some (.string text) ∧
        hexDecode text = some bytes ∧ kam = some bytes) ∨
      (∀ text, snap.get "current_kam" ≠ some (.string text)) ∧ kam = none := by
  unfold restoreKam
  split
  · rename_i text found
    constructor
    · intro restored
      obtain ⟨bytes, decoded, restored⟩ := Outcome.bind_eq_ok.mp restored
      exact .inl ⟨text, bytes, found, Outcome.ofOption_eq_ok.mp decoded,
        (Outcome.ok.inj restored).symm⟩
    · rintro (⟨text', bytes, found', decoded, rfl⟩ | ⟨other, _⟩)
      · cases found.symm.trans found'
        rw [decoded]
        rfl
      · exact absurd found (other text)
  · rename_i other
    constructor
    · intro restored
      exact .inr ⟨other, (Outcome.ok.inj restored).symm⟩
    · rintro (⟨text, _, found, _⟩ | ⟨_, rfl⟩)
      · exact absurd found (other text)
      · rfl

/-- What is rebuilt was accepted. -/
theorem Rebuilds.accepted (rebuilds : Rebuilds snap session) : Accepted snap := by
  obtain ⟨entries, spelled, stored⟩ := restoreSecrets_eq_ok.mp rebuilds.epochSecrets
  refine ⟨⟨_, rebuilds.peer⟩, ⟨_, rebuilds.rekeyMsgBound⟩, ⟨_, rebuilds.rekeyAgeSeconds⟩,
    fun member found => spells_of_mem spelled found, ?_, ?_⟩
  · intro text found
    rcases restoreKam_eq_ok.mp rebuilds.currentKam with
      ⟨text', kam, found', decoded, _⟩ | ⟨other, _⟩
    · cases found.symm.trans found'
      exact ⟨kam, decoded⟩
    · exact absurd found (other text)
  · rcases rebuilds.ratchet with ⟨absent, _⟩ | ⟨rt, ratchet, captured, _, _, loads⟩
    · exact .inl absent
    · refine .inr ⟨rt, _, _, _, captured, loads.epoch, loads.messageIndex, loads.epochStartedAt, ?_⟩
      have known := loads.stored
      rw [stored] at known
      rcases exists_stored_iff.mp ⟨_, known⟩ with spelledOut | ⟨secret, impossible⟩
      · rwa [filterMap_parseU64 spelled]
      · simp at impossible

/-- **Restoring accepts exactly the snapshots that have what it asks for.** -/
theorem exists_restore_iff : (∃ session, restore snap = .ok session) ↔ Accepted snap := by
  constructor
  · rintro ⟨session, restored⟩
    exact (restore_eq_ok.mp restored).accepted
  · intro accepted
    obtain ⟨peer, readPeer⟩ := accepted.peer
    obtain ⟨msgBound, readMsgBound⟩ := accepted.rekeyMsgBound
    obtain ⟨ageBound, readAgeBound⟩ := accepted.rekeyAgeSeconds
    obtain ⟨entries, spelled⟩ := exists_entries accepted.epochSecrets
    let store : Std.ExtTreeMap UInt64 EpochSecret :=
      entries.foldl (fun secrets entry => secrets.insert entry.1 entry.2) ∅
    have secrets : restoreSecrets ∅ (readMembers snap) = .ok store :=
      restoreSecrets_eq_ok.mpr ⟨entries, spelled, rfl⟩
    obtain ⟨kam, readKam⟩ : ∃ kam, restoreKam snap = .ok kam := by
      by_cases string : ∃ text, snap.get "current_kam" = some (.string text)
      · obtain ⟨text, found⟩ := string
        obtain ⟨bytes, decoded⟩ := accepted.currentKam text found
        exact ⟨some bytes, restoreKam_eq_ok.mpr (.inl ⟨text, bytes, found, decoded, rfl⟩)⟩
      · exact ⟨none, restoreKam_eq_ok.mpr (.inr ⟨not_exists.mp string, rfl⟩)⟩
    let idle := withoutRatchet peer msgBound ageBound store kam
    rcases accepted.ratchet with absent | ⟨rt, epoch, messageIndex, startedAt, captured,
      readEpoch, readIndex, readStart, known⟩
    · exact ⟨idle, restore_eq_ok.mpr ⟨readPeer, readMsgBound, readAgeBound, secrets, readKam,
        .inl ⟨absent, rfl⟩⟩⟩
    · rw [filterMap_parseU64 spelled] at known
      obtain ⟨secret, stored⟩ : ∃ secret, store[epoch]? = some secret :=
        exists_stored_iff.mpr (.inl known)
      have nonNull : rt ≠ .null := by
        rintro rfl
        cases readEpoch
      let ratchet : DmRatchet := ⟨epoch, secret, messageIndex, msgBound, ageBound, startedAt⟩
      exact ⟨{ idle with ratchet := some ratchet }, restore_eq_ok.mpr ⟨readPeer, readMsgBound,
        readAgeBound, secrets, readKam, .inr ⟨rt, ratchet, captured, nonNull, rfl,
          ⟨readEpoch, readIndex, readStart, stored, rfl, rfl⟩⟩⟩⟩

/-! ## What is lost -/

/-- A captured ratchet is the ratchet of the session, with the start time as given. -/
structure Keeps (session : DmSession) (rt : Value) (ratchet : DmRatchet) : Prop where
  epoch : rt.get "epoch" = some (.number (.posInt ratchet.epoch))
  messageIndex : rt.get "message_index" = some (.number (.posInt ratchet.messageIndex))
  epochStartedAt : ∃ number, rt.get "epoch_started_at" = some (.number number) ∧
    ratchet.epochStartedAt = number.exact
  stored : session.epochSecrets[ratchet.epoch]? = some ratchet.epochSecret
  msgBound : ratchet.rekeyMsgBound = session.rekeyMsgBound
  ageBound : ratchet.rekeyAgeSeconds = session.rekeyAgeSeconds

/-- Every field of the snapshot is in the session as it was written. -/
structure AsWritten (snap : Value) (session : DmSession) : Prop where
  peer : snap.get "peer" = some (.string session.peer)
  rekeyMsgBound : snap.get "rekey_msg_bound" = some (.number (.posInt session.rekeyMsgBound))
  rekeyAgeSeconds :
    snap.get "rekey_age_seconds" = some (.number (.posInt session.rekeyAgeSeconds))
  /-- The secrets are an object with one key an epoch. -/
  epochSecrets : ∃ members entries, snap.get "epoch_secrets" = some (.object members) ∧
    List.Forall₂ Spells members entries ∧ (entries.map Prod.fst).Nodup ∧
      ∀ epoch secret, session.epochSecrets[epoch]? = some secret ↔ (epoch, secret) ∈ entries
  currentKam :
    (snap.get "current_kam" = none ∨ snap.get "current_kam" = some .null) ∧
        session.currentKam = none ∨
      ∃ text kam, snap.get "current_kam" = some (.string text) ∧ hexDecode text = some kam ∧
        session.currentKam = some kam
  ratchet : NoRatchet snap ∧ session.ratchet = none ∨
    ∃ rt ratchet, snap.get "ratchet" = some rt ∧ session.ratchet = some ratchet ∧
      Keeps session rt ratchet

/-- The fields that are read loosely hold nothing that would be dropped. -/
structure NothingDropped (snap : Value) : Prop where
  epochSecrets : ∃ members, snap.get "epoch_secrets" = some (.object members) ∧
    (members.filterMap fun member => parseU64 member.1).Nodup
  currentKam : snap.get "current_kam" = none ∨ snap.get "current_kam" = some .null ∨
    ∃ text, snap.get "current_kam" = some (.string text)
  epochStartedAt : ∀ rt number, snap.get "ratchet" = some rt →
    rt.get "epoch_started_at" = some (.number number) → number.IsF64

/-- What is read as a start time is a number. -/
theorem bind_asF64_eq_some {found : Option Value} {startedAt : Rat} :
    found.bind Value.asF64 = some startedAt ↔
      ∃ number, found = some (.number number) ∧ (Value.number number).asF64 = some startedAt := by
  cases found with
  | none => simp
  | some value => cases value <;> simp [Value.asF64]

/-- A ratchet that is read is kept exactly when its start time is not rounded. -/
theorem Loads.keeps_iff {rt : Value} {ratchet : DmRatchet} (loads : Loads session rt ratchet) :
    Keeps session rt ratchet ↔
      ∀ number, rt.get "epoch_started_at" = some (.number number) → number.IsF64 := by
  obtain ⟨number, given, read⟩ := bind_asF64_eq_some.mp loads.epochStartedAt
  have only : ∀ other, rt.get "epoch_started_at" = some (.number other) → other = number := by
    intro other given'
    cases given.symm.trans given'
    rfl
  constructor
  · intro keeps other given'
    obtain ⟨number', given'', exact⟩ := keeps.epochStartedAt
    obtain rfl := only number' given''
    obtain rfl := only other given'
    exact Value.asF64_eq_exact_iff.mp (read.trans (congrArg some exact))
  · intro held
    have exact := Value.asF64_eq_exact_iff.mpr (held number given)
    exact
      { loads with
        epochStartedAt := ⟨number, given, Option.some.inj (read.symm.trans exact)⟩ }

theorem AsWritten.nothingDropped (written : AsWritten snap session)
    (rebuilds : Rebuilds snap session) : NothingDropped snap where
  epochSecrets := by
    obtain ⟨members, entries, object, spelled, distinct, _⟩ := written.epochSecrets
    refine ⟨members, object, ?_⟩
    rwa [filterMap_parseU64 spelled]
  currentKam := by
    rcases written.currentKam with ⟨absent | null, _⟩ | ⟨text, _, found, _⟩
    · exact .inl absent
    · exact .inr (.inl null)
    · exact .inr (.inr ⟨text, found⟩)
  epochStartedAt := by
    intro rt number captured given
    rcases written.ratchet with ⟨absent | null, _⟩ | ⟨rt', ratchet, captured', holds, keeps⟩
    · cases captured.symm.trans absent
    · cases captured.symm.trans null
      cases given
    · obtain rfl := Option.some.inj (captured.symm.trans captured')
      rcases rebuilds.ratchet with ⟨_, idle⟩ | ⟨rt', ratchet', captured', _, holds', loads⟩
      · cases holds.symm.trans idle
      · obtain rfl := Option.some.inj (captured.symm.trans captured')
        obtain rfl := Option.some.inj (holds.symm.trans holds')
        exact loads.keeps_iff.mp keeps number given

theorem Rebuilds.asWritten (rebuilds : Rebuilds snap session) (kept : NothingDropped snap) :
    AsWritten snap session where
  peer := rebuilds.peer
  rekeyMsgBound := rebuilds.rekeyMsgBound
  rekeyAgeSeconds := rebuilds.rekeyAgeSeconds
  epochSecrets := by
    obtain ⟨members, object, distinct⟩ := kept.epochSecrets
    obtain ⟨entries, spelled, stored⟩ := restoreSecrets_eq_ok.mp rebuilds.epochSecrets
    have read : readMembers snap = members := by simp [readMembers, object]
    rw [read] at spelled
    rw [filterMap_parseU64 spelled] at distinct
    refine ⟨members, entries, object, spelled, distinct, fun epoch secret => ?_⟩
    rw [stored, getElem?_foldl_insert ∅ distinct]
    simp
  currentKam := by
    rcases restoreKam_eq_ok.mp rebuilds.currentKam with found | ⟨other, none⟩
    · exact .inr found
    · rcases kept.currentKam with absent | null | ⟨text, found⟩
      · exact .inl ⟨.inl absent, none⟩
      · exact .inl ⟨.inr null, none⟩
      · exact absurd found (other text)
  ratchet := by
    rcases rebuilds.ratchet with idle | ⟨rt, ratchet, captured, _, holds, loads⟩
    · exact .inl idle
    · exact .inr ⟨rt, ratchet, captured, holds,
        loads.keeps_iff.mpr fun number => kept.epochStartedAt rt number captured⟩

/-- **When restoring loses nothing.** A snapshot is refused, or rebuilt as written, exactly
when it is not an accepted one that holds something to drop. -/
theorem restore_asWritten_iff :
    (∀ session, restore snap = .ok session → AsWritten snap session) ↔
      (Accepted snap → NothingDropped snap) := by
  constructor
  · intro written accepted
    obtain ⟨session, restored⟩ := exists_restore_iff.mpr accepted
    exact (written session restored).nothingDropped (restore_eq_ok.mp restored)
  · intro kept session restored
    have rebuilds := restore_eq_ok.mp restored
    exact rebuilds.asWritten (kept rebuilds.accepted)

end

/-! ## Tried on snapshots that lose something -/

/-- A snapshot of an idle session. -/
def sampleSnapshot (fields : List (String × Value)) : Value :=
  .object (collectMembers ([("v", .number (.posInt 1)), ("peer", .string "peer"),
    ("rekey_msg_bound", .number (.posInt 50)), ("rekey_age_seconds", .number (.posInt 604800)),
    ("ratchet", .null)] ++ fields))

/-- The text of an epoch secret. -/
def secretText (byte : UInt8) : Value := .string (hexEncode (FixedBytes.fill 32 byte).val)

/-- Two secrets under two spellings of one epoch. -/
def twoSpellings : List (String × Value) := [("01", secretText 1), ("1", secretText 2)]

theorem spells_secretText {key : String} {epoch : UInt64} (byte : UInt8)
    (spelled : parseU64 key = some epoch) :
    Spells (key, secretText byte) (epoch, .fill 32 byte) :=
  ⟨spelled, _, rfl, hexDecode_hexEncode _⟩

/-- Snapshots are rebuilt with something dropped. -/
theorem exists_not_asWritten {snap : Value} (accepted : Accepted snap)
    (dropped : ¬ NothingDropped snap) :
    ∃ session, restore snap = .ok session ∧ ¬ AsWritten snap session := by
  obtain ⟨session, restored⟩ := exists_restore_iff.mpr accepted
  exact ⟨session, restored, fun written =>
    dropped (written.nothingDropped (restore_eq_ok.mp restored))⟩

/-- An idle snapshot without members is accepted when its KAM can be read. -/
theorem accepted_idle {snap : Value} (peer : snap.get "peer" = some (.string "peer"))
    (msgBound : snap.get "rekey_msg_bound" = some (.number (.posInt 50)))
    (ageBound : snap.get "rekey_age_seconds" = some (.number (.posInt 604800)))
    (idle : snap.get "ratchet" = some .null)
    (epochSecrets : ∀ member ∈ readMembers snap, ∃ entry, Spells member entry)
    (currentKam : ∀ text, snap.get "current_kam" ≠ some (.string text)) : Accepted snap where
  peer := ⟨_, peer⟩
  rekeyMsgBound := ⟨_, msgBound⟩
  rekeyAgeSeconds := ⟨_, ageBound⟩
  epochSecrets := epochSecrets
  currentKam text found := absurd found (currentKam text)
  ratchet := .inl (.inr idle)

theorem loses_twoSpellings :
    let snap := sampleSnapshot [("epoch_secrets", .object twoSpellings)]
    ∃ session, restore snap = .ok session ∧ ¬ AsWritten snap session := by
  intro snap
  have object : snap.get "epoch_secrets" = some (.object twoSpellings) := rfl
  have bare : snap.get "current_kam" = none := rfl
  apply exists_not_asWritten
  · refine accepted_idle rfl rfl rfl rfl ?_ (by simp [bare])
    intro member found
    have found' : member ∈ twoSpellings := by simpa [readMembers, object] using found
    rcases List.mem_pair.mp found' with rfl | rfl
    · exact ⟨_, spells_secretText 1 (by decide : parseU64 "01" = some 1)⟩
    · exact ⟨_, spells_secretText 2 (by decide : parseU64 "1" = some 1)⟩
  · intro kept
    obtain ⟨members, object', distinct⟩ := kept.epochSecrets
    cases object.symm.trans object'
    exact absurd distinct (by decide)

theorem loses_numericKam :
    let snap := sampleSnapshot [("epoch_secrets", .object []),
      ("current_kam", .number (.posInt 7))]
    ∃ session, restore snap = .ok session ∧ ¬ AsWritten snap session := by
  intro snap
  have object : snap.get "epoch_secrets" = some (.object []) := rfl
  have number : snap.get "current_kam" = some (.number (.posInt 7)) := rfl
  apply exists_not_asWritten
  · exact accepted_idle rfl rfl rfl rfl (by simp [readMembers, object]) (by simp [number])
  · intro kept
    have strange := kept.currentKam
    simp [number] at strange

theorem loses_absentSecrets :
    let snap := sampleSnapshot []
    ∃ session, restore snap = .ok session ∧ ¬ AsWritten snap session := by
  intro snap
  have absent : snap.get "epoch_secrets" = none := rfl
  have bare : snap.get "current_kam" = none := rfl
  apply exists_not_asWritten
  · exact accepted_idle rfl rfl rfl rfl (by simp [readMembers, absent]) (by simp [bare])
  · intro kept
    obtain ⟨members, object, _⟩ := kept.epochSecrets
    cases absent.symm.trans object

/-- A ratchet that started at an integer of 54 digits. -/
def longStart : Value :=
  .object [("epoch", .number (.posInt 0)), ("message_index", .number (.posInt 0)),
    ("epoch_started_at", .number (.posInt 9007199254740993))]

theorem loses_longStart :
    let snap := sampleSnapshot [("epoch_secrets", .object [("0", secretText 1)]),
      ("ratchet", longStart)]
    ∃ session, restore snap = .ok session ∧ ¬ AsWritten snap session := by
  intro snap
  have object : snap.get "epoch_secrets" = some (.object [("0", secretText 1)]) := rfl
  have members : readMembers snap = [("0", secretText 1)] := by simp [readMembers, object]
  have bare : snap.get "current_kam" = none := rfl
  have captured : snap.get "ratchet" = some longStart := rfl
  have epoch : parseU64 "0" = some 0 := by decide
  apply exists_not_asWritten
  · refine ⟨⟨_, rfl⟩, ⟨_, rfl⟩, ⟨_, rfl⟩, ?_, by simp [bare],
      .inr ⟨_, 0, 0, _, captured, rfl, rfl, rfl, ?_⟩⟩
    · intro member found
      rw [members] at found
      rw [List.mem_singleton.mp found]
      exact ⟨_, spells_secretText 1 epoch⟩
    · simp [members, epoch]
  · intro kept
    have held : HoldsF64 9007199254740993 :=
      kept.epochStartedAt longStart (.posInt 9007199254740993) captured rfl
    exact absurd (roundToF64_eq_self_iff.mpr held) (by decide)

/-- One of two secrets is overwritten, a KAM that is a number is dropped, and so are secrets
that are not there. A long start time is rounded. -/
theorem restore_loses :
    (let snap := sampleSnapshot [("epoch_secrets", .object twoSpellings)]
      ∃ session, restore snap = .ok session ∧ ¬ AsWritten snap session) ∧
    (let snap := sampleSnapshot [("epoch_secrets", .object []),
        ("current_kam", .number (.posInt 7))]
      ∃ session, restore snap = .ok session ∧ ¬ AsWritten snap session) ∧
    (let snap := sampleSnapshot []
      ∃ session, restore snap = .ok session ∧ ¬ AsWritten snap session) ∧
    (let snap := sampleSnapshot [("epoch_secrets", .object [("0", secretText 1)]),
        ("ratchet", longStart)]
      ∃ session, restore snap = .ok session ∧ ¬ AsWritten snap session) :=
  ⟨loses_twoSpellings, loses_numericKam, loses_absentSecrets, loses_longStart⟩

end DmSession
end SkPqc

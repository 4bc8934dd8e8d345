import SkPqc.DmSession.Session
import SkPqc.Library.Digits
import SkPqc.Library.Json
import Mathlib.Data.List.Perm.Basic

/-!
# Snapshots of a session

A session is captured as a JSON object and rebuilt from one. Epoch secrets are
written in hexadecimal under the decimal text of their epoch. The ratchet is
captured without its secret, which is looked up again in the rebuilt store, and
without its bounds, which are those of the session.

So a snapshot loses nothing exactly when the ratchet agrees with the session
about these: `Persistent` says so, every call keeps it, and a persistent session
is rebuilt as it was (`restore_snapshot`).
-/

set_option autoImplicit false

namespace SkPqc

open Library Library.Json Ratchet

namespace DmSession

/-! ## Capturing and rebuilding -/

/-- The members of the captured epoch secrets. -/
def secretMembers (session : DmSession) : List (String × Value) :=
  session.epochSecrets.toList.map fun entry =>
    (u64ToString entry.1, .string (hexEncode entry.2.val))

/-- The captured ratchet. -/
def snapshotRatchet (ratchet : DmRatchet) : Value :=
  .object (collectMembers [
    ("epoch", .number (.posInt ratchet.epoch)),
    ("message_index", .number (.posInt ratchet.messageIndex)),
    ("epoch_started_at", .number (.float ratchet.epochStartedAt))])

/-- The captured fields of a session. -/
def snapshotMembers (session : DmSession) : List (String × Value) :=
  [("v", .number (.posInt 1)),
    ("peer", .string session.peer),
    ("rekey_msg_bound", .number (.posInt session.rekeyMsgBound)),
    ("rekey_age_seconds", .number (.posInt session.rekeyAgeSeconds)),
    ("epoch_secrets", .object (collectMembers session.secretMembers)),
    ("current_kam",
      match session.currentKam with
      | some kam => .string (hexEncode kam)
      | none => .null),
    ("ratchet",
      match session.ratchet with
      | none => .null
      | some ratchet => snapshotRatchet ratchet)]

/-- Capture the full state of a session. -/
def snapshot (session : DmSession) : Value := .object (collectMembers session.snapshotMembers)

def badSnapshot (why : String) : DmSessionError := .badToken ("bad snapshot: " ++ why)

/-- Rebuild the store from the members of `epoch_secrets`, one after the
other. -/
def restoreSecrets (secrets : Std.ExtTreeMap UInt64 EpochSecret) :
    List (String × Value) → Outcome DmSessionError (Std.ExtTreeMap UInt64 EpochSecret)
  | [] => .ok secrets
  | (e, hexval) :: rest => do
      let epoch ← Outcome.ofOption (badSnapshot "bad epoch key") (parseU64 e)
      let text ← Outcome.ofOption (badSnapshot "secret not str") hexval.asStr
      let raw ← Outcome.ofOption (badSnapshot "bad secret hex") (hexDecode text)
      if raw.length ≠ epochSecretLen then .error (badSnapshot "secret wrong length")
      else do
        let arr ← copyFromSlice 32 raw
        restoreSecrets (secrets.insert epoch arr) rest

def restoreKam (snap : Value) : Outcome DmSessionError (Option Bytes) :=
  match snap.get "current_kam" with
  | some (.string h) => do
      let kam ← Outcome.ofOption (badSnapshot "bad current_kam hex") (hexDecode h)
      return some kam
  | _ => .ok none

/-- Rebuild the ratchet, with the secret stored for its epoch and the bounds of
the session. -/
def restoreRatchet (session : DmSession) (rt : Value) : Outcome DmSessionError DmRatchet := do
  let epoch ← Outcome.ofOption (badSnapshot "ratchet.epoch") ((rt.get "epoch").bind Value.asU64)
  let messageIndex ← Outcome.ofOption (badSnapshot "ratchet.message_index")
    ((rt.get "message_index").bind Value.asU64)
  let epochStartedAt ← Outcome.ofOption (badSnapshot "ratchet.epoch_started_at")
    ((rt.get "epoch_started_at").bind Value.asF64)
  let epochSecret ← Outcome.ofOption (badSnapshot "ratchet epoch has no stored secret")
    session.epochSecrets[epoch]?
  return {
    epoch := epoch
    epochSecret := epochSecret
    messageIndex := messageIndex
    rekeyMsgBound := session.rekeyMsgBound
    rekeyAgeSeconds := session.rekeyAgeSeconds
    epochStartedAt := epochStartedAt }

/-- Rebuild a session from a snapshot. -/
def restore (snap : Value) : Outcome DmSessionError DmSession := do
  let peer ← Outcome.ofOption (badSnapshot "missing peer") ((snap.get "peer").bind Value.asStr)
  let rekeyMsgBound ← Outcome.ofOption (badSnapshot "missing rekey_msg_bound")
    ((snap.get "rekey_msg_bound").bind Value.asU64)
  let rekeyAgeSeconds ← Outcome.ofOption (badSnapshot "missing rekey_age_seconds")
    ((snap.get "rekey_age_seconds").bind Value.asU64)
  let fresh := withBounds peer rekeyMsgBound rekeyAgeSeconds
  let epochSecrets ←
    match (snap.get "epoch_secrets").bind Value.asObject with
    | some obj => restoreSecrets fresh.epochSecrets obj
    | none => .ok fresh.epochSecrets
  let currentKam ← restoreKam snap
  let session := { fresh with epochSecrets := epochSecrets, currentKam := currentKam }
  match snap.get "ratchet" with
  | none => .ok session
  | some .null => .ok session
  | some rt => do
      let ratchet ← restoreRatchet session rt
      return { session with ratchet := some ratchet }

/-! ## What rebuilding gives back -/

/-- The ratchet agrees with the session about everything that a snapshot does
not hold: its secret is the stored one, and its bounds are the session's. -/
structure Persistent (session : DmSession) : Prop where
  stored : ∀ ratchet, session.ratchet = some ratchet →
    session.epochSecrets[ratchet.epoch]? = some ratchet.epochSecret
  msgBound : ∀ ratchet, session.ratchet = some ratchet →
    ratchet.rekeyMsgBound = session.rekeyMsgBound
  ageBound : ∀ ratchet, session.ratchet = some ratchet →
    ratchet.rekeyAgeSeconds = session.rekeyAgeSeconds

/-- A well-formed member adds its secret to the store. -/
theorem restoreSecrets_cons (secrets : Std.ExtTreeMap UInt64 EpochSecret) (epoch : UInt64)
    (secret : EpochSecret) (rest : List (String × Value)) :
    restoreSecrets secrets ((u64ToString epoch, .string (hexEncode secret.val)) :: rest) =
      restoreSecrets (secrets.insert epoch secret) rest := by
  simp only [restoreSecrets, parseU64_u64ToString, Value.asStr_string, hexDecode_hexEncode,
    Outcome.ofOption_some, Outcome.ok_bind, secret.property, epochSecretLen, ne_eq,
    not_true_eq_false, if_false, copyFromSlice_val]

/-- The store that insertions in any order leave. -/
theorem restoreSecrets_map (secrets : Std.ExtTreeMap UInt64 EpochSecret)
    (entries : List (UInt64 × EpochSecret)) :
    restoreSecrets secrets (entries.map fun entry =>
        (u64ToString entry.1, Value.string (hexEncode entry.2.val))) =
      .ok (entries.foldl (fun secrets entry => secrets.insert entry.1 entry.2) secrets) := by
  induction entries generalizing secrets with
  | nil => rfl
  | cons entry rest ih =>
      rw [List.map_cons, restoreSecrets_cons, List.foldl_cons]
      exact ih _

/-- Inserting entries with distinct keys: each is found, and the others are as
before. -/
theorem getElem?_foldl_insert (secrets : Std.ExtTreeMap UInt64 EpochSecret)
    {entries : List (UInt64 × EpochSecret)} (distinct : (entries.map Prod.fst).Nodup)
    (epoch : UInt64) (secret : EpochSecret) :
    (entries.foldl (fun secrets entry => secrets.insert entry.1 entry.2) secrets)[epoch]? =
        some secret ↔
      (epoch, secret) ∈ entries ∨
        epoch ∉ entries.map Prod.fst ∧ secrets[epoch]? = some secret := by
  induction entries generalizing secrets with
  | nil => simp
  | cons entry rest ih =>
      obtain ⟨first, value⟩ := entry
      rw [List.map_cons, List.nodup_cons] at distinct
      rw [List.foldl_cons, ih _ distinct.2]
      by_cases same : epoch = first
      · subst same
        have absent : (epoch, secret) ∉ rest := fun found =>
          distinct.1 (List.mem_map.mpr ⟨_, found, rfl⟩)
        simp [distinct.1, absent, eq_comm]
      · simp [Std.ExtTreeMap.getElem?_insert, same, Ne.symm same]

theorem nodup_keys_toList (secrets : Std.ExtTreeMap UInt64 EpochSecret) :
    (secrets.toList.map Prod.fst).Nodup := by
  rw [List.Nodup, List.pairwise_map]
  exact secrets.distinct_keys_toList.imp fun apart equal =>
    apart (Std.LawfulEqCmp.compare_eq_iff_eq.mpr equal)

/-- The captured secrets rebuild the store. -/
theorem restoreSecrets_secretMembers (session : DmSession) :
    restoreSecrets ∅ (collectMembers session.secretMembers) = .ok session.epochSecrets := by
  have keys := nodup_keys_toList session.epochSecrets
  have names : (session.secretMembers.map Prod.fst).Nodup := by
    rw [secretMembers, List.map_map]
    have texts := keys.map u64ToString_injective
    rwa [List.map_map] at texts
  -- The members are those of the store in another order.
  obtain ⟨entries, members, order⟩ :=
    (congrFun₂ (List.eq_map_comp_perm _) _ session.epochSecrets.toList).mpr
      (collectMembers_perm names)
  rw [secretMembers, members, restoreSecrets_map]
  refine congrArg Outcome.ok (Std.ExtTreeMap.ext_getElem? fun epoch => Option.ext fun secret => ?_)
  rw [getElem?_foldl_insert ∅ ((order.map Prod.fst).nodup_iff.mpr keys), order.mem_iff,
    Std.ExtTreeMap.mem_toList_iff_getElem?_eq_some]
  simp

/-- Every captured field is found under its key. -/
theorem get_snapshot {session : DmSession} {key : String} {value : Value}
    (found : (key, value) ∈ session.snapshotMembers) :
    session.snapshot.get key = some value := by
  have distinct : (session.snapshotMembers.map Prod.fst).Nodup := by
    change ["v", "peer", "rekey_msg_bound", "rekey_age_seconds", "epoch_secrets", "current_kam",
      "ratchet"].Nodup
    decide
  exact lookup_collectMembers distinct found

theorem restoreKam_snapshot (session : DmSession) :
    restoreKam session.snapshot = .ok session.currentKam := by
  have found : session.snapshot.get "current_kam" =
      some (match session.currentKam with
        | some kam => .string (hexEncode kam)
        | none => .null) := get_snapshot (by simp [snapshotMembers])
  cases kam : session.currentKam with
  | none => simp [restoreKam, found, kam]
  | some bytes => simp [restoreKam, found, kam, hexDecode_hexEncode]

theorem restoreRatchet_snapshotRatchet {session : DmSession} {ratchet : DmRatchet}
    (stored : session.epochSecrets[ratchet.epoch]? = some ratchet.epochSecret)
    (msgBound : ratchet.rekeyMsgBound = session.rekeyMsgBound)
    (ageBound : ratchet.rekeyAgeSeconds = session.rekeyAgeSeconds) :
    restoreRatchet session (snapshotRatchet ratchet) = .ok ratchet := by
  have epoch : (snapshotRatchet ratchet).get "epoch" = some (.number (.posInt ratchet.epoch)) := by
    simp [snapshotRatchet, collectMembers]
  have messageIndex : (snapshotRatchet ratchet).get "message_index" =
      some (.number (.posInt ratchet.messageIndex)) := by
    simp [snapshotRatchet, collectMembers]
  have epochStartedAt : (snapshotRatchet ratchet).get "epoch_started_at" =
      some (.number (.float ratchet.epochStartedAt)) := by
    simp [snapshotRatchet, collectMembers]
  simp only [restoreRatchet, epoch, messageIndex, epochStartedAt, stored, Option.bind_some,
    Value.asU64_posInt, Value.asF64_float, Outcome.ofOption_some, Outcome.ok_bind,
    Outcome.pure_eq, ← msgBound, ← ageBound]

/-- **A persistent session is rebuilt from its snapshot as it was.** -/
theorem restore_snapshot {session : DmSession} (persistent : session.Persistent) :
    restore session.snapshot = .ok session := by
  have peer : session.snapshot.get "peer" = some (.string session.peer) :=
    get_snapshot (by simp [snapshotMembers])
  have msgBound : session.snapshot.get "rekey_msg_bound" =
      some (.number (.posInt session.rekeyMsgBound)) := get_snapshot (by simp [snapshotMembers])
  have ageBound : session.snapshot.get "rekey_age_seconds" =
      some (.number (.posInt session.rekeyAgeSeconds)) := get_snapshot (by simp [snapshotMembers])
  have secrets : session.snapshot.get "epoch_secrets" =
      some (.object (collectMembers session.secretMembers)) :=
    get_snapshot (by simp [snapshotMembers])
  simp only [restore, peer, msgBound, ageBound, secrets, restoreKam_snapshot, Option.bind_some,
    Value.asStr_string, Value.asU64_posInt, Value.asObject_object, Outcome.ofOption_some,
    Outcome.ok_bind, withBounds, restoreSecrets_secretMembers]
  cases current : session.ratchet with
  | none =>
      have found : session.snapshot.get "ratchet" = some .null :=
        get_snapshot (by simp [snapshotMembers, current])
      simp only [found]
      cases session
      cases current
      rfl
  | some ratchet =>
      have found : session.snapshot.get "ratchet" = some (snapshotRatchet ratchet) :=
        get_snapshot (by simp [snapshotMembers, current])
      have rebuilt : restoreRatchet { session with ratchet := none } (snapshotRatchet ratchet) =
          .ok ratchet :=
        restoreRatchet_snapshotRatchet (persistent.stored ratchet current)
          (persistent.msgBound ratchet current) (persistent.ageBound ratchet current)
      simp only [found]
      change (restoreRatchet { session with ratchet := none } (snapshotRatchet ratchet) >>=
        fun ratchet => _) = _
      rw [rebuilt, Outcome.ok_bind, ← current]
      rfl

end DmSession
end SkPqc

import AegisMesh.Lib.PathEscape
import AegisMesh.Lib.RevStore
import AegisMesh.Lib.Sorted
import AegisMesh.Policy.Snapshot
import Mathlib.Data.List.Lex

/-!
# The etcd policy cache

`EtcdStore` is loaded from all keys under a prefix and kept up to date from watch responses. Names are byte
strings: `url.PathUnescape` can make one that is not text, and it maps several keys to one name.
-/

namespace AegisMesh.Policy

open Lib

abbrev Bytes := List UInt8

def bytes (s : String) : Bytes := s.toUTF8.data.toList

structure PolicyKV where
  key : Bytes
  value : Bytes
  modRevision : ℕ
deriving DecidableEq

structure PolicyWatchEvent where
  revision : ℕ
  puts : List PolicyKV
  deletes : List Bytes

structure CachedPolicy where
  service : Bytes
  revision : ℕ
  message : PolicySnapshot
deriving DecidableEq

structure EtcdStore where
  revision : ℕ := 0
  policies : Dict Bytes CachedPolicy := ∅

structure DecodePolicyError where
  service : Bytes
  cause : String
deriving DecidableEq

structure EtcdPolicies where
  servicesPrefix : Bytes
  unmarshal : Bytes → Except String PolicySnapshot

def snapshotSuffix : Bytes := bytes "/snapshot"

def trimPrefix (s start : Bytes) : Bytes := if start.isPrefixOf s then s.drop start.length else s

def trimSuffix (s stop : Bytes) : Bytes := if stop.isSuffixOf s then s.take (s.length - stop.length) else s

namespace EtcdPolicies

variable (c : EtcdPolicies)

def serviceFromPolicyKey (key : Bytes) : Option Bytes :=
  if !c.servicesPrefix.isPrefixOf key || !snapshotSuffix.isSuffixOf key then none
  else
    let escaped := trimSuffix (trimPrefix key c.servicesPrefix) snapshotSuffix
    if escaped = [] || 47 ∈ escaped then none
    else
      match pathUnescape escaped with
      | none => none
      | some service => if service = [] then none else some service

def snapshotFromEtcdKV (kv : PolicyKV) : Except DecodePolicyError (Option CachedPolicy) :=
  match c.serviceFromPolicyKey kv.key with
  | none => .ok none
  | some service =>
    match c.unmarshal kv.value with
    | .error cause => .error { service, cause }
    | .ok message => .ok (some { service, revision := kv.modRevision, message })

/-- The loop of `snapshotsFromEtcdKVs`, and the one of `applyWatchEvent` over the puts. -/
def collect (policies : Dict Bytes CachedPolicy) : List PolicyKV → Except DecodePolicyError (Dict Bytes CachedPolicy)
  | [] => .ok policies
  | kv :: rest =>
    match c.snapshotFromEtcdKV kv with
    | .error err => .error err
    | .ok none => collect policies rest
    | .ok (some snapshot) => collect (policies.insert snapshot.service snapshot) rest

def snapshotsFromEtcdKVs (kvs : List PolicyKV) : Except DecodePolicyError (Dict Bytes CachedPolicy) := c.collect ∅ kvs

def list (keys : RevStore Bytes Bytes) : List PolicyKV :=
  sortBy (fun kv => kv.key.map UInt8.toNat)
    ((keys.entries.entries.filter fun e => c.servicesPrefix.isPrefixOf e.1).map fun e =>
      { key := e.1, value := e.2.value, modRevision := e.2.modRevision })

def reloadFull (keys : RevStore Bytes Bytes) : Except DecodePolicyError EtcdStore :=
  match c.snapshotsFromEtcdKVs (c.list keys) with
  | .error err => .error err
  | .ok policies => .ok { revision := keys.revision, policies }

def applyWatchEvent (s : EtcdStore) (event : PolicyWatchEvent) : Except DecodePolicyError EtcdStore :=
  match c.collect ∅ event.puts with
  | .error err => .error err
  | .ok puts =>
    let deletes := event.deletes.filterMap c.serviceFromPolicyKey
    if 0 < event.revision ∧ event.revision < s.revision then .ok s
    else
      let policies := puts.entries.foldl (fun policies e => policies.insert e.1 e.2) s.policies
      .ok
        { revision := if s.revision < event.revision then event.revision else s.revision
          policies := deletes.foldl (fun policies service => policies.erase service) policies }

/-! ## What the loops leave for one service -/

def lastNaming (service : Bytes) (kvs : List PolicyKV) : Option PolicyKV :=
  (kvs.filter fun kv => c.serviceFromPolicyKey kv.key = some service).getLast?

def Decodes (kv : PolicyKV) : Prop := ∃ r, c.snapshotFromEtcdKV kv = .ok r

def read (kv : PolicyKV) : Option CachedPolicy :=
  match c.snapshotFromEtcdKV kv with
  | .ok r => r
  | .error _ => none

variable {c} {service : Bytes} {kv : PolicyKV} {kvs : List PolicyKV}

theorem lastNaming_mem (h : c.lastNaming service kvs = some kv) :
    kv ∈ kvs ∧ c.serviceFromPolicyKey kv.key = some service := by
  have hmem := List.mem_of_getLast? h
  simpa using hmem

theorem lastNaming_eq_none_iff :
    c.lastNaming service kvs = none ↔ ∀ kv ∈ kvs, c.serviceFromPolicyKey kv.key ≠ some service := by
  simp [lastNaming]

theorem lastNaming_cons : c.lastNaming service (kv :: kvs) =
    (c.lastNaming service kvs).or (if c.serviceFromPolicyKey kv.key = some service then some kv else none) := by
  unfold lastNaming
  by_cases h : c.serviceFromPolicyKey kv.key = some service
  · rw [List.filter_cons_of_pos (by simpa using h), if_pos h, List.getLast?_cons]
    cases (kvs.filter fun kv => c.serviceFromPolicyKey kv.key = some service).getLast? <;> rfl
  · rw [List.filter_cons_of_neg (by simpa using h), if_neg h, Option.or_none]

theorem snapshotFromEtcdKV_none (h : c.snapshotFromEtcdKV kv = .ok none) : c.serviceFromPolicyKey kv.key = none := by
  unfold snapshotFromEtcdKV at h
  split at h
  · assumption
  · split at h <;> cases h

theorem snapshotFromEtcdKV_some {snapshot : CachedPolicy} (h : c.snapshotFromEtcdKV kv = .ok (some snapshot)) :
    c.serviceFromPolicyKey kv.key = some snapshot.service ∧ snapshot.revision = kv.modRevision := by
  unfold snapshotFromEtcdKV at h
  split at h
  · cases h
  · rename_i hservice
    split at h
    · cases h
    · cases h
      exact ⟨hservice, rfl⟩

theorem read_of_names (hdecodes : c.Decodes kv) (hnames : c.serviceFromPolicyKey kv.key = some service) :
    ∃ snapshot, c.read kv = some snapshot ∧ snapshot.revision = kv.modRevision := by
  obtain ⟨r, hr⟩ := hdecodes
  cases r with
  | none =>
    rw [snapshotFromEtcdKV_none hr] at hnames
    cases hnames
  | some snapshot => exact ⟨snapshot, by simp only [read, hr], (snapshotFromEtcdKV_some hr).2⟩

theorem collect_spec {policies result : Dict Bytes CachedPolicy} (h : c.collect policies kvs = .ok result) :
    (∀ kv ∈ kvs, c.Decodes kv) ∧
      ∀ service, result.lookup service = ((c.lastNaming service kvs).bind c.read).or (policies.lookup service) := by
  induction kvs generalizing policies with
  | nil =>
    cases h
    simp [lastNaming]
  | cons kv rest ih =>
    unfold collect at h
    split at h
    · cases h
    · rename_i hread
      obtain ⟨hrest, hlookup⟩ := ih h
      refine ⟨List.forall_mem_cons.mpr ⟨⟨none, hread⟩, hrest⟩, fun service => ?_⟩
      rw [hlookup, lastNaming_cons, snapshotFromEtcdKV_none hread, if_neg (by simp), Option.or_none]
    · rename_i snapshot hread
      obtain ⟨hrest, hlookup⟩ := ih h
      refine ⟨List.forall_mem_cons.mpr ⟨⟨some snapshot, hread⟩, hrest⟩, fun service => ?_⟩
      rw [hlookup, lastNaming_cons, (snapshotFromEtcdKV_some hread).1, Dict.lookup_insert']
      cases hlast : c.lastNaming service rest with
      | none =>
        by_cases hservice : service = snapshot.service
        · simp [hservice, read, hread]
        · simp [hservice, Ne.symm hservice]
      | some kv' =>
        obtain ⟨hmem, hnames⟩ := lastNaming_mem hlast
        obtain ⟨own, hown, -⟩ := read_of_names (hrest kv' hmem) hnames
        simp [hown]

theorem collect_ok (h : ∀ kv ∈ kvs, c.Decodes kv) (policies : Dict Bytes CachedPolicy) :
    ∃ result, c.collect policies kvs = .ok result := by
  induction kvs generalizing policies with
  | nil => exact ⟨policies, rfl⟩
  | cons kv rest ih =>
    obtain ⟨⟨r, hr⟩, hrest⟩ := List.forall_mem_cons.mp h
    unfold collect
    rw [hr]
    cases r with
    | none => exact ih hrest policies
    | some snapshot => exact ih hrest _

theorem reloadFull_spec {keys : RevStore Bytes Bytes} {s : EtcdStore} (h : c.reloadFull keys = .ok s) :
    s.revision = keys.revision ∧ (∀ kv ∈ c.list keys, c.Decodes kv) ∧
      ∀ service, s.policies.lookup service = (c.lastNaming service (c.list keys)).bind c.read := by
  unfold reloadFull snapshotsFromEtcdKVs at h
  split at h
  · cases h
  · rename_i policies hcollect
    cases h
    obtain ⟨hdecodes, hlookup⟩ := collect_spec hcollect
    refine ⟨rfl, hdecodes, fun service => ?_⟩
    rw [hlookup, AList.lookup_empty, Option.or_none]

theorem applyWatchEvent_spec {s t : EtcdStore} {event : PolicyWatchEvent} (h : c.applyWatchEvent s event = .ok t)
    (hnew : s.revision ≤ event.revision) :
    (∀ kv ∈ event.puts, c.Decodes kv) ∧ t.revision = event.revision ∧
      ∀ service, t.policies.lookup service =
        if service ∈ event.deletes.filterMap c.serviceFromPolicyKey then none
        else ((c.lastNaming service event.puts).bind c.read).or (s.policies.lookup service) := by
  unfold applyWatchEvent at h
  split at h
  · cases h
  · rename_i puts hcollect
    obtain ⟨hdecodes, hputs⟩ := collect_spec hcollect
    dsimp only at h
    rw [if_neg (by omega)] at h
    cases h
    refine ⟨hdecodes, ?_, fun service => ?_⟩
    · dsimp only
      split <;> omega
    · dsimp only
      rw [Dict.lookup_foldl_erase, Dict.lookup_foldl_insert, hputs, AList.lookup_empty, Option.or_none]
      congr

theorem applyWatchEvent_ok {event : PolicyWatchEvent} (h : ∀ kv ∈ event.puts, c.Decodes kv) (s : EtcdStore) :
    ∃ t, c.applyWatchEvent s event = .ok t := by
  obtain ⟨puts, hputs⟩ := collect_ok h ∅
  unfold applyWatchEvent
  rw [hputs]
  dsimp only
  split
  · exact ⟨s, rfl⟩
  · exact ⟨_, rfl⟩

end EtcdPolicies

end AegisMesh.Policy

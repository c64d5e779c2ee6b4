import AegisMesh.Lib.RevStore
import AegisMesh.Registry.Memory

/-!
# The lease-store registry (`pkg/registry/lease_store_registry.go`)

The registry keeps nothing itself: every call reads or changes a revisioned
key-value store that other controllers share. A value is the record that its JSON
text decodes to, or `none` when it does not decode.
-/

open Lib

namespace AegisMesh.Registry

structure LeaseStoreRecord where
  id : String
  service : String
  address : String
  status : String := ""
  labels : Labels := none
  lastSeenUnixNanos : ℕ := 0
  registrationEpoch : String := ""
  ownerToken : String := ""
deriving DecidableEq

def encodeLeaseStoreRecord (inst : Instance) : LeaseStoreRecord where
  id := inst.id
  service := inst.service
  address := inst.address
  status := inst.status.string
  labels := if inst.labels.pairs = ∅ then none else inst.labels
  lastSeenUnixNanos := inst.lastSeen
  registrationEpoch := inst.registrationEpoch
  ownerToken := inst.ownerToken

def decodeLeaseStoreRecord (record : LeaseStoreRecord) : Instance where
  id := record.id
  service := record.service
  address := record.address
  status := (Code.parse record.status).normalized
  labels := cloneLabels record.labels
  lastSeen := record.lastSeenUnixNanos
  registrationEpoch := record.registrationEpoch
  ownerToken := record.ownerToken

abbrev LeaseStore := RevStore String (Option LeaseStoreRecord)

structure LeaseStoreRegistry where
  keyPrefix : String
  escape : String → String

namespace LeaseStoreRegistry

variable (r : LeaseStoreRegistry)

def servicePrefix (service : String) : String := r.keyPrefix ++ "/" ++ r.escape service ++ "/"

def instanceKey (service id : String) : String := r.servicePrefix service ++ r.escape id

def listUnder (s : LeaseStore) (start : String) : List (Entry (Option LeaseStoreRecord)) :=
  (s.entries.entries.filter fun e => start.toList.isPrefixOf e.1.toList).map (·.2)

/-! ## Register and heartbeat -/

def minted (inst : Instance) (now : ℕ) (epoch token : String) : Instance :=
  { inst with
    status := inst.status.normalized
    lastSeen := now
    registrationEpoch := epoch
    ownerToken := token
    labels := cloneLabels inst.labels }

def register (s : LeaseStore) (gap : ℕ) (ctx : Ctx) (inst : Instance) (ttl : ℤ) (now : ℕ) (epoch token : String) :
    LeaseStore × Option RegistryError :=
  if ctx 0 then (s, some .context)
  else if !inst.named || ttl ≤ 0 then (s, some .invalidInstance)
  else (s.put gap (r.instanceKey inst.service inst.id)
    (some (encodeLeaseStoreRecord (minted inst now epoch token))), none)

/-- The first half of `heartbeat`: the record it read, if the fence lets it pass. -/
def heartbeatRead (s : LeaseStore) (ctx : Ctx) (service id registrationEpoch ownerToken : String) (ttl : ℤ)
    (requireEpoch requireOwner : Bool) : Except RegistryError (Instance × ℕ) :=
  if ctx 0 then .error .context
  else if service = "" ∨ id = "" ∨ ttl ≤ 0 then .error .invalidInstance
  else
    match s.entries.lookup (r.instanceKey service id) with
    | none => .error .instanceNotFound
    | some entry =>
      match entry.value with
      | none => .error .invalidJSON
      | some record =>
        let inst := decodeLeaseStoreRecord record
        if requireEpoch && inst.registrationEpoch ≠ registrationEpoch then .error .registrationEpochMismatch
        else if requireOwner && inst.ownerToken ≠ ownerToken then .error .registrationEpochMismatch
        else .ok (inst, entry.modRevision)

def heartbeatWrite (s : LeaseStore) (gap : ℕ) (service id : String) (inst : Instance) (modRevision now : ℕ) :
    LeaseStore × Option RegistryError :=
  match s.update gap (r.instanceKey service id) (some (encodeLeaseStoreRecord { inst with lastSeen := now }))
      modRevision with
  | (s, true) => (s, none)
  | (s, false) => (s, some .instanceNotFound)

def heartbeatWithOwner (s : LeaseStore) (gap : ℕ) (ctx : Ctx) (service id registrationEpoch ownerToken : String)
    (ttl : ℤ) (now : ℕ) : LeaseStore × Option RegistryError :=
  if registrationEpoch = "" ∨ ownerToken = "" then (s, some .invalidInstance)
  else
    match r.heartbeatRead s ctx service id registrationEpoch ownerToken ttl true true with
    | .error err => (s, some err)
    | .ok (inst, modRevision) => r.heartbeatWrite s gap service id inst modRevision now

/-! ## Snapshots -/

def decodeEntry (kv : Entry (Option LeaseStoreRecord)) : Option (Entry Instance) :=
  kv.value.map fun record => { value := decodeLeaseStoreRecord record, modRevision := kv.modRevision }

def decodeOwn (service : String) (kvs : List (Entry (Option LeaseStoreRecord))) :
    Option (List (Entry Instance)) :=
  (kvs.mapM decodeEntry).map fun decoded => decoded.filter fun e => e.value.service = service

def serviceVersion (own : List (Entry Instance)) : ℕ :=
  own.foldl (fun version e => if version < e.modRevision then e.modRevision else version) 0

def snapshot (s : LeaseStore) (ctx : Ctx) (service : String) : Except RegistryError InstanceSnapshot :=
  if ctx 0 then .error .context
  else if service = "" then .error .invalidInstance
  else
    match decodeOwn service (listUnder s (r.servicePrefix service)) with
    | none => .error .invalidJSON
    | some own =>
      .ok
        { service
          version := if serviceVersion own = 0 ∧ 0 < s.revision then s.revision else serviceVersion own
          instances := sortBy Instance.id (own.map Entry.value) }

def list (s : LeaseStore) (ctx : Ctx) (service : String) : Except RegistryError (List Instance) :=
  (r.snapshot s ctx service).map InstanceSnapshot.instances

/-! ## Versions -/

theorem mapM_option_iff {α β : Type} {f : α → Option β} {l : List α} {l' : List β} :
    l.mapM f = some l' ↔ (∀ a ∈ l, (f a).isSome) ∧ l' = l.filterMap f := by
  induction l generalizing l' with
  | nil =>
    constructor
    · intro h
      cases h
      exact ⟨by simp, rfl⟩
    · rintro ⟨-, rfl⟩
      rfl
  | cons a l ih =>
    rw [List.mapM_cons, List.forall_mem_cons, List.filterMap_cons]
    rcases f a with _ | b
    · simp
    simp only [Option.bind_eq_bind, Option.bind_some, Option.isSome_some, true_and]
    constructor
    · intro h
      obtain ⟨rest, hrest, heq⟩ := Option.bind_eq_some_iff.mp h
      cases heq
      obtain ⟨hall, rfl⟩ := ih.mp hrest
      exact ⟨hall, rfl⟩
    · rintro ⟨hall, rfl⟩
      exact Option.bind_eq_some_iff.mpr ⟨_, ih.mpr ⟨hall, rfl⟩, rfl⟩

theorem mem_mapM_option {α β : Type} {f : α → Option β} {l : List α} {l' : List β} (h : l.mapM f = some l') (b : β) :
    b ∈ l' ↔ ∃ a ∈ l, f a = some b := by
  rw [(mapM_option_iff.mp h).2, List.mem_filterMap]

theorem pairwise_mapM_option {α β : Type} {f : α → Option β} {R : α → α → Prop} {S : β → β → Prop}
    (hRS : ∀ a a' b b', R a a' → f a = some b → f a' = some b' → S b b') {l : List α} {l' : List β}
    (h : l.mapM f = some l') (hl : l.Pairwise R) : l'.Pairwise S := by
  rw [(mapM_option_iff.mp h).2]
  exact hl.filterMap f fun a a' hR b hb b' hb' => hRS a a' b b' hR hb hb'

theorem serviceVersion_spec (own : List (Entry Instance)) :
    (∀ e ∈ own, e.modRevision ≤ serviceVersion own) ∧
    (own ≠ [] → ∃ e ∈ own, serviceVersion own = e.modRevision) := by
  induction own using List.reverseRecOn with
  | nil => simp
  | append_singleton own last ih =>
    have hstep : serviceVersion (own ++ [last]) =
        if serviceVersion own < last.modRevision then last.modRevision else serviceVersion own := by
      rw [serviceVersion, List.foldl_append]
      rfl
    rw [hstep]
    refine ⟨fun e he => ?_, fun _ => ?_⟩
    · rcases List.mem_append.mp he with he | he
      · have := ih.1 e he
        split <;> omega
      · rw [List.mem_singleton.mp he]
        split <;> omega
    · split
      · exact ⟨last, by simp, rfl⟩
      · rename_i hlt
        by_cases hown : own = []
        · subst hown
          exact ⟨last, by simp, by simp [serviceVersion] at hlt ⊢; omega⟩
        · obtain ⟨e, he, heq⟩ := ih.2 hown
          exact ⟨e, by simp [he], heq⟩

def Holds (s : LeaseStore) (service : String) (e : Entry Instance) : Prop :=
  ∃ key kv, s.entries.lookup key = some kv ∧ (r.servicePrefix service).toList.isPrefixOf key.toList = true ∧
    decodeEntry kv = some e ∧ e.value.service = service

structure Shows (s : LeaseStore) (service : String) (snap : InstanceSnapshot) : Prop where
  instances : ∀ inst, inst ∈ snap.instances ↔ ∃ e, r.Holds s service e ∧ e.value = inst
  le_version : ∀ e, r.Holds s service e → e.modRevision ≤ snap.version
  version : snap.instances ≠ [] → ∃ e, r.Holds s service e ∧ snap.version = e.modRevision
  empty : snap.instances = [] → snap.version = s.revision

variable {r} {s s' : LeaseStore} {ctx ctx' : Ctx} {service : String} {snap snap' : InstanceSnapshot}

theorem mem_listUnder {start : String} {kv : Entry (Option LeaseStoreRecord)} :
    kv ∈ listUnder s start ↔
      ∃ key, s.entries.lookup key = some kv ∧ start.toList.isPrefixOf key.toList = true := by
  simp only [listUnder, List.mem_map, List.mem_filter]
  constructor
  · rintro ⟨e, ⟨he, hstart⟩, rfl⟩
    exact ⟨e.1, AList.mem_lookup_iff.mpr he, hstart⟩
  · rintro ⟨key, hl, hstart⟩
    exact ⟨⟨key, kv⟩, ⟨AList.mem_lookup_iff.mp hl, hstart⟩, rfl⟩

theorem Holds.bounded {e : Entry Instance} (h : r.Holds s service e) :
    0 < e.modRevision ∧ e.modRevision ≤ s.revision := by
  obtain ⟨key, kv, hl, -, hdec, -⟩ := h
  obtain ⟨record, -, rfl⟩ := Option.map_eq_some_iff.mp hdec
  exact s.bounded key kv hl

theorem mem_decodeOwn {own : List (Entry Instance)}
    (h : decodeOwn service (listUnder s (r.servicePrefix service)) = some own) (e : Entry Instance) :
    e ∈ own ↔ r.Holds s service e := by
  obtain ⟨decoded, hdec, rfl⟩ := Option.map_eq_some_iff.mp h
  rw [List.mem_filter, mem_mapM_option hdec e, Holds]
  simp only [mem_listUnder, decide_eq_true_eq]
  constructor
  · rintro ⟨⟨kv, ⟨key, hl, hstart⟩, he⟩, hservice⟩
    exact ⟨key, kv, hl, hstart, he, hservice⟩
  · rintro ⟨key, kv, hl, hstart, he, hservice⟩
    exact ⟨⟨kv, ⟨key, hl, hstart⟩, he⟩, hservice⟩

theorem snapshot_spec (h : r.snapshot s ctx service = .ok snap) : r.Shows s service snap := by
  unfold snapshot at h
  split at h
  · cases h
  split at h
  · cases h
  cases hown : decodeOwn service (listUnder s (r.servicePrefix service)) with
  | none => simp [hown] at h
  | some own =>
    rw [hown] at h
    cases h
    have hmem := mem_decodeOwn hown
    obtain ⟨hle, hmax⟩ := serviceVersion_spec own
    -- The fallback to the store's revision is for an empty service.
    have hversion : own ≠ [] →
        (if serviceVersion own = 0 ∧ 0 < s.revision then s.revision else serviceVersion own) = serviceVersion own := by
      intro hne
      obtain ⟨e, he, heq⟩ := hmax hne
      have := ((hmem e).mp he).bounded
      rw [if_neg (by omega)]
    refine ⟨fun inst => ?_, fun e he => ?_, fun hne => ?_, fun hnil => ?_⟩
    · simp [mem_sortBy, hmem]
    · dsimp only
      rw [hversion (List.ne_nil_of_mem ((hmem e).mpr he))]
      exact hle e ((hmem e).mpr he)
    · have hown : own ≠ [] := fun hnil => hne (by simp [hnil, sortBy_eq_nil_iff])
      obtain ⟨e, he, heq⟩ := hmax hown
      exact ⟨e, (hmem e).mp he, (hversion hown).trans heq⟩
    · obtain rfl : own = [] := by simpa [sortBy_eq_nil_iff] using hnil
      have hzero : serviceVersion [] = 0 := rfl
      simp only [hzero, true_and]
      split <;> omega

theorem Holds.kept {e : Entry Instance} (hlater : RevStore.Later s s') (h : r.Holds s' service e)
    (hle : e.modRevision ≤ s.revision) : r.Holds s service e := by
  obtain ⟨key, kv, hl, hstart, hdec, hservice⟩ := h
  refine ⟨key, kv, hlater.kept key kv hl ?_, hstart, hdec, hservice⟩
  obtain ⟨record, -, rfl⟩ := Option.map_eq_some_iff.mp hdec
  exact hle

def WrittenSince (r : LeaseStoreRegistry) (s s' : LeaseStore) (service : String) : Prop :=
  ∃ e, r.Holds s' service e ∧ s.revision < e.modRevision

theorem Shows.version_le (h : r.Shows s service snap) : snap.version ≤ s.revision := by
  by_cases hnil : snap.instances = []
  · exact (h.empty hnil).le
  · obtain ⟨e, he, heq⟩ := h.version hnil
    exact heq ▸ he.bounded.2

theorem version_lt_iff (hlater : RevStore.Later s s') (h : r.Shows s service snap) (h' : r.Shows s' service snap')
    (hdiff : ¬ ∀ inst, inst ∈ snap'.instances ↔ inst ∈ snap.instances) :
    snap.version < snap'.version ↔ snap'.instances = [] ∨ r.WrittenSince s s' service := by
  have hbound := h.version_le
  constructor
  · intro hlt
    by_contra hn
    rw [not_or] at hn
    -- Everything listed now was listed then, the newest entry included.
    obtain ⟨e, he, heq⟩ := h'.version hn.1
    have hold : e.modRevision ≤ s.revision := not_lt.mp fun hgt => hn.2 ⟨e, he, hgt⟩
    have := h.le_version e (he.kept hlater hold)
    omega
  · rintro (hnil | ⟨e, he, hgt⟩)
    · rw [h'.empty hnil]
      refine lt_of_le_of_ne (le_trans hbound hlater.revision_le) fun heq => hdiff ?_
      have hquiet := hlater.quiet (by have := hlater.revision_le; omega)
      intro inst
      rw [h.instances, h'.instances]
      simp only [Holds, hquiet]
    · exact lt_of_le_of_lt hbound (lt_of_lt_of_le hgt (h'.le_version e he))

end LeaseStoreRegistry

end AegisMesh.Registry

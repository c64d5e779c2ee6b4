import AegisMesh.Registry.Keys
import AegisMesh.Registry.Leases

/-!
# Fences

The `Registry` interface as its callers see it, and what a registry does with the
fence of a lease: the epoch and the owner token that a registration mints.
-/

open Lib

namespace AegisMesh.Registry

structure Fence where
  epoch : String
  token : String
deriving DecidableEq

def Instance.fence (inst : Instance) : Fence := ⟨inst.registrationEpoch, inst.ownerToken⟩

/-- What the world answers during one call: the context, the clock, and for a shared store
the revisions that others used up and the keys whose leases have ended. -/
structure Moment where
  ctx : Ctx := .background
  now : ℕ := 0
  gap : ℕ := 0
  ended : List String := []

structure Store (σ : Type) where
  register : σ → Moment → Instance → ℤ → Fence → σ × Option RegistryError
  heartbeatWithOwner : σ → Moment → String → String → Fence → ℤ → σ × Option RegistryError
  list : σ → Moment → String → σ × Except RegistryError (List Instance)
  sweepExpired : σ → Moment → σ

def Kept (owner owner' : String → String → Option Fence) : Prop :=
  ∀ service id, owner' service id = owner service id ∨ owner' service id = none

structure Store.KeepsFences {σ : Type} (R : Store σ) (good : σ → Prop) (owner : σ → String → String → Option Fence) :
    Prop where
  register : ∀ s m inst ttl fence, good s →
    good (R.register s m inst ttl fence).1 ∧
    ∀ service id, owner (R.register s m inst ttl fence).1 service id =
      if (R.register s m inst ttl fence).2 = none ∧ service = inst.service ∧ id = inst.id then some fence
      else owner s service id
  heartbeat : ∀ s m service id fence ttl, good s →
    good (R.heartbeatWithOwner s m service id fence ttl).1 ∧
    Kept (owner s) (owner (R.heartbeatWithOwner s m service id fence ttl).1)
  list : ∀ s m service, good s → good (R.list s m service).1 ∧ Kept (owner s) (owner (R.list s m service).1)
  shows : ∀ s m service instances, good s → (R.list s m service).2 = .ok instances →
    ∀ inst ∈ instances, owner s service inst.id = some inst.fence
  sweep : ∀ s m, good s → good (R.sweepExpired s m) ∧ Kept (owner s) (owner (R.sweepExpired s m))

structure Store.ListsOwn {σ : Type} (R : Store σ) (good : σ → Prop) : Prop where
  own : ∀ s m service instances, good s → (R.list s m service).2 = .ok instances →
    ∀ inst ∈ instances, inst.service = service
  distinct : ∀ s m service instances, good s → (R.list s m service).2 = .ok instances →
    (instances.map Instance.id).Nodup

/-! ## The memory registry -/

namespace MemoryRegistry

def store : Store MemoryRegistry where
  register r m inst ttl fence := r.registerAt m.ctx inst ttl m.now fence.epoch fence.token
  heartbeatWithOwner r m service id fence ttl :=
    r.heartbeatWithOwner m.ctx service id fence.epoch fence.token ttl m.now
  list r m service := r.list m.ctx service m.now
  sweepExpired r m := (r.sweepExpired m.ctx m.now).1

def owner (r : MemoryRegistry) (service id : String) : Option Fence :=
  (r.lease service id).map fun record => record.inst.fence

variable {r r' : MemoryRegistry} {now t : ℕ}

theorem DropsExpired.kept (h : r.DropsExpired r' now) : Kept r.owner r'.owner := by
  intro service id
  rcases h service id with hsame | ⟨hnone, -⟩
  · exact Or.inl (by rw [owner, owner, hsame])
  · exact Or.inr (by rw [owner, hnone]; rfl)

def registered (r : MemoryRegistry) (inst : Instance) (ttl : ℤ) (now : ℕ) (fence : Fence) : Record where
  inst := { inst with
    status := inst.status.normalized
    lastSeen := now
    registrationEpoch := fence.epoch
    ownerToken := fence.token
    labels := cloneLabels inst.labels }
  expiresAt := addTTL now ttl
  generation := r.generation + 1

theorem registerAt_cases (r : MemoryRegistry) (ctx : Ctx) (inst : Instance) (ttl : ℤ) (now : ℕ) (fence : Fence) :
    (∃ err, r.registerAt ctx inst ttl now fence.epoch fence.token = (r, some err)) ∨
    ∃ r', r.registerAt ctx inst ttl now fence.epoch fence.token = (r', none) ∧
      r'.services = (r.putRecord (r.registered inst ttl now fence) now).services := by
  unfold registerAt
  split
  · exact Or.inl ⟨_, rfl⟩
  split
  · exact Or.inl ⟨_, rfl⟩
  split
  · exact Or.inl ⟨_, rfl⟩
  · exact Or.inr ⟨_, rfl, rfl⟩

theorem heartbeatWithOwner_kept (h : r.WellFormed t) (hle : now ≤ t) (ctx : Ctx) (service id epoch token : String)
    (ttl : ℤ) :
    (r.heartbeatWithOwner ctx service id epoch token ttl now).1.WellFormed t ∧
    Kept r.owner (r.heartbeatWithOwner ctx service id epoch token ttl now).1.owner := by
  unfold heartbeatWithOwner
  split
  · exact ⟨h, fun _ _ => Or.inl rfl⟩
  · refine ⟨h.heartbeat hle ctx service id epoch token ttl true true, fun service' id' => Or.inl ?_⟩
    cases heq : r.heartbeatAtWithOwner ctx service id epoch token ttl now true true with
    | mk r' err =>
    cases err with
    | none =>
      dsimp only [owner]
      rw [lease_heartbeat heq]
      split
      · rename_i hsame
        rw [hsame.1, hsame.2]
        cases r.lease service id <;> rfl
      · rfl
    | some err =>
      rcases r.heartbeatAtWithOwner_cases ctx service id epoch token ttl now true true with
        ⟨r'', err', heq', hserv⟩ | ⟨r'', s, record, -, -, heq', -⟩
      · obtain rfl : r' = r'' := by simp_all
        dsimp only [owner]
        rw [lease_congr hserv]
      · simp [heq] at heq'

theorem list_published (h : r.WellFormed t) {ctx : Ctx} {service : String} {instances : List Instance}
    (hlist : (r.list ctx service now).2 = .ok instances) :
    ∃ records u, instances = listing records u ∧
      ∀ id record, records.lookup id = some record → r.lease service id = some record := by
  simp only [list] at hlist
  unfold snapshot at hlist
  split at hlist
  · cases hlist
  split at hlist
  · cases hlist
  cases hs : r.services.lookup service with
  | none =>
    rw [hs] at hlist
    cases hlist
    exact ⟨∅, 0, rfl, fun id record hid => by simp at hid⟩
  | some s =>
    have hlease := lease_of_lookup hs
    obtain ⟨u, -, hpub⟩ := h.published hs
    rw [hs] at hlist
    dsimp only at hlist
    split at hlist
    · cases hlist
      rcases s.sweepExpired_cases service now with hsweep | ⟨hsweep, -⟩
      · rw [hsweep]
        refine ⟨_, now, (ServiceState.published_rebuild _ service now).instances, fun id record hid => ?_⟩
        rw [ServiceState.records_rebuild, Dict.lookup_filter, Option.filter_eq_some_iff] at hid
        exact (hlease id).trans hid.1
      · rw [hsweep]
        exact ⟨_, u, hpub.instances, fun id record hid => (hlease id).trans hid⟩
    · cases hlist
      exact ⟨_, u, hpub.instances, fun id record hid => (hlease id).trans hid⟩

theorem list_shows (h : r.WellFormed t) {ctx : Ctx} {service : String} {instances : List Instance}
    (hlist : (r.list ctx service now).2 = .ok instances) {inst : Instance} (hmem : inst ∈ instances) :
    ∃ record, r.lease service inst.id = some record ∧ record.inst = inst := by
  obtain ⟨records, u, rfl, hsub⟩ := list_published h hlist
  rw [listing, mem_sortBy, List.mem_map] at hmem
  obtain ⟨record, hrecord, rfl⟩ := hmem
  obtain ⟨⟨id, hid⟩, -⟩ := mem_liveRecords.mp hrecord
  have hlease := hsub id record hid
  exact ⟨record, (h.own hlease).2 ▸ hlease, rfl⟩

theorem store_keepsFences : store.KeepsFences (fun r => ∃ t, r.WellFormed t) owner where
  register r m inst ttl fence := by
    rintro ⟨t, h⟩
    have h := h.mono (le_max_left t m.now)
    change (∃ t, (r.registerAt m.ctx inst ttl m.now fence.epoch fence.token).1.WellFormed t) ∧ _
    rcases r.registerAt_cases m.ctx inst ttl m.now fence with ⟨err, heq⟩ | ⟨r', heq, hserv⟩
    · rw [heq]
      refine ⟨⟨_, h⟩, fun service id => ?_⟩
      simp only [store, heq]
      simp
    · rw [heq]
      refine ⟨⟨_, (h.putRecord (le_max_right t m.now) _).congr hserv⟩, fun service id => ?_⟩
      simp only [store, heq, owner, lease_congr hserv, lease_putRecord, registered, true_and]
      split <;> rfl
  heartbeat r m service id fence ttl := by
    rintro ⟨t, h⟩
    have h := heartbeatWithOwner_kept (h.mono (le_max_left t m.now)) (le_max_right t m.now) m.ctx service id
      fence.epoch fence.token ttl
    exact ⟨⟨_, h.1⟩, h.2⟩
  list r m service := by
    rintro ⟨t, h⟩
    exact ⟨⟨_, (h.mono (le_max_left t m.now)).snapshot (le_max_right t m.now) m.ctx service⟩,
      (r.dropsExpired_snapshot m.ctx service m.now).kept⟩
  shows r m service instances := by
    rintro ⟨t, h⟩ hlist inst hmem
    obtain ⟨record, hrecord, rfl⟩ := list_shows h hlist hmem
    rw [owner, hrecord, Option.map_some]
  sweep r m := by
    rintro ⟨t, h⟩
    obtain ⟨hswept, hwf⟩ :=
      sweepExpiredRecords_spec (h.mono (le_max_left t m.now)) (le_max_right t m.now) m.ctx
    exact ⟨⟨_, hwf⟩, hswept.dropsExpired.kept⟩

theorem store_listsOwn : store.ListsOwn (fun r => ∃ t, r.WellFormed t) where
  own r m service instances := by
    rintro ⟨t, h⟩ hlist inst hmem
    obtain ⟨record, hrecord, rfl⟩ := list_shows h hlist hmem
    exact (h.own hrecord).1
  distinct r m service instances := by
    rintro ⟨t, h⟩ hlist
    obtain ⟨records, u, rfl, hsub⟩ := list_published h hlist
    rw [List.Nodup, List.pairwise_map]
    exact (listing_strict (fun id record hid => (h.own (hsub id record hid)).2) u).imp ne_of_lt

end MemoryRegistry

/-! ## The lease-store registry -/

namespace LeaseStoreRegistry

def shared (keyPrefix : String) : LeaseStoreRegistry := { keyPrefix, escape := pathEscape }

def store (r : LeaseStoreRegistry) : Store LeaseStore where
  register s m inst ttl fence := r.register s m.gap m.ctx inst ttl m.now fence.epoch fence.token
  heartbeatWithOwner s m service id fence ttl :=
    r.heartbeatWithOwner s m.gap m.ctx service id fence.epoch fence.token ttl m.now
  list s m service := (s, r.list s m.ctx service)
  sweepExpired s m := s.expire m.gap m.ended

def fenceOf (kv : Entry (Option LeaseStoreRecord)) : Option Fence :=
  kv.value.map fun record => ⟨record.registrationEpoch, record.ownerToken⟩

def owner (r : LeaseStoreRegistry) (s : LeaseStore) (service id : String) : Option Fence :=
  (s.entries.lookup (r.instanceKey service id)).bind fenceOf

def Filed (r : LeaseStoreRegistry) (s : LeaseStore) : Prop :=
  ∀ key kv, s.entries.lookup key = some kv →
    ∃ record, kv.value = some record ∧ key = r.instanceKey record.service record.id

variable {r : LeaseStoreRegistry} {s : LeaseStore}

theorem instanceKey_shared {keyPrefix service id service' id' : String} :
    (shared keyPrefix).instanceKey service id = (shared keyPrefix).instanceKey service' id' ↔
      service = service' ∧ id = id' :=
  instanceKey_eq_iff escapes_pathEscape

theorem Filed.put (h : r.Filed s) (gap : ℕ) {key : String} {record : LeaseStoreRecord}
    (hkey : key = r.instanceKey record.service record.id) : r.Filed (s.put gap key (some record)) := by
  intro k kv hl
  simp only [RevStore.put, Dict.lookup_insert'] at hl
  split at hl
  · rename_i hk
    cases hl
    exact ⟨record, rfl, hk.trans hkey⟩
  · exact h k kv hl

theorem owner_put {keyPrefix : String} (gap : ℕ) (service id : String) (record : LeaseStoreRecord)
    (service' id' : String) :
    (shared keyPrefix).owner (s.put gap ((shared keyPrefix).instanceKey service id) (some record)) service' id' =
      if service' = service ∧ id' = id then some ⟨record.registrationEpoch, record.ownerToken⟩
      else (shared keyPrefix).owner s service' id' := by
  simp only [owner, RevStore.put, Dict.lookup_insert', instanceKey_shared]
  split <;> rfl

theorem Filed.expire (h : r.Filed s) (gap : ℕ) (keys : List String) :
    r.Filed (s.expire gap keys) ∧ Kept (r.owner s) (r.owner (s.expire gap keys)) := by
  constructor
  · intro key kv hl
    simp only [RevStore.expire, Dict.lookup_filter, Option.filter_eq_some_iff] at hl
    exact h key kv hl.1
  · intro service id
    simp only [owner, RevStore.expire, Dict.lookup_filter]
    cases s.entries.lookup (r.instanceKey service id) with
    | none => exact Or.inl rfl
    | some kv =>
      by_cases hkey : r.instanceKey service id ∈ keys
      · exact Or.inr (by simp [hkey])
      · exact Or.inl (by simp [hkey, Option.filter])

theorem owner_of_lookup {service id : String} {kv : Entry (Option LeaseStoreRecord)}
    (h : s.entries.lookup (r.instanceKey service id) = some kv) : r.owner s service id = fenceOf kv := by
  rw [owner, h, Option.bind_some]

theorem heartbeatWithOwner_cases (r : LeaseStoreRegistry) (s : LeaseStore) (gap : ℕ) (ctx : Ctx)
    (service id epoch token : String) (ttl : ℤ) (now : ℕ) :
    (r.heartbeatWithOwner s gap ctx service id epoch token ttl now).1 = s ∨
    ∃ kv record, s.entries.lookup (r.instanceKey service id) = some kv ∧ kv.value = some record ∧
      (r.heartbeatWithOwner s gap ctx service id epoch token ttl now).1 =
        s.put gap (r.instanceKey service id)
          (some (encodeLeaseStoreRecord { decodeLeaseStoreRecord record with lastSeen := now })) := by
  unfold heartbeatWithOwner
  split
  · exact Or.inl rfl
  cases hread : r.heartbeatRead s ctx service id epoch token ttl true true with
  | error err => exact Or.inl rfl
  | ok read =>
    obtain ⟨inst, modRevision⟩ := read
    unfold heartbeatRead at hread
    split at hread
    · cases hread
    split at hread
    · cases hread
    cases hkv : s.entries.lookup (r.instanceKey service id) with
    | none => simp [hkv] at hread
    | some kv =>
      rw [hkv] at hread
      cases hvalue : kv.value with
      | none => simp [hvalue] at hread
      | some record =>
        simp only [hvalue] at hread
        split_ifs at hread
        cases hread
        refine Or.inr ⟨kv, record, rfl, hvalue, ?_⟩
        simp [heartbeatWrite, RevStore.update, hkv]

theorem store_keepsFences (keyPrefix : String) :
    (shared keyPrefix).store.KeepsFences (shared keyPrefix).Filed (shared keyPrefix).owner where
  register s m inst ttl fence h := by
    simp only [store, LeaseStoreRegistry.register]
    split
    · exact ⟨h, fun service id => by simp⟩
    split
    · exact ⟨h, fun service id => by simp⟩
    · refine ⟨h.put m.gap rfl, fun service id => ?_⟩
      rw [owner_put]
      simp [encodeLeaseStoreRecord, minted]
  heartbeat s m service id fence ttl h := by
    simp only [store]
    rcases (shared keyPrefix).heartbeatWithOwner_cases s m.gap m.ctx service id fence.epoch fence.token ttl m.now with
      heq | ⟨kv, record, hl, hvalue, heq⟩
    · rw [heq]
      exact ⟨h, fun _ _ => Or.inl rfl⟩
    · obtain ⟨record', hvalue', hkey⟩ := h _ kv hl
      obtain rfl : record = record' := Option.some.inj (hvalue.symm.trans hvalue')
      rw [heq]
      refine ⟨h.put m.gap hkey, fun service' id' => Or.inl ?_⟩
      rw [owner_put]
      split
      · rename_i hsame
        obtain ⟨rfl, rfl⟩ := hsame
        rw [owner_of_lookup hl, fenceOf, hvalue]
        rfl
      · rfl
  list s m service h := ⟨h, fun _ _ => Or.inl rfl⟩
  shows s m service instances h hlist inst hmem := by
    simp only [store, LeaseStoreRegistry.list] at hlist
    cases hsnap : (shared keyPrefix).snapshot s m.ctx service with
    | error err => simp [hsnap, Except.map] at hlist
    | ok snap =>
      rw [hsnap] at hlist
      cases hlist
      obtain ⟨e, ⟨key, kv, hl, -, hdecode, hservice⟩, rfl⟩ := ((snapshot_spec hsnap).instances inst).mp hmem
      obtain ⟨record, hvalue, hkey⟩ := h key kv hl
      simp only [decodeEntry, hvalue, Option.map_some, Option.some.injEq] at hdecode
      subst hdecode hkey
      subst hservice
      exact (owner_of_lookup hl).trans (by rw [fenceOf, hvalue]; rfl)
  sweep s m h := h.expire m.gap m.ended

theorem decodeOwn_distinct (h : r.Filed s) {service : String} {own : List (Entry Instance)}
    (hown : decodeOwn service (listUnder s (r.servicePrefix service)) = some own) :
    ((own.map Entry.value).map Instance.id).Nodup := by
  obtain ⟨decoded, hdecoded, rfl⟩ := Option.map_eq_some_iff.mp hown
  have hkeys : (listUnder s (r.servicePrefix service)).Pairwise fun kv kv' =>
      ∀ record record', kv.value = some record → kv'.value = some record' → record.service = record'.service →
        record.id ≠ record'.id := by
    have hentries : s.entries.entries.Pairwise fun e e' => e.1 ≠ e'.1 := List.pairwise_map.mp s.entries.nodupKeys
    rw [listUnder, List.pairwise_map]
    refine (hentries.sublist List.filter_sublist).imp_of_mem fun {e e'} he he' hne => ?_
    intro record record' hrecord hrecord' hservice hid
    obtain ⟨_, hvalue, hkey⟩ := h e.1 e.2 (AList.mem_lookup_iff.mpr (List.mem_of_mem_filter he))
    obtain ⟨_, hvalue', hkey'⟩ := h e'.1 e'.2 (AList.mem_lookup_iff.mpr (List.mem_of_mem_filter he'))
    rw [hrecord, Option.some.injEq] at hvalue
    rw [hrecord', Option.some.injEq] at hvalue'
    exact hne (by rw [hkey, hkey', ← hvalue, ← hvalue', hservice, hid])
  have hids : decoded.Pairwise fun e e' => e.value.service = e'.value.service → e.value.id ≠ e'.value.id := by
    refine pairwise_mapM_option (fun kv kv' e e' hR he he' => ?_) hdecoded hkeys
    obtain ⟨record, hrecord, rfl⟩ := Option.map_eq_some_iff.mp he
    obtain ⟨record', hrecord', rfl⟩ := Option.map_eq_some_iff.mp he'
    exact hR record record' hrecord hrecord'
  rw [List.map_map, List.Nodup, List.pairwise_map]
  refine (hids.sublist List.filter_sublist).imp_of_mem fun {e e'} he he' hne => hne ?_
  have hservice := (List.mem_filter.mp he).2
  have hservice' := (List.mem_filter.mp he').2
  rw [of_decide_eq_true hservice, of_decide_eq_true hservice']

theorem store_listsOwn (keyPrefix : String) : (shared keyPrefix).store.ListsOwn (shared keyPrefix).Filed where
  own s m service instances h hlist inst hmem := by
    simp only [store, LeaseStoreRegistry.list] at hlist
    cases hsnap : (shared keyPrefix).snapshot s m.ctx service with
    | error err => simp [hsnap, Except.map] at hlist
    | ok snap =>
      rw [hsnap] at hlist
      cases hlist
      obtain ⟨e, ⟨key, kv, hl, -, hdecode, hservice⟩, rfl⟩ := ((snapshot_spec hsnap).instances inst).mp hmem
      exact hservice
  distinct s m service instances h hlist := by
    simp only [store, LeaseStoreRegistry.list, snapshot] at hlist
    split at hlist
    · cases hlist
    split at hlist
    · cases hlist
    cases hown : decodeOwn service (listUnder s ((shared keyPrefix).servicePrefix service)) with
    | none => simp [hown, Except.map] at hlist
    | some own =>
      rw [hown] at hlist
      cases hlist
      exact ((List.perm_insertionSort _ _).map Instance.id).nodup_iff.mpr (decodeOwn_distinct h hown)

end LeaseStoreRegistry

end AegisMesh.Registry

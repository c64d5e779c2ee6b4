import Mathlib.Data.Option.Basic
import AegisMesh.Registry.Fence

/-! # One service of two registries -/

open Lib

namespace AegisMesh.Registry

structure SnapshotStore (σ : Type) extends Store σ where
  snapshot : σ → Moment → String → σ × Except RegistryError InstanceSnapshot

structure SnapshotStore.Separates {σ : Type} (R : SnapshotStore σ) (good : σ → Prop)
    (alike : String → σ → σ → Prop) : Prop where
  good_register : ∀ s m inst ttl fence, good s → good (R.register s m inst ttl fence).1
  good_heartbeat : ∀ s m service id fence ttl, good s → good (R.heartbeatWithOwner s m service id fence ttl).1
  register : ∀ {s s'} m inst ttl fence, good s → good s' → alike inst.service s s' →
    (R.register s m inst ttl fence).2 = (R.register s' m inst ttl fence).2 ∧
    alike inst.service (R.register s m inst ttl fence).1 (R.register s' m inst ttl fence).1
  heartbeat : ∀ {s s'} m service id fence ttl, good s → good s' → alike service s s' →
    (R.heartbeatWithOwner s m service id fence ttl).2 = (R.heartbeatWithOwner s' m service id fence ttl).2 ∧
    alike service (R.heartbeatWithOwner s m service id fence ttl).1 (R.heartbeatWithOwner s' m service id fence ttl).1
  list : ∀ {s s'} m service, good s → good s' → alike service s s' →
    (R.list s m service).2 = (R.list s' m service).2
  lists : ∀ s m service, good s → service ≠ "" →
    ((∃ instances, (R.list s m service).2 = .ok instances) ↔ m.ctx 0 = false)
  snapshot : ∀ s m service, (R.list s m service).2 = (R.snapshot s m service).2.map InstanceSnapshot.instances
  own : ∀ s m service instances, good s → (R.list s m service).2 = .ok instances →
    ∀ inst ∈ instances, inst.service = service

/-! ## The memory registry -/

/-- What a record says to a reader. The generation is for the expiry heap alone. -/
def Record.lease (record : Record) : Instance × ℕ := (record.inst, record.expiresAt)

def SameLeases (records records' : Dict String Record) : Prop :=
  ∀ id, (records.lookup id).map Record.lease = (records'.lookup id).map Record.lease

def OwnIds (records : Dict String Record) : Prop := ∀ id record, records.lookup id = some record → record.inst.id = id

theorem OwnIds.insert {records : Dict String Record} (h : OwnIds records) {id : String} {record : Record}
    (hid : record.inst.id = id) : OwnIds (records.insert id record) := by
  exact Dict.forall_lookup_insert.mpr ⟨hid, fun i found _ hfound => h i found hfound⟩

theorem OwnIds.filter {records : Dict String Record} (h : OwnIds records) (p : String → Record → Bool) :
    OwnIds (Dict.filter p records) := by
  intro id record hid
  rw [Dict.lookup_filter, Option.filter_eq_some_iff] at hid
  exact h id record hid.1

namespace SameLeases

variable {records records' : Dict String Record}

theorem symm (h : SameLeases records records') : SameLeases records' records := fun id => (h id).symm

theorem lookup (h : SameLeases records records') {id : String} {record : Record}
    (hrecord : records.lookup id = some record) :
    ∃ record', records'.lookup id = some record' ∧ record'.inst = record.inst ∧
      record'.expiresAt = record.expiresAt := by
  have hid := h id
  rw [hrecord] at hid
  obtain ⟨record', hrecord', hlease⟩ := Option.map_eq_some_iff.mp hid.symm
  simp only [Record.lease, Prod.mk.injEq] at hlease
  exact ⟨record', hrecord', hlease.1, hlease.2⟩

theorem insert (h : SameLeases records records') (id : String) {record record' : Record}
    (hlease : record.lease = record'.lease) : SameLeases (records.insert id record) (records'.insert id record') := by
  intro i
  rw [Dict.lookup_insert', Dict.lookup_insert']
  split
  · simp [hlease]
  · exact h i

theorem filter (h : SameLeases records records') (now : ℕ) :
    SameLeases (Dict.filter (fun _ record => now < record.expiresAt) records)
      (Dict.filter (fun _ record => now < record.expiresAt) records') := by
  intro id
  rw [Dict.lookup_filter, Dict.lookup_filter]
  have hid := h id
  cases hrecord : records.lookup id with
  | none =>
    rw [hrecord, Option.map_none, eq_comm, Option.map_eq_none_iff] at hid
    rw [hid]
  | some record =>
    obtain ⟨record', hrecord', hinst, hexpires⟩ := h.lookup hrecord
    rw [hrecord']
    by_cases hlive : now < record.expiresAt
    · simp [Option.filter, hexpires, hlive, Record.lease, hinst]
    · simp [Option.filter, hexpires, hlive]

theorem mem_live (h : SameLeases records records') {now : ℕ} {record : Record} (hmem : record ∈ liveRecords records now) :
    ∃ record' ∈ liveRecords records' now, record'.inst = record.inst ∧ record'.expiresAt = record.expiresAt := by
  obtain ⟨⟨id, hid⟩, hlive⟩ := mem_liveRecords.mp hmem
  obtain ⟨record', hid', hinst, hexpires⟩ := h.lookup hid
  exact ⟨record', mem_liveRecords.mpr ⟨⟨id, hid'⟩, hexpires ▸ hlive⟩, hinst, hexpires⟩

theorem all_live (h : SameLeases records records') {now : ℕ}
    (hall : ∀ record ∈ Dict.values records', now < record.expiresAt) :
    ∀ record ∈ Dict.values records, now < record.expiresAt := by
  intro record hmem
  obtain ⟨id, hid⟩ := Dict.mem_values.mp hmem
  obtain ⟨record', hid', -, hexpires⟩ := h.lookup hid
  exact hexpires ▸ hall record' (Dict.mem_values.mpr ⟨id, hid'⟩)

theorem listing (h : SameLeases records records') (hown : OwnIds records) (hown' : OwnIds records') (now : ℕ) :
    listing records now = listing records' now := by
  have hsub : ∀ {records records' : Dict String Record}, SameLeases records records' → ∀ inst,
      inst ∈ Registry.listing records now → inst ∈ Registry.listing records' now := by
    intro records records' h inst hmem
    simp only [Registry.listing, mem_sortBy, List.mem_map] at hmem ⊢
    obtain ⟨record, hrecord, rfl⟩ := hmem
    obtain ⟨record', hrecord', hinst, -⟩ := h.mem_live hrecord
    exact ⟨record', hrecord', hinst⟩
  exact strict_ext Instance.id (MemoryRegistry.listing_strict hown now) (MemoryRegistry.listing_strict hown' now)
    fun inst => ⟨hsub h inst, hsub h.symm inst⟩

end SameLeases

theorem SameLeases.nextExpiry_le {records records' : Dict String Record} (h : SameLeases records records') (now : ℕ) :
    nextExpiry (liveRecords records' now) ≤ nextExpiry (liveRecords records now) := by
  have hnext := nextExpiry_liveRecords records' now
  by_cases hzero' : nextExpiry (liveRecords records' now) = 0
  · omega
  by_cases hzero : nextExpiry (liveRecords records now) = 0
  · -- Nothing is live in the one table, so nothing is in the other.
    obtain ⟨record', hmem', -⟩ := nextExpiry_mem hzero'
    obtain ⟨record, hmem, -⟩ := h.symm.mem_live hmem'
    rw [(nextExpiry_liveRecords records now).nil hzero] at hmem
    cases hmem
  · obtain ⟨record, hmem, heq⟩ := nextExpiry_mem hzero
    obtain ⟨record', hmem', -, hexpires⟩ := h.mem_live hmem
    have := hnext.le hzero' record' hmem'
    omega

namespace ServiceState

structure Alike (s s' : ServiceState) : Prop where
  version : s.version = s'.version
  snapshot : s.snapshot = s'.snapshot
  records : SameLeases s.records s'.records

variable {s s' : ServiceState}

theorem alike_rebuild {records records' : Dict String Record} (hversion : s.version = s'.version)
    (hrecords : SameLeases records records') (hown : OwnIds records) (hown' : OwnIds records') (service : String)
    (now : ℕ) :
    ({ s with records }.rebuildSnapshotLocked service now).Alike
      ({ s' with records := records' }.rebuildSnapshotLocked service now) where
  version := by simp [rebuildSnapshotLocked, hversion]
  snapshot := by
    simp only [rebuildSnapshotLocked, hversion, hrecords.listing hown hown' now,
      le_antisymm (hrecords.symm.nextExpiry_le now) (hrecords.nextExpiry_le now)]
  records := hrecords

theorem sweepExpired_live {service : String} {now : ℕ} (h : ∀ record ∈ Dict.values s.records, now < record.expiresAt) :
    (s.sweepExpired service now).1 = s := by
  have hkept : (s.records.entries.filter fun e => decide (now < e.2.expiresAt)) = s.records.entries :=
    List.filter_eq_self.mpr fun e he => decide_eq_true (h e.2 (List.mem_map.mpr ⟨e, he, rfl⟩))
  simp [sweepExpired, Dict.filter, hkept]

theorem Alike.sweepExpired (h : s.Alike s') (hown : OwnIds s.records) (hown' : OwnIds s'.records) (service : String)
    (now : ℕ) : (s.sweepExpired service now).1.Alike (s'.sweepExpired service now).1 := by
  rcases s.sweepExpired_cases service now with hswept | ⟨-, hall⟩
  · rcases s'.sweepExpired_cases service now with hswept' | ⟨-, hall'⟩
    · rw [hswept, hswept']
      exact alike_rebuild h.version (h.records.filter now) (hown.filter _) (hown'.filter _) service now
    · rw [sweepExpired_live hall', sweepExpired_live (h.records.all_live hall')]
      exact h
  · rw [sweepExpired_live hall, sweepExpired_live (h.records.symm.all_live hall)]
    exact h

end ServiceState

namespace MemoryRegistry

def snapshotStore : SnapshotStore MemoryRegistry where
  toStore := store
  snapshot r m service := r.snapshot m.ctx service m.now

def Alike (service : String) (r r' : MemoryRegistry) : Prop :=
  Option.Rel ServiceState.Alike (r.services.lookup service) (r'.services.lookup service)

variable {r r' : MemoryRegistry} {t t' now : ℕ} {service : String}

theorem Alike.refl (service : String) (r : MemoryRegistry) : Alike service r r := by
  unfold Alike
  cases r.services.lookup service with
  | none => exact .none
  | some s => exact .some ⟨rfl, rfl, fun _ => rfl⟩

theorem Alike.cases (h : Alike service r r') :
    (r.services.lookup service = none ∧ r'.services.lookup service = none) ∨
    ∃ s s', r.services.lookup service = some s ∧ r'.services.lookup service = some s' ∧ s.Alike s' := by
  unfold Alike at h
  generalize r.services.lookup service = found at h ⊢
  generalize r'.services.lookup service = found' at h ⊢
  cases h with
  | some h => exact .inr ⟨_, _, rfl, rfl, h⟩
  | none => exact .inl ⟨rfl, rfl⟩

theorem WellFormed.ownIds (h : r.WellFormed t) (service : String) : OwnIds (r.serviceState service).records :=
  fun id _ hid => (h.own ((lookup_serviceState r service id).symm.trans hid)).2

theorem Alike.serviceState (h : Alike service r r') : (r.serviceState service).Alike (r'.serviceState service) := by
  rcases h.cases with ⟨hs, hs'⟩ | ⟨s, s', hs, hs', halike⟩
  · rw [MemoryRegistry.serviceState, MemoryRegistry.serviceState, hs, hs']
    exact ⟨rfl, rfl, fun _ => rfl⟩
  · rwa [serviceState_of_lookup hs, serviceState_of_lookup hs']

theorem alike_setService {s s' : ServiceState} (h : s.Alike s') :
    Alike service (r.setService service s) (r'.setService service s') := by
  simp only [Alike, lookup_setService, if_true]
  exact .some h

theorem Alike.congr {q q' : MemoryRegistry} (h : Alike service r r') (hq : q.services = r.services)
    (hq' : q'.services = r'.services) : Alike service q q' := by
  unfold Alike
  rw [hq, hq']
  exact h

theorem Alike.insert (h : Alike service r r') (hwf : r.WellFormed t) (hwf' : r'.WellFormed t') (record record' : Record)
    (hlease : record.lease = record'.lease) (now : ℕ) :
    Alike service
      (r.setService service ({ r.serviceState service with
        records := (r.serviceState service).records.insert record.inst.id record }.rebuildSnapshotLocked service now))
      (r'.setService service ({ r'.serviceState service with
        records := (r'.serviceState service).records.insert record'.inst.id record'
        }.rebuildSnapshotLocked service now)) := by
  have hinst : record.inst = record'.inst := congrArg Prod.fst hlease
  rw [← hinst]
  exact alike_setService (ServiceState.alike_rebuild h.serviceState.version (h.serviceState.records.insert _ hlease)
    ((hwf.ownIds service).insert rfl) ((hwf'.ownIds service).insert (hinst ▸ rfl)) service now)

theorem Alike.snapshot (h : Alike service r r') (hwf : r.WellFormed t) (hwf' : r'.WellFormed t') (ctx : Ctx) (now : ℕ) :
    (r.snapshot ctx service now).2 = (r'.snapshot ctx service now).2 := by
  unfold MemoryRegistry.snapshot
  split
  · rfl
  split
  · rfl
  rcases h.cases with ⟨hs, hs'⟩ | ⟨s, s', hs, hs', halike⟩
  · rw [hs, hs']
  · have hown := hwf.ownIds service
    have hown' := hwf'.ownIds service
    rw [serviceState_of_lookup hs] at hown
    rw [serviceState_of_lookup hs'] at hown'
    rw [hs, hs']
    dsimp only
    rw [← halike.snapshot]
    split
    · exact congrArg Except.ok (halike.sweepExpired hown hown' service now).snapshot
    · rfl

theorem Alike.register {inst : Instance} (h : Alike inst.service r r') (hwf : r.WellFormed t) (hwf' : r'.WellFormed t')
    (ctx : Ctx) (ttl : ℤ) (now : ℕ) (epoch token : String) :
    (r.registerAt ctx inst ttl now epoch token).2 = (r'.registerAt ctx inst ttl now epoch token).2 ∧
    Alike inst.service (r.registerAt ctx inst ttl now epoch token).1 (r'.registerAt ctx inst ttl now epoch token).1 := by
  unfold registerAt
  split
  · exact ⟨rfl, h⟩
  split
  · exact ⟨rfl, h⟩
  split
  · exact ⟨rfl, h⟩
  · exact ⟨rfl, (h.insert hwf hwf' (r.registered inst ttl now ⟨epoch, token⟩) (r'.registered inst ttl now ⟨epoch, token⟩)
      rfl now).congr rfl rfl⟩

theorem checkFence_congr {record record' : Record} (h : record.inst = record'.inst) (epoch token : String)
    (requireEpoch requireOwner : Bool) :
    checkFence record epoch token requireEpoch requireOwner =
      checkFence record' epoch token requireEpoch requireOwner := by
  simp only [checkFence, h]

theorem Alike.heartbeat (h : Alike service r r') (hwf : r.WellFormed t) (hwf' : r'.WellFormed t') (ctx : Ctx)
    (id epoch token : String) (ttl : ℤ) (now : ℕ) :
    (r.heartbeatWithOwner ctx service id epoch token ttl now).2 =
      (r'.heartbeatWithOwner ctx service id epoch token ttl now).2 ∧
    Alike service (r.heartbeatWithOwner ctx service id epoch token ttl now).1
      (r'.heartbeatWithOwner ctx service id epoch token ttl now).1 := by
  unfold heartbeatWithOwner
  split
  · exact ⟨rfl, h⟩
  unfold heartbeatAtWithOwner
  split
  · exact ⟨rfl, h⟩
  split
  · exact ⟨rfl, h⟩
  rcases h.cases with ⟨hs, hs'⟩ | ⟨s, s', hs, hs', halike⟩
  · rw [hs, hs']
    exact ⟨rfl, h⟩
  rw [hs, hs']
  dsimp only
  cases hid : s.records.lookup id with
  | none =>
    have hid' : s'.records.lookup id = none := by simpa [hid] using (halike.records id).symm
    rw [hid']
    exact ⟨rfl, h.congr rfl rfl⟩
  | some record =>
    obtain ⟨record', hid', hinst, -⟩ := halike.records.lookup hid
    rw [hid']
    dsimp only
    rw [checkFence_congr hinst]
    split
    · exact ⟨rfl, h.congr rfl rfl⟩
    · have hown : (record.renew now ttl (r.generation + 1)).inst.id = id :=
        (hwf.own ((lease_of_lookup hs id).trans hid)).2
      have hown' : (record'.renew now ttl (r'.generation + 1)).inst.id = id :=
        (hwf'.own ((lease_of_lookup hs' id).trans hid')).2
      have hrenewed := h.insert hwf hwf' (record.renew now ttl (r.generation + 1))
        (record'.renew now ttl (r'.generation + 1)) (by simp [Record.lease, Record.renew, hinst]) now
      rw [serviceState_of_lookup hs, serviceState_of_lookup hs', hown, hown'] at hrenewed
      exact ⟨rfl, hrenewed.congr rfl rfl⟩

theorem list_ok_iff (r : MemoryRegistry) (ctx : Ctx) (hservice : service ≠ "") (now : ℕ) :
    (∃ instances, (r.list ctx service now).2 = .ok instances) ↔ ctx 0 = false := by
  simp only [list, snapshot]
  cases ctx 0 with
  | true => simp [Except.map]
  | false =>
    simp only [Bool.false_eq_true, if_false, hservice, iff_true]
    cases r.services.lookup service with
    | none => exact ⟨_, rfl⟩
    | some s =>
      dsimp only
      split <;> exact ⟨_, rfl⟩

theorem snapshotStore_separates : snapshotStore.Separates (fun r => ∃ t, r.WellFormed t) Alike where
  good_register s m inst ttl fence h := (store_keepsFences.register s m inst ttl fence h).1
  good_heartbeat s m service id fence ttl h := (store_keepsFences.heartbeat s m service id fence ttl h).1
  register m inst ttl fence := by
    rintro ⟨t, hwf⟩ ⟨t', hwf'⟩ h
    exact h.register hwf hwf' m.ctx ttl m.now fence.epoch fence.token
  heartbeat m service id fence ttl := by
    rintro ⟨t, hwf⟩ ⟨t', hwf'⟩ h
    exact h.heartbeat hwf hwf' m.ctx id fence.epoch fence.token ttl m.now
  list m service := by
    rintro ⟨t, hwf⟩ ⟨t', hwf'⟩ h
    exact congrArg (Except.map InstanceSnapshot.instances) (h.snapshot hwf hwf' m.ctx m.now)
  lists r m _ _ hservice := r.list_ok_iff m.ctx hservice m.now
  snapshot s m service := rfl
  own s m service instances := store_listsOwn.own s m service instances

end MemoryRegistry

/-! ## The lease-store registry -/

namespace LeaseStoreRegistry

def snapshotStore (r : LeaseStoreRegistry) : SnapshotStore LeaseStore where
  toStore := r.store
  snapshot s m service := (s, r.snapshot s m.ctx service)

def Alike (r : LeaseStoreRegistry) (service : String) (s s' : LeaseStore) : Prop :=
  ∀ key, (r.servicePrefix service).toList.isPrefixOf key.toList = true →
    (s.entries.lookup key).map Entry.value = (s'.entries.lookup key).map Entry.value

variable {r : LeaseStoreRegistry} {s s' : LeaseStore} {service : String}

theorem servicePrefix_instanceKey (r : LeaseStoreRegistry) (service id : String) :
    (r.servicePrefix service).toList.isPrefixOf (r.instanceKey service id).toList = true := by
  rw [instanceKey, String.toList_append, List.isPrefixOf_iff_prefix]
  exact List.prefix_append _ _

theorem Alike.symm (h : r.Alike service s s') : r.Alike service s' s := fun key hkey => (h key hkey).symm

theorem Alike.put (h : r.Alike service s s') (gap : ℕ) (key : String) (value : Option LeaseStoreRecord) :
    r.Alike service (s.put gap key value) (s'.put gap key value) := by
  intro k hk
  rw [RevStore.lookup_put, RevStore.lookup_put]
  split
  · rfl
  · exact h k hk

theorem Filed.decodeOwn (h : r.Filed s) (service : String) :
    ∃ own, decodeOwn service (listUnder s (r.servicePrefix service)) = some own := by
  have hdecodes : ∀ kvs : List (Entry (Option LeaseStoreRecord)), (∀ kv ∈ kvs, ∃ e, decodeEntry kv = some e) →
      ∃ decoded, kvs.mapM decodeEntry = some decoded := by
    intro kvs
    induction kvs with
    | nil => exact fun _ => ⟨[], rfl⟩
    | cons kv rest ih =>
      intro hall
      obtain ⟨e, he⟩ := hall kv List.mem_cons_self
      obtain ⟨decoded, hdecoded⟩ := ih fun kv hkv => hall kv (List.mem_cons_of_mem _ hkv)
      exact ⟨e :: decoded, by simp [List.mapM_cons, he, hdecoded]⟩
  obtain ⟨decoded, hdecoded⟩ := hdecodes (listUnder s (r.servicePrefix service)) fun kv hkv => by
    obtain ⟨key, hl, -⟩ := mem_listUnder.mp hkv
    obtain ⟨record, hvalue, -⟩ := h key kv hl
    exact ⟨_, by rw [decodeEntry, hvalue, Option.map_some]⟩
  exact ⟨_, by rw [LeaseStoreRegistry.decodeOwn, hdecoded, Option.map_some]⟩

theorem Alike.holds (h : r.Alike service s s') {e : Entry Instance} (he : r.Holds s service e) :
    ∃ e', r.Holds s' service e' ∧ e'.value = e.value := by
  obtain ⟨key, kv, hl, hkey, hdecode, hservice⟩ := he
  have hvalue := h key hkey
  rw [hl, Option.map_some] at hvalue
  obtain ⟨kv', hl', hsame⟩ := Option.map_eq_some_iff.mp hvalue.symm
  obtain ⟨record, hrecord, rfl⟩ := Option.map_eq_some_iff.mp hdecode
  refine ⟨{ value := decodeLeaseStoreRecord record, modRevision := kv'.modRevision },
    ⟨key, kv', hl', hkey, ?_, hservice⟩, rfl⟩
  rw [decodeEntry, hsame, hrecord, Option.map_some]

theorem Alike.list (h : r.Alike service s s') (hs : r.Filed s) (hs' : r.Filed s') (ctx : Ctx) :
    r.list s ctx service = r.list s' ctx service := by
  simp only [LeaseStoreRegistry.list, snapshot]
  split
  · rfl
  split
  · rfl
  obtain ⟨own, hown⟩ := hs.decodeOwn service
  obtain ⟨own', hown'⟩ := hs'.decodeOwn service
  have hmem : ∀ inst, inst ∈ sortBy Instance.id (own.map Entry.value) ↔
      inst ∈ sortBy Instance.id (own'.map Entry.value) := by
    intro inst
    simp only [mem_sortBy, List.mem_map, mem_decodeOwn hown, mem_decodeOwn hown']
    constructor
    · rintro ⟨e, he, rfl⟩
      exact h.holds he
    · rintro ⟨e, he, rfl⟩
      exact h.symm.holds he
  rw [hown, hown']
  exact congrArg Except.ok (strict_ext Instance.id (sortBy_strict _ (decodeOwn_distinct hs hown))
    (sortBy_strict _ (decodeOwn_distinct hs' hown')) hmem)

theorem snapshot_ok_iff (h : r.Filed s) (ctx : Ctx) (hservice : service ≠ "") :
    (∃ snap, r.snapshot s ctx service = .ok snap) ↔ ctx 0 = false := by
  obtain ⟨own, hown⟩ := h.decodeOwn service
  simp only [snapshot, hservice, hown]
  cases ctx 0 <;> simp

theorem list_ok_iff (h : r.Filed s) (ctx : Ctx) (hservice : service ≠ "") :
    (∃ instances, r.list s ctx service = .ok instances) ↔ ctx 0 = false := by
  rw [← snapshot_ok_iff h ctx hservice, LeaseStoreRegistry.list]
  cases r.snapshot s ctx service <;> simp [Except.map]

theorem Alike.heartbeatRead (h : r.Alike service s s') (ctx : Ctx) (id epoch token : String) (ttl : ℤ)
    (requireEpoch requireOwner : Bool) :
    (r.heartbeatRead s ctx service id epoch token ttl requireEpoch requireOwner).map Prod.fst =
      (r.heartbeatRead s' ctx service id epoch token ttl requireEpoch requireOwner).map Prod.fst := by
  unfold LeaseStoreRegistry.heartbeatRead
  split
  · rfl
  split
  · rfl
  have hvalue := h _ (r.servicePrefix_instanceKey service id)
  cases hl : s.entries.lookup (r.instanceKey service id) with
  | none =>
    rw [hl, Option.map_none, eq_comm, Option.map_eq_none_iff] at hvalue
    rw [hvalue]
  | some kv =>
    rw [hl, Option.map_some, eq_comm] at hvalue
    obtain ⟨kv', hl', hsame⟩ := Option.map_eq_some_iff.mp hvalue
    rw [hl']
    dsimp only
    rw [hsame]
    split
    · rfl
    split
    · rfl
    split <;> rfl

theorem heartbeatWrite_read {ctx : Ctx} {id epoch token : String} {ttl : ℤ} {requireEpoch requireOwner : Bool}
    {inst : Instance} {modRevision : ℕ}
    (h : r.heartbeatRead s ctx service id epoch token ttl requireEpoch requireOwner = .ok (inst, modRevision))
    (gap now : ℕ) :
    r.heartbeatWrite s gap service id inst modRevision now =
      (s.put gap (r.instanceKey service id) (some (encodeLeaseStoreRecord { inst with lastSeen := now })), none) := by
  unfold heartbeatRead at h
  split at h
  · cases h
  split at h
  · cases h
  cases hl : s.entries.lookup (r.instanceKey service id) with
  | none => simp [hl] at h
  | some kv =>
    rw [hl] at h
    cases hvalue : kv.value with
    | none => simp [hvalue] at h
    | some record =>
      simp only [hvalue] at h
      split_ifs at h
      cases h
      simp [heartbeatWrite, RevStore.update, hl]

theorem Alike.heartbeat (h : r.Alike service s s') (gap : ℕ) (ctx : Ctx) (id epoch token : String) (ttl : ℤ) (now : ℕ) :
    (r.heartbeatWithOwner s gap ctx service id epoch token ttl now).2 =
      (r.heartbeatWithOwner s' gap ctx service id epoch token ttl now).2 ∧
    r.Alike service (r.heartbeatWithOwner s gap ctx service id epoch token ttl now).1
      (r.heartbeatWithOwner s' gap ctx service id epoch token ttl now).1 := by
  unfold heartbeatWithOwner
  split
  · exact ⟨rfl, h⟩
  have hread := h.heartbeatRead ctx id epoch token ttl true true
  cases hs : r.heartbeatRead s ctx service id epoch token ttl true true with
  | error err =>
    cases hs' : r.heartbeatRead s' ctx service id epoch token ttl true true with
    | error err' =>
      rw [hs, hs'] at hread
      cases hread
      exact ⟨rfl, h⟩
    | ok read => simp [hs, hs', Except.map] at hread
  | ok read =>
    cases hs' : r.heartbeatRead s' ctx service id epoch token ttl true true with
    | error err => simp [hs, hs', Except.map] at hread
    | ok read' =>
      have hinst : read.1 = read'.1 := by simpa [hs, hs', Except.map] using hread
      dsimp only
      rw [heartbeatWrite_read hs, heartbeatWrite_read hs', hinst]
      exact ⟨rfl, h.put gap _ _⟩

theorem snapshotStore_separates (keyPrefix : String) :
    (shared keyPrefix).snapshotStore.Separates (shared keyPrefix).Filed (shared keyPrefix).Alike where
  good_register s m inst ttl fence h := ((store_keepsFences keyPrefix).register s m inst ttl fence h).1
  good_heartbeat s m service id fence ttl h := ((store_keepsFences keyPrefix).heartbeat s m service id fence ttl h).1
  register m inst ttl fence _ _ h := by
    simp only [snapshotStore, store, LeaseStoreRegistry.register]
    split
    · exact ⟨rfl, h⟩
    split
    · exact ⟨rfl, h⟩
    · exact ⟨rfl, h.put _ _ _⟩
  heartbeat m service id fence ttl _ _ h := h.heartbeat m.gap m.ctx id fence.epoch fence.token ttl m.now
  list m service hs hs' h := h.list hs hs' m.ctx
  lists s m service h hservice := list_ok_iff h m.ctx hservice
  snapshot s m service := rfl
  own s m service instances := (store_listsOwn keyPrefix).own s m service instances

/-! ## Versions of one service -/

def SameEntries (r : LeaseStoreRegistry) (service : String) (s s' : LeaseStore) : Prop :=
  ∀ key, (r.servicePrefix service).toList.isPrefixOf key.toList = true → s.entries.lookup key = s'.entries.lookup key

theorem SameEntries.alike (h : r.SameEntries service s s') : r.Alike service s s' := fun key hkey => by rw [h key hkey]

theorem SameEntries.holds (h : r.SameEntries service s s') {e : Entry Instance} :
    r.Holds s service e ↔ r.Holds s' service e := by
  constructor
  · rintro ⟨key, kv, hl, hkey, hrest⟩
    exact ⟨key, kv, (h key hkey) ▸ hl, hkey, hrest⟩
  · rintro ⟨key, kv, hl, hkey, hrest⟩
    exact ⟨key, kv, (h key hkey).symm ▸ hl, hkey, hrest⟩

theorem SameEntries.version {ctx ctx' : Ctx} {snap snap' : InstanceSnapshot} (h : r.SameEntries service s s')
    (hsnap : r.snapshot s ctx service = .ok snap) (hsnap' : r.snapshot s' ctx' service = .ok snap') :
    snap.version = snap'.version ∧ snap.instances ≠ [] ∨
      snap.instances = [] ∧ snap.version = s.revision ∧ snap'.version = s'.revision := by
  have hshows := snapshot_spec hsnap
  have hshows' := snapshot_spec hsnap'
  have hnil : snap.instances = [] ↔ snap'.instances = [] := by
    simp only [List.eq_nil_iff_forall_not_mem, hshows.instances, hshows'.instances, h.holds]
  by_cases hempty : snap.instances = []
  · exact .inr ⟨hempty, hshows.empty hempty, hshows'.empty (hnil.mp hempty)⟩
  · obtain ⟨e, he, hversion⟩ := hshows.version hempty
    obtain ⟨e', he', hversion'⟩ := hshows'.version fun h => hempty (hnil.mpr h)
    have hle := hshows'.le_version e (h.holds.mp he)
    have hle' := hshows.le_version e' (h.holds.mpr he')
    exact .inl ⟨by omega, hempty⟩

end LeaseStoreRegistry

end AegisMesh.Registry

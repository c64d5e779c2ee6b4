import AegisMesh.Lib.Runs
import AegisMesh.Registry.Memory

/-! # The lease table of the in-memory registry -/

open Lib

namespace AegisMesh.Registry

/-! ## Snapshots of one service -/

structure IsNextExpiry (recs : List Record) (next : ℕ) : Prop where
  le : next ≠ 0 → ∀ record ∈ recs, next ≤ record.expiresAt
  nil : next = 0 → recs = []

theorem nextExpiry_snoc (recs : List Record) (last : Record) :
    nextExpiry (recs ++ [last]) =
      if nextExpiry recs = 0 ∨ last.expiresAt < nextExpiry recs then last.expiresAt else nextExpiry recs := by
  rw [nextExpiry, List.foldl_append]
  rfl

theorem nextExpiry_spec (recs : List Record) (hpos : ∀ record ∈ recs, 0 < record.expiresAt) :
    IsNextExpiry recs (nextExpiry recs) := by
  induction recs using List.reverseRecOn with
  | nil => exact ⟨by simp, by simp⟩
  | append_singleton recs last ih =>
    have ih := ih fun record hr => hpos record (by simp [hr])
    have hlast : 0 < last.expiresAt := hpos last (by simp)
    rw [nextExpiry_snoc]
    split
    · rename_i h
      refine ⟨fun _ record hr => ?_, fun h0 => absurd h0 (by omega)⟩
      rcases List.mem_append.mp hr with hr | hr
      · rcases h with h | h
        · simp [ih.nil h] at hr
        · exact le_trans h.le (ih.le (by omega) record hr)
      · simp_all
    · rename_i h
      push Not at h
      refine ⟨fun _ record hr => ?_, fun h0 => absurd h0 h.1⟩
      rcases List.mem_append.mp hr with hr | hr
      · exact ih.le h.1 record hr
      · simp_all

theorem nextExpiry_mem {recs : List Record} (h : nextExpiry recs ≠ 0) :
    ∃ record ∈ recs, record.expiresAt = nextExpiry recs := by
  induction recs using List.reverseRecOn with
  | nil => exact absurd rfl h
  | append_singleton recs last ih =>
    rw [nextExpiry_snoc] at h ⊢
    split
    · exact ⟨last, by simp, rfl⟩
    · rename_i hnot
      obtain ⟨record, hr, heq⟩ := ih (by omega)
      exact ⟨record, by simp [hr], heq⟩

theorem mem_liveRecords {records : Dict String Record} {now : ℕ} {record : Record} :
    record ∈ liveRecords records now ↔ (∃ id, records.lookup id = some record) ∧ now < record.expiresAt := by
  simp [liveRecords, Dict.mem_values]

theorem nextExpiry_liveRecords (records : Dict String Record) (now : ℕ) :
    IsNextExpiry (liveRecords records now) (nextExpiry (liveRecords records now)) :=
  nextExpiry_spec _ fun _ hr => Nat.zero_lt_of_lt (mem_liveRecords.mp hr).2

theorem liveRecords_filter (records : Dict String Record) (now : ℕ) :
    liveRecords (Dict.filter (fun _ record => now < record.expiresAt) records) now = liveRecords records now := by
  simp only [liveRecords, Dict.values, Dict.filter, List.filter_map, List.filter_filter]
  congr 2
  funext e
  simp

structure ServiceState.Published (s : ServiceState) (u : ℕ) : Prop where
  instances : s.snapshot.instances = listing s.records u
  next : s.snapshot.nextExpiresAt = nextExpiry (liveRecords s.records u)

namespace ServiceState

variable {s : ServiceState} {u t : ℕ}

@[simp] theorem records_rebuild (s : ServiceState) (service : String) (now : ℕ) :
    (s.rebuildSnapshotLocked service now).records = s.records := rfl

theorem published_rebuild (s : ServiceState) (service : String) (now : ℕ) :
    (s.rebuildSnapshotLocked service now).Published now := ⟨rfl, rfl⟩

theorem Published.instances_eq (h : s.Published u) (hut : u ≤ t) (hn : snapshotNeedsExpiry s.snapshot t = false) :
    s.snapshot.instances = listing s.records t := by
  have hnext := nextExpiry_liveRecords s.records u
  rw [← h.next] at hnext
  have hlive : liveRecords s.records u = liveRecords s.records t := by
    apply List.filter_congr
    intro record hr
    have hiff : u < record.expiresAt ↔ t < record.expiresAt := by
      refine ⟨fun hu => ?_, fun ht => by omega⟩
      have hmem : record ∈ liveRecords s.records u := mem_liveRecords.mpr ⟨Dict.mem_values.mp hr, hu⟩
      by_cases h0 : s.snapshot.nextExpiresAt = 0
      · simp [hnext.nil h0] at hmem
      · have hle := hnext.le h0 record hmem
        simp only [snapshotNeedsExpiry, ne_eq, h0, not_false_eq_true, decide_true, Bool.true_and,
          Bool.not_eq_false', decide_eq_true_eq] at hn
        omega
    simp [hiff]
  rw [h.instances, listing, listing, hlive]

theorem sweepExpired_cases (s : ServiceState) (service : String) (now : ℕ) :
    (s.sweepExpired service now).1 =
        { s with records := Dict.filter (fun _ record => now < record.expiresAt) s.records
          }.rebuildSnapshotLocked service now ∨
      (s.sweepExpired service now).1 = s ∧ ∀ record ∈ Dict.values s.records, now < record.expiresAt := by
  simp only [sweepExpired]
  split
  · exact Or.inl rfl
  · rename_i hexp
    refine Or.inr ⟨rfl, fun record hr => ?_⟩
    have hkept : (s.records.entries.filter fun e => decide (now < e.2.expiresAt)) = s.records.entries := by
      apply List.Sublist.eq_of_length_le List.filter_sublist
      simp only [Dict.filter] at hexp
      omega
    obtain ⟨e, he, rfl⟩ := List.mem_map.mp hr
    simpa using List.filter_eq_self.mp hkept e he

theorem lookup_sweepExpired (s : ServiceState) (service : String) (now : ℕ) (id : String) :
    (s.sweepExpired service now).1.records.lookup id =
      (s.records.lookup id).filter fun record => now < record.expiresAt := by
  rcases s.sweepExpired_cases service now with h | ⟨h, hall⟩
  · rw [h, records_rebuild, Dict.lookup_filter]
  · rw [h]
    cases hid : s.records.lookup id with
    | none => rfl
    | some record => simp [Option.filter, hall record (Dict.mem_values.mpr ⟨id, hid⟩)]

theorem Published.published_sweepExpired (h : s.Published u) (hut : u ≤ t) (service : String) :
    (s.sweepExpired service t).1.Published t := by
  rcases s.sweepExpired_cases service t with hs | ⟨hs, hall⟩
  · rw [hs]
    exact published_rebuild _ service t
  · have hlive : liveRecords s.records u = liveRecords s.records t := by
      apply List.filter_congr
      intro record hr
      have := hall record hr
      simp only [decide_eq_decide]
      omega
    rw [hs]
    exact ⟨by rw [h.instances, listing, listing, hlive], by rw [h.next, hlive]⟩

theorem listing_sweepExpired (s : ServiceState) (service : String) (now : ℕ) :
    listing (s.sweepExpired service now).1.records now = listing s.records now := by
  rcases s.sweepExpired_cases service now with h | ⟨h, -⟩
  · rw [h, records_rebuild, listing, listing, liveRecords_filter]
  · rw [h]

end ServiceState

namespace MemoryRegistry

variable {r r' : MemoryRegistry} {now t : ℕ} {service : String} {s : ServiceState} {entry : ExpiryEntry}
  {expired : List ExpiredRecord}

/-! ## The table -/

@[simp] theorem lookup_setService (r : MemoryRegistry) (service service' : String) (s : ServiceState) :
    (r.setService service s).services.lookup service' =
      if service' = service then some s else r.services.lookup service' :=
  Dict.lookup_insert' ..

theorem lease_setService (r : MemoryRegistry) (service service' id : String) (s : ServiceState) :
    (r.setService service s).lease service' id =
      if service' = service then s.records.lookup id else r.lease service' id := by
  simp only [lease, lookup_setService]
  split <;> rfl

@[simp] theorem services_pushExpiry (r : MemoryRegistry) (entry : ExpiryEntry) :
    (r.pushExpiry entry).services = r.services := rfl

theorem lookup_serviceState (r : MemoryRegistry) (service id : String) :
    (r.serviceState service).records.lookup id = r.lease service id := by
  unfold serviceState lease
  cases r.services.lookup service <;> rfl

theorem serviceState_of_lookup (h : r.services.lookup service = some s) :
    r.serviceState service = s := by
  rw [serviceState, h, Option.getD_some]

theorem lease_of_lookup (h : r.services.lookup service = some s) (id : String) :
    r.lease service id = s.records.lookup id := by
  rw [lease, h, Option.bind_some]

theorem lease_congr (h : r.services = r'.services) (service id : String) :
    r.lease service id = r'.lease service id := by
  rw [lease, lease, h]

theorem lease_putRecord (r : MemoryRegistry) (record : Record) (now : ℕ) (service id : String) :
    (r.putRecord record now).lease service id =
      if service = record.inst.service ∧ id = record.inst.id then some record else r.lease service id := by
  simp only [putRecord, lease_setService, ServiceState.records_rebuild, Dict.lookup_insert', lookup_serviceState]
  by_cases hs : service = record.inst.service <;> by_cases hi : id = record.inst.id <;> simp [hs, hi]

/-! ## Well-formed registries -/

/-- Every record stands under its own names, and every published snapshot was built no
later than `now`. -/
structure WellFormed (r : MemoryRegistry) (now : ℕ) : Prop where
  own : ∀ {service id record}, r.lease service id = some record →
    record.inst.service = service ∧ record.inst.id = id
  published : ∀ {service s}, r.services.lookup service = some s → ∃ u ≤ now, s.Published u

theorem wellFormed_empty (now : ℕ) : WellFormed {} now := by
  constructor
  · intro service id record h
    simp [lease] at h
  · intro service s h
    simp at h

theorem WellFormed.mono (h : r.WellFormed now) (hle : now ≤ t) : r.WellFormed t where
  own := h.own
  published hs := by
    obtain ⟨u, hu, hp⟩ := h.published hs
    exact ⟨u, le_trans hu hle, hp⟩

theorem WellFormed.congr (h : r.WellFormed now) (hs : r'.services = r.services) : r'.WellFormed now where
  own hl := h.own (lease_congr hs _ _ ▸ hl)
  published hl := h.published (hs ▸ hl)

theorem WellFormed.setService (h : r.WellFormed now)
    (hown : ∀ {id record}, s.records.lookup id = some record → record.inst.service = service ∧ record.inst.id = id)
    (hpub : ∃ u ≤ now, s.Published u) : (r.setService service s).WellFormed now := by
  constructor
  · intro service' id record hl
    rw [lease_setService] at hl
    split at hl
    · rename_i hs
      exact hs ▸ hown hl
    · exact h.own hl
  · intro service' s' hl
    rw [lookup_setService] at hl
    split at hl
    · cases hl
      exact hpub
    · exact h.published hl

theorem WellFormed.putRecord (h : r.WellFormed t) (hle : now ≤ t) (record : Record) :
    (r.putRecord record now).WellFormed t := by
  apply h.setService
  · intro id record' hl
    rw [ServiceState.records_rebuild, Dict.lookup_insert', lookup_serviceState] at hl
    split at hl
    · cases hl
      simp_all
    · exact h.own hl
  · exact ⟨now, hle, ServiceState.published_rebuild _ _ _⟩

/-! ## Heartbeats -/

theorem heartbeatAtWithOwner_err (r : MemoryRegistry) (ctx : Ctx) (service id epoch token : String) (ttl : ℤ)
    (now : ℕ) (requireEpoch requireOwner : Bool) :
    (r.heartbeatAtWithOwner ctx service id epoch token ttl now requireEpoch requireOwner).2 =
      r.validateHeartbeatWithOwner ctx service id epoch token ttl requireEpoch requireOwner := by
  unfold heartbeatAtWithOwner validateHeartbeatWithOwner
  split
  · rfl
  split
  · rfl
  cases r.services.lookup service with
  | none => rfl
  | some s =>
    dsimp only
    cases s.records.lookup id with
    | none => rfl
    | some record =>
      dsimp only
      cases checkFence record epoch token requireEpoch requireOwner <;> rfl

theorem validate_lease {ctx : Ctx} {service id epoch token : String} {ttl : ℤ} {requireEpoch requireOwner : Bool}
    (h : r.validateHeartbeatWithOwner ctx service id epoch token ttl requireEpoch requireOwner = none) :
    0 < ttl ∧ ∃ record, r.lease service id = some record ∧
      checkFence record epoch token requireEpoch requireOwner = none := by
  unfold validateHeartbeatWithOwner at h
  split at h
  · cases h
  split at h
  · cases h
  rename_i hargs
  refine ⟨by omega, ?_⟩
  unfold lease
  cases hs : r.services.lookup service with
  | none => simp [hs] at h
  | some s =>
    cases hrec : s.records.lookup id with
    | none => simp [hs, hrec] at h
    | some record => exact ⟨record, by simp [hrec], by simpa [hs, hrec] using h⟩

theorem validate_unfenced {service id : String} {ttl : ℤ} (hs : service ≠ "") (hi : id ≠ "") (httl : 0 < ttl) :
    r.validateHeartbeatWithOwner .background service id "" "" ttl false false =
      if (r.lease service id).isSome then none else some .instanceNotFound := by
  unfold validateHeartbeatWithOwner lease
  rw [if_neg (by simp [Ctx.background]), if_neg (by simp [hs, hi, httl])]
  cases hserv : r.services.lookup service with
  | none => rfl
  | some s => cases hrec : s.records.lookup id <;> simp [hrec, checkFence]

theorem heartbeatAtWithOwner_cases (r : MemoryRegistry) (ctx : Ctx) (service id epoch token : String) (ttl : ℤ)
    (now : ℕ) (requireEpoch requireOwner : Bool) :
    (∃ r' err, r.heartbeatAtWithOwner ctx service id epoch token ttl now requireEpoch requireOwner = (r', some err) ∧
      r'.services = r.services) ∨
    (∃ r' s record, r.services.lookup service = some s ∧ s.records.lookup id = some record ∧
      r.heartbeatAtWithOwner ctx service id epoch token ttl now requireEpoch requireOwner = (r', none) ∧
      r'.services = (r.setService service ({ s with
        records := s.records.insert id (record.renew now ttl (r.generation + 1))
        }.rebuildSnapshotLocked service now)).services) := by
  unfold heartbeatAtWithOwner
  split
  · exact Or.inl ⟨r, _, rfl, rfl⟩
  split
  · exact Or.inl ⟨r, _, rfl, rfl⟩
  cases hs : r.services.lookup service with
  | none => exact Or.inl ⟨r, _, rfl, rfl⟩
  | some s =>
    cases hrec : s.records.lookup id with
    | none =>
      simp only [hrec]
      exact Or.inl ⟨_, _, rfl, rfl⟩
    | some record =>
      cases hf : checkFence record epoch token requireEpoch requireOwner with
      | some err =>
        simp only [hrec, hf]
        exact Or.inl ⟨_, _, rfl, rfl⟩
      | none =>
        simp only [hrec, hf]
        exact Or.inr ⟨_, s, record, rfl, hrec, rfl, rfl⟩

theorem lease_heartbeat {ctx : Ctx} {service id epoch token : String} {ttl : ℤ} {requireEpoch requireOwner : Bool}
    (h : r.heartbeatAtWithOwner ctx service id epoch token ttl now requireEpoch requireOwner = (r', none))
    (service' id' : String) :
    r'.lease service' id' =
      if service' = service ∧ id' = id then
        (r.lease service id).map fun record => record.renew now ttl (r.generation + 1)
      else r.lease service' id' := by
  rcases r.heartbeatAtWithOwner_cases ctx service id epoch token ttl now requireEpoch requireOwner with
    ⟨r'', err, heq, -⟩ | ⟨r'', s, record, hs, hrec, heq, hserv⟩
  · simp [h] at heq
  · obtain rfl : r' = r'' := by simpa [h] using heq
    have hlease := lease_of_lookup hs
    rw [lease_congr hserv, lease_setService, ServiceState.records_rebuild, Dict.lookup_insert', hlease, hrec]
    by_cases hs' : service' = service <;> by_cases hi : id' = id <;> simp [hs', hi, hlease]

theorem WellFormed.heartbeat (h : r.WellFormed t) (hle : now ≤ t) (ctx : Ctx) (service id epoch token : String) (ttl : ℤ)
    (requireEpoch requireOwner : Bool) :
    (r.heartbeatAtWithOwner ctx service id epoch token ttl now requireEpoch requireOwner).1.WellFormed t := by
  rcases r.heartbeatAtWithOwner_cases ctx service id epoch token ttl now requireEpoch requireOwner with
    ⟨r', err, heq, hserv⟩ | ⟨r', s, record, hs, hrec, heq, hserv⟩
  · rw [heq]
    exact h.congr hserv
  · rw [heq]
    have hlease := lease_of_lookup hs
    refine WellFormed.congr (h.setService ?_ ⟨now, hle, ServiceState.published_rebuild _ _ _⟩) hserv
    intro i record' hl
    rw [ServiceState.records_rebuild, Dict.lookup_insert'] at hl
    split at hl
    · cases hl
      rename_i hi
      have hown := h.own ((hlease id).trans hrec)
      exact ⟨hown.1, hi ▸ hown.2⟩
    · exact h.own ((hlease i).trans hl)

/-! ## Reads -/

def DropsExpired (r r' : MemoryRegistry) (now : ℕ) : Prop :=
  ∀ service id, r'.lease service id = r.lease service id ∨
    r'.lease service id = none ∧ ∃ record, r.lease service id = some record ∧ record.expiresAt ≤ now

theorem snapshot_cases (r : MemoryRegistry) (ctx : Ctx) (service : String) (now : ℕ) :
    (r.snapshot ctx service now).1 = r ∨
    ∃ s, r.services.lookup service = some s ∧
      (r.snapshot ctx service now).1 = r.setService service (s.sweepExpired service now).1 := by
  unfold snapshot
  split
  · exact Or.inl rfl
  split
  · exact Or.inl rfl
  cases hs : r.services.lookup service with
  | none => exact Or.inl rfl
  | some s =>
    dsimp only
    split
    · exact Or.inr ⟨s, rfl, rfl⟩
    · exact Or.inl rfl

theorem dropsExpired_snapshot (r : MemoryRegistry) (ctx : Ctx) (service : String) (now : ℕ) :
    r.DropsExpired (r.snapshot ctx service now).1 now := by
  intro service' id
  rcases r.snapshot_cases ctx service now with h | ⟨s, hs, h⟩
  · exact Or.inl (by rw [h])
  · rw [h, lease_setService]
    split
    · rename_i hs'
      subst hs'
      rw [lease_of_lookup hs, ServiceState.lookup_sweepExpired]
      cases s.records.lookup id with
      | none => exact Or.inl rfl
      | some record =>
        by_cases hlive : now < record.expiresAt
        · exact Or.inl (by simp [Option.filter, hlive])
        · exact Or.inr ⟨by simp [Option.filter, hlive], record, rfl, by omega⟩
    · exact Or.inl rfl

theorem WellFormed.snapshot (h : r.WellFormed t) (hle : now ≤ t) (ctx : Ctx) (service : String) :
    (r.snapshot ctx service now).1.WellFormed t := by
  rcases r.snapshot_cases ctx service now with heq | ⟨s, hs, heq⟩
  · rwa [heq]
  · rw [heq]
    have hpub : ∃ u ≤ t, (s.sweepExpired service now).1.Published u := by
      rcases s.sweepExpired_cases service now with hsweep | ⟨hsweep, -⟩
      · exact ⟨now, hle, by rw [hsweep]; exact ServiceState.published_rebuild _ _ _⟩
      · rw [hsweep]
        exact h.published hs
    refine h.setService ?_ hpub
    intro id record hl
    rw [ServiceState.lookup_sweepExpired, Option.filter_eq_some_iff] at hl
    exact h.own (by simpa [lease, hs] using hl.1)

def liveInstances (r : MemoryRegistry) (service : String) (t : ℕ) : List Instance :=
  listing (r.serviceState service).records t

theorem list_spec (h : r.WellFormed t) (hservice : service ≠ "") :
    (r.list .background service t).2 = .ok (r.liveInstances service t) := by
  simp only [list, snapshot, liveInstances, serviceState, Ctx.background, Bool.false_eq_true, if_false, hservice]
  cases hs : r.services.lookup service with
  | none => rfl
  | some s =>
    obtain ⟨u, hu, hpub⟩ := h.published hs
    by_cases hn : snapshotNeedsExpiry s.snapshot t = true
    · have hswept := hpub.published_sweepExpired hu service
      simp [hn, Except.map, hswept.instances, ServiceState.listing_sweepExpired]
    · simp [hn, Except.map, hpub.instances_eq hu (by simpa using hn)]

theorem mem_liveInstances {inst : Instance} :
    inst ∈ r.liveInstances service t ↔
      ∃ id record, r.lease service id = some record ∧ t < record.expiresAt ∧ record.inst = inst := by
  simp only [liveInstances, listing, mem_sortBy, List.mem_map, mem_liveRecords, lookup_serviceState]
  constructor
  · rintro ⟨record, ⟨⟨id, hl⟩, hlive⟩, rfl⟩
    exact ⟨id, record, hl, hlive, rfl⟩
  · rintro ⟨id, record, hl, hlive, rfl⟩
    exact ⟨record, ⟨⟨id, hl⟩, hlive⟩, rfl⟩

theorem listing_strict {records : Dict String Record}
    (hown : ∀ id record, records.lookup id = some record → record.inst.id = id) (t : ℕ) :
    (listing records t).Pairwise fun a b => a.id < b.id := by
  apply sortBy_strict
  have hkeys : ((liveRecords records t).map Record.inst).map Instance.id =
      (records.entries.filter fun e => decide (t < e.2.expiresAt)).map Sigma.fst := by
    simp only [liveRecords, Dict.values, List.filter_map, List.map_map]
    exact List.map_congr_left fun e he => hown e.1 e.2 (AList.mem_lookup_iff.mpr (List.mem_of_mem_filter he))
  rw [hkeys]
  exact records.nodupKeys.sublist List.filter_sublist

theorem WellFormed.liveInstances_strict (h : r.WellFormed now) (service : String) (t : ℕ) :
    (r.liveInstances service t).Pairwise fun a b => a.id < b.id :=
  listing_strict (fun id _ hl => (h.own ((lookup_serviceState r service id).symm.trans hl)).2) t

/-! ## Sweeps -/

theorem popExpired_eq_some (h : r.popExpired now = some (entry, r')) :
    r.expiries.entries = entry :: r'.expiries.entries ∧ entry.expiresAt ≤ now ∧ r'.services = r.services ∧
      r'.generation = r.generation := by
  unfold popExpired at h
  split at h
  · cases h
  · rename_i hpop
    split at h
    · cases h
    · rename_i hdue
      cases h
      exact ⟨PQueue.pop_eq_some hpop, by omega, rfl, rfl⟩

theorem popExpired_services (h : r.popExpired now = some (entry, r')) :
    r'.services = r.services := (popExpired_eq_some h).2.2.1

theorem lease_deleteFrom (r : MemoryRegistry) (service id service' id' : String) :
    (r.deleteFrom service id).lease service' id' =
      if service' = service ∧ id' = id then none else r.lease service' id' := by
  simp only [deleteFrom, lease_setService, Dict.lookup_erase', lookup_serviceState]
  by_cases hs : service' = service <;> by_cases hi : id' = id <;> simp [hs, hi]

/-- What a sweep at `now` that reports `expired` has done: the reported records had run
out and are gone, the others are as they were, and a service without one is untouched. -/
structure Swept (r r' : MemoryRegistry) (expired : List ExpiredRecord) (now : ℕ) : Prop where
  gone : ∀ e ∈ expired, r'.lease e.service e.id = none ∧
    ∃ record, r.lease e.service e.id = some record ∧ record.expiresAt ≤ now
  kept : ∀ service id, ⟨service, id⟩ ∉ expired → r'.lease service id = r.lease service id
  untouched : ∀ service, service ∉ expired.map ExpiredRecord.service →
    r'.services.lookup service = r.services.lookup service

theorem Swept.refl (r : MemoryRegistry) (now : ℕ) : Swept r r [] now :=
  ⟨by simp, fun _ _ _ => rfl, fun _ _ => rfl⟩

theorem Swept.dropsExpired (h : Swept r r' expired now) :
    r.DropsExpired r' now := by
  intro service id
  by_cases hmem : ⟨service, id⟩ ∈ expired
  · exact Or.inr (h.gone _ hmem)
  · exact Or.inl (h.kept service id hmem)

theorem Swept.congr {r'' : MemoryRegistry} (h : Swept r r' expired now) (hs : r''.services = r'.services) :
    Swept r r'' expired now where
  gone e he := by rw [lease_congr hs]; exact h.gone e he
  kept service id hn := by rw [lease_congr hs]; exact h.kept service id hn
  untouched service hn := by rw [hs]; exact h.untouched service hn

theorem Swept.delete (h : Swept r r' expired now) (hdue : r'.isDue entry now = true) :
    Swept r (r'.deleteFrom entry.service entry.id) (expired ++ [⟨entry.service, entry.id⟩]) now := by
  constructor
  · intro e he
    rcases List.mem_append.mp he with he | he
    · refine ⟨?_, (h.gone e he).2⟩
      rw [lease_deleteFrom]
      split
      · rfl
      · exact (h.gone e he).1
    · obtain rfl := List.mem_singleton.mp he
      refine ⟨by rw [lease_deleteFrom]; simp, ?_⟩
      unfold isDue at hdue
      split at hdue
      · cases hdue
      · rename_i record hl
        simp only [Bool.and_eq_true, Bool.not_eq_true', decide_eq_false_iff_not, not_lt] at hdue
        -- The record was still there, so this key was not deleted before.
        have hnot : (⟨entry.service, entry.id⟩ : ExpiredRecord) ∉ expired := by
          intro hmem
          simp [(h.gone _ hmem).1] at hl
        exact ⟨record, h.kept _ _ hnot ▸ hl, hdue.2⟩
  · intro service id hn
    rw [List.mem_append, not_or] at hn
    rw [lease_deleteFrom, if_neg, h.kept service id hn.1]
    rintro ⟨rfl, rfl⟩
    simp at hn
  · intro service hn
    rw [List.map_append, List.mem_append, not_or] at hn
    rw [deleteFrom, lookup_setService, if_neg (by simpa using hn.2), h.untouched service hn.1]

theorem sweepLoop_spec (fuel : ℕ) : ∀ (ctx : Ctx) (r₁ : MemoryRegistry) (expired : List ExpiredRecord),
    Swept r r₁ expired now →
      Swept r (sweepLoop now fuel ctx r₁ expired).1 (sweepLoop now fuel ctx r₁ expired).2 now := by
  induction fuel with
  | zero => intro ctx r₁ expired h; exact h
  | succ fuel ih =>
    intro ctx r₁ expired h
    unfold sweepLoop
    split
    · exact h
    · rename_i entry r₂ hpop
      have h₂ := h.congr (popExpired_services hpop)
      split
      · exact h₂
      · split
        · rename_i hdue
          exact ih _ _ _ (h₂.delete hdue)
        · exact ih _ _ _ h₂

theorem foldl_rebuildService_spec (services : List String) (r : MemoryRegistry) (now : ℕ) :
    (∀ service id, (services.foldl (rebuildService now) r).lease service id = r.lease service id) ∧
    (∀ service ∉ services,
      (services.foldl (rebuildService now) r).services.lookup service = r.services.lookup service) ∧
    (∀ service ∈ services, ∃ s, (services.foldl (rebuildService now) r).services.lookup service = some s ∧
      s.Published now) := by
  induction services using List.reverseRecOn with
  | nil => exact ⟨fun _ _ => rfl, fun _ _ => rfl, by simp⟩
  | append_singleton services last ih =>
    obtain ⟨hlease, hother, hpub⟩ := ih
    simp only [List.foldl_append, List.foldl_cons, List.foldl_nil, rebuildService]
    refine ⟨fun service id => ?_, fun service hn => ?_, fun service hmem => ?_⟩
    · rw [lease_setService, ServiceState.records_rebuild, lookup_serviceState, hlease, hlease]
      split
      · rename_i hs
        rw [hs]
      · rfl
    · simp only [List.mem_append, List.mem_singleton, not_or] at hn
      rw [lookup_setService, if_neg hn.2, hother service hn.1]
    · rw [lookup_setService]
      split
      · exact ⟨_, rfl, ServiceState.published_rebuild _ _ _⟩
      · rename_i hs
        simp only [List.mem_append, List.mem_singleton, hs, or_false] at hmem
        exact hpub service hmem

theorem frame_foldl_rebuildService (services : List String) (r : MemoryRegistry) (now : ℕ) :
    (services.foldl (rebuildService now) r).expiries = r.expiries ∧
      (services.foldl (rebuildService now) r).generation = r.generation :=
  run_invariant (I := fun r' : MemoryRegistry => r'.expiries = r.expiries ∧ r'.generation = r.generation)
    (fun r' service (h : (rebuildService now r' service).expiries = _ ∧ _) => h) ⟨rfl, rfl⟩ services

theorem Swept.rebuild {r₁ : MemoryRegistry} (h : Swept r r₁ expired now) :
    Swept r ((expired.map ExpiredRecord.service).dedup.foldl (rebuildService now) r₁) expired now := by
  obtain ⟨hlease, hother, -⟩ := foldl_rebuildService_spec (expired.map ExpiredRecord.service).dedup r₁ now
  refine ⟨fun e he => ?_, fun service id hn => ?_, fun service hn => ?_⟩
  · rw [hlease]
    exact h.gone e he
  · rw [hlease]
    exact h.kept service id hn
  · rw [hother service (by simpa using hn)]
    exact h.untouched service hn

theorem sweepExpiredRecords_spec (h : r.WellFormed t) (hle : now ≤ t) (ctx : Ctx) :
    Swept r (r.sweepExpiredRecords ctx now).1 (r.sweepExpiredRecords ctx now).2 now ∧
    (r.sweepExpiredRecords ctx now).1.WellFormed t := by
  unfold sweepExpiredRecords
  split
  · exact ⟨Swept.refl r now, h⟩
  · have hloop := sweepLoop_spec r.expiries.entries.length (ctx.after 1) r [] (Swept.refl r now)
    generalize sweepLoop now r.expiries.entries.length (ctx.after 1) r [] = out at hloop
    obtain ⟨r₁, expired⟩ := out
    obtain ⟨-, -, hpub⟩ := foldl_rebuildService_spec (expired.map ExpiredRecord.service).dedup r₁ now
    have hswept := hloop.rebuild
    dsimp only at hswept ⊢
    refine ⟨hswept, ?_, ?_⟩
    · intro service id record hl
      rcases hswept.dropsExpired service id with hsame | ⟨hnone, -⟩
      · exact h.own (hsame ▸ hl)
      · simp [hnone] at hl
    · intro service s hl
      by_cases hdirty : service ∈ expired.map ExpiredRecord.service
      · obtain ⟨s', hs', hfresh⟩ := hpub service (by simpa using hdirty)
        obtain rfl : s' = s := Option.some.inj (hs'.symm.trans hl)
        exact ⟨now, hle, hfresh⟩
      · rw [hswept.untouched service hdirty] at hl
        exact h.published hl

/-! ## Replay -/

theorem lease_deleteRecord (r : MemoryRegistry) (service id : String) (now : ℕ) (service' id' : String) :
    (r.deleteRecord service id now).1.lease service' id' =
      if service' = service ∧ id' = id then none else r.lease service' id' := by
  unfold deleteRecord
  cases hs : r.services.lookup service with
  | none =>
    by_cases h : service' = service ∧ id' = id
    · obtain ⟨rfl, rfl⟩ := h
      simp [lease, hs]
    · simp [h]
  | some s =>
    have hlease := lease_of_lookup hs
    cases hrec : s.records.lookup id with
    | none =>
      by_cases h : service' = service ∧ id' = id
      · simp [h, hlease, hrec]
      · simp [h, hrec]
    | some record =>
      simp only [hrec, lease_setService, ServiceState.records_rebuild, Dict.lookup_erase']
      by_cases hs' : service' = service <;> by_cases hi : id' = id <;> simp [hs', hi, hlease]

theorem WellFormed.deleteRecord (h : r.WellFormed t) (hle : now ≤ t) (service id : String) :
    (r.deleteRecord service id now).1.WellFormed t := by
  unfold MemoryRegistry.deleteRecord
  cases hs : r.services.lookup service with
  | none => exact h
  | some s =>
    cases hrec : s.records.lookup id with
    | none => simpa only [hrec] using h
    | some record =>
      simp only [hrec]
      refine h.setService ?_ ⟨now, hle, ServiceState.published_rebuild _ _ _⟩
      intro id' record' hl
      rw [ServiceState.records_rebuild, Dict.lookup_erase'] at hl
      split at hl
      · cases hl
      · exact h.own (by simpa [lease, hs] using hl)

theorem lease_restoreHistorical (r : MemoryRegistry) {inst : Instance} (hnamed : inst.named = true)
    (expiresAt now : ℕ) (epoch token service id : String) :
    (r.restoreHistorical inst expiresAt now epoch token).lease service id =
      if service = inst.service ∧ id = inst.id then
        some ⟨restoredInstance inst epoch token, expiresAt, r.generation + 1⟩
      else r.lease service id := by
  simp only [restoreHistorical, restoreRecord, hnamed, Bool.not_true, Bool.false_eq_true, if_false, Bool.false_and]
  rw [lease_congr (services_pushExpiry _ _), lease_putRecord]
  rfl

theorem WellFormed.restoreRecord (h : r.WellFormed t) (hle : now ≤ t) (inst : Instance) (expiresAt : ℕ)
    (filterExpired : Bool) (filterNow : ℕ) (epoch token : String) :
    (r.restoreRecord inst expiresAt filterExpired filterNow now epoch token).WellFormed t := by
  unfold MemoryRegistry.restoreRecord
  split
  · exact h
  split
  · exact h
  · exact WellFormed.congr (WellFormed.putRecord (h.congr rfl) hle _) (services_pushExpiry _ _)

theorem WellFormed.restoreHistorical (h : r.WellFormed now) (inst : Instance) (expiresAt : ℕ)
    (epoch token : String) : (r.restoreHistorical inst expiresAt now epoch token).WellFormed now :=
  h.restoreRecord le_rfl inst expiresAt false now epoch token

end MemoryRegistry

end AegisMesh.Registry

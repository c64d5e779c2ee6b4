import AegisMesh.Registry.Calls

/-! # Reads and lease semantics -/

open Lib

namespace AegisMesh.Registry

/-! ## When a snapshot runs out -/

namespace ServiceState

variable {s s' : ServiceState} {u u' t : ℕ}

theorem Published.needsExpiry_iff (h : s.Published u) :
    snapshotNeedsExpiry s.snapshot t = true ↔
      ∃ id record, s.records.lookup id = some record ∧ u < record.expiresAt ∧ record.expiresAt ≤ t := by
  have hspec := nextExpiry_liveRecords s.records u
  simp only [snapshotNeedsExpiry, h.next, ne_eq, Bool.and_eq_true, decide_eq_true_eq, Bool.not_eq_true',
    decide_eq_false_iff_not, not_lt]
  constructor
  · rintro ⟨hne, hle⟩
    obtain ⟨record, hr, heq⟩ := nextExpiry_mem hne
    obtain ⟨⟨id, hl⟩, hlive⟩ := mem_liveRecords.mp hr
    exact ⟨id, record, hl, hlive, by omega⟩
  · rintro ⟨id, record, hl, hlive, hle⟩
    have hr : record ∈ liveRecords s.records u := mem_liveRecords.mpr ⟨⟨id, hl⟩, hlive⟩
    have hne : nextExpiry (liveRecords s.records u) ≠ 0 := fun h0 => by simp [hspec.nil h0] at hr
    exact ⟨hne, le_trans (hspec.le hne record hr) hle⟩

def looked (s : ServiceState) (ctx : Ctx) (service : String) (now : ℕ) : ServiceState :=
  if ctx 0 = false ∧ service ≠ "" ∧ snapshotNeedsExpiry s.snapshot now = true ∧ ctx 1 = false then
    (s.sweepExpired service now).1
  else s

/-! ## One service in two runs -/

/-- The service in a run with additional reads, published at `u'`, and in the run without them, published at `u`. What
the first lacks had run out when it was published. -/
structure Ahead (s s' : ServiceState) (u u' : ℕ) : Prop where
  published : s.Published u
  published' : s'.Published u'
  sub : ∀ {id record}, s'.records.lookup id = some record → s.records.lookup id = some record
  missing : ∀ {id record}, s.records.lookup id = some record →
    s'.records.lookup id = some record ∨ record.expiresAt ≤ u'
  hidden : u' ≤ u ∨ ∀ {id record}, s'.records.lookup id = some record → u' < record.expiresAt

theorem ahead_new (service : String) : (newServiceState service).Ahead (newServiceState service) 0 0 where
  published := ⟨rfl, rfl⟩
  published' := ⟨rfl, rfl⟩
  sub h := h
  missing h := Or.inl h
  hidden := Or.inl le_rfl

theorem Ahead.insert (h : s.Ahead s' u u') (hle : u' ≤ t) (service id : String) (record : Record) :
    ({ s with records := s.records.insert id record }.rebuildSnapshotLocked service t).Ahead
      ({ s' with records := s'.records.insert id record }.rebuildSnapshotLocked service t) t t where
  published := published_rebuild _ service t
  published' := published_rebuild _ service t
  sub {id' record'} hl := by
    rw [records_rebuild, Dict.lookup_insert'] at hl ⊢
    by_cases hid : id' = id
    · rwa [if_pos hid] at hl ⊢
    · rw [if_neg hid] at hl ⊢
      exact h.sub hl
  missing {id' record'} hl := by
    rw [records_rebuild, Dict.lookup_insert'] at hl ⊢
    by_cases hid : id' = id
    · rw [if_pos hid] at hl ⊢
      exact Or.inl hl
    · rw [if_neg hid] at hl ⊢
      exact (h.missing hl).imp_right fun hgone => le_trans hgone hle
  hidden := Or.inl le_rfl

theorem Ahead.sweep_right (h : s.Ahead s' u u') (hle : u' ≤ t) (service : String) :
    ∃ v ≤ t, s.Ahead (s'.sweepExpired service t).1 u v ∧
      ∀ {id record}, (s'.sweepExpired service t).1.records.lookup id = some record → t < record.expiresAt := by
  have hlive : ∀ {id record}, (s'.sweepExpired service t).1.records.lookup id = some record →
      s'.records.lookup id = some record ∧ t < record.expiresAt := by
    intro id record hl
    rw [lookup_sweepExpired, Option.filter_eq_some_iff] at hl
    simpa using hl
  have hpub := s'.sweepExpired_cases service t
  have hsub : ∀ {id record}, (s'.sweepExpired service t).1.records.lookup id = some record →
      s.records.lookup id = some record := fun hl => h.sub (hlive hl).1
  rcases hpub with heq | ⟨heq, -⟩
  · refine ⟨t, le_rfl, ⟨h.published, ?_, hsub, ?_, Or.inr fun hl => (hlive hl).2⟩, fun hl => (hlive hl).2⟩
    · rw [heq]
      exact published_rebuild _ service t
    · intro id record hl
      by_cases hexp : record.expiresAt ≤ t
      · exact Or.inr hexp
      · refine Or.inl ?_
        rcases h.missing hl with hl' | hgone
        · rw [lookup_sweepExpired, hl', Option.filter, if_pos (by simpa using hexp)]
        · omega
  · rw [heq] at hlive ⊢
    exact ⟨u', hle, h, fun hl => (hlive hl).2⟩

theorem Ahead.sweep_left (h : s.Ahead s' u u') (hu : u ≤ t) (hle : u' ≤ t)
    (hlive : ∀ {id record}, s'.records.lookup id = some record → t < record.expiresAt) (service : String) :
    ∃ v ≤ t, (s.sweepExpired service t).1.Ahead s' v u' := by
  rcases s.sweepExpired_cases service t with heq | ⟨heq, -⟩
  · refine ⟨t, le_rfl, ?_, h.published', ?_, ?_, Or.inl hle⟩
    · rw [heq]
      exact published_rebuild _ service t
    · intro id record hl
      rw [lookup_sweepExpired, h.sub hl, Option.filter, if_pos (by simpa using hlive hl)]
    · intro id record hl
      rw [lookup_sweepExpired, Option.filter_eq_some_iff] at hl
      exact h.missing hl.1
  · rw [heq]
    exact ⟨u, hu, h⟩

theorem Ahead.live_of_needsExpiry (h : s.Ahead s' u u') (hneeds : snapshotNeedsExpiry s.snapshot t = true)
    (hnot : ¬snapshotNeedsExpiry s'.snapshot t = true) {id : String} {record : Record}
    (hl : s'.records.lookup id = some record) : t < record.expiresAt := by
  by_contra hexp
  rw [h.published'.needsExpiry_iff] at hnot
  obtain ⟨id', record', hl', hlive, hle⟩ := h.published.needsExpiry_iff.mp hneeds
  rcases h.hidden with hu | hfresh
  · rcases h.missing hl' with hheld | hgone
    · exact hnot ⟨id', record', hheld, by omega, hle⟩
    · omega
  · exact hnot ⟨id, record, hl, hfresh hl, by omega⟩

theorem Ahead.looked_right (h : s.Ahead s' u u') (hle : u' ≤ t) (ctx : Ctx) (service : String) :
    ∃ v ≤ t, s.Ahead (s'.looked ctx service t) u v := by
  unfold looked
  split
  · obtain ⟨v, hv, hahead, -⟩ := h.sweep_right hle service
    exact ⟨v, hv, hahead⟩
  · exact ⟨u', hle, h⟩

theorem Ahead.looked (h : s.Ahead s' u u') (hu : u ≤ t) (hle : u' ≤ t) (ctx : Ctx) (service : String) :
    ∃ v ≤ t, ∃ v' ≤ t, (s.looked ctx service t).Ahead (s'.looked ctx service t) v v' := by
  by_cases hneeds : ctx 0 = false ∧ service ≠ "" ∧ snapshotNeedsExpiry s.snapshot t = true ∧ ctx 1 = false
  · rw [ServiceState.looked, if_pos hneeds, ServiceState.looked]
    obtain ⟨hctx, hservice, hneeds, hctx'⟩ := hneeds
    by_cases hneeds' : snapshotNeedsExpiry s'.snapshot t = true
    · rw [if_pos ⟨hctx, hservice, hneeds', hctx'⟩]
      obtain ⟨v', hv', hahead, hlive⟩ := h.sweep_right hle service
      obtain ⟨v, hv, hahead⟩ := hahead.sweep_left hu hv' hlive service
      exact ⟨v, hv, v', hv', hahead⟩
    · rw [if_neg fun hall => hneeds' hall.2.2.1]
      obtain ⟨v, hv, hahead⟩ := h.sweep_left hu hle (h.live_of_needsExpiry hneeds hneeds') service
      exact ⟨v, hv, u', hle, hahead⟩
  · rw [ServiceState.looked, if_neg hneeds]
    obtain ⟨v', hv', hahead⟩ := h.looked_right hle ctx service
    exact ⟨u, hu, v', hv', hahead⟩

end ServiceState

namespace MemoryRegistry

variable {r r' : MemoryRegistry} {now t : ℕ} {c : TimedCall} {expired expired' : List ExpiredRecord}

theorem lookup_snapshot (r : MemoryRegistry) (ctx : Ctx) (service : String) (now : ℕ) (service' : String) :
    (r.snapshot ctx service now).1.services.lookup service' =
      if service' = service then (r.services.lookup service).map fun s => s.looked ctx service now
      else r.services.lookup service' := by
  -- A read that does not get to the sweep leaves the service as it is.
  have hsame : (∀ s, r.services.lookup service = some s → s.looked ctx service now = s) →
      r.services.lookup service' = if service' = service then
        (r.services.lookup service).map fun s => s.looked ctx service now else r.services.lookup service' := by
    intro h
    split
    · rename_i hkey
      rw [hkey]
      rcases hs : r.services.lookup service with _ | s
      · rfl
      · rw [Option.map_some, h s hs]
    · rfl
  unfold snapshot
  split
  · rename_i h0
    exact hsame fun s _ => if_neg fun h => by simp [h0] at h
  split
  · rename_i hempty
    exact hsame fun s _ => if_neg fun h => h.2.1 hempty
  rename_i h0 hempty
  rcases hs : r.services.lookup service with _ | s <;> rw [hs] at hsame
  · exact hsame fun s hs' => by cases hs'
  dsimp only
  split
  · rename_i hsweep
    simp only [Bool.and_eq_true, Bool.not_eq_true'] at hsweep
    have hlooked : s.looked ctx service now = (s.sweepExpired service now).1 :=
      if_pos ⟨by simpa using h0, hempty, hsweep.1, hsweep.2⟩
    rw [lookup_setService, Option.map_some, hlooked]
  · rename_i hsweep
    simp only [Bool.and_eq_true, Bool.not_eq_true', not_and] at hsweep
    exact hsame fun s' hs' => if_neg fun h => by
      cases hs'
      exact hsweep h.2.2.1 h.2.2.2

theorem frame_snapshot (r : MemoryRegistry) (ctx : Ctx) (service : String) (now : ℕ) :
    (r.snapshot ctx service now).1.expiries = r.expiries ∧
      (r.snapshot ctx service now).1.generation = r.generation := by
  rcases r.snapshot_cases ctx service now with heq | ⟨s, -, heq⟩ <;> rw [heq] <;> exact ⟨rfl, rfl⟩

/-! ## The registry in two runs -/

structure Ahead (r r' : MemoryRegistry) (now : ℕ) : Prop where
  expiries : r'.expiries = r.expiries
  generation : r'.generation = r.generation
  known : ∀ service, (r'.services.lookup service).isSome = (r.services.lookup service).isSome
  services : ∀ {service s s'}, r.services.lookup service = some s → r'.services.lookup service = some s' →
    ∃ u ≤ now, ∃ u' ≤ now, s.Ahead s' u u'

theorem ahead_empty : Ahead {} {} 0 :=
  ⟨rfl, rfl, fun _ => rfl, fun h => by simp at h⟩

theorem Ahead.known_iff (h : r.Ahead r' now) (service : String) :
    r'.services.lookup service = none ↔ r.services.lookup service = none := by
  rw [← Option.isNone_iff_eq_none, ← Option.isNone_iff_eq_none, ← Option.not_isSome, ← Option.not_isSome, h.known]

theorem Ahead.lookup_cases (h : r.Ahead r' now) (service : String) :
    (r.services.lookup service = none ∧ r'.services.lookup service = none) ∨
    ∃ s s' u u', r.services.lookup service = some s ∧ r'.services.lookup service = some s' ∧ u ≤ now ∧ u' ≤ now ∧
      s.Ahead s' u u' := by
  rcases hs : r.services.lookup service with _ | s
  · exact Or.inl ⟨rfl, (h.known_iff service).mpr hs⟩
  · rcases hs' : r'.services.lookup service with _ | s'
    · rw [(h.known_iff service).mp hs'] at hs
      cases hs
    · obtain ⟨u, hu, u', hu', hahead⟩ := h.services hs hs'
      exact Or.inr ⟨s, s', u, u', rfl, rfl, hu, hu', hahead⟩

theorem Ahead.lease_sub (h : r.Ahead r' now) {service id : String} {record : Record}
    (hl : r'.lease service id = some record) : r.lease service id = some record := by
  rcases h.lookup_cases service with ⟨-, hs'⟩ | ⟨s, s', u, u', hs, hs', -, -, hahead⟩
  · simp [lease, hs'] at hl
  · rw [lease_of_lookup hs'] at hl
    rw [lease_of_lookup hs]
    exact hahead.sub hl

theorem Ahead.lease_missing (h : r.Ahead r' now) {service id : String} {record : Record}
    (hl : r.lease service id = some record) : r'.lease service id = some record ∨ record.expiresAt ≤ now := by
  rcases h.lookup_cases service with ⟨hs, -⟩ | ⟨s, s', u, u', hs, hs', -, hu', hahead⟩
  · simp [lease, hs] at hl
  · rw [lease_of_lookup hs] at hl
    rw [lease_of_lookup hs']
    exact (hahead.missing hl).imp_right fun hgone => le_trans hgone hu'

theorem Ahead.mono (h : r.Ahead r' now) (hle : now ≤ t) : r.Ahead r' t where
  expiries := h.expiries
  generation := h.generation
  known := h.known
  services hs hs' := by
    obtain ⟨u, hu, u', hu', hahead⟩ := h.services hs hs'
    exact ⟨u, by omega, u', by omega, hahead⟩

theorem Ahead.serviceState (h : r.Ahead r' now) (service : String) :
    ∃ u ≤ now, ∃ u' ≤ now, (r.serviceState service).Ahead (r'.serviceState service) u u' := by
  rcases h.lookup_cases service with ⟨hs, hs'⟩ | ⟨s, s', u, u', hs, hs', hu, hu', hahead⟩
  · rw [MemoryRegistry.serviceState, MemoryRegistry.serviceState, hs, hs']
    exact ⟨0, Nat.zero_le _, 0, Nat.zero_le _, ServiceState.ahead_new service⟩
  · rw [serviceState_of_lookup hs, serviceState_of_lookup hs']
    exact ⟨u, hu, u', hu', hahead⟩

theorem Ahead.write (h : r.Ahead r' now) (hle : now ≤ t) (record : Record) :
    (r.write record t).Ahead (r'.write record t) t := by
  obtain ⟨u, hu, u', hu', hahead⟩ := h.serviceState record.inst.service
  have hlookup : ∀ (r : MemoryRegistry) (service : String), (r.write record t).services.lookup service =
      if service = record.inst.service then some ({ r.serviceState record.inst.service with
        records := (r.serviceState record.inst.service).records.insert record.inst.id record
        }.rebuildSnapshotLocked record.inst.service t) else r.services.lookup service :=
    fun r service => lookup_setService { r with generation := r.generation + 1 } _ service _
  constructor
  · show r'.expiries.push (entryOf record) = r.expiries.push (entryOf record)
    rw [h.expiries]
  · show r'.generation + 1 = r.generation + 1
    rw [h.generation]
  · intro service
    rw [hlookup, hlookup]
    split
    · rfl
    · exact h.known service
  · intro service s s' hs hs'
    rw [hlookup] at hs hs'
    by_cases hkey : service = record.inst.service
    · rw [if_pos hkey] at hs hs'
      cases hs
      cases hs'
      exact ⟨t, le_rfl, t, le_rfl, hahead.insert (by omega) _ _ _⟩
    · rw [if_neg hkey] at hs hs'
      exact (h.mono hle).services hs hs'

theorem Ahead.look (h : r.Ahead r' now) (hle : now ≤ t) (ctx : Ctx) (service : String) :
    r.Ahead (r'.snapshot ctx service t).1 t := by
  obtain ⟨hheap, hgen⟩ := r'.frame_snapshot ctx service t
  constructor
  · rw [hheap, h.expiries]
  · rw [hgen, h.generation]
  · intro service'
    rw [lookup_snapshot]
    split
    · rename_i hkey
      rw [Option.isSome_map, hkey, h.known]
    · exact h.known service'
  · intro service' s s' hs hs'
    rw [lookup_snapshot] at hs'
    split at hs'
    · rename_i hkey
      subst hkey
      obtain ⟨s₀, hs₀, rfl⟩ := Option.map_eq_some_iff.mp hs'
      obtain ⟨u, hu, u', hu', hahead⟩ := h.services hs hs₀
      obtain ⟨v, hv, hahead⟩ := hahead.looked_right (le_trans hu' hle) ctx service'
      exact ⟨u, by omega, v, hv, hahead⟩
    · exact (h.mono hle).services hs hs'

theorem Ahead.snapshot (h : r.Ahead r' now) (hle : now ≤ t) (ctx : Ctx) (service : String) :
    (r.snapshot ctx service t).1.Ahead (r'.snapshot ctx service t).1 t := by
  obtain ⟨hheap, hgen⟩ := r.frame_snapshot ctx service t
  obtain ⟨hheap', hgen'⟩ := r'.frame_snapshot ctx service t
  constructor
  · rw [hheap, hheap', h.expiries]
  · rw [hgen, hgen', h.generation]
  · intro service'
    rw [lookup_snapshot, lookup_snapshot]
    split
    · rw [Option.isSome_map, Option.isSome_map, h.known]
    · exact h.known service'
  · intro service' s s' hs hs'
    rw [lookup_snapshot] at hs hs'
    by_cases hkey : service' = service
    · subst hkey
      rw [if_pos rfl] at hs hs'
      obtain ⟨s₀, hs₀, rfl⟩ := Option.map_eq_some_iff.mp hs
      obtain ⟨s₀', hs₀', rfl⟩ := Option.map_eq_some_iff.mp hs'
      obtain ⟨u, hu, u', hu', hahead⟩ := h.services hs₀ hs₀'
      exact hahead.looked (le_trans hu hle) (le_trans hu' hle) ctx service'
    · rw [if_neg hkey] at hs hs'
      exact (h.mono hle).services hs hs'

/-! ## A sweep in two runs -/

/-- The loop in both runs: they pop the same entries, and what the run ahead has left was not deleted in the other. -/
structure InStep (r r' : MemoryRegistry) (expired expired' : List ExpiredRecord) : Prop where
  expiries : r'.expiries = r.expiries
  generation : r'.generation = r.generation
  sub : ∀ {service id record}, r'.lease service id = some record → r.lease service id = some record
  reported : ∀ e ∈ expired', e ∈ expired
  gone : ∀ e ∈ expired, r'.lease e.service e.id = none

theorem InStep.isDue (h : InStep r r' expired expired') {entry : ExpiryEntry} (hdue : r'.isDue entry now = true) :
    r.isDue entry now = true := by
  unfold MemoryRegistry.isDue at hdue ⊢
  rcases hl : r'.lease entry.service entry.id with _ | record
  · simp [hl] at hdue
  · rw [h.sub hl]
    rwa [hl] at hdue

theorem InStep.popExpired (h : InStep r r' expired expired') (now : ℕ) :
    (r.popExpired now = none ∧ r'.popExpired now = none) ∨
    ∃ entry r₁ r₁', r.popExpired now = some (entry, r₁) ∧ r'.popExpired now = some (entry, r₁') ∧
      InStep r₁ r₁' expired expired' := by
  unfold MemoryRegistry.popExpired
  rw [h.expiries]
  rcases r.expiries.pop with _ | ⟨entry, rest⟩
  · exact Or.inl ⟨rfl, rfl⟩
  · dsimp only
    split
    · exact Or.inl ⟨rfl, rfl⟩
    · exact Or.inr ⟨entry, _, _, rfl, rfl, ⟨rfl, h.generation, h.sub, h.reported, h.gone⟩⟩

theorem InStep.delete (h : InStep r r' expired expired') {entry : ExpiryEntry} (hdue : r.isDue entry now = true) :
    (r'.isDue entry now = true → InStep (r.deleteFrom entry.service entry.id) (r'.deleteFrom entry.service entry.id)
      (expired ++ [⟨entry.service, entry.id⟩]) (expired' ++ [⟨entry.service, entry.id⟩])) ∧
    (¬r'.isDue entry now = true → InStep (r.deleteFrom entry.service entry.id) r'
      (expired ++ [⟨entry.service, entry.id⟩]) expired') := by
  refine ⟨fun _ => ⟨h.expiries, h.generation, ?_, ?_, ?_⟩, fun hnot => ?_⟩
  · intro service id record hl
    rw [lease_deleteFrom] at hl ⊢
    by_cases hkey : service = entry.service ∧ id = entry.id
    · rw [if_pos hkey] at hl
      cases hl
    · rw [if_neg hkey] at hl ⊢
      exact h.sub hl
  · intro e he
    rcases List.mem_append.mp he with he | he
    · exact List.mem_append_left _ (h.reported e he)
    · exact List.mem_append_right _ he
  · intro e he
    rw [lease_deleteFrom]
    split
    · rfl
    · rename_i hkey
      rcases List.mem_append.mp he with he | he
      · exact h.gone e he
      · obtain rfl := List.mem_singleton.mp he
        exact absurd ⟨rfl, rfl⟩ hkey
  · have hgone : r'.lease entry.service entry.id = none := by
      rcases hl : r'.lease entry.service entry.id with _ | record
      · rfl
      · refine absurd ?_ hnot
        unfold MemoryRegistry.isDue at hdue ⊢
        rwa [hl, ← h.sub hl]
    refine ⟨h.expiries, h.generation, ?_, fun e he => List.mem_append_left _ (h.reported e he), ?_⟩
    · intro service id record hl
      rw [lease_deleteFrom, if_neg, h.sub hl]
      rintro ⟨rfl, rfl⟩
      rw [hgone] at hl
      cases hl
    · intro e he
      rcases List.mem_append.mp he with he | he
      · exact h.gone e he
      · obtain rfl := List.mem_singleton.mp he
        exact hgone

theorem InStep.sweepLoop (h : InStep r r' expired expired') (now fuel : ℕ) (ctx : Ctx) :
    InStep (sweepLoop now fuel ctx r expired).1 (MemoryRegistry.sweepLoop now fuel ctx r' expired').1
      (MemoryRegistry.sweepLoop now fuel ctx r expired).2 (MemoryRegistry.sweepLoop now fuel ctx r' expired').2 := by
  induction fuel generalizing r r' ctx expired expired' with
  | zero => exact h
  | succ fuel ih =>
    unfold MemoryRegistry.sweepLoop
    rcases h.popExpired now with ⟨hpop, hpop'⟩ | ⟨entry, r₁, r₁', hpop, hpop', h₁⟩ <;> rw [hpop, hpop']
    · exact h
    dsimp only
    split
    · exact h₁
    by_cases hdue' : r₁'.isDue entry now = true
    · rw [if_pos hdue', if_pos (h₁.isDue hdue')]
      exact ih ((h₁.delete (h₁.isDue hdue')).1 hdue') _
    · rw [if_neg hdue']
      split
      · rename_i hdue
        exact ih ((h₁.delete hdue).2 hdue') _
      · exact ih h₁ _

structure SweptAt (r f : MemoryRegistry) (expired : List ExpiredRecord) (t : ℕ) : Prop extends Swept r f expired t where
  fresh : ∀ service ∈ expired.map ExpiredRecord.service, ∃ s, f.services.lookup service = some s ∧ s.Published t

section SweptAt

variable {f f' : MemoryRegistry} {expired expired' : List ExpiredRecord}

theorem Swept.sweptAt {r₁ : MemoryRegistry} (h : Swept r r₁ expired t) :
    SweptAt r ((expired.map ExpiredRecord.service).dedup.foldl (rebuildService t) r₁) expired t where
  toSwept := h.rebuild
  fresh service hmem := (foldl_rebuildService_spec _ r₁ t).2.2 service (List.mem_dedup.mpr hmem)

theorem SweptAt.known (h : SweptAt r f expired t) (service : String) :
    (f.services.lookup service).isSome = (r.services.lookup service).isSome := by
  by_cases hmem : service ∈ expired.map ExpiredRecord.service
  · obtain ⟨s, hs, -⟩ := h.fresh service hmem
    obtain ⟨e, he, rfl⟩ := List.mem_map.mp hmem
    obtain ⟨-, record, hl, -⟩ := h.gone e he
    obtain ⟨s₀, hs₀, -⟩ := Option.bind_eq_some_iff.mp hl
    rw [hs, hs₀, Option.isSome_some, Option.isSome_some]
  · rw [h.untouched service hmem]

theorem SweptAt.published (h : SweptAt r f expired t) {service : String} {s₀ s : ServiceState} {u : ℕ}
    (hs₀ : r.services.lookup service = some s₀) (hs : f.services.lookup service = some s) (hpub : s₀.Published u) :
    (service ∈ expired.map ExpiredRecord.service ∧ s.Published t) ∨
    (service ∉ expired.map ExpiredRecord.service ∧ s = s₀ ∧ s.Published u) := by
  by_cases hmem : service ∈ expired.map ExpiredRecord.service
  · obtain ⟨s₁, hs₁, hfresh⟩ := h.fresh service hmem
    obtain rfl : s₁ = s := Option.some.inj (hs₁.symm.trans hs)
    exact Or.inl ⟨hmem, hfresh⟩
  · rw [h.untouched service hmem, hs₀] at hs
    cases hs
    exact Or.inr ⟨hmem, rfl, hpub⟩

theorem SweptAt.lease_iff (h : SweptAt r f expired t) {service id : String} {record : Record} :
    f.lease service id = some record ↔ r.lease service id = some record ∧ ⟨service, id⟩ ∉ expired := by
  by_cases hmem : ⟨service, id⟩ ∈ expired
  · simp [(h.gone _ hmem).1, hmem]
  · simp [h.kept service id hmem, hmem]

theorem Ahead.sweptAt (h : r.Ahead r' now) (hle : now ≤ t) (hr : SweptAt r f expired t) (hr' : SweptAt r' f' expired' t)
    (hreported : ∀ e ∈ expired', e ∈ expired) (hgone : ∀ e ∈ expired, f'.lease e.service e.id = none)
    (hheap : f'.expiries = f.expiries) (hgen : f'.generation = f.generation) : f.Ahead f' t := by
  refine ⟨hheap, hgen, fun service => by rw [hr.known, hr'.known, h.known], ?_⟩
  intro service s s' hs hs'
  have hservices : service ∈ expired'.map ExpiredRecord.service → service ∈ expired.map ExpiredRecord.service :=
    fun hmem => List.map_subset _ hreported hmem
  obtain ⟨s₀, hs₀⟩ := Option.isSome_iff_exists.mp ((hr.known service).symm.trans (by rw [hs]; rfl))
  obtain ⟨s₀', hs₀'⟩ := Option.isSome_iff_exists.mp ((hr'.known service).symm.trans (by rw [hs']; rfl))
  obtain ⟨u, hu, u', hu', hahead⟩ := h.services hs₀ hs₀'
  have hsub : ∀ {id record}, s'.records.lookup id = some record → s.records.lookup id = some record := by
    intro id record hl
    rw [← lease_of_lookup hs'] at hl
    rw [← lease_of_lookup hs]
    refine hr.lease_iff.mpr ⟨h.lease_sub (hr'.lease_iff.mp hl).1, fun hmem => ?_⟩
    rw [hgone _ hmem] at hl
    cases hl
  have hmissing : ∀ {id record}, s.records.lookup id = some record →
      s'.records.lookup id = some record ∨ record.expiresAt ≤ u' := by
    intro id record hl
    rw [← lease_of_lookup hs, hr.lease_iff, lease_of_lookup hs₀] at hl
    rw [← lease_of_lookup hs', hr'.lease_iff, lease_of_lookup hs₀']
    exact (hahead.missing hl.1).imp_left fun hheld => ⟨hheld, fun hmem => hl.2 (hreported _ hmem)⟩
  rcases hr.published hs₀ hs hahead.published with ⟨hmem, hpub⟩ | ⟨hnot, rfl, hpub⟩ <;>
    rcases hr'.published hs₀' hs' hahead.published' with ⟨hmem', hpub'⟩ | ⟨hnot', rfl, hpub'⟩
  · exact ⟨t, le_rfl, t, le_rfl, hpub, hpub', hsub,
      fun hl => (hmissing hl).imp_right fun hgone => by omega, Or.inl le_rfl⟩
  · exact ⟨t, le_rfl, u', by omega, hpub, hpub', hsub, hmissing, Or.inl (by omega)⟩
  · exact absurd (hservices hmem') hnot
  · exact ⟨u, by omega, u', by omega, hahead⟩

end SweptAt

theorem Ahead.sweepExpired (h : r.Ahead r' now) (hle : now ≤ t) (ctx : Ctx) :
    (r.sweepExpired ctx t).1.Ahead (r'.sweepExpired ctx t).1 t := by
  unfold MemoryRegistry.sweepExpired sweepExpiredRecords
  by_cases hctx : ctx 0 = true
  · simp only [hctx, if_true]
    exact h.mono hle
  · simp only [hctx, Bool.false_eq_true, if_false, h.expiries]
    have hstart : InStep r r' [] [] := ⟨h.expiries, h.generation, h.lease_sub, by simp, by simp⟩
    have hloop := hstart.sweepLoop t r.expiries.entries.length (ctx.after 1)
    refine h.sweptAt hle (sweepLoop_spec _ _ r [] (Swept.refl r t)).sweptAt
      (sweepLoop_spec _ _ r' [] (Swept.refl r' t)).sweptAt hloop.reported ?_ ?_ ?_
    · intro e he
      rw [(foldl_rebuildService_spec _ _ t).1]
      exact hloop.gone e he
    · rw [(frame_foldl_rebuildService _ _ t).1, (frame_foldl_rebuildService _ _ t).1]
      exact hloop.expiries
    · rw [(frame_foldl_rebuildService _ _ t).2, (frame_foldl_rebuildService _ _ t).2]
      exact hloop.generation

/-! ## Calls in two runs -/

def Late (r : MemoryRegistry) (c : TimedCall) : Prop :=
  ∃ b record, c.call.beat = some b ∧ c.ctx 0 = false ∧ b.service ≠ "" ∧ b.id ≠ "" ∧ 0 < b.ttl ∧
    r.lease b.service b.id = some record ∧ record.expiresAt ≤ c.now

theorem Ahead.beat_cases (h : r.Ahead r' now) (hle : now ≤ c.now) (hlate : ¬r.Late c) {b : Beat}
    (hb : c.call.beat = some b) :
    r'.lease b.service b.id = r.lease b.service b.id ∨ ∃ err, ∀ lease, judge lease c.ctx b = some err := by
  by_cases hctx : c.ctx 0 = true
  · exact Or.inr ⟨.context, fun lease => if_pos hctx⟩
  by_cases hargs : b.service = "" ∨ b.id = "" ∨ b.ttl ≤ 0
  · exact Or.inr ⟨.invalidInstance, fun lease => by unfold judge; rw [if_neg hctx, if_pos hargs]⟩
  refine Or.inl ?_
  rcases hl : r.lease b.service b.id with _ | record
  · rcases hl' : r'.lease b.service b.id with _ | record'
    · rfl
    · rw [h.lease_sub hl'] at hl
      cases hl
  · refine (h.lease_missing hl).resolve_right fun hgone => hlate ?_
    simp only [not_or, not_le] at hargs
    exact ⟨b, record, hb, by simpa using hctx, hargs.1, hargs.2.1, hargs.2.2, hl, le_trans hgone hle⟩

theorem Ahead.judge_eq (h : r.Ahead r' now) (hle : now ≤ c.now) (hlate : ¬r.Late c) {b : Beat}
    (hb : c.call.beat = some b) :
    judge (r'.lease b.service b.id) c.ctx b = judge (r.lease b.service b.id) c.ctx b := by
  rcases h.beat_cases hle hlate hb with heq | ⟨err, hrefused⟩
  · rw [heq]
  · rw [hrefused, hrefused]

theorem Ahead.writes_eq (h : r.Ahead r' now) (hle : now ≤ c.now) (hlate : ¬r.Late c) : r'.writes c = r.writes c := by
  unfold writes
  split
  · simp only [newRecord, h.generation]
  · rename_i b hb _
    rcases h.beat_cases hle hlate hb with heq | ⟨err, hrefused⟩
    · rw [heq, h.generation]
    · simp only [hrefused, Option.isSome_some, if_true]
  · rfl

theorem Ahead.draws_eq (h : r.Ahead r' now) (c : TimedCall) : r'.draws c = r.draws c := by
  unfold draws drawnBy
  split
  · simp only [h.known_iff]
  · rfl

theorem Ahead.step (h : r.Ahead r' now) (hwf : r.WellFormed now) (hwf' : r'.WellFormed now) (hle : now ≤ c.now)
    (hlate : ¬r.Late c) : (r.step c).Ahead (r'.step c) c.now := by
  have hwrites := h.writes_eq hle hlate
  rcases hw : r.writes c with _ | record
  · rcases hreads : c.call.reads with _ | service
    · by_cases hsweep : c.call = .sweepExpired
      · rw [step_of_sweep hsweep, step_of_sweep hsweep]
        exact h.sweepExpired hle c.ctx
      · rw [hwf.step_of_fails hw hreads hsweep, hwf'.step_of_fails (hwrites.trans hw) hreads hsweep]
        have hmono := h.mono hle
        exact ⟨hmono.expiries, by simp only [h.generation, h.draws_eq], hmono.known, hmono.services⟩
    · rw [step_of_reads hreads, step_of_reads hreads]
      exact h.snapshot hle c.ctx service
  · rw [hwf.step_of_writes hw, hwf'.step_of_writes (hwrites.trans hw)]
    exact h.write hle record

end MemoryRegistry

/-! ## What the callers are told -/

/-- `Register`, the heartbeats and `List`. A version or a count tells how often a service was published. -/
def MemoryCall.compared : MemoryCall → Bool
  | .snapshot _ => false
  | .sweepExpired => false
  | _ => true

inductive Visit
  | own (c : TimedCall)
  | list (service : String) (now : ℕ) (ctx : Ctx)
  | snapshot (service : String) (now : ℕ) (ctx : Ctx)

namespace Visit

def call : Visit → TimedCall
  | own c => c
  | list service now ctx => ⟨.list service, now, ctx⟩
  | snapshot service now ctx => ⟨.snapshot service, now, ctx⟩

def own? : Visit → Option TimedCall
  | own c => some c
  | _ => none

def told (r : MemoryRegistry) : Visit → List Answer
  | own c => if c.call.compared then [(r.perform c).2] else []
  | _ => []

theorem reads_of_own? {v : Visit} (h : v.own? = none) :
    (∃ service, v.call.call.reads = some service) ∧ ∀ r, v.told r = [] := by
  rcases v with c | ⟨service, now, ctx⟩ | ⟨service, now, ctx⟩
  · cases h
  · exact ⟨⟨service, rfl⟩, fun _ => rfl⟩
  · exact ⟨⟨service, rfl⟩, fun _ => rfl⟩

end Visit

/-- A `List` looks at its context twice. It is whole when the context does not end in between. -/
def TimedCall.Whole (c : TimedCall) : Prop :=
  ∀ service, c.call = .list service → c.ctx 0 = true ∨ c.ctx 1 = false

namespace MemoryRegistry

variable {r r' : MemoryRegistry} {now t : ℕ} {c : TimedCall} {service : String} {calls : List TimedCall}

def answers : MemoryRegistry → List Visit → List Answer
  | _, [] => []
  | r, v :: rest => v.told r ++ answers (r.step v.call) rest

theorem answers_append (r : MemoryRegistry) (visits rest : List Visit) :
    r.answers (visits ++ rest) = r.answers visits ++ (run r (visits.map Visit.call)).answers rest := by
  induction visits generalizing r with
  | nil => rfl
  | cons v visits ih =>
    simp only [List.cons_append, answers, ih, List.append_assoc]
    rfl

theorem answer_of_beat {b : Beat} (hb : c.call.beat = some b) :
    (r.perform c).2 = .done (judge (r.lease b.service b.id) c.ctx b) := by
  rw [← beatAt_err r c.ctx b c.now]
  unfold perform
  rcases hcall : c.call with _ | ⟨service, id, ttl⟩ | ⟨service, id, epoch, ttl⟩ | ⟨service, id, epoch, token, ttl⟩ | _ | _ | _ <;>
    simp only [hcall, MemoryCall.beat, reduceCtorEq] at hb
  · cases hb
    rfl
  · split_ifs at hb with hempty
    cases hb
    simp [heartbeatWithEpoch, hempty, beatAt]
  · split_ifs at hb with hempty
    cases hb
    simp [heartbeatWithOwner, hempty, beatAt]

section Answers

variable (h : r.Ahead r' now) (hwf : r.WellFormed now) (hwf' : r'.WellFormed now)

include h hwf hwf'

theorem Ahead.liveInstances_eq (hle : now ≤ t) (service : String) :
    r'.liveInstances service t = r.liveInstances service t := by
  refine strict_ext Instance.id (hwf'.liveInstances_strict service t) (hwf.liveInstances_strict service t) fun inst => ?_
  rw [mem_liveInstances, mem_liveInstances]
  constructor
  · rintro ⟨id, record, hl, hlive, rfl⟩
    exact ⟨id, record, h.lease_sub hl, hlive, rfl⟩
  · rintro ⟨id, record, hl, hlive, rfl⟩
    exact ⟨id, record, (h.lease_missing hl).resolve_right (by omega), hlive, rfl⟩

theorem Ahead.list_eq (hle : now ≤ t) {ctx : Ctx} (hwhole : ctx 0 = true ∨ ctx 1 = false) (service : String) :
    (r'.list ctx service t).2 = (r.list ctx service t).2 := by
  by_cases h0 : ctx 0 = true
  · simp [list, MemoryRegistry.snapshot, h0]
  by_cases hservice : service = ""
  · simp [list, MemoryRegistry.snapshot, h0, hservice]
  have h0 : ctx 0 = false := by simpa using h0
  have h1 := hwhole.resolve_left (by simp [h0])
  rw [list_of_live h0 h1, list_of_live h0 h1, list_spec (hwf'.mono hle) hservice, list_spec (hwf.mono hle) hservice,
    h.liveInstances_eq hwf hwf' hle]

theorem Ahead.answer_eq (hle : now ≤ c.now) (hlate : ¬r.Late c) (hwhole : c.Whole)
    (hcompared : c.call.compared = true) : (r'.perform c).2 = (r.perform c).2 := by
  rcases hb : c.call.beat with _ | b
  swap
  · rw [answer_of_beat hb, answer_of_beat hb, h.judge_eq hle hlate hb]
  rcases c with ⟨call, t, ctx⟩
  -- What is left is a registration, a read, or a fence that is refused because it is empty.
  rcases call with ⟨inst, ttl, epoch, token⟩ | ⟨service, id, ttl⟩ | ⟨service, id, epoch, ttl⟩ |
    ⟨service, id, epoch, token, ttl⟩ | service | service | _
  · simp only [perform, registerAt_eq]
    split
    · rfl
    split <;> rfl
  · cases hb
  · have hempty : epoch = "" := by
      by_contra hne
      simp [MemoryCall.beat, hne] at hb
    simp [perform, heartbeatWithEpoch, hempty]
  · have hempty : epoch = "" ∨ token = "" := by
      by_contra hne
      simp [MemoryCall.beat, hne] at hb
    simp [perform, heartbeatWithOwner, hempty]
  · exact congrArg Answer.instances (h.list_eq hwf hwf' hle (hwhole service rfl) service)
  · cases hcompared
  · cases hcompared

theorem Ahead.told_eq (hle : now ≤ c.now) (hlate : ¬r.Late c) (hwhole : c.Whole) :
    (Visit.own c).told r' = (Visit.own c).told r := by
  simp only [Visit.told]
  split
  · rename_i hcompared
    rw [h.answer_eq hwf hwf' hle hlate hwhole hcompared]
  · rfl

end Answers

/-! ## Additional reads -/

abbrev Timely (r : MemoryRegistry) (calls : List TimedCall) : Prop :=
  Along MemoryRegistry.step (fun r c => ¬r.Late c) r calls

/-- The run with the additional reads stays ahead, and its callers are told the same, as long as no heartbeat is late. -/
theorem Ahead.visits (h : r.Ahead r' now) (hwf : r.WellFormed now) (hwf' : r'.WellFormed now) (visits : List Visit)
    (hclock : (now :: visits.map fun v => v.call.now).Pairwise (· ≤ ·))
    (hwhole : ∀ c ∈ visits.filterMap Visit.own?, c.Whole) (htimely : r.Timely (visits.filterMap Visit.own?)) :
    r'.answers visits = r.answers ((visits.filterMap Visit.own?).map Visit.own) ∧
    ∀ t, now ≤ t → (∀ v ∈ visits, v.call.now ≤ t) →
      (run r (visits.filterMap Visit.own?)).Ahead (run r' (visits.map Visit.call)) t := by
  induction visits generalizing r r' now with
  | nil => exact ⟨rfl, fun t hle _ => h.mono hle⟩
  | cons v rest ih =>
    rw [List.map_cons, List.pairwise_cons] at hclock
    obtain ⟨hfirst, hclock⟩ := hclock
    have hle : now ≤ v.call.now := hfirst _ List.mem_cons_self
    have hwf₁' := (hwf'.mono hle).step (c := v.call) le_rfl
    rcases hown : v.own? with _ | c
    · obtain ⟨⟨service, hreads⟩, htold⟩ := Visit.reads_of_own? hown
      rw [List.filterMap_cons_none hown] at hwhole htimely ⊢
      have hahead : r.Ahead (r'.step v.call) v.call.now := by
        rw [step_of_reads hreads]
        exact h.look hle v.call.ctx service
      obtain ⟨hanswers, hend⟩ := ih hahead (hwf.mono hle) hwf₁' hclock hwhole htimely
      refine ⟨by rw [answers, htold, List.nil_append, hanswers], fun t hnow hall => ?_⟩
      obtain ⟨hv, hrest⟩ := List.forall_mem_cons.mp hall
      exact hend t hv hrest
    · obtain rfl : v = .own c := by
        rcases v with c' | _ | _ <;> cases hown
        rfl
      rw [List.filterMap_cons_some hown] at hwhole htimely ⊢
      obtain ⟨hwhole₁, hwhole⟩ := List.forall_mem_cons.mp hwhole
      obtain ⟨hlate, htimely⟩ := htimely
      change now ≤ c.now at hle
      have hahead := h.step hwf hwf' hle hlate
      obtain ⟨hanswers, hend⟩ := ih hahead ((hwf.mono hle).step le_rfl) hwf₁' hclock hwhole htimely
      refine ⟨?_, fun t hnow hall => ?_⟩
      · rw [answers, List.map_cons, answers, h.told_eq hwf hwf' hle hlate hwhole₁]
        exact congrArg _ hanswers
      · obtain ⟨hv, hrest⟩ := List.forall_mem_cons.mp hall
        exact hend t hv hrest

/-! ## A late heartbeat shows -/

def AllLive (r : MemoryRegistry) (service : String) (t : ℕ) : Prop :=
  ∀ {id record}, r.lease service id = some record → t < record.expiresAt

theorem AllLive.read (h : r.AllLive service now) (hwf : r.WellFormed now) (hservice : service ≠ "") :
    (r.snapshot .background service t).1.AllLive service t := by
  intro id record hl
  have hlookup := r.lookup_snapshot .background service t service
  rw [if_pos rfl] at hlookup
  rcases hs : r.services.lookup service with _ | s
  · simp [lease, hlookup, hs] at hl
  rw [hs, Option.map_some] at hlookup
  rw [lease_of_lookup hlookup, ServiceState.looked] at hl
  obtain ⟨u, hu, hpub⟩ := hwf.published hs
  split at hl
  · rw [ServiceState.lookup_sweepExpired, Option.filter_eq_some_iff] at hl
    simpa using hl.2
  · rename_i hnot
    by_contra hexp
    have hlive := h ((lease_of_lookup hs id).trans hl)
    refine hnot ⟨rfl, hservice, hpub.needsExpiry_iff.mpr ⟨id, record, hl, by omega, by omega⟩, rfl⟩

theorem AllLive.step (h : r.AllLive service c.now) (hwf : r.WellFormed c.now) : (r.step c).AllLive service c.now := by
  intro id record hl
  rcases hw : r.writes c with _ | written
  · rcases hwf.dropsExpired_of_writes le_rfl hw service id with hsame | ⟨hnone, -⟩
    · exact h (hsame ▸ hl)
    · rw [hnone] at hl
      cases hl
  · obtain ⟨ttl, -, hpos, hexp, -, -⟩ := hwf.target_of_writes hw
    rw [hwf.step_of_writes hw, lease_write] at hl
    split at hl
    · cases hl
      rw [hexp, addTTL]
      omega
    · exact h hl

def listedBefore (service : String) (calls : List TimedCall) : List Visit :=
  calls.flatMap fun c => [.list service c.now .background, .own c]

theorem filterMap_listedBefore (service : String) (calls : List TimedCall) :
    (listedBefore service calls).filterMap Visit.own? = calls := by
  induction calls with
  | nil => rfl
  | cons c rest ih =>
    show c :: (listedBefore service rest).filterMap Visit.own? = c :: rest
    rw [ih]

theorem mem_listedBefore {v : Visit} (h : v ∈ listedBefore service calls) :
    ∃ c ∈ calls, v.call.now = c.now := by
  obtain ⟨c, hc, hv⟩ := List.mem_flatMap.mp h
  rcases List.mem_pair.mp hv with rfl | rfl
  · exact ⟨c, hc, rfl⟩
  · exact ⟨c, hc, rfl⟩

theorem sorted_listedBefore (service : String) (h : (calls.map TimedCall.now).Pairwise (· ≤ ·)) :
    ((listedBefore service calls).map fun v => v.call.now).Pairwise (· ≤ ·) := by
  induction calls with
  | nil => exact List.Pairwise.nil
  | cons c rest ih =>
    rw [List.map_cons, List.pairwise_cons] at h
    have hrest : ∀ t ∈ (listedBefore service rest).map fun v => v.call.now, c.now ≤ t := by
      intro t ht
      obtain ⟨v, hv, rfl⟩ := List.mem_map.mp ht
      obtain ⟨c', hc', hnow⟩ := mem_listedBefore hv
      rw [hnow]
      exact h.1 _ (List.mem_map_of_mem hc')
    show (c.now :: c.now :: (listedBefore service rest).map fun v => v.call.now).Pairwise (· ≤ ·)
    rw [List.pairwise_cons, List.pairwise_cons]
    exact ⟨List.forall_mem_cons.mpr ⟨le_rfl, hrest⟩, hrest, ih h.2⟩

theorem allLive_listedBefore (hservice : service ≠ "") (hwf : r.WellFormed now) (hlive : r.AllLive service now)
    (h : (now :: calls.map TimedCall.now).Pairwise (· ≤ ·)) :
    ∃ t, (run r ((listedBefore service calls).map Visit.call)).WellFormed t ∧
      (run r ((listedBefore service calls).map Visit.call)).AllLive service t := by
  induction calls generalizing r now with
  | nil => exact ⟨now, hwf, hlive⟩
  | cons c rest ih =>
    rw [List.map_cons, List.pairwise_cons] at h
    have hwf₁ := (hwf.mono (h.1 _ List.mem_cons_self)).snapshot le_rfl .background service
    exact ih (hwf₁.step le_rfl) (AllLive.step (hlive.read hwf hservice) hwf₁) h.2

def ReadsHarmless (calls : List TimedCall) : Prop :=
  ∀ visits : List Visit, visits.filterMap Visit.own? = calls → (visits.map fun v => v.call.now).Pairwise (· ≤ ·) →
    answers {} visits = answers {} (calls.map Visit.own)

theorem Timely.ahead_listedBefore (htimely : Timely {} calls) (hwhole : ∀ c ∈ calls, c.Whole)
    (hclock : (calls.map TimedCall.now).Pairwise (· ≤ ·)) (service : String) :
    answers {} (listedBefore service calls) = answers {} (calls.map Visit.own) ∧
    ∀ t, (∀ c ∈ calls, c.now ≤ t) → (run {} calls).Ahead (run {} ((listedBefore service calls).map Visit.call)) t := by
  have hproj := filterMap_listedBefore service calls
  obtain ⟨hanswers, hahead⟩ := ahead_empty.visits (wellFormed_empty 0) (wellFormed_empty 0) (listedBefore service calls)
    (List.pairwise_cons.mpr ⟨fun _ _ => Nat.zero_le _, sorted_listedBefore service hclock⟩) (by rwa [hproj])
    (by rwa [hproj])
  rw [hproj] at hanswers hahead
  refine ⟨hanswers, fun t hle => hahead t (Nat.zero_le t) fun v hv => ?_⟩
  obtain ⟨c, hc, hnow⟩ := mem_listedBefore hv
  rw [hnow]
  exact hle c hc

theorem Timely.lease_listed (htimely : Timely {} calls) (hwhole : ∀ c ∈ calls, c.Whole)
    (hclock : (calls.map TimedCall.now).Pairwise (· ≤ ·)) (hle : ∀ c ∈ calls, c.now ≤ t) (hservice : service ≠ "")
    {id : String} {record : Record} (hl : (run {} calls).lease service id = some record) (hexp : record.expiresAt ≤ t) :
    ((run {} ((listedBefore service calls).map Visit.call)).snapshot .background service t).1.lease service id = none := by
  have hahead := (htimely.ahead_listedBefore hwhole hclock service).2 t hle
  have hnone : AllLive {} service 0 := fun hl => by simp [lease] at hl
  obtain ⟨u, hwf, hlive⟩ := allLive_listedBefore hservice (wellFormed_empty 0) hnone
    (List.pairwise_cons.mpr ⟨fun _ _ => Nat.zero_le _, hclock⟩)
  rcases hl' : ((run {} ((listedBefore service calls).map Visit.call)).snapshot .background service t).1.lease
      service id with _ | record'
  · rfl
  · have hsame := (hahead.look le_rfl .background service).lease_sub hl'
    obtain rfl : record = record' := Option.some.inj (hl.symm.trans hsame)
    have := hlive.read hwf hservice hl'
    omega

theorem told_of_beat {b : Beat} (hb : c.call.beat = some b) (r : MemoryRegistry) :
    (Visit.own c).told r = [.done (judge (r.lease b.service b.id) c.ctx b)] := by
  have hcompared : c.call.compared = true := by
    rcases hcall : c.call with _ | _ | _ | _ | _ | _ | _ <;> rw [hcall] at hb <;> first | rfl | cases hb
  rw [← answer_of_beat hb, Visit.told, if_pos hcompared]

theorem judge_ne {b : Beat} {ctx : Ctx} (hctx : ctx 0 = false) (hargs : ¬(b.service = "" ∨ b.id = "" ∨ b.ttl ≤ 0))
    (record : Record) : judge none ctx b ≠ judge (some record) ctx b := by
  have hctx : ¬ctx 0 = true := by simp [hctx]
  simp only [judge, if_neg hctx, if_neg hargs, checkFence]
  split_ifs <;> simp

theorem Late.not_harmless {before after : List TimedCall}
    (hclock : ((before ++ c :: after).map TimedCall.now).Pairwise (· ≤ ·)) (hwhole : ∀ c ∈ before, c.Whole)
    (htimely : Timely {} before) (hlate : (run {} before).Late c) : ¬ReadsHarmless (before ++ c :: after) := by
  obtain ⟨b, record, hb, hctx, hservice, hid, httl, hl, hexp⟩ := hlate
  intro hharmless
  have hequal := hharmless (listedBefore b.service (before ++ c :: after)) (filterMap_listedBefore _ _)
    (sorted_listedBefore _ hclock)
  rw [List.map_append, List.pairwise_append] at hclock
  obtain ⟨hbefore, -, hcross⟩ := hclock
  have hle : ∀ c' ∈ before, c'.now ≤ c.now :=
    fun c' hc' => hcross _ (List.mem_map_of_mem hc') _ List.mem_cons_self
  have hsplit : listedBefore b.service (before ++ c :: after) =
      listedBefore b.service before ++ (.list b.service c.now .background :: .own c :: listedBefore b.service after) := by
    simp [listedBefore]
  have hown : (before.map Visit.own).map Visit.call = before := by
    rw [List.map_map]
    exact List.map_id before
  -- The answers before the late heartbeat are the same, and those after it do not matter.
  rw [hsplit, List.map_append, answers_append, answers_append, (htimely.ahead_listedBefore hwhole hbefore b.service).1,
    hown] at hequal
  have hequal := List.append_cancel_left hequal
  rw [answers, answers, List.map_cons, answers, told_of_beat hb, told_of_beat hb] at hequal
  have hjudge := Answer.done.inj (List.cons.inj hequal).1
  rw [hl] at hjudge
  have hnone := htimely.lease_listed hwhole hbefore hle hservice hl hexp
  rw [step_of_reads (show (Visit.list b.service c.now .background).call.call.reads = some b.service from rfl)] at hjudge
  exact judge_ne hctx (by simp [hservice, hid, httl]) record (hnone ▸ hjudge)

/-- Additional reads show exactly where a heartbeat is late. -/
theorem reads_harmless_iff {calls : List TimedCall} (hclock : (calls.map TimedCall.now).Pairwise (· ≤ ·))
    (hwhole : ∀ c ∈ calls, c.Whole) : ReadsHarmless calls ↔ Timely {} calls := by
  constructor
  · intro hharmless
    by_contra hnot
    obtain ⟨before, c, after, rfl, htimely, hlate⟩ := exists_of_not_along hnot
    exact Late.not_harmless hclock (fun c hc => hwhole c (List.mem_append_left _ hc)) htimely (not_not.mp hlate) hharmless
  · rintro htimely visits rfl hsorted
    exact (ahead_empty.visits (wellFormed_empty 0) (wellFormed_empty 0) visits
      (List.pairwise_cons.mpr ⟨fun _ _ => Nat.zero_le _, hsorted⟩) hwhole htimely).1

theorem renewed_in_time_harmless :
    ReadsHarmless [⟨.register { id := "a", service := "s", address := "h:1" } 10 "e" "o", 0, .background⟩,
      ⟨.heartbeat "s" "a" 10, 5, .background⟩] := by
  refine (reads_harmless_iff (by simp) (by simp [TimedCall.Whole])).mpr ⟨?_, ?_, trivial⟩
  · rintro ⟨b, record, hb, -⟩
    cases hb
  · rintro ⟨b, record, hb, -, -, -, -, hl, hexp⟩
    cases hb
    cases hl
    revert hexp
    decide

theorem looked_before_heartbeat :
    ¬ReadsHarmless [⟨.register { id := "a", service := "s", address := "h:1" } 1 "e" "o", 0, .background⟩,
      ⟨.heartbeat "s" "a" 10, 5, .background⟩] := by
  intro hharmless
  have hequal : [Answer.done none, .done (some .instanceNotFound)] = [.done none, .done none] :=
    hharmless [.own ⟨.register { id := "a", service := "s", address := "h:1" } 1 "e" "o", 0, .background⟩,
      .list "s" 5 .background, .own ⟨.heartbeat "s" "a" 10, 5, .background⟩] rfl (by decide)
  cases hequal

end MemoryRegistry

end AegisMesh.Registry

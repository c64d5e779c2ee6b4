import Mathlib.Algebra.Order.BigOperators.Group.List
import AegisMesh.Registry.Calls

/-! # Expired leases are collected -/

open Lib

namespace AegisMesh.Registry.MemoryRegistry

variable {r r' : MemoryRegistry} {now t : ℕ} {lost : List ExpiryEntry} {record : Record}

/-! ## The entry that a sweep drops -/

def droppedEntry (now : ℕ) : ℕ → Ctx → MemoryRegistry → Option ExpiryEntry
  | 0, _, _ => none
  | fuel + 1, ctx, r =>
    match r.popExpired now with
    | none => none
    | some (entry, r) =>
      if ctx 0 then some entry
      else if r.isDue entry now then droppedEntry now fuel (ctx.after 1) (r.deleteFrom entry.service entry.id)
      else droppedEntry now fuel (ctx.after 1) r

def dropped (r : MemoryRegistry) (c : TimedCall) : Option ExpiryEntry :=
  match c.call with
  | .sweepExpired => if c.ctx 0 then none else droppedEntry c.now r.expiries.entries.length (c.ctx.after 1) r
  | _ => none

def droppedBy : MemoryRegistry → List TimedCall → List ExpiryEntry
  | _, [] => []
  | r, c :: rest => (r.dropped c).toList ++ droppedBy (r.step c) rest

structure Covered (r : MemoryRegistry) (lost : List ExpiryEntry) : Prop where
  own : ∀ {service id record}, r.lease service id = some record →
    record.inst.service = service ∧ record.inst.id = id
  covered : ∀ {service id record}, r.lease service id = some record →
    entryOf record ∈ r.expiries.entries ++ lost
  fresh : ∀ entry ∈ r.expiries.entries ++ lost, entry.generation ≤ r.generation
  distinct : ((r.expiries.entries ++ lost).map ExpiryEntry.generation).Nodup

theorem Covered.shrink (h : r.Covered lost) (hheap : r'.expiries = r.expiries) (hgen : r.generation ≤ r'.generation)
    (hsub : ∀ {service id record}, r'.lease service id = some record → r.lease service id = some record) :
    r'.Covered lost where
  own hl := h.own (hsub hl)
  covered hl := by rw [hheap]; exact h.covered (hsub hl)
  fresh entry he := le_trans (h.fresh entry (hheap ▸ he)) hgen
  distinct := by rw [hheap]; exact h.distinct

theorem Covered.write (h : r.Covered lost) (hgen : record.generation = r.generation + 1) (now : ℕ) :
    (r.write record now).Covered lost := by
  have hperm : ((r.write record now).expiries.entries ++ lost).Perm (entryOf record :: (r.expiries.entries ++ lost)) :=
    (PQueue.entries_push_perm r.expiries (entryOf record)).append_right lost
  constructor
  · intro service id record' hl
    rw [lease_write] at hl
    split at hl
    · rename_i hkey
      cases hl
      exact ⟨hkey.1.symm, hkey.2.symm⟩
    · exact h.own hl
  · intro service id record' hl
    rw [lease_write] at hl
    rw [hperm.mem_iff]
    split at hl
    · cases hl
      exact List.mem_cons_self
    · exact List.mem_cons_of_mem _ (h.covered hl)
  · intro entry he
    show entry.generation ≤ r.generation + 1
    rcases List.mem_cons.mp (hperm.mem_iff.mp he) with rfl | he
    · exact hgen.le
    · have := h.fresh entry he
      omega
  · rw [(hperm.map _).nodup_iff, List.map_cons, List.nodup_cons]
    refine ⟨fun hmem => ?_, h.distinct⟩
    obtain ⟨entry, he, heq⟩ := List.mem_map.mp hmem
    have hle := h.fresh entry he
    have : entry.generation = record.generation := heq
    omega

theorem Covered.pop {entry : ExpiryEntry} (h : r.Covered lost) (hpop : r.popExpired now = some (entry, r')) :
    r'.Covered (lost ++ [entry]) := by
  obtain ⟨hheap, -, hservices, hgen⟩ := popExpired_eq_some hpop
  have hperm : (r'.expiries.entries ++ (lost ++ [entry])).Perm (r.expiries.entries ++ lost) := by
    rw [hheap, ← List.append_assoc]
    exact List.perm_append_singleton entry _
  constructor
  · intro service id record hl
    exact h.own ((lease_congr hservices service id).symm.trans hl)
  · intro service id record hl
    rw [hperm.mem_iff]
    exact h.covered ((lease_congr hservices service id).symm.trans hl)
  · intro e he
    rw [hgen]
    exact h.fresh e (hperm.mem_iff.mp he)
  · rw [(hperm.map _).nodup_iff]
    exact h.distinct

theorem Covered.forget {entry : ExpiryEntry} (h : r.Covered (lost ++ [entry]))
    (hnone : ∀ {service id record}, r.lease service id = some record → entryOf record ≠ entry) : r.Covered lost where
  own := h.own
  covered hl := by
    have hmem := h.covered hl
    rw [← List.append_assoc, List.mem_append, List.mem_singleton] at hmem
    exact hmem.resolve_right (hnone hl)
  fresh e he := h.fresh e (by rw [← List.append_assoc]; exact List.mem_append_left _ he)
  distinct := by
    have hnodup := h.distinct
    rw [← List.append_assoc, List.map_append] at hnodup
    exact hnodup.of_append_left

theorem Covered.deleteFrom (h : r.Covered lost) (service id : String) : (r.deleteFrom service id).Covered lost := by
  refine h.shrink rfl le_rfl ?_
  intro service' id' record hl
  rw [lease_deleteFrom] at hl
  split at hl
  · cases hl
  · exact hl

theorem isDue_entryOf (hl : r.lease record.inst.service record.inst.id = some record) (hle : record.expiresAt ≤ now) :
    r.isDue (entryOf record) now = true := by
  simp [isDue, entryOf, hl, hle]

theorem Covered.sweepLoop (h : r.Covered lost) (now fuel : ℕ) (ctx : Ctx) (expired : List ExpiredRecord) :
    (sweepLoop now fuel ctx r expired).1.Covered (lost ++ (droppedEntry now fuel ctx r).toList) := by
  induction fuel generalizing r ctx expired with
  | zero => simpa [MemoryRegistry.sweepLoop, droppedEntry] using h
  | succ fuel ih =>
    unfold MemoryRegistry.sweepLoop droppedEntry
    rcases hpop : r.popExpired now with _ | ⟨entry, r₁⟩
    · simpa using h
    have h₁ := h.pop hpop
    have hdue := (popExpired_eq_some hpop).2.1
    dsimp only
    split
    · exact h₁
    split
    · -- The record is deleted under the names of the entry, so none is left that waits for it.
      refine ih (Covered.forget (h₁.deleteFrom entry.service entry.id) ?_) _ _
      · rintro service id record hl rfl
        rw [lease_deleteFrom] at hl
        split at hl
        · cases hl
        · rename_i hkey
          obtain ⟨hservice, hid⟩ := h₁.own hl
          exact hkey ⟨hservice.symm, hid.symm⟩
    · rename_i hnot
      refine ih (h₁.forget ?_) _ _
      rintro service id record hl rfl
      obtain ⟨rfl, rfl⟩ := h₁.own hl
      exact hnot (isDue_entryOf hl hdue)

theorem Covered.rebuild (h : r.Covered lost) (services : List String) (now : ℕ) :
    (services.foldl (rebuildService now) r).Covered lost := by
  obtain ⟨hheap, hgen⟩ := frame_foldl_rebuildService services r now
  refine h.shrink hheap hgen.ge ?_
  intro service id record hl
  rwa [(foldl_rebuildService_spec services r now).1] at hl

theorem Covered.sweepExpired (h : r.Covered lost) {c : TimedCall} (hcall : c.call = .sweepExpired) :
    (r.sweepExpired c.ctx c.now).1.Covered (lost ++ (r.dropped c).toList) := by
  unfold MemoryRegistry.sweepExpired sweepExpiredRecords dropped
  rw [hcall]
  dsimp only
  split
  · simpa using h
  · exact (h.sweepLoop _ _ _ []).rebuild _ _

theorem Covered.snapshot (h : r.Covered lost) (ctx : Ctx) (service : String) (now : ℕ) :
    (r.snapshot ctx service now).1.Covered lost := by
  have hsub : ∀ {service' id record}, (r.snapshot ctx service now).1.lease service' id = some record →
      r.lease service' id = some record := by
    intro service' id record hl
    rcases r.dropsExpired_snapshot ctx service now service' id with hsame | ⟨hnone, -⟩
    · exact hsame ▸ hl
    · rw [hnone] at hl
      cases hl
  rcases r.snapshot_cases ctx service now with heq | ⟨s, -, heq⟩
  · rwa [heq]
  · rw [heq] at hsub ⊢
    exact h.shrink rfl le_rfl hsub

theorem Covered.step (hwf : r.WellFormed t) (h : r.Covered lost) (c : TimedCall) :
    (r.step c).Covered (lost ++ (r.dropped c).toList) := by
  have hdropped : c.call ≠ .sweepExpired → (r.dropped c).toList = [] := by
    intro hne
    unfold dropped
    split
    · contradiction
    · rfl
  unfold MemoryRegistry.step
  rcases hwf.perform_cases c with ⟨record, hwrites, heq⟩ | ⟨err, hwrites, heq⟩ | ⟨service, hreads, -, heq⟩ | ⟨hcall, -, heq⟩
  · obtain ⟨ttl, htarget, -, -, -, hgen⟩ := hwf.target_of_writes hwrites
    rw [heq, hdropped (fun hc => by simp [hc, MemoryCall.target] at htarget), List.append_nil]
    exact h.write hgen c.now
  · have hne : c.call ≠ .sweepExpired := fun hc => by simp [perform, hc] at heq
    rw [heq, hdropped hne, List.append_nil]
    exact h.shrink rfl (by simp) id
  · rw [heq, hdropped (fun hc => by simp [hc, MemoryCall.reads] at hreads), List.append_nil]
    exact h.snapshot c.ctx service c.now
  · rw [heq]
    exact h.sweepExpired hcall

theorem Covered.run (calls : List TimedCall) (hwf : r.WellFormed t) (hclock : ∀ c ∈ calls, c.now ≤ t) (h : r.Covered lost) :
    (run r calls).Covered (lost ++ droppedBy r calls) := by
  induction calls generalizing r lost with
  | nil => simpa [droppedBy, MemoryRegistry.run] using h
  | cons c rest ih =>
    obtain ⟨hle, hrest⟩ := List.forall_mem_cons.mp hclock
    have hstep := ih (hwf.step hle) hrest (h.step hwf c)
    rwa [List.append_assoc] at hstep

end AegisMesh.Registry.MemoryRegistry

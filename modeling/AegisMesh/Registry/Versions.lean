import AegisMesh.Lib.Versioned
import AegisMesh.Registry.Leases

/-! # Versions of the memory registry -/

open Lib

namespace AegisMesh.Registry

namespace MemoryRegistry

variable {r r' r'' : MemoryRegistry} {now : ℕ} {service : String}

def published (r : MemoryRegistry) (service : String) : InstanceSnapshot := (r.serviceState service).snapshot

def publication (r : MemoryRegistry) (service : String) : Versioned InstanceSnapshot :=
  ⟨(r.published service).version, r.published service⟩

def Numbered (r : MemoryRegistry) : Prop :=
  ∀ service, (r.serviceState service).snapshot.version ≤ (r.serviceState service).version

structure Advances (r r' : MemoryRegistry) : Prop where
  numbered : r'.Numbered
  grows : ∀ service, Versioned.Grows (r.publication service) (r'.publication service)

theorem numbered_empty : Numbered {} := fun _ => le_rfl

theorem Advances.refl (h : r.Numbered) : Advances r r := ⟨h, fun _ => .refl _⟩

theorem Advances.trans (h : Advances r r') (h' : Advances r' r'') : Advances r r'' :=
  ⟨h'.numbered, fun service => (h.grows service).trans (h'.grows service)⟩

theorem serviceState_congr (h : r.services = r'.services) (service : String) :
    r.serviceState service = r'.serviceState service := by
  rw [serviceState, serviceState, h]

theorem Advances.congr (h : Advances r r') (hs : r''.services = r'.services) : Advances r r'' where
  numbered service := by
    rw [serviceState_congr hs]
    exact h.numbered service
  grows service := by
    have heq : r''.publication service = r'.publication service := by
      rw [publication, published, serviceState_congr hs]
      rfl
    rw [heq]
    exact h.grows service

theorem serviceState_setService (r : MemoryRegistry) (service service' : String) (s : ServiceState) :
    (r.setService service s).serviceState service' = if service' = service then s else r.serviceState service' := by
  rw [serviceState, lookup_setService]
  split <;> rfl

theorem Advances.setService (h : r.Numbered) {s : ServiceState} (hnumbered : s.snapshot.version ≤ s.version)
    (hgrows : s.snapshot = r.published service ∨ (r.published service).version < s.snapshot.version) :
    Advances r (r.setService service s) where
  numbered service' := by
    rw [serviceState_setService]
    split
    · exact hnumbered
    · exact h service'
  grows service' := by
    rw [publication, publication, published, published, serviceState_setService]
    split
    · rename_i hsame
      subst hsame
      rcases hgrows with heq | hlt
      · exact .of_eq (by rw [heq]; rfl)
      · exact .of_lt hlt
    · exact .refl _

theorem Advances.rebuild (h : r.Numbered) {s : ServiceState} (hs : s.version = (r.serviceState service).version)
    (now : ℕ) :
    Advances r (r.setService service (s.rebuildSnapshotLocked service now)) := by
  have hle := h service
  refine .setService h le_rfl (Or.inr ?_)
  change (r.serviceState service).snapshot.version < s.version + 1
  omega

/-! ## The calls -/

theorem advances_putRecord (h : r.Numbered) (record : Record) (now : ℕ) : Advances r (r.putRecord record now) := by
  unfold putRecord
  exact .rebuild h (by rfl) now

theorem advances_registerAt (h : r.Numbered) (ctx : Ctx) (inst : Instance) (ttl : ℤ) (now : ℕ) (epoch token : String) :
    Advances r (r.registerAt ctx inst ttl now epoch token).1 := by
  unfold registerAt
  split
  · exact .refl h
  split
  · exact .refl h
  split
  · exact .refl h
  · have hdrawn : Advances r { r with generation := r.generation + 1 } := (Advances.refl h).congr rfl
    exact (hdrawn.trans (advances_putRecord hdrawn.numbered _ now)).congr rfl

theorem advances_heartbeat (h : r.Numbered) (ctx : Ctx) (service id epoch token : String) (ttl : ℤ) (now : ℕ)
    (requireEpoch requireOwner : Bool) :
    Advances r (r.heartbeatAtWithOwner ctx service id epoch token ttl now requireEpoch requireOwner).1 := by
  rcases r.heartbeatAtWithOwner_cases ctx service id epoch token ttl now requireEpoch requireOwner with
    ⟨r', err, heq, hserv⟩ | ⟨r', s, record, hs, hrec, heq, hserv⟩
  · rw [heq]
    exact (Advances.refl h).congr hserv
  · rw [heq]
    refine (Advances.rebuild h ?_ now).congr hserv
    rw [serviceState_of_lookup hs]

theorem advances_snapshot (h : r.Numbered) (ctx : Ctx) (service : String) (now : ℕ) :
    Advances r (r.snapshot ctx service now).1 := by
  rcases r.snapshot_cases ctx service now with heq | ⟨s, hs, heq⟩
  · rw [heq]
    exact .refl h
  · rw [heq]
    rcases s.sweepExpired_cases service now with hsweep | ⟨hsweep, -⟩
    · rw [hsweep]
      exact .rebuild h (by rw [serviceState_of_lookup hs]) now
    · rw [hsweep]
      have hstate := serviceState_of_lookup hs
      exact .setService h (hstate ▸ h service) (Or.inl (by rw [published, hstate]))

theorem snapshot_of_not_needsExpiry {ctx : Ctx} (hctx : ctx 0 = false) (hservice : service ≠ "")
    (hlive : snapshotNeedsExpiry (r.published service) now = false) :
    r.snapshot ctx service now = (r, .ok (r.published service)) := by
  unfold snapshot
  rw [if_neg (by simp [hctx]), if_neg hservice]
  unfold published serviceState at hlive ⊢
  cases hs : r.services.lookup service with
  | none => rfl
  | some s =>
    rw [hs] at hlive
    dsimp only
    rw [Option.getD_some] at hlive
    rw [hlive]
    rfl

theorem snapshot_published {ctx : Ctx} {snap : InstanceSnapshot} (h : (r.snapshot ctx service now).2 = .ok snap) :
    snap = (r.snapshot ctx service now).1.published service := by
  unfold snapshot at h ⊢
  split at h
  · cases h
  split at h
  · cases h
  rename_i hctx hservice
  rw [if_neg hctx, if_neg hservice]
  cases hs : r.services.lookup service with
  | none =>
    rw [hs] at h
    cases h
    simp [published, serviceState, hs, newServiceState]
  | some s =>
    rw [hs] at h
    dsimp only at h ⊢
    split at h
    · cases h
      rename_i hexpired
      rw [if_pos hexpired, published, serviceState_setService, if_pos rfl]
    · cases h
      rename_i hexpired
      rw [if_neg hexpired, published, serviceState_of_lookup hs]

theorem advances_sweepLoop (now fuel : ℕ) : ∀ (ctx : Ctx) (r : MemoryRegistry) (expired : List ExpiredRecord), r.Numbered →
    Advances r (sweepLoop now fuel ctx r expired).1 := by
  induction fuel with
  | zero => intro ctx r expired h; exact .refl h
  | succ fuel ih =>
    intro ctx r expired h
    rw [sweepLoop]
    split
    · exact .refl h
    · rename_i entry r₁ hpop
      have hfirst : Advances r r₁ := (Advances.refl h).congr (popExpired_services hpop)
      split
      · exact hfirst
      · split
        · have hdelete : Advances r₁ (r₁.deleteFrom entry.service entry.id) :=
            .setService hfirst.numbered (hfirst.numbered entry.service) (Or.inl rfl)
          exact (hfirst.trans hdelete).trans (ih _ _ _ hdelete.numbered)
        · exact hfirst.trans (ih _ _ _ hfirst.numbered)

theorem advances_rebuildServices (h : r.Numbered) (now : ℕ) (services : List String) :
    Advances r (services.foldl (rebuildService now) r) := by
  induction services generalizing r with
  | nil => exact .refl h
  | cons service rest ih =>
    have hfirst : Advances r (rebuildService now r service) := .rebuild h rfl now
    exact hfirst.trans (ih hfirst.numbered)

theorem advances_sweepExpired (h : r.Numbered) (ctx : Ctx) (now : ℕ) : Advances r (r.sweepExpired ctx now).1 := by
  simp only [sweepExpired, sweepExpiredRecords]
  split
  · exact .refl h
  · have hloop := advances_sweepLoop now r.expiries.entries.length (ctx.after 1) r [] h
    exact hloop.trans (advances_rebuildServices hloop.numbered now _)

end MemoryRegistry

end AegisMesh.Registry

import AegisMesh.Controller.ActiveHealth
import AegisMesh.Registry.Fence

/-! # Pruning beside telemetry and registrations -/

open Lib

namespace AegisMesh.Controller

open Registry Fault

/-- Where a prune call is: `todo` are the services that it has still to list. -/
inductive PrunePhase
  | idle
  | listing (todo : List String) (active : Dict EndpointIdentity String)
deriving DecidableEq

structure Pruner (σ : Type) where
  store : σ
  health : HealthManager
  phase : PrunePhase := .idle

inductive PruneEvent
  | register (m : Moment) (inst : Instance) (ttl : ℤ) (fence : Fence)
  | heartbeat (m : Moment) (service id : String) (fence : Fence) (ttl : ℤ)
  | read (m : Moment) (service : String)
  | sweep (m : Moment)
  | update (samples : List EndpointSample) (now wall : ℕ)
  | tick (now wall : ℕ)
  | snapshot
  | list (m : Moment) (service : String)
  | remove

namespace Pruner

variable {σ : Type} (R : Store σ)

def snapshot (p : Pruner σ) : Pruner σ :=
  match p.phase with
  | .idle =>
    if p.health.list "" = [] then p else { p with phase := .listing (recordServices (p.health.list "")) ∅ }
  | .listing _ _ => p

def list (p : Pruner σ) (m : Moment) (service : String) : Pruner σ :=
  match p.phase with
  | .idle => p
  | .listing todo active =>
    if service ∈ todo then
      match R.list p.store m service with
      | (store, .ok instances) =>
        { p with store, phase := .listing (todo.erase service) (instances.foldl addActive active) }
      | (store, .error _) => { p with store, phase := .idle }
    else p

def remove (p : Pruner σ) : Pruner σ :=
  match p.phase with
  | .listing [] active => { p with health := p.health.pruneMissing (some active), phase := .idle }
  | _ => p

def step (p : Pruner σ) : PruneEvent → Pruner σ
  | .register m inst ttl fence => { p with store := (R.register p.store m inst ttl fence).1 }
  | .heartbeat m service id fence ttl => { p with store := (R.heartbeatWithOwner p.store m service id fence ttl).1 }
  | .read m service => { p with store := (R.list p.store m service).1 }
  | .sweep m => { p with store := R.sweepExpired p.store m }
  | .update samples now wall => { p with health := p.health.update samples now wall }
  | .tick now wall => { p with health := p.health.tick now wall }
  | .snapshot => p.snapshot
  | .list m service => p.list R m service
  | .remove => p.remove

def run (p : Pruner σ) (events : List PruneEvent) : Pruner σ := events.foldl (step R) p

end Pruner

/-! ## A call with nothing between its steps -/

section Uninterrupted

variable {σ : Type} {R : Store σ} {listed : String → Except RegistryError (List Instance)}

theorem run_lists (hR : ∀ s m service, R.list s m service = (s, listed service)) (m : Moment) (services : List String)
    (p : Pruner σ) {active : Dict EndpointIdentity String} (hphase : p.phase = .listing services active) :
    p.run R (services.map (.list m)) =
      { p with phase := match gatherActive listed services active with
          | .ok retain => .listing [] retain
          | .error _ => .idle } := by
  induction services generalizing p active with
  | nil =>
    obtain ⟨store, health, phase⟩ := p
    simpa [Pruner.run, gatherActive] using hphase
  | cons service rest ih =>
    have hidle : ∀ (rest : List String) (q : Pruner σ), q.phase = .idle → q.run R (rest.map (.list m)) = q := by
      intro rest q hq
      induction rest with
      | nil => rfl
      | cons other rest ih =>
        rw [List.map_cons, Pruner.run, List.foldl_cons]
        simp only [Pruner.step, Pruner.list, hq]
        exact ih
    rw [List.map_cons, Pruner.run, List.foldl_cons]
    simp only [Pruner.step, Pruner.list, hphase, List.mem_cons_self, if_true, hR, gatherActive]
    cases hlisted : listed service with
    | error err => exact hidle rest _ rfl
    | ok instances => exact ih _ (by simp)

theorem run_uninterrupted (hR : ∀ s m service, R.list s m service = (s, listed service)) (m : Moment) {p : Pruner σ}
    (hphase : p.phase = .idle) :
    (p.run R (.snapshot :: (recordServices (p.health.list "")).map (.list m) ++ [.remove])).health =
      (pruneHealthMissingFromRegistry (some listed) p.health).1 := by
  rw [Pruner.run, List.cons_append, List.foldl_cons, List.foldl_append]
  simp only [Pruner.step, Pruner.snapshot, hphase, pruneHealthMissingFromRegistry, activeRegistryEndpoints]
  split
  · rename_i hnil
    have hservices : recordServices ([] : List EndpointHealth) = [] := rfl
    simp [hnil, hservices, Pruner.step, Pruner.remove, hphase]
  · have hlists := run_lists hR m (recordServices (p.health.list ""))
      { p with phase := .listing (recordServices (p.health.list "")) ∅ } rfl
    rw [Pruner.run] at hlists
    rw [hlists]
    cases gatherActive listed (recordServices (p.health.list "")) ∅ <;> rfl

end Uninterrupted

/-! ## What a call has gathered -/

def Shows {σ : Type} (R : Store σ) (s : σ) (m : Moment) (inst : Instance) : Prop :=
  ∀ instances, (R.list s m inst.service).2 = .ok instances →
    ∃ listed ∈ instances, listed.id = inst.id ∧ listed.address = inst.address ∧
      listed.registrationEpoch = inst.registrationEpoch

structure Gathered (inst : Instance) (asked todo : List String) (active : Dict EndpointIdentity String) : Prop where
  nodup : todo.Nodup
  subset : todo ⊆ asked
  found : ∀ epoch address, active.lookup ⟨inst.service, inst.id, epoch⟩ = some address ↔
    (inst.service ∈ asked ∧ inst.service ∉ todo) ∧ epoch = inst.registrationEpoch ∧ address = inst.address

theorem gathered_start (inst : Instance) (health : List EndpointHealth) :
    Gathered inst (recordServices health) (recordServices health) ∅ where
  nodup := List.nodup_dedup _
  subset := List.Subset.refl _
  found epoch address := by simp

theorem lookup_active_frame {instances : List Instance} {service : String}
    (hown : ∀ inst ∈ instances, inst.service = service) (active : Dict EndpointIdentity String)
    {identity : EndpointIdentity} (hne : identity.service ≠ service) :
    (instances.foldl addActive active).lookup identity = active.lookup identity := by
  refine Dict.lookup_foldl_frame (fun inst hinst d => ?_) active
  rw [lookup_addActive, if_neg]
  rintro ⟨-, rfl⟩
  exact hne (hown inst hinst)

theorem Gathered.list {inst : Instance} {asked todo : List String} {active : Dict EndpointIdentity String}
    (h : Gathered inst asked todo active) {service : String} (hservice : service ∈ todo) {instances : List Instance}
    (hown : ∀ other ∈ instances, other.service = service) (hdistinct : (instances.map Instance.id).Nodup)
    (hnamed : inst.service ≠ "" ∧ inst.id ≠ "")
    (hshows : service = inst.service → ∃ listed ∈ instances, listed.id = inst.id ∧ listed.address = inst.address ∧
      listed.registrationEpoch = inst.registrationEpoch) :
    Gathered inst asked (todo.erase service) (instances.foldl addActive active) where
  nodup := h.nodup.erase service
  subset := fun other hother => h.subset (List.mem_of_mem_erase hother)
  found epoch address := by
    by_cases hsame : service = inst.service
    · -- The listing of the service itself: nothing was found before, and now the instance is.
      subst hsame
      obtain ⟨listed, hlisted, hid, haddress, hepoch⟩ := hshows rfl
      have hbefore : ∀ epoch, active.lookup ⟨inst.service, inst.id, epoch⟩ = none := by
        intro epoch
        rw [Option.eq_none_iff_forall_ne_some]
        exact fun address hfound => ((h.found epoch address).mp hfound).1.2 hservice
      have hgone : inst.service ∉ todo.erase inst.service := h.nodup.not_mem_erase
      have hone : ∀ {epoch address},
          (instances.foldl addActive active).lookup ⟨inst.service, inst.id, epoch⟩ = some address →
          epoch = inst.registrationEpoch ∧ address = inst.address := by
        intro epoch address hfound
        rcases lookup_active_mem hfound with hold | ⟨other, hother, hidentity, rfl⟩
        · rw [hbefore] at hold
          cases hold
        · simp only [identityOf, EndpointIdentity.mk.injEq] at hidentity
          obtain rfl := List.inj_on_of_nodup_map hdistinct hother hlisted (hidentity.2.1.symm.trans hid.symm)
          exact ⟨hidentity.2.2.trans hepoch, haddress⟩
      constructor
      · intro hfound
        exact ⟨⟨h.subset hservice, hgone⟩, hone hfound⟩
      · rintro ⟨-, rfl, rfl⟩
        have hsome : ((instances.foldl addActive active).lookup
            ⟨inst.service, inst.id, inst.registrationEpoch⟩).isSome := by
          refine lookup_active_isSome (.inr ⟨listed, hlisted, ?_, ?_⟩)
          · rw [hown listed hlisted, hid]
            exact hnamed
          · rw [identityOf, hown listed hlisted, hid, hepoch]
        obtain ⟨address, hfound⟩ := Option.isSome_iff_exists.mp hsome
        rw [hfound, (hone hfound).2]
    · rw [lookup_active_frame hown active (Ne.symm hsame), h.found,
        List.mem_erase_of_ne (Ne.symm hsame)]

section Retained

variable {inst : Instance} {asked : List String} {active : Dict EndpointIdentity String} {health : EndpointHealth}
  (h : Gathered inst asked [] active) (hnames : health.service = inst.service ∧ health.instanceID = inst.id)
include h hnames

theorem Gathered.address_found (hasked : inst.service ∈ asked)
    (hepoch : healthMatchesInstanceRegistrationEpoch health.registrationEpoch inst.registrationEpoch = true) :
    HealthManager.retainedEndpointAddress active health = some inst.address := by
  have hown : active.lookup ⟨health.service, health.instanceID, inst.registrationEpoch⟩ = some inst.address := by
    rw [hnames.1, hnames.2]
    exact (h.found _ _).mpr ⟨⟨hasked, List.not_mem_nil⟩, rfl, rfl⟩
  obtain ⟨address, haddress⟩ := Option.isSome_iff_exists.mp (retainedEndpointAddress_isSome hown hepoch)
  obtain ⟨epoch, hfound, -⟩ := lookup_of_retainedEndpointAddress haddress
  rw [hnames.1, hnames.2] at hfound
  rw [haddress, ((h.found _ _).mp hfound).2.2]

theorem Gathered.address_missing (hasked : inst.service ∉ asked) :
    HealthManager.retainedEndpointAddress active health = none := by
  rw [Option.eq_none_iff_forall_ne_some]
  intro address haddress
  obtain ⟨epoch, hfound, -⟩ := lookup_of_retainedEndpointAddress haddress
  rw [hnames.1, hnames.2] at hfound
  exact hasked ((h.found _ _).mp hfound).1.1

theorem Gathered.retained_iff (hmatches : healthMatchesInstance health inst = true) :
    HealthManager.retained active health = true ↔ inst.service ∈ asked := by
  rw [healthMatchesInstance, Bool.and_eq_true] at hmatches
  by_cases hasked : inst.service ∈ asked
  · simp only [HealthManager.retained, h.address_found hnames hasked hmatches.2, hasked, iff_true]
    exact hmatches.1
  · simp [HealthManager.retained, h.address_missing hnames hasked, hasked]

end Retained

/-! ## The rest of a call -/

section Call

variable {σ : Type} {R : Store σ} {good : σ → Prop} {owner : σ → String → String → Option Fence} {inst : Instance}
  {asked : List String} {p : Pruner σ}

theorem good_step (hR : R.KeepsFences good owner) (p : Pruner σ) (event : PruneEvent) (h : good p.store) :
    good (p.step R event).store := by
  cases event with
  | register m other ttl fence => exact (hR.register p.store m other ttl fence h).1
  | heartbeat m service id fence ttl => exact (hR.heartbeat p.store m service id fence ttl h).1
  | read m service => exact (hR.list p.store m service h).1
  | sweep m => exact (hR.sweep p.store m h).1
  | update samples now wall => exact h
  | tick now wall => exact h
  | snapshot =>
    simp only [Pruner.step, Pruner.snapshot]
    split
    · split <;> exact h
    · exact h
  | list m service =>
    have hlist := (hR.list p.store m service h).1
    simp only [Pruner.step, Pruner.list]
    split
    · exact h
    · split
      · split <;> rename_i heq <;> rw [heq] at hlist <;> exact hlist
      · exact h
  | remove =>
    simp only [Pruner.step, Pruner.remove]
    split <;> exact h

def Steady (R : Store σ) (inst : Instance) (p : Pruner σ) : PruneEvent → Prop
  | .snapshot => False
  | .list m service => service = inst.service → Shows R p.store m inst
  | _ => True

structure InCall (good : σ → Prop) (inst : Instance) (asked : List String) (p : Pruner σ) : Prop where
  good : good p.store
  gathered : ∀ todo active, p.phase = .listing todo active → Gathered inst asked todo active

theorem InCall.list (hlists : R.ListsOwn good) (hnamed : inst.service ≠ "" ∧ inst.id ≠ "")
    (h : InCall good inst asked p) {m : Moment} {service : String}
    (hshows : service = inst.service → Shows R p.store m inst) {todo : List String}
    {active : Dict EndpointIdentity String} (hphase : (p.list R m service).phase = .listing todo active) :
    Gathered inst asked todo active := by
  have hown := hlists.own p.store m service
  have hdistinct := hlists.distinct p.store m service
  unfold Pruner.list at hphase
  split at hphase
  · exact h.gathered todo active hphase
  · rename_i before gathered hbefore
    split at hphase
    · rename_i hservice
      split at hphase
      · rename_i store instances hlist
        rw [hlist] at hown hdistinct
        obtain ⟨rfl, rfl⟩ := PrunePhase.listing.inj hphase
        refine (h.gathered before gathered hbefore).list hservice (hown instances h.good rfl)
          (hdistinct instances h.good rfl) hnamed fun hsame => ?_
        subst hsame
        exact hshows rfl instances (by rw [hlist])
      · cases hphase
    · exact h.gathered todo active hphase

theorem InCall.step (hR : R.KeepsFences good owner) (hlists : R.ListsOwn good)
    (hnamed : inst.service ≠ "" ∧ inst.id ≠ "") (p : Pruner σ) (event : PruneEvent) (h : InCall good inst asked p)
    (hsteady : Steady R inst p event) : InCall good inst asked (p.step R event) := by
  refine ⟨good_step hR p event h.good, fun todo active hphase => ?_⟩
  cases event with
  | snapshot => exact hsteady.elim
  | list m service => exact h.list hlists hnamed hsteady hphase
  | remove =>
    simp only [Pruner.step, Pruner.remove] at hphase
    split at hphase
    · cases hphase
    · exact h.gathered todo active hphase
  | _ => exact h.gathered todo active hphase

/-- A prune call has listed every service it asks for, and an instance that it could find has a record that
matches it. `mid` is what ran since the call's snapshot, its lists included. -/
structure LiveInPrune (R : Store σ) (p : Pruner σ) (mid : List PruneEvent) (inst : Instance) (key : String)
    (health : EndpointHealth) : Prop where
  idle : p.phase = .idle
  steady : Along (Pruner.step R) (Steady R inst) p.snapshot mid
  listed : ∃ active, (p.snapshot.run R mid).phase = .listing [] active
  held : (p.snapshot.run R mid).health.health.lookup key = some health
  names : health.service = inst.service ∧ health.instanceID = inst.id
  fits : healthMatchesInstance health inst = true
  named : inst.service ≠ "" ∧ inst.id ≠ ""

theorem LiveInPrune.kept_iff (hR : R.KeepsFences good owner) (hlists : R.ListsOwn good) (hgood : good p.store)
    {mid : List PruneEvent} {key : String} {health : EndpointHealth} (h : LiveInPrune R p mid inst key health) :
    (p.snapshot.run R mid).remove.health.health.lookup key = some health ↔
      inst.service ∈ recordServices (p.health.list "") := by
  have hstart : InCall good inst (recordServices (p.health.list "")) p.snapshot := by
    refine ⟨good_step hR p .snapshot hgood, fun todo active hphase => ?_⟩
    simp only [Pruner.snapshot, h.idle] at hphase
    split at hphase
    · rw [h.idle] at hphase
      cases hphase
    · obtain ⟨rfl, rfl⟩ := PrunePhase.listing.inj hphase
      exact gathered_start inst _
  have hcall := run_invariant_along (InCall.step hR hlists h.named) hstart h.steady
  obtain ⟨active, hphase⟩ := h.listed
  have hretained := (hcall.gathered [] active hphase).retained_iff h.names h.fits
  rw [← hretained]
  simp only [Pruner.remove, hphase, HealthManager.pruneMissing, HealthManager.bumpIfChanged_health,
    Dict.lookup_filter, h.held, Option.filter_eq_some_iff, true_and]

end Call

def memoryPruner (health : HealthManager) (before : List PruneEvent) : Pruner MemoryRegistry :=
  ({ store := {}, health } : Pruner MemoryRegistry).run MemoryRegistry.store before

def sharedPruner (keyPrefix : String) (revision : ℕ) (health : HealthManager) (before : List PruneEvent) :
    Pruner LeaseStore :=
  ({ store := RevStore.empty revision, health } : Pruner LeaseStore).run (LeaseStoreRegistry.shared keyPrefix).store before

/-- In every run, over the memory registry and over a shared store, a prune call keeps the record of an
instance that stays registered exactly if its snapshot had a record of the instance's service. -/
theorem live_record_kept_iff (start : HealthManager) (before mid : List PruneEvent) (inst : Instance) (key : String)
    (health : EndpointHealth) :
    (LiveInPrune MemoryRegistry.store (memoryPruner start before) mid inst key health →
      (((memoryPruner start before).snapshot.run MemoryRegistry.store mid).remove.health.health.lookup key = some health ↔
        inst.service ∈ recordServices ((memoryPruner start before).health.list ""))) ∧
    ∀ keyPrefix revision,
      let R := (LeaseStoreRegistry.shared keyPrefix).store
      let p := sharedPruner keyPrefix revision start before
      LiveInPrune R p mid inst key health →
      ((p.snapshot.run R mid).remove.health.health.lookup key = some health ↔
        inst.service ∈ recordServices (p.health.list "")) := by
  refine ⟨fun h => ?_, fun keyPrefix revision h => ?_⟩
  · have hgood : ∃ t, (memoryPruner start before).store.WellFormed t :=
      run_invariant (good_step MemoryRegistry.store_keepsFences) ⟨0, MemoryRegistry.wellFormed_empty 0⟩ before
    exact h.kept_iff MemoryRegistry.store_keepsFences MemoryRegistry.store_listsOwn hgood
  · have hgood : (LeaseStoreRegistry.shared keyPrefix).Filed (sharedPruner keyPrefix revision start before).store :=
      run_invariant (good_step (LeaseStoreRegistry.store_keepsFences keyPrefix))
        (fun key kv h => by simp [RevStore.empty] at h) before
    exact h.kept_iff (LeaseStoreRegistry.store_keepsFences keyPrefix) (LeaseStoreRegistry.store_listsOwn keyPrefix) hgood

/-! ## A first report in the course of a call -/

def orderA : Instance := { id := "a", service := "order", address := "10.0.0.1:80", registrationEpoch := "e" }

def userB : Instance := { id := "b", service := "user", address := "10.0.0.2:80" }

def sampleOf (inst : Instance) : EndpointSample where
  service := inst.service
  instanceID := inst.id
  address := inst.address
  registrationEpoch := inst.registrationEpoch
  requestCount := 10

def noRecords : HealthManager := { calculator := newScoreCalculator {} 0, baseStateMachine := {} }

def registrations : List PruneEvent :=
  [.register { now := 1 } orderA 1000 ⟨"e", "t"⟩, .register { now := 1 } userB 1000 ⟨"f", "u"⟩]

theorem first_report_pruned :
    let p := memoryPruner noRecords (registrations ++ [.update [sampleOf userB] 2 2])
    let q := p.snapshot.run MemoryRegistry.store [.update [sampleOf orderA] 3 3, .list { now := 4 } "user"]
    let listed := (MemoryRegistry.store.list q.store { now := 4 } "order").2
    listed.toOption.map (List.map identityOf) = some [identityOf orderA] ∧
    (q.health.get "order" "a").map (healthMatchesInstance · orderA) = some true ∧
    (q.remove.health.get "order" "a").isNone = true ∧ (q.remove.health.get "user" "b").isSome = true := by
  decide +kernel

def PrunePhase.listed : PrunePhase → Bool
  | .listing [] _ => true
  | _ => false

theorem PrunePhase.listing_of_listed {phase : PrunePhase} (h : phase.listed = true) :
    ∃ active, phase = .listing [] active := by
  unfold PrunePhase.listed at h
  split at h
  · exact ⟨_, rfl⟩
  · cases h

def reported : Pruner MemoryRegistry :=
  memoryPruner noRecords (registrations ++ [.update [sampleOf orderA] 2 2])

def meanwhile : List PruneEvent := [.update [sampleOf userB] 3 3, .list { now := 4 } "order"]

theorem steady_meanwhile :
    Along (Pruner.step MemoryRegistry.store) (Steady MemoryRegistry.store orderA) reported.snapshot meanwhile := by
  have hshown : (MemoryRegistry.store.list (reported.snapshot.step MemoryRegistry.store (.update [sampleOf userB] 3 3)).store
      { now := 4 } "order").2.toOption.map (List.map fun inst => (inst.id, inst.address, inst.registrationEpoch)) =
      some [("a", "10.0.0.1:80", "e")] := by
    decide +kernel
  -- the state is opaque from here: unifying it would run the model again
  generalize reported.snapshot = p at hshown
  refine ⟨trivial, fun _ instances hlist => ?_, trivial⟩
  change (MemoryRegistry.store.list (p.step MemoryRegistry.store (.update [sampleOf userB] 3 3)).store { now := 4 }
    "order").2 = .ok instances at hlist
  rw [hlist] at hshown
  simp only [Except.toOption, Option.map_some, Option.some.injEq] at hshown
  obtain ⟨listed, hlisted, hfacts⟩ := List.mem_map.mp (hshown ▸ List.mem_singleton_self _)
  simp only [Prod.mk.injEq] at hfacts
  exact ⟨listed, hlisted, hfacts⟩

theorem live_meanwhile : ∃ health, LiveInPrune MemoryRegistry.store reported meanwhile orderA "order/a" health := by
  have hidle : reported.phase = .idle := by decide +kernel
  have hlisted : (reported.snapshot.run MemoryRegistry.store meanwhile).phase.listed = true := by decide +kernel
  have hheld : ((reported.snapshot.run MemoryRegistry.store meanwhile).health.health.lookup "order/a").map
      (fun health => (health.service, health.instanceID, healthMatchesInstance health orderA)) =
      some ("order", "a", true) := by
    decide +kernel
  have hsteady := steady_meanwhile
  generalize reported = p at *
  obtain ⟨health, hlookup, hfacts⟩ := Option.map_eq_some_iff.mp hheld
  simp only [Prod.mk.injEq] at hfacts
  obtain ⟨hservice, hid, hfits⟩ := hfacts
  exact ⟨health, hidle, hsteady, PrunePhase.listing_of_listed hlisted, hlookup, ⟨hservice, hid⟩, hfits, by decide⟩

theorem reported_service_kept :
    "order" ∈ recordServices (reported.health.list "") ∧
    ∃ health, LiveInPrune MemoryRegistry.store reported meanwhile orderA "order/a" health ∧
      (reported.snapshot.run MemoryRegistry.store meanwhile).remove.health.health.lookup "order/a" = some health := by
  have hservice : "order" ∈ recordServices (reported.health.list "") := by decide +kernel
  obtain ⟨health, hlive⟩ := live_meanwhile
  have hkept := (live_record_kept_iff noRecords (registrations ++ [.update [sampleOf orderA] 2 2]) meanwhile orderA
    "order/a" health).1
  change LiveInPrune MemoryRegistry.store reported _ _ _ _ → _ at hkept
  exact ⟨hservice, health, hlive, (hkept hlive).mpr hservice⟩

end AegisMesh.Controller

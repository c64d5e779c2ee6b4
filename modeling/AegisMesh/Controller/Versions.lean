import AegisMesh.Controller.RegistryService
import AegisMesh.Fault.Revisions
import AegisMesh.Registry.Fence
import AegisMesh.Registry.Versions

/-! # Versions of the instance lists -/

open Lib

namespace AegisMesh.Controller

open Registry Fault

structure Process where
  registry : MemoryRegistry
  health : HealthManager

def Process.start (calculator : ScoreCalculator) (baseStateMachine : StateMachineConfig) : Process where
  registry := {}
  health := { calculator, baseStateMachine }

inductive ProcessOp
  | register (m : Moment) (inst : Instance) (ttl : ℤ) (fence : Fence)
  | heartbeat (m : Moment) (service id : String) (fence : Fence) (ttl : ℤ)
  | snapshot (m : Moment) (service : String)
  | sweep (m : Moment)
  | update (samples : List EndpointSample) (now wall : ℕ)
  | tick (now wall : ℕ)
  | mergeSnapshot (records : List EndpointHealth) (now : ℕ)
  | pruneMissing (retain : Option (Dict Fault.EndpointIdentity String))
  | configure (service : String) (cfg : StateMachineConfig) (now : ℕ)
  | replaceConfigs (configs : Dict String StateMachineConfig) (now : ℕ)

def Process.step (p : Process) : ProcessOp → Process
  | .register m inst ttl fence => { p with registry := (MemoryRegistry.store.register p.registry m inst ttl fence).1 }
  | .heartbeat m service id fence ttl =>
    { p with registry := (MemoryRegistry.store.heartbeatWithOwner p.registry m service id fence ttl).1 }
  | .snapshot m service => { p with registry := (p.registry.snapshot m.ctx service m.now).1 }
  | .sweep m => { p with registry := MemoryRegistry.store.sweepExpired p.registry m }
  | .update samples now wall => { p with health := p.health.update samples now wall }
  | .tick now wall => { p with health := p.health.tick now wall }
  | .mergeSnapshot records now => { p with health := p.health.mergeSnapshot records now }
  | .pruneMissing retain => { p with health := p.health.pruneMissing retain }
  | .configure service cfg now => { p with health := (p.health.setServiceStateMachineConfig service cfg now).1 }
  | .replaceConfigs configs now => { p with health := (p.health.replaceServiceStateMachineConfigs configs now).1 }

def Process.run (p : Process) (ops : List ProcessOp) : Process := ops.foldl Process.step p

def ProcessOp.Plain : ProcessOp → Prop
  | .update samples _ _ => ∀ sample ∈ samples, PlainName sample.service
  | .mergeSnapshot records _ => ∀ health ∈ records, PlainName health.service
  | _ => True

/-- A view of the service that a process makes: the snapshot published at one point of its run,
and the health version and the records as they are together at another. -/
def Process.Sees (p : Process) (ops : List ProcessOp) (service : String) (view : InstancesView) : Prop :=
  ∃ early late, early <+: ops ∧ late <+: ops ∧
    view = instancesView ((p.run early).registry.published service) ((p.run late).health.healthVersion service)
      (p.run late).health.get

/-- What the handler answers is such a view: it reads the snapshot, and later the health. -/
theorem Process.sees_handler (p : Process) {ops early late : List ProcessOp} {m : Moment} {service : String}
    {snap : InstanceSnapshot} (hlate : early ++ [.snapshot m service] <+: late) (hops : late <+: ops)
    (hsnap : ((p.run early).registry.snapshot m.ctx service m.now).2 = .ok snap) :
    p.Sees ops service (instancesView snap ((p.run late).health.healthVersion service) (p.run late).health.get) := by
  refine ⟨early ++ [.snapshot m service], late, hlate.trans hops, hops, ?_⟩
  rw [MemoryRegistry.snapshot_published hsnap]
  simp only [run, List.foldl_append, List.foldl_cons, List.foldl_nil, step]

/-! ## One process -/

structure Process.Good (p : Process) : Prop where
  wellFormed : ∃ t, p.registry.WellFormed t
  numbered : p.registry.Numbered
  filed : p.health.Filed

theorem Process.good_start (calculator : ScoreCalculator) (baseStateMachine : StateMachineConfig) :
    (Process.start calculator baseStateMachine).Good where
  wellFormed := ⟨0, MemoryRegistry.wellFormed_empty 0⟩
  numbered := MemoryRegistry.numbered_empty
  filed := ⟨fun key health h => by simp [start] at h, fun service => by simp [start]⟩

structure Process.Moves (p p' : Process) : Prop where
  good : p'.Good
  registry : ∀ service, Versioned.Grows (p.registry.publication service) (p'.registry.publication service)
  health : ∀ service, PlainName service → service ≠ "" →
    Versioned.Grows (p.health.showing service) (p'.health.showing service)

variable {p : Process}

theorem Process.Good.moveRegistry (h : p.Good) {registry : MemoryRegistry} (hwf : ∃ t, registry.WellFormed t)
    (hadvances : p.registry.Advances registry) : p.Moves { p with registry } :=
  ⟨⟨hwf, hadvances.numbered, h.filed⟩, hadvances.grows, fun _ _ _ => .refl _⟩

theorem Process.Good.moveHealth (h : p.Good) {health : HealthManager} (hadvances : p.health.Advances health) :
    p.Moves { p with health } :=
  ⟨⟨h.wellFormed, h.numbered, hadvances.filed⟩, fun _ => .refl _, hadvances.grows⟩

theorem Process.Good.step (h : p.Good) {op : ProcessOp} (hop : op.Plain) : p.Moves (p.step op) := by
  have hlaws := MemoryRegistry.store_keepsFences
  cases op with
  | register m inst ttl fence =>
    exact h.moveRegistry (hlaws.register p.registry m inst ttl fence h.wellFormed).1
      (MemoryRegistry.advances_registerAt h.numbered ..)
  | heartbeat m service id fence ttl =>
    refine h.moveRegistry (hlaws.heartbeat p.registry m service id fence ttl h.wellFormed).1 ?_
    simp only [MemoryRegistry.store, MemoryRegistry.heartbeatWithOwner]
    split
    · exact .refl h.numbered
    · exact MemoryRegistry.advances_heartbeat h.numbered ..
  | snapshot m service =>
    exact h.moveRegistry (hlaws.list p.registry m service h.wellFormed).1
      (MemoryRegistry.advances_snapshot h.numbered ..)
  | sweep m =>
    exact h.moveRegistry (hlaws.sweep p.registry m h.wellFormed).1 (MemoryRegistry.advances_sweepExpired h.numbered ..)
  | update samples now wall => exact h.moveHealth ((HealthManager.bumped_update h.filed hop now wall).advances h.filed)
  | tick now wall => exact h.moveHealth ((HealthManager.bumped_tick h.filed now wall).advances h.filed)
  | mergeSnapshot records now => exact h.moveHealth ((HealthManager.bumped_mergeSnapshot h.filed hop now).advances h.filed)
  | pruneMissing retain => exact h.moveHealth ((HealthManager.bumped_pruneMissing h.filed retain).advances h.filed)
  | configure service cfg now =>
    exact h.moveHealth ((HealthManager.bumped_setServiceStateMachineConfig h.filed service cfg now).advances h.filed)
  | replaceConfigs configs now =>
    exact h.moveHealth ((HealthManager.bumped_replaceServiceStateMachineConfigs h.filed configs now).advances h.filed)

theorem Process.Good.run (h : p.Good) {ops : List ProcessOp} (hops : ∀ op ∈ ops, op.Plain) : (p.run ops).Good :=
  run_invariant_of (I := Process.Good) (fun _ _ hp hop => (hp.step hop).good) h hops

theorem Process.Good.service (h : p.Good) {service : String} {inst : Instance}
    (hinst : inst ∈ (p.registry.published service).instances) : inst.service = service := by
  obtain ⟨t, hwf⟩ := h.wellFormed
  unfold MemoryRegistry.published MemoryRegistry.serviceState at hinst
  cases hs : p.registry.services.lookup service with
  | none =>
    rw [hs] at hinst
    cases hinst
  | some s =>
    rw [hs, Option.getD_some] at hinst
    obtain ⟨u, -, hpub⟩ := hwf.published hs
    rw [hpub.instances, listing, mem_sortBy, List.mem_map] at hinst
    obtain ⟨record, hrecord, rfl⟩ := hinst
    obtain ⟨⟨id, hid⟩, -⟩ := mem_liveRecords.mp hrecord
    have hlease : p.registry.lease service id = some record := by simp [MemoryRegistry.lease, hs, hid]
    exact (hwf.own hlease).1

theorem overlaid_congr (inst : Instance) {health health' : Option EndpointHealth}
    (h : health.map EndpointHealth.shown = health'.map EndpointHealth.shown) : overlaid inst health = overlaid inst health' := by
  cases health with
  | none =>
    cases health' with
    | none => rfl
    | some b => cases h
  | some a =>
    cases health' with
    | none => cases h
    | some b =>
      simp only [Option.map_some, Option.some.injEq, EndpointHealth.shown, Prod.mk.injEq] at h
      have hmatch : healthMatchesInstance a inst = healthMatchesInstance b inst := by
        rw [healthMatchesInstance, healthMatchesInstance, h.1, h.2.1]
      have hoverlay : overlayHealth inst (some a) = overlayHealth inst (some b) := by
        simp only [overlayHealth, hmatch, h.2.2.1, h.2.2.2]
      simp only [overlaid, hoverlay]

def InstancesView.Apart (view view' : InstancesView) : Prop :=
  view.response.version = view'.response.version →
    view.registryVersion = view'.registryVersion ∧ view.healthVersion = view'.healthVersion

theorem Process.Good.same_counters (h : p.Good) {ops : List ProcessOp} (hops : ∀ op ∈ ops, op.Plain)
    {service : String} (hplain : PlainName service) (hne : service ≠ "") {view view' : InstancesView}
    (hview : p.Sees ops service view) (hview' : p.Sees ops service view')
    (hregistry : view.registryVersion = view'.registryVersion) (hhealth : view.healthVersion = view'.healthVersion) :
    view.response.instances = view'.response.instances := by
  obtain ⟨early, late, hearly, hlate, rfl⟩ := hview
  obtain ⟨early', late', hearly', hlate', rfl⟩ := hview'
  have hsteps : ∀ op ∈ ops, ∀ q : Process, q.Good → q.Moves (q.step op) := fun op hop q hq => hq.step (hops op hop)
  have hpublished : (p.run early).registry.published service = (p.run early').registry.published service :=
    Versioned.content_of_version (fun q : Process => q.registry.publication service)
      (fun op hop q hq => ⟨(hsteps op hop q hq).good, (hsteps op hop q hq).registry service⟩) h hearly hearly' hregistry
  have hshown := Versioned.content_of_version (fun q : Process => q.health.showing service)
    (fun op hop q hq => ⟨(hsteps op hop q hq).good, (hsteps op hop q hq).health service hplain hne⟩) h hlate hlate'
    hhealth
  have hgood : (p.run early').Good := h.run fun op hop => hops op (hearly'.subset hop)
  simp only [instancesView, hpublished]
  refine List.map_congr_left fun inst hinst => overlaid_congr inst ?_
  rw [hgood.service hinst]
  exact congrFun hshown inst.id

/-- Within one process, and while its health does not change under a view, one version is one list,
so that a client's last version holds nothing back. -/
theorem version_identifies_list (calculator : ScoreCalculator) (baseStateMachine : StateMachineConfig)
    (ops : List ProcessOp) (hops : ∀ op ∈ ops, op.Plain) (service : String) (hplain : PlainName service)
    (hne : service ≠ "") (view view' : InstancesView)
    (hview : (Process.start calculator baseStateMachine).Sees ops service view)
    (hview' : (Process.start calculator baseStateMachine).Sees ops service view') (hapart : view.Apart view') :
    (view.response.version = view'.response.version → view.response.instances = view'.response.instances) ∧
    ((sendInstancesIfChanged view' view.response.version).1 = none →
      view.response.instances = view'.response.instances) := by
  have hgood := Process.good_start calculator baseStateMachine
  have hequal : view.response.version = view'.response.version →
      view.response.instances = view'.response.instances := by
    intro hversion
    obtain ⟨hregistry, hhealth⟩ := hapart hversion
    exact hgood.same_counters hops hplain hne hview hview' hregistry hhealth
  refine ⟨hequal, fun hsilent => hequal ?_⟩
  unfold sendInstancesIfChanged at hsilent
  split at hsilent
  · rename_i hversion
    exact hversion.symm
  · cases hsilent

/-! ## Two processes -/

def registerAt (address : String) : ProcessOp :=
  .register {} { id := "a", service := "svc", address } 30000000000 ⟨"e", "t"⟩

def viewNow (p : Process) : InstancesView :=
  instancesView (p.registry.published "svc") (p.health.healthVersion "svc") p.health.get

def freshProcess : Process := Process.start (newScoreCalculator {} 0) {}

/-- A restart, or another replica, counts from one again, and its first list is held back from a client that has seen
that version. -/
theorem restarted_list_held_back :
    let before := viewNow (freshProcess.run [registerAt "10.0.0.1:80"])
    let after := viewNow (freshProcess.run [registerAt "10.0.0.2:80"])
    before.response.version = after.response.version ∧
    before.response.instances.map ServiceInstance.address = ["10.0.0.1:80"] ∧
    after.response.instances.map ServiceInstance.address = ["10.0.0.2:80"] ∧
    (sendInstancesIfChanged after before.response.version).1 = none := by
  decide +kernel

theorem unchanged_list_kept :
    (viewNow (freshProcess.run [registerAt "10.0.0.1:80"])).response.instances =
      (viewNow (freshProcess.run [registerAt "10.0.0.1:80", .tick 1 1])).response.instances := by
  have hcounters :
      (viewNow (freshProcess.run [registerAt "10.0.0.1:80"])).registryVersion =
        (viewNow (freshProcess.run [registerAt "10.0.0.1:80", .tick 1 1])).registryVersion ∧
      (viewNow (freshProcess.run [registerAt "10.0.0.1:80"])).healthVersion =
        (viewNow (freshProcess.run [registerAt "10.0.0.1:80", .tick 1 1])).healthVersion ∧
      (viewNow (freshProcess.run [registerAt "10.0.0.1:80"])).response.version =
        (viewNow (freshProcess.run [registerAt "10.0.0.1:80", .tick 1 1])).response.version := by
    decide +kernel
  have hplain : ∀ op ∈ [registerAt "10.0.0.1:80", .tick 1 1], op.Plain := by
    simp [registerAt, ProcessOp.Plain]
  exact (version_identifies_list (newScoreCalculator {} 0) {} [registerAt "10.0.0.1:80", .tick 1 1] hplain "svc"
    (by unfold PlainName; decide) (by decide) _ _ ⟨[registerAt "10.0.0.1:80"], [registerAt "10.0.0.1:80"], by simp, by simp, rfl⟩
    ⟨_, _, List.prefix_rfl, List.prefix_rfl, rfl⟩ fun _ => ⟨hcounters.1, hcounters.2.1⟩).1 hcounters.2.2

end AegisMesh.Controller

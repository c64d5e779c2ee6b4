import AegisMesh.Controller.Versions
import AegisMesh.Sdk.Telemetry

/-! # Registration epochs on the way of a sample -/

open Lib

namespace AegisMesh.Sdk

open Registry Fault Controller Telemetry

structure Mesh where
  process : Process
  identities : IdentityCache := ∅
  recorder : Recorder

def Mesh.start (calculator : ScoreCalculator) (baseStateMachine : StateMachineConfig) (source : String) : Mesh where
  process := .start calculator baseStateMachine
  recorder := newRecorder source

def listedAt (p : Process) (read : ℕ) (service : String) : Except RegistryError (List Instance) :=
  (p.registry.list .background service read).2

/-- The controller takes a report. Each service named in it is listed once, which can drop
expired instances. -/
def received (p : Process) (samples : List EndpointStatsSample) (read now wall : ℕ) : Process where
  registry := (samples.map EndpointStatsSample.service).dedup.foldl
    (fun registry service => (registry.list .background service read).1) p.registry
  health := (reportEndpointStats (listedAt p read) p.health now wall (some (samples.map some))).1

/-- `sent` is the SDK's clock, `read` the registry's and `now` the health manager's. A report
that is not delivered is lost with what it carried. -/
inductive MeshEvent
  | control (op : ProcessOp)
  | resolve (instances : List ServiceInstance)
  | finish (call : FinishedCall) (now : ℕ)
  | report (delivered : Bool) (sent read now wall : ℕ)

def MeshEvent.isReport : MeshEvent → Bool
  | .report .. => true
  | _ => false

namespace Mesh

def step (m : Mesh) : MeshEvent → Mesh
  | .control op => { m with process := m.process.step op }
  | .resolve instances => { m with identities := (instancesToAddresses m.identities instances).1 }
  | .finish call now => { m with recorder := m.recorder.observe (telemetryObservation m.identities call) now }
  | .report delivered sent read now wall =>
    let (recorder, req) := reportOnce m.recorder sent
    match req with
    | some samples =>
      { m with recorder, process := if delivered then received m.process samples read now wall else m.process }
    | none => { m with recorder }

def run (m : Mesh) (events : List MeshEvent) : Mesh := events.foldl step m

def carry (m : Mesh) (keys : List StatsKey) : MeshEvent → List StatsKey
  | .finish call _ => keys ++ [(telemetryObservation m.identities call).key]
  | .report .. => []
  | _ => keys

def unreported (m : Mesh) (keys : List StatsKey) : List MeshEvent → List StatsKey
  | [] => keys
  | event :: rest => (m.step event).unreported (m.carry keys event) rest

def takes (m : Mesh) (read : ℕ) (service id : String) (key : StatsKey) : Bool :=
  match listedAt m.process read key.destination with
  | .ok instances =>
    (resolveAmong instances key.endpointID key.upstream).any fun inst =>
      inst.id ≠ "" && scoreKey key.destination inst.id = scoreKey service id
  | .error _ => false

def withHealth (m : Mesh) (health : HealthManager) : Mesh := { m with process := { m.process with health } }

/-! ## What the recorder holds -/

structure Ledger (m : Mesh) (keys : List StatsKey) : Prop where
  settled : m.recorder.Settled
  pending : ∀ key, m.recorder.Pending key ↔ key ∈ keys
  epochless : ∀ key ∈ keys, key.registrationEpoch = "" ∧ key.destination ≠ ""

variable {m : Mesh} {keys : List StatsKey}

theorem ledger_start (calculator : ScoreCalculator) (baseStateMachine : StateMachineConfig) (source : String) :
    (start calculator baseStateMachine source).Ledger [] where
  settled := fun key row h => by simp [start, newRecorder] at h
  pending := fun key => by simp [start, newRecorder, Recorder.Pending]
  epochless := by simp

theorem observation_key (cache : IdentityCache) (call : FinishedCall) :
    (telemetryObservation cache call).key.registrationEpoch = "" ∧
      (telemetryObservation cache call).key.destination ≠ "" := by
  refine ⟨rfl, ?_⟩
  simp only [Observation.key, makeStatsKey, firstNonEmpty]
  split <;> simp_all

theorem step_report_recorder (delivered : Bool) (sent read now wall : ℕ) :
    (m.step (.report delivered sent read now wall)).recorder = (m.recorder.snapshotAndReset sent).1 := by
  simp only [step, reportOnce]
  split <;> rfl

theorem Ledger.step (h : m.Ledger keys) (event : MeshEvent) : (m.step event).Ledger (m.carry keys event) := by
  cases event with
  | control op => exact ⟨h.settled, h.pending, h.epochless⟩
  | resolve instances => exact ⟨h.settled, h.pending, h.epochless⟩
  | finish call now =>
    refine ⟨h.settled.observe _ now, fun key => ?_, fun key hkey => ?_⟩
    · simp only [Mesh.step, carry, Recorder.pending_observe, h.pending, List.mem_append, List.mem_singleton]
      exact Or.comm
    · rcases List.mem_append.mp hkey with hkey | hkey
      · exact h.epochless key hkey
      · rw [List.mem_singleton.mp hkey]
        exact observation_key _ _
  | report delivered sent read now wall =>
    refine ⟨?_, fun key => ?_, by simp [carry]⟩
    · rw [step_report_recorder]
      exact h.settled.reset sent
    · rw [step_report_recorder]
      simp [carry, Recorder.not_pending_reset h.settled]

theorem Ledger.run (h : m.Ledger keys) (events : List MeshEvent) :
    (m.run events).Ledger (m.unreported keys events) := by
  induction events generalizing m keys with
  | nil => exact h
  | cons event rest ih => exact ih (h.step event)

theorem carry_append {event : MeshEvent} (h : event.isReport = false) :
    m.carry keys event = keys ++ m.carry [] event := by
  cases event <;> simp_all [carry, MeshEvent.isReport]

theorem unreported_of_no_report {events : List MeshEvent} (h : ∀ event ∈ events, event.isReport = false) :
    m.unreported keys events = keys ++ m.unreported [] events := by
  induction events generalizing m keys with
  | nil => simp [unreported]
  | cons event rest ih =>
    have hrest := fun event hevent => h event (List.mem_cons_of_mem _ hevent)
    have htail : (m.step event).unreported (m.carry [] event) rest =
        m.carry [] event ++ (m.step event).unreported [] rest := ih hrest
    simp only [unreported]
    rw [ih hrest, carry_append (h event (by simp)), htail, List.append_assoc]

/-! ## What a report does -/

theorem listedAt_ok (p : Process) (read : ℕ) {service : String} (h : service ≠ "") :
    ∃ instances, listedAt p read service = .ok instances := by
  simp only [listedAt, MemoryRegistry.list, MemoryRegistry.snapshot, Ctx.background, if_neg h, Bool.false_eq_true,
    if_false]
  cases p.registry.services.lookup service with
  | none => exact ⟨_, rfl⟩
  | some s => cases hneeds : snapshotNeedsExpiry s.snapshot read <;> simp [hneeds, Except.map]

theorem mem_request {sent : ℕ} {p : Option EndpointStatsSample} :
    p ∈ ((m.recorder.snapshot sent).map statsToProto).map some ↔
      ∃ key row, m.recorder.rows.lookup key = some row ∧ row.due ∧
        p = some (statsToProto (row.stats m.recorder.source key sent)) := by
  simp only [List.mem_map, Recorder.mem_snapshot]
  constructor
  · rintro ⟨_, ⟨_, ⟨key, row, hrow, hdue, rfl⟩, rfl⟩, rfl⟩
    exact ⟨key, row, hrow, hdue, rfl⟩
  · rintro ⟨key, row, hrow, hdue, rfl⟩
    exact ⟨_, ⟨_, ⟨key, row, hrow, hdue, rfl⟩, rfl⟩, rfl⟩

theorem samplesUnder_request (h : m.Ledger keys) {sent read : ℕ} {service id : String} {samples : List EndpointSample}
    (hsamples : samplesFromProto (listedAt m.process read) (((m.recorder.snapshot sent).map statsToProto).map some) =
      .ok samples) :
    samplesUnder (scoreKey service id) samples = [] ↔ ∀ key ∈ keys, m.takes read service id key = false := by
  simp only [samplesUnder, List.filter_eq_nil_iff, mem_samplesFromProto hsamples, mem_request]
  constructor
  · intro hnone key hkey
    by_contra htakes
    obtain ⟨row, hrow, hdue⟩ := (h.pending key).mpr hkey
    obtain ⟨hepoch, hdestination⟩ := h.epochless key hkey
    unfold takes at htakes
    split at htakes
    · rename_i instances hlisted
      simp only [Bool.not_eq_false, Option.any_eq_true, Bool.and_eq_true, decide_eq_true_eq] at htakes
      obtain ⟨inst, hinst, hid, hscore⟩ := htakes
      refine hnone _ ⟨_, ⟨key, row, hrow, hdue, rfl⟩, sampleFromProto_eq_some.mpr
        ⟨hdestination, instances, inst, hlisted, hinst, ?_, rfl⟩⟩ ?_
      · simp [staleEpoch, statsToProto, StatsRow.stats, hepoch]
      · simp only [EndpointSample.under, Bool.and_eq_true, decide_eq_true_eq]
        exact ⟨⟨hdestination, hid⟩, hscore⟩
    · simp at htakes
  · rintro hnone sample ⟨_, ⟨key, row, hrow, hdue, rfl⟩, hsample⟩ hunder
    have htakes := hnone key ((h.pending key).mp ⟨row, hrow, hdue⟩)
    obtain ⟨-, instances, inst, hlisted, hinst, -, rfl⟩ := sampleFromProto_eq_some.mp hsample
    simp only [EndpointSample.under, Bool.and_eq_true, decide_eq_true_eq] at hunder
    simp only [attributed, statsToProto, StatsRow.stats] at hunder hlisted hinst
    simp [takes, hlisted, hinst, hunder] at htakes

theorem step_report_health {sent read now wall : ℕ} {samples : List EndpointSample}
    (hsamples : samplesFromProto (listedAt m.process read) (((m.recorder.snapshot sent).map statsToProto).map some) =
      .ok samples) (health : HealthManager) :
    ((m.withHealth health).step (.report true sent read now wall)).process.health =
      if m.recorder.snapshot sent = [] then health else health.update samples now wall := by
  simp only [step, withHealth, reportOnce, Recorder.snapshotAndReset]
  by_cases hempty : m.recorder.snapshot sent = []
  · simp [hempty]
  · have hlisted : listedAt { m.process with health } read = listedAt m.process read := rfl
    simp only [hempty, if_false, received, reportEndpointStats, hlisted, hsamples, if_true]

theorem report_untouched_iff (h : m.Ledger keys) (sent read now wall : ℕ) (service id : String) :
    (∀ health : HealthManager, ((m.withHealth health).step (.report true sent read now wall)).process.health.get
        service id = health.get service id) ↔
      ∀ key ∈ keys, m.takes read service id key = false := by
  obtain ⟨samples, hsamples⟩ : ∃ samples, samplesFromProto (listedAt m.process read)
      (((m.recorder.snapshot sent).map statsToProto).map some) = .ok samples :=
    samplesFromProto_ok fun p _ hservice => listedAt_ok m.process read hservice
  simp only [step_report_health hsamples, ← samplesUnder_request h hsamples]
  constructor
  · intro huntouched
    by_contra hsome
    -- A manager without records gets one.
    let empty : HealthManager := { calculator := m.process.health.calculator, baseStateMachine := {} }
    have hsent : m.recorder.snapshot sent ≠ [] := by
      rintro hsent
      simp only [hsent, List.map_nil, samplesFromProto, Except.ok.injEq] at hsamples
      exact hsome (by simp [← hsamples, samplesUnder])
    have hisSome := empty.get_update_isSome hsome now wall
    have hempty := huntouched empty
    rw [if_neg hsent] at hempty
    rw [hempty] at hisSome
    simp [empty, HealthManager.get] at hisSome
  · intro hnone health
    split
    · rfl
    · exact health.get_update_unsampled hnone now wall

end Mesh

/-! ## Across a registration -/

/-- The calls that finished before an instance is registered again, and are reported after that, leave its record
alone exactly when the controller takes none of their rows for the instance. `after` is what happens in between.
-/
theorem stale_calls_harmless_iff (calculator : ScoreCalculator) (baseStateMachine : StateMachineConfig)
    (source : String) (before after : List MeshEvent) (moment : Moment) (inst : Instance) (ttl : ℤ) (fence : Fence)
    (hafter : ∀ event ∈ after, event.isReport = false) (sent read now wall : ℕ) :
    let old := (Mesh.start calculator baseStateMachine source).run before
    let registered := old.step (.control (.register moment inst ttl fence))
    let late := registered.run after
    (∀ key ∈ registered.unreported [] after, late.takes read inst.service inst.id key = false) →
      ((∀ health : HealthManager,
          ((late.withHealth health).step (.report true sent read now wall)).process.health.get inst.service inst.id =
            health.get inst.service inst.id) ↔
        ∀ key ∈ (Mesh.start calculator baseStateMachine source).unreported [] before,
          late.takes read inst.service inst.id key = false) := by
  intro old registered late hfresh
  have hold : old.Ledger _ := (Mesh.ledger_start calculator baseStateMachine source).run before
  have hlate := (hold.step (.control (.register moment inst ttl fence))).run after
  rw [Mesh.report_untouched_iff hlate]
  simp only [Mesh.carry]
  rw [Mesh.unreported_of_no_report hafter]
  simp only [List.mem_append, or_imp, forall_and]
  exact and_iff_left hfresh

def svcA : Instance := { id := "a", service := "svc", address := "10.0.0.1:80" }

def registerSvcA (now : ℕ) (epoch : String) : MeshEvent :=
  .control (.register { now } svcA 30000000000 ⟨epoch, "t"⟩)

def failedCall (peer : Option String) : FinishedCall :=
  { destination := "svc", method := "/svc/Get", peer, code := .unavailable, latency := 1000000000 }

def freshMesh : Mesh := Mesh.start (newScoreCalculator {} 100000000) { consecutiveWindows := 1 } "web"

theorem old_call_ejects_new_registration :
    let late := freshMesh.run [registerSvcA 1 "e1",
      .resolve [{ instanceToProto svcA with registrationEpoch := "e1" }],
      .finish (failedCall (some "10.0.0.1:80")) 2, registerSvcA 3 "e2"]
    late.process.health.get "svc" "a" = none ∧
    (late.process.registry.lease "svc" "a").map (fun record => record.inst.registrationEpoch) = some "e2" ∧
    ((late.step (.report true 4 4 4 4)).process.health.get "svc" "a").map
      (fun health => (health.registrationEpoch, health.state)) = some ("e2", .ejected) := by
  decide +kernel

theorem unconnected_call_harmless :
    ((freshMesh.run [registerSvcA 1 "e1", .finish (failedCall none) 2, registerSvcA 3 "e2",
      .report true 4 4 4 4]).process.health.get "svc" "a") = none := by
  have huntouched := (stale_calls_harmless_iff (newScoreCalculator {} 100000000) { consecutiveWindows := 1 } "web"
    [registerSvcA 1 "e1", .finish (failedCall none) 2] [] { now := 3 } svcA 30000000000 ⟨"e2", "t"⟩ (by simp)
    4 4 4 4 (by simp [Mesh.unreported])).mpr (by decide +kernel)
  have hnone : (freshMesh.run [registerSvcA 1 "e1", .finish (failedCall none) 2,
      registerSvcA 3 "e2"]).process.health.get "svc" "a" = none := by
    decide +kernel
  exact (huntouched _).trans hnone

end AegisMesh.Sdk

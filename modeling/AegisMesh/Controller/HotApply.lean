import AegisMesh.Fault.Reconfigure
import AegisMesh.Sdk.DialOptions

/-!
# Policies for the state machines (`pkg/controller/policy_hot_apply.go`)

A loop of the controller turns the policies of its store into overrides of the health manager.
-/

open Lib

namespace AegisMesh.Controller

open Fault Policy HealthManager

def outlierDetectionToStateMachineConfig : Option OutlierDetectionPolicy → StateMachineConfig
  | none => {}
  | some policy =>
    { degradedThreshold := policy.degradedThreshold
      ejectThreshold := policy.ejectThreshold
      consecutiveWindows := policy.consecutiveWindows
      recoveryThreshold := policy.recoveryThreshold
      probeSuccessThreshold := policy.probeSuccessThreshold
      ejectionDuration :=
        if 0 < policy.ejectionDurationSeconds then Sdk.seconds policy.ejectionDurationSeconds else 0 }

def outlierConfigs (listed : List (Option PolicySnapshot)) : Dict String StateMachineConfig :=
  listed.foldl (fun configs snapshot =>
    match snapshot with
    | none => configs
    | some snapshot =>
      if snapshot.service = "" then configs
      else configs.insert snapshot.service (outlierDetectionToStateMachineConfig snapshot.outlierDetection)) ∅

def applyOutlierDetectionPolicies (listed : List (Option PolicySnapshot)) (m : HealthManager) (now : ℕ) :
    HealthManager × ℕ :=
  m.replaceServiceStateMachineConfigs (outlierConfigs listed) now

/-- A tick of `RunPolicyHotApplyLoop`, with what a reload answers and what the store then lists; or another call. -/
inductive HotApplyEvent
  | tick (reloadErr : Option String) (listed : List (Option PolicySnapshot)) (now : ℕ)
  | call (call : HealthManager.Call)

namespace HotApply

def step (m : HealthManager) : HotApplyEvent → HealthManager
  | .tick (some _) _ _ => m
  | .tick none listed now => (applyOutlierDetectionPolicies listed m now).1
  | .call call => m.step call

/-- The calls of the rest of the controller. -/
def Foreign : HotApplyEvent → Prop
  | .call (.setServiceStateMachineConfig ..) => False
  | .call (.replaceServiceStateMachineConfigs ..) => False
  | _ => True

def lastApplied (events : List HotApplyEvent) : Option (List (Option PolicySnapshot)) :=
  events.foldl (fun last e =>
    match e with
    | .tick none listed _ => some listed
    | _ => last) none

/-- The overrides before the first tick, or those of the policies that were applied last. -/
def overrides (initial : Dict String StateMachineConfig) (events : List HotApplyEvent) : Dict String StateMachineConfig :=
  cloneStateMachineConfigs (((lastApplied events).map outlierConfigs).getD initial)

def policyOf (listed : List (Option PolicySnapshot)) (service : String) : Option PolicySnapshot :=
  (listed.filterMap id).reverse.find? fun snapshot => snapshot.service = service

variable {m : HealthManager} {listed : List (Option PolicySnapshot)} {service : String}

theorem lookup_outlierConfigs (h : service ≠ "") : (outlierConfigs listed).lookup service =
    (policyOf listed service).map fun snapshot => outlierDetectionToStateMachineConfig snapshot.outlierDetection := by
  induction listed using List.reverseRecOn with
  | nil => rfl
  | append_singleton listed snapshot ih =>
    rw [outlierConfigs, List.foldl_append, List.foldl_cons, List.foldl_nil, ← outlierConfigs]
    unfold policyOf at ih ⊢
    cases snapshot with
    | none => simpa using ih
    | some snapshot =>
      simp only [List.filterMap_append, List.reverse_append, List.filterMap_cons, id_eq, List.filterMap_nil,
        List.reverse_singleton, List.singleton_append, List.find?_cons]
      by_cases hsame : snapshot.service = service
      · simp [hsame, h]
      · simp only [hsame, decide_false]
        refine Eq.trans ?_ ih
        split
        · rfl
        · exact AList.lookup_insert_ne (Ne.symm hsame)

theorem call_configs {call : HealthManager.Call} (h : Foreign (.call call)) :
    (m.step call).serviceStateMachines = m.serviceStateMachines ∧ (m.step call).baseStateMachine = m.baseStateMachine := by
  have hbump : ∀ (next : HealthManager) changed, (next.bumpIfChanged changed).baseStateMachine = next.baseStateMachine := by
    intro next changed
    unfold bumpIfChanged
    split <;> rfl
  cases call with
  | update samples now wall => exact ⟨bumpIfChanged_configs _ _, hbump _ _⟩
  | tick now wall => exact ⟨bumpIfChanged_configs _ _, hbump _ _⟩
  | mergeSnapshot snapshot now => exact ⟨bumpIfChanged_configs _ _, hbump _ _⟩
  | pruneMissing retain =>
    cases retain with
    | none => exact ⟨rfl, rfl⟩
    | some retain => exact ⟨bumpIfChanged_configs _ _, hbump _ _⟩
  | setServiceStateMachineConfig => exact h.elim
  | replaceServiceStateMachineConfigs => exact h.elim

theorem run_configs (cfg : HealthManagerConfig) {events : List HotApplyEvent} (h : ∀ e ∈ events, Foreign e) :
    (events.foldl step (newHealthManager cfg)).serviceStateMachines = overrides cfg.serviceStateMachines events ∧
      (events.foldl step (newHealthManager cfg)).baseStateMachine = (newHealthManager cfg).baseStateMachine := by
  induction events using List.reverseRecOn with
  | nil => exact ⟨rfl, rfl⟩
  | append_singleton events e ih =>
    obtain ⟨hevents, he⟩ := List.forall_mem_append.mp h
    obtain ⟨hconfigs, hbase⟩ := ih hevents
    rw [List.foldl_append, List.foldl_cons, List.foldl_nil, overrides, lastApplied, List.foldl_append, List.foldl_cons,
      List.foldl_nil]
    cases e with
    | tick reloadErr listed now =>
      cases reloadErr with
      | some err => exact ⟨hconfigs, hbase⟩
      | none =>
        have hreplaced := replaced_configs (events.foldl step (newHealthManager cfg)) (outlierConfigs listed) now
        exact ⟨hreplaced.2, hreplaced.1.trans hbase⟩
    | call call =>
      have hcall := call_configs (m := events.foldl step (newHealthManager cfg)) (he _ (List.mem_singleton_self _))
      exact ⟨hcall.1.trans hconfigs, hcall.2.trans hbase⟩

/-- Whatever else the controller does and whatever policies it has had before: every service has the settings of the
policies that were applied last, filled up from the base. Applying them once more leaves the manager as it is. -/
theorem settings_of_last_policies (cfg : HealthManagerConfig) (events : List HotApplyEvent) (h : ∀ e ∈ events, Foreign e)
    (listed : List (Option PolicySnapshot)) (hlast : lastApplied events = some listed) :
    let m := events.foldl step (newHealthManager cfg)
    (∀ service, service ≠ "" → m.stateMachineConfig service =
      resolveStateMachineConfig (defaultStateMachineConfig cfg.stateMachine)
        (outlierDetectionToStateMachineConfig ((policyOf listed service).bind PolicySnapshot.outlierDetection))) ∧
    ∀ now, applyOutlierDetectionPolicies listed m now = (m, 0) := by
  intro m
  obtain ⟨hconfigs, hbase⟩ := run_configs cfg h
  rw [overrides, hlast, Option.map_some, Option.getD_some] at hconfigs
  refine ⟨fun service hservice => ?_, fun now => ?_⟩
  · rw [HealthManager.stateMachineConfig, hconfigs, hbase, lookup_cloneStateMachineConfigs, if_neg hservice,
      lookup_outlierConfigs hservice]
    cases policyOf listed service <;> rfl
  · have hnone : m.changedConfigs (cloneStateMachineConfigs (outlierConfigs listed)) = [] := by
      refine List.eq_nil_iff_forall_not_mem.mpr fun changed hmem => ?_
      rw [HealthManager.mem_changedConfigs, ← hconfigs] at hmem
      exact hmem rfl
    unfold applyOutlierDetectionPolicies HealthManager.replaceServiceStateMachineConfigs
    dsimp only
    rw [hnone, List.foldl_nil, List.length_nil, ← hconfigs]
    rfl

/-- The file of the second tick cannot be read. -/
def payEvents : List HotApplyEvent :=
  [.tick none [some { service := "pay", outlierDetection := some { ejectThreshold := 4 } }] 5, .call (.tick 6 6),
    .tick (some "yaml: line 3") [] 7]

theorem pay_settings :
    (payEvents.foldl step (newHealthManager { weights := defaultScoreWeights })).stateMachineConfig "pay" =
      { StateMachineConfig.default with ejectThreshold := 4 } := by
  have hforeign : ∀ e ∈ payEvents, Foreign e := by
    simp [payEvents, Foreign]
  rw [(settings_of_last_policies { weights := defaultScoreWeights } payEvents hforeign _ rfl).1 "pay" (by decide)]
  decide +kernel

end HotApply

end AegisMesh.Controller

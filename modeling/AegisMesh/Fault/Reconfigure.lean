import Mathlib.Data.Set.Card
import AegisMesh.Fault.Changes

/-! # New settings for the state machines -/

open Lib

namespace AegisMesh.Fault

namespace HealthManager

variable {m m' : HealthManager}

def Reconfigured (m m' : HealthManager) (service : String) : Prop :=
  service ≠ "" ∧ m.stateMachineConfig service ≠ m'.stateMachineConfig service

/-! ## Overrides and revisions of a manager in use -/

structure Tracked (m : HealthManager) : Prop where
  named : m.serviceStateMachines.lookup "" = none
  bounded : ∀ service, (m.serviceRevisions.lookup service).getD 0 ≤ m.revision

theorem lookup_cloneStateMachineConfigs (configs : Dict String StateMachineConfig) (service : String) :
    (cloneStateMachineConfigs configs).lookup service = if service = "" then none else configs.lookup service := by
  unfold cloneStateMachineConfigs
  rw [Dict.lookup_filter]
  split
  · rename_i hservice
    simp [hservice]
  · rename_i hservice
    cases configs.lookup service <;> simp [hservice]

theorem bumpIfChanged_configs (m : HealthManager) (changed : List String) :
    (m.bumpIfChanged changed).serviceStateMachines = m.serviceStateMachines := by
  unfold bumpIfChanged
  split <;> rfl

theorem Tracked.bump (h : m.Tracked) (changed : List String) : (m.bumpIfChanged changed).Tracked := by
  constructor
  · rw [bumpIfChanged_configs]
    exact h.named
  · intro service
    have hbound := h.bounded service
    have hrevision := m.revision_le_bumpIfChanged changed
    rw [bumpIfChanged_revisions]
    split
    · rename_i hmem
      rw [hrevision.2 (List.ne_nil_of_mem hmem)]
    · omega

theorem Tracked.records (h : m.Tracked) (health : Dict String EndpointHealth) :
    ({ m with health } : HealthManager).Tracked :=
  ⟨h.named, h.bounded⟩

theorem tracked_new (cfg : HealthManagerConfig) : (newHealthManager cfg).Tracked := by
  constructor
  · simp [newHealthManager, lookup_cloneStateMachineConfigs]
  · intro service
    simp [newHealthManager]

theorem Tracked.resets (h : m.Tracked) (services : List String) (now : ℕ) :
    (services.foldl (fun m service => m.resetStateMachineCounters service now) m).Tracked :=
  run_invariant (I := Tracked) (fun _ _ hm => hm.records _) h services

theorem Tracked.step (h : m.Tracked) (call : Call) : (m.step call).Tracked := by
  cases call with
  | update samples now wall => exact (h.records _).bump _
  | tick now wall => exact (h.records _).bump _
  | mergeSnapshot snapshot now => exact (h.records _).bump _
  | pruneMissing retain =>
    cases retain with
    | none => exact h
    | some retain => exact (h.records _).bump _
  | setServiceStateMachineConfig service cfg now =>
    simp only [HealthManager.step, HealthManager.setServiceStateMachineConfig]
    split
    · exact h
    · rename_i hservice
      have hset : ({ m with serviceStateMachines := m.serviceStateMachines.insert service cfg } : HealthManager).Tracked := by
        refine ⟨?_, h.bounded⟩
        rw [Dict.lookup_insert', if_neg (Ne.symm hservice)]
        exact h.named
      split
      · exact hset
      · exact (hset.resets [service] now).bump [service]
  | replaceServiceStateMachineConfigs configs now =>
    have hset : ({ m with serviceStateMachines := cloneStateMachineConfigs configs } : HealthManager).Tracked :=
      ⟨by simp [lookup_cloneStateMachineConfigs], h.bounded⟩
    exact (hset.resets _ now).bump _

/-! ## The services that change -/

theorem mem_changedConfigs (m : HealthManager) (configs : Dict String StateMachineConfig) (service : String) :
    service ∈ m.changedConfigs configs ↔
      m.stateMachineConfig service ≠ ({ m with serviceStateMachines := configs } : HealthManager).stateMachineConfig service := by
  simp only [changedConfigs, stateMachineConfig, List.mem_append, List.mem_filter, decide_eq_true_eq, Bool.and_eq_true,
    Option.isNone_iff_eq_none, ← AList.mem_keys]
  cases hold : m.serviceStateMachines.lookup service with
  | some cfg => simp [← AList.lookup_isSome, hold]
  | none =>
    have hnot : service ∉ m.serviceStateMachines := AList.lookup_eq_none.mp hold
    cases hnew : configs.lookup service with
    | some cfg => simp [hnot, ← AList.lookup_isSome, hnew]
    | none => simp [hnot]

theorem nodup_changedConfigs (m : HealthManager) (configs : Dict String StateMachineConfig) :
    (m.changedConfigs configs).Nodup := by
  unfold changedConfigs
  refine List.Nodup.append (m.serviceStateMachines.keys_nodup.filter _) (configs.keys_nodup.filter _) ?_
  intro service hold hnew
  -- The second loop skips what the first one has seen.
  have hkey : service ∈ m.serviceStateMachines := AList.mem_keys.mpr (List.mem_filter.mp hold).1
  have hnone := (List.mem_filter.mp hnew).2
  simp only [Bool.and_eq_true, Option.isNone_iff_eq_none] at hnone
  exact AList.lookup_eq_none.mp hnone.1 hkey

/-! ## The records -/

def uncounted (health : EndpointHealth) : EndpointHealth :=
  { health with consecutiveSlowWindows := 0, consecutiveEjectWindows := 0, updatedAt := 0 }

def recounted (now : ℕ) (health : EndpointHealth) : EndpointHealth := resetCounters now health.service health

theorem recounted_keeps (now : ℕ) (health : EndpointHealth) :
    uncounted (recounted now health) = uncounted health ∧ (recounted now health).consecutiveSlowWindows = 0 ∧
      (recounted now health).consecutiveEjectWindows = 0 := by
  unfold recounted resetCounters
  rw [if_neg (by simp)]
  split
  · exact ⟨rfl, by tauto⟩
  · exact ⟨rfl, rfl, rfl⟩

theorem resetCounters_recounted (now : ℕ) (service : String) (health : EndpointHealth) :
    resetCounters now service (recounted now health) = recounted now health := by
  obtain ⟨-, hslow, heject⟩ := recounted_keeps now health
  generalize recounted now health = record at hslow heject ⊢
  simp [resetCounters, hslow, heject]

theorem lookup_resets (services : List String) (now : ℕ) (m : HealthManager) (key : String) :
    (services.foldl (fun m service => m.resetStateMachineCounters service now) m).health.lookup key =
      (m.health.lookup key).map fun health => if health.service ∈ services then recounted now health else health := by
  induction services generalizing m with
  | nil => simp
  | cons first rest ih =>
    rw [List.foldl_cons, ih, resetStateMachineCounters, Dict.lookup_mapVal, Option.map_map]
    refine congrArg (fun f => (m.health.lookup key).map f) (funext fun health => ?_)
    have hservice : (resetCounters now first health).service = health.service := by
      have := (resetCounters_keeps now first health).1
      exact (owner_names this).1
    simp only [Function.comp_apply, hservice, List.mem_cons]
    by_cases hfirst : health.service = first
    · subst hfirst
      have hagain := resetCounters_recounted now health.service health
      unfold recounted at hagain ⊢
      simp [hservice, hagain]
    · have hskip : resetCounters now first health = health := if_pos hfirst
      rw [hskip]
      simp [hfirst]

/-! ## The call as a whole -/

structure ReplacedMinimally (m m' : HealthManager) (count : ℕ) : Prop where
  count : {service | Reconfigured m m' service}.encard = count
  kept : ∀ key, (m'.health.lookup key).map uncounted = (m.health.lookup key).map uncounted
  zeroed : ∀ key health, m'.health.lookup key = some health → Reconfigured m m' health.service →
    health.consecutiveSlowWindows = 0 ∧ health.consecutiveEjectWindows = 0
  others : ∀ key health, m.health.lookup key = some health → ¬Reconfigured m m' health.service →
    m'.health.lookup key = some health
  raised : ∀ service, Reconfigured m m' service → m.healthVersion service < m'.healthVersion service
  version : ∀ service, service ≠ "" → ¬Reconfigured m m' service → m'.healthVersion service = m.healthVersion service

section

variable (m) (configs : Dict String StateMachineConfig) (now : ℕ)

theorem resets_frame (services : List String) :
    let after := services.foldl (fun m service => m.resetStateMachineCounters service now) m
    after.baseStateMachine = m.baseStateMachine ∧ after.serviceStateMachines = m.serviceStateMachines := by
  induction services generalizing m with
  | nil => exact ⟨rfl, rfl⟩
  | cons first rest ih => exact ih _

theorem replaced_configs :
    (m.replaceServiceStateMachineConfigs configs now).1.baseStateMachine = m.baseStateMachine ∧
    (m.replaceServiceStateMachineConfigs configs now).1.serviceStateMachines = cloneStateMachineConfigs configs := by
  have hbase : ∀ (next : HealthManager) changed, (next.bumpIfChanged changed).baseStateMachine = next.baseStateMachine := by
    intro next changed
    unfold bumpIfChanged
    split <;> rfl
  unfold replaceServiceStateMachineConfigs
  dsimp only
  rw [hbase, bumpIfChanged_configs]
  exact resets_frame _ now _

theorem stateMachineConfig_replaced (service : String) :
    (m.replaceServiceStateMachineConfigs configs now).1.stateMachineConfig service =
      resolveStateMachineConfig m.baseStateMachine (((cloneStateMachineConfigs configs).lookup service).getD {}) := by
  unfold stateMachineConfig
  rw [(replaced_configs m configs now).1, (replaced_configs m configs now).2]

theorem lookup_replaced (key : String) :
    (m.replaceServiceStateMachineConfigs configs now).1.health.lookup key =
      (m.health.lookup key).map fun health =>
        if health.service ∈ m.changedConfigs (cloneStateMachineConfigs configs) then recounted now health else health := by
  unfold replaceServiceStateMachineConfigs
  dsimp only
  rw [bumpIfChanged_health, lookup_resets]

theorem healthVersion_replaced {service : String} (hservice : service ≠ "") :
    (m.replaceServiceStateMachineConfigs configs now).1.healthVersion service =
      if service ∈ m.changedConfigs (cloneStateMachineConfigs configs) then m.revision + 1 else m.healthVersion service := by
  unfold replaceServiceStateMachineConfigs
  dsimp only
  have hsame := recounts_resets ({ m with serviceStateMachines := cloneStateMachineConfigs configs } : HealthManager)
    (m.changedConfigs (cloneStateMachineConfigs configs)) now
  rw [healthVersion_bumpIfChanged, if_neg hservice, hsame.revision]
  unfold healthVersion
  rw [if_neg hservice, if_neg hservice, hsame.serviceRevisions]

end

theorem Tracked.mem_changedConfigs (h : m.Tracked) (configs : Dict String StateMachineConfig) (now : ℕ) (service : String) :
    service ∈ m.changedConfigs (cloneStateMachineConfigs configs) ↔
      Reconfigured m (m.replaceServiceStateMachineConfigs configs now).1 service := by
  rw [HealthManager.mem_changedConfigs, Reconfigured, stateMachineConfig_replaced]
  refine ⟨fun hdiffers => ⟨?_, hdiffers⟩, fun hdiffers => hdiffers.2⟩
  rintro rfl
  refine hdiffers ?_
  unfold stateMachineConfig
  rw [h.named, lookup_cloneStateMachineConfigs, if_pos rfl]

theorem Tracked.replacedMinimally (h : m.Tracked) (configs : Dict String StateMachineConfig) (now : ℕ) :
    ReplacedMinimally m (m.replaceServiceStateMachineConfigs configs now).1
      (m.replaceServiceStateMachineConfigs configs now).2 := by
  have hchanged := h.mem_changedConfigs configs now
  constructor
  case count =>
    have hset : {service | Reconfigured m (m.replaceServiceStateMachineConfigs configs now).1 service} =
        ((m.changedConfigs (cloneStateMachineConfigs configs)).toFinset : Set String) := by
      ext service
      simp [hchanged service]
    rw [hset, Set.encard_coe_eq_coe_finsetCard, List.toFinset_card_of_nodup (nodup_changedConfigs _ _)]
    rfl
  case kept =>
    intro key
    rw [lookup_replaced, Option.map_map]
    refine congrArg (fun f => (m.health.lookup key).map f) (funext fun health => ?_)
    rw [Function.comp_apply]
    split
    · exact (recounted_keeps now health).1
    · rfl
  case zeroed =>
    intro key health hl hservice
    rw [lookup_replaced, Option.map_eq_some_iff] at hl
    obtain ⟨before, -, hafter⟩ := hl
    split at hafter
    · rw [← hafter]
      exact (recounted_keeps now before).2
    · rename_i hnot
      rw [← hafter, ← hchanged] at hservice
      exact absurd hservice hnot
  case others =>
    intro key health hl hservice
    rw [lookup_replaced, hl, Option.map_some, if_neg (mt (hchanged health.service).mp hservice)]
  case raised =>
    intro service hservice
    have hbound := h.bounded service
    rw [healthVersion_replaced m configs now hservice.1, if_pos ((hchanged service).mpr hservice), healthVersion,
      if_neg hservice.1]
    omega
  case version =>
    intro service hne hservice
    rw [healthVersion_replaced m configs now hne, if_neg (mt (hchanged service).mp hservice)]

theorem replace_again (m : HealthManager) (configs : Dict String StateMachineConfig) (now later : ℕ) :
    (m.replaceServiceStateMachineConfigs configs now).1.replaceServiceStateMachineConfigs configs later =
      ((m.replaceServiceStateMachineConfigs configs now).1, 0) := by
  have hconfigs := (replaced_configs m configs now).2
  generalize (m.replaceServiceStateMachineConfigs configs now).1 = after at hconfigs ⊢
  have hnone : after.changedConfigs (cloneStateMachineConfigs configs) = [] := by
    refine List.eq_nil_iff_forall_not_mem.mpr fun service hmem => ?_
    rw [HealthManager.mem_changedConfigs, ← hconfigs] at hmem
    exact hmem rfl
  unfold replaceServiceStateMachineConfigs
  dsimp only
  rw [hnone, List.foldl_nil, List.length_nil, ← hconfigs]
  rfl

/-- Whatever a manager has been through, new overrides reset and announce the services whose settings differ with
them, and no other. The same overrides once more do nothing. -/
theorem replace_touches_differing_services (cfg : HealthManagerConfig) (calls : List Call)
    (configs : Dict String StateMachineConfig) (now later : ℕ) :
    let m := calls.foldl step (newHealthManager cfg)
    let out := m.replaceServiceStateMachineConfigs configs now
    (∀ service, service ≠ "" → out.1.stateMachineConfig service =
      resolveStateMachineConfig m.baseStateMachine ((configs.lookup service).getD {})) ∧
    ReplacedMinimally m out.1 out.2 ∧
    out.1.replaceServiceStateMachineConfigs configs later = (out.1, 0) := by
  intro m out
  have htracked : m.Tracked := run_invariant (I := Tracked) (fun _ call hm => hm.step call) (tracked_new cfg) calls
  refine ⟨fun service hservice => ?_, htracked.replacedMinimally configs now, replace_again m configs now later⟩
  rw [stateMachineConfig_replaced, lookup_cloneStateMachineConfigs, if_neg hservice]

end HealthManager

end AegisMesh.Fault

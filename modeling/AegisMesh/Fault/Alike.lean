import AegisMesh.Fault.Revisions

/-! # One service of two health managers -/

open Lib

namespace AegisMesh.Fault

namespace HealthManager

/-! ## Records under their own names -/

def Keyed (m : HealthManager) : Prop :=
  ∀ key health, m.health.lookup key = some health → scoreKey health.service health.instanceID = key

variable {m m' : HealthManager} {service : String} {sample : EndpointSample} {key : String}

theorem keyed_bump {changed : List String} (h : m.Keyed) : (m.bumpIfChanged changed).Keyed := by
  unfold Keyed
  rw [bumpIfChanged_health]
  exact h

theorem Keyed.mapVal (h : m.Keyed) {f : String → EndpointHealth → EndpointHealth}
    (hf : ∀ key health, (f key health).owner = health.owner) :
    ({ m with health := Dict.mapVal f m.health } : HealthManager).Keyed := by
  intro key health hl
  dsimp only at hl
  rw [Dict.lookup_mapVal, Option.map_eq_some_iff] at hl
  obtain ⟨before, hbefore, rfl⟩ := hl
  obtain ⟨hservice, hid⟩ := owner_names (hf key before)
  rw [hservice, hid]
  exact h key before hbefore

theorem turn_key {score : ℚ} {now wall : ℕ} {record : Option EndpointHealth}
    (hrecord : ∀ health, record = some health → scoreKey health.service health.instanceID = key)
    (hsample : scoreKey sample.service sample.instanceID = key) :
    scoreKey (m.turn score now wall record sample).service (m.turn score now wall record sample).instanceID = key := by
  obtain ⟨hservice, hid⟩ := owner_names (m.turn_owner score now wall record sample)
  rw [hservice, hid]
  simp only [ownedBy]
  split_ifs with hreset
  · exact hsample
  · cases record with
    | none => exact absurd (.inl rfl) hreset
    | some health => exact hrecord health rfl

theorem under_key (h : sample.under key = true) :
    scoreKey sample.service sample.instanceID = key := by
  simp only [EndpointSample.under, Bool.and_eq_true, decide_eq_true_eq] at h
  exact h.2

theorem Keyed.update (h : m.Keyed) (samples : List EndpointSample) (now wall : ℕ) :
    (m.update samples now wall).Keyed := by
  intro key health hl
  rw [lookup_update] at hl
  refine run_invariant_of
    (I := fun record : Option EndpointHealth => ∀ health, record = some health →
      scoreKey health.service health.instanceID = key)
    (fun record sample hrecord (hsample : sample.under key) after hafter => ?_)
    (h key) (fun sample hsample => (List.mem_filter.mp hsample).2) health hl
  rw [← Option.some.inj hafter]
  exact turn_key hrecord (under_key hsample)

theorem Keyed.tick (h : m.Keyed) (now wall : ℕ) : (m.tick now wall).Keyed :=
  keyed_bump (h.mapVal fun _ health => m.ticked_owner now wall health)

theorem Keyed.insert (h : m.Keyed) {record : EndpointHealth} (hkey : scoreKey record.service record.instanceID = key) :
    ({ m with health := m.health.insert key record } : HealthManager).Keyed := by
  exact Dict.forall_lookup_insert.mpr ⟨hkey, fun k found _ hfound => h k found hfound⟩

theorem keyed_mergeOne {st : Dict String EndpointHealth × List String}
    (h : ({ m with health := st.1 } : HealthManager).Keyed) (now : ℕ) (health : EndpointHealth) :
    ({ m with health := (mergeOne now st health).1 } : HealthManager).Keyed := by
  unfold mergeOne
  split
  · exact h
  dsimp only
  split
  · exact h.insert rfl
  · rename_i current hcurrent
    split
    · exact h
    split
    · dsimp only
      split
      · exact h.insert (h _ current hcurrent)
      · exact h
    · exact h.insert rfl

theorem Keyed.mergeSnapshot (h : m.Keyed) (snapshot : List EndpointHealth) (now : ℕ) :
    (m.mergeSnapshot snapshot now).Keyed :=
  keyed_bump (run_invariant
    (I := fun st : Dict String EndpointHealth × List String => ({ m with health := st.1 } : HealthManager).Keyed)
    (fun _ health hst => keyed_mergeOne hst now health) h snapshot)

theorem Keyed.pruneMissing (h : m.Keyed) (retain : Option (Dict EndpointIdentity String)) :
    (m.pruneMissing retain).Keyed := by
  cases retain with
  | none => exact h
  | some retain =>
    refine keyed_bump fun key health hl => ?_
    dsimp only at hl
    rw [Dict.lookup_filter, Option.filter_eq_some_iff] at hl
    exact h key health hl.1

theorem Keyed.reset (h : m.Keyed) (service : String) (now : ℕ) : (m.resetStateMachineCounters service now).Keyed :=
  h.mapVal fun _ health => (resetCounters_keeps now service health).1

theorem Keyed.setServiceStateMachineConfig (h : m.Keyed) (service : String) (cfg : StateMachineConfig) (now : ℕ) :
    (m.setServiceStateMachineConfig service cfg now).1.Keyed := by
  have hconfigured :
      ({ m with serviceStateMachines := m.serviceStateMachines.insert service cfg } : HealthManager).Keyed := h
  unfold HealthManager.setServiceStateMachineConfig
  split
  · exact h
  dsimp only
  split
  · exact hconfigured
  · exact keyed_bump (hconfigured.reset service now)

theorem Keyed.replaceServiceStateMachineConfigs (h : m.Keyed) (configs : Dict String StateMachineConfig) (now : ℕ) :
    (m.replaceServiceStateMachineConfigs configs now).1.Keyed := by
  have hconfigured : ({ m with serviceStateMachines := cloneStateMachineConfigs configs } : HealthManager).Keyed := h
  exact keyed_bump (run_invariant (I := Keyed) (fun _ service hm => Keyed.reset hm service now) hconfigured _)

/-! ## Listings -/

theorem mem_list {health : EndpointHealth} :
    health ∈ m.list service ↔ (∃ key, m.health.lookup key = some health) ∧ (service = "" ∨ health.service = service) := by
  simp [list, mem_sortBy, Dict.mem_values]

theorem Keyed.list_strict (h : m.Keyed) (service : String) :
    (m.list service).Pairwise fun a b => toLex (a.service, a.instanceID) < toLex (b.service, b.instanceID) := by
  refine sortBy_strict _ ?_
  have hentries : m.health.entries.Pairwise fun e e' => e.1 ≠ e'.1 := List.pairwise_map.mp m.health.nodupKeys
  rw [List.Nodup, List.pairwise_map]
  refine List.Pairwise.filter _ (List.pairwise_map.mpr (hentries.imp_of_mem fun {e e'} he he' hne hnames => hne ?_))
  have hpair : (e.2.service, e.2.instanceID) = (e'.2.service, e'.2.instanceID) := toLex.injective hnames
  simp only [Prod.mk.injEq] at hpair
  rw [← h e.1 e.2 (AList.mem_lookup_iff.mpr he), ← h e'.1 e'.2 (AList.mem_lookup_iff.mpr he'), hpair.1, hpair.2]

/-! ## Managers that are alike in a service -/

/-- The same answers about the service, and the same settings for the records found under its keys.
A record there can name another service, since two services can share a key. -/
structure Alike (service : String) (m m' : HealthManager) : Prop where
  get : ∀ id, m.get service id = m'.get service id
  version : m.healthVersion service = m'.healthVersion service
  machine : m.stateMachineFor service = m'.stateMachineFor service
  machines : ∀ id health, m.get service id = some health →
    m.stateMachineFor health.service = m'.stateMachineFor health.service

theorem Alike.list (h : Alike service m m') (hm : m.Keyed) (hm' : m'.Keyed) (hservice : service ≠ "") :
    m.list service = m'.list service := by
  refine strict_ext _ (hm.list_strict service) (hm'.list_strict service) fun health => ?_
  simp only [mem_list, hservice, false_or]
  refine and_congr_left fun hown => ?_
  subst hown
  constructor
  · rintro ⟨key, hl⟩
    rw [← hm key health hl] at hl
    exact ⟨_, (h.get health.instanceID).symm.trans hl⟩
  · rintro ⟨key, hl⟩
    rw [← hm' key health hl] at hl
    exact ⟨_, (h.get health.instanceID).trans hl⟩

theorem turn_congr (score : ℚ) (now wall : ℕ) {record : Option EndpointHealth}
    (h : m.stateMachineFor (ownedBy (record.getD {}) sample).service =
      m'.stateMachineFor (ownedBy (record.getD {}) sample).service) :
    m.turn score now wall record sample = m'.turn score now wall record sample := by
  have hwindow : m.window score now wall (record.getD {}) sample = m'.window score now wall (record.getD {}) sample := by
    simp only [window, h]
  simp only [turn, hwindow]

theorem ownedBy_service (record : Option EndpointHealth) (sample : EndpointSample) :
    (ownedBy (record.getD {}) sample).service = sample.service ∨
      ∃ health, record = some health ∧ (ownedBy (record.getD {}) sample).service = health.service := by
  simp only [ownedBy]
  split_ifs with hreset
  · exact .inl rfl
  · cases record with
    | none => exact absurd (.inl rfl) hreset
    | some health => exact .inr ⟨health, rfl, rfl⟩

theorem Alike.get_update (h : Alike service m m') (hcalculator : m.calculator = m'.calculator)
    {samples : List EndpointSample} (hsamples : ∀ sample ∈ samples, sample.service = service) (now wall : ℕ)
    (id : String) :
    (m.update samples now wall).get service id = (m'.update samples now wall).get service id := by
  have hrecord := h.machines id
  have hown : ∀ sample ∈ samplesUnder (scoreKey service id) samples, sample.service = service :=
    fun sample hsample => hsamples sample (List.mem_of_mem_filter hsample)
  rw [HealthManager.get_update, HealthManager.get_update, ← hcalculator, ← h.get id]
  generalize m.calculator.scoreOf samples (scoreKey service id) = score
  generalize m.get service id = record at hrecord ⊢
  generalize samplesUnder (scoreKey service id) samples = own at hown ⊢
  induction own generalizing record with
  | nil => rfl
  | cons sample rest ih =>
    have hmachine : m.stateMachineFor (ownedBy (record.getD {}) sample).service =
        m'.stateMachineFor (ownedBy (record.getD {}) sample).service := by
      rcases ownedBy_service record sample with hservice | ⟨health, hhealth, hservice⟩
      · rw [hservice, hown sample List.mem_cons_self, h.machine]
      · rw [hservice, hrecord health hhealth]
    rw [List.foldl_cons, List.foldl_cons, ← turn_congr score now wall hmachine]
    refine ih _ (fun health hhealth => ?_) fun other hother => hown other (List.mem_cons_of_mem _ hother)
    rw [← Option.some.inj hhealth, (owner_names (m.turn_owner score now wall record sample)).1, hmachine]

theorem lookup_update_frame {samples : List EndpointSample} (hsamples : ∀ sample ∈ samples, sample.service = service)
    (hkey : ∀ id, key ≠ scoreKey service id) (m : HealthManager) (now wall : ℕ) :
    (m.update samples now wall).health.lookup key = m.health.lookup key := by
  have hnone : samplesUnder key samples = [] := by
    refine List.filter_eq_nil_iff.mpr fun sample hsample hunder => hkey sample.instanceID ?_
    rw [← hsamples sample hsample, under_key hunder]
  rw [lookup_update, hnone, List.foldl_nil]

end HealthManager

end AegisMesh.Fault

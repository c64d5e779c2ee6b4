import AegisMesh.Fault.Alike

/-! # Versions of the health lists -/

open Lib

namespace AegisMesh.Fault

namespace HealthManager

variable {m m' : HealthManager}

inductive Call
  | update (samples : List EndpointSample) (now wall : ℕ)
  | tick (now wall : ℕ)
  | mergeSnapshot (snapshot : List EndpointHealth) (now : ℕ)
  | pruneMissing (retain : Option (Dict EndpointIdentity String))
  | setServiceStateMachineConfig (service : String) (cfg : StateMachineConfig) (now : ℕ)
  | replaceServiceStateMachineConfigs (configs : Dict String StateMachineConfig) (now : ℕ)

def Call.Plain : Call → Prop
  | .update samples _ _ => ∀ sample ∈ samples, PlainName sample.service
  | .mergeSnapshot snapshot _ => ∀ health ∈ snapshot, PlainName health.service
  | _ => True

def step (m : HealthManager) : Call → HealthManager
  | .update samples now wall => m.update samples now wall
  | .tick now wall => m.tick now wall
  | .mergeSnapshot snapshot now => m.mergeSnapshot snapshot now
  | .pruneMissing retain => m.pruneMissing retain
  | .setServiceStateMachineConfig service cfg now => (m.setServiceStateMachineConfig service cfg now).1
  | .replaceServiceStateMachineConfigs configs now => (m.replaceServiceStateMachineConfigs configs now).1

theorem bumped_step (h : m.Filed) {call : Call} (hcall : call.Plain) : Bumped m (m.step call) := by
  cases call with
  | update samples now wall => exact bumped_update h hcall now wall
  | tick now wall => exact bumped_tick h now wall
  | mergeSnapshot snapshot now => exact bumped_mergeSnapshot h hcall now
  | pruneMissing retain => exact bumped_pruneMissing h retain
  | setServiceStateMachineConfig service cfg now => exact bumped_setServiceStateMachineConfig h service cfg now
  | replaceServiceStateMachineConfigs configs now => exact bumped_replaceServiceStateMachineConfigs h configs now

theorem filed_run (h : m.Filed) {calls : List Call} (hcalls : ∀ call ∈ calls, call.Plain) : (calls.foldl step m).Filed :=
  run_invariant_of (I := Filed) (fun _ _ hm hcall => ((bumped_step hm hcall).advances hm).filed) h hcalls

/-! ## Listings without their times -/

def listing (m : HealthManager) (service : String) : List EndpointHealth := (m.list service).map EndpointHealth.untimed

theorem mem_listing (h : RecordsFiled m.health) {service : String} {record : EndpointHealth} :
    record ∈ m.listing service ↔ ∃ owner id, PlainName owner ∧ (service = "" ∨ owner = service) ∧
      (m.health.lookup (scoreKey owner id)).map EndpointHealth.untimed = some record := by
  simp only [listing, List.mem_map, mem_list]
  constructor
  · rintro ⟨health, ⟨⟨key, hl⟩, hservice⟩, rfl⟩
    obtain ⟨rfl, hplain⟩ := h key health hl
    exact ⟨health.service, health.instanceID, hplain, hservice, by rw [hl]; rfl⟩
  · rintro ⟨owner, id, hplain, hservice, hrecord⟩
    obtain ⟨health, hl, rfl⟩ := Option.map_eq_some_iff.mp hrecord
    obtain ⟨hkey, hplain'⟩ := h _ health hl
    have howner : health.service = owner := ((scoreKey_inj hplain hplain').mp hkey).1.symm
    exact ⟨health, ⟨⟨_, hl⟩, by rw [howner]; exact hservice⟩, rfl⟩

theorem listing_strict (h : RecordsFiled m.health) (service : String) :
    (m.listing service).Pairwise fun a b => toLex (a.service, a.instanceID) < toLex (b.service, b.instanceID) := by
  have hkeyed : m.Keyed := fun key health hl => (h key health hl).1.symm
  exact List.pairwise_map.mpr (hkeyed.list_strict service)

theorem listing_unchanged (h : RecordsFiled m.health) (h' : RecordsFiled m'.health) {changed : List String}
    (hsame : UnchangedOutside changed m.health m'.health) {service : String}
    (hnot : ∀ owner, service = "" ∨ owner = service → owner ∉ changed) : m'.listing service = m.listing service := by
  refine strict_ext (fun record : EndpointHealth => toLex (record.service, record.instanceID))
    (listing_strict h' service) (listing_strict h service) fun record => ?_
  rw [mem_listing h', mem_listing h]
  refine exists_congr fun owner => exists_congr fun id => and_congr_right fun hplain => and_congr_right fun howner => ?_
  rw [hsame owner id hplain (hnot owner howner)]

/-! ## Versions -/

theorem healthVersion_bumpIfChanged (next : HealthManager) (changed : List String) (service : String) :
    (next.bumpIfChanged changed).healthVersion service =
      if service = "" then if changed = [] then next.revision else next.revision + 1
      else if service ∈ changed then next.revision + 1 else next.healthVersion service := by
  unfold healthVersion
  split_ifs with hall hnil
  · rw [hnil]
    rfl
  · exact (next.revision_le_bumpIfChanged changed).2 hnil
  · rw [bumpIfChanged_revisions, if_pos ‹_›]
  · rw [bumpIfChanged_revisions, if_neg ‹_›]

theorem Filed.healthVersion_le (h : m.Filed) (service : String) : m.healthVersion service ≤ m.revision := by
  unfold healthVersion
  split
  · exact le_rfl
  · exact h.bounded service

def VersionTells (m m' : HealthManager) (service : String) : Prop :=
  m.healthVersion service ≤ m'.healthVersion service ∧
    (m'.listing service ≠ m.listing service → m.healthVersion service < m'.healthVersion service)

theorem Bumped.versionTells (hb : Bumped m m') (h : m.Filed) (service : String) : VersionTells m m' service := by
  obtain ⟨changed, next, rfl, ⟨hrevision, hrevisions⟩, hfiled, hsame⟩ := hb
  have hbound := h.healthVersion_le service
  have hold : next.healthVersion service = m.healthVersion service := by
    rw [healthVersion, healthVersion, hrevision, hrevisions]
  have hlisting : (next.bumpIfChanged changed).listing service = next.listing service := by
    rw [listing, listing, list, list, bumpIfChanged_health]
  -- Either the version is the new revision, or nothing that the listing shows has changed.
  by_cases hhit : ∃ owner, (service = "" ∨ owner = service) ∧ owner ∈ changed
  · have hnew : (next.bumpIfChanged changed).healthVersion service = m.revision + 1 := by
      obtain ⟨owner, howner, hmem⟩ := hhit
      rw [healthVersion_bumpIfChanged, hrevision, if_neg (List.ne_nil_of_mem hmem)]
      split
      · rfl
      · rename_i hservice
        rw [← howner.resolve_left hservice, if_pos hmem]
    rw [VersionTells, hnew]
    exact ⟨by omega, fun _ => by omega⟩
  · have hnot : ∀ owner, service = "" ∨ owner = service → owner ∉ changed :=
      fun owner howner hmem => hhit ⟨owner, howner, hmem⟩
    have hsameVersion : (next.bumpIfChanged changed).healthVersion service = m.healthVersion service := by
      rw [healthVersion_bumpIfChanged]
      split
      · rename_i hservice
        have hnil : changed = [] := List.eq_nil_iff_forall_not_mem.mpr fun owner => hnot owner (.inl hservice)
        rw [if_pos hnil, hrevision, healthVersion, if_pos hservice]
      · rw [if_neg (hnot service (.inr rfl)), hold]
    rw [VersionTells, hsameVersion, hlisting, listing_unchanged h.records hfiled hsame hnot]
    exact ⟨le_rfl, fun hne => absurd rfl hne⟩

/-- From a new manager on, no call lowers the version of a service, and every call that changes a listing
in more than its times raises the version of the service. -/
theorem versions_hide_no_change (calculator : ScoreCalculator) (baseStateMachine : StateMachineConfig)
    (serviceStateMachines : Dict String StateMachineConfig) (calls : List Call) (hcalls : ∀ call ∈ calls, call.Plain)
    (call : Call) (hcall : call.Plain) (service : String) :
    let m := calls.foldl step { calculator, baseStateMachine, serviceStateMachines }
    VersionTells m (m.step call) service := by
  have hnew : ({ calculator, baseStateMachine, serviceStateMachines } : HealthManager).Filed :=
    ⟨fun key health hl => by simp at hl, fun service => by simp⟩
  exact (bumped_step (filed_run hnew hcalls) hcall).versionTells (filed_run hnew hcalls) service

def oneSample : EndpointSample where
  service := "svc"
  instanceID := "a"
  address := "10.0.0.1:80"

theorem first_sample_told :
    let m : HealthManager := { calculator := newScoreCalculator {} 0, baseStateMachine := .default }
    (m.step (.update [oneSample] 1 1)).listing "svc" ≠ m.listing "svc" ∧
      m.healthVersion "svc" < (m.step (.update [oneSample] 1 1)).healthVersion "svc" := by
  intro m
  have hlisting : (m.step (.update [oneSample] 1 1)).listing "svc" ≠ m.listing "svc" := by decide +kernel
  have hplain : (Call.update [oneSample] 1 1).Plain := by
    intro sample hsample
    rw [List.mem_singleton.mp hsample]
    unfold PlainName oneSample
    decide
  exact ⟨hlisting, (versions_hide_no_change (newScoreCalculator {} 0) .default ∅ [] (by simp) _ hplain "svc").2 hlisting⟩

end HealthManager

end AegisMesh.Fault

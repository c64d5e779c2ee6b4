import AegisMesh.Fault.Changes
import AegisMesh.Lib.Latest

/-! # Merging snapshots of several controllers -/

open Lib

namespace AegisMesh.Fault

def EndpointHealth.settled (health : EndpointHealth) : EndpointHealth := { health with state := health.state.normalized }

/-- A record that a merge takes as it is, up to a state that is not specified. -/
structure EndpointHealth.Proper (health : EndpointHealth) : Prop where
  service : health.service ≠ ""
  instanceID : health.instanceID ≠ ""
  updatedAt : health.updatedAt ≠ 0
  plain : PlainName health.service

def EndpointHealth.sameEndpoint (a b : EndpointHealth) : Prop := a.service = b.service ∧ a.instanceID = b.instanceID

theorem EndpointHealth.Proper.sameEndpoint_iff {a b : EndpointHealth} (ha : a.Proper) (hb : b.Proper) :
    scoreKey a.service a.instanceID = scoreKey b.service b.instanceID ↔ a.sameEndpoint b :=
  scoreKey_inj ha.plain hb.plain

namespace HealthManager

variable {m m' : HealthManager} {records : List EndpointHealth}

/-! ## One record -/

theorem eq_of_equalIgnoringUpdatedAt {a b : EndpointHealth} (h : endpointHealthEqualIgnoringUpdatedAt a b = true)
    (htime : a.updatedAt = b.updatedAt) : a = b := by
  simp only [endpointHealthEqualIgnoringUpdatedAt, decide_eq_true_eq, EndpointHealth.mk.injEq] at h
  rcases a
  rcases b
  simp_all

theorem equalIgnoringUpdatedAt_retimed {a b : EndpointHealth} (h : endpointHealthEqualIgnoringUpdatedAt a b = true) :
    endpointHealthEqualIgnoringUpdatedAt { a with updatedAt := b.updatedAt } b = true := h

theorem lookup_mergeOne {health : EndpointHealth} (h : health.Proper) (now : ℕ)
    (st : Dict String EndpointHealth × List String) (key : String) :
    (mergeOne now st health).1.lookup key =
      if key = scoreKey health.service health.instanceID then
        newer EndpointHealth.updatedAt (st.1.lookup key) health.settled
      else st.1.lookup key := by
  have hrestored : restored now health = health.settled := by
    rw [restored, if_neg h.updatedAt]
    rfl
  have hnamed : ¬ (health.service = "" ∨ health.instanceID = "") := fun hno => hno.elim h.service h.instanceID
  unfold mergeOne
  rw [if_neg hnamed]
  have hnames : scoreKey health.settled.service health.settled.instanceID = scoreKey health.service health.instanceID := rfl
  simp only [hrestored, hnames]
  by_cases hkey : key = scoreKey health.service health.instanceID
  · subst hkey
    rw [if_pos rfl]
    split
    · rename_i hnone
      rw [hrestored, hnames] at hnone
      rw [hnone, AList.lookup_insert]
      rfl
    · rename_i current hheld
      rw [hrestored, hnames] at hheld
      rw [hheld, newer]
      split_ifs with hold hequal hnewer
      · exact hheld
      · -- The same record but for its time takes the new time.
        rw [AList.lookup_insert]
        exact congrArg some (eq_of_equalIgnoringUpdatedAt (equalIgnoringUpdatedAt_retimed hequal) rfl)
      · rw [hheld]
        exact congrArg some (eq_of_equalIgnoringUpdatedAt hequal (by omega))
      · rw [AList.lookup_insert]
  · rw [if_neg hkey]
    split
    · rw [AList.lookup_insert_ne hkey]
    · split_ifs
      · rfl
      · rw [AList.lookup_insert_ne hkey]
      · rfl
      · rw [AList.lookup_insert_ne hkey]

/-! ## Whole snapshots -/

def settledUnder (key : String) (records : List EndpointHealth) : List EndpointHealth :=
  (records.filter fun r => scoreKey r.service r.instanceID = key).map EndpointHealth.settled

theorem lookup_mergeAll (h : ∀ r ∈ records, r.Proper) (now : ℕ) (st : Dict String EndpointHealth × List String)
    (key : String) :
    (records.foldl (mergeOne now) st).1.lookup key =
      (settledUnder key records).foldl (newer EndpointHealth.updatedAt) (st.1.lookup key) := by
  induction records generalizing st with
  | nil => rfl
  | cons r rest ih =>
    rw [List.foldl_cons, ih fun r hr => h r (List.mem_cons_of_mem _ hr), lookup_mergeOne (h r List.mem_cons_self)]
    simp only [settledUnder, List.filter_cons, decide_eq_true_eq]
    by_cases hkey : scoreKey r.service r.instanceID = key
    · rw [if_pos hkey.symm, if_pos hkey, List.map_cons, List.foldl_cons]
    · rw [if_neg (Ne.symm hkey), if_neg hkey]

def mergeAll (m : HealthManager) (snapshots : List (List EndpointHealth × ℕ)) : HealthManager :=
  snapshots.foldl (fun m s => m.mergeSnapshot s.1 s.2) m

theorem lookup_mergeSnapshots {snapshots : List (List EndpointHealth × ℕ)}
    (h : ∀ r ∈ snapshots.flatMap Prod.fst, r.Proper) (m : HealthManager) (key : String) :
    (m.mergeAll snapshots).health.lookup key =
      (settledUnder key (snapshots.flatMap Prod.fst)).foldl (newer EndpointHealth.updatedAt) (m.health.lookup key) := by
  induction snapshots generalizing m with
  | nil => rfl
  | cons s rest ih =>
    simp only [List.flatMap_cons, List.mem_append] at h
    have hfirst : (m.mergeSnapshot s.1 s.2).health.lookup key =
        (settledUnder key s.1).foldl (newer EndpointHealth.updatedAt) (m.health.lookup key) := by
      rw [mergeSnapshot, bumpIfChanged_health]
      exact lookup_mergeAll (fun r hr => h r (.inl hr)) s.2 (m.health, []) key
    rw [mergeAll, List.foldl_cons, ← mergeAll, ih fun r hr => h r (.inr hr), hfirst]
    simp only [settledUnder, List.flatMap_cons, List.filter_append, List.map_append, List.foldl_append]

theorem filed_mergeAll (hm : m.Filed) {snapshots : List (List EndpointHealth × ℕ)}
    (h : ∀ r ∈ snapshots.flatMap Prod.fst, r.Proper) : (m.mergeAll snapshots).Filed := by
  have hcalls : m.mergeAll snapshots = (snapshots.map fun s => Call.mergeSnapshot s.1 s.2).foldl step m := by
    rw [List.foldl_map]
    rfl
  rw [hcalls]
  apply filed_run hm
  intro call hcall
  obtain ⟨s, hs, rfl⟩ := List.mem_map.mp hcall
  exact fun r hr => (h r (List.mem_flatMap.mpr ⟨s, hs, hr⟩)).plain

/-! ## Any order -/

def Latest (held given : List EndpointHealth) (record : EndpointHealth) : Prop :=
  (∃ r ∈ given, r.settled = record ∧ ∀ x ∈ held ++ given, x.sameEndpoint r → x.updatedAt ≤ r.updatedAt) ∨
  record ∈ held ∧ ∀ r ∈ given, r.sameEndpoint record → r.updatedAt < record.updatedAt

def NoTies (records : List EndpointHealth) : Prop :=
  ∀ r ∈ records, ∀ r' ∈ records, r.sameEndpoint r' → r.updatedAt = r'.updatedAt → r = r'

theorem mem_settledUnder {key : String} {record : EndpointHealth} :
    record ∈ settledUnder key records ↔ ∃ r ∈ records, scoreKey r.service r.instanceID = key ∧ r.settled = record := by
  simp [settledUnder, and_assoc]

theorem NoTies.settledUnder (hproper : ∀ r ∈ records, r.Proper) (h : NoTies records) (key : String) :
    ∀ x ∈ settledUnder key records, ∀ y ∈ settledUnder key records, x.updatedAt = y.updatedAt → x = y := by
  intro x hx y hy htime
  obtain ⟨r, hr, hkey, rfl⟩ := mem_settledUnder.mp hx
  obtain ⟨r', hr', hkey', rfl⟩ := mem_settledUnder.mp hy
  have hsame : r.sameEndpoint r' := ((hproper r hr).sameEndpoint_iff (hproper r' hr')).mp (hkey.trans hkey'.symm)
  rw [h r hr r' hr' hsame htime]

theorem mem_list_all {record : EndpointHealth} : record ∈ m.list "" ↔ ∃ key, m.health.lookup key = some record := by
  rw [mem_list]
  simp

theorem newest_iff_latest (hm : RecordsFiled m.health) {given : List EndpointHealth} (hproper : ∀ r ∈ given, r.Proper)
    (record : EndpointHealth) :
    (∃ key, Newest EndpointHealth.updatedAt (m.health.lookup key) (settledUnder key given) record) ↔
      Latest (m.list "") given record := by
  constructor
  · rintro ⟨key, ⟨hmem, hall, hheld⟩ | ⟨hheld, hall⟩⟩
    · obtain ⟨r, hr, rfl, rfl⟩ := mem_settledUnder.mp hmem
      refine .inl ⟨r, hr, rfl, fun x hx hsame => ?_⟩
      have hkey : scoreKey x.service x.instanceID = scoreKey r.service r.instanceID := by rw [hsame.1, hsame.2]
      rcases List.mem_append.mp hx with hx | hx
      · obtain ⟨key, hl⟩ := mem_list_all.mp hx
        rw [(hm key x hl).1, hkey] at hl
        exact hheld x hl
      · exact hall x.settled (mem_settledUnder.mpr ⟨x, hx, hkey, rfl⟩)
    · refine .inr ⟨mem_list_all.mpr ⟨key, hheld⟩, fun r hr hsame => ?_⟩
      have hkey : scoreKey r.service r.instanceID = key := by rw [(hm key record hheld).1, hsame.1, hsame.2]
      exact hall r.settled (mem_settledUnder.mpr ⟨r, hr, hkey, rfl⟩)
  · rintro (⟨r, hr, rfl, hall⟩ | ⟨hheld, hall⟩)
    · refine ⟨scoreKey r.service r.instanceID,
        .inl ⟨mem_settledUnder.mpr ⟨r, hr, rfl, rfl⟩, fun x hx => ?_, fun x hx => ?_⟩⟩
      · obtain ⟨r', hr', hkey, rfl⟩ := mem_settledUnder.mp hx
        exact hall r' (List.mem_append_right _ hr') (((hproper r' hr').sameEndpoint_iff (hproper r hr)).mp hkey)
      · obtain ⟨hkey, hplain⟩ := hm _ x hx
        exact hall x (List.mem_append_left _ (mem_list_all.mpr ⟨_, hx⟩))
          ((scoreKey_inj hplain (hproper r hr).plain).mp hkey.symm)
    · obtain ⟨key, hl⟩ := mem_list_all.mp hheld
      obtain ⟨hkey, hplain⟩ := hm key record hl
      refine ⟨key, .inr ⟨hl, fun x hx => ?_⟩⟩
      obtain ⟨r, hr, hkey', rfl⟩ := mem_settledUnder.mp hx
      exact hall r hr ((scoreKey_inj (hproper r hr).plain hplain).mp (hkey'.trans hkey))

theorem list_eq_of_lookup (hm : RecordsFiled m.health) (hm' : RecordsFiled m'.health)
    (h : ∀ key, m.health.lookup key = m'.health.lookup key) : m.list "" = m'.list "" := by
  have hkeyed : m.Keyed := fun key health hl => (hm key health hl).1.symm
  have hkeyed' : m'.Keyed := fun key health hl => (hm' key health hl).1.symm
  refine strict_ext _ (hkeyed.list_strict "") (hkeyed'.list_strict "") fun record => ?_
  simp only [mem_list_all, h]

/-- Snapshots merged in any order, at any times and any number of times give one list, that of
each endpoint's latest record. -/
theorem merged_in_any_order (calculator : ScoreCalculator) (baseStateMachine : StateMachineConfig)
    (serviceStateMachines : Dict String StateMachineConfig) (calls : List Call) (hcalls : ∀ call ∈ calls, call.Plain)
    (snapshots snapshots' : List (List EndpointHealth × ℕ))
    (hsame : ∀ snapshot, snapshot ∈ snapshots.map Prod.fst ↔ snapshot ∈ snapshots'.map Prod.fst)
    (hproper : ∀ r ∈ snapshots.flatMap Prod.fst, r.Proper) (hties : NoTies (snapshots.flatMap Prod.fst)) :
    let m := calls.foldl step { calculator, baseStateMachine, serviceStateMachines }
    (m.mergeAll snapshots').list "" = (m.mergeAll snapshots).list "" ∧
      ∀ record, record ∈ (m.mergeAll snapshots).list "" ↔ Latest (m.list "") (snapshots.flatMap Prod.fst) record := by
  intro m
  have hnew : ({ calculator, baseStateMachine, serviceStateMachines } : HealthManager).Filed :=
    ⟨fun key health hl => by simp at hl, fun service => by simp⟩
  have hm : m.Filed := filed_run hnew hcalls
  have hgiven : ∀ r, r ∈ snapshots.flatMap Prod.fst ↔ r ∈ snapshots'.flatMap Prod.fst := by
    intro r
    simp only [List.flatMap, List.mem_flatten, hsame]
  have hproper' : ∀ r ∈ snapshots'.flatMap Prod.fst, r.Proper := fun r hr => hproper r ((hgiven r).mpr hr)
  constructor
  · refine list_eq_of_lookup (filed_mergeAll hm hproper').records (filed_mergeAll hm hproper).records fun key => ?_
    rw [lookup_mergeSnapshots hproper', lookup_mergeSnapshots hproper]
    refine (foldl_newer_congr (hties.settledUnder hproper key) fun record => ?_).symm
    simp only [mem_settledUnder, hgiven]
  · intro record
    rw [mem_list_all, ← newest_iff_latest hm.records hproper]
    refine exists_congr fun key => ?_
    rw [lookup_mergeSnapshots hproper, foldl_newer_iff (hties.settledUnder hproper key)]

def reported (state : Code) (updatedAt : ℕ) : EndpointHealth where
  service := "svc"
  instanceID := "a"
  state := state
  updatedAt := updatedAt

theorem reported_proper (state : Code) {updatedAt : ℕ} (h : updatedAt ≠ 0) : (reported state updatedAt).Proper where
  service := by simp [reported]
  instanceID := by simp [reported]
  updatedAt := h
  plain := by simp [PlainName, reported]

theorem merged_state_filled_in :
    let m : HealthManager := { calculator := newScoreCalculator {} 0, baseStateMachine := .default }
    (m.mergeAll [([reported .unspecified 5], 9)]).list "" ≠ [reported .unspecified 5] := by
  decide +kernel

theorem newest_report_listed :
    let m : HealthManager := { calculator := newScoreCalculator {} 0, baseStateMachine := .default }
    (m.mergeAll [([reported .degraded 5], 9), ([reported .healthy 3], 10)]).list "" =
      (m.mergeAll [([reported .healthy 3], 9), ([reported .degraded 5], 9), ([reported .healthy 3], 11)]).list "" := by
  refine (merged_in_any_order (newScoreCalculator {} 0) .default ∅ [] (by simp)
    [([reported .healthy 3], 9), ([reported .degraded 5], 9), ([reported .healthy 3], 11)]
    [([reported .degraded 5], 9), ([reported .healthy 3], 10)] (fun snapshot => ?_) (fun r hr => ?_)
    (fun r hr r' hr' => ?_)).1
  · simp only [List.map_cons, List.map_nil, List.mem_cons, List.not_mem_nil]
    tauto
  · have hgiven : r = reported .healthy 3 ∨ r = reported .degraded 5 := by
      simp only [List.flatMap_cons, List.flatMap_nil, List.mem_append, List.mem_singleton, List.not_mem_nil] at hr
      tauto
    rcases hgiven with rfl | rfl
    · exact reported_proper _ (by decide)
    · exact reported_proper _ (by decide)
  · simp only [List.flatMap_cons, List.flatMap_nil, List.mem_append, List.mem_singleton, List.not_mem_nil] at hr hr'
    have hgiven : (r = reported .healthy 3 ∨ r = reported .degraded 5) ∧
        (r' = reported .healthy 3 ∨ r' = reported .degraded 5) := by
      tauto
    rcases hgiven with ⟨rfl | rfl, rfl | rfl⟩ <;> simp [reported]

end HealthManager

end AegisMesh.Fault

import AegisMesh.Lib.Fields
import AegisMesh.Lib.Versioned
import AegisMesh.Fault.Windows

/-! # Revisions of the health manager -/

open Lib

namespace AegisMesh.Fault

def EndpointHealth.shown (health : EndpointHealth) : String × String × Code × ℚ :=
  (health.address, health.registrationEpoch, health.state, health.slowScore)

def EndpointHealth.untimed (health : EndpointHealth) : EndpointHealth := { health with updatedAt := 0 }

theorem shown_of_untimed {a b : EndpointHealth} (h : a.untimed = b.untimed) : a.shown = b.shown := by
  simp only [EndpointHealth.untimed, EndpointHealth.mk.injEq] at h
  simp [EndpointHealth.shown, h]

def PlainName (name : String) : Prop := '/' ∉ name.toList

theorem scoreKey_inj {service service' id id' : String} (h : PlainName service) (h' : PlainName service') :
    scoreKey service id = scoreKey service' id' ↔ service = service' ∧ id = id' := by
  refine ⟨fun heq => ?_, fun heq => by rw [heq.1, heq.2]⟩
  have hlist := congrArg String.toList heq
  simp only [scoreKey, String.toList_append, List.append_assoc] at hlist
  obtain ⟨hservice, hid⟩ := append_cons_inj h h' hlist
  exact ⟨String.toList_inj.mp hservice, String.toList_inj.mp hid⟩

def RecordsFiled (records : Dict String EndpointHealth) : Prop :=
  ∀ key health, records.lookup key = some health →
    key = scoreKey health.service health.instanceID ∧ PlainName health.service

def ShownOutside (changed : List String) (records records' : Dict String EndpointHealth) : Prop :=
  ∀ service id, PlainName service → service ∉ changed →
    (records'.lookup (scoreKey service id)).map EndpointHealth.shown =
      (records.lookup (scoreKey service id)).map EndpointHealth.shown

def UnchangedOutside (changed : List String) (records records' : Dict String EndpointHealth) : Prop :=
  ∀ service id, PlainName service → service ∉ changed →
    (records'.lookup (scoreKey service id)).map EndpointHealth.untimed =
      (records.lookup (scoreKey service id)).map EndpointHealth.untimed

theorem RecordsFiled.insert {records : Dict String EndpointHealth} (h : RecordsFiled records)
    {health : EndpointHealth} {service id : String} (hservice : health.service = service)
    (hid : health.instanceID = id) (hplain : PlainName service) :
    RecordsFiled (records.insert (scoreKey service id) health) := by
  refine Dict.forall_lookup_insert.mpr ⟨?_, fun key other _ hl => h key other hl⟩
  rw [hservice, hid]
  exact ⟨rfl, hplain⟩

theorem RecordsFiled.mapVal {records : Dict String EndpointHealth} (h : RecordsFiled records)
    {f : String → EndpointHealth → EndpointHealth}
    (hf : ∀ key health, (f key health).service = health.service ∧ (f key health).instanceID = health.instanceID) :
    RecordsFiled (Dict.mapVal f records) := by
  intro key health hl
  rw [Dict.lookup_mapVal, Option.map_eq_some_iff] at hl
  obtain ⟨before, hbefore, rfl⟩ := hl
  rw [(hf key before).1, (hf key before).2]
  exact h key before hbefore

theorem UnchangedOutside.refl (changed : List String) (records : Dict String EndpointHealth) :
    UnchangedOutside changed records records := fun _ _ _ _ => rfl

variable {changed : List String} {records records' : Dict String EndpointHealth}

theorem UnchangedOutside.shown (h : UnchangedOutside changed records records') :
    ShownOutside changed records records' := by
  intro service id hplain hnot
  have hsame := h service id hplain hnot
  cases hafter : records'.lookup (scoreKey service id) with
  | none =>
    rw [hafter, Option.map_none, eq_comm, Option.map_eq_none_iff] at hsame
    rw [hsame]
  | some after =>
    rw [hafter, Option.map_some, eq_comm, Option.map_eq_some_iff] at hsame
    obtain ⟨before, hbefore, huntimed⟩ := hsame
    rw [hbefore]
    exact congrArg some (shown_of_untimed huntimed.symm)

theorem UnchangedOutside.insert_changed (h : UnchangedOutside changed records records') {service : String}
    (hplain : PlainName service) (id : String) (health : EndpointHealth) :
    UnchangedOutside (changed ++ [service]) records (records'.insert (scoreKey service id) health) := by
  intro service' id' hplain' hnot
  rw [List.mem_append, not_or, List.mem_singleton] at hnot
  rw [Dict.lookup_insert', if_neg fun hkey => hnot.2 ((scoreKey_inj hplain' hplain).mp hkey).1]
  exact h service' id' hplain' hnot.1

theorem UnchangedOutside.insert_same (h : UnchangedOutside changed records records') {key : String}
    {before health : EndpointHealth} (hbefore : records'.lookup key = some before)
    (hsame : health.untimed = before.untimed) :
    UnchangedOutside changed records (records'.insert key health) := by
  intro service id hplain hnot
  rw [← h service id hplain hnot, Dict.lookup_insert']
  split
  · rename_i hkey
    rw [hkey, hbefore, Option.map_some, Option.map_some, hsame]
  · rfl

theorem untimed_of_equalIgnoring {before after : EndpointHealth}
    (h : endpointHealthEqualIgnoringUpdatedAt before after = true) : after.untimed = before.untimed :=
  (of_decide_eq_true h).symm

namespace HealthManager

variable {m m' m'' : HealthManager} {records : Dict String EndpointHealth}

structure Filed (m : HealthManager) : Prop where
  records : RecordsFiled m.health
  bounded : ∀ service, (m.serviceRevisions.lookup service).getD 0 ≤ m.revision

def showing (m : HealthManager) (service : String) : Versioned (String → Option (String × String × Code × ℚ)) :=
  ⟨m.healthVersion service, fun id => (m.get service id).map EndpointHealth.shown⟩

structure Advances (m m' : HealthManager) : Prop where
  filed : m'.Filed
  grows : ∀ service, PlainName service → service ≠ "" → Versioned.Grows (m.showing service) (m'.showing service)

theorem lookup_bumps (changed : List String) (n : ℕ) (revs : Dict String ℕ) (service : String) :
    (changed.foldl (fun revs service => revs.insert service n) revs).lookup service =
      if service ∈ changed then some n else revs.lookup service := by
  induction changed generalizing revs with
  | nil => simp
  | cons first rest ih =>
    rw [List.foldl_cons, ih, Dict.lookup_insert']
    by_cases hrest : service ∈ rest <;> by_cases hfirst : service = first <;> simp [hrest, hfirst]

theorem bumpIfChanged_revisions (m : HealthManager) (changed : List String) (service : String) :
    ((m.bumpIfChanged changed).serviceRevisions.lookup service).getD 0 =
      if service ∈ changed then m.revision + 1 else (m.serviceRevisions.lookup service).getD 0 := by
  unfold bumpIfChanged
  split
  · rename_i hnil
    simp [hnil]
  · dsimp only
    rw [lookup_bumps]
    split <;> rfl

theorem revision_le_bumpIfChanged (m : HealthManager) (changed : List String) :
    m.revision ≤ (m.bumpIfChanged changed).revision ∧
    (changed ≠ [] → (m.bumpIfChanged changed).revision = m.revision + 1) := by
  unfold bumpIfChanged
  split
  · rename_i hnil
    exact ⟨le_rfl, fun h => absurd hnil h⟩
  · exact ⟨Nat.le_succ _, fun _ => rfl⟩

theorem Advances.bump (h : m.Filed) (hm' : m'.revision = m.revision ∧ m'.serviceRevisions = m.serviceRevisions)
    {changed : List String} (hrecords : RecordsFiled m'.health) (hshown : ShownOutside changed m.health m'.health) :
    Advances m (m'.bumpIfChanged changed) := by
  obtain ⟨hrevision, hrevisions⟩ := hm'
  have hle := m'.revision_le_bumpIfChanged changed
  refine ⟨⟨by rw [bumpIfChanged_health]; exact hrecords, fun service => ?_⟩, fun service hplain hne => ?_⟩
  · rw [bumpIfChanged_revisions, hrevisions]
    have hbound := h.bounded service
    split
    · rename_i hmem
      rw [hle.2 (List.ne_nil_of_mem hmem)]
    · omega
  · have hversion : (m'.bumpIfChanged changed).healthVersion service =
        if service ∈ changed then m.revision + 1 else m.healthVersion service := by
      rw [healthVersion, if_neg hne, bumpIfChanged_revisions, healthVersion, if_neg hne, hrevision, hrevisions]
    by_cases hmem : service ∈ changed
    · refine .of_lt ?_
      change m.healthVersion service < (m'.bumpIfChanged changed).healthVersion service
      rw [hversion, if_pos hmem, healthVersion, if_neg hne]
      have := h.bounded service
      omega
    · refine .of_eq ?_
      simp only [showing, hversion, if_neg hmem, get, bumpIfChanged_health, Versioned.mk.injEq, true_and]
      funext id
      exact (hshown service id hplain hmem).symm

def Bumped (m m' : HealthManager) : Prop :=
  ∃ (changed : List String) (next : HealthManager), m' = next.bumpIfChanged changed ∧
    (next.revision = m.revision ∧ next.serviceRevisions = m.serviceRevisions) ∧
    RecordsFiled next.health ∧ UnchangedOutside changed m.health next.health

theorem Bumped.refl (h : RecordsFiled m.health) : Bumped m m := ⟨[], m, rfl, ⟨rfl, rfl⟩, h, .refl _ _⟩

theorem Bumped.advances (h : Bumped m m') (hm : m.Filed) : Advances m m' := by
  obtain ⟨changed, next, rfl, hrevisions, hfiled, hunchanged⟩ := h
  exact .bump hm hrevisions hfiled hunchanged.shown

/-! ## Update -/

theorem ownedBy_names (h : RecordsFiled records) {sample : EndpointSample} (hplain : PlainName sample.service) :
    (ownedBy ((records.lookup (scoreKey sample.service sample.instanceID)).getD {}) sample).service = sample.service ∧
    (ownedBy ((records.lookup (scoreKey sample.service sample.instanceID)).getD {}) sample).instanceID =
      sample.instanceID := by
  refine ownedBy_own (fun before hbefore => ?_) ⟨rfl, rfl⟩
  obtain ⟨hkey, hbeforePlain⟩ := h _ before hbefore
  obtain ⟨hservice, hid⟩ := (scoreKey_inj hplain hbeforePlain).mp hkey
  exact ⟨hservice.symm, hid.symm⟩

theorem updateOne_unchanged (m : HealthManager) (scores : Dict String EndpointScore) (now wall : ℕ)
    {st : Dict String EndpointHealth × List String} {sample : EndpointSample} (hplain : PlainName sample.service)
    (hfiled : RecordsFiled st.1) (hsame : UnchangedOutside st.2 records st.1) :
    RecordsFiled (m.updateOne scores now wall st sample).1 ∧
    UnchangedOutside (m.updateOne scores now wall st sample).2 records (m.updateOne scores now wall st sample).1 := by
  unfold updateOne
  split
  · exact ⟨hfiled, hsame⟩
  dsimp only
  have howner : (m.scored scores now wall
      ((st.1.lookup (scoreKey sample.service sample.instanceID)).getD {}) sample).owner = _ :=
    StateMachineConfig.apply_owner ..
  generalize m.scored scores now wall
    ((st.1.lookup (scoreKey sample.service sample.instanceID)).getD {}) sample = after at howner ⊢
  obtain ⟨hservice, hid⟩ := ownedBy_names hfiled hplain
  simp only [EndpointHealth.owner, Prod.mk.injEq, hservice, hid] at howner
  have hinsert : ∀ t : ℕ, RecordsFiled
      (st.1.insert (scoreKey sample.service sample.instanceID) { after with updatedAt := t }) := by
    intro t
    exact hfiled.insert howner.1 howner.2.1 hplain
  split
  · exact ⟨hinsert now, hsame.insert_changed hplain _ _⟩
  · rename_i hequal
    simp only [Bool.or_eq_true, Bool.not_eq_true', not_or, Bool.not_eq_false, Option.isNone_iff_eq_none] at hequal
    obtain ⟨before, hbefore⟩ := Option.ne_none_iff_exists'.mp hequal.1
    rw [hbefore, Option.getD_some] at hequal
    exact ⟨hinsert after.updatedAt, hsame.insert_same hbefore (untimed_of_equalIgnoring hequal.2)⟩

theorem bumped_update (h : m.Filed) {samples : List EndpointSample}
    (hplain : ∀ sample ∈ samples, PlainName sample.service) (now wall : ℕ) :
    Bumped m (m.update samples now wall) := by
  obtain ⟨hfiled, hsame⟩ := run_invariant_of
    (I := fun st : Dict String EndpointHealth × List String => RecordsFiled st.1 ∧ UnchangedOutside st.2 m.health st.1)
    (fun st sample hst (hsample : PlainName sample.service) =>
      m.updateOne_unchanged (m.calculator.calculate samples) now wall hsample hst.1 hst.2)
    (s := (m.health, [])) ⟨h.records, .refl _ _⟩ hplain
  exact ⟨_, _, rfl, ⟨rfl, rfl⟩, hfiled, hsame⟩

/-! ## Tick -/

theorem tickApplied_owner (m : HealthManager) (now wall : ℕ) (health : EndpointHealth) :
    (m.tickApplied now wall health).owner = health.owner := StateMachineConfig.apply_owner ..

theorem ticked_owner (m : HealthManager) (now wall : ℕ) (health : EndpointHealth) :
    (m.ticked now wall health).owner = health.owner := by
  rw [← m.tickApplied_owner now wall health]
  simp only [ticked]
  split <;> rfl

theorem owner_names {a b : EndpointHealth} (h : a.owner = b.owner) :
    a.service = b.service ∧ a.instanceID = b.instanceID := by
  simp only [EndpointHealth.owner, Prod.mk.injEq] at h
  exact ⟨h.1, h.2.1⟩

theorem Filed.service (h : m.Filed) {service id : String} (hplain : PlainName service) {health : EndpointHealth}
    (hl : m.health.lookup (scoreKey service id) = some health) : health.service = service := by
  obtain ⟨hkey, hplain'⟩ := h.records _ health hl
  exact ((scoreKey_inj hplain hplain').mp hkey).1.symm

theorem bumped_tick (h : m.Filed) (now wall : ℕ) : Bumped m (m.tick now wall) := by
  refine ⟨_, _, rfl, ⟨rfl, rfl⟩, h.records.mapVal fun _ health => owner_names (m.ticked_owner now wall health), ?_⟩
  intro service id hplain hnot
  dsimp only
  rw [Dict.lookup_mapVal]
  cases hl : m.health.lookup (scoreKey service id) with
  | none => rfl
  | some health =>
    have hservice := h.service hplain hl
    -- A changed record would have named its service.
    have hsame : m.tickApplied now wall health = health := by
      by_contra hne
      refine hnot (List.mem_filterMap.mpr ⟨health, Dict.mem_values.mpr ⟨_, hl⟩, ?_⟩)
      rw [if_pos (Ne.symm hne), (owner_names (m.tickApplied_owner now wall health)).1, hservice]
    simp [ticked, hsame]

/-! ## Merging and pruning -/

theorem mergeOne_unchanged (now : ℕ) {st : Dict String EndpointHealth × List String} {health : EndpointHealth}
    (hplain : PlainName health.service) (hfiled : RecordsFiled st.1) (hsame : UnchangedOutside st.2 records st.1) :
    RecordsFiled (mergeOne now st health).1 ∧
    UnchangedOutside (mergeOne now st health).2 records (mergeOne now st health).1 := by
  have hrestored : PlainName (restored now health).service := hplain
  unfold mergeOne
  split
  · exact ⟨hfiled, hsame⟩
  dsimp only
  generalize restored now health = after at hrestored ⊢
  cases hl : st.1.lookup (scoreKey after.service after.instanceID) with
  | none => exact ⟨hfiled.insert rfl rfl hrestored, hsame.insert_changed hrestored _ _⟩
  | some current =>
    obtain ⟨hkey, hcurrent⟩ := hfiled _ current hl
    dsimp only
    split
    · exact ⟨hfiled, hsame⟩
    split
    · split
      · rw [hkey] at hl ⊢
        exact ⟨hfiled.insert rfl rfl hcurrent, hsame.insert_same hl rfl⟩
      · exact ⟨hfiled, hsame⟩
    · exact ⟨hfiled.insert rfl rfl hrestored, hsame.insert_changed hrestored _ _⟩

theorem bumped_mergeSnapshot (h : m.Filed) {snapshot : List EndpointHealth}
    (hplain : ∀ health ∈ snapshot, PlainName health.service) (now : ℕ) : Bumped m (m.mergeSnapshot snapshot now) := by
  obtain ⟨hfiled, hsame⟩ := run_invariant_of
    (I := fun st : Dict String EndpointHealth × List String => RecordsFiled st.1 ∧ UnchangedOutside st.2 m.health st.1)
    (fun st health hst (hhealth : PlainName health.service) => mergeOne_unchanged now hhealth hst.1 hst.2)
    (s := (m.health, [])) ⟨h.records, .refl _ _⟩ hplain
  exact ⟨_, _, rfl, ⟨rfl, rfl⟩, hfiled, hsame⟩

theorem bumped_pruneMissing (h : m.Filed) (retain : Option (Dict EndpointIdentity String)) :
    Bumped m (m.pruneMissing retain) := by
  cases retain with
  | none => exact .refl h.records
  | some retain =>
    refine ⟨_, _, rfl, ⟨rfl, rfl⟩, ?_, ?_⟩
    · intro key health hl
      rw [Dict.lookup_filter, Option.filter_eq_some_iff] at hl
      exact h.records key health hl.1
    · intro service id hplain hnot
      dsimp only
      rw [Dict.lookup_filter]
      cases hl : m.health.lookup (scoreKey service id) with
      | none => rfl
      | some health =>
        have hkept : retained retain health = true := by
          by_contra hgone
          refine hnot (List.mem_map.mpr ⟨health, ?_, h.service hplain hl⟩)
          exact List.mem_filter.mpr ⟨Dict.mem_values.mpr ⟨_, hl⟩, by simp [hgone]⟩
        simp [Option.filter, hkept]

/-! ## Configuration -/

theorem resetCounters_keeps (now : ℕ) (service : String) (health : EndpointHealth) :
    (resetCounters now service health).owner = health.owner ∧
    (resetCounters now service health).shown = health.shown := by
  unfold resetCounters
  split_ifs <;> exact ⟨rfl, rfl⟩

structure Recounts (m m' : HealthManager) : Prop where
  revision : m'.revision = m.revision
  serviceRevisions : m'.serviceRevisions = m.serviceRevisions
  records : RecordsFiled m.health → RecordsFiled m'.health
  shown : ∀ key, (m'.health.lookup key).map EndpointHealth.shown = (m.health.lookup key).map EndpointHealth.shown

theorem Recounts.trans (h : Recounts m m') (h' : Recounts m' m'') : Recounts m m'' :=
  ⟨h'.revision.trans h.revision, h'.serviceRevisions.trans h.serviceRevisions, fun hr => h'.records (h.records hr),
    fun key => (h'.shown key).trans (h.shown key)⟩

theorem recounts_reset (m : HealthManager) (service : String) (now : ℕ) :
    Recounts m (m.resetStateMachineCounters service now) where
  revision := rfl
  serviceRevisions := rfl
  records h := h.mapVal fun _ health => owner_names (resetCounters_keeps now service health).1
  shown key := by
    simp only [resetStateMachineCounters, Dict.lookup_mapVal]
    cases m.health.lookup key with
    | none => rfl
    | some health => exact congrArg some (resetCounters_keeps now service health).2

theorem resets_unchanged (services : List String) (now : ℕ) (h : RecordsFiled m.health) :
    UnchangedOutside services m.health
      (services.foldl (fun m service => m.resetStateMachineCounters service now) m).health := by
  induction services generalizing m with
  | nil => exact .refl _ _
  | cons first rest ih =>
    intro service id hplain hnot
    obtain ⟨hfirst, hrest⟩ := not_or.mp (mt List.mem_cons.mpr hnot)
    rw [List.foldl_cons, ih ((recounts_reset m first now).records h) service id hplain hrest,
      resetStateMachineCounters, Dict.lookup_mapVal]
    cases hl : m.health.lookup (scoreKey service id) with
    | none => rfl
    | some health =>
      obtain ⟨hkey, hplain'⟩ := h _ health hl
      have hservice : health.service = service := ((scoreKey_inj hplain hplain').mp hkey).1.symm
      rw [Option.map_some, resetCounters, if_pos (by rw [hservice]; exact hfirst)]

theorem recounts_resets (m : HealthManager) (services : List String) (now : ℕ) :
    Recounts m (services.foldl (fun m service => m.resetStateMachineCounters service now) m) := by
  induction services generalizing m with
  | nil => exact ⟨rfl, rfl, id, fun _ => rfl⟩
  | cons service rest ih => exact (recounts_reset m service now).trans (ih _)

theorem Recounts.bumped (h : Recounts m m') (hm : m.Filed) {changed : List String}
    (hunchanged : UnchangedOutside changed m.health m'.health) : Bumped m (m'.bumpIfChanged changed) :=
  ⟨changed, m', rfl, ⟨h.revision, h.serviceRevisions⟩, h.records hm.records, hunchanged⟩

theorem recounts_configs (m : HealthManager) (configs : Dict String StateMachineConfig) :
    Recounts m { m with serviceStateMachines := configs } := ⟨rfl, rfl, id, fun _ => rfl⟩

theorem bumped_setServiceStateMachineConfig (h : m.Filed) (service : String) (cfg : StateMachineConfig) (now : ℕ) :
    Bumped m (m.setServiceStateMachineConfig service cfg now).1 := by
  unfold setServiceStateMachineConfig
  have hconfig := recounts_configs m (m.serviceStateMachines.insert service cfg)
  split
  · exact .refl h.records
  dsimp only
  split
  · exact hconfig.bumped h (.refl [] _)
  · exact (hconfig.trans (recounts_reset _ service now)).bumped h (resets_unchanged [service] now h.records)

theorem bumped_replaceServiceStateMachineConfigs (h : m.Filed) (configs : Dict String StateMachineConfig) (now : ℕ) :
    Bumped m (m.replaceServiceStateMachineConfigs configs now).1 :=
  ((recounts_configs m _).trans (recounts_resets _ _ now)).bumped h (resets_unchanged _ now h.records)

end HealthManager

end AegisMesh.Fault

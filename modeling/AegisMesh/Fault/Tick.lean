import Mathlib.Data.Option.Basic
import AegisMesh.Fault.Windows

/-! # Ticks -/

open Lib

namespace AegisMesh.Fault

open HealthManager (tickInput)

namespace StateMachineConfig

variable (cfg : StateMachineConfig) {health : EndpointHealth}

def Calm (health : EndpointHealth) : Prop :=
  health.slowScore < cfg.ejectThreshold ∧ health.slowScore < cfg.degradedThreshold ∧
  health.consecutiveSlowWindows = 0 ∧ health.consecutiveEjectWindows = 0

def Pending (health : EndpointHealth) : Prop :=
  cfg.probeSuccessThreshold ≤ 1 ∧ cfg.recoveryThreshold < health.slowScore ∧
  health.slowScore < cfg.degradedThreshold

def Still (health : EndpointHealth) : Prop :=
  match health.state with
  | .unspecified => False
  | .ejected => True
  | .probing => cfg.Pending health
  | .degraded => cfg.Calm health ∧ cfg.recoveryThreshold < health.slowScore
  | _ => cfg.Calm health

theorem apply_tick (h : health.state ≠ .unspecified) (now wall : ℕ) :
    cfg.apply health (tickInput health now) wall =
      cfg.step health (tickInput health now) ((tickInput health now).time wall) := by
  have hself : ({ health with state := health.state.normalized, slowScore := health.slowScore } : EndpointHealth) =
      health := by
    rw [Code.normalized, if_neg h]
  unfold apply
  change cfg.step { health with state := health.state.normalized, slowScore := health.slowScore } _ _ = _
  rw [hself]

theorem transition_ne {record health : EndpointHealth} (hstate : record.state = health.state) (h : record ≠ health)
    (next : Code) (now : ℕ) : transition record next now ≠ health := by
  unfold transition
  split
  · exact h
  · rename_i hnext
    intro heq
    exact hnext (hstate.trans (congrArg EndpointHealth.state heq).symm)

theorem judge_ne {record health : EndpointHealth} (hstate : record.state = health.state) (h : record ≠ health)
    (score : ℚ) (now : ℕ) : cfg.judge record score now ≠ health := by
  unfold judge
  split_ifs
  · exact transition_ne hstate h _ _
  · exact transition_ne hstate h _ _
  · exact transition_ne hstate h _ _
  · exact h

theorem countWindow_eq_self_iff (health : EndpointHealth) :
    cfg.countWindow health health.slowScore = health ↔ cfg.Calm health := by
  unfold countWindow Calm
  split_ifs with heject hdegraded
  · refine ⟨fun h => ?_, fun h => absurd heject (not_le.mpr h.1)⟩
    have := congrArg EndpointHealth.consecutiveSlowWindows h
    simp at this
  · refine ⟨fun h => ?_, fun h => absurd hdegraded (not_le.mpr h.2.1)⟩
    have := congrArg EndpointHealth.consecutiveSlowWindows h
    simp at this
  · refine ⟨fun h => ⟨not_le.mp heject, not_le.mp hdegraded, ?_, ?_⟩, ?_⟩
    · exact (congrArg EndpointHealth.consecutiveSlowWindows h).symm
    · exact (congrArg EndpointHealth.consecutiveEjectWindows h).symm
    · rintro ⟨-, -, hslow, heject⟩
      cases health
      simp_all

theorem judge_calm (hcfg : cfg.Positive) (h : cfg.Calm health) (now : ℕ) :
    cfg.judge health health.slowScore now = health ↔
      (health.state = .degraded → cfg.recoveryThreshold < health.slowScore) := by
  have hw := not_le.mpr hcfg.windows
  unfold judge
  rw [if_neg (by simpa [h.2.2.2] using hw), if_neg (by simpa [h.2.2.1] using hw)]
  split_ifs with hrecovers
  · refine ⟨fun heq => ?_, fun hkeeps => absurd hrecovers.2 (not_le.mpr (hkeeps hrecovers.1))⟩
    have hstate := congrArg EndpointHealth.state heq
    rw [transition_state, hrecovers.1] at hstate
    cases hstate
  · simp only [true_iff]
    exact fun hdegraded => not_le.mp fun hle => hrecovers ⟨hdegraded, hle⟩

theorem apply_counting_self_iff (hcfg : cfg.Positive) (hcounting : health.state.counting)
    (hnamed : health.state ≠ .unspecified) (now wall : ℕ) :
    cfg.apply health (tickInput health now) wall = health ↔
      cfg.Calm health ∧ (health.state = .degraded → cfg.recoveryThreshold < health.slowScore) := by
  rw [cfg.apply_tick hnamed, cfg.step_counting ((Code.counting_iff _).mp hcounting)]
  by_cases hcalm : cfg.Calm health
  · have hcount := (cfg.countWindow_eq_self_iff health).mpr hcalm
    change cfg.judge (cfg.countWindow health health.slowScore) health.slowScore _ = _ ↔ _
    rw [hcount, cfg.judge_calm hcfg hcalm]
    simp [hcalm]
  · have hcount := fun h => hcalm ((cfg.countWindow_eq_self_iff health).mp h)
    refine ⟨fun heq => absurd heq ?_, fun h => absurd h.1 hcalm⟩
    exact cfg.judge_ne (cfg.countWindow_state _ _) hcount _ _

theorem apply_probing_self_iff (h : health.state = .probing) (now wall : ℕ) :
    cfg.apply health (tickInput health now) wall = health ↔ cfg.Pending health := by
  have hstate := cfg.apply_state_probing h (tickInput health now) wall
  constructor
  · intro heq
    rw [heq, h] at hstate
    split_ifs at hstate with hfails hpasses
    simp only [tickInput, not_or, not_lt, not_le] at hfails hpasses
    exact ⟨hfails.1, hpasses, hfails.2⟩
  · rintro ⟨hprobe, hrecovery, hdegraded⟩
    rw [cfg.apply_tick (by rw [h]; decide), cfg.step_probing h, if_neg (by simp [tickInput, hprobe, hdegraded]),
      if_neg (by simpa [tickInput] using hrecovery)]

theorem step_state_named (h : health.state ≠ .unspecified) (input : StateInput) (now : ℕ) :
    (cfg.step health input now).state ≠ .unspecified := by
  unfold step judge
  split
  · split_ifs <;> simp [h]
  · split_ifs <;> simp [h]
  · split_ifs <;> simp [countWindow_state, h]

theorem apply_self_iff_still (hcfg : cfg.Positive) (h : health.state ≠ .ejected) (now wall : ℕ) :
    cfg.apply health (tickInput health now) wall = health ↔ cfg.Still health := by
  have hcounting : health.state ≠ .probing → health.state.counting := fun hp => (Code.counting_iff _).mpr ⟨h, hp⟩
  unfold Still
  split
  · rename_i hstate
    refine ⟨fun heq => ?_, False.elim⟩
    have hnamed : (cfg.apply health (tickInput health now) wall).state ≠ .unspecified :=
      cfg.step_state_named (Code.normalized_ne _) _ _
    rw [heq] at hnamed
    exact hnamed hstate
  · rename_i hstate
    exact absurd hstate h
  · rename_i hstate
    exact cfg.apply_probing_self_iff hstate now wall
  · rename_i hstate
    rw [cfg.apply_counting_self_iff hcfg (hcounting (by simp [hstate])) (by simp [hstate])]
    simp [hstate]
  · rename_i hunspecified hejected hprobing hdegraded
    rw [cfg.apply_counting_self_iff hcfg (hcounting hprobing) hunspecified]
    exact ⟨fun hc => hc.1, fun hc => ⟨hc, fun hd => absurd hd hdegraded⟩⟩

end StateMachineConfig

namespace HealthManager

variable (m : HealthManager)

def due (now wall : ℕ) (health : EndpointHealth) : Prop :=
  health.state = .ejected ∧
  (m.stateMachineFor health.service).ejectionOver health (if now = 0 then wall else now) = true

instance (now wall : ℕ) (health : EndpointHealth) : Decidable (m.due now wall health) := by
  unfold due; infer_instance

def Driven (now wall : ℕ) (before after : EndpointHealth) : Prop :=
  if m.due now wall before then after.state = .probing else after = before

def TimersOnly (now wall : ℕ) : Prop :=
  ∀ key, Option.Rel (m.Driven now wall) (m.health.lookup key) ((m.tick now wall).health.lookup key)

def AllStill : Prop :=
  ∀ key health, m.health.lookup key = some health → (m.stateMachineFor health.service).Still health

theorem lookup_tick (now wall : ℕ) (key : String) :
    (m.tick now wall).health.lookup key = (m.health.lookup key).map (m.ticked now wall) := by
  simp only [tick, bumpIfChanged_health]
  exact Dict.lookup_mapVal _ _ _

theorem tick_config (now wall : ℕ) : (m.tick now wall).stateMachineFor = m.stateMachineFor := by
  simp only [tick, bumpIfChanged]
  split <;> rfl

theorem timersOnly_iff_driven (now wall : ℕ) :
    m.TimersOnly now wall ↔
      ∀ key health, m.health.lookup key = some health → m.Driven now wall health (m.ticked now wall health) := by
  unfold TimersOnly
  refine forall_congr' fun key => ?_
  rw [m.lookup_tick]
  cases m.health.lookup key with
  | none => simp
  | some health => simp

/-! ## One record -/

theorem ticked_eq_self_iff (now wall : ℕ) (health : EndpointHealth) :
    m.ticked now wall health = health ↔ m.tickApplied now wall health = health := by
  have hstamp : (m.tickApplied now wall health).updatedAt = health.updatedAt :=
    StateMachineConfig.apply_updatedAt ..
  simp only [ticked]
  generalize m.tickApplied now wall health = after at hstamp ⊢
  split_ifs with hsame
  · refine ⟨fun heq => ?_, fun heq => absurd heq.symm hsame⟩
    -- The stamp would be the old one, so that nothing at all would have changed.
    have hnow : now = health.updatedAt := congrArg EndpointHealth.updatedAt heq
    rw [hnow, ← hstamp] at heq
    exact heq
  · rfl

theorem ticked_state (now wall : ℕ) (health : EndpointHealth) :
    (m.ticked now wall health).state = (m.tickApplied now wall health).state := by
  simp only [ticked]
  split <;> rfl

theorem driven_iff_still (now wall : ℕ) (health : EndpointHealth) :
    m.Driven now wall health (m.ticked now wall health) ↔ (m.stateMachineFor health.service).Still health := by
  by_cases hejected : health.state = .ejected
  · have hstill : (m.stateMachineFor health.service).Still health := by simp [StateMachineConfig.Still, hejected]
    simp only [hstill, iff_true]
    unfold Driven
    split_ifs with hdue
    · rw [ticked_state, tickApplied, StateMachineConfig.apply_state_ejected _ hejected]
      exact if_pos hdue.2
    · have hover : ¬ (m.stateMachineFor health.service).ejectionOver health ((tickInput health now).time wall) = true :=
        fun hover => hdue ⟨hejected, hover⟩
      rw [ticked_eq_self_iff, tickApplied, StateMachineConfig.apply_tick _ (by simp [hejected]),
        StateMachineConfig.step_ejected _ hejected, if_neg hover]
  · have hdue : ¬ m.due now wall health := fun h => hejected h.1
    rw [Driven, if_neg hdue, ticked_eq_self_iff]
    exact StateMachineConfig.apply_self_iff_still _ (m.stateMachineFor_positive _) hejected now wall

theorem timersOnly_iff_still (now wall : ℕ) : m.TimersOnly now wall ↔ m.AllStill := by
  rw [timersOnly_iff_driven]
  exact forall_congr' fun key => forall_congr' fun health => imp_congr_right fun _ => m.driven_iff_still now wall health

/-! ## Rows of ticks -/

def ticks : HealthManager → List (ℕ × ℕ) → HealthManager
  | m, [] => m
  | m, (now, wall) :: rest => ticks (m.tick now wall) rest

def TimersOnlyAlong : HealthManager → List (ℕ × ℕ) → Prop
  | _, [] => True
  | m, (now, wall) :: rest => m.TimersOnly now wall ∧ TimersOnlyAlong (m.tick now wall) rest

def AllSettled : Prop :=
  m.AllStill ∧ ∀ key health, m.health.lookup key = some health → health.state = .ejected → health.ejectedAt ≠ 0 →
    (m.stateMachineFor health.service).Pending health

theorem ticked_due {now wall : ℕ} {health : EndpointHealth} (h : m.due now wall health) :
    (m.ticked now wall health).state = .probing ∧ (m.ticked now wall health).slowScore = health.slowScore ∧
    (m.ticked now wall health).service = health.service := by
  have happlied : m.tickApplied now wall health =
      transition health .probing ((tickInput health now).time wall) := by
    rw [tickApplied, StateMachineConfig.apply_tick _ (by simp [h.1]), StateMachineConfig.step_ejected _ h.1]
    exact if_pos h.2
  have howner := congrArg Prod.fst (StateMachineConfig.transition_owner health .probing ((tickInput health now).time wall))
  simp only [ticked, happlied]
  split_ifs
  · exact ⟨StateMachineConfig.transition_state .., StateMachineConfig.transition_slowScore .., howner⟩
  · exact ⟨StateMachineConfig.transition_state .., StateMachineConfig.transition_slowScore .., howner⟩

theorem still_ticked_due {now wall : ℕ} {health : EndpointHealth} (h : m.due now wall health) :
    (m.stateMachineFor (m.ticked now wall health).service).Still (m.ticked now wall health) ↔
      (m.stateMachineFor health.service).Pending health := by
  obtain ⟨hstate, hscore, hservice⟩ := m.ticked_due h
  simp only [StateMachineConfig.Still, hstate, hservice, StateMachineConfig.Pending, hscore]

theorem AllSettled.tick {m : HealthManager} (h : m.AllSettled) (now wall : ℕ) : (m.tick now wall).AllSettled := by
  -- A record after the tick is one from before, or a probe that has just started.
  have hcases : ∀ key after, (m.tick now wall).health.lookup key = some after →
      m.health.lookup key = some after ∨ ∃ before, m.health.lookup key = some before ∧ m.due now wall before ∧
        after = m.ticked now wall before := by
    intro key after hafter
    rw [m.lookup_tick, Option.map_eq_some_iff] at hafter
    obtain ⟨before, hbefore, rfl⟩ := hafter
    have hdriven := (m.driven_iff_still now wall before).mpr (h.1 key before hbefore)
    unfold Driven at hdriven
    split_ifs at hdriven with hdue
    · exact Or.inr ⟨before, hbefore, hdue, rfl⟩
    · rw [hdriven]
      exact Or.inl hbefore
  refine ⟨fun key after hafter => ?_, fun key after hafter hejected hset => ?_⟩
  · rw [m.tick_config]
    rcases hcases key after hafter with hsame | ⟨before, hbefore, hdue, rfl⟩
    · exact h.1 key after hsame
    · rw [m.still_ticked_due hdue]
      refine h.2 key before hbefore hdue.1 fun hzero => ?_
      have hover := hdue.2
      simp [StateMachineConfig.ejectionOver, hzero] at hover
  · rw [m.tick_config]
    rcases hcases key after hafter with hsame | ⟨before, hbefore, hdue, rfl⟩
    · exact h.2 key after hsame hejected hset
    · rw [(m.ticked_due hdue).1] at hejected
      cases hejected

theorem AllSettled.along {m : HealthManager} (h : m.AllSettled) (ticks : List (ℕ × ℕ)) : m.TimersOnlyAlong ticks := by
  induction ticks generalizing m with
  | nil => trivial
  | cons t rest ih => exact ⟨(m.timersOnly_iff_still t.1 t.2).mpr h.1, ih (h.tick t.1 t.2)⟩

theorem allSettled_of_along (h : ∀ ticks, m.TimersOnlyAlong ticks) : m.AllSettled := by
  refine ⟨(m.timersOnly_iff_still 1 1).mp (h [(1, 1)]).1, fun key health hhealth hejected hset => ?_⟩
  -- The first tick ends the ejection, the second meets the probe.
  let ended := health.ejectedAt + (m.stateMachineFor health.service).ejectionDuration.toNat
  have hended : ended ≠ 0 := by simp [ended, hset]
  have hdue : m.due ended ended health := by
    refine ⟨hejected, ?_⟩
    rw [if_neg hended]
    simp only [StateMachineConfig.ejectionOver, Bool.and_eq_true, decide_eq_true_eq]
    exact ⟨hset, by simp only [ended]; omega⟩
  have hstill := ((m.tick ended ended).timersOnly_iff_still ended ended).mp (h [(ended, ended), (ended, ended)]).2.1
  have hafter : (m.tick ended ended).health.lookup key = some (m.ticked ended ended health) := by
    rw [m.lookup_tick, hhealth, Option.map_some]
  have := hstill key _ hafter
  rwa [m.tick_config, m.still_ticked_due hdue] at this

theorem TimersOnlyAlong.states {m : HealthManager} {ticks : List (ℕ × ℕ)} (h : m.TimersOnlyAlong ticks) (key : String) :
    Option.Rel (fun before after => after = before ∨ before.state = .ejected ∧ after.state = .probing)
      (m.health.lookup key) ((m.ticks ticks).health.lookup key) := by
  induction ticks generalizing m with
  | nil =>
    simp only [HealthManager.ticks]
    cases m.health.lookup key with
    | none => exact .none
    | some health => exact .some (Or.inl rfl)
  | cons t rest ih =>
    have hrest := ih h.2
    have hfirst := (m.timersOnly_iff_driven t.1 t.2).mp h.1 key
    rw [m.lookup_tick] at hrest
    simp only [HealthManager.ticks]
    cases hbefore : m.health.lookup key with
    | none => rwa [hbefore] at hrest
    | some before =>
      have hdriven := hfirst before hbefore
      rw [hbefore, Option.map_some] at hrest
      generalize ((m.tick t.1 t.2).ticks rest).health.lookup key = final at hrest ⊢
      cases hrest with
      | some hstep =>
        refine .some ?_
        unfold Driven at hdriven
        split_ifs at hdriven with hdue
        · rcases hstep with rfl | ⟨hejected, -⟩
          · exact Or.inr ⟨hdue.1, hdriven⟩
          · rw [hdriven] at hejected
            cases hejected
        · rwa [hdriven] at hstep

/-- A tick only drives timers exactly when every record is still, and every row of ticks does exactly when every
record is settled. -/
theorem tick_drives_timers_iff (m : HealthManager) :
    (∀ now wall, m.TimersOnly now wall ↔ m.AllStill) ∧
    ((∀ ticks, m.TimersOnlyAlong ticks) ↔ m.AllSettled) ∧
    ∀ ticks, m.TimersOnlyAlong ticks → ∀ key,
      Option.Rel (fun before after => after = before ∨ before.state = .ejected ∧ after.state = .probing)
        (m.health.lookup key) ((m.ticks ticks).health.lookup key) :=
  ⟨m.timersOnly_iff_still, ⟨m.allSettled_of_along, fun h => h.along⟩, fun _ h => h.states⟩

/-- One slow report and two ticks eject an endpoint that needs three slow windows, and one tick
returns a probed endpoint without a sample of the probe. -/
theorem ticks_eject_and_heal :
    ((freshManager.update [slowMethod "Get"] 5 5).get "order" "a").map EndpointHealth.state = some .healthy ∧
    (((freshManager.update [slowMethod "Get"] 5 5).ticks [(6, 6), (7, 7)]).get "order" "a").map
      EndpointHealth.state = some .ejected ∧
    ((startWith (newScoreCalculator {} 0) {} "order/a"
      { service := "order", instanceID := "a", state := .probing, ejectedAt := 1 }).ticks [(6, 6)]).get "order" "a" =
        some { service := "order", instanceID := "a", state := .healthy, lastTransitionAt := 6, updatedAt := 6 } := by
  decide +kernel

def undecided : HealthManager :=
  startWith (newScoreCalculator {} 0) {} "order/a"
    { service := "order", instanceID := "a", state := .ejected, slowScore := 6 / 5, ejectedAt := 1 }

theorem undecided_probe_kept :
    Option.Rel (fun before after : EndpointHealth => after = before ∨ before.state = .ejected ∧ after.state = .probing)
      (undecided.health.lookup "order/a")
      ((undecided.ticks [(40000000000, 0), (50000000000, 0)]).health.lookup "order/a") := by
  have hone : ∀ key health, undecided.health.lookup key = some health →
      health = { service := "order", instanceID := "a", state := .ejected, slowScore := 6 / 5, ejectedAt := 1 } := by
    intro key health h
    have hmem := List.mem_singleton.mp (AList.mem_lookup_iff.mp h)
    exact eq_of_heq (Sigma.mk.inj hmem).2
  have hmachine : undecided.stateMachineFor "order" = StateMachineConfig.default := by decide +kernel
  have hsettled : undecided.AllSettled := by
    refine ⟨fun key health h => ?_, fun key health h _ _ => ?_⟩
    · rw [hone key health h]
      trivial
    · rw [hone key health h]
      dsimp only
      rw [hmachine]
      norm_num [StateMachineConfig.Pending, StateMachineConfig.default]
  have hmain := tick_drives_timers_iff undecided
  exact hmain.2.2 _ (hmain.2.1.mpr hsettled _) "order/a"

end HealthManager

end AegisMesh.Fault

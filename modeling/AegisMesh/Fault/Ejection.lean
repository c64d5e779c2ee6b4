import AegisMesh.Fault.StateMachine
import AegisMesh.Lib.Streak

/-! # Sustained slowness -/

open Lib

namespace AegisMesh.Fault

namespace StateMachineConfig

variable (cfg : StateMachineConfig) {health fresh : EndpointHealth} {past : List (StateInput × ℕ)}

def applyAll (health : EndpointHealth) (inputs : List (StateInput × ℕ)) : EndpointHealth :=
  inputs.foldl (fun health input => cfg.apply health input.1 input.2) health

def stateAfter (health : EndpointHealth) (inputs : List (StateInput × ℕ)) : Code := (cfg.applyAll health inputs).state

def ejects (input : StateInput × ℕ) : Prop := cfg.ejectThreshold ≤ input.1.slowScore

def slows (input : StateInput × ℕ) : Prop :=
  cfg.degradedThreshold ≤ input.1.slowScore ∨ cfg.ejectThreshold ≤ input.1.slowScore

instance (input : StateInput × ℕ) : Decidable (cfg.ejects input) := inferInstanceAs (Decidable (_ ≤ _))

instance (input : StateInput × ℕ) : Decidable (cfg.slows input) := inferInstanceAs (Decidable (_ ∨ _))

theorem applyAll_snoc (health : EndpointHealth) (past : List (StateInput × ℕ)) (input : StateInput × ℕ) :
    cfg.applyAll health (past ++ [input]) = cfg.apply (cfg.applyAll health past) input.1 input.2 := by
  simp [applyAll]

/-! ## One input -/

def ejectRow (health : EndpointHealth) (input : StateInput × ℕ) : ℕ :=
  if cfg.ejects input then health.consecutiveEjectWindows + 1 else 0

def slowRow (health : EndpointHealth) (input : StateInput × ℕ) : ℕ :=
  if cfg.slows input then health.consecutiveSlowWindows + 1 else 0

structure CountedTo (health : EndpointHealth) (input : StateInput × ℕ) (after : EndpointHealth) : Prop where
  state : after.state =
    if cfg.consecutiveWindows ≤ cfg.ejectRow health input then .ejected
    else if cfg.consecutiveWindows ≤ cfg.slowRow health input then .degraded
    else if health.state = .degraded ∧ input.1.slowScore ≤ cfg.recoveryThreshold then .healthy
    else health.state
  eject : after.consecutiveEjectWindows = if after.state = health.state then cfg.ejectRow health input else 0
  slow : after.consecutiveSlowWindows = if after.state = health.state then cfg.slowRow health input else 0

theorem countWindow_slow (health : EndpointHealth) (input : StateInput × ℕ) :
    (cfg.countWindow health input.1.slowScore).consecutiveSlowWindows = cfg.slowRow health input := by
  unfold slowRow
  by_cases heject : cfg.ejectThreshold ≤ input.1.slowScore
  · have hslow : cfg.slows input := Or.inr heject
    rw [if_pos hslow, countWindow, if_pos heject]
  · have hiff : cfg.slows input ↔ cfg.degradedThreshold ≤ input.1.slowScore := by simp [slows, heject]
    rw [countWindow, if_neg heject]
    simp only [hiff]

theorem transition_counters (health : EndpointHealth) (next : Code) (now : ℕ) :
    (transition health next now).consecutiveEjectWindows =
      (if next = health.state then health.consecutiveEjectWindows else 0) ∧
    (transition health next now).consecutiveSlowWindows =
      (if next = health.state then health.consecutiveSlowWindows else 0) := by
  unfold transition
  split_ifs <;> simp_all

theorem judge_counters (health : EndpointHealth) (score : ℚ) (now : ℕ) :
    (cfg.judge health score now).consecutiveEjectWindows =
      (if (cfg.judge health score now).state = health.state then health.consecutiveEjectWindows else 0) ∧
    (cfg.judge health score now).consecutiveSlowWindows =
      (if (cfg.judge health score now).state = health.state then health.consecutiveSlowWindows else 0) := by
  unfold judge
  split_ifs <;> simp_all [transition_counters]

theorem judge_state (health : EndpointHealth) (score : ℚ) (now : ℕ) :
    (cfg.judge health score now).state =
      if cfg.consecutiveWindows ≤ health.consecutiveEjectWindows then .ejected
      else if cfg.consecutiveWindows ≤ health.consecutiveSlowWindows then .degraded
      else if health.state = .degraded ∧ score ≤ cfg.recoveryThreshold then .healthy
      else health.state := by
  unfold judge
  split_ifs <;> simp

theorem apply_countedTo (h : health.state = .healthy ∨ health.state = .degraded) (input : StateInput × ℕ) :
    cfg.CountedTo health input (cfg.apply health input.1 input.2) := by
  have hnormal : health.state.normalized = health.state := by
    rcases h with h | h <;> rw [h] <;> rfl
  unfold apply
  rw [hnormal]
  generalize hrecord : ({ health with state := health.state, slowScore := input.1.slowScore } : EndpointHealth) = record
  have hstate : record.state = health.state := by rw [← hrecord]
  have heject : cfg.ejectRow record input = cfg.ejectRow health input := by rw [← hrecord]; rfl
  have hslow : cfg.slowRow record input = cfg.slowRow health input := by rw [← hrecord]; rfl
  have hcount : (cfg.countWindow record input.1.slowScore).consecutiveEjectWindows = cfg.ejectRow record input :=
    cfg.countWindow_eject record input.1.slowScore
  rw [cfg.step_counting (by rw [hstate]; rcases h with h | h <;> simp [h])]
  have hcounters := cfg.judge_counters (cfg.countWindow record input.1.slowScore) input.1.slowScore (input.1.time input.2)
  have hjudged := cfg.judge_state (cfg.countWindow record input.1.slowScore) input.1.slowScore (input.1.time input.2)
  rw [countWindow_state, hcount, countWindow_slow, hstate, heject, hslow] at hcounters hjudged
  exact ⟨hjudged, hcounters.1, hcounters.2⟩

/-! ## Rows of inputs -/

structure CountsRows (fresh : EndpointHealth) (past : List (StateInput × ℕ)) : Prop where
  state : cfg.stateAfter fresh past ∈ [Code.healthy, .degraded, .ejected, .probing]
  eject : cfg.stateAfter fresh past ∈ [Code.healthy, .degraded] →
    CountsStreak (cfg.stateAfter fresh) cfg.ejects past (cfg.applyAll fresh past).consecutiveEjectWindows
  slow : cfg.stateAfter fresh past ∈ [Code.healthy, .degraded] →
    CountsStreak (cfg.stateAfter fresh) cfg.slows past (cfg.applyAll fresh past).consecutiveSlowWindows

inductive Moves : Code → Code → Prop
  | degrade : Moves .healthy .degraded
  | recover : Moves .degraded .healthy
  | ejectHealthy : Moves .healthy .ejected
  | ejectDegraded : Moves .degraded .ejected
  | ejectProbing : Moves .probing .ejected
  | probe : Moves .ejected .probing
  | restore : Moves .probing .healthy

theorem stateAfter_snoc_counting (h : cfg.stateAfter fresh past ∈ [Code.healthy, .degraded]) (input : StateInput × ℕ) :
    cfg.CountedTo (cfg.applyAll fresh past) input (cfg.applyAll fresh (past ++ [input])) := by
  rw [applyAll_snoc]
  exact cfg.apply_countedTo (by simpa [stateAfter] using h) input

theorem stateAfter_snoc_ejected (h : cfg.stateAfter fresh past = .ejected) (input : StateInput × ℕ) :
    cfg.stateAfter fresh (past ++ [input]) =
      if cfg.ejectionOver (cfg.applyAll fresh past) (input.1.time input.2) then .probing else .ejected := by
  unfold stateAfter
  rw [applyAll_snoc]
  exact cfg.apply_state_ejected h input.1 input.2

theorem stateAfter_snoc_probing (h : cfg.stateAfter fresh past = .probing) (input : StateInput × ℕ) :
    cfg.stateAfter fresh (past ++ [input]) =
      if input.1.successRate < cfg.probeSuccessThreshold ∨ cfg.degradedThreshold ≤ input.1.slowScore then .ejected
      else if input.1.slowScore ≤ cfg.recoveryThreshold then .healthy
      else .probing := by
  unfold stateAfter
  rw [applyAll_snoc]
  exact cfg.apply_state_probing h input.1 input.2

theorem moves_snoc (h : cfg.CountsRows fresh past) (input : StateInput × ℕ) :
    cfg.stateAfter fresh (past ++ [input]) = cfg.stateAfter fresh past ∨
      Moves (cfg.stateAfter fresh past) (cfg.stateAfter fresh (past ++ [input])) := by
  have hstate := h.state
  simp only [List.mem_cons, List.not_mem_nil, or_false] at hstate
  rcases hstate with hold | hold | hold | hold
  · have hnew : cfg.stateAfter fresh (past ++ [input]) = _ := (cfg.stateAfter_snoc_counting (by simp [hold]) input).state
    rw [show (cfg.applyAll fresh past).state = Code.healthy from hold] at hnew
    rw [hnew, hold]
    split_ifs
    · exact .inr .ejectHealthy
    · exact .inr .degrade
    · exact .inl rfl
    · exact .inl rfl
  · have hnew : cfg.stateAfter fresh (past ++ [input]) = _ := (cfg.stateAfter_snoc_counting (by simp [hold]) input).state
    rw [show (cfg.applyAll fresh past).state = Code.degraded from hold] at hnew
    rw [hnew, hold]
    split_ifs
    · exact .inr .ejectDegraded
    · exact .inl rfl
    · exact .inr .recover
    · exact .inl rfl
  · rw [cfg.stateAfter_snoc_ejected hold, hold]
    split_ifs
    · exact .inr .probe
    · exact .inl rfl
  · rw [cfg.stateAfter_snoc_probing hold, hold]
    split_ifs
    · exact .inr .ejectProbing
    · exact .inr .restore
    · exact .inl rfl

theorem Moves.mem {old new : Code} (h : Moves old new) : new ∈ [Code.healthy, .degraded, .ejected, .probing] := by
  cases h <;> simp

theorem apply_restored (health : EndpointHealth) (h : health.state = .probing) (input : StateInput × ℕ)
    (hafter : (cfg.apply health input.1 input.2).state = .healthy) :
    (cfg.apply health input.1 input.2).consecutiveEjectWindows = 0 ∧
    (cfg.apply health input.1 input.2).consecutiveSlowWindows = 0 := by
  unfold apply at hafter ⊢
  rw [cfg.step_probing (by simp [h, Code.normalized])] at hafter ⊢
  split_ifs at hafter ⊢ <;> simp_all [transition_counters, Code.normalized]

theorem countsRows_snoc (h : cfg.CountsRows fresh past) (input : StateInput × ℕ) :
    cfg.CountsRows fresh (past ++ [input]) := by
  have hmoves := cfg.moves_snoc h input
  have hcounts : cfg.stateAfter fresh (past ++ [input]) ∈ [Code.healthy, .degraded] →
      CountsStreak (cfg.stateAfter fresh) cfg.ejects (past ++ [input])
        (cfg.applyAll fresh (past ++ [input])).consecutiveEjectWindows ∧
      CountsStreak (cfg.stateAfter fresh) cfg.slows (past ++ [input])
        (cfg.applyAll fresh (past ++ [input])).consecutiveSlowWindows := by
    intro hnew
    by_cases hold : cfg.stateAfter fresh past ∈ [Code.healthy, .degraded]
    · have hcounted := cfg.stateAfter_snoc_counting hold input
      rw [hcounted.eject, hcounted.slow]
      by_cases hsame : (cfg.applyAll fresh (past ++ [input])).state = (cfg.applyAll fresh past).state
      · rw [if_pos hsame, if_pos hsame]
        exact ⟨(h.eject hold).same hsame, (h.slow hold).same hsame⟩
      · rw [if_neg hsame, if_neg hsame]
        exact ⟨countsStreak_moved hsame, countsStreak_moved hsame⟩
    · -- The endpoint was not counting, so it has just come out of probation.
      have hmoved : cfg.stateAfter fresh (past ++ [input]) ≠ cfg.stateAfter fresh past := by
        intro hsame
        exact hold (hsame ▸ hnew)
      have hmove := hmoves.resolve_left hmoved
      have hprobing : cfg.stateAfter fresh past = .probing ∧ cfg.stateAfter fresh (past ++ [input]) = .healthy := by
        revert hmove hold hnew
        generalize cfg.stateAfter fresh past = old
        generalize cfg.stateAfter fresh (past ++ [input]) = new
        intro hnew hold hmove
        cases hmove <;> simp_all
      have hzero := cfg.apply_restored (cfg.applyAll fresh past) hprobing.1 input
        (by rw [← applyAll_snoc]; exact hprobing.2)
      rw [applyAll_snoc, hzero.1, hzero.2]
      exact ⟨countsStreak_moved hmoved, countsStreak_moved hmoved⟩
  refine ⟨?_, fun hnew => (hcounts hnew).1, fun hnew => (hcounts hnew).2⟩
  rcases hmoves with hsame | hmove
  · rw [hsame]
    exact h.state
  · exact hmove.mem

theorem countsRows (h : fresh.Idle) (past : List (StateInput × ℕ)) :
    cfg.CountsRows fresh past := by
  induction past using List.reverseRecOn with
  | nil =>
    refine ⟨by simp [stateAfter, applyAll, h.state], fun _ => ?_, fun _ => ?_⟩
    · rw [show (cfg.applyAll fresh []).consecutiveEjectWindows = 0 from h.eject]
      exact countsStreak_nil _ _
    · rw [show (cfg.applyAll fresh []).consecutiveSlowWindows = 0 from h.slow]
      exact countsStreak_nil _ _
  | append_singleton past input ih => exact cfg.countsRows_snoc ih input

/-! ## Ejections -/

theorem transition_ejectedAt (h : health.state ≠ .ejected) (now : ℕ) :
    (transition health .ejected now).ejectedAt = now := by
  simp [transition, h]

theorem step_ejectedAt {record : EndpointHealth} (hold : record.state ≠ .ejected) (input : StateInput) {now : ℕ}
    (hnew : (cfg.step record input now).state = .ejected) : (cfg.step record input now).ejectedAt = now := by
  by_cases hprobing : record.state = .probing
  · rw [cfg.step_probing hprobing] at hnew ⊢
    split_ifs at hnew ⊢
    · exact transition_ejectedAt hold now
    · simp at hnew
    · exact absurd hnew hold
  · rw [cfg.step_counting ⟨hold, hprobing⟩] at hnew ⊢
    have hstate : (cfg.countWindow record input.slowScore).state ≠ .ejected := by rwa [countWindow_state]
    have hrow := cfg.judge_ejected hstate hnew
    rw [judge, if_pos hrow]
    exact transition_ejectedAt hstate now

theorem ejectedAt_snoc {input : StateInput × ℕ} (hold : cfg.stateAfter fresh past ≠ .ejected)
    (hnew : cfg.stateAfter fresh (past ++ [input]) = .ejected) :
    (cfg.applyAll fresh (past ++ [input])).ejectedAt = input.1.time input.2 := by
  unfold stateAfter at hnew
  rw [applyAll_snoc] at hnew ⊢
  refine cfg.step_ejectedAt ?_ input.1 hnew
  have hnormal : ∀ c : Code, c ≠ .ejected → c.normalized ≠ .ejected := by
    intro c
    cases c <;> simp [Code.normalized]
  exact hnormal _ hold

theorem apply_ejected_ejectedAt (h : health.state = .ejected) (input : StateInput × ℕ) :
    (cfg.apply health input.1 input.2).ejectedAt = health.ejectedAt := by
  unfold apply
  rw [cfg.step_ejected (by simp [h, Code.normalized])]
  split_ifs
  · simp [transition, h, Code.normalized]
  · rfl

theorem ejectedAt_since {before after : List (StateInput × ℕ)} {cause : StateInput × ℕ}
    (hbefore : cfg.stateAfter fresh before ≠ .ejected)
    (hafter : ∀ part, part <+: after → cfg.stateAfter fresh (before ++ cause :: part) = .ejected) :
    (cfg.applyAll fresh (before ++ cause :: after)).ejectedAt = cause.1.time cause.2 := by
  induction after using List.reverseRecOn with
  | nil => exact cfg.ejectedAt_snoc hbefore (hafter [] List.prefix_rfl)
  | append_singleton after input ih =>
    have hejected := hafter after (List.prefix_append _ _)
    have hsplit : before ++ cause :: (after ++ [input]) = before ++ cause :: after ++ [input] := by simp
    rw [hsplit, applyAll_snoc, cfg.apply_ejected_ejectedAt hejected]
    exact ih fun part hpart => hafter part (hpart.trans (List.prefix_append _ _))

structure FollowsRules (state : List (StateInput × ℕ) → Code) (past : List (StateInput × ℕ))
    (input : StateInput × ℕ) : Prop where
  ejects : state past = .healthy ∨ state past = .degraded →
    (state (past ++ [input]) = .ejected ↔ Completes state cfg.ejects cfg.consecutiveWindows.toNat past input)
  degrades : state past = .healthy →
    (state (past ++ [input]) = .degraded ↔
      ¬Completes state cfg.ejects cfg.consecutiveWindows.toNat past input ∧
        Completes state cfg.slows cfg.consecutiveWindows.toNat past input)
  leaves : ∀ before cause after, past = before ++ cause :: after → state before ≠ .ejected →
    (∀ part, part <+: after → state (before ++ cause :: part) = .ejected) →
    state (past ++ [input]) =
      if cfg.ejectionDuration ≤ (input.1.now : ℤ) - cause.1.now then .probing else .ejected
  moves : state (past ++ [input]) = state past ∨ Moves (state past) (state (past ++ [input]))

theorem followsRules (hcfg : cfg.Positive) (hfresh : fresh.Idle) {input : StateInput × ℕ}
    (htimes : ∀ i ∈ past ++ [input], i.1.now ≠ 0) :
    cfg.FollowsRules (cfg.stateAfter fresh) past input := by
  have hrows := cfg.countsRows hfresh past
  have hwindows := hcfg.windows
  have hpos : 0 < cfg.consecutiveWindows.toNat := by omega
  have hcast : ∀ n : ℕ, cfg.consecutiveWindows ≤ n ↔ cfg.consecutiveWindows.toNat ≤ n := by
    intro n
    omega
  have hstate : cfg.stateAfter fresh past ∈ [Code.healthy, .degraded] →
      cfg.stateAfter fresh (past ++ [input]) = _ := fun hold => (cfg.stateAfter_snoc_counting hold input).state
  have heject : cfg.stateAfter fresh past ∈ [Code.healthy, .degraded] →
      (Completes (cfg.stateAfter fresh) cfg.ejects cfg.consecutiveWindows.toNat past input ↔
        cfg.consecutiveWindows ≤ cfg.ejectRow (cfg.applyAll fresh past) input) := by
    intro hold
    rw [(hrows.eject hold).completes_iff hpos, hcast]
    rfl
  have hslow : cfg.stateAfter fresh past ∈ [Code.healthy, .degraded] →
      (Completes (cfg.stateAfter fresh) cfg.slows cfg.consecutiveWindows.toNat past input ↔
        cfg.consecutiveWindows ≤ cfg.slowRow (cfg.applyAll fresh past) input) := by
    intro hold
    rw [(hrows.slow hold).completes_iff hpos, hcast]
    rfl
  refine ⟨fun hold => ?_, fun hold => ?_, ?_, cfg.moves_snoc hrows input⟩
  · have hcounting : cfg.stateAfter fresh past ∈ [Code.healthy, .degraded] := by simpa using hold
    have hnot : (cfg.applyAll fresh past).state ≠ .ejected := by
      rcases hold with hold | hold <;> exact fun h => by simp [stateAfter, h] at hold
    rw [heject hcounting, hstate hcounting]
    split_ifs <;> simp_all
  · have hcounting : cfg.stateAfter fresh past ∈ [Code.healthy, .degraded] := by simp [hold]
    have hhealthy : (cfg.applyAll fresh past).state = .healthy := hold
    rw [heject hcounting, hslow hcounting, hstate hcounting]
    split_ifs <;> simp_all
  · rintro before cause after rfl hbefore hafter
    have hcause : cause.1.now ≠ 0 := htimes cause (by simp)
    have hinput : input.1.now ≠ 0 := htimes input (by simp)
    rw [cfg.stateAfter_snoc_ejected (hafter after List.prefix_rfl), ejectionOver, cfg.ejectedAt_since hbefore hafter]
    simp [StateInput.time, hcause, hinput]

end StateMachineConfig

theorem idle_newEndpointHealth (service instanceID address registrationEpoch : String) :
    (newEndpointHealth service instanceID address registrationEpoch).Idle := ⟨rfl, rfl, rfl⟩

/-- For every configuration and every sequence of inputs with times, a fresh endpoint is ejected,
degraded, put on probation and moved at all exactly as the rows of its inputs ask for. -/
theorem ejection_on_sustained_slowness (config : StateMachineConfig)
    (service instanceID address registrationEpoch : String) (past : List (StateInput × ℕ)) (input : StateInput × ℕ)
    (htimes : ∀ i ∈ past ++ [input], i.1.now ≠ 0) :
    let cfg := defaultStateMachineConfig config
    cfg.FollowsRules (cfg.stateAfter (newEndpointHealth service instanceID address registrationEpoch)) past input :=
  StateMachineConfig.followsRules _ (StateMachineConfig.orElse_positive _ StateMachineConfig.default_positive)
    (idle_newEndpointHealth ..) htimes

theorem third_slow_window_ejects :
    let cfg := defaultStateMachineConfig {}
    let slow : ℕ → StateInput × ℕ := fun now => ({ now, slowScore := 3, successRate := 1 }, 0)
    let state := cfg.stateAfter (newEndpointHealth "svc" "a" "10.0.0.1:80" "e")
    state [slow 1, slow 2] = .healthy ∧ state [slow 1, slow 2, slow 3] = .ejected ∧
      Completes state cfg.ejects 3 [slow 1, slow 2] (slow 3) := by
  intro cfg slow state
  have hhealthy : state [slow 1, slow 2] = .healthy := by decide +kernel
  have hejected : state [slow 1, slow 2, slow 3] = .ejected := by decide +kernel
  have hrules := ejection_on_sustained_slowness {} "svc" "a" "10.0.0.1:80" "e" [slow 1, slow 2] (slow 3) (by simp [slow])
  exact ⟨hhealthy, hejected, (hrules.ejects (.inl hhealthy)).mp hejected⟩

end AegisMesh.Fault

import Mathlib.Data.Rat.Defs
import Mathlib.Algebra.Order.Ring.Rat
import Mathlib.Tactic.NormNum
import AegisMesh.Status

/-!
# The endpoint state machine (`pkg/fault/state_machine.go`)

Times are instants in nanoseconds with `0` for Go's zero time, durations are signed
nanoseconds, scores and rates are rationals.
-/

namespace AegisMesh.Fault

structure StateMachineConfig where
  degradedThreshold : ℚ := 0
  ejectThreshold : ℚ := 0
  consecutiveWindows : ℤ := 0
  ejectionDuration : ℤ := 0
  recoveryThreshold : ℚ := 0
  probeSuccessThreshold : ℚ := 0
deriving DecidableEq

def StateMachineConfig.default : StateMachineConfig where
  degradedThreshold := 3 / 2
  ejectThreshold := 5 / 2
  consecutiveWindows := 3
  ejectionDuration := 30 * 1000000000
  recoveryThreshold := 1
  probeSuccessThreshold := 95 / 100

/-- The value if it is set, the fallback otherwise. Unset is anything not above zero. -/
def orElse {α : Type} [LE α] [Zero α] [DecidableRel (· ≤ · : α → α → Prop)] (value fallback : α) : α :=
  if value ≤ 0 then fallback else value

def StateMachineConfig.orElse (cfg fallback : StateMachineConfig) : StateMachineConfig where
  degradedThreshold := Fault.orElse cfg.degradedThreshold fallback.degradedThreshold
  ejectThreshold := Fault.orElse cfg.ejectThreshold fallback.ejectThreshold
  consecutiveWindows := Fault.orElse cfg.consecutiveWindows fallback.consecutiveWindows
  ejectionDuration := Fault.orElse cfg.ejectionDuration fallback.ejectionDuration
  recoveryThreshold := Fault.orElse cfg.recoveryThreshold fallback.recoveryThreshold
  probeSuccessThreshold := Fault.orElse cfg.probeSuccessThreshold fallback.probeSuccessThreshold

def defaultStateMachineConfig (cfg : StateMachineConfig) : StateMachineConfig := cfg.orElse .default

def resolveStateMachineConfig (base override : StateMachineConfig) : StateMachineConfig :=
  override.orElse (defaultStateMachineConfig base)

structure StateInput where
  now : ℕ
  slowScore : ℚ
  successRate : ℚ

def StateInput.time (input : StateInput) (wall : ℕ) : ℕ := if input.now = 0 then wall else input.now

structure EndpointHealth where
  service : String := ""
  instanceID : String := ""
  address : String := ""
  registrationEpoch : String := ""
  state : Code := .unspecified
  slowScore : ℚ := 0
  consecutiveSlowWindows : ℕ := 0
  consecutiveEjectWindows : ℕ := 0
  lastTransitionAt : ℕ := 0
  ejectedAt : ℕ := 0
  updatedAt : ℕ := 0
deriving DecidableEq

def EndpointHealth.owner (health : EndpointHealth) : String × String × String × String :=
  (health.service, health.instanceID, health.address, health.registrationEpoch)

def newEndpointHealth (service instanceID address registrationEpoch : String) : EndpointHealth where
  service := service
  instanceID := instanceID
  address := address
  registrationEpoch := registrationEpoch
  state := .healthy

structure EndpointHealth.Idle (health : EndpointHealth) : Prop where
  state : health.state = .healthy
  slow : health.consecutiveSlowWindows = 0
  eject : health.consecutiveEjectWindows = 0

theorem EndpointHealth.Idle.counting {health : EndpointHealth} (h : health.Idle) : health.state.counting := by
  simp [Code.counting_iff, h.state]

/-! ## Apply -/

def transition (health : EndpointHealth) (next : Code) (now : ℕ) : EndpointHealth :=
  if health.state = next then health
  else
    { health with
      state := next
      lastTransitionAt := now
      consecutiveSlowWindows := 0
      consecutiveEjectWindows := 0
      ejectedAt := if next = .ejected then now else if next = .healthy then 0 else health.ejectedAt }

namespace StateMachineConfig

variable (cfg : StateMachineConfig) {health : EndpointHealth}

def ejectionOver (health : EndpointHealth) (now : ℕ) : Bool :=
  health.ejectedAt ≠ 0 && cfg.ejectionDuration ≤ (now : ℤ) - health.ejectedAt

def countWindow (health : EndpointHealth) (score : ℚ) : EndpointHealth :=
  if cfg.ejectThreshold ≤ score then
    { health with
      consecutiveEjectWindows := health.consecutiveEjectWindows + 1
      consecutiveSlowWindows := health.consecutiveSlowWindows + 1 }
  else
    { health with
      consecutiveEjectWindows := 0
      consecutiveSlowWindows :=
        if cfg.degradedThreshold ≤ score then health.consecutiveSlowWindows + 1 else 0 }

def judge (health : EndpointHealth) (score : ℚ) (now : ℕ) : EndpointHealth :=
  if cfg.consecutiveWindows ≤ health.consecutiveEjectWindows then transition health .ejected now
  else if cfg.consecutiveWindows ≤ health.consecutiveSlowWindows then transition health .degraded now
  else if health.state = .degraded ∧ score ≤ cfg.recoveryThreshold then transition health .healthy now
  else health

def step (health : EndpointHealth) (input : StateInput) (now : ℕ) : EndpointHealth :=
  match health.state with
  | .ejected => if cfg.ejectionOver health now then transition health .probing now else health
  | .probing =>
    if input.successRate < cfg.probeSuccessThreshold ∨ cfg.degradedThreshold ≤ input.slowScore then
      transition health .ejected now
    else if input.slowScore ≤ cfg.recoveryThreshold then transition health .healthy now
    else health
  | _ => cfg.judge (cfg.countWindow health input.slowScore) input.slowScore now

/-- `Apply`. `wall` is `time.Now()`, read when the input has no time. -/
def apply (health : EndpointHealth) (input : StateInput) (wall : ℕ) : EndpointHealth :=
  cfg.step { health with state := health.state.normalized, slowScore := input.slowScore } input (input.time wall)

/-! ## What a configuration and a step can do -/

structure Positive (cfg : StateMachineConfig) : Prop where
  degraded : 0 < cfg.degradedThreshold
  eject : 0 < cfg.ejectThreshold
  windows : 0 < cfg.consecutiveWindows
  ejection : 0 < cfg.ejectionDuration
  recovery : 0 < cfg.recoveryThreshold
  probe : 0 < cfg.probeSuccessThreshold

theorem orElse_pos {α : Type} [LinearOrder α] [Zero α] {value fallback : α} (h : 0 < fallback) :
    0 < Fault.orElse value fallback := by
  unfold Fault.orElse
  split
  · exact h
  · rename_i hv
    exact not_le.mp hv

theorem default_positive : StateMachineConfig.default.Positive := by
  constructor <;> norm_num [StateMachineConfig.default]

theorem orElse_positive (cfg : StateMachineConfig) {fallback : StateMachineConfig} (h : fallback.Positive) :
    (cfg.orElse fallback).Positive where
  degraded := orElse_pos h.degraded
  eject := orElse_pos h.eject
  windows := orElse_pos h.windows
  ejection := orElse_pos h.ejection
  recovery := orElse_pos h.recovery
  probe := orElse_pos h.probe

theorem orElse_of_positive {cfg : StateMachineConfig} (h : cfg.Positive) (fallback : StateMachineConfig) :
    cfg.orElse fallback = cfg := by
  obtain ⟨hd, he, hw, hj, hr, hp⟩ := h
  simp [StateMachineConfig.orElse, Fault.orElse, not_le.mpr hd, not_le.mpr he, not_le.mpr hw, not_le.mpr hj,
    not_le.mpr hr, not_le.mpr hp]

variable (health)

section Transitions

variable (next : Code) (now : ℕ)

@[simp]
theorem transition_owner : (transition health next now).owner = health.owner := by
  unfold transition
  split <;> rfl

@[simp]
theorem transition_updatedAt : (transition health next now).updatedAt = health.updatedAt := by
  unfold transition
  split <;> rfl

@[simp]
theorem transition_state : (transition health next now).state = next := by
  unfold transition
  split <;> simp_all

theorem transition_slow_le : (transition health next now).consecutiveSlowWindows ≤ health.consecutiveSlowWindows := by
  unfold transition
  split <;> simp

theorem transition_eject_le :
    (transition health next now).consecutiveEjectWindows ≤ health.consecutiveEjectWindows := by
  unfold transition
  split <;> simp

@[simp]
theorem transition_slowScore : (transition health next now).slowScore = health.slowScore := by
  unfold transition
  split <;> rfl

end Transitions

@[simp]
theorem countWindow_owner (score : ℚ) :
    (cfg.countWindow health score).owner = health.owner := by
  unfold countWindow
  split <;> rfl

@[simp]
theorem judge_owner (score : ℚ) (now : ℕ) :
    (cfg.judge health score now).owner = health.owner := by
  unfold judge
  split_ifs <;> simp

@[simp]
theorem step_owner (input : StateInput) (now : ℕ) :
    (cfg.step health input now).owner = health.owner := by
  unfold step
  split
  · split_ifs <;> simp
  · split_ifs <;> simp
  · simp

@[simp]
theorem apply_owner (input : StateInput) (wall : ℕ) :
    (cfg.apply health input wall).owner = health.owner :=
  cfg.step_owner _ _ _

theorem apply_updatedAt (input : StateInput) (wall : ℕ) :
    (cfg.apply health input wall).updatedAt = health.updatedAt := by
  unfold apply step judge countWindow
  split <;> split_ifs <;> simp

theorem countWindow_le (score : ℚ) :
    (cfg.countWindow health score).consecutiveSlowWindows ≤ health.consecutiveSlowWindows + 1 ∧
    (cfg.countWindow health score).consecutiveEjectWindows ≤ health.consecutiveEjectWindows + 1 := by
  unfold countWindow
  split_ifs <;> simp

theorem judge_le (score : ℚ) (now : ℕ) :
    (cfg.judge health score now).consecutiveSlowWindows ≤ health.consecutiveSlowWindows ∧
    (cfg.judge health score now).consecutiveEjectWindows ≤ health.consecutiveEjectWindows := by
  unfold judge
  split_ifs <;> simp [transition_slow_le, transition_eject_le]

theorem step_le (input : StateInput) (now : ℕ) :
    (cfg.step health input now).consecutiveSlowWindows ≤ health.consecutiveSlowWindows + 1 ∧
    (cfg.step health input now).consecutiveEjectWindows ≤ health.consecutiveEjectWindows + 1 := by
  have htransition : ∀ next, (transition health next now).consecutiveSlowWindows ≤ health.consecutiveSlowWindows + 1 ∧
      (transition health next now).consecutiveEjectWindows ≤ health.consecutiveEjectWindows + 1 := by
    intro next
    have h₁ := transition_slow_le health next now
    have h₂ := transition_eject_le health next now
    omega
  unfold step
  split
  · split_ifs
    · exact htransition _
    · omega
  · split_ifs
    · exact htransition _
    · exact htransition _
    · omega
  · have hcount := cfg.countWindow_le health input.slowScore
    have hjudge := cfg.judge_le (cfg.countWindow health input.slowScore) input.slowScore now
    omega

theorem apply_le (input : StateInput) (wall : ℕ) :
    (cfg.apply health input wall).consecutiveSlowWindows ≤ health.consecutiveSlowWindows + 1 ∧
    (cfg.apply health input wall).consecutiveEjectWindows ≤ health.consecutiveEjectWindows + 1 :=
  cfg.step_le _ _ _

/-! ## One step by the state it starts in -/

variable {health}

theorem step_ejected (h : health.state = .ejected) (input : StateInput) (now : ℕ) :
    cfg.step health input now = if cfg.ejectionOver health now then transition health .probing now else health := by
  unfold step
  rw [h]

theorem step_probing (h : health.state = .probing) (input : StateInput) (now : ℕ) :
    cfg.step health input now =
      if input.successRate < cfg.probeSuccessThreshold ∨ cfg.degradedThreshold ≤ input.slowScore then
        transition health .ejected now
      else if input.slowScore ≤ cfg.recoveryThreshold then transition health .healthy now
      else health := by
  unfold step
  rw [h]

theorem step_counting (h : health.state ≠ .ejected ∧ health.state ≠ .probing) (input : StateInput) (now : ℕ) :
    cfg.step health input now = cfg.judge (cfg.countWindow health input.slowScore) input.slowScore now := by
  unfold step
  split
  · rename_i hstate; exact absurd hstate h.1
  · rename_i hstate; exact absurd hstate h.2
  · rfl

theorem apply_state_ejected (h : health.state = .ejected) (input : StateInput) (wall : ℕ) :
    (cfg.apply health input wall).state =
      if cfg.ejectionOver health (input.time wall) then .probing else .ejected := by
  unfold apply
  rw [cfg.step_ejected (by simp [h, Code.normalized])]
  change (if cfg.ejectionOver health _ then _ else _ : EndpointHealth).state = _
  split_ifs
  · exact transition_state _ _ _
  · simp [h, Code.normalized]

theorem apply_state_probing (h : health.state = .probing) (input : StateInput) (wall : ℕ) :
    (cfg.apply health input wall).state =
      if input.successRate < cfg.probeSuccessThreshold ∨ cfg.degradedThreshold ≤ input.slowScore then .ejected
      else if input.slowScore ≤ cfg.recoveryThreshold then .healthy
      else .probing := by
  unfold apply
  rw [cfg.step_probing (by simp [h, Code.normalized])]
  split_ifs
  · exact transition_state _ _ _
  · exact transition_state _ _ _
  · simp [h, Code.normalized]

/-- What one counted window does: an endpoint is ejected by a window at the threshold that
completes the row, or not at all. -/
structure Counted (health : EndpointHealth) (score : ℚ) (after : EndpointHealth) : Prop where
  ejected : after.state = .ejected →
    cfg.ejectThreshold ≤ score ∧ cfg.consecutiveWindows ≤ health.consecutiveEjectWindows + 1
  notProbing : after.state ≠ .probing
  row : after.consecutiveEjectWindows ≤ if cfg.ejectThreshold ≤ score then health.consecutiveEjectWindows + 1 else 0

theorem countWindow_state (health : EndpointHealth) (score : ℚ) :
    (cfg.countWindow health score).state = health.state := by
  unfold countWindow
  split <;> rfl

theorem countWindow_eject (health : EndpointHealth) (score : ℚ) :
    (cfg.countWindow health score).consecutiveEjectWindows =
      if cfg.ejectThreshold ≤ score then health.consecutiveEjectWindows + 1 else 0 := by
  unfold countWindow
  split <;> rfl

theorem judge_ejected (h : health.state ≠ .ejected) {score : ℚ} {now : ℕ}
    (hafter : (cfg.judge health score now).state = .ejected) :
    cfg.consecutiveWindows ≤ health.consecutiveEjectWindows := by
  unfold judge at hafter
  split_ifs at hafter <;> simp_all

theorem judge_not_probing (h : health.state ≠ .probing) (score : ℚ) (now : ℕ) :
    (cfg.judge health score now).state ≠ .probing := by
  unfold judge
  split_ifs <;> simp [h]

theorem apply_counted (hcfg : cfg.Positive) (h : health.state.counting) (input : StateInput) (wall : ℕ) :
    cfg.Counted health input.slowScore (cfg.apply health input wall) := by
  unfold apply
  generalize hrecord : ({ health with state := health.state.normalized, slowScore := input.slowScore } :
    EndpointHealth) = record
  have hstate : record.state ≠ .ejected ∧ record.state ≠ .probing := by
    rw [← hrecord]
    exact h
  rw [cfg.step_counting hstate]
  have heject : record.consecutiveEjectWindows = health.consecutiveEjectWindows := by rw [← hrecord]
  have hcount := cfg.countWindow_eject record input.slowScore
  rw [heject] at hcount
  refine ⟨fun hafter => ?_, ?_, ?_⟩
  · have hrow := cfg.judge_ejected (by rw [countWindow_state]; exact hstate.1) hafter
    have hpos := hcfg.windows
    rw [hcount] at hrow
    split_ifs at hrow with hscore
    · exact ⟨hscore, by exact_mod_cast hrow⟩
    · omega
  · exact cfg.judge_not_probing (by rw [countWindow_state]; exact hstate.2) _ _
  · rw [← hcount]
    exact (cfg.judge_le _ _ _).2

/-! ## Idle endpoints -/

theorem apply_idle (hcfg : cfg.Positive) (h : health.Idle) {input : StateInput} (hscore : input.slowScore ≤ 0)
    (wall : ℕ) : (cfg.apply health input wall).Idle := by
  have hw := hcfg.windows
  have hd := not_le.mpr (lt_of_le_of_lt hscore hcfg.degraded)
  have he := not_le.mpr (lt_of_le_of_lt hscore hcfg.eject)
  unfold apply
  rw [cfg.step_counting (by simp [h.state, Code.normalized])]
  constructor <;> simp [judge, countWindow, hd, he, h.state, Code.normalized, not_le.mpr hw]

theorem apply_idle_ejected (h : health.Idle) {input : StateInput} (hwindows : cfg.consecutiveWindows = 1)
    (hscore : cfg.ejectThreshold ≤ input.slowScore) (wall : ℕ) :
    (cfg.apply health input wall).state = .ejected := by
  unfold apply
  rw [cfg.step_counting (by simp [h.state, Code.normalized])]
  simp [judge, countWindow, hscore, hwindows]

end StateMachineConfig

end AegisMesh.Fault

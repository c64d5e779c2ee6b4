import AegisMesh.Fault.Manager
import AegisMesh.Lib.Runs

/-!
# Reports and windows

The loop of `Update`, seen from one endpoint: every sample under its key is one more
turn of the state machine, all of them with the endpoint's one score.
-/

open Lib

namespace AegisMesh.Fault

def EndpointSample.under (key : String) (sample : EndpointSample) : Bool :=
  sample.service ≠ "" && sample.instanceID ≠ "" && scoreKey sample.service sample.instanceID = key

def samplesUnder (key : String) (samples : List EndpointSample) : List EndpointSample :=
  samples.filter (EndpointSample.under key)

def ScoreCalculator.scoreOf (calculator : ScoreCalculator) (samples : List EndpointSample) (key : String) : ℚ :=
  (((calculator.calculate samples).lookup key).getD {}).score

namespace HealthManager

variable (m : HealthManager) {sample : EndpointSample} {samples : List EndpointSample} {service instanceID : String}

def movesFrom (scores : Dict String EndpointScore) (now wall : ℕ) (key : String) :
    Dict String EndpointHealth × List String → List EndpointSample → ℕ
  | _, [] => 0
  | st, sample :: rest =>
    let before := (st.1.lookup key).getD {}
    (if sample.under key ∧ (ownedBy before sample).state.normalized ≠ (m.scored scores now wall before sample).state
      then 1 else 0) +
      movesFrom scores now wall key (m.updateOne scores now wall st sample) rest

def moves (samples : List EndpointSample) (now wall : ℕ) (service instanceID : String) : ℕ :=
  m.movesFrom (m.calculator.calculate samples) now wall (scoreKey service instanceID) (m.health, []) samples

def OneWindow (samples : List EndpointSample) (now wall : ℕ) (service instanceID : String) : Prop :=
  let before := (m.get service instanceID).getD {}
  let after := ((m.update samples now wall).get service instanceID).getD {}
  after.consecutiveSlowWindows ≤ before.consecutiveSlowWindows + 1 ∧
  after.consecutiveEjectWindows ≤ before.consecutiveEjectWindows + 1 ∧
  m.moves samples now wall service instanceID ≤ 1

instance (samples : List EndpointSample) (now wall : ℕ) (service instanceID : String) :
    Decidable (m.OneWindow samples now wall service instanceID) := by
  unfold OneWindow; infer_instance

/-! ## One endpoint's turns -/

def window (score : ℚ) (now wall : ℕ) (before : EndpointHealth) (sample : EndpointSample) : EndpointHealth :=
  let health := ownedBy before sample
  (m.stateMachineFor health.service).apply health { now, slowScore := score, successRate := successRate sample } wall

def turn (score : ℚ) (now wall : ℕ) (record : Option EndpointHealth) (sample : EndpointSample) : EndpointHealth :=
  let before := record.getD {}
  let health := m.window score now wall before sample
  if record.isNone || !endpointHealthEqualIgnoringUpdatedAt before health then { health with updatedAt := now }
  else health

def moved (score : ℚ) (now wall : ℕ) (before : EndpointHealth) (sample : EndpointSample) : Prop :=
  (ownedBy before sample).state.normalized ≠ (m.window score now wall before sample).state

instance (score : ℚ) (now wall : ℕ) (before : EndpointHealth) (sample : EndpointSample) :
    Decidable (m.moved score now wall before sample) := by
  unfold moved; infer_instance

def ownMoves (score : ℚ) (now wall : ℕ) : Option EndpointHealth → List EndpointSample → ℕ
  | _, [] => 0
  | record, sample :: rest =>
    (if m.moved score now wall (record.getD {}) sample then 1 else 0) +
      ownMoves score now wall (some (m.turn score now wall record sample)) rest

theorem scored_under {key : String} (h : sample.under key) (scores : Dict String EndpointScore) (now wall : ℕ)
    (before : EndpointHealth) :
    m.scored scores now wall before sample =
      m.window ((scores.lookup key).getD {}).score now wall before sample := by
  simp only [EndpointSample.under, Bool.and_eq_true, decide_eq_true_eq] at h
  obtain ⟨_, rfl⟩ := h
  rfl

theorem lookup_updateOne (scores : Dict String EndpointScore) (now wall : ℕ)
    (st : Dict String EndpointHealth × List String) (sample : EndpointSample) (key : String) :
    (m.updateOne scores now wall st sample).1.lookup key =
      if sample.under key then
        some (m.turn ((scores.lookup key).getD {}).score now wall (st.1.lookup key) sample)
      else st.1.lookup key := by
  by_cases hnamed : sample.service = "" ∨ sample.instanceID = ""
  · have hunder : sample.under key = false := by
      rcases hnamed with h | h <;> simp [EndpointSample.under, h]
    simp [updateOne, hnamed, hunder]
  obtain ⟨hservice, hid⟩ := not_or.mp hnamed
  by_cases hkey : scoreKey sample.service sample.instanceID = key
  · have hunder : sample.under key := by simp [EndpointSample.under, hservice, hid, hkey]
    subst hkey
    simp only [updateOne, if_neg hnamed, m.scored_under hunder, hunder, if_true, turn]
    split <;> exact AList.lookup_insert _
  · have hunder : sample.under key = false := by simp [EndpointSample.under, hkey]
    simp only [updateOne, if_neg hnamed, hunder]
    split <;> simp [Ne.symm hkey]

theorem lookup_updates (scores : Dict String EndpointScore) (now wall : ℕ) (key : String) (samples : List EndpointSample)
    (st : Dict String EndpointHealth × List String) :
    (samples.foldl (m.updateOne scores now wall) st).1.lookup key =
      (samplesUnder key samples).foldl
        (fun record sample => some (m.turn ((scores.lookup key).getD {}).score now wall record sample))
        (st.1.lookup key) := by
  induction samples generalizing st with
  | nil => rfl
  | cons sample rest ih =>
    rw [List.foldl_cons, ih, m.lookup_updateOne]
    by_cases h : sample.under key
    · simp [samplesUnder, h]
    · simp [samplesUnder, h]

theorem movesFrom_eq (scores : Dict String EndpointScore) (now wall : ℕ) (key : String) (samples : List EndpointSample)
    (st : Dict String EndpointHealth × List String) :
    m.movesFrom scores now wall key st samples =
      m.ownMoves ((scores.lookup key).getD {}).score now wall (st.1.lookup key) (samplesUnder key samples) := by
  induction samples generalizing st with
  | nil => rfl
  | cons sample rest ih =>
    simp only [movesFrom]
    rw [ih, m.lookup_updateOne]
    by_cases h : sample.under key
    · simp [samplesUnder, h, ownMoves, moved, m.scored_under h]
    · simp [samplesUnder, h]

@[simp]
theorem bumpIfChanged_health (changedServices : List String) :
    (m.bumpIfChanged changedServices).health = m.health := by
  unfold bumpIfChanged
  split <;> rfl

theorem lookup_update (samples : List EndpointSample) (now wall : ℕ) (key : String) :
    (m.update samples now wall).health.lookup key =
      (samplesUnder key samples).foldl
        (fun record sample => some (m.turn (m.calculator.scoreOf samples key) now wall record sample))
        (m.health.lookup key) := by
  simp only [update, bumpIfChanged_health]
  exact m.lookup_updates _ now wall _ samples _

theorem get_update (samples : List EndpointSample) (now wall : ℕ) (service instanceID : String) :
    (m.update samples now wall).get service instanceID =
      (samplesUnder (scoreKey service instanceID) samples).foldl
        (fun record sample =>
          some (m.turn (m.calculator.scoreOf samples (scoreKey service instanceID)) now wall record sample))
        (m.get service instanceID) :=
  m.lookup_update samples now wall _

theorem moves_eq (samples : List EndpointSample) (now wall : ℕ) (service instanceID : String) :
    m.moves samples now wall service instanceID =
      m.ownMoves (m.calculator.scoreOf samples (scoreKey service instanceID)) now wall (m.get service instanceID)
        (samplesUnder (scoreKey service instanceID) samples) :=
  m.movesFrom_eq _ now wall _ samples _

/-! ## What one turn can do -/

theorem stateMachineFor_positive (service : String) : (m.stateMachineFor service).Positive :=
  StateMachineConfig.orElse_positive _ StateMachineConfig.default_positive

theorem turn_eq (score : ℚ) (now wall : ℕ) (record : Option EndpointHealth) (sample : EndpointSample) :
    ∃ t, m.turn score now wall record sample =
      { m.window score now wall (record.getD {}) sample with updatedAt := t } := by
  simp only [turn]
  split
  · exact ⟨now, rfl⟩
  · exact ⟨_, rfl⟩

theorem get_update_unsampled (h : samplesUnder (scoreKey service instanceID) samples = []) (now wall : ℕ) :
    (m.update samples now wall).get service instanceID = m.get service instanceID := by
  rw [get_update, h, List.foldl_nil]

theorem get_update_isSome (h : samplesUnder (scoreKey service instanceID) samples ≠ []) (now wall : ℕ) :
    ((m.update samples now wall).get service instanceID).isSome := by
  rw [get_update, ← List.dropLast_append_getLast h, List.foldl_append]
  rfl

theorem window_owner (score : ℚ) (now wall : ℕ) (before : EndpointHealth) (sample : EndpointSample) :
    (m.window score now wall before sample).owner = (ownedBy before sample).owner :=
  StateMachineConfig.apply_owner _ _ _ _

theorem turn_owner (score : ℚ) (now wall : ℕ) (record : Option EndpointHealth) (sample : EndpointSample) :
    (m.turn score now wall record sample).owner = (ownedBy (record.getD {}) sample).owner := by
  obtain ⟨t, ht⟩ := m.turn_eq score now wall record sample
  rw [ht, ← m.window_owner score now wall]
  rfl

theorem get_update_owner {samples front : List EndpointSample}
    (h : samplesUnder (scoreKey service instanceID) samples = front ++ [sample]) (now wall : ℕ) :
    ∃ before health, (m.update samples now wall).get service instanceID = some health ∧
      health.owner = (ownedBy before sample).owner := by
  rw [get_update, h, List.foldl_append]
  exact ⟨_, _, rfl, m.turn_owner _ _ _ _ _⟩

theorem get_update_names (hheld : ∀ health, m.get service instanceID = some health →
      health.service = service ∧ health.instanceID = instanceID)
    (hsamples : ∀ sample ∈ samplesUnder (scoreKey service instanceID) samples,
      sample.service = service ∧ sample.instanceID = instanceID) (now wall : ℕ) {health : EndpointHealth}
    (h : (m.update samples now wall).get service instanceID = some health) :
    health.service = service ∧ health.instanceID = instanceID := by
  rw [get_update] at h
  refine run_invariant_of (I := fun record : Option EndpointHealth => ∀ health, record = some health →
    health.service = service ∧ health.instanceID = instanceID) (fun record sample hrecord hsample after hafter => ?_)
    hheld hsamples health h
  have howner := m.turn_owner (m.calculator.scoreOf samples (scoreKey service instanceID)) now wall record sample
  rw [Option.some.inj hafter] at howner
  simp only [EndpointHealth.owner, Prod.mk.injEq] at howner
  obtain ⟨hservice, hid⟩ := ownedBy_own hrecord hsample
  exact ⟨howner.1.trans hservice, howner.2.1.trans hid⟩

theorem ownedBy_le (before : EndpointHealth) (sample : EndpointSample) :
    (ownedBy before sample).consecutiveSlowWindows ≤ before.consecutiveSlowWindows ∧
    (ownedBy before sample).consecutiveEjectWindows ≤ before.consecutiveEjectWindows := by
  unfold ownedBy
  split <;> simp [newEndpointHealth]

theorem ownedBy_idle {before : EndpointHealth} (h : before.Idle) (sample : EndpointSample) :
    (ownedBy before sample).Idle := by
  unfold ownedBy
  split
  · exact ⟨rfl, rfl, rfl⟩
  · exact ⟨h.state, h.slow, h.eject⟩

theorem turn_le (score : ℚ) (now wall : ℕ) (record : Option EndpointHealth) (sample : EndpointSample) :
    (m.turn score now wall record sample).consecutiveSlowWindows ≤ (record.getD {}).consecutiveSlowWindows + 1 ∧
    (m.turn score now wall record sample).consecutiveEjectWindows ≤ (record.getD {}).consecutiveEjectWindows + 1 := by
  obtain ⟨t, ht⟩ := m.turn_eq score now wall record sample
  have howned := ownedBy_le (record.getD {}) sample
  have happly := (m.stateMachineFor (ownedBy (record.getD {}) sample).service).apply_le
    (ownedBy (record.getD {}) sample) { now, slowScore := score, successRate := successRate sample } wall
  rw [ht]
  simp only [window]
  omega

theorem turn_idle {score : ℚ} (hscore : score ≤ 0) (now wall : ℕ) (record : Option EndpointHealth)
    (h : (ownedBy (record.getD {}) sample).Idle) :
    (m.turn score now wall record sample).Idle ∧ ¬ m.moved score now wall (record.getD {}) sample := by
  obtain ⟨t, ht⟩ := m.turn_eq score now wall record sample
  have hidle : (m.window score now wall (record.getD {}) sample).Idle :=
    StateMachineConfig.apply_idle _ (m.stateMachineFor_positive _) h hscore wall
  rw [ht]
  refine ⟨⟨hidle.state, hidle.slow, hidle.eject⟩, ?_⟩
  simp [moved, hidle.state, h.state, Code.normalized]

theorem turns_idle {score : ℚ} (hscore : score ≤ 0) (now wall : ℕ) (samples : List EndpointSample)
    {health : EndpointHealth} (h : health.Idle) :
    (∃ after : EndpointHealth, after.Idle ∧
      samples.foldl (fun record sample => some (m.turn score now wall record sample)) (some health) = some after) ∧
    m.ownMoves score now wall (some health) samples = 0 := by
  induction samples generalizing health with
  | nil => exact ⟨⟨health, h, rfl⟩, rfl⟩
  | cons sample rest ih =>
    obtain ⟨hturn, hmoved⟩ := m.turn_idle hscore now wall (some health) (ownedBy_idle h sample)
    obtain ⟨hafter, hmoves⟩ := ih hturn
    refine ⟨hafter, ?_⟩
    rw [ownMoves, if_neg hmoved, hmoves]

/-! ## Reports that are one window -/

end HealthManager

def EndpointSample.replaces (second first : EndpointSample) : Prop :=
  (first.address ≠ "" ∧ second.address ≠ "" ∧ first.address ≠ second.address) ∨
  (first.registrationEpoch ≠ "" ∧ second.registrationEpoch ≠ "" ∧
    first.registrationEpoch ≠ second.registrationEpoch)

/-- An endpoint's samples in a report make one window: there is at most one of them, or they
come from two owners and carry no score. -/
def SingleWindow (score : ℚ) : List EndpointSample → Prop
  | first :: second :: _ => score ≤ 0 ∧ second.replaces first
  | _ => True

namespace HealthManager

variable (m : HealthManager) {first second : EndpointSample} {samples rest : List EndpointSample}
  {service instanceID : String}

theorem ownedBy_replaces (h : second.replaces first) {before health : EndpointHealth}
    (howner : health.owner = (ownedBy before first).owner) :
    (ownedBy health second).Idle := by
  simp only [EndpointHealth.owner, Prod.mk.injEq] at howner
  obtain ⟨_, _, haddress, hepoch⟩ := howner
  have hchanged : endpointAddressChanged health second.address ∨
      endpointRegistrationEpochChanged health second.registrationEpoch := by
    rcases h with ⟨hfirst, hsecond, hne⟩ | ⟨hfirst, hsecond, hne⟩
    · left
      simp [endpointAddressChanged, haddress, ownedBy, hfirst, hsecond, hne]
    · right
      simp [endpointRegistrationEpochChanged, hepoch, ownedBy, hfirst, hsecond, hne]
  unfold ownedBy
  rw [if_pos (Or.inr hchanged)]
  exact ⟨rfl, rfl, rfl⟩

theorem oneWindow_of_single (h : SingleWindow (m.calculator.scoreOf samples (scoreKey service instanceID))
      (samplesUnder (scoreKey service instanceID) samples)) (now wall : ℕ) :
    m.OneWindow samples now wall service instanceID := by
  unfold OneWindow
  rw [m.get_update, m.moves_eq]
  generalize m.calculator.scoreOf samples (scoreKey service instanceID) = score at h ⊢
  generalize m.get service instanceID = record
  generalize samplesUnder (scoreKey service instanceID) samples = own at h ⊢
  rcases own with _ | ⟨first, _ | ⟨second, rest⟩⟩
  · simp [ownMoves]
  · have hle := m.turn_le score now wall record first
    refine ⟨hle.1, hle.2, ?_⟩
    simp only [ownMoves]
    split <;> simp
  · obtain ⟨hscore, hreplaces⟩ := h
    obtain ⟨t, ht⟩ := m.turn_eq score now wall record first
    have howner : (m.turn score now wall record first).owner = (ownedBy (record.getD {}) first).owner := by
      rw [ht, ← m.window_owner score now wall]
      rfl
    obtain ⟨hidle, hmoved⟩ := m.turn_idle hscore now wall (some (m.turn score now wall record first))
      (ownedBy_replaces hreplaces howner)
    rw [Option.getD_some] at hmoved
    obtain ⟨⟨after, hafter, hfold⟩, hmoves⟩ := m.turns_idle hscore now wall rest hidle
    simp only [List.foldl_cons, hfold, ownMoves, if_neg hmoved, hmoves, Option.getD_some, hafter.slow, hafter.eject]
    refine ⟨Nat.zero_le _, Nat.zero_le _, ?_⟩
    split <;> simp

/-! ## Reports that are not -/

def startWith (calculator : ScoreCalculator) (cfg : StateMachineConfig) (key : String) (health : EndpointHealth) :
    HealthManager where
  calculator := calculator
  baseStateMachine := cfg
  health := AList.singleton key health

theorem stateMachineFor_startWith {cfg : StateMachineConfig} (hcfg : cfg.Positive) (calculator : ScoreCalculator)
    (key : String) (health : EndpointHealth) (service : String) :
    (startWith calculator cfg key health).stateMachineFor service = cfg := by
  have hunset : ∀ fallback : StateMachineConfig, ({} : StateMachineConfig).orElse fallback = fallback := by
    intro fallback
    simp [StateMachineConfig.orElse, Fault.orElse]
  simp [stateMachineFor, stateMachineConfig, startWith, resolveStateMachineConfig, defaultStateMachineConfig,
    hunset, StateMachineConfig.orElse_of_positive hcfg]

theorem not_oneWindow_of_moved {now wall : ℕ}
    (hown : samplesUnder (scoreKey service instanceID) samples = first :: second :: rest)
    (hfirst : m.moved (m.calculator.scoreOf samples (scoreKey service instanceID)) now wall
      ((m.get service instanceID).getD {}) first)
    (hsecond : m.moved (m.calculator.scoreOf samples (scoreKey service instanceID)) now wall
      (m.turn (m.calculator.scoreOf samples (scoreKey service instanceID)) now wall (m.get service instanceID) first)
      second) :
    ¬ m.OneWindow samples now wall service instanceID := by
  rintro ⟨-, -, hmoves⟩
  rw [m.moves_eq, hown, ownMoves, ownMoves, if_pos hfirst, Option.getD_some, if_pos hsecond] at hmoves
  omega

theorem ownedBy_unplaced (before : EndpointHealth) (hservice : before.service ≠ "") (haddress : before.address = "")
    (hepoch : before.registrationEpoch = "") (sample : EndpointSample) :
    ownedBy before sample =
      { before with address := sample.address, registrationEpoch := sample.registrationEpoch } := by
  unfold ownedBy
  rw [if_neg (by simp [hservice, endpointAddressChanged, endpointRegistrationEpochChanged, haddress, hepoch])]
  by_cases ha : sample.address = "" <;> by_cases he : sample.registrationEpoch = "" <;> simp [ha, he, haddress, hepoch]

theorem ownedBy_state_of_not_replaces (h : ¬ second.replaces first) {health : EndpointHealth}
    (hservice : health.service ≠ "") (haddress : health.address = first.address)
    (hepoch : health.registrationEpoch = first.registrationEpoch) :
    (ownedBy health second).state = health.state := by
  have hkept : ¬ (health.service = "" ∨ endpointAddressChanged health second.address ∨
      endpointRegistrationEpochChanged health second.registrationEpoch) := by
    simp only [EndpointSample.replaces, not_or, not_and, not_not] at h
    simp only [endpointAddressChanged, endpointRegistrationEpochChanged, haddress, hepoch, hservice, false_or,
      Bool.and_eq_true, decide_eq_true_eq, not_or, not_and, not_not]
    exact ⟨fun h₁ => h.1 h₁.2 h₁.1, fun h₁ => h.2 h₁.2 h₁.1⟩
  simp only [ownedBy, if_neg hkept]

theorem get_startWith (calculator : ScoreCalculator) (cfg : StateMachineConfig) (service instanceID : String)
    (health : EndpointHealth) :
    (startWith calculator cfg (scoreKey service instanceID) health).get service instanceID = some health := by
  exact @List.dlookup_cons_eq String (fun _ => EndpointHealth) _ [] (scoreKey service instanceID) health

def shortEjection (score : ℚ) : StateMachineConfig :=
  { StateMachineConfig.default with ejectionDuration := 1, degradedThreshold := if 0 < score then score else 3 / 2 }

theorem shortEjection_positive (score : ℚ) : (shortEjection score).Positive := by
  have hdefault := StateMachineConfig.default_positive
  refine ⟨?_, hdefault.eject, hdefault.windows, Int.one_pos, hdefault.recovery, hdefault.probe⟩
  change 0 < if 0 < score then score else 3 / 2
  split_ifs with h
  · exact h
  · norm_num

def ejectedRecord (sample : EndpointSample) : EndpointHealth :=
  { service := sample.service, instanceID := sample.instanceID, state := .ejected, ejectedAt := 1 }

theorem torn_by_probe (calculator : ScoreCalculator)
    (hown : samplesUnder (scoreKey service instanceID) samples = first :: second :: rest)
    (hservice : first.service ≠ "") (hreplaces : ¬ second.replaces first) :
    ∃ m : HealthManager, m.calculator = calculator ∧ ¬ m.OneWindow samples 2 2 service instanceID := by
  generalize hscore : calculator.scoreOf samples (scoreKey service instanceID) = score
  generalize hm : startWith calculator (shortEjection score) (scoreKey service instanceID) (ejectedRecord first) = m
  have hcalculator : m.calculator = calculator := by rw [← hm]; rfl
  have hget : m.get service instanceID = some (ejectedRecord first) := by rw [← hm, get_startWith]
  have hmachine : ∀ service, m.stateMachineFor service = shortEjection score := by
    intro service
    rw [← hm, stateMachineFor_startWith (shortEjection_positive score)]
  have howned := ownedBy_unplaced (ejectedRecord first) hservice rfl rfl first
  have hprobing : (m.window score 2 2 (ejectedRecord first) first).state = .probing := by
    simp only [window, howned]
    rw [StateMachineConfig.apply_state_ejected _ rfl, hmachine]
    rfl
  have howner := m.window_owner score 2 2 (ejectedRecord first) first
  rw [howned] at howner
  simp only [EndpointHealth.owner, Prod.mk.injEq] at howner
  obtain ⟨t, ht⟩ := m.turn_eq score 2 2 (some (ejectedRecord first)) first
  have hstate : (ownedBy (m.turn score 2 2 (some (ejectedRecord first)) first) second).state = .probing := by
    rw [ht, ownedBy_state_of_not_replaces hreplaces]
    · exact hprobing
    · exact fun h => hservice (howner.1.symm.trans h)
    · exact howner.2.2.1
    · exact howner.2.2.2
  refine ⟨m, hcalculator, m.not_oneWindow_of_moved hown ?_ ?_⟩
  · rw [hcalculator, hscore, hget, moved, Option.getD_some, howned, hprobing]
    simp [ejectedRecord, Code.normalized]
  · rw [hcalculator, hscore, hget, moved, hstate]
    simp only [window]
    rw [StateMachineConfig.apply_state_probing _ hstate, hmachine]
    by_cases hpos : 0 < score
    · rw [if_pos (Or.inr (by simp [shortEjection, hpos]))]
      decide
    · have hrecovery : score ≤ (shortEjection score).recoveryThreshold :=
        (not_lt.mp hpos).trans (shortEjection_positive score).recovery.le
      rw [if_pos hrecovery]
      split_ifs <;> decide

def rowOfOne (score : ℚ) : StateMachineConfig :=
  { StateMachineConfig.default with ejectThreshold := score, consecutiveWindows := 1 }

theorem rowOfOne_positive {score : ℚ} (h : 0 < score) : (rowOfOne score).Positive :=
  { StateMachineConfig.default_positive with eject := h, windows := Int.one_pos }

theorem torn_by_owners (calculator : ScoreCalculator)
    (hown : samplesUnder (scoreKey service instanceID) samples = first :: second :: rest)
    (hpos : 0 < calculator.scoreOf samples (scoreKey service instanceID)) (hreplaces : second.replaces first) :
    ∃ m : HealthManager, m.calculator = calculator ∧ ¬ m.OneWindow samples 2 2 service instanceID := by
  generalize hscore : calculator.scoreOf samples (scoreKey service instanceID) = score at hpos
  generalize hidle : newEndpointHealth first.service first.instanceID "" "" = idle
  generalize hm : startWith calculator (rowOfOne score) (scoreKey service instanceID) idle = m
  have hcalculator : m.calculator = calculator := by rw [← hm]; rfl
  have hget : m.get service instanceID = some idle := by rw [← hm, get_startWith]
  have hejects : ∀ {before : EndpointHealth} {sample : EndpointSample}, (ownedBy before sample).Idle →
      m.moved score 2 2 before sample := by
    intro before sample h
    have hejected : (m.window score 2 2 before sample).state = .ejected := by
      simp only [window]
      rw [← hm, stateMachineFor_startWith (rowOfOne_positive hpos)]
      exact (rowOfOne score).apply_idle_ejected h rfl le_rfl 2
    rw [moved, hejected, h.state]
    decide
  refine ⟨m, hcalculator, m.not_oneWindow_of_moved hown ?_ ?_⟩
  · rw [hcalculator, hscore, hget]
    exact hejects (ownedBy_idle (by rw [← hidle]; exact ⟨rfl, rfl, rfl⟩) first)
  · rw [hcalculator, hscore, hget]
    exact hejects (ownedBy_replaces hreplaces (m.turn_owner score 2 2 (some idle) first))

theorem oneWindow_always_iff (calculator : ScoreCalculator) (samples : List EndpointSample)
    (service instanceID : String) :
    (∀ m : HealthManager, m.calculator = calculator → ∀ now wall, m.OneWindow samples now wall service instanceID) ↔
      SingleWindow (calculator.scoreOf samples (scoreKey service instanceID))
        (samplesUnder (scoreKey service instanceID) samples) := by
  constructor
  · intro h
    rcases hown : samplesUnder (scoreKey service instanceID) samples with _ | ⟨first, _ | ⟨second, rest⟩⟩
    · trivial
    · trivial
    · have hnamed : first.under (scoreKey service instanceID) := by
        have hmem : first ∈ samplesUnder (scoreKey service instanceID) samples := by simp [hown]
        exact (List.mem_filter.mp hmem).2
      simp only [EndpointSample.under, Bool.and_eq_true, decide_eq_true_eq] at hnamed
      by_contra hnot
      have htorn : ∃ m : HealthManager, m.calculator = calculator ∧ ¬ m.OneWindow samples 2 2 service instanceID := by
        by_cases hreplaces : second.replaces first
        · exact torn_by_owners calculator hown (not_le.mp fun hscore => hnot ⟨hscore, hreplaces⟩) hreplaces
        · exact torn_by_probe calculator hown hnamed.1.1 hreplaces
      obtain ⟨m, hm, htorn⟩ := htorn
      exact htorn (h m hm 2 2)
  · rintro h m rfl now wall
    exact m.oneWindow_of_single h now wall

/-! ## Rows of reports -/

end HealthManager

structure Report where
  samples : List EndpointSample
  now : ℕ
  wall : ℕ

def Report.Single (report : Report) (calculator : ScoreCalculator) (service instanceID : String) : Prop :=
  SingleWindow (calculator.scoreOf report.samples (scoreKey service instanceID))
    (samplesUnder (scoreKey service instanceID) report.samples) ∧
  ∀ sample ∈ samplesUnder (scoreKey service instanceID) report.samples, sample.service = service

namespace HealthManager

variable (m : HealthManager) {service : String} {row : ℕ} {record : Option EndpointHealth}

def updates (reports : List Report) : HealthManager :=
  reports.foldl (fun m report => m.update report.samples report.now report.wall) m

def hot (service instanceID : String) (report : Report) : Bool :=
  samplesUnder (scoreKey service instanceID) report.samples ≠ [] &&
    (m.stateMachineFor service).ejectThreshold ≤
      m.calculator.scoreOf report.samples (scoreKey service instanceID)

def Counting (service : String) (row : ℕ) (record : Option EndpointHealth) : Prop :=
  ∀ health, record = some health →
    health.service = service ∧ health.state.counting ∧ health.consecutiveEjectWindows ≤ row

theorem update_config (samples : List EndpointSample) (now wall : ℕ) :
    (m.update samples now wall).calculator = m.calculator ∧
    (m.update samples now wall).stateMachineFor = m.stateMachineFor := by
  simp only [update, bumpIfChanged]
  split <;> exact ⟨rfl, rfl⟩

theorem ownedBy_counting (h : Counting service row record) {sample : EndpointSample}
    (hsample : sample.service = service) :
    (ownedBy (record.getD {}) sample).service = service ∧ (ownedBy (record.getD {}) sample).state.counting ∧
    (ownedBy (record.getD {}) sample).consecutiveEjectWindows ≤ row := by
  simp only [ownedBy]
  split_ifs with hreset
  · exact ⟨hsample, by simp [Code.counting_iff, newEndpointHealth], Nat.zero_le _⟩
  · cases record with
    | none => exact absurd (Or.inl rfl) hreset
    | some health => exact h health rfl

theorem turn_counting (h : Counting service row record) {sample : EndpointSample} (hsample : sample.service = service)
    (score : ℚ) (hrow : (m.stateMachineFor service).ejectThreshold ≤ score →
      (row + 1 : ℤ) < (m.stateMachineFor service).consecutiveWindows) (now wall : ℕ) :
    Counting service (if (m.stateMachineFor service).ejectThreshold ≤ score then row + 1 else row)
      (some (m.turn score now wall record sample)) := by
  rintro health ⟨rfl⟩
  obtain ⟨hservice, hstate, hcount⟩ := ownedBy_counting h hsample
  obtain ⟨t, ht⟩ := m.turn_eq score now wall record sample
  have howner := congrArg Prod.fst (m.window_owner score now wall (record.getD {}) sample)
  obtain ⟨hejected, hprobing, hwindows⟩ := (m.stateMachineFor service).apply_counted (m.stateMachineFor_positive service)
    hstate { now, slowScore := score, successRate := successRate sample } wall
  have hwindow : m.window score now wall (record.getD {}) sample =
      (m.stateMachineFor service).apply (ownedBy (record.getD {}) sample)
        { now, slowScore := score, successRate := successRate sample } wall := by
    simp only [window, hservice]
  rw [← hwindow] at hejected hprobing hwindows
  rw [ht]
  refine ⟨howner.trans hservice, ?_, hwindows.trans ?_⟩
  · rw [Code.counting_iff]
    refine ⟨fun hstate => ?_, hprobing⟩
    obtain ⟨hscore, hcomplete⟩ := hejected hstate
    have := hrow hscore
    omega
  · split_ifs <;> omega

theorem turns_counting {score : ℚ} (hscore : ¬ (m.stateMachineFor service).ejectThreshold ≤ score) (now wall : ℕ)
    {own : List EndpointSample} (hown : ∀ sample ∈ own, sample.service = service) (h : Counting service row record) :
    Counting service row (own.foldl (fun record sample => some (m.turn score now wall record sample)) record) := by
  induction own generalizing record with
  | nil => exact h
  | cons sample rest ih =>
    have hturn := m.turn_counting h (hown sample (by simp)) score (fun hs => absurd hs hscore) now wall
    rw [if_neg hscore] at hturn
    exact ih (fun s hs => hown s (by simp [hs])) hturn

theorem update_counting {service instanceID : String} (h : Counting service row (m.get service instanceID))
    {report : Report} (hsingle : report.Single m.calculator service instanceID)
    (hrow : m.hot service instanceID report → (row + 1 : ℤ) < (m.stateMachineFor service).consecutiveWindows) :
    Counting service (if m.hot service instanceID report then row + 1 else row)
      ((m.update report.samples report.now report.wall).get service instanceID) := by
  rw [m.get_update]
  obtain ⟨hwindow, hown⟩ := hsingle
  unfold hot at hrow ⊢
  generalize m.calculator.scoreOf report.samples (scoreKey service instanceID) = score at hwindow hrow ⊢
  generalize samplesUnder (scoreKey service instanceID) report.samples = own at hwindow hown hrow ⊢
  by_cases hscore : (m.stateMachineFor service).ejectThreshold ≤ score
  · -- The score is above zero, so the report has at most one sample of the endpoint.
    rcases own with _ | ⟨sample, _ | ⟨second, rest⟩⟩
    · simpa using h
    · have hturn := m.turn_counting h (hown sample (by simp)) score
        (fun _ => hrow (by simp [hscore])) report.now report.wall
      simpa [hscore] using hturn
    · exact absurd ((m.stateMachineFor_positive service).eject.trans_le hscore) (not_lt.mpr hwindow.1)
  · have hturns := m.turns_counting hscore report.now report.wall hown h
    simpa [hscore] using hturns

theorem updates_counting {service instanceID : String} (h : Counting service row (m.get service instanceID))
    {reports : List Report} (hsingle : ∀ report ∈ reports, report.Single m.calculator service instanceID)
    (hrow : (row + reports.countP (m.hot service instanceID) : ℤ) < (m.stateMachineFor service).consecutiveWindows) :
    Counting service (row + reports.countP (m.hot service instanceID))
      ((m.updates reports).get service instanceID) := by
  induction reports generalizing m row with
  | nil => exact h
  | cons report rest ih =>
    obtain ⟨hcalculator, hmachine⟩ := m.update_config report.samples report.now report.wall
    have hhot : (m.update report.samples report.now report.wall).hot service instanceID = m.hot service instanceID := by
      funext r
      simp only [hot, hcalculator, hmachine]
    rw [List.countP_cons] at hrow ⊢
    have hfirst := m.update_counting h (hsingle report (by simp)) (fun hh => by simp only [hh, if_true] at hrow; omega)
    have hrest := ih (m := m.update report.samples report.now report.wall) hfirst
      (fun r hr => hcalculator ▸ hsingle r (by simp [hr])) (by rw [hhot, hmachine]; split_ifs at hrow ⊢ <;> push_cast at * <;> omega)
    rw [hhot] at hrest
    intro health hhealth
    obtain ⟨hs, hc, hle⟩ := hrest health hhealth
    exact ⟨hs, hc, by split_ifs at hle ⊢ <;> omega⟩

/-- A report is one window of an endpoint, whatever the manager holds, exactly when the endpoint's samples in it make
one. -/
theorem report_is_window_iff (calculator : ScoreCalculator) (service instanceID : String) :
    (∀ samples : List EndpointSample,
      (∀ m : HealthManager, m.calculator = calculator → ∀ now wall, m.OneWindow samples now wall service instanceID) ↔
        SingleWindow (calculator.scoreOf samples (scoreKey service instanceID))
          (samplesUnder (scoreKey service instanceID) samples)) ∧
    ∀ (m : HealthManager) (reports : List Report), m.calculator = calculator →
      (∀ health, m.get service instanceID = some health → health.service = service ∧ health.Idle) →
      (∀ report ∈ reports, report.Single calculator service instanceID) →
      (reports.countP (m.hot service instanceID) : ℤ) < (m.stateMachineFor service).consecutiveWindows →
      ∀ health, (m.updates reports).get service instanceID = some health → health.state ≠ .ejected := by
  refine ⟨fun samples => oneWindow_always_iff calculator samples service instanceID, ?_⟩
  rintro m reports rfl hidle hsingle hrow health hhealth
  have hstart : Counting service 0 (m.get service instanceID) := by
    intro health hget
    obtain ⟨hservice, hhealth⟩ := hidle health hget
    exact ⟨hservice, hhealth.counting, hhealth.eject.le⟩
  have hcounting := m.updates_counting hstart hsingle (by omega)
  exact ((Code.counting_iff _).mp (hcounting health hhealth).2.1).1

/-! ## A report of three methods -/

def slowMethod (method : String) : EndpointSample :=
  { service := "order", instanceID := "a", address := "10.0.0.1:80", method, requestCount := 10,
    latencyEWMA := 1000000000, latencyP95 := 1000000000 }

def freshManager : HealthManager :=
  startWith (newScoreCalculator {} 100000000) {} "order/a" (newEndpointHealth "order" "a" "10.0.0.1:80" "")

theorem methods_counted_as_windows :
    ((freshManager.update [slowMethod "Get", slowMethod "Put"] 5 5).get "order" "a").map
      EndpointHealth.consecutiveEjectWindows = some 2 ∧
    ¬ freshManager.OneWindow [slowMethod "Get", slowMethod "Put"] 5 5 "order" "a" ∧
    (freshManager.stateMachineFor "order").consecutiveWindows = 3 ∧
    ((freshManager.update [slowMethod "Get", slowMethod "Put", slowMethod "List"] 5 5).get "order" "a").map
      EndpointHealth.state = some .ejected := by
  decide +kernel

theorem single_methods_not_ejected :
    ∃ health, (freshManager.updates [⟨[slowMethod "Get"], 5, 5⟩, ⟨[slowMethod "Get"], 6, 6⟩]).get "order" "a" =
      some health ∧ health.state ≠ .ejected := by
  have hsome : ((freshManager.updates [⟨[slowMethod "Get"], 5, 5⟩, ⟨[slowMethod "Get"], 6, 6⟩]).get
      "order" "a").isSome = true := by
    decide +kernel
  obtain ⟨health, hhealth⟩ := Option.isSome_iff_exists.mp hsome
  refine ⟨health, hhealth, (report_is_window_iff freshManager.calculator "order" "a").2 freshManager _ rfl ?_ ?_
    (by decide +kernel) health hhealth⟩
  · have hget : freshManager.get "order" "a" = some (newEndpointHealth "order" "a" "10.0.0.1:80" "") := by
      decide +kernel
    rintro health h
    rw [hget] at h
    obtain rfl := Option.some.inj h
    exact ⟨rfl, rfl, rfl, rfl⟩
  · have hown : samplesUnder (scoreKey "order" "a") [slowMethod "Get"] = [slowMethod "Get"] := by decide +kernel
    intro report hreport
    have hsamples : report.samples = [slowMethod "Get"] := by
      simp only [List.mem_cons, List.not_mem_nil, or_false] at hreport
      rcases hreport with rfl | rfl <;> rfl
    refine ⟨by rw [hsamples, hown]; trivial, ?_⟩
    rw [hsamples, hown]
    simp [slowMethod]

end HealthManager

end AegisMesh.Fault

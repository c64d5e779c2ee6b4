import Mathlib.Data.Prod.Lex
import AegisMesh.Lib.Sorted
import AegisMesh.Fault.Score
import AegisMesh.Fault.StateMachine

/-!
# The health manager (`pkg/fault/manager.go`)

`now` is the manager's clock reading in a call. `wall` stands for `time.Now()`, which
the state machine falls back to when the clock gives the zero time.
-/

open Lib

namespace AegisMesh.Fault

structure EndpointIdentity where
  service : String
  instanceID : String
  registrationEpoch : String := ""
deriving DecidableEq

structure HealthManager where
  calculator : ScoreCalculator
  baseStateMachine : StateMachineConfig
  serviceStateMachines : Dict String StateMachineConfig := ∅
  health : Dict String EndpointHealth := ∅
  revision : ℕ := 0
  serviceRevisions : Dict String ℕ := ∅
  notify : ℕ := 0

def endpointAddressChanged (health : EndpointHealth) (address : String) : Bool :=
  address ≠ "" && health.address ≠ "" && health.address ≠ address

def endpointRegistrationEpochChanged (health : EndpointHealth) (registrationEpoch : String) : Bool :=
  registrationEpoch ≠ "" && health.registrationEpoch ≠ "" && health.registrationEpoch ≠ registrationEpoch

def endpointHealthEqualIgnoringUpdatedAt (a b : EndpointHealth) : Bool :=
  { a with updatedAt := 0 } = { b with updatedAt := 0 }

def endpointAddressMatches (healthAddress registeredAddress : String) : Bool :=
  healthAddress = "" || registeredAddress = "" || healthAddress = registeredAddress

def successRate (sample : EndpointSample) : ℚ :=
  if sample.requestCount ≤ 0 then 1
  else (max (sample.requestCount - sample.errorCount) 0 : ℤ) / sample.requestCount

def cloneStateMachineConfigs (src : Dict String StateMachineConfig) : Dict String StateMachineConfig :=
  Dict.filter (fun service _ => service ≠ "") src

structure HealthManagerConfig where
  weights : ScoreWeights
  latencySLO : ℤ := 0
  stateMachine : StateMachineConfig := {}
  serviceStateMachines : Dict String StateMachineConfig := ∅

def newHealthManager (cfg : HealthManagerConfig) : HealthManager where
  calculator := newScoreCalculator (if cfg.weights = ⟨0, 0, 0, 0⟩ then defaultScoreWeights else cfg.weights) cfg.latencySLO
  baseStateMachine := defaultStateMachineConfig cfg.stateMachine
  serviceStateMachines := cloneStateMachineConfigs cfg.serviceStateMachines

namespace HealthManager

variable (m : HealthManager)

def stateMachineConfig (service : String) : StateMachineConfig :=
  resolveStateMachineConfig m.baseStateMachine ((m.serviceStateMachines.lookup service).getD {})

def stateMachineFor (service : String) : StateMachineConfig :=
  defaultStateMachineConfig (m.stateMachineConfig service)

/-- `bumpIfChangedLocked`. The changed services are a set; a list names each at least once. -/
def bumpIfChanged (changedServices : List String) : HealthManager :=
  if changedServices = [] then m
  else
    { m with
      revision := m.revision + 1
      serviceRevisions := changedServices.foldl (fun revs service => revs.insert service (m.revision + 1))
        m.serviceRevisions
      notify := m.notify + 1 }

def healthVersion (service : String) : ℕ :=
  if service = "" then m.revision else (m.serviceRevisions.lookup service).getD 0

def get (service instanceID : String) : Option EndpointHealth := m.health.lookup (scoreKey service instanceID)

def list (service : String) : List EndpointHealth :=
  sortBy (fun health => toLex (health.service, health.instanceID))
    ((Dict.values m.health).filter fun health => service = "" || health.service = service)

/-! ## Update -/

def ownedBy (before : EndpointHealth) (sample : EndpointSample) : EndpointHealth :=
  let health :=
    if before.service = "" ∨ endpointAddressChanged before sample.address ∨
        endpointRegistrationEpochChanged before sample.registrationEpoch then
      newEndpointHealth sample.service sample.instanceID sample.address sample.registrationEpoch
    else before
  { health with
    address := if sample.address ≠ "" then sample.address else health.address
    registrationEpoch := if sample.registrationEpoch ≠ "" then sample.registrationEpoch else health.registrationEpoch }

theorem ownedBy_own {record : Option EndpointHealth} {sample : EndpointSample} {service instanceID : String}
    (hrecord : ∀ health, record = some health → health.service = service ∧ health.instanceID = instanceID)
    (hsample : sample.service = service ∧ sample.instanceID = instanceID) :
    (ownedBy (record.getD {}) sample).service = service ∧ (ownedBy (record.getD {}) sample).instanceID = instanceID := by
  simp only [ownedBy]
  split_ifs with hreset
  · exact hsample
  · cases record with
    | none => exact absurd (Or.inl rfl) hreset
    | some health => exact hrecord health rfl

def scored (scores : Dict String EndpointScore) (now wall : ℕ) (before : EndpointHealth) (sample : EndpointSample) :
    EndpointHealth :=
  let health := ownedBy before sample
  (m.stateMachineFor health.service).apply health
    { now
      slowScore := ((scores.lookup (scoreKey sample.service sample.instanceID)).getD {}).score
      successRate := successRate sample } wall

def updateOne (scores : Dict String EndpointScore) (now wall : ℕ)
    (st : Dict String EndpointHealth × List String) (sample : EndpointSample) :
    Dict String EndpointHealth × List String :=
  if sample.service = "" ∨ sample.instanceID = "" then st
  else
    let key := scoreKey sample.service sample.instanceID
    let before := (st.1.lookup key).getD {}
    let health := m.scored scores now wall before sample
    if (st.1.lookup key).isNone || !endpointHealthEqualIgnoringUpdatedAt before health then
      (st.1.insert key { health with updatedAt := now }, st.2 ++ [sample.service])
    else (st.1.insert key health, st.2)

def update (samples : List EndpointSample) (now wall : ℕ) : HealthManager :=
  let st := samples.foldl (m.updateOne (m.calculator.calculate samples) now wall) (m.health, [])
  { m with health := st.1 }.bumpIfChanged st.2

/-! ## Tick -/

def tickInput (health : EndpointHealth) (now : ℕ) : StateInput := { now, slowScore := health.slowScore, successRate := 1 }

def tickApplied (now wall : ℕ) (health : EndpointHealth) : EndpointHealth :=
  (m.stateMachineFor health.service).apply health (tickInput health now) wall

def ticked (now wall : ℕ) (health : EndpointHealth) : EndpointHealth :=
  let after := m.tickApplied now wall health
  if health ≠ after then { after with updatedAt := now } else after

def tickChanged (now wall : ℕ) : List String :=
  (Dict.values m.health).filterMap fun health =>
    let after := m.tickApplied now wall health
    if health ≠ after then some after.service else none

def tick (now wall : ℕ) : HealthManager :=
  { m with health := Dict.mapVal (fun _ health => m.ticked now wall health) m.health
    }.bumpIfChanged (m.tickChanged now wall)

/-! ## Merging and pruning -/

def restored (now : ℕ) (health : EndpointHealth) : EndpointHealth :=
  { health with
    state := health.state.normalized
    updatedAt := if health.updatedAt = 0 then now else health.updatedAt }

def mergeOne (now : ℕ) (st : Dict String EndpointHealth × List String) (health : EndpointHealth) :
    Dict String EndpointHealth × List String :=
  if health.service = "" ∨ health.instanceID = "" then st
  else
    let health := restored now health
    let key := scoreKey health.service health.instanceID
    match st.1.lookup key with
    | none => (st.1.insert key health, st.2 ++ [health.service])
    | some current =>
      if health.updatedAt < current.updatedAt then st
      else if endpointHealthEqualIgnoringUpdatedAt current health then
        (if current.updatedAt < health.updatedAt then
          st.1.insert key { current with updatedAt := health.updatedAt } else st.1, st.2)
      else (st.1.insert key health, st.2 ++ [health.service])

def mergeSnapshot (snapshot : List EndpointHealth) (now : ℕ) : HealthManager :=
  let st := snapshot.foldl (mergeOne now) (m.health, [])
  { m with health := st.1 }.bumpIfChanged st.2

def retainedEndpointAddress (retain : Dict EndpointIdentity String) (health : EndpointHealth) : Option String :=
  match retain.lookup ⟨health.service, health.instanceID, health.registrationEpoch⟩ with
  | some address => some address
  | none =>
    match retain.lookup { service := health.service, instanceID := health.instanceID } with
    | some address => some address
    | none =>
      if health.registrationEpoch = "" then
        (retain.entries.find? fun e =>
          e.1.service = health.service && e.1.instanceID = health.instanceID).map (·.2)
      else none

def retained (retain : Dict EndpointIdentity String) (health : EndpointHealth) : Bool :=
  match retainedEndpointAddress retain health with
  | some registeredAddress => endpointAddressMatches health.address registeredAddress
  | none => false

/-- `PruneMissing`; a nil map prunes nothing. -/
def pruneMissing (retain : Option (Dict EndpointIdentity String)) : HealthManager :=
  match retain with
  | none => m
  | some retain =>
    { m with health := Dict.filter (fun _ health => retained retain health) m.health }.bumpIfChanged
      (((Dict.values m.health).filter fun health => !retained retain health).map EndpointHealth.service)

/-! ## Configuration -/

def resetCounters (now : ℕ) (service : String) (health : EndpointHealth) : EndpointHealth :=
  if health.service ≠ service then health
  else if health.consecutiveSlowWindows = 0 ∧ health.consecutiveEjectWindows = 0 then health
  else { health with consecutiveSlowWindows := 0, consecutiveEjectWindows := 0, updatedAt := now }

def resetStateMachineCounters (service : String) (now : ℕ) : HealthManager :=
  { m with health := Dict.mapVal (fun _ health => resetCounters now service health) m.health }

def setServiceStateMachineConfig (service : String) (cfg : StateMachineConfig) (now : ℕ) : HealthManager × Bool :=
  if service = "" then (m, false)
  else
    let m' := { m with serviceStateMachines := m.serviceStateMachines.insert service cfg }
    if m.stateMachineConfig service = m'.stateMachineConfig service then (m', false)
    else ((m'.resetStateMachineCounters service now).bumpIfChanged [service], true)

def changedConfigs (configs : Dict String StateMachineConfig) : List String :=
  let effective := fun cfgs : Dict String StateMachineConfig => fun service =>
    resolveStateMachineConfig m.baseStateMachine ((cfgs.lookup service).getD {})
  (m.serviceStateMachines.keys.filter fun service =>
      effective m.serviceStateMachines service ≠ effective configs service) ++
    (configs.keys.filter fun service =>
      (m.serviceStateMachines.lookup service).isNone &&
        decide (resolveStateMachineConfig m.baseStateMachine {} ≠ effective configs service))

def replaceServiceStateMachineConfigs (configs : Dict String StateMachineConfig) (now : ℕ) : HealthManager × ℕ :=
  let configs := cloneStateMachineConfigs configs
  let changed := m.changedConfigs configs
  let m' := { m with serviceStateMachines := configs }
  ((changed.foldl (fun m service => m.resetStateMachineCounters service now) m').bumpIfChanged changed,
    changed.length)

end HealthManager

end AegisMesh.Fault

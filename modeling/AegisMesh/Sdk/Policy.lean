import AegisMesh.Lib.Runs
import AegisMesh.Sdk.DialOptions

/-!
# Policies in the client

A snapshot is compiled into patches that are laid over the settings the client has dialed
with.
-/

namespace AegisMesh.Sdk

open Lib Policy

/-! ## Compiled policies -/

structure CompiledRetryPatch where
  has : Bool := false
  enabled : Bool := false
  maxAttempts : ℤ := 0
  perTryTimeout : ℤ := 0
  budgetRatio : ℚ := 0
  minBudget : ℤ := 0
  window : ℤ := 0
deriving DecidableEq

structure CompiledMethod where
  idempotent : Bool
  timeout : ℤ
  retry : CompiledRetryPatch
deriving DecidableEq

structure CompiledPolicy where
  version : ℤ
  routing : String
  defaultRetry : CompiledRetryPatch
  maxInflightPerEndpoint : ℤ
  methods : Dict String CompiledMethod
deriving DecidableEq

def durationMillis (ms : ℤ) : ℤ := if ms ≤ 0 then 0 else millis ms

def durationSeconds (s : ℤ) : ℤ := if s ≤ 0 then 0 else seconds s

def compileRetryPatch : Option Policy.RetryPolicy → CompiledRetryPatch
  | none => {}
  | some policy =>
    if !policyRetryHasAnyField (some policy) then {}
    else
      { has := true
        enabled := policy.enabled
        maxAttempts := policy.maxAttempts
        perTryTimeout := durationMillis policy.perTryTimeoutMillis
        budgetRatio := policy.budgetRatio
        minBudget := policy.minBudget
        window := durationSeconds policy.windowSeconds }

theorem compileRetryPatch_has (policy : Option Policy.RetryPolicy) :
    (compileRetryPatch policy).has = policyRetryHasAnyField policy := by
  unfold compileRetryPatch
  split
  · rfl
  · split
    · rename_i h
      simpa using h
    · rename_i h
      simpa using h

def adaptiveDefaultMaxInflightPerTarget : ℤ := 128

def compileCircuitBreakerPolicy : Option CircuitBreakerPolicy → ℤ
  | none => adaptiveDefaultMaxInflightPerTarget
  | some policy =>
    if 0 < policy.maxInflightPerEndpoint then policy.maxInflightPerEndpoint else adaptiveDefaultMaxInflightPerTarget

def compileMethod (method : MethodPolicy) : CompiledMethod where
  idempotent := method.idempotent
  timeout := durationMillis method.timeoutMillis
  retry := compileRetryPatch method.retry

/-- A method without a name in the map goes under the name in its message. -/
def compilePolicySnapshot (snapshot : PolicySnapshot) : CompiledPolicy where
  version := snapshot.revision
  routing := snapshot.routingPolicy
  defaultRetry := compileRetryPatch snapshot.retry
  maxInflightPerEndpoint := compileCircuitBreakerPolicy snapshot.circuitBreaker
  methods := snapshot.methods.entries.foldl
    (fun methods e => methods.insert (if e.1 = "" then e.2.method else e.1) (compileMethod e.2)) ∅

/-- `policyManager`, with the limit that it has set in the circuit breaker. -/
structure PolicyManager where
  policy : Option CompiledPolicy := none
  maxInflight : ℤ := adaptiveDefaultMaxInflightPerTarget
deriving DecidableEq

def PolicyManager.update (m : PolicyManager) (snapshot : PolicySnapshot) : PolicyManager :=
  let policy := compilePolicySnapshot snapshot
  { m with policy := some policy, maxInflight := policy.maxInflightPerEndpoint }

/-! ## Compiled retry settings -/

structure CompiledRetry where
  mode : RetryMode := .unset
  maxAttempts : ℤ := 0
  perTryTimeout : ℤ := 0
  retryableMask : UInt64 := 0
  budget : BudgetConfig := {}
deriving DecidableEq

def retryableCodeBit (code : ℕ) : UInt64 := if 64 ≤ code then 0 else 1 <<< code.toUInt64

def retryableCodeMask (codes : List ℕ) : UInt64 := codes.foldl (fun mask code => mask ||| retryableCodeBit code) 0

def defaultRetryableMask : UInt64 := retryableCodeBit codeUnavailable ||| retryableCodeBit codeDeadlineExceeded

def compileRetryPolicy (policy : RetryPolicy) : CompiledRetry where
  maxAttempts := if policy.maxAttempts ≤ 0 then 1 else policy.maxAttempts
  perTryTimeout := policy.perTryTimeout
  retryableMask := if policy.retryableCodes = [] then defaultRetryableMask else retryableCodeMask policy.retryableCodes

def compileRetryFromDialOptions (options : DialOptions) : CompiledRetry :=
  let options := normalizeDialOptions options
  let retry := compileRetryPolicy options.retryPolicy
  { retry with
    mode := options.retryMode
    budget := options.retryBudget
    maxAttempts := if options.retryMode = .off then 1 else retry.maxAttempts }

def applyCompiledRetryPatch (retry : CompiledRetry) (patch : CompiledRetryPatch) : CompiledRetry :=
  if !patch.has then retry
  else if !patch.enabled then { retry with mode := .off, maxAttempts := 1 }
  else
    { retry with
      mode := .budget
      maxAttempts := if 0 < patch.maxAttempts then patch.maxAttempts else retry.maxAttempts
      perTryTimeout := if 0 < patch.perTryTimeout then patch.perTryTimeout else retry.perTryTimeout
      budget :=
        { retry.budget with
          budgetRatio := if 0 < patch.budgetRatio then patch.budgetRatio else retry.budget.budgetRatio
          minBudget := if 0 < patch.minBudget then patch.minBudget else retry.budget.minBudget
          window := if 0 < patch.window then patch.window else retry.budget.window } }

def applyCompiledMethod (retry : CompiledRetry) (method : CompiledMethod) : CompiledRetry :=
  let retry := { retry with perTryTimeout := if 0 < method.timeout then method.timeout else retry.perTryTimeout }
  if method.retry.has then applyCompiledRetryPatch retry method.retry
  else if !method.idempotent then { retry with mode := .off, maxAttempts := 1 }
  else retry

/-! ## The source of retry settings -/

/-- `NewBudget`. Its counters are left out. -/
def newBudget (cfg : BudgetConfig) : BudgetConfig where
  budgetRatio := if cfg.budgetRatio < 0 then 0 else cfg.budgetRatio
  minBudget := if cfg.minBudget < 0 then 0 else cfg.minBudget
  window := if cfg.window ≤ 0 then 10 * 1000000000 else cfg.window
  now := cfg.now

structure DynamicRetrySource where
  defaults : CompiledRetry
  manager : PolicyManager
  budgets : Dict String (BudgetConfig × ℤ) := ∅

namespace DynamicRetrySource

def update (s : DynamicRetrySource) (snapshot : PolicySnapshot) : DynamicRetrySource :=
  { s with manager := s.manager.update snapshot }

def budgetForMethod (s : DynamicRetrySource) (method : String) (revision : ℤ) (cfg : BudgetConfig) :
    DynamicRetrySource × BudgetConfig :=
  match s.budgets.lookup method with
  | some (budget, made) =>
    if made ≠ revision then ({ s with budgets := s.budgets.insert method (newBudget cfg, revision) }, newBudget cfg)
    else (s, budget)
  | none => ({ s with budgets := s.budgets.insert method (newBudget cfg, revision) }, newBudget cfg)

def settings (defaults : CompiledRetry) (policy : Option CompiledPolicy) (method : String) : CompiledRetry :=
  match policy with
  | none => defaults
  | some policy =>
    let retry := applyCompiledRetryPatch defaults policy.defaultRetry
    match policy.methods.lookup method with
    | none => retry
    | some methodPolicy => applyCompiledMethod retry methodPolicy

def policyForMethod (s : DynamicRetrySource) (method : String) :
    DynamicRetrySource × CompiledRetry × Option BudgetConfig :=
  let retry := settings s.defaults s.manager.policy method
  if retry.mode = .off ∨ retry.mode = .withoutBudget then (s, retry, none)
  else
    let revision := match s.manager.policy with
      | none => 0
      | some policy => policy.version
    let (s, budget) := s.budgetForMethod method revision retry.budget
    (s, retry, some budget)

end DynamicRetrySource

/-! ## Dialing -/

inductive ServiceConfig
  | adaptiveP2C
  | roundRobin
deriving DecidableEq

structure Connection where
  serviceConfig : ServiceConfig
  source : DynamicRetrySource
  watching : Bool

/-- What happens to a connection: its watcher receives a snapshot, or a call asks for the settings of its method. -/
inductive ConnectionEvent
  | snapshot (snapshot : PolicySnapshot)
  | call (method : String)

namespace Connection

def step (c : Connection) : ConnectionEvent → Connection
  | .snapshot snapshot => if c.watching then { c with source := c.source.update snapshot } else c
  | .call method => { c with source := (c.source.policyForMethod method).1 }

def run (c : Connection) (events : List ConnectionEvent) : Connection := events.foldl step c

end Connection

end AegisMesh.Sdk

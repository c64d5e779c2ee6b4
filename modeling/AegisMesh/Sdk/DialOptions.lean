import AegisMesh.Policy.Snapshot
import Mathlib.Tactic.Linarith

/-!
# Dial options

The retry settings that a client dials with, and how a policy snapshot rewrites them.
Durations are signed 64-bit counts of nanoseconds.
-/

namespace AegisMesh.Sdk

open Lib Policy

inductive RetryMode
  | unset
  | budget
  | withoutBudget
  | off
  | other (name : String)
deriving DecidableEq

structure RetryPolicy where
  maxAttempts : ℤ := 0
  perTryTimeout : ℤ := 0
  retryableCodes : List ℕ := []
deriving DecidableEq

structure BudgetConfig where
  budgetRatio : ℚ := 0
  minBudget : ℤ := 0
  window : ℤ := 0
  now : Option ℕ := none
deriving DecidableEq

structure DialOptions where
  routingPolicy : String := ""
  retryMode : RetryMode := .unset
  retryPolicy : RetryPolicy := {}
  retryBudget : BudgetConfig := {}
  disablePolicy : Bool := false
deriving DecidableEq

def routingAdaptiveP2C : String := "adaptive_p2c"

def codeDeadlineExceeded : ℕ := 4

def codeUnavailable : ℕ := 14

def defaultRetryPolicy : RetryPolicy where
  maxAttempts := 2
  perTryTimeout := 750 * 1000000
  retryableCodes := [codeUnavailable, codeDeadlineExceeded]

def defaultRetryBudget : BudgetConfig where
  budgetRatio := 15 / 100
  minBudget := 10
  window := 10 * 1000000000

def isZeroBudgetConfig (cfg : BudgetConfig) : Bool :=
  cfg.budgetRatio = 0 && cfg.minBudget = 0 && cfg.window = 0 && cfg.now = none

def normalizeDialOptions (options : DialOptions) : DialOptions where
  routingPolicy := if options.routingPolicy = "" then routingAdaptiveP2C else options.routingPolicy
  retryMode := if options.retryMode = .unset then .budget else options.retryMode
  retryPolicy := if options.retryPolicy.maxAttempts = 0 then defaultRetryPolicy else options.retryPolicy
  retryBudget := if isZeroBudgetConfig options.retryBudget then defaultRetryBudget else options.retryBudget
  disablePolicy := options.disablePolicy

/-- A product of two 64-bit integers keeps the low 64 bits. -/
def wrap64 (n : ℤ) : ℤ := n.bmod (2 ^ 64)

def millis (ms : ℤ) : ℤ := wrap64 (ms * 1000000)

def seconds (s : ℤ) : ℤ := wrap64 (s * 1000000000)

def policyRetryHasAnyField : Option Policy.RetryPolicy → Bool
  | none => false
  | some policy =>
    policy.enabled || policy.maxAttempts ≠ 0 || policy.budgetRatio ≠ 0 || policy.minBudget ≠ 0 ||
      policy.windowSeconds ≠ 0 || policy.perTryTimeoutMillis ≠ 0

def setRetryPolicy (options : DialOptions) (policy : Policy.RetryPolicy) : DialOptions :=
  if !policy.enabled then
    { options with retryMode := .off, retryPolicy := { options.retryPolicy with maxAttempts := 1 } }
  else
    { options with
      retryMode := .budget
      retryPolicy :=
        { options.retryPolicy with
          maxAttempts := if 0 < policy.maxAttempts then policy.maxAttempts else options.retryPolicy.maxAttempts
          perTryTimeout :=
            if 0 < policy.perTryTimeoutMillis then millis policy.perTryTimeoutMillis
            else options.retryPolicy.perTryTimeout }
      retryBudget :=
        { options.retryBudget with
          budgetRatio := if 0 < policy.budgetRatio then policy.budgetRatio else options.retryBudget.budgetRatio
          minBudget := if 0 < policy.minBudget then policy.minBudget else options.retryBudget.minBudget
          window := if 0 < policy.windowSeconds then seconds policy.windowSeconds else options.retryBudget.window } }

def applyRetryPolicyToDialOptions (options : DialOptions) (policy : Option Policy.RetryPolicy) : DialOptions :=
  match policy with
  | none => options
  | some p => if policyRetryHasAnyField policy then setRetryPolicy options p else options

end AegisMesh.Sdk

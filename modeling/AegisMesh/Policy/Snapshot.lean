import AegisMesh.Lib.Dict
import Mathlib.Data.Rat.Defs

/-!
# Policy messages

The policy of one service as the controller serves it. A message that is not set is `none`.
-/

namespace AegisMesh.Policy

open Lib

structure RetryPolicy where
  enabled : Bool := false
  maxAttempts : ℤ := 0
  budgetRatio : ℚ := 0
  minBudget : ℤ := 0
  windowSeconds : ℤ := 0
  perTryTimeoutMillis : ℤ := 0
deriving DecidableEq

structure OutlierDetectionPolicy where
  degradedThreshold : ℚ := 0
  ejectThreshold : ℚ := 0
  consecutiveWindows : ℤ := 0
  ejectionDurationSeconds : ℤ := 0
  recoveryThreshold : ℚ := 0
  probeSuccessThreshold : ℚ := 0
deriving DecidableEq

structure CircuitBreakerPolicy where
  maxInflightPerEndpoint : ℤ := 0
deriving DecidableEq

structure MethodPolicy where
  method : String := ""
  idempotent : Bool := false
  timeoutMillis : ℤ := 0
  retry : Option RetryPolicy := none
deriving DecidableEq

structure PolicySnapshot where
  service : String := ""
  revision : ℤ := 0
  routingPolicy : String := ""
  retry : Option RetryPolicy := none
  outlierDetection : Option OutlierDetectionPolicy := none
  circuitBreaker : Option CircuitBreakerPolicy := none
  methods : Dict String MethodPolicy := ∅
deriving DecidableEq

def PolicySnapshot.content (snapshot : PolicySnapshot) : PolicySnapshot × (String → Option MethodPolicy) :=
  ({ snapshot with methods := ∅ }, snapshot.methods.lookup)

def SamePolicies (p q : Dict String PolicySnapshot) : Prop :=
  ∀ service, (p.lookup service).map PolicySnapshot.content = (q.lookup service).map PolicySnapshot.content

theorem SamePolicies.refl (p : Dict String PolicySnapshot) : SamePolicies p p := fun _ => rfl

end AegisMesh.Policy

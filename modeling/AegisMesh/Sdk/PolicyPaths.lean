import AegisMesh.Sdk.RetryHistory

/-! # Two ways to the retry settings of a method -/

namespace AegisMesh.Sdk

open Policy

variable {d : DialOptions}

def SetsAttempts (policy : Option Policy.RetryPolicy) : Prop := ∀ p, policy = some p → p.enabled = true → 0 < p.maxAttempts

def Revivable (d : DialOptions) (policy : Option Policy.RetryPolicy) : Prop :=
  d.retryMode = .off → d.retryPolicy.maxAttempts ≤ 1 ∨ SetsAttempts policy

theorem Revivable.apply {policy next : Option Policy.RetryPolicy}
    (h : d.retryMode = .off → d.retryPolicy.maxAttempts ≤ 1 ∨ SetsAttempts next) :
    Revivable (applyRetryPolicyToDialOptions d policy) next := by
  unfold applyRetryPolicyToDialOptions
  split
  · exact h
  · split
    · unfold setRetryPolicy
      split
      · exact fun _ => .inl le_rfl
      · intro hoff
        cases hoff
    · exact h

/-! ## A method's entry -/

end AegisMesh.Sdk

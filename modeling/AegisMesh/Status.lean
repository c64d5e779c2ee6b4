import Mathlib.Tactic.Common

/-! # Status codes (`pkg/status`) -/

namespace AegisMesh

inductive Code
  | unspecified
  | healthy
  | degraded
  | ejected
  | probing
  | dead
  | unavailable
deriving DecidableEq, Repr

namespace Code

def parse (s : String) : Code :=
  if s = "" ∨ s = "HEALTHY" then .healthy
  else if s = "DEGRADED" then .degraded
  else if s = "EJECTED" then .ejected
  else if s = "PROBING" then .probing
  else if s = "DEAD" then .dead
  else if s = "UNAVAILABLE" then .unavailable
  else .unspecified

/-- `Code.String`: anything without a text of its own prints as healthy. -/
def string : Code → String
  | .healthy => "HEALTHY"
  | .degraded => "DEGRADED"
  | .ejected => "EJECTED"
  | .probing => "PROBING"
  | .dead => "DEAD"
  | .unavailable => "UNAVAILABLE"
  | .unspecified => "HEALTHY"

def normalized (c : Code) : Code := if c = .unspecified then .healthy else c

def counting (c : Code) : Prop := c.normalized ≠ .ejected ∧ c.normalized ≠ .probing

def routable (c : Code) : Bool :=
  match c.normalized with
  | .healthy | .degraded | .probing => true
  | _ => false

theorem counting_iff (c : Code) : c.counting ↔ c ≠ .ejected ∧ c ≠ .probing := by
  cases c <;> simp [counting, normalized]

theorem parse_string (c : Code) : parse c.string = c.normalized := by
  cases c <;> decide

@[simp] theorem normalized_ne (c : Code) : c.normalized ≠ .unspecified := by
  cases c <;> decide

end Code

end AegisMesh

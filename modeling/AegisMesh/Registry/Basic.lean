import Mathlib.Data.Finmap
import AegisMesh.Status

/-!
# What every registry stores

Times are instants in nanoseconds, counted from Go's zero `time.Time`, so `0` is
the value that `IsZero` tests for. Durations are signed nanoseconds. Strings are
valid UTF-8, as proto3 and JSON keep them.
-/

namespace AegisMesh.Registry

/-- `t.Add(d)`. Every caller has checked `0 < d`. -/
def addTTL (t : ℕ) (d : ℤ) : ℕ := t + d.toNat

/-- What a call learns from its context: `ctx n` is the answer to its `n`-th look,
`true` once the context is done. -/
abbrev Ctx := ℕ → Bool

def Ctx.background : Ctx := fun _ => false

def Ctx.after (ctx : Ctx) (k : ℕ) : Ctx := fun n => ctx (n + k)

inductive RegistryError
  | context
  | invalidInstance
  | instanceNotFound
  | registrationEpochMismatch
  | invalidWALRecord
  | invalidJSON
deriving DecidableEq, Repr

/-- `err.Error()`. The texts of a context and of the JSON decoder vary; one of each is kept. -/
def RegistryError.text : RegistryError → String
  | .context => "context canceled"
  | .invalidInstance => "invalid service instance"
  | .instanceNotFound => "service instance not found"
  | .registrationEpochMismatch => "registration epoch mismatch"
  | .invalidWALRecord => "invalid registry wal record"
  | .invalidJSON => "unexpected end of JSON input"

/-- A Go `map[string]string`, which can be nil. -/
abbrev Labels := Option (Finmap fun _ : String => String)

def Labels.pairs (l : Labels) : Finmap fun _ : String => String := l.getD ∅

structure Instance where
  id : String
  service : String
  address : String
  status : Code := .unspecified
  labels : Labels := none
  lastSeen : ℕ := 0
  registrationEpoch : String := ""
  ownerToken : String := ""
deriving DecidableEq

def cloneLabels (l : Labels) : Labels := l

def Instance.named (inst : Instance) : Bool :=
  inst.id ≠ "" && inst.service ≠ "" && inst.address ≠ ""

/-- What a reader can tell apart: nil and empty labels are one. -/
def Instance.seen (inst : Instance) : Instance := { inst with labels := some inst.labels.pairs }

inductive WriteCall
  | register (ctx : Ctx) (inst : Instance) (ttl : ℤ)
  | heartbeat (ctx : Ctx) (service id : String) (ttl : ℤ)
  | heartbeatWithEpoch (ctx : Ctx) (service id registrationEpoch : String) (ttl : ℤ)
  | heartbeatWithOwner (ctx : Ctx) (service id registrationEpoch ownerToken : String) (ttl : ℤ)

end AegisMesh.Registry

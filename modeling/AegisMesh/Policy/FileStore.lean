import AegisMesh.Lib.Runs
import AegisMesh.Policy.Snapshot

/-!
# The policy file

Reading the file, reading its modification time and publishing are separate steps, and others replace the
file meanwhile.
-/

namespace AegisMesh.Policy

open Lib

/-! ## The file's contents -/

structure RetryConfig where
  enabled : Bool := false
  maxAttempts : ℤ := 0
  budgetRatio : ℚ := 0
  minBudget : ℤ := 0
  windowSeconds : ℤ := 0
  perTryTimeoutMillis : ℤ := 0
deriving DecidableEq

structure OutlierDetectionConfig where
  degradedThreshold : ℚ := 0
  ejectThreshold : ℚ := 0
  consecutiveWindows : ℤ := 0
  ejectionDurationSeconds : ℤ := 0
  recoveryThreshold : ℚ := 0
  probeSuccessThreshold : ℚ := 0
deriving DecidableEq

structure CircuitBreakerConfig where
  maxInflightPerEndpoint : ℤ := 0
deriving DecidableEq

structure MethodPolicyConf where
  idempotent : Bool := false
  timeoutMillis : ℤ := 0
  retry : RetryConfig := {}
deriving DecidableEq

structure ServiceConfig where
  routingPolicy : String := ""
  retry : RetryConfig := {}
  outlierDetection : OutlierDetectionConfig := {}
  circuitBreaker : CircuitBreakerConfig := {}
  methods : Dict String MethodPolicyConf := ∅
deriving DecidableEq

structure FileConfig where
  services : Dict String ServiceConfig := ∅
deriving DecidableEq

def retryToProto (cfg : RetryConfig) : RetryPolicy where
  enabled := cfg.enabled
  maxAttempts := cfg.maxAttempts
  budgetRatio := cfg.budgetRatio
  minBudget := cfg.minBudget
  windowSeconds := cfg.windowSeconds
  perTryTimeoutMillis := cfg.perTryTimeoutMillis

def outlierToProto (cfg : OutlierDetectionConfig) : OutlierDetectionPolicy where
  degradedThreshold := cfg.degradedThreshold
  ejectThreshold := cfg.ejectThreshold
  consecutiveWindows := cfg.consecutiveWindows
  ejectionDurationSeconds := cfg.ejectionDurationSeconds
  recoveryThreshold := cfg.recoveryThreshold
  probeSuccessThreshold := cfg.probeSuccessThreshold

def circuitBreakerToProto (cfg : CircuitBreakerConfig) : CircuitBreakerPolicy where
  maxInflightPerEndpoint := cfg.maxInflightPerEndpoint

def FileConfig.policies (cfg : FileConfig) (revision : ℤ) : Dict String PolicySnapshot :=
  Dict.mapVal (fun service serviceCfg =>
    { service, revision
      routingPolicy := serviceCfg.routingPolicy
      retry := some (retryToProto serviceCfg.retry)
      outlierDetection := some (outlierToProto serviceCfg.outlierDetection)
      circuitBreaker := some (circuitBreakerToProto serviceCfg.circuitBreaker)
      methods := Dict.mapVal (fun method methodCfg =>
        { method
          idempotent := methodCfg.idempotent
          timeoutMillis := methodCfg.timeoutMillis
          retry := some (retryToProto methodCfg.retry) }) serviceCfg.methods }) cfg.services

/-! ## The store -/

structure File (ρ : Type) where
  raw : ρ
  modTime : ℤ
deriving DecidableEq

structure FileStore where
  modTime : ℤ := 0
  policies : Dict String PolicySnapshot := ∅
deriving DecidableEq

section Store

variable {ρ : Type} (yaml : ρ → Except String FileConfig)

namespace FileStore

def get (store : FileStore) (service : String) : Option PolicySnapshot := store.policies.lookup service

def reload (store : FileStore) (file : File ρ) : FileStore × Except String Unit :=
  match yaml file.raw with
  | .error err => (store, .error err)
  | .ok cfg => ({ modTime := file.modTime, policies := cfg.policies file.modTime }, .ok ())

def reloadIfChanged (store : FileStore) (file : File ρ) : FileStore × Except String Unit :=
  if file.modTime = store.modTime then (store, .ok ()) else store.reload yaml file

end FileStore

/-! ## Calls that run side by side -/

/-- Where a call stands. `read` holds the file's bytes; the modification time that the file had then is
kept for the proofs only. -/
inductive CallPhase (ρ : Type)
  | checking
  | checked (modTime : ℤ)
  | reloading
  | read (seen : File ρ)
  | statted (seen : File ρ) (modTime : ℤ)

structure Publication (ρ : Type) where
  seen : File ρ
  modTime : ℤ

def Publication.Straddles (p : Publication ρ) (file : File ρ) : Prop :=
  p.seen.modTime < file.modTime ∧ p.modTime = file.modTime

structure Reloaders (ρ : Type) where
  file : File ρ
  store : FileStore := {}
  calls : Dict ℕ (CallPhase ρ) := ∅
  last : Option (Publication ρ) := none

inductive FileEvent (ρ : Type)
  | replace (raw : ρ) (gap : ℕ)
  | reload (call : ℕ)
  | reloadIfChanged (call : ℕ)
  /-- The next step of a call. With `fails` the read or the stat in it returns an error. -/
  | advance (call : ℕ) (fails : Bool)

namespace Reloaders

def startCall (w : Reloaders ρ) (call : ℕ) (phase : CallPhase ρ) : Reloaders ρ :=
  if (w.calls.lookup call).isSome then w else { w with calls := w.calls.insert call phase }

def enter (w : Reloaders ρ) (call : ℕ) (phase : CallPhase ρ) : Reloaders ρ :=
  { w with calls := w.calls.insert call phase }

def finish (w : Reloaders ρ) (call : ℕ) : Reloaders ρ := { w with calls := w.calls.erase call }

def advance (w : Reloaders ρ) (call : ℕ) (fails : Bool) : Reloaders ρ :=
  match w.calls.lookup call with
  | none => w
  | some .checking => if fails then w.finish call else w.enter call (.checked w.file.modTime)
  | some (.checked modTime) => if modTime = w.store.modTime then w.finish call else w.enter call .reloading
  | some .reloading => if fails then w.finish call else w.enter call (.read w.file)
  | some (.read seen) => if fails then w.finish call else w.enter call (.statted seen w.file.modTime)
  | some (.statted seen modTime) =>
    match yaml seen.raw with
    | .error _ => w.finish call
    | .ok cfg =>
      { w.finish call with store := { modTime, policies := cfg.policies modTime }, last := some { seen, modTime } }

def step (w : Reloaders ρ) : FileEvent ρ → Reloaders ρ
  | .replace raw gap => { w with file := { raw, modTime := w.file.modTime + gap + 1 } }
  | .reload call => w.startCall call .reloading
  | .reloadIfChanged call => w.startCall call .checking
  | .advance call fails => w.advance yaml call fails

def run (w : Reloaders ρ) (events : List (FileEvent ρ)) : Reloaders ρ := events.foldl (step yaml) w

def opening (file : File ρ) : Reloaders ρ := ({ file } : Reloaders ρ).startCall 0 .reloading

theorem run_alone (w : Reloaders ρ) (call : ℕ) (hfree : w.calls.lookup call = none) :
    (w.run yaml (.reloadIfChanged call :: List.replicate 5 (.advance call false))).store =
      (w.store.reloadIfChanged yaml w.file).1 := by
  unfold FileStore.reloadIfChanged FileStore.reload
  by_cases hsame : w.file.modTime = w.store.modTime
  · simp [run, step, startCall, advance, hfree, enter, finish, hsame]
  · cases hyaml : yaml w.file.raw <;>
      simp [run, step, startCall, advance, hfree, enter, finish, hsame, hyaml]

/-! ## What a call holds -/

def Was (file seen : File ρ) : Prop := seen.modTime < file.modTime ∨ seen = file

def PhaseSound (file : File ρ) : CallPhase ρ → Prop
  | .read seen => Was file seen
  | .statted seen _ => Was file seen
  | _ => True

structure Sound (w : Reloaders ρ) : Prop where
  calls : ∀ call phase, w.calls.lookup call = some phase → PhaseSound w.file phase
  last : ∀ p, w.last = some p → Was w.file p.seen ∧
    ∃ cfg, yaml p.seen.raw = .ok cfg ∧ w.store = { modTime := p.modTime, policies := cfg.policies p.modTime }

variable {yaml} {w : Reloaders ρ}

theorem Was.replace {file seen : File ρ} (h : Was file seen) (raw : ρ) (gap : ℕ) :
    Was { raw, modTime := file.modTime + gap + 1 } seen := by
  left
  rcases h with h | rfl
  · dsimp only
    omega
  · dsimp only
    omega

theorem Sound.enter (h : Sound yaml w) (call : ℕ) {phase : CallPhase ρ} (hphase : PhaseSound w.file phase) :
    Sound yaml (w.enter call phase) := by
  refine ⟨fun call' phase' hlookup => ?_, h.last⟩
  simp only [Reloaders.enter, Dict.lookup_insert'] at hlookup
  split at hlookup
  · cases hlookup
    exact hphase
  · exact h.calls call' phase' hlookup

theorem Sound.finish (h : Sound yaml w) (call : ℕ) : Sound yaml (w.finish call) := by
  refine ⟨fun call' phase hlookup => ?_, h.last⟩
  simp only [Reloaders.finish, Dict.lookup_erase'] at hlookup
  split at hlookup
  · cases hlookup
  · exact h.calls call' phase hlookup

theorem Sound.startCall (h : Sound yaml w) (call : ℕ) {phase : CallPhase ρ} (hphase : PhaseSound w.file phase) :
    Sound yaml (w.startCall call phase) := by
  unfold Reloaders.startCall
  split
  · exact h
  · exact h.enter call hphase

theorem Sound.advance (h : Sound yaml w) (call : ℕ) (fails : Bool) : Sound yaml (w.advance yaml call fails) := by
  unfold Reloaders.advance
  split
  · exact h
  · split
    · exact h.finish call
    · exact h.enter call trivial
  · split
    · exact h.finish call
    · exact h.enter call trivial
  · split
    · exact h.finish call
    · exact h.enter call (.inr rfl)
  · rename_i seen hphase
    split
    · exact h.finish call
    · exact h.enter call (h.calls call (.read seen) hphase)
  · rename_i seen modTime hphase
    split
    · exact h.finish call
    · rename_i cfg hcfg
      refine ⟨(h.finish call).calls, fun p hp => ?_⟩
      cases hp
      exact ⟨h.calls call _ hphase, cfg, hcfg, rfl⟩

theorem Sound.step (w : Reloaders ρ) (event : FileEvent ρ) (h : Sound yaml w) : Sound yaml (w.step yaml event) := by
  cases event with
  | replace raw gap =>
    refine ⟨fun call phase hphase => ?_, fun p hp => ⟨(h.last p hp).1.replace raw gap, (h.last p hp).2⟩⟩
    have hsound := h.calls call phase hphase
    cases phase with
    | read seen => exact Was.replace hsound raw gap
    | statted seen modTime => exact Was.replace hsound raw gap
    | _ => trivial
  | reload call => exact h.startCall call trivial
  | reloadIfChanged call => exact h.startCall call trivial
  | advance call fails => exact h.advance call fails

theorem sound_run (file : File ρ) (events : List (FileEvent ρ)) : Sound yaml ((opening file).run yaml events) := by
  have hempty : Sound yaml ({ file } : Reloaders ρ) :=
    ⟨fun call phase h => by simp at h, fun p h => by simp at h⟩
  have hopening : Sound yaml (opening file) := by
    unfold opening
    exact hempty.startCall 0 trivial
  exact run_invariant Sound.step hopening events

/-! ## Convergence -/

/-- After every run a further `ReloadIfChanged` leaves the policies of the current file in the cache exactly
if the last publication does not straddle its last replacement, or the replaced contents say the same. -/
theorem reload_converges_iff (yaml : ρ → Except String FileConfig) (file : File ρ) (events : List (FileEvent ρ))
    (cfg : FileConfig) (p : Publication ρ) :
    let w := (opening file).run yaml events
    yaml w.file.raw = .ok cfg → w.last = some p →
    (SamePolicies (w.store.reloadIfChanged yaml w.file).1.policies (cfg.policies w.file.modTime) ↔
      (p.Straddles w.file → ∃ old, yaml p.seen.raw = .ok old ∧
        SamePolicies (old.policies w.file.modTime) (cfg.policies w.file.modTime))) := by
  intro w hcfg hp
  obtain ⟨hwas, old, hold, hstore⟩ := (sound_run file events : Sound yaml w).last p hp
  unfold FileStore.reloadIfChanged FileStore.reload Publication.Straddles
  by_cases hsame : w.file.modTime = p.modTime
  · rw [hstore, if_pos hsame, ← hsame]
    rcases hwas with holder | hnow
    · constructor
      · exact fun h _ => ⟨old, hold, h⟩
      · intro h
        obtain ⟨old', hold', hpolicies⟩ := h ⟨holder, rfl⟩
        rw [hold] at hold'
        cases hold'
        exact hpolicies
    · -- what was published is the current file
      rw [hnow, hcfg] at hold
      cases hold
      exact iff_of_true (SamePolicies.refl _) fun _ => ⟨cfg, hnow ▸ hcfg, SamePolicies.refl _⟩
  · rw [hstore, if_neg hsame, hcfg]
    refine iff_of_true (SamePolicies.refl _) fun h => absurd h.2.symm hsame

end Reloaders

end Store

/-! ## A replacement between the read and the stat -/

def withRetries (maxAttempts : ℤ) : FileConfig where
  services := Dict.mapVal (fun _ _ => { retry := { enabled := true, maxAttempts } }) (AList.singleton "order" ())

theorem replaced_file_never_loaded :
    let w := (Reloaders.opening ⟨withRetries 1, 10⟩).run .ok
      [.advance 0 false, .replace (withRetries 5) 0, .advance 0 false, .advance 0 false]
    w.calls.entries = [] ∧ (w.store.reloadIfChanged .ok w.file).2 = .ok () ∧
    (((w.store.reloadIfChanged .ok w.file).1.get "order").bind (·.retry)).map (·.maxAttempts) = some 1 ∧
    ((((withRetries 5).policies w.file.modTime).lookup "order").bind (·.retry)).map (·.maxAttempts) = some 5 := by
  decide

theorem later_replacement_loaded :
    let w := (Reloaders.opening ⟨withRetries 1, 10⟩).run .ok
      [.advance 0 false, .advance 0 false, .replace (withRetries 5) 0, .advance 0 false]
    SamePolicies (w.store.reloadIfChanged .ok w.file).1.policies ((withRetries 5).policies w.file.modTime) :=
  (Reloaders.reload_converges_iff .ok ⟨withRetries 1, 10⟩
    [.advance 0 false, .advance 0 false, .replace (withRetries 5) 0, .advance 0 false] (withRetries 5)
    ⟨⟨withRetries 1, 10⟩, 10⟩ rfl rfl).mpr fun h => absurd h.2 (by decide)

end AegisMesh.Policy

import AegisMesh.Lib.Threads

/-!
# Limits on calls in flight

A limiter counts its permits with compare-and-swap, and looks at the maximum once more afterwards.
-/

namespace AegisMesh.CircuitBreaker

open Lib

def defaultMaxInflightPerEndpoint : ℤ := 128

def normalizeMaxInflight (max : ℤ) : ℤ := if max ≤ 0 then defaultMaxInflightPerEndpoint else max

structure Limiters where
  max : ℤ
  inflight : ℕ → ℤ := fun _ => 0

namespace Limiters

def newMaxInflight (max : ℤ) : Limiters where
  max := normalizeMaxInflight max

def setMax (ls : Limiters) (max : ℤ) : Limiters := { ls with max := normalizeMaxInflight max }

def loadMax (ls : Limiters) : ℤ := normalizeMaxInflight ls.max

def store (ls : Limiters) (l : ℕ) (n : ℤ) : Limiters := { ls with inflight := Function.update ls.inflight l n }

@[simp] theorem inflight_store (ls : Limiters) (l : ℕ) (n : ℤ) (k : ℕ) :
    (ls.store l n).inflight k = if k = l then n else ls.inflight k := by
  simp [store, Function.update_apply]

end Limiters

/-! ## Steps -/

/-- Where a call of `TryAcquire` or `Release` is. A release begins at `releasing`. -/
inductive LimiterPlace
  | loading
  | loaded (current : ℤ)
  | swapping (current : ℤ)
  | rechecking (count : ℤ)
  | releasing
  | lowering (current : ℤ)
  | left (answer : Bool)
deriving DecidableEq

def LimiterPlace.holds : LimiterPlace → Bool
  | .rechecking _ | .releasing | .lowering _ => true
  | .left answer => answer
  | _ => false

def LimiterPlace.givesBack : LimiterPlace → Bool
  | .releasing | .lowering _ | .left false => true
  | _ => false

namespace Limiters

variable (ls : Limiters) (l : ℕ)

def step : LimiterPlace → Option (Limiters × LimiterPlace)
  | .loading => some (ls, .loaded (ls.inflight l))
  | .loaded current => some (ls, if ls.loadMax ≤ current then .left false else .swapping current)
  | .swapping current =>
    if ls.inflight l = current then some (ls.store l (current + 1), .rechecking (current + 1)) else some (ls, .loading)
  | .rechecking count => some (ls, if count ≤ ls.loadMax then .left true else .releasing)
  | .releasing => some (ls, if ls.inflight l ≤ 0 then .left false else .lowering (ls.inflight l))
  | .lowering current =>
    if ls.inflight l = current then some (ls.store l (current - 1), .left false) else some (ls, .releasing)
  | .left _ => none

inductive Did : LimiterPlace → Limiters → LimiterPlace → Prop
  | quiet {old new} (hholds : new.holds = old.holds) (hgives : old.givesBack = true → new.givesBack = true)
    (hmax : ∀ current, new = .swapping current → current < ls.loadMax) : Did old ls new
  | took {current} (hcurrent : ls.inflight l = current) :
    Did (.swapping current) (ls.store l (current + 1)) (.rechecking (current + 1))
  | gave {current} (hcurrent : ls.inflight l = current) : Did (.lowering current) (ls.store l (current - 1)) (.left false)
  | missed (hzero : ls.inflight l ≤ 0) : Did .releasing ls (.left false)

variable {ls l} {ls' : Limiters} {old new : LimiterPlace}

theorem did_step (h : ls.step l old = some (ls', new)) : ls.Did l old ls' new := by
  cases old with
  | loading =>
    cases h
    exact .quiet rfl (by simp [LimiterPlace.givesBack]) (by simp)
  | loaded current =>
    cases h
    split
    · exact .quiet rfl (by simp [LimiterPlace.givesBack]) (by simp)
    · rename_i hless
      refine .quiet rfl (by simp [LimiterPlace.givesBack]) fun current' heq => ?_
      cases heq
      exact not_le.mp hless
  | swapping current =>
    simp only [step] at h
    split at h
    · cases h
      exact .took ‹_›
    · cases h
      exact .quiet rfl (by simp [LimiterPlace.givesBack]) (by simp)
  | rechecking count =>
    cases h
    split <;> exact .quiet rfl (by simp [LimiterPlace.givesBack]) (by simp)
  | releasing =>
    cases h
    split
    · exact .missed ‹_›
    · exact .quiet rfl (by simp [LimiterPlace.givesBack]) (by simp)
  | lowering current =>
    simp only [step] at h
    split at h
    · cases h
      exact .gave ‹_›
    · cases h
      exact .quiet rfl (by simp [LimiterPlace.givesBack]) (by simp)
  | left answer => cases h

theorem Did.inflight (h : ls.Did l old ls' new) (hcounted : old.holds = true → 0 < ls.inflight l) (k : ℕ) :
    ls'.inflight k + (if k = l then old.holds.toNat else 0) = ls.inflight k + if k = l then new.holds.toNat else 0 := by
  cases h with
  | quiet hholds hgives hmax => rw [hholds]
  | took hcurrent =>
    rw [inflight_store]
    by_cases hkl : k = l <;> simp [hkl, LimiterPlace.holds, hcurrent]
  | gave hcurrent =>
    rw [inflight_store]
    by_cases hkl : k = l <;> simp [hkl, LimiterPlace.holds, hcurrent]
  | missed hzero => exact absurd (hcounted rfl) (not_lt.mpr hzero)

theorem count_le_of_step (h : ls.step l old = some (ls', .left true)) :
    ∃ count, old = .rechecking count ∧ count ≤ ls.loadMax := by
  cases old with
  | rechecking count =>
    refine ⟨count, rfl, ?_⟩
    by_contra hless
    simp [step, hless] at h
  | loaded current =>
    simp only [step] at h
    split at h <;> cases h
  | swapping current =>
    simp only [step] at h
    split at h <;> cases h
  | releasing =>
    simp only [step] at h
    split at h <;> cases h
  | lowering current =>
    simp only [step] at h
    split at h <;> cases h
  | loading => cases h
  | left answer => cases h

theorem Did.givesBack (h : ls.Did l old ls' new) (hold : old.givesBack = true) : new.givesBack = true := by
  cases h with
  | quiet hholds hgives hmax => exact hgives hold
  | took hcurrent => cases hold
  | gave hcurrent => rfl
  | missed hzero => rfl

end Limiters

/-! ## Permits -/

section

variable {τ : Type} (permit : τ → Option ℕ)

def permits (l : ℕ) (threads : Dict ℕ τ) : ℕ := Threads.total (fun t => if permit t = some l then 1 else 0) threads

def Accounted (ls : Limiters) (threads : Dict ℕ τ) : Prop := ∀ l, ls.inflight l = permits permit l threads

variable {permit} {ls ls' : Limiters} {threads : Dict ℕ τ} {id l : ℕ} {t t' : τ} {old new : LimiterPlace}

theorem permits_insert (permit : τ → Option ℕ) (k : ℕ) (ht : threads.lookup id = some t) (t' : τ) :
    permits permit k (threads.insert id t') + (if permit t = some k then 1 else 0) =
      permits permit k threads + if permit t' = some k then 1 else 0 :=
  Threads.total_insert _ ht t'

theorem Accounted.called (h : Accounted permit ls threads) (hid : threads.lookup id = none) (ht : permit t = none) :
    Accounted permit ls (threads.insert id t) := by
  intro k
  rw [h k, permits, permits, Threads.total_insert_of_none _ hid, if_neg (by simp [ht]), Nat.zero_add]

theorem Accounted.stays (h : Accounted permit ls threads) (ht : threads.lookup id = some t) (hsame : permit t' = permit t) :
    Accounted permit ls (threads.insert id t') := by
  intro k
  have hmove := permits_insert permit k ht t'
  rw [hsame] at hmove
  rw [h k, Nat.add_right_cancel hmove]

theorem one_le_permits (permit : τ → Option ℕ) (ht : threads.lookup id = some t) (hpermit : permit t = some l) :
    1 ≤ permits permit l threads := by
  have hone := Threads.le_total (f := fun t => if permit t = some l then 1 else 0) ht
  rwa [if_pos hpermit] at hone

theorem permits_step (permit : τ → Option ℕ) (ht : threads.lookup id = some t) (t' : τ)
    (hold : permit t = if old.holds then some l else none) (hnew : permit t' = if new.holds then some l else none) (k : ℕ) :
    permits permit k (threads.insert id t') + (if k = l then old.holds.toNat else 0) =
      permits permit k threads + if k = l then new.holds.toNat else 0 := by
  have hmove := permits_insert permit k ht t'
  have hone : ∀ holds : Bool, (if (if holds then some l else none) = some k then 1 else 0) =
      if k = l then holds.toNat else 0 := by
    intro holds
    cases holds <;> simp [eq_comm]
  rwa [hold, hnew, hone, hone] at hmove

theorem Accounted.did (h : Accounted permit ls threads) (ht : threads.lookup id = some t)
    (hold : permit t = if old.holds then some l else none) (hnew : permit t' = if new.holds then some l else none)
    (hdid : ls.Did l old ls' new) : Accounted permit ls' (threads.insert id t') := by
  intro k
  have hcounted : old.holds = true → 0 < ls.inflight l := by
    intro hholds
    rw [hholds, if_pos rfl] at hold
    have hone := one_le_permits permit ht hold
    rw [h l]
    omega
  have hinflight := hdid.inflight hcounted k
  have hpermits := permits_step permit ht t' hold hnew k
  have hk := h k
  omega

theorem below_max {max : ℤ} (h : ∀ k, ls.inflight k ≤ max) (hmax : ls.loadMax = max)
    (hold : ∀ current, old = .swapping current → current < max) (hdid : ls.Did l old ls' new) :
    (∀ k, ls'.inflight k ≤ max) ∧ ls'.loadMax = max ∧ ∀ current, new = .swapping current → current < max := by
  cases hdid with
  | quiet hholds hgives hless => exact ⟨h, hmax, fun current hc => hmax ▸ hless current hc⟩
  | @took current hcurrent =>
    refine ⟨fun k => ?_, hmax, by simp⟩
    have hless := hold current rfl
    rw [Limiters.inflight_store]
    split
    · omega
    · exact h k
  | @gave current hcurrent =>
    refine ⟨fun k => ?_, hmax, by simp⟩
    have hl := h l
    rw [Limiters.inflight_store]
    split
    · omega
    · exact h k
  | missed hzero => exact ⟨h, hmax, by simp⟩

end

end AegisMesh.CircuitBreaker

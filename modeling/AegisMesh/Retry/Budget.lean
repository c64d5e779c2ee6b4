import Mathlib.Data.Rat.Floor
import AegisMesh.Lib.RWMutex
import AegisMesh.Sdk.Policy

/-!
# Retry budgets

Attempts are counted with the read lock held. A retry first counts itself and then looks whether that was one
too many.
-/

namespace AegisMesh.Retry

open Lib

/-! ## Budgets -/

/-- What a window has seen: how many first attempts, and the calls whose retries it has let through. The code
keeps numbers only. -/
structure Window where
  originals : ℕ := 0
  admitted : List ℕ := []
deriving DecidableEq

structure Budget where
  mu : RWMutex := {}
  cfg : Sdk.BudgetConfig
  windowStart : ℤ
  originalRequests : ℤ := 0
  retryRequests : ℤ := 0
  current : Window := {}
  past : List Window := []
  ratio_nonneg : 0 ≤ cfg.budgetRatio
  min_nonneg : 0 ≤ cfg.minBudget

def newBudget (cfg : Sdk.BudgetConfig) (now : ℤ) : Budget where
  cfg := Sdk.newBudget cfg
  windowStart := now
  ratio_nonneg := by
    simp only [Sdk.newBudget]
    split
    · exact le_rfl
    · exact le_of_not_gt ‹_›
  min_nonneg := by
    simp only [Sdk.newBudget]
    split
    · exact le_rfl
    · exact le_of_not_gt ‹_›

def allowedRetriesFor (cfg : Sdk.BudgetConfig) (originalRequests : ℤ) : ℤ :=
  let ratioBudget := ⌊(originalRequests : ℚ) * cfg.budgetRatio + 1 / 1000000000⌋
  if ratioBudget < cfg.minBudget then cfg.minBudget else ratioBudget

def Budget.nextWindow (b : Budget) (now : ℤ) : Budget :=
  { b with
    windowStart := now
    originalRequests := 0
    retryRequests := 0
    current := {}
    past := b.past ++ [b.current] }

def Budget.windows (b : Budget) : List Window := b.past ++ [b.current]

def Budget.admissions (b : Budget) : List ℕ := b.windows.flatMap Window.admitted

/-! ## The steps of its calls -/

inductive BudgetOp
  | recordOriginal
  | tryAcquireRetry
deriving DecidableEq

/-- Where a call of the budget is. The places up to `inside` are those of `lockCurrentWindow`. -/
inductive OpPlace
  | entered
  | arriving (now : ℤ)
  | checking (now : ℤ)
  | expired
  | announced
  | resetting
  | reset
  | reopened
  | inside
  | admitting (allowed : ℤ)
  /-- The retry has counted itself and was one too many. -/
  | exceeding
  | leaving (answer : Bool)
  | left (answer : Bool)
deriving DecidableEq

namespace OpPlace

def role : OpPlace → LockRole
  | .checking _ | .inside | .admitting _ | .exceeding | .leaving _ => .reading
  | .announced => .pending
  | .resetting | .reset => .writing
  | _ => .away

def limit : OpPlace → Option ℤ
  | .admitting allowed => some allowed
  | _ => none

def excess : OpPlace → ℕ
  | .exceeding => 1
  | _ => 0

def granted : OpPlace → Bool
  | .leaving answer | .left answer => answer
  | _ => false

def rank : OpPlace → ℕ
  | .entered => 12
  | .arriving _ => 11
  | .checking _ => 10
  | .expired => 9
  | .announced => 8
  | .resetting => 7
  | .reset => 6
  | .reopened => 5
  | .inside => 4
  | .admitting _ => 3
  | .exceeding => 2
  | .leaving _ => 1
  | .left _ => 0

structure Plain (place : OpPlace) : Prop where
  limit : place.limit = none
  excess : place.excess = 0

end OpPlace

namespace Budget

variable (b : Budget)

def pass (old new : OpPlace) : Option (Budget × OpPlace) :=
  (b.mu.pass old.role new.role).map fun mu => ({ b with mu }, new)

def body : BudgetOp → Budget × OpPlace
  | .recordOriginal =>
    ({ b with
        originalRequests := b.originalRequests + 1
        current := { b.current with originals := b.current.originals + 1 } }, .leaving true)
  | .tryAcquireRetry =>
    let allowed := allowedRetriesFor b.cfg b.originalRequests
    if allowed ≤ 0 then (b, .leaving false) else (b, .admitting allowed)

def count (id : ℕ) (allowed : ℤ) : Budget × OpPlace :=
  let retries := b.retryRequests + 1
  if retries ≤ allowed then
    ({ b with
        retryRequests := retries
        current := { b.current with admitted := b.current.admitted ++ [id] } }, .leaving true)
  else ({ b with retryRequests := retries }, .exceeding)

def opStep (id : ℕ) (op : BudgetOp) (place : OpPlace) (now : ℤ) : Option (Budget × OpPlace) :=
  match place with
  | .entered => some (b, .arriving now)
  | .arriving time => b.pass (.arriving time) (.checking time)
  | .checking time =>
    if time - b.windowStart < b.cfg.window then some (b, .inside) else b.pass (.checking time) .expired
  | .expired => b.pass .expired .announced
  | .announced => b.pass .announced .resetting
  | .resetting => if b.cfg.window ≤ now - b.windowStart then some (b.nextWindow now, .reset) else some (b, .reset)
  | .reset => b.pass .reset .reopened
  | .reopened => b.pass .reopened .inside
  | .inside => some (b.body op)
  | .admitting allowed => some (b.count id allowed)
  | .exceeding => some ({ b with retryRequests := b.retryRequests - 1 }, .leaving false)
  | .leaving answer => b.pass (.leaving answer) (.left answer)
  | .left _ => none

inductive OpDid (id : ℕ) (op : BudgetOp) : OpPlace → Budget → OpPlace → Prop
  | quiet {old new} (hold : old.Plain) (hnew : new.Plain) (hgranted : new.granted = old.granted)
    (hrole : new.role = old.role) : OpDid id op old b new
  | passed {old new mu} (hold : old.Plain) (hnew : new.Plain) (hgranted : new.granted = old.granted)
    (hpass : b.mu.pass old.role new.role = some mu) : OpDid id op old { b with mu } new
  | opened {now} : OpDid id op .resetting (b.nextWindow now) .reset
  | recorded (hop : op = .recordOriginal) : OpDid id op .inside
      { b with
        originalRequests := b.originalRequests + 1
        current := { b.current with originals := b.current.originals + 1 } } (.leaving true)
  | loaded (hop : op = .tryAcquireRetry) :
    OpDid id op .inside b (.admitting (allowedRetriesFor b.cfg b.originalRequests))
  | admitted {allowed} (hallowed : b.retryRequests + 1 ≤ allowed) : OpDid id op (.admitting allowed)
      { b with
        retryRequests := b.retryRequests + 1
        current := { b.current with admitted := b.current.admitted ++ [id] } } (.leaving true)
  | exceeded {allowed} : OpDid id op (.admitting allowed) { b with retryRequests := b.retryRequests + 1 } .exceeding
  | undone : OpDid id op .exceeding { b with retryRequests := b.retryRequests - 1 } (.leaving false)

variable {b} {b' : Budget} {id : ℕ} {op : BudgetOp} {place place' : OpPlace} {now : ℤ} {old new : OpPlace}

theorem did_pass (h : b.pass old new = some (b', place')) (hold : old.Plain) (hnew : new.Plain)
    (hgranted : new.granted = old.granted) : b.OpDid id op old b' place' := by
  obtain ⟨mu, hmu, heq⟩ := Option.map_eq_some_iff.mp h
  cases heq
  exact .passed hold hnew hgranted hmu

theorem did_opStep (h : b.opStep id op place now = some (b', place')) : b.OpDid id op place b' place' := by
  cases place with
  | entered =>
    cases h
    exact .quiet ⟨rfl, rfl⟩ ⟨rfl, rfl⟩ rfl rfl
  | arriving time => exact did_pass h ⟨rfl, rfl⟩ ⟨rfl, rfl⟩ rfl
  | checking time =>
    simp only [opStep] at h
    split at h
    · cases h
      exact .quiet ⟨rfl, rfl⟩ ⟨rfl, rfl⟩ rfl rfl
    · exact did_pass h ⟨rfl, rfl⟩ ⟨rfl, rfl⟩ rfl
  | expired => exact did_pass h ⟨rfl, rfl⟩ ⟨rfl, rfl⟩ rfl
  | announced => exact did_pass h ⟨rfl, rfl⟩ ⟨rfl, rfl⟩ rfl
  | resetting =>
    simp only [opStep] at h
    split at h
    · cases h
      exact .opened
    · cases h
      exact .quiet ⟨rfl, rfl⟩ ⟨rfl, rfl⟩ rfl rfl
  | reset => exact did_pass h ⟨rfl, rfl⟩ ⟨rfl, rfl⟩ rfl
  | reopened => exact did_pass h ⟨rfl, rfl⟩ ⟨rfl, rfl⟩ rfl
  | inside =>
    cases op with
    | recordOriginal =>
      cases h
      exact .recorded rfl
    | tryAcquireRetry =>
      simp only [opStep, body] at h
      split at h
      · cases h
        exact .quiet ⟨rfl, rfl⟩ ⟨rfl, rfl⟩ rfl rfl
      · cases h
        exact .loaded rfl
  | admitting allowed =>
    simp only [opStep, count] at h
    split at h
    · cases h
      exact .admitted ‹_›
    · cases h
      exact .exceeded
  | exceeding =>
    cases h
    exact .undone
  | leaving answer => exact did_pass h ⟨rfl, rfl⟩ ⟨rfl, rfl⟩ rfl
  | left answer => cases h

theorem OpDid.cfg_eq (h : b.OpDid id op place b' place') : b'.cfg = b.cfg := by cases h <;> rfl

theorem OpDid.admissions (h : b.OpDid id op place b' place') :
    b'.admissions = b.admissions ∨ b'.admissions = b.admissions ++ [id] := by
  cases h with
  | opened => exact .inl (by simp [Budget.admissions, windows, nextWindow])
  | recorded => exact .inl (by simp [Budget.admissions, windows])
  | admitted hallowed => exact .inr (by simp [Budget.admissions, windows])
  | _ => exact .inl rfl

theorem OpDid.admissions_retry (h : b.OpDid id .tryAcquireRetry place b' place') :
    b'.admissions = b.admissions ∧ place'.granted = place.granted ∨
    b'.admissions = b.admissions ++ [id] ∧ place.granted = false ∧ place'.granted = true := by
  cases h with
  | quiet hold hnew hgranted hrole => exact .inl ⟨rfl, hgranted⟩
  | passed hold hnew hgranted hpass => exact .inl ⟨rfl, hgranted⟩
  | opened => exact .inl ⟨by simp [Budget.admissions, windows, nextWindow], rfl⟩
  | recorded hop => cases hop
  | loaded => exact .inl ⟨rfl, rfl⟩
  | admitted hallowed => exact .inr ⟨by simp [Budget.admissions, windows], rfl, rfl⟩
  | exceeded => exact .inl ⟨rfl, rfl⟩
  | undone => exact .inl ⟨rfl, rfl⟩

theorem OpDid.admissions_original (h : b.OpDid id .recordOriginal place b' place') (hplain : place.Plain) :
    b'.admissions = b.admissions ∧ place'.Plain := by
  cases h with
  | quiet hold hnew hgranted hrole => exact ⟨rfl, hnew⟩
  | passed hold hnew hgranted hpass => exact ⟨rfl, hnew⟩
  | opened => exact ⟨by simp [Budget.admissions, windows, nextWindow], rfl, rfl⟩
  | recorded hop => exact ⟨by simp [Budget.admissions, windows], rfl, rfl⟩
  | loaded hop => cases hop
  | admitted hallowed => cases hplain.limit
  | exceeded => cases hplain.limit
  | undone => cases hplain.excess

/-! ## Who can go on -/

theorem pass_eq {mu : RWMutex} (h : b.mu.pass old.role new.role = some mu) :
    b.pass old new = some ({ b with mu }, new) := by
  rw [pass, h]
  rfl

theorem opStep_isSome (id : ℕ) (op : BudgetOp) (now : ℤ) (hplace : ∀ answer, place ≠ .left answer)
    (h : place.role = .reading ∨ place.role = .writing ∨ place.role = .pending ∧ b.mu.readers = 0 ∨ b.mu = {}) :
    ∃ b' place', b.opStep id op place now = some (b', place') := by
  cases place with
  | left answer => exact absurd rfl (hplace answer)
  | entered => exact ⟨_, _, rfl⟩
  | inside => exact ⟨_, _, rfl⟩
  | admitting allowed => exact ⟨_, _, rfl⟩
  | exceeding => exact ⟨_, _, rfl⟩
  | leaving answer => exact ⟨_, _, rfl⟩
  | reset => exact ⟨_, _, rfl⟩
  | checking time =>
    simp only [opStep]
    split <;> exact ⟨_, _, rfl⟩
  | resetting =>
    simp only [opStep]
    split <;> exact ⟨_, _, rfl⟩
  | arriving time =>
    have hfree : b.mu = {} := by simpa [OpPlace.role] using h
    exact ⟨_, _, pass_eq (by rw [hfree]; rfl)⟩
  | expired =>
    have hfree : b.mu = {} := by simpa [OpPlace.role] using h
    exact ⟨_, _, pass_eq (by rw [hfree]; rfl)⟩
  | reopened =>
    have hfree : b.mu = {} := by simpa [OpPlace.role] using h
    exact ⟨_, _, pass_eq (by rw [hfree]; rfl)⟩
  | announced =>
    have hnone : b.mu.readers = 0 := by
      rcases h with h | h | ⟨-, h⟩ | h
      · cases h
      · cases h
      · exact h
      · rw [h]
    exact ⟨_, _, pass_eq (if_pos hnone)⟩

theorem rank_pass (h : b.pass old new = some (b', place')) (hrank : new.rank < old.rank) :
    place'.rank < old.rank := by
  obtain ⟨mu, -, heq⟩ := Option.map_eq_some_iff.mp h
  cases heq
  exact hrank

theorem rank_opStep (h : b.opStep id op place now = some (b', place')) : place'.rank < place.rank := by
  cases place with
  | entered =>
    cases h
    simp [OpPlace.rank]
  | arriving time => exact rank_pass h (by simp [OpPlace.rank])
  | checking time =>
    simp only [opStep] at h
    split at h
    · cases h
      simp [OpPlace.rank]
    · exact rank_pass h (by simp [OpPlace.rank])
  | expired => exact rank_pass h (by simp [OpPlace.rank])
  | announced => exact rank_pass h (by simp [OpPlace.rank])
  | resetting =>
    simp only [opStep] at h
    split at h <;> (cases h; simp [OpPlace.rank])
  | reset => exact rank_pass h (by simp [OpPlace.rank])
  | reopened => exact rank_pass h (by simp [OpPlace.rank])
  | inside =>
    cases op with
    | recordOriginal =>
      cases h
      simp [OpPlace.rank]
    | tryAcquireRetry =>
      simp only [opStep, body] at h
      split at h <;> (cases h; simp [OpPlace.rank])
  | admitting allowed =>
    simp only [opStep, count] at h
    split at h <;> (cases h; simp [OpPlace.rank])
  | exceeding =>
    cases h
    simp [OpPlace.rank]
  | leaving answer => exact rank_pass h (by simp [OpPlace.rank])
  | left answer => cases h

end Budget

/-! ## What the counters say -/

theorem allowedRetriesFor_eq (cfg : Sdk.BudgetConfig) (originals : ℤ) :
    allowedRetriesFor cfg originals = max cfg.minBudget ⌊cfg.budgetRatio * originals + 1 / 1000000000⌋ := by
  unfold allowedRetriesFor
  rw [mul_comm]
  dsimp only
  split
  · exact (max_eq_left (le_of_lt ‹_›)).symm
  · exact (max_eq_right (not_lt.mp ‹_›)).symm

theorem allowedRetriesFor_mono (b : Budget) {n m : ℤ} (h : n ≤ m) :
    allowedRetriesFor b.cfg n ≤ allowedRetriesFor b.cfg m := by
  rw [allowedRetriesFor_eq, allowedRetriesFor_eq]
  have hcast : (n : ℚ) ≤ m := by exact_mod_cast h
  have hmul := mul_le_mul_of_nonneg_left hcast b.ratio_nonneg
  exact max_le_max le_rfl (Int.floor_mono (by linarith))

theorem allowedRetriesFor_nonneg (b : Budget) (n : ℤ) : 0 ≤ allowedRetriesFor b.cfg n := by
  rw [allowedRetriesFor_eq]
  exact le_trans b.min_nonneg (le_max_left _ _)

def Window.Within (cfg : Sdk.BudgetConfig) (w : Window) : Prop := (w.admitted.length : ℤ) ≤ allowedRetriesFor cfg w.originals

section

variable {τ : Type} (place : τ → OpPlace)

def ahead (threads : Dict ℕ τ) : ℕ := Threads.total (fun t => (place t).excess) threads

structure Counts (b : Budget) (threads : Dict ℕ τ) : Prop where
  lock : b.mu.Agrees (fun t => (place t).role) threads
  originals : b.originalRequests = b.current.originals
  retries : b.retryRequests = b.current.admitted.length + ahead place threads
  limits : ∀ id t allowed, threads.lookup id = some t → (place t).limit = some allowed →
    allowed ≤ allowedRetriesFor b.cfg b.originalRequests
  within : ∀ w ∈ b.windows, w.Within b.cfg

variable {place} {b b' : Budget} {threads : Dict ℕ τ} {id : ℕ} {t t' : τ}

theorem counts_initial (cfg : Sdk.BudgetConfig) (now : ℤ) : Counts place (newBudget cfg now) (∅ : Dict ℕ τ) := by
  refine ⟨RWMutex.agrees_initial, rfl, rfl, fun id t allowed ht => by simp at ht, fun w hw => ?_⟩
  obtain rfl : w = {} := List.mem_singleton.mp hw
  exact allowedRetriesFor_nonneg (newBudget cfg now) _

theorem ahead_insert (place : τ → OpPlace) (ht : threads.lookup id = some t) (t' : τ) :
    ahead place (threads.insert id t') + (place t).excess = ahead place threads + (place t').excess :=
  Threads.total_insert _ ht t'

theorem Counts.limits_insert (h : Counts place b threads) {n : ℤ} (hn : b.originalRequests ≤ n)
    (hnew : ∀ allowed, (place t').limit = some allowed → allowed ≤ allowedRetriesFor b.cfg n) :
    ∀ other u allowed, (threads.insert id t').lookup other = some u → (place u).limit = some allowed →
      allowed ≤ allowedRetriesFor b.cfg n := by
  intro other u allowed hu hallowed
  rw [Dict.lookup_insert'] at hu
  split at hu
  · cases hu
    exact hnew allowed hallowed
  · exact le_trans (h.limits other u allowed hu hallowed) (allowedRetriesFor_mono b hn)

theorem Counts.limits_plain (h : Counts place b threads) {n : ℤ} (hn : b.originalRequests ≤ n)
    (hnew : (place t').limit = none) : ∀ other u allowed, (threads.insert id t').lookup other = some u →
      (place u).limit = some allowed → allowed ≤ allowedRetriesFor b.cfg n :=
  h.limits_insert hn fun allowed hallowed => by rw [hnew] at hallowed; cases hallowed

theorem Counts.called (h : Counts place b threads) (hid : threads.lookup id = none) (ht : (place t).Plain)
    (haway : (place t).role = .away) : Counts place b (threads.insert id t) := by
  refine ⟨h.lock.called hid haway, h.originals, ?_, ?_, h.within⟩
  · rw [h.retries, ahead, ahead, Threads.total_insert_of_none _ hid, ht.excess, Nat.zero_add]
  · exact h.limits_plain le_rfl ht.limit

theorem Counts.quiet (h : Counts place b threads) (ht : threads.lookup id = some t) (hold : (place t).Plain)
    (hnew : (place t').Plain) (hrole : (place t').role = (place t).role) : Counts place b (threads.insert id t') := by
  have hahead := ahead_insert place ht t'
  rw [hold.excess, hnew.excess] at hahead
  exact ⟨h.lock.stays ht hrole, h.originals, by rw [h.retries]; omega, h.limits_plain le_rfl hnew.limit, h.within⟩

theorem Counts.ahead_eq_zero (h : Counts place b threads) (ht : threads.lookup id = some t)
    (hwriting : (place t).role = .writing) : ahead place threads = 0 := by
  by_contra hsome
  obtain ⟨other, u, hu, hexcess⟩ := Threads.exists_of_total_ne_zero hsome
  refine h.lock.no_reader ht hwriting hu ?_
  cases hplace : place u <;> simp_all [OpPlace.excess, OpPlace.role]

theorem Counts.no_limit (h : Counts place b threads) (ht : threads.lookup id = some t)
    (hwriting : (place t).role = .writing) {other : ℕ} {u : τ} (hu : threads.lookup other = some u) :
    (place u).limit = none := by
  have hreading := h.lock.no_reader ht hwriting hu
  cases hplace : place u <;> simp_all [OpPlace.limit, OpPlace.role]

theorem Counts.within_current (h : Counts place b threads) {current : Window} (hcurrent : current.Within b.cfg) :
    ∀ w ∈ b.past ++ [current], w.Within b.cfg := by
  intro w hw
  rcases List.mem_append.mp hw with hpast | hlast
  · exact h.within w (List.mem_append_left _ hpast)
  · rw [List.mem_singleton.mp hlast]
    exact hcurrent

theorem Counts.did {op : BudgetOp} (h : Counts place b threads) (ht : threads.lookup id = some t)
    (hdid : b.OpDid id op (place t) b' (place t')) : Counts place b' (threads.insert id t') := by
  have hahead := ahead_insert place ht t'
  generalize hold : place t = old at hdid
  generalize hnew : place t' = new at hdid
  have hreads : ∀ allowed, old = .inside ∨ old = .admitting allowed ∨ old = .exceeding → (new.role = .reading) →
      (place t').role = (place t).role := by
    rintro allowed (rfl | rfl | rfl) hrole <;> rw [hnew, hold, hrole] <;> rfl
  cases hdid with
  | quiet hplain hplain' hgranted hrole =>
    exact h.quiet ht (hold ▸ hplain) (hnew ▸ hplain') (by rw [hold, hnew, hrole])
  | @passed _ _ mu hplain hplain' hgranted hpass =>
    rw [hold, hnew, hplain.excess, hplain'.excess] at hahead
    refine ⟨h.lock.passes ht (by rw [hold, hnew]; exact hpass), h.originals, ?_, ?_, h.within⟩
    · simp only [h.retries]
      omega
    · exact h.limits_plain le_rfl (by rw [hnew, hplain'.limit])
  | opened =>
    have hwriting : (place t).role = .writing := by rw [hold]; rfl
    have hzero := h.ahead_eq_zero ht hwriting
    rw [hold, hnew, hzero] at hahead
    refine ⟨h.lock.stays ht (by rw [hold, hnew]; rfl), rfl, ?_, ?_, ?_⟩
    · simp only [OpPlace.excess] at hahead
      simp only [Budget.nextWindow, List.length_nil]
      omega
    · intro other u allowed hu hallowed
      rw [Dict.lookup_insert'] at hu
      split at hu
      · cases hu
        rw [hnew] at hallowed
        cases hallowed
      · rw [h.no_limit ht hwriting hu] at hallowed
        cases hallowed
    · intro w hw
      rcases List.mem_append.mp hw with hpast | hcurrent
      · exact h.within w hpast
      · obtain rfl : w = {} := List.mem_singleton.mp hcurrent
        exact allowedRetriesFor_nonneg b _
  | recorded =>
    rw [hold, hnew] at hahead
    refine ⟨h.lock.stays ht (hreads 0 (.inl rfl) rfl), ?_, ?_, ?_, ?_⟩
    · simp [h.originals]
    · simp only [OpPlace.excess] at hahead
      simp only [h.retries]
      omega
    · exact h.limits_plain (by dsimp only; omega) (by rw [hnew]; rfl)
    · have hwithin := h.within b.current (List.mem_append_right _ (List.mem_singleton_self _))
      exact h.within_current (le_trans hwithin (allowedRetriesFor_mono b (by dsimp only; omega)))
  | loaded =>
    rw [hold, hnew] at hahead
    refine ⟨h.lock.stays ht (hreads 0 (.inl rfl) rfl), h.originals, ?_, ?_, h.within⟩
    · simp only [OpPlace.excess] at hahead
      rw [h.retries]
      omega
    · refine h.limits_insert le_rfl fun allowed hallowed => ?_
      rw [hnew] at hallowed
      cases hallowed
      exact le_rfl
  | @admitted allowed hallowed =>
    rw [hold, hnew] at hahead
    have hlimit := h.limits id t allowed ht (by rw [hold]; rfl)
    refine ⟨h.lock.stays ht (hreads allowed (.inr (.inl rfl)) rfl), h.originals, ?_, ?_, ?_⟩
    · simp only [OpPlace.excess] at hahead
      simp only [h.retries, List.length_append, List.length_singleton]
      push_cast
      omega
    · exact h.limits_plain le_rfl (by rw [hnew]; rfl)
    · -- The counter is at least the number of admissions, so this one was within the limit that was read.
      have hretries := h.retries
      rw [h.originals] at hlimit
      apply h.within_current
      show ((b.current.admitted ++ [id]).length : ℤ) ≤ allowedRetriesFor b.cfg b.current.originals
      rw [List.length_append, List.length_singleton]
      push_cast
      omega
  | @exceeded allowed =>
    rw [hold, hnew] at hahead
    refine ⟨h.lock.stays ht (hreads allowed (.inr (.inl rfl)) rfl), h.originals, ?_, ?_, h.within⟩
    · simp only [OpPlace.excess] at hahead
      simp only [h.retries]
      omega
    · exact h.limits_plain le_rfl (by rw [hnew]; rfl)
  | undone =>
    rw [hold, hnew] at hahead
    refine ⟨h.lock.stays ht (hreads 0 (.inr (.inr rfl)) rfl), h.originals, ?_, ?_, h.within⟩
    · simp only [OpPlace.excess] at hahead
      simp only [h.retries]
      omega
    · exact h.limits_plain le_rfl (by rw [hnew]; rfl)

end

end AegisMesh.Retry

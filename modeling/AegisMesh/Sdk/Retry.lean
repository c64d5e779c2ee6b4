import AegisMesh.Retry.Budget

/-!
# Calls with retries

Every call makes its attempts one after the other, and asks the budget before each one but
the first.
-/

namespace AegisMesh.Sdk

open Lib Retry

def CompiledRetry.isRetryable (retry : CompiledRetry) (code : ℕ) : Bool :=
  retry.retryableMask &&& retryableCodeBit code ≠ 0

def CompiledRetry.limit (retry : CompiledRetry) : ℤ := if retry.maxAttempts ≤ 0 then 1 else retry.maxAttempts

/-! ## The attempt loop -/

/-- Where `invokeWithRetryPolicy` is. Errors are known by their status codes. -/
inductive RetryPlace
  | recording (place : OpPlace)
  | invoking (attempt : ℕ)
  | acquiring (attempt : ℕ) (lastErr : ℕ) (place : OpPlace)
  | returned (err : Option ℕ)

structure RetryCall where
  retry : CompiledRetry
  budgeted : Bool
  place : RetryPlace
  answers : List (Option ℕ) := []

structure RetryChoice where
  now : ℤ := 0
  answer : Option ℕ := none

namespace RetryCall

variable (t : RetryCall)

def turn (attempt : ℕ) (lastErr : Option ℕ) : RetryCall :=
  { t with place := if attempt ≤ t.retry.limit then .invoking attempt else .returned lastErr }

def answered (attempt : ℕ) (answer : Option ℕ) : RetryCall :=
  let t := { t with answers := t.answers ++ [answer] }
  match answer with
  | none => { t with place := .returned none }
  | some code =>
    if (attempt : ℤ) = t.retry.limit then { t with place := .returned (some code) }
    else if !t.retry.isRetryable code then { t with place := .returned (some code) }
    else if !t.budgeted then t.turn (attempt + 1) (some code)
    else { t with place := .acquiring attempt code .entered }

def step (id : ℕ) (b : Budget) (c : RetryChoice) : Option (Budget × RetryCall) :=
  match t.place with
  | .recording (.left _) => some (b, t.turn 1 none)
  | .recording place =>
    (b.opStep id .recordOriginal place c.now).map fun (b, place) => (b, { t with place := .recording place })
  | .invoking attempt => some (b, t.answered attempt c.answer)
  | .acquiring attempt lastErr (.left true) => some (b, t.turn (attempt + 1) (some lastErr))
  | .acquiring _ lastErr (.left false) => some (b, { t with place := .returned (some lastErr) })
  | .acquiring attempt lastErr place =>
    (b.opStep id .tryAcquireRetry place c.now).map fun (b, place) =>
      (b, { t with place := .acquiring attempt lastErr place })
  | .returned _ => none

def begin (retry : CompiledRetry) (budgeted : Bool) : RetryCall :=
  let t : RetryCall := { retry, budgeted, place := .recording .entered }
  if budgeted then t else t.turn 1 none

end RetryCall

def retryCalls : ThreadSystem Budget RetryCall (CompiledRetry × Bool) RetryChoice Empty where
  start k := .begin k.1 k.2
  move id b t c := t.step id b c
  outside _ e := nomatch e

def RetryCall.opPlace (t : RetryCall) : OpPlace :=
  match t.place with
  | .recording place | .acquiring _ _ place => place
  | _ => .entered

/-! ## What a step does -/

inductive RetryDid (id : ℕ) (b : Budget) (t : RetryCall) : Budget → RetryCall → Prop
  | recorded {old b' new} (hplace : t.place = .recording old) (hdid : b.OpDid id .recordOriginal old b' new)
    (hrank : new.rank < old.rank) : RetryDid id b t b' { t with place := .recording new }
  | started {answer} (hplace : t.place = .recording (.left answer)) : RetryDid id b t b (t.turn 1 none)
  | invoked {attempt} (hplace : t.place = .invoking attempt) (answer) : RetryDid id b t b (t.answered attempt answer)
  | acquired {attempt lastErr old b' new} (hplace : t.place = .acquiring attempt lastErr old)
    (hdid : b.OpDid id .tryAcquireRetry old b' new) (hrank : new.rank < old.rank) :
    RetryDid id b t b' { t with place := .acquiring attempt lastErr new }
  | admitted {attempt lastErr} (hplace : t.place = .acquiring attempt lastErr (.left true)) :
    RetryDid id b t b (t.turn (attempt + 1) (some lastErr))
  | refused {attempt lastErr} (hplace : t.place = .acquiring attempt lastErr (.left false)) :
    RetryDid id b t b { t with place := .returned (some lastErr) }

variable {id : ℕ} {b b' : Budget} {t t' : RetryCall}

theorem did_retry {c : RetryChoice} (h : t.step id b c = some (b', t')) :
    RetryDid id b t b' t' := by
  unfold RetryCall.step at h
  split at h
  · rename_i hplace
    cases h
    exact .started hplace
  · rename_i place _ hplace
    obtain ⟨⟨b₁, new⟩, hstep, heq⟩ := Option.map_eq_some_iff.mp h
    cases heq
    exact .recorded hplace (Budget.did_opStep hstep) (Budget.rank_opStep hstep)
  · rename_i hplace
    cases h
    exact .invoked hplace c.answer
  · rename_i hplace
    cases h
    exact .admitted hplace
  · rename_i hplace
    cases h
    exact .refused hplace
  · rename_i hplace
    obtain ⟨⟨b₁, new⟩, hstep, heq⟩ := Option.map_eq_some_iff.mp h
    cases heq
    exact .acquired hplace (Budget.did_opStep hstep) (Budget.rank_opStep hstep)
  · cases h

theorem opPlace_turn (t : RetryCall) (attempt : ℕ) (lastErr : Option ℕ) : (t.turn attempt lastErr).opPlace = .entered := by
  by_cases hmore : attempt ≤ t.retry.limit <;> simp [RetryCall.turn, RetryCall.opPlace, hmore]

theorem opPlace_answered (t : RetryCall) (attempt : ℕ) (answer : Option ℕ) :
    (t.answered attempt answer).opPlace = .entered := by
  unfold RetryCall.answered
  cases answer with
  | none => rfl
  | some code =>
    dsimp only
    split
    · rfl
    · split
      · rfl
      · split
        · exact opPlace_turn _ _ _
        · rfl

theorem opPlace_begin (retry : CompiledRetry) (budgeted : Bool) :
    (RetryCall.begin retry budgeted).opPlace = .entered := by
  unfold RetryCall.begin
  dsimp only
  split
  · rfl
  · exact opPlace_turn _ _ _

theorem counts_step {threads : Dict ℕ RetryCall} (h : Counts RetryCall.opPlace b threads)
    (ht : threads.lookup id = some t) (hdid : RetryDid id b t b' t') :
    Counts RetryCall.opPlace b' (threads.insert id t') := by
  have haside : ∀ answer, t.opPlace = .entered ∨ t.opPlace = .left answer → t'.opPlace = .entered → b' = b →
      Counts RetryCall.opPlace b' (threads.insert id t') := by
    rintro answer hold hnew rfl
    refine h.quiet ht ?_ (by rw [hnew]; exact ⟨rfl, rfl⟩) ?_
    · rcases hold with hold | hold <;> (rw [hold]; exact ⟨rfl, rfl⟩)
    · rcases hold with hold | hold <;> simp [hold, hnew, OpPlace.role]
  cases hdid with
  | @recorded old _ new hplace hdid hrank => exact h.did ht (by simpa [RetryCall.opPlace, hplace] using hdid)
  | @started answer hplace =>
    exact haside answer (.inr (by simp [RetryCall.opPlace, hplace])) (opPlace_turn _ _ _) rfl
  | invoked hplace answer =>
    exact haside true (.inl (by simp [RetryCall.opPlace, hplace])) (opPlace_answered _ _ _) rfl
  | @acquired _ _ old _ new hplace hdid hrank => exact h.did ht (by simpa [RetryCall.opPlace, hplace] using hdid)
  | admitted hplace => exact haside true (.inr (by simp [RetryCall.opPlace, hplace])) (opPlace_turn _ _ _) rfl
  | refused hplace => exact haside false (.inr (by simp [RetryCall.opPlace, hplace])) rfl rfl

/-! ## Attempts -/

def CompiledRetry.Retries (retry : CompiledRetry) (answers : List (Option ℕ)) : Prop :=
  ∀ answer ∈ answers, ∃ code, answer = some code ∧ retry.isRetryable code = true

theorem CompiledRetry.Retries.snoc {retry : CompiledRetry} {answers : List (Option ℕ)} (h : retry.Retries answers)
    {code : ℕ} (hcode : retry.isRetryable code = true) : retry.Retries (answers ++ [some code]) := by
  intro answer hanswer
  rcases List.mem_append.mp hanswer with hold | hnew
  · exact h answer hold
  · exact ⟨code, List.mem_singleton.mp hnew, hcode⟩

theorem CompiledRetry.limit_eq (retry : CompiledRetry) : retry.limit = max 1 retry.maxAttempts := by
  unfold limit
  split <;> omega

theorem CompiledRetry.one_le_limit (retry : CompiledRetry) : ((1 : ℕ) : ℤ) ≤ retry.limit := by
  rw [limit_eq]
  exact le_max_left _ _

structure Finished (t : RetryCall) (err : Option ℕ) : Prop where
  attempts : 1 ≤ t.answers.length ∧ t.answers.length ≤ t.retry.limit
  retried : t.retry.Retries t.answers.dropLast
  last : t.answers.getLast? = some err

def Attempts (admitted : ℕ) (t : RetryCall) : Prop :=
  match t.place with
  | .recording place => t.answers = [] ∧ admitted = 0 ∧ place.Plain
  | .invoking attempt => t.answers.length + 1 = attempt ∧ attempt ≤ t.retry.limit ∧ t.retry.Retries t.answers ∧
    (t.budgeted = true → admitted = t.answers.length)
  | .acquiring attempt lastErr place => t.answers.length = attempt ∧ 1 ≤ attempt ∧ attempt < t.retry.limit ∧
    t.retry.Retries t.answers ∧ t.answers.getLast? = some (some lastErr) ∧
    (t.budgeted = true → admitted + 1 = attempt + place.granted.toNat)
  | .returned err => Finished t err ∧ (t.budgeted = true → admitted + 1 = t.answers.length)

variable {t : RetryCall}

theorem attempts_turn {admitted attempt : ℕ} {lastErr : Option ℕ} (hlength : t.answers.length + 1 = attempt)
    (hmore : attempt ≤ t.retry.limit) (hretries : t.retry.Retries t.answers)
    (hadmitted : t.budgeted = true → admitted = t.answers.length) : Attempts admitted (t.turn attempt lastErr) := by
  unfold RetryCall.turn
  rw [if_pos hmore]
  exact ⟨hlength, hmore, hretries, hadmitted⟩

theorem attempts_begin (retry : CompiledRetry) (budgeted : Bool) : Attempts 0 (.begin retry budgeted) := by
  unfold RetryCall.begin
  dsimp only
  split
  · exact ⟨rfl, rfl, rfl, rfl⟩
  · exact attempts_turn rfl (CompiledRetry.one_le_limit _) (fun _ h => by cases h) (fun _ => rfl)

theorem attempts_answered {admitted attempt : ℕ} (hplace : t.place = .invoking attempt) (h : Attempts admitted t)
    (answer : Option ℕ) : Attempts admitted (t.answered attempt answer) := by
  unfold Attempts at h
  rw [hplace] at h
  obtain ⟨hlength, hmax, hretries, hadmitted⟩ := h
  -- When the call returns now, its answers are those of before and this one.
  have hfinished : Attempts admitted { t with answers := t.answers ++ [answer], place := .returned answer } := by
    refine ⟨⟨⟨?_, ?_⟩, ?_, ?_⟩, fun hbudgeted => ?_⟩
    · simp
    · simp only [List.length_append, List.length_singleton]
      push_cast
      omega
    · simpa using hretries
    · simp
    · simp [hadmitted hbudgeted]
  unfold RetryCall.answered
  cases answer with
  | none => exact hfinished
  | some code =>
    dsimp only
    split
    · exact hfinished
    rename_i hmore
    split
    · exact hfinished
    rename_i hretryable
    simp only [Bool.not_eq_true', Bool.not_eq_false] at hretryable
    split
    · rename_i hunbudgeted
      refine attempts_turn (by simp; omega) (by push_cast; omega) (hretries.snoc hretryable) fun hbudgeted => ?_
      simp_all
    · refine ⟨by simp; omega, by omega, by dsimp only; omega, hretries.snoc hretryable, by simp, fun hbudgeted => ?_⟩
      have hsame := hadmitted hbudgeted
      simp only [OpPlace.granted, Bool.toNat_false]
      omega

theorem attempts_step (h : Attempts (b.admissions.count id) t) (hdid : RetryDid id b t b' t') :
    Attempts (b'.admissions.count id) t' := by
  cases hdid with
  | recorded hplace hdid hrank =>
    unfold Attempts at h
    rw [hplace] at h
    obtain ⟨hnone, hadmitted, hplain⟩ := h
    obtain ⟨hsame, hplain'⟩ := hdid.admissions_original hplain
    exact ⟨hnone, hsame ▸ hadmitted, hplain'⟩
  | started hplace =>
    unfold Attempts at h
    rw [hplace] at h
    obtain ⟨hnone, hadmitted, -⟩ := h
    exact attempts_turn (by rw [hnone]; rfl) (t.retry.one_le_limit) (fun _ h => by rw [hnone] at h; cases h)
      fun _ => by rw [hadmitted, hnone]; rfl
  | invoked hplace answer => exact attempts_answered hplace h answer
  | acquired hplace hdid hrank =>
    unfold Attempts at h
    rw [hplace] at h
    obtain ⟨hlength, hpos, hmax, hretries, hlast, hadmitted⟩ := h
    refine ⟨hlength, hpos, hmax, hretries, hlast, fun hbudgeted => ?_⟩
    have hcount := hadmitted hbudgeted
    rcases hdid.admissions_retry with ⟨hsame, hgranted⟩ | ⟨hmore, hold, hnew⟩
    · rw [hsame, hgranted]
      exact hcount
    · rw [hold, Bool.toNat_false] at hcount
      rw [hmore, hnew, List.count_append, List.count_singleton_self, Bool.toNat_true]
      omega
  | admitted hplace =>
    unfold Attempts at h
    rw [hplace] at h
    obtain ⟨hlength, hpos, hmax, hretries, hlast, hadmitted⟩ := h
    refine attempts_turn (by omega) (by push_cast; omega) hretries fun hbudgeted => ?_
    have hcount := hadmitted hbudgeted
    simp only [OpPlace.granted, Bool.toNat_true] at hcount
    omega
  | refused hplace =>
    unfold Attempts at h
    rw [hplace] at h
    obtain ⟨hlength, hpos, hmax, hretries, hlast, hadmitted⟩ := h
    refine ⟨⟨⟨by dsimp only; omega, by dsimp only; omega⟩, fun answer hanswer => hretries answer ((List.dropLast_sublist _).subset hanswer),
      hlast⟩, fun hbudgeted => ?_⟩
    have hcount := hadmitted hbudgeted
    simp only [OpPlace.granted, Bool.toNat_false] at hcount
    dsimp only
    omega

/-! ## Runs -/

theorem RetryDid.budget (h : RetryDid id b t b' t') :
    b'.cfg = b.cfg ∧ (b'.admissions = b.admissions ∨ b'.admissions = b.admissions ++ [id]) := by
  cases h with
  | recorded hplace hdid hrank => exact ⟨hdid.cfg_eq, hdid.admissions⟩
  | acquired hplace hdid hrank => exact ⟨hdid.cfg_eq, hdid.admissions⟩
  | _ => exact ⟨rfl, .inl rfl⟩

theorem RetryDid.admissions_other {id other : ℕ} (h : RetryDid id b t b' t') (hne : other ≠ id) :
    b'.admissions.count other = b.admissions.count other := by
  rcases h.budget.2 with hsame | hmore
  · rw [hsame]
  · rw [hmore, List.count_append, List.count_singleton, if_neg (by simpa using Ne.symm hne), Nat.add_zero]

structure Retrying (cfg : BudgetConfig) (p : Threads Budget RetryCall) : Prop where
  cfg : p.shared.cfg = cfg
  counts : Counts RetryCall.opPlace p.shared p.threads
  attempts : ∀ id t, p.threads.lookup id = some t → Attempts (p.shared.admissions.count id) t
  unknown : ∀ id, p.threads.lookup id = none → id ∉ p.shared.admissions

variable {cfg : BudgetConfig} {p : Threads Budget RetryCall}

theorem retrying_step (h : Retrying cfg p) (e : ThreadEvent (CompiledRetry × Bool) RetryChoice Empty) :
    Retrying cfg (retryCalls.step p e) := by
  have hdid := retryCalls.did_step p e
  generalize retryCalls.step p e = p' at hdid
  cases hdid with
  | refused => exact h
  | absent => exact h
  | blocked => exact h
  | @called id k hfresh =>
    have hplace : (retryCalls.start k).opPlace = .entered := opPlace_begin _ _
    refine ⟨h.cfg, h.counts.called hfresh (by rw [hplace]; exact ⟨rfl, rfl⟩) (by rw [hplace]; rfl), ?_, ?_⟩
    · refine Dict.forall_lookup_insert.mpr ⟨?_, fun other t _ ht => h.attempts other t ht⟩
      rw [List.count_eq_zero.mpr (h.unknown id hfresh)]
      exact attempts_begin _ _
    · intro other hother
      rw [Dict.lookup_insert'] at hother
      split at hother
      · cases hother
      · exact h.unknown other hother
  | @moved id c t b' t' ht hmove =>
    have hstep := did_retry hmove
    refine ⟨hstep.budget.1.trans h.cfg, counts_step h.counts ht hstep, ?_, ?_⟩
    · refine Dict.forall_lookup_insert.mpr ⟨attempts_step (h.attempts id t ht) hstep, fun other u hne hu => ?_⟩
      rw [hstep.admissions_other hne]
      exact h.attempts other u hu
    · intro other hother
      rw [Dict.lookup_insert'] at hother
      split at hother
      · cases hother
      · rename_i hne
        rw [← List.count_eq_zero, hstep.admissions_other hne, List.count_eq_zero]
        exact h.unknown other hother
  | changed e => cases e

theorem retrying_run (cfg : BudgetConfig) (now : ℤ)
    (events : List (ThreadEvent (CompiledRetry × Bool) RetryChoice Empty)) :
    Retrying (newBudget cfg) (retryCalls.run (Retry.newBudget cfg now) events) := by
  refine run_invariant (I := Retrying (newBudget cfg)) (fun p e h => retrying_step h e) ?_ events
  refine ⟨rfl, counts_initial cfg now, ?_, ?_⟩
  · intro id t ht
    simp at ht
  · intro id _
    simp [Retry.newBudget, Budget.admissions, Budget.windows]

/-! ## No call hangs -/

def RetryCall.rank (t : RetryCall) : ℕ :=
  match t.place with
  | .recording place => 20 * t.retry.limit.toNat + place.rank + 1
  | .invoking attempt => 20 * (t.retry.limit.toNat - attempt) + 15
  | .acquiring attempt _ place => 20 * (t.retry.limit.toNat - attempt) + place.rank + 1
  | .returned _ => 0

theorem rank_turn_le (t : RetryCall) (attempt : ℕ) (lastErr : Option ℕ) :
    (t.turn attempt lastErr).rank ≤ 20 * (t.retry.limit.toNat - attempt) + 15 := by
  by_cases hmore : attempt ≤ t.retry.limit <;> simp [RetryCall.turn, RetryCall.rank, hmore]

theorem rank_did {id admitted : ℕ} (hdid : RetryDid id b t b' t') (h : Attempts admitted t) : t'.rank < t.rank := by
  have hone := t.retry.one_le_limit
  unfold Attempts at h
  cases hdid with
  | recorded hplace hdid hrank =>
    simp only [RetryCall.rank, hplace]
    omega
  | started hplace =>
    have hturn := rank_turn_le t 1 none
    have hrank : t.rank = 20 * t.retry.limit.toNat + 1 := by simp [RetryCall.rank, hplace, OpPlace.rank]
    omega
  | @invoked attempt hplace answer =>
    have hrank : t.rank = 20 * (t.retry.limit.toNat - attempt) + 15 := by simp [RetryCall.rank, hplace]
    rw [hplace] at h
    obtain ⟨-, hmax, -⟩ := h
    rw [hrank]
    unfold RetryCall.answered
    cases answer with
    | none => simp [RetryCall.rank]
    | some code =>
      dsimp only
      split
      · simp [RetryCall.rank]
      rename_i hmore
      split
      · simp [RetryCall.rank]
      split
      · refine lt_of_le_of_lt (rank_turn_le _ _ _) ?_
        dsimp only
        omega
      · simp [RetryCall.rank, OpPlace.rank]
  | acquired hplace hdid hrank =>
    simp only [RetryCall.rank, hplace]
    omega
  | @admitted attempt lastErr hplace =>
    have hturn := rank_turn_le t (attempt + 1) (some lastErr)
    have hrank : t.rank = 20 * (t.retry.limit.toNat - attempt) + 1 := by simp [RetryCall.rank, hplace, OpPlace.rank]
    rw [hplace] at h
    obtain ⟨-, -, hmax, -⟩ := h
    omega
  | refused hplace => simp [RetryCall.rank, hplace]

theorem step_isSome {b : Budget} (id : ℕ) (hplace : ∀ err, t.place ≠ .returned err)
    (h : t.opPlace.role = .reading ∨ t.opPlace.role = .writing ∨ t.opPlace.role = .pending ∧ b.mu.readers = 0 ∨
      b.mu = {}) : ∃ b' t', t.step id b {} = some (b', t') := by
  unfold RetryCall.step
  split
  · exact ⟨_, _, rfl⟩
  · rename_i place hleft heq
    obtain ⟨b', place', hstep⟩ := Budget.opStep_isSome id .recordOriginal 0 (fun answer => hleft answer)
      (by simpa [RetryCall.opPlace, heq] using h)
    exact ⟨_, _, by rw [hstep]; rfl⟩
  · exact ⟨_, _, rfl⟩
  · exact ⟨_, _, rfl⟩
  · exact ⟨_, _, rfl⟩
  · rename_i attempt lastErr place htrue hfalse heq
    obtain ⟨b', place', hstep⟩ := Budget.opStep_isSome id .tryAcquireRetry 0
      (fun answer => by cases answer <;> assumption) (by simpa [RetryCall.opPlace, heq] using h)
    exact ⟨_, _, by rw [hstep]; rfl⟩
  · exact absurd ‹_› (hplace _)

theorem someone_moves (h : Retrying cfg p) (ht : p.threads.lookup id = some t)
    (hplace : ∀ err, t.place ≠ .returned err) :
    ∃ id t b' t', p.threads.lookup id = some t ∧ t.step id p.shared {} = some (b', t') := by
  -- Whoever has the lock, or is next, is in the code of the budget.
  obtain ⟨other, u, hu, hwho, hgoes⟩ := h.counts.lock.next ht
  have hback : ∀ err, u.place ≠ .returned err := by
    rcases hwho with haway | rfl
    · intro err heq
      simp [RetryCall.opPlace, heq, OpPlace.role] at haway
    · exact hplace
  obtain ⟨b', u', hstep⟩ := step_isSome (b := p.shared) other hback hgoes
  exact ⟨other, u, b', u', hu, hstep⟩

theorem all_can_return (h : Retrying cfg p) :
    ∃ moves : List (ℕ × RetryChoice), ∀ id t,
      ((moves.map fun m => ThreadEvent.move m.1 m.2).foldl retryCalls.step p).threads.lookup id = some t →
        ∃ err, t.place = .returned err := by
  have hcan : ∀ p, Retrying cfg p → (∀ id t, p.threads.lookup id = some t → ∃ err, t.place = .returned err) ∨
      ∃ id choice, True ∧
        Threads.total RetryCall.rank (retryCalls.step p (.move id choice)).threads < Threads.total RetryCall.rank p.threads := by
    intro p hp
    by_cases hdone : ∀ id t, p.threads.lookup id = some t → ∃ err, t.place = .returned err
    · exact .inl hdone
    · push Not at hdone
      obtain ⟨id, t, ht, hplace⟩ := hdone
      obtain ⟨id', t, b', t', ht', hstep⟩ := someone_moves hp ht hplace
      have hrank := rank_did (did_retry hstep) (hp.attempts id' t ht')
      exact .inr ⟨id', {}, trivial, Threads.total_move_lt retryCalls RetryCall.rank ht' hstep hrank⟩
  obtain ⟨moves, -, hmoves⟩ := retryCalls.exists_finish (G := Retrying cfg) (K := fun _ => True)
    (fun p => Threads.total RetryCall.rank p.threads) (fun p id c _ hp => retrying_step hp _) hcan h
  exact ⟨moves, hmoves⟩

theorem Attempts.bounds {admitted : ℕ} (h : Attempts admitted t) :
    t.answers.length ≤ t.retry.limit ∧ t.retry.Retries t.answers.dropLast ∧
      (t.budgeted = true → t.answers.length ≤ admitted + 1) := by
  have hone := t.retry.one_le_limit
  unfold Attempts at h
  split at h
  · obtain ⟨hnone, -⟩ := h
    simp only [hnone, List.length_nil, List.dropLast_nil]
    exact ⟨by omega, (fun _ hmem => by cases hmem), fun _ => Nat.zero_le _⟩
  · obtain ⟨hlength, hmax, hretries, hadmitted⟩ := h
    exact ⟨by omega, fun answer ha => hretries answer ((List.dropLast_sublist _).subset ha),
      fun hbudgeted => by have := hadmitted hbudgeted; omega⟩
  · obtain ⟨hlength, hpos, hmax, hretries, hlast, hadmitted⟩ := h
    refine ⟨by omega, fun answer ha => hretries answer ((List.dropLast_sublist _).subset ha), fun hbudgeted => ?_⟩
    have hcount := hadmitted hbudgeted
    omega
  · obtain ⟨hfinished, hadmitted⟩ := h
    exact ⟨hfinished.attempts.2, hfinished.retried, fun hbudgeted => by have := hadmitted hbudgeted; omega⟩

/-- However the calls interleave: a window lets through at most as many retries as its first attempts allow. A call
makes at most as many attempts as its policy says, each after an error that is retried, and with a budget each but
the first was let through by a window. -/
theorem retries_within_budget (cfg : BudgetConfig) (now : ℤ)
    (events : List (ThreadEvent (CompiledRetry × Bool) RetryChoice Empty)) :
    (∀ w ∈ (retryCalls.run (Retry.newBudget cfg now) events).shared.windows, (w.admitted.length : ℤ) ≤
      max (newBudget cfg).minBudget ⌊(newBudget cfg).budgetRatio * w.originals + 1 / 1000000000⌋) ∧
    (∀ id t, (retryCalls.run (Retry.newBudget cfg now) events).threads.lookup id = some t →
      t.answers.length ≤ max 1 t.retry.maxAttempts ∧ t.retry.Retries t.answers.dropLast ∧
      (t.budgeted = true → t.answers.length ≤
        (retryCalls.run (Retry.newBudget cfg now) events).shared.admissions.count id + 1) ∧
      ∀ err, t.place = .returned err → 1 ≤ t.answers.length ∧ t.answers.getLast? = some err) ∧
    ∃ moves : List (ℕ × RetryChoice), ∀ id t,
      (retryCalls.run (Retry.newBudget cfg now) (events ++ moves.map fun m => .move m.1 m.2)).threads.lookup id = some t →
        ∃ err, t.place = .returned err := by
  have h := retrying_run cfg now events
  refine ⟨fun w hw => ?_, fun id t ht => ?_, ?_⟩
  · have hwithin := h.counts.within w hw
    rw [Window.Within, h.cfg, allowedRetriesFor_eq] at hwithin
    exact_mod_cast hwithin
  · have hattempts := h.attempts id t ht
    obtain ⟨hmax, hretries, hadmitted⟩ := hattempts.bounds
    refine ⟨t.retry.limit_eq ▸ hmax, hretries, hadmitted, fun err hback => ?_⟩
    unfold Attempts at hattempts
    rw [hback] at hattempts
    exact ⟨hattempts.1.attempts.1, hattempts.1.last⟩
  · obtain ⟨moves, hmoves⟩ := all_can_return h
    refine ⟨moves, ?_⟩
    unfold ThreadSystem.run at hmoves ⊢
    rw [List.foldl_append]
    exact hmoves

end AegisMesh.Sdk

import AegisMesh.Sdk.Retry

/-!
# Calls whose context ends

A call may lose its caller at any moment.
-/

namespace AegisMesh.Sdk

open Lib Retry

structure CallerContexts where
  budget : Budget
  done : List ℕ := []

def contextCalls : ThreadSystem CallerContexts RetryCall (CompiledRetry × Bool) RetryChoice ℕ where
  start k := .begin k.1 k.2
  move id s t c := (t.step id s.budget c).map fun (b, t) => ({ s with budget := b }, t)
  outside s id := { s with done := id :: s.done }

abbrev ContextEvent := ThreadEvent (CompiledRetry × Bool) RetryChoice ℕ

abbrev ContextState := Threads CallerContexts RetryCall

def RetryCall.invocations (t : RetryCall) : ℕ :=
  match t.place with
  | .invoking _ => t.answers.length + 1
  | _ => t.answers.length

def invocationsOf (p : ContextState) (id : ℕ) : ℕ := ((p.threads.lookup id).map RetryCall.invocations).getD 0

structure NotRetried (id : ℕ) (p p' : ContextState) : Prop where
  invocations : invocationsOf p' id ≤ max 1 (invocationsOf p id)
  admissions : p'.shared.budget.admissions.count id = p.shared.budget.admissions.count id

def RetryCall.endsWith (t : RetryCall) (answer : Option ℕ) : Bool :=
  match t.place, answer with
  | .invoking attempt, some code => attempt = t.retry.limit || !t.retry.isRetryable code
  | _, _ => true

def RetryCall.betweenAttempts (t : RetryCall) : Bool :=
  match t.place with
  | .acquiring _ _ _ => true
  | _ => false

/-- A context does not end between two attempts, and what the invoker answers to a call whose context is done ends the
loop. -/
def HeedsContext (p : ContextState) : ContextEvent → Prop
  | .call _ _ => True
  | .move id c => id ∈ p.shared.done → ∀ t ∈ p.threads.lookup id, t.endsWith c.answer = true
  | .outside id => ∀ t ∈ p.threads.lookup id, t.betweenAttempts = false

instance (p : ContextState) : (e : ContextEvent) → Decidable (HeedsContext p e)
  | .call _ _ => inferInstanceAs (Decidable True)
  | .move id c => inferInstanceAs (Decidable (id ∈ p.shared.done → ∀ t ∈ p.threads.lookup id, t.endsWith c.answer = true))
  | .outside id => inferInstanceAs (Decidable (∀ t ∈ p.threads.lookup id, t.betweenAttempts = false))

/-! ## Calls that have lost their caller -/

def Settled (s : CallerContexts) (id : ℕ) (t : RetryCall) : Prop :=
  match t.place with
  | .recording place => t.answers = [] ∧ place.Plain
  | .acquiring _ _ _ => id ∉ s.done
  | .invoking _ | .returned _ => True

theorem settled_turn (s : CallerContexts) (id : ℕ) (t : RetryCall) (attempt : ℕ) (lastErr : Option ℕ) :
    Settled s id (t.turn attempt lastErr) := by
  by_cases hmore : attempt ≤ t.retry.limit <;> simp [RetryCall.turn, Settled, hmore]

theorem settled_begin (s : CallerContexts) (id : ℕ) (retry : CompiledRetry) (budgeted : Bool) :
    Settled s id (.begin retry budgeted) := by
  unfold RetryCall.begin
  dsimp only
  split
  · exact ⟨rfl, rfl, rfl⟩
  · exact settled_turn s id _ 1 none

theorem answered_ends {t : RetryCall} {attempt : ℕ} (hplace : t.place = .invoking attempt) {answer : Option ℕ}
    (h : t.endsWith answer = true) :
    t.answered attempt answer = { t with answers := t.answers ++ [answer], place := .returned answer } := by
  unfold RetryCall.answered
  rcases answer with _ | code
  · rfl
  · simp only [RetryCall.endsWith, hplace, Bool.or_eq_true, decide_eq_true_eq] at h
    dsimp only
    split
    · rfl
    · rename_i hmore
      rw [if_pos (h.resolve_left hmore)]

variable {id : ℕ}

theorem settled_answered {s : CallerContexts} {t : RetryCall} {attempt : ℕ} (hplace : t.place = .invoking attempt)
    {answer : Option ℕ} (h : id ∈ s.done → t.endsWith answer = true) : Settled s id (t.answered attempt answer) := by
  by_cases hdone : id ∈ s.done
  · rw [answered_ends hplace (h hdone)]
    trivial
  · unfold RetryCall.answered
    rcases answer with _ | code
    · trivial
    · dsimp only
      split
      · trivial
      split
      · trivial
      split
      · exact settled_turn _ _ _ _ _
      · exact hdone

theorem invocations_turn_le (t : RetryCall) (attempt : ℕ) (lastErr : Option ℕ) :
    (t.turn attempt lastErr).invocations ≤ t.answers.length + 1 := by
  by_cases hmore : attempt ≤ t.retry.limit <;> simp [RetryCall.turn, RetryCall.invocations, hmore]

theorem invocations_begin_le (retry : CompiledRetry) (budgeted : Bool) :
    (RetryCall.begin retry budgeted).invocations ≤ 1 := by
  unfold RetryCall.begin
  dsimp only
  split
  · exact Nat.zero_le 1
  · exact invocations_turn_le _ 1 none

theorem settled_move {s s' : CallerContexts} {t t' : RetryCall} {c : RetryChoice} (h : Settled s id t)
    (hends : id ∈ s.done → t.endsWith c.answer = true) (hmove : contextCalls.move id s t c = some (s', t')) :
    Settled s' id t' ∧ s'.done = s.done ∧
      (id ∈ s.done → t'.invocations ≤ max 1 t.invocations ∧
        s'.budget.admissions.count id = s.budget.admissions.count id) := by
  obtain ⟨⟨b', t''⟩, hstep, heq⟩ := Option.map_eq_some_iff.mp hmove
  cases heq
  have hanswer : ∀ attempt, t.place = .invoking attempt → b' = s.budget ∧ t' = t.answered attempt c.answer := by
    intro attempt hplace
    simp only [RetryCall.step, hplace] at hstep
    cases hstep
    exact ⟨rfl, rfl⟩
  unfold Settled at h
  cases did_retry hstep with
  | recorded hplace hdid hrank =>
    rw [hplace] at h
    obtain ⟨hnone, hplain⟩ := h
    obtain ⟨hsame, hplain'⟩ := hdid.admissions_original hplain
    refine ⟨⟨hnone, hplain'⟩, rfl, fun _ => ⟨?_, congrArg _ hsame⟩⟩
    simp [RetryCall.invocations, hnone]
  | started hplace =>
    rw [hplace] at h
    refine ⟨settled_turn _ _ _ _ _, rfl, fun _ => ⟨?_, rfl⟩⟩
    have hturn := invocations_turn_le t 1 none
    rw [h.1] at hturn
    exact le_max_of_le_left hturn
  | @invoked attempt hplace answer =>
    obtain ⟨-, hanswered⟩ := hanswer attempt hplace
    rw [hanswered]
    refine ⟨settled_answered hplace hends, rfl, fun hdone => ⟨?_, rfl⟩⟩
    rw [answered_ends hplace (hends hdone)]
    simp [RetryCall.invocations, hplace]
  | acquired hplace hdid hrank =>
    rw [hplace] at h
    exact ⟨h, rfl, fun hdone => absurd hdone h⟩
  | admitted hplace =>
    rw [hplace] at h
    exact ⟨settled_turn _ _ _ _ _, rfl, fun hdone => absurd hdone h⟩
  | refused hplace =>
    rw [hplace] at h
    exact ⟨trivial, rfl, fun hdone => absurd hdone h⟩

theorem Settled.other {s s' : CallerContexts} {t : RetryCall} (h : Settled s id t)
    (hdone : id ∈ s'.done → t.betweenAttempts = true → id ∈ s.done) : Settled s' id t := by
  unfold Settled at h ⊢
  split
  · rename_i hplace
    rwa [hplace] at h
  · rename_i hplace
    rw [hplace] at h
    exact fun hnow => h (hdone hnow (by simp [RetryCall.betweenAttempts, hplace]))
  · trivial
  · trivial

abbrev AllSettled : ContextState → Prop := ThreadSystem.Keeps (fun _ => True) Settled

theorem settled_step {p : ContextState} (h : AllSettled p) {e : ContextEvent} (he : HeedsContext p e) :
    AllSettled (contextCalls.step p e) := by
  rcases e with ⟨id, k⟩ | ⟨id, c⟩ | id
  · refine h.next _ (fun _ _ _ _ => settled_begin _ _ _ _) ?_ ?_ <;> simp
  · refine h.next _ (by simp) ?_ (by simp)
    rintro _ _ t s' t' ⟨⟩ ht hmove
    obtain ⟨hsettled, hdone, -⟩ :=
      settled_move (h.thread id t ht) (fun hdone => he hdone t ht) hmove
    exact ⟨trivial, hsettled, fun other u _ _ hu => hu.other fun hin _ => hdone ▸ hin⟩
  · refine ⟨trivial, fun other t ht => (h.thread other t ht).other fun hin hbetween => ?_⟩
    rcases List.mem_cons.mp hin with rfl | hold
    · exact absurd hbetween (by simp [he t ht])
    · exact hold

theorem NotRetried.refl (id : ℕ) (p : ContextState) : NotRetried id p p := ⟨le_max_right _ _, rfl⟩

theorem NotRetried.trans {p p' p'' : ContextState} (h : NotRetried id p p') (h' : NotRetried id p' p'') :
    NotRetried id p p'' := by
  refine ⟨h'.invocations.trans ?_, h'.admissions.trans h.admissions⟩
  exact max_le (le_max_left _ _) h.invocations

theorem notRetried_step {p : ContextState} (h : AllSettled p) {e : ContextEvent} (he : HeedsContext p e)
    (hid : id ∈ p.shared.done) :
    NotRetried id p (contextCalls.step p e) ∧ id ∈ (contextCalls.step p e).shared.done := by
  have hdid := contextCalls.did_step p e
  generalize contextCalls.step p e = p' at hdid
  cases hdid with
  | refused => exact ⟨.refl id p, hid⟩
  | absent => exact ⟨.refl id p, hid⟩
  | blocked => exact ⟨.refl id p, hid⟩
  | @called other k hfresh =>
    refine ⟨⟨?_, rfl⟩, hid⟩
    unfold invocationsOf
    rw [Dict.lookup_insert']
    split
    · exact le_max_of_le_left (invocations_begin_le _ _)
    · exact le_max_right _ _
  | @moved other c t s' t' ht hmove =>
    obtain ⟨-, hdone, hlost⟩ :=
      settled_move (h.thread other t ht) (fun hdone => he hdone t ht) hmove
    refine ⟨?_, hdone ▸ hid⟩
    by_cases hsame : id = other
    · subst hsame
      obtain ⟨hinvocations, hcount⟩ := hlost hid
      refine ⟨?_, hcount⟩
      unfold invocationsOf
      rw [Dict.lookup_insert', if_pos rfl, ht]
      exact hinvocations
    · refine ⟨?_, ?_⟩
      · unfold invocationsOf
        rw [Dict.lookup_insert', if_neg hsame]
        exact le_max_right _ _
      · obtain ⟨⟨b', t''⟩, hstep, heq⟩ := Option.map_eq_some_iff.mp hmove
        cases heq
        exact (did_retry hstep).admissions_other hsame
  | changed other => exact ⟨⟨le_max_right _ _, rfl⟩, List.mem_cons_of_mem _ hid⟩

/-- If contexts end only while the invoker runs, and the invoker then gives an answer that is not retried, a call is
not retried once its context is done. -/
theorem done_calls_end (b : Budget) (events : List ContextEvent)
    (hheeds : Along contextCalls.step HeedsContext { shared := { budget := b } } events)
    (before after : List ContextEvent) (hsplit : events = before ++ after) (id : ℕ)
    (hdone : id ∈ (contextCalls.run { budget := b } before).shared.done) :
    NotRetried id (contextCalls.run { budget := b } before) (contextCalls.run { budget := b } events) := by
  subst hsplit
  obtain ⟨hbefore, hafter⟩ := along_append.mp hheeds
  have hsettled : AllSettled (contextCalls.run { budget := b } before) :=
    run_invariant_along (I := AllSettled) (fun p e h he => settled_step h he) (.initial trivial) hbefore
  unfold ThreadSystem.run at hsettled hdone ⊢
  rw [List.foldl_append]
  generalize before.foldl contextCalls.step { shared := { budget := b } } = p at *
  have hrun := run_invariant_along
    (I := fun p' => AllSettled p' ∧ NotRetried id p p' ∧ id ∈ p'.shared.done)
    (fun p' e h he => ⟨settled_step h.1 he, h.2.1.trans (notRetried_step h.1 he h.2.2).1, (notRetried_step h.1 he h.2.2).2⟩)
    ⟨hsettled, .refl id p, hdone⟩ hafter
  exact hrun.2.1

def twoAttempts : CompiledRetry where
  maxAttempts := 2
  retryableMask := defaultRetryableMask

def oneRetry : Budget := Retry.newBudget { minBudget := 1, window := 10 } 0

def lostCaller (code : ℕ) : List ContextEvent :=
  .call 0 (twoAttempts, true) :: List.replicate 6 (.move 0 {}) ++
    [.outside 0, .move 0 { answer := some code }] ++ List.replicate 9 (.move 0 {})

theorem cancelled_call_ends :
    NotRetried 0 (contextCalls.run { budget := oneRetry } ((lostCaller 1).take 8))
      (contextCalls.run { budget := oneRetry } (lostCaller 1)) :=
  done_calls_end oneRetry (lostCaller 1) (by decide +kernel) _ ((lostCaller 1).drop 8)
    (List.take_append_drop 8 _).symm 0 (by decide +kernel)

theorem expired_call_is_retried :
    0 ∈ (contextCalls.run { budget := oneRetry } ((lostCaller 4).take 8)).shared.done ∧
    (contextCalls.run { budget := oneRetry } (lostCaller 4)).shared.budget.admissions = [0] ∧
    ¬NotRetried 0 (contextCalls.run { budget := oneRetry } ((lostCaller 4).take 8))
      (contextCalls.run { budget := oneRetry } (lostCaller 4)) := by
  have hbefore : invocationsOf (contextCalls.run { budget := oneRetry } ((lostCaller 4).take 8)) 0 = 1 := by
    decide +kernel
  have hafter : invocationsOf (contextCalls.run { budget := oneRetry } (lostCaller 4)) 0 = 2 := by decide +kernel
  refine ⟨by decide +kernel, by decide +kernel, fun h => ?_⟩
  have hinvocations := h.invocations
  rw [hbefore, hafter] at hinvocations
  exact absurd hinvocations (by decide)

end AegisMesh.Sdk

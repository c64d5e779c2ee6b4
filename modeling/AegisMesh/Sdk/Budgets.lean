import AegisMesh.Lib.Threads
import AegisMesh.Sdk.Policy

/-! # Calls that ask for their budgets at the same time -/

namespace AegisMesh.Sdk

open Lib Policy

/-! ## The source and its calls -/

structure MadeBudget where
  method : String
  revision : ℤ
  config : BudgetConfig
deriving DecidableEq

def MadeBudget.key (budget : MadeBudget) : String × ℤ := (budget.method, budget.revision)

/-- `dynamicRetrySource`, with every `Budget` that it has made. The table points into that list. -/
structure SharedSource where
  defaults : CompiledRetry
  manager : PolicyManager
  budgets : Dict String ℕ := ∅
  budgetRevisions : Dict String ℤ := ∅
  made : List MadeBudget := []

namespace SharedSource

def inForce (s : SharedSource) : ℤ :=
  match s.manager.policy with
  | none => 0
  | some policy => policy.version

def makeBudget (s : SharedSource) (method : String) (revision : ℤ) (cfg : BudgetConfig) : SharedSource :=
  { s with
    budgets := s.budgets.insert method s.made.length
    budgetRevisions := s.budgetRevisions.insert method revision
    made := s.made ++ [{ method, revision, config := newBudget cfg }] }

/-- The lock is held from the first line to the last, so this is one step. -/
def budgetForMethod (s : SharedSource) (method : String) (revision : ℤ) (cfg : BudgetConfig) : SharedSource × ℕ :=
  match s.budgets.lookup method with
  | some budget =>
    if (s.budgetRevisions.lookup method).getD 0 ≠ revision then (s.makeBudget method revision cfg, s.made.length)
    else (s, budget)
  | none => (s.makeBudget method revision cfg, s.made.length)

end SharedSource

/-- Where a `PolicyForMethod` is: before it loads the policy, before it takes the lock, or back. -/
inductive PolicyPlace
  | entered
  | loaded (retry : CompiledRetry) (revision : ℤ)
  | returned (retry : CompiledRetry) (revision : ℤ) (budget : Option ℕ)

structure PolicyCall where
  method : String
  place : PolicyPlace := .entered

def policyCalls : ThreadSystem SharedSource PolicyCall String Unit PolicySnapshot where
  start method := { method }
  move _ s t _ :=
    match t.place with
    | .entered =>
      let retry := DynamicRetrySource.settings s.defaults s.manager.policy t.method
      if retry.mode = .off ∨ retry.mode = .withoutBudget then
        some (s, { t with place := .returned retry s.inForce none })
      else some (s, { t with place := .loaded retry s.inForce })
    | .loaded retry revision =>
      let (s, budget) := s.budgetForMethod t.method revision retry.budget
      some (s, { t with place := .returned retry revision (some budget) })
    | .returned .. => none
  outside s snapshot := { s with manager := s.manager.update snapshot }

/-! ## The table -/

namespace SharedSource

structure Tidy (s : SharedSource) : Prop where
  points : ∀ method i, s.budgets.lookup method = some i →
    ∃ budget, s.made[i]? = some budget ∧ budget.method = method ∧ s.budgetRevisions.lookup method = some budget.revision
  listed : ∀ budget ∈ s.made, (s.budgets.lookup budget.method).isSome

variable {s : SharedSource} {method : String} {revision : ℤ} {cfg : BudgetConfig}

theorem budgetForMethod_cases (h : s.Tidy) (method : String) (revision : ℤ) (cfg : BudgetConfig) :
    (∃ i budget, s.budgetForMethod method revision cfg = (s, i) ∧ s.budgets.lookup method = some i ∧
      s.made[i]? = some budget ∧ budget.key = (method, revision)) ∨
    s.budgetForMethod method revision cfg = (s.makeBudget method revision cfg, s.made.length) ∧
      (s.budgets.lookup method = none ∨ s.budgetRevisions.lookup method ≠ some revision) := by
  unfold budgetForMethod
  cases htable : s.budgets.lookup method with
  | none => exact .inr ⟨rfl, .inl rfl⟩
  | some i =>
    obtain ⟨budget, hmade, hmethod, hrevision⟩ := h.points method i htable
    dsimp only
    rw [hrevision, Option.getD_some]
    split
    · rename_i hne
      exact .inr ⟨rfl, .inr fun heq => hne (Option.some.inj heq)⟩
    · rename_i heq
      exact .inl ⟨i, budget, rfl, rfl, hmade, by rw [MadeBudget.key, hmethod, not_not.mp heq]⟩

theorem tidy_makeBudget (h : s.Tidy) : (s.makeBudget method revision cfg).Tidy := by
  unfold makeBudget
  refine ⟨fun other i hi => ?_, fun budget hbudget => ?_⟩
  · dsimp only at hi ⊢
    rw [Dict.lookup_insert'] at hi ⊢
    split at hi
    · rename_i heq
      cases hi
      exact ⟨_, List.getElem?_concat_length, heq.symm, by rw [if_pos heq]⟩
    · rename_i hne
      obtain ⟨budget, hmade, hmethod, hrevision⟩ := h.points other i hi
      exact ⟨budget, List.getElem?_append_left (List.getElem?_eq_some_iff.mp hmade).1 ▸ hmade, hmethod,
        by rw [if_neg hne, hrevision]⟩
  · dsimp only at hbudget ⊢
    rw [Dict.lookup_insert']
    split
    · rfl
    · rename_i hne
      rcases List.mem_append.mp hbudget with hold | hnew
      · exact h.listed budget hold
      · rw [List.mem_singleton.mp hnew] at hne
        exact absurd rfl hne

theorem made_kept {i : ℕ} {budget : MadeBudget} (h : s.Tidy) (hmade : s.made[i]? = some budget) (method : String)
    (revision : ℤ) (cfg : BudgetConfig) : (s.budgetForMethod method revision cfg).1.made[i]? = some budget := by
  rcases budgetForMethod_cases h method revision cfg with ⟨j, found, heq, -⟩ | ⟨heq, -⟩
  · rw [heq, hmade]
  · rw [heq, makeBudget]
    exact List.getElem?_append_left (List.getElem?_eq_some_iff.mp hmade).1 ▸ hmade

theorem inForce_budgetForMethod (s : SharedSource) (method : String) (revision : ℤ) (cfg : BudgetConfig) :
    (s.budgetForMethod method revision cfg).1.inForce = s.inForce := by
  unfold budgetForMethod
  split
  · split <;> rfl
  · rfl

/-! ## Calls that do not overlap -/

structure Shows (s : SharedSource) (d : DynamicRetrySource) : Prop where
  defaults : d.defaults = s.defaults
  manager : d.manager = s.manager
  budgets : ∀ method, d.budgets.lookup method =
    (s.budgets.lookup method).bind fun i => (s.made[i]?).map fun budget => (budget.config, budget.revision)

variable {d : DynamicRetrySource}

theorem Shows.makeBudget (h : s.Shows d) (htidy : s.Tidy) :
    (s.makeBudget method revision cfg).Shows
      { d with budgets := d.budgets.insert method (newBudget cfg, revision) } := by
  refine ⟨h.defaults, h.manager, fun other => ?_⟩
  simp only [SharedSource.makeBudget, Dict.lookup_insert']
  split
  · simp
  · rw [h.budgets other]
    cases hi : s.budgets.lookup other with
    | none => rfl
    | some i =>
      obtain ⟨budget, hmade, -⟩ := htidy.points other i hi
      have hlt := (List.getElem?_eq_some_iff.mp hmade).1
      rw [Option.bind_some, Option.bind_some, List.getElem?_append_left hlt]

theorem Shows.budgetForMethod (h : s.Shows d) (htidy : s.Tidy) (method : String) (revision : ℤ) (cfg : BudgetConfig) :
    (s.budgetForMethod method revision cfg).1.Shows (d.budgetForMethod method revision cfg).1 ∧
    ((s.budgetForMethod method revision cfg).1.made[(s.budgetForMethod method revision cfg).2]?).map (·.config) =
      some (d.budgetForMethod method revision cfg).2 := by
  have hmake : ((s.makeBudget method revision cfg).made[s.made.length]?).map (·.config) = some (newBudget cfg) := by
    rw [SharedSource.makeBudget, List.getElem?_concat_length]
    rfl
  unfold SharedSource.budgetForMethod DynamicRetrySource.budgetForMethod
  rw [h.budgets method]
  cases hi : s.budgets.lookup method with
  | none => exact ⟨h.makeBudget htidy, hmake⟩
  | some i =>
    obtain ⟨budget, hmade, -, hrevision⟩ := htidy.points method i hi
    simp only [Option.bind_some, hmade, hrevision, Option.map_some, Option.getD_some]
    split
    · exact ⟨h.makeBudget htidy, hmake⟩
    · exact ⟨h, by rw [hmade]; rfl⟩

/-- A call that nobody disturbs is `policyForMethod`. -/
theorem Shows.call (h : s.Shows d) (htidy : s.Tidy) {threads : Dict ℕ PolicyCall} {id : ℕ}
    (hfresh : threads.lookup id = none) (method : String) :
    ∃ p : Threads SharedSource PolicyCall, ∃ revision budget,
      [.call id method, .move id (), .move id ()].foldl policyCalls.step { shared := s, threads } = p ∧
      p.threads.lookup id = some { method, place := .returned (d.policyForMethod method).2.1 revision budget } ∧
      p.shared.Shows (d.policyForMethod method).1 ∧
      budget.bind (fun i => (p.shared.made[i]?).map (·.config)) = (d.policyForMethod method).2.2 := by
  unfold DynamicRetrySource.policyForMethod
  rw [h.defaults, h.manager]
  by_cases hoff : (DynamicRetrySource.settings s.defaults s.manager.policy method).mode = .off ∨
      (DynamicRetrySource.settings s.defaults s.manager.policy method).mode = .withoutBudget
  · simp only [List.foldl_cons, List.foldl_nil, ThreadSystem.step, hfresh, policyCalls, AList.lookup_insert,
      if_pos hoff]
    exact ⟨_, _, none, rfl, AList.lookup_insert _, h, rfl⟩
  · obtain ⟨hshows, hconfig⟩ := h.budgetForMethod htidy method s.inForce
      (DynamicRetrySource.settings s.defaults s.manager.policy method).budget
    simp only [List.foldl_cons, List.foldl_nil, ThreadSystem.step, hfresh, policyCalls, AList.lookup_insert,
      if_neg hoff]
    exact ⟨_, _, some _, rfl, AList.lookup_insert _, hshows, hconfig⟩

/-! ## One budget for each revision -/

structure OneEach (old : ℤ) (s : SharedSource) : Prop where
  tidy : s.Tidy
  once : (s.made.map MadeBudget.key).Nodup
  known : ∀ budget ∈ s.made, budget.revision = old ∨ budget.revision = s.inForce
  current : ∀ budget ∈ s.made, budget.revision = s.inForce →
    s.budgetRevisions.lookup budget.method = some s.inForce

def InTime (s : SharedSource) (method : String) (revision : ℤ) : Prop :=
  revision = s.inForce ∨ s.budgetRevisions.lookup method ≠ some s.inForce

theorem OneEach.fresh {old : ℤ} (h : s.OneEach old) (hintime : s.InTime method revision)
    (hrevision : revision = old ∨ revision = s.inForce)
    (hmissing : s.budgets.lookup method = none ∨ s.budgetRevisions.lookup method ≠ some revision) :
    (method, revision) ∉ s.made.map MadeBudget.key := by
  intro hmem
  obtain ⟨budget, hbudget, hkey⟩ := List.mem_map.mp hmem
  obtain ⟨rfl, rfl⟩ := Prod.mk.inj hkey
  obtain ⟨i, htable⟩ := Option.isSome_iff_exists.mp (h.tidy.listed budget hbudget)
  obtain ⟨found, hmade, -, hfound⟩ := h.tidy.points _ i htable
  have hother : s.budgetRevisions.lookup budget.method ≠ some budget.revision := by
    rcases hmissing with hnone | hother
    · rw [htable] at hnone
      cases hnone
    · exact hother
  rcases hintime with hcurrent | hlate
  · exact hother (hcurrent ▸ h.current budget hbudget hcurrent)
  · have hold : budget.revision = old :=
      hrevision.resolve_right fun hcurrent => hlate (h.current budget hbudget hcurrent)
    -- The table holds one of two revisions, and not the one in force.
    rw [hfound] at hother hlate
    rcases h.known found (List.mem_of_getElem? hmade) with hfound' | hfound'
    · exact hother (by rw [hfound', hold])
    · exact hlate (by rw [hfound'])

theorem OneEach.budgetForMethod {old : ℤ} (h : s.OneEach old) (hintime : s.InTime method revision)
    (hrevision : revision = old ∨ revision = s.inForce) (cfg : BudgetConfig) :
    (s.budgetForMethod method revision cfg).1.OneEach old ∧
    ∃ budget, (s.budgetForMethod method revision cfg).1.made[(s.budgetForMethod method revision cfg).2]? = some budget ∧
      budget.key = (method, revision) := by
  rcases budgetForMethod_cases h.tidy method revision cfg with ⟨i, budget, heq, -, hmade, hkey⟩ | ⟨heq, hmissing⟩
  · rw [heq]
    exact ⟨h, budget, hmade, hkey⟩
  · rw [heq]
    refine ⟨⟨tidy_makeBudget h.tidy, ?_, fun budget hbudget => ?_, fun budget hbudget hcurrent => ?_⟩,
      _, List.getElem?_concat_length, rfl⟩
    · simp only [makeBudget, List.map_append, List.map_singleton]
      rw [List.nodup_append]
      refine ⟨h.once, List.nodup_singleton _, ?_⟩
      rintro key hold _ hnew rfl
      rw [List.mem_singleton.mp hnew] at hold
      exact h.fresh hintime hrevision hmissing hold
    · rcases List.mem_append.mp hbudget with hold | hnew
      · exact h.known budget hold
      · rw [List.mem_singleton.mp hnew]
        exact hrevision
    · show (s.budgetRevisions.insert method revision).lookup budget.method = some s.inForce
      rw [Dict.lookup_insert']
      rcases List.mem_append.mp hbudget with hold | hnew
      · have htable := h.current budget hold hcurrent
        split
        · rename_i heq'
          rw [heq'] at htable
          rw [hintime.resolve_right (not_not.mpr htable)]
        · exact htable
      · rw [List.mem_singleton.mp hnew] at hcurrent ⊢
        rw [if_pos rfl]
        exact congrArg some hcurrent

end SharedSource

/-! ## Runs -/

open SharedSource

def Asked (old : ℤ) (s : SharedSource) (_ : ℕ) (t : PolicyCall) : Prop :=
  match t.place with
  | .entered => True
  | .loaded _ revision => revision = old ∨ revision = s.inForce
  | .returned _ _ none => True
  | .returned _ revision (some i) => ∃ budget, s.made[i]? = some budget ∧ budget.key = (t.method, revision)

def MovesInTime (p : Threads SharedSource PolicyCall) : ThreadEvent String Unit PolicySnapshot → Prop
  | .move id _ => ∀ method retry revision, p.threads.lookup id = some { method, place := .loaded retry revision } →
    p.shared.InTime method revision
  | _ => True

def OfCall (e : ThreadEvent String Unit PolicySnapshot) : Prop := ∀ snapshot, e ≠ .outside snapshot

variable {p : Threads SharedSource PolicyCall}

theorem keeps_move {old : ℤ} (h : ThreadSystem.Keeps (OneEach old) (Asked old) p)
    {e : ThreadEvent String Unit PolicySnapshot} (he : OfCall e) (hintime : MovesInTime p e) :
    ThreadSystem.Keeps (OneEach old) (Asked old) (policyCalls.step p e) := by
  apply h.next
  · intro id method _ _
    trivial
  · rintro id choice ⟨method, place⟩ s' t' rfl ht hmove
    have hasked := h.thread id _ ht
    cases place with
    | entered =>
      simp only [policyCalls] at hmove
      split at hmove
      · cases hmove
        exact ⟨h.shared, trivial, fun _ _ _ _ hu => hu⟩
      · cases hmove
        exact ⟨h.shared, .inr rfl, fun _ _ _ _ hu => hu⟩
    | loaded retry revision =>
      simp only [policyCalls, Option.some.injEq, Prod.mk.injEq] at hmove
      obtain ⟨rfl, rfl⟩ := hmove
      obtain ⟨hone, hbudget⟩ := h.shared.budgetForMethod (hintime method retry revision ht) hasked retry.budget
      refine ⟨hone, hbudget, ?_⟩
      rintro other ⟨method', place'⟩ - - hu
      cases place' with
      | entered => trivial
      | loaded retry' revision' =>
        unfold Asked at hu ⊢
        dsimp only at hu ⊢
        rw [inForce_budgetForMethod]
        exact hu
      | returned retry' revision' budget' =>
        cases budget' with
        | none => trivial
        | some i =>
          obtain ⟨budget, hmade, hkey⟩ := hu
          exact ⟨budget, made_kept h.shared.tidy hmade method revision retry.budget, hkey⟩
    | returned => cases hmove
  · rintro snapshot rfl
    exact absurd rfl (he snapshot)

theorem keeps_run {old : ℤ} (h : ThreadSystem.Keeps (OneEach old) (Asked old) p)
    {events : List (ThreadEvent String Unit PolicySnapshot)} (hevents : ∀ e ∈ events, OfCall e)
    (hintime : Along policyCalls.step MovesInTime p events) :
    ThreadSystem.Keeps (OneEach old) (Asked old) (events.foldl policyCalls.step p) := by
  induction events generalizing p with
  | nil => exact h
  | cons e rest ih =>
    obtain ⟨he, hrest⟩ := List.forall_mem_cons.mp hevents
    exact ih (keeps_move h he hintime.1) hrest hintime.2

theorem inForce_step (p : Threads SharedSource PolicyCall) {e : ThreadEvent String Unit PolicySnapshot} (he : OfCall e) :
    (policyCalls.step p e).shared.inForce = p.shared.inForce := by
  have hdid := policyCalls.did_step p e
  generalize policyCalls.step p e = p' at hdid
  cases hdid with
  | refused => rfl
  | absent => rfl
  | blocked => rfl
  | called => rfl
  | @moved id choice t s' t' ht hmove =>
    simp only [policyCalls] at hmove
    split at hmove
    · split at hmove <;> (cases hmove; rfl)
    · simp only [Option.some.injEq, Prod.mk.injEq] at hmove
      rw [← hmove.1, inForce_budgetForMethod]
    · cases hmove
  | changed snapshot => exact absurd rfl (he snapshot)

theorem keeps_before {s : SharedSource} (hmade : s.made = []) (hbudgets : s.budgets = ∅)
    {events : List (ThreadEvent String Unit PolicySnapshot)} (hevents : ∀ e ∈ events, OfCall e) :
    ThreadSystem.Keeps (OneEach s.inForce) (Asked s.inForce) (policyCalls.run s events) ∧
      (policyCalls.run s events).shared.inForce = s.inForce := by
  refine run_invariant_of (I := fun p : Threads SharedSource PolicyCall =>
    ThreadSystem.Keeps (OneEach s.inForce) (Asked s.inForce) p ∧ p.shared.inForce = s.inForce) ?_ ⟨?_, rfl⟩ hevents
  · rintro p e ⟨h, hsame⟩ he
    refine ⟨keeps_move h he ?_, (inForce_step p he).trans hsame⟩
    cases e with
    | call id method => trivial
    | outside snapshot => trivial
    | move id choice =>
      intro method retry revision ht
      exact .inl ((h.thread id _ ht).elim (fun hold => hold.trans hsame.symm) fun hcurrent => hcurrent)
  · refine ThreadSystem.Keeps.initial ⟨⟨fun method i hi => ?_, ?_⟩, ?_, ?_, ?_⟩
    · rw [hbudgets] at hi
      simp at hi
    all_goals simp [hmade]

theorem keeps_change {old : ℤ} (h : ThreadSystem.Keeps (OneEach old) (Asked old) p) (hold : p.shared.inForce = old)
    {snapshot : PolicySnapshot} (hnew : snapshot.revision ≠ old) :
    ThreadSystem.Keeps (OneEach old) (Asked old) (policyCalls.step p (.outside snapshot)) := by
  have hmade : ∀ budget ∈ p.shared.made, budget.revision = old := fun budget hbudget =>
    (h.shared.known budget hbudget).elim (fun h => h) fun hcurrent => hcurrent.trans hold
  refine ⟨⟨⟨h.shared.tidy.points, h.shared.tidy.listed⟩, h.shared.once, fun budget hbudget => .inl (hmade budget hbudget),
    fun budget hbudget hcurrent => ?_⟩, ?_⟩
  · exact absurd (hcurrent.symm.trans (hmade budget hbudget)) hnew
  · rintro id ⟨method, place⟩ ht
    have hasked := h.thread id _ ht
    cases place with
    | entered => trivial
    | loaded retry revision => exact .inl (hasked.elim (fun h => h) fun hcurrent => hcurrent.trans hold)
    | returned retry revision budget => cases budget <;> exact hasked

/-- However the calls interleave with one change of the policy: there is one budget for each method and revision, if
no call with the old revision comes to the table when the new budget of its method is there. -/
theorem one_budget_for_each_revision (defaults : CompiledRetry) (manager : PolicyManager) (snapshot : PolicySnapshot)
    (before after : List (ThreadEvent String Unit PolicySnapshot))
    (hbefore : ∀ e ∈ before, OfCall e) (hafter : ∀ e ∈ after, OfCall e)
    (hnew : snapshot.revision ≠ SharedSource.inForce { defaults, manager })
    (hintime : Along policyCalls.step MovesInTime
      (policyCalls.run { defaults, manager } (before ++ [.outside snapshot])) after) :
    ((policyCalls.run { defaults, manager } (before ++ .outside snapshot :: after)).shared.made.map
      MadeBudget.key).Nodup ∧
    ∀ id id' method retry retry' revision i i',
      (policyCalls.run { defaults, manager } (before ++ .outside snapshot :: after)).threads.lookup id =
        some { method, place := .returned retry revision (some i) } →
      (policyCalls.run { defaults, manager } (before ++ .outside snapshot :: after)).threads.lookup id' =
        some { method, place := .returned retry' revision (some i') } → i = i' := by
  obtain ⟨hkeeps, hsame⟩ := keeps_before (s := { defaults, manager }) rfl rfl hbefore
  have hchanged := keeps_change hkeeps hsame hnew
  unfold ThreadSystem.run at hintime hchanged ⊢
  rw [List.foldl_append] at hintime ⊢
  have hdone := keeps_run hchanged hafter hintime
  refine ⟨hdone.shared.once, fun id id' method retry retry' revision i i' ht ht' => ?_⟩
  obtain ⟨budget, hmade, hkey⟩ := hdone.thread id _ ht
  obtain ⟨budget', hmade', hkey'⟩ := hdone.thread id' _ ht'
  obtain ⟨hlt, -⟩ := List.getElem?_eq_some_iff.mp hmade
  refine (List.getElem?_inj (by simpa using hlt) hdone.shared.once).mp ?_
  rw [List.getElem?_map, List.getElem?_map, hmade, hmade']
  exact congrArg some (hkey.trans hkey'.symm)

def wholeCall (id : ℕ) : List (ThreadEvent String Unit PolicySnapshot) := [.call id "pay", .move id (), .move id ()]

theorem one_budget_before_and_after :
    ((policyCalls.run { defaults := compileRetryFromDialOptions {}, manager := {} }
      (wholeCall 0 ++ .outside { revision := 1 } :: (wholeCall 1 ++ wholeCall 2))).shared.made.map
        MadeBudget.key) = [("pay", 0), ("pay", 1)] ∧
    ((policyCalls.run { defaults := compileRetryFromDialOptions {}, manager := {} }
      (wholeCall 0 ++ .outside { revision := 1 } :: (wholeCall 1 ++ wholeCall 2))).shared.made.map
        MadeBudget.key).Nodup := by
  refine ⟨by decide +kernel, (one_budget_for_each_revision (compileRetryFromDialOptions {}) {} { revision := 1 }
    (wholeCall 0) (wholeCall 1 ++ wholeCall 2) ?_ ?_ (by decide) ?_).1⟩
  · simp [wholeCall, OfCall]
  · simp [wholeCall, OfCall]
  · refine ⟨trivial, fun _ _ _ ht => ?_, fun _ _ _ ht => ?_, trivial, fun _ _ _ ht => ?_, fun _ _ _ ht => ?_, trivial⟩
    · cases ht
    · cases ht
      exact .inl rfl
    · cases ht
    · cases ht
      exact .inl rfl

/-- Another call has made the new budget. The first makes one for the old revision, and a third makes the new one
again. -/
theorem late_call_makes_budget_again :
    ∃ (defaults : CompiledRetry) (before after : List (ThreadEvent String Unit PolicySnapshot)),
      (∀ e ∈ before ++ after, OfCall e) ∧
      ((policyCalls.run { defaults, manager := {} } (before ++ .outside { revision := 1 } :: after)).shared.made.map
        MadeBudget.key).count ("pay", 1) = 2 := by
  refine ⟨compileRetryFromDialOptions {}, [.call 0 "pay", .move 0 ()], wholeCall 1 ++ .move 0 () :: wholeCall 2, ?_, ?_⟩
  · simp [wholeCall, OfCall]
  · decide +kernel

end AegisMesh.Sdk

import Mathlib.Data.Rat.Floor
import Mathlib.Data.List.Infix
import Mathlib.Algebra.Order.Group.Unbundled.Abs
import AegisMesh.Telemetry.Recorder

/-!
# The trace verifier (`pkg/verifier/spec.go`)

`Verify` holds recorded traces against what a test expects. Fractions are exact where the source has `float64`.
-/

open Lib

namespace AegisMesh.Verifier

open Telemetry

structure ExpectSpec where
  routes : Dict String ℚ := ∅
  tolerance : ℚ := 0
  maxRetryAttempts : ℤ := 0
  forbiddenEdges : List String := []

structure Spec where
  expect : ExpectSpec

structure TraceRecord where
  traceID : String := ""
  route : String := ""
  path : List String := []
  retryAttempts : ℤ := 0
deriving DecidableEq

structure CheckResult where
  name : String
  passed : Bool
  message : String
deriving DecidableEq

structure Report where
  passed : Bool
  checks : List CheckResult
  routeDistribution : Dict String ℚ
  traceCount : ℕ

namespace Report

def add (r : Report) (name : String) (passed : Bool) (message : String) : Report :=
  { r with
    checks := r.checks ++ [{ name, passed, message }]
    passed := if !passed then false else r.passed }

def hasFailedCheck (r : Report) (name : String) : Bool := r.checks.any fun check => check.name = name && !check.passed

end Report

/-- The verb `%.4f`, which takes a half to the even neighbour. -/
def fixed4 (x : ℚ) : String :=
  let scaled := |x| * 10000
  let below := ⌊scaled⌋.toNat
  let above := 1 / 2 < scaled - below ∨ scaled - below = 1 / 2 ∧ below % 2 = 1
  let n := if above then below + 1 else below
  let digits := toString (n % 10000)
  (if x < 0 then "-" else "") ++ toString (n / 10000) ++ "." ++ String.ofList (List.replicate (4 - digits.length) '0') ++ digits

/-! ## Verify -/

def countRoute (counts : Dict String ℕ) (trace : TraceRecord) : Dict String ℕ :=
  if trace.route = "" then counts else counts.insert trace.route ((counts.lookup trace.route).getD 0 + 1)

def routeDistribution (traces : List TraceRecord) : Dict String ℚ :=
  if traces.length = 0 then ∅
  else (traces.foldl countRoute ∅).mapVal fun _ (count : ℕ) => (count : ℚ) / traces.length

def traceEdges : List String → List String
  | a :: b :: rest => (a ++ "->" ++ b) :: traceEdges (b :: rest)
  | _ => []

def checkRoute (expect : ExpectSpec) (report : Report) (route : String) (expected : ℚ) : Report :=
  let actual := (report.routeDistribution.lookup route).getD 0
  let diff := |actual - expected|
  let name := "route_distribution:" ++ route
  if diff ≤ expect.tolerance then
    report.add name true
      ("actual " ++ fixed4 actual ++ " within " ++ fixed4 expect.tolerance ++ " of expected " ++ fixed4 expected)
  else
    report.add name false
      ("actual " ++ fixed4 actual ++ " differs from expected " ++ fixed4 expected ++ " by " ++ fixed4 diff)

def checkRetries (maxRetry : ℤ) (report : Report) : List TraceRecord → Report
  | [] => report.add "retry_budget" true ("all traces used at most " ++ toString maxRetry ++ " retry attempts")
  | trace :: rest =>
    if maxRetry < trace.retryAttempts then
      report.add "retry_budget" false ("trace " ++ trace.traceID ++ " used " ++ toString trace.retryAttempts ++
        " retry attempts above max " ++ toString maxRetry)
    else checkRetries maxRetry report rest

def checkForbidden (forbidden : List String) (report : Report) : List TraceRecord → Report
  | [] => report.add "forbidden_edges" true "no forbidden edges observed"
  | trace :: rest =>
    match (traceEdges trace.path).find? (· ∈ forbidden) with
    | some edge => report.add "forbidden_edges" false ("trace " ++ trace.traceID ++ " used forbidden edge " ++ edge)
    | none => checkForbidden forbidden report rest

def newReport (traces : List TraceRecord) : Report where
  passed := true
  checks := []
  routeDistribution := routeDistribution traces
  traceCount := traces.length

def verify (spec : Spec) (traces : List TraceRecord) : Report :=
  let report := spec.expect.routes.entries.foldl (fun report e => checkRoute spec.expect report e.1 e.2) (newReport traces)
  let report := checkRetries spec.expect.maxRetryAttempts report traces
  checkForbidden (spec.expect.forbiddenEdges.map trimSpace) report traces

/-! ## What a spec asks for -/

/-- The part of all traces that took the route. Traces without a route count in the whole only. -/
def fraction (traces : List TraceRecord) (route : String) : ℚ :=
  if route = "" ∨ traces = [] then 0 else (traces.countP fun trace => trace.route = route) / traces.length

structure Spec.Meets (spec : Spec) (traces : List TraceRecord) : Prop where
  routes : ∀ route expected, spec.expect.routes.lookup route = some expected →
    |fraction traces route - expected| ≤ spec.expect.tolerance
  retries : ∀ trace ∈ traces, trace.retryAttempts ≤ spec.expect.maxRetryAttempts
  edges : ∀ trace ∈ traces, ∀ a b, [a, b] <:+: trace.path →
    ∀ edge ∈ spec.expect.forbiddenEdges, a ++ "->" ++ b ≠ trimSpace edge

/-! ## The distribution -/

theorem lookup_countRoutes (traces : List TraceRecord) (route : String) :
    (traces.foldl countRoute ∅).lookup route =
      if route = "" ∨ (traces.countP fun trace => trace.route = route) = 0 then none
      else some (traces.countP fun trace => trace.route = route) := by
  induction traces using List.reverseRecOn with
  | nil => simp
  | append_singleton rest last ih =>
    rw [List.foldl_append, List.foldl_cons, List.foldl_nil, List.countP_append, List.countP_singleton, countRoute]
    by_cases hlast : last.route = ""
    · rw [if_pos hlast, ih]
      by_cases hroute : route = ""
      · simp [hroute]
      · simp [hlast, Ne.symm hroute]
    · rw [if_neg hlast, Dict.lookup_insert']
      by_cases hroute : route = last.route
      · subst hroute
        rw [ih]
        by_cases hseen : (rest.countP fun trace => trace.route = last.route) = 0 <;> simp [hlast, hseen]
      · rw [if_neg hroute, ih]
        simp [Ne.symm hroute]

theorem lookup_routeDistribution (traces : List TraceRecord) (route : String) :
    (routeDistribution traces).lookup route =
      if route = "" ∨ (traces.countP fun trace => trace.route = route) = 0 then none
      else some ((traces.countP fun trace => trace.route = route : ℚ) / traces.length) := by
  unfold routeDistribution
  split
  · rename_i hnone
    rw [List.length_eq_zero_iff] at hnone
    simp [hnone]
  · rw [Dict.lookup_mapVal, lookup_countRoutes]
    split <;> rfl

theorem actual_eq_fraction (traces : List TraceRecord) (route : String) :
    ((routeDistribution traces).lookup route).getD 0 = fraction traces route := by
  rw [lookup_routeDistribution, fraction]
  by_cases hroute : route = ""
  · simp [hroute]
  by_cases hcount : (traces.countP fun trace => trace.route = route) = 0
  · simp [hcount]
  · have hne : traces ≠ [] := by
      rintro rfl
      exact hcount rfl
    simp [hroute, hcount, hne]

variable {traces traces' : List TraceRecord}

theorem lookup_routeDistribution_perm (h : traces'.Perm traces) (route : String) :
    (routeDistribution traces').lookup route = (routeDistribution traces).lookup route := by
  rw [lookup_routeDistribution, lookup_routeDistribution, h.countP_eq, h.length_eq]

theorem fraction_perm (h : traces'.Perm traces) (route : String) :
    fraction traces' route = fraction traces route := by
  rw [← actual_eq_fraction, ← actual_eq_fraction, lookup_routeDistribution_perm h]

/-! ## Reports grow -/

def Report.addAll (r : Report) (checks : List CheckResult) : Report :=
  { r with
    checks := r.checks ++ checks
    passed := checks.all CheckResult.passed && r.passed }

variable {report : Report}

theorem add_eq (name : String) (passed : Bool) (message : String) :
    report.add name passed message = report.addAll [{ name, passed, message }] := by
  cases passed <;> simp [Report.add, Report.addAll]

theorem addAll_addAll (checks more : List CheckResult) :
    (report.addAll checks).addAll more = report.addAll (checks ++ more) := by
  simp [Report.addAll, Bool.and_assoc, Bool.and_left_comm]

theorem checkRoute_adds (expect : ExpectSpec) (report : Report) (route : String) (expected : ℚ) :
    ∃ checks, checkRoute expect report route expected = report.addAll checks := by
  unfold checkRoute
  dsimp only
  split <;> exact ⟨_, add_eq _ _ _⟩

theorem checkRoutes_add (expect : ExpectSpec) (entries : List (Sigma fun _ : String => ℚ)) (report : Report) :
    ∃ checks, entries.foldl (fun report e => checkRoute expect report e.1 e.2) report = report.addAll checks := by
  induction entries generalizing report with
  | nil => exact ⟨[], by simp [Report.addAll]⟩
  | cons e rest ih =>
    obtain ⟨checks, hfirst⟩ := checkRoute_adds expect report e.1 e.2
    obtain ⟨more, hrest⟩ := ih (report.addAll checks)
    exact ⟨checks ++ more, by rw [List.foldl_cons, hfirst, hrest, addAll_addAll]⟩

theorem checkRetries_adds (maxRetry : ℤ) (report : Report) (traces : List TraceRecord) :
    ∃ checks, checkRetries maxRetry report traces = report.addAll checks := by
  induction traces with
  | nil => exact ⟨_, add_eq _ _ _⟩
  | cons trace rest ih =>
    rw [checkRetries]
    split
    · exact ⟨_, add_eq _ _ _⟩
    · exact ih

theorem checkForbidden_adds (forbidden : List String) (report : Report) (traces : List TraceRecord) :
    ∃ checks, checkForbidden forbidden report traces = report.addAll checks := by
  induction traces with
  | nil => exact ⟨_, add_eq _ _ _⟩
  | cons trace rest ih =>
    rw [checkForbidden]
    split
    · exact ⟨_, add_eq _ _ _⟩
    · exact ih

theorem verify_adds (spec : Spec) (traces : List TraceRecord) :
    ∃ checks, verify spec traces = (newReport traces).addAll checks := by
  unfold verify
  dsimp only
  obtain ⟨routes, hroutes⟩ := checkRoutes_add spec.expect spec.expect.routes.entries (newReport traces)
  obtain ⟨retries, hretries⟩ := checkRetries_adds spec.expect.maxRetryAttempts ((newReport traces).addAll routes) traces
  obtain ⟨edges, hedges⟩ := checkForbidden_adds (spec.expect.forbiddenEdges.map trimSpace)
    (((newReport traces).addAll routes).addAll retries) traces
  exact ⟨routes ++ (retries ++ edges), by rw [hroutes, hretries, hedges, addAll_addAll, addAll_addAll]⟩

theorem distribution_verify (spec : Spec) (traces : List TraceRecord) :
    (verify spec traces).routeDistribution = routeDistribution traces := by
  obtain ⟨checks, hverify⟩ := verify_adds spec traces
  rw [hverify]
  rfl

/-! ## The verdict -/

@[simp] theorem passed_add (name : String) (passed : Bool) (message : String) :
    (report.add name passed message).passed = (passed && report.passed) := by
  cases passed <;> rfl

theorem passed_checkRoute (expect : ExpectSpec) (report : Report) (route : String) (expected : ℚ) :
    (checkRoute expect report route expected).passed = true ↔
      |(report.routeDistribution.lookup route).getD 0 - expected| ≤ expect.tolerance ∧ report.passed = true := by
  unfold checkRoute
  dsimp only
  split <;> simp [*]

theorem passed_checkRoutes (expect : ExpectSpec) (entries : List (Sigma fun _ : String => ℚ)) :
    (entries.foldl (fun report e => checkRoute expect report e.1 e.2) report).passed = true ↔
      (∀ e ∈ entries, |(report.routeDistribution.lookup e.1).getD 0 - e.2| ≤ expect.tolerance) ∧ report.passed = true := by
  induction entries generalizing report with
  | nil => simp
  | cons e rest ih =>
    obtain ⟨checks, hadds⟩ := checkRoute_adds expect report e.1 e.2
    have hsame : (checkRoute expect report e.1 e.2).routeDistribution = report.routeDistribution := by
      rw [hadds]
      rfl
    rw [List.foldl_cons, ih, passed_checkRoute, hsame, List.forall_mem_cons]
    tauto

theorem passed_checkRetries (maxRetry : ℤ) (traces : List TraceRecord) :
    (checkRetries maxRetry report traces).passed = true ↔
      (∀ trace ∈ traces, trace.retryAttempts ≤ maxRetry) ∧ report.passed = true := by
  induction traces with
  | nil => simp [checkRetries]
  | cons trace rest ih =>
    rw [checkRetries, List.forall_mem_cons]
    split
    · rename_i hover
      simp [not_le.mpr hover]
    · rename_i hwithin
      rw [ih]
      simp [not_lt.mp hwithin]

theorem mem_traceEdges {path : List String} {edge : String} :
    edge ∈ traceEdges path ↔ ∃ a b, [a, b] <:+: path ∧ a ++ "->" ++ b = edge := by
  induction path with
  | nil => simp [traceEdges]
  | cons first rest ih =>
    cases rest with
    | nil =>
      simp only [traceEdges, List.not_mem_nil, false_iff]
      rintro ⟨a, b, hinfix, -⟩
      have := hinfix.length_le
      simp at this
    | cons second rest =>
      simp only [traceEdges, List.mem_cons, ih, List.infix_cons_iff, List.cons_prefix_cons, List.nil_prefix, and_true]
      constructor
      · rintro (rfl | ⟨a, b, hinfix, rfl⟩)
        · exact ⟨first, second, .inl ⟨rfl, rfl⟩, rfl⟩
        · exact ⟨a, b, .inr hinfix, rfl⟩
      · rintro ⟨a, b, ⟨rfl, rfl⟩ | hinfix, rfl⟩
        · exact .inl rfl
        · exact .inr ⟨a, b, hinfix, rfl⟩

theorem passed_checkForbidden (forbidden : List String) (traces : List TraceRecord) :
    (checkForbidden forbidden report traces).passed = true ↔
      (∀ trace ∈ traces, ∀ edge ∈ traceEdges trace.path, edge ∉ forbidden) ∧ report.passed = true := by
  induction traces with
  | nil => simp [checkForbidden]
  | cons trace rest ih =>
    rw [checkForbidden, List.forall_mem_cons]
    split
    · rename_i edge hedge
      have hmem := List.mem_of_find?_eq_some hedge
      have hforbidden := List.find?_some hedge
      simp only [decide_eq_true_eq] at hforbidden
      simp only [passed_add, Bool.false_and, Bool.false_eq_true, false_iff]
      intro h
      exact h.1.1 edge hmem hforbidden
    · rename_i hnone
      have hclean : ∀ edge ∈ traceEdges trace.path, edge ∉ forbidden := by simpa using hnone
      rw [ih]
      tauto

theorem verify_passed_iff (spec : Spec) (traces : List TraceRecord) :
    (verify spec traces).passed = true ↔ spec.Meets traces := by
  unfold verify
  dsimp only
  rw [passed_checkForbidden, passed_checkRetries, passed_checkRoutes]
  simp only [newReport, actual_eq_fraction, and_true]
  constructor
  · rintro ⟨hedges, hretries, hroutes⟩
    refine ⟨fun route expected h => hroutes ⟨route, expected⟩ (AList.mem_lookup_iff.mp h), hretries, ?_⟩
    intro trace htrace a b hinfix edge hedge heq
    exact hedges trace htrace _ (mem_traceEdges.mpr ⟨a, b, hinfix, rfl⟩) (heq ▸ List.mem_map_of_mem hedge)
  · intro h
    refine ⟨?_, h.retries, fun e he => h.routes e.1 e.2 (AList.mem_lookup_iff.mpr he)⟩
    intro trace htrace edge hedge hforbidden
    obtain ⟨a, b, hinfix, rfl⟩ := mem_traceEdges.mp hedge
    obtain ⟨forbidden, hmem, heq⟩ := List.mem_map.mp hforbidden
    exact h.edges trace htrace a b hinfix forbidden hmem heq.symm

theorem Spec.Meets.perm {spec : Spec} (h : spec.Meets traces) (hperm : traces'.Perm traces) : spec.Meets traces' where
  routes route expected hroute := by
    rw [fraction_perm hperm]
    exact h.routes route expected hroute
  retries trace htrace := h.retries trace (hperm.subset htrace)
  edges trace htrace := h.edges trace (hperm.subset htrace)

/-- A report passes if and only if the traces are as the spec asks, in whatever order they were recorded. -/
theorem verdict_of_the_spec (spec : Spec) (traces : List TraceRecord) :
    ((verify spec traces).passed = true ↔ spec.Meets traces) ∧
    ∀ traces' : List TraceRecord, traces'.Perm traces →
      (verify spec traces').passed = (verify spec traces).passed ∧
      ∀ route, (verify spec traces').routeDistribution.lookup route = (verify spec traces).routeDistribution.lookup route := by
  refine ⟨verify_passed_iff spec traces, fun traces' hperm => ⟨?_, fun route => ?_⟩⟩
  · rw [Bool.eq_iff_iff, verify_passed_iff, verify_passed_iff]
    exact ⟨fun h => h.perm hperm.symm, fun h => h.perm hperm⟩
  · rw [distribution_verify, distribution_verify, lookup_routeDistribution_perm hperm]

def canarySpec : Spec where
  expect :=
    { routes := (∅ : Dict String ℚ).insert "canary" (1 / 4)
      tolerance := 3 / 100
      maxRetryAttempts := 1
      forbiddenEdges := [" gateway->database "] }

def fourTraces : List TraceRecord :=
  [{ traceID := "t1", route := "canary", path := ["gateway", "users", "database"] },
    { traceID := "t2", route := "stable", path := ["gateway", "users"], retryAttempts := 1 },
    { traceID := "t3", path := ["gateway"] }, { traceID := "t4", route := "stable" }]

theorem four_traces_meet_the_spec :
    canarySpec.Meets fourTraces ∧ (verify canarySpec fourTraces.reverse).passed = true := by
  have hpassed : (verify canarySpec fourTraces).passed = true := by decide +kernel
  obtain ⟨hiff, hperm⟩ := verdict_of_the_spec canarySpec fourTraces
  exact ⟨hiff.mp hpassed, (hperm fourTraces.reverse (by decide)).1.trans hpassed⟩

end AegisMesh.Verifier

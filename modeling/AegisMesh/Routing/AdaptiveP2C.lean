import Mathlib.Data.Rat.Floor
import AegisMesh.Sdk.Picking

/-! # The adaptive picker of `pkg/routing` -/

namespace AegisMesh.Routing

open Lib Sdk

structure Endpoint where
  id : String := ""
  address : String := ""
  status : Code := .unspecified
  inflight : ℤ := 0
  latencyEWMA : ℤ := 0
  weight : ℚ := 0
  slowScore : ℚ := 0
deriving DecidableEq

structure AdaptiveP2CConfig where
  latencyPenalty : ℚ := 0
  slowPenalty : ℚ := 0
  probeRatio : ℚ := 0

structure AdaptiveP2CPicker where
  endpoints : List Endpoint
  cfg : AdaptiveP2CConfig

def newAdaptiveP2CPicker (endpoints : List Endpoint) (cfg : AdaptiveP2CConfig) : AdaptiveP2CPicker where
  endpoints := endpoints
  cfg :=
    let probeRatio := if cfg.probeRatio ≤ 0 then 2 / 100 else cfg.probeRatio
    { latencyPenalty := if cfg.latencyPenalty ≤ 0 then 1 else cfg.latencyPenalty
      slowPenalty := if cfg.slowPenalty ≤ 0 then 1 else cfg.slowPenalty
      probeRatio := if 1 < probeRatio then 1 else probeRatio }

inductive PickError
  | context (text : String)
  | noEndpoint
deriving DecidableEq

def endpointCost (cfg : AdaptiveP2CConfig) (endpoint : Endpoint) : ℚ :=
  let weight := if endpoint.weight ≤ 0 then 1 else endpoint.weight
  let slowScore := max 0 endpoint.slowScore
  let effectiveWeight := weight / (1 + slowScore)
  let effectiveWeight := if effectiveWeight ≤ 0 then 1 else effectiveWeight
  let inflightCost := (max endpoint.inflight 0 : ℤ) / effectiveWeight
  let latencyCost := (endpoint.latencyEWMA : ℚ) / 1000000000 * cfg.latencyPenalty
  let slowCost := slowScore * cfg.slowPenalty
  let slowCost := if endpoint.status = .degraded then slowCost + 1 else slowCost
  inflightCost + latencyCost + slowCost

def sortEndpoint (classes : List Endpoint × List Endpoint) (endpoint : Endpoint) : List Endpoint × List Endpoint :=
  if endpoint.status.normalTraffic then (classes.1 ++ [endpoint], classes.2)
  else if endpoint.status.isProbing then (classes.1, classes.2 ++ [endpoint])
  else classes

namespace AdaptiveP2CPicker

variable {σ : Type} (p : AdaptiveP2CPicker) (src : RandomSource σ)

def pickCandidates (endpoints : List Endpoint) (s : σ) : List Endpoint × σ :=
  match endpoints.foldl sortEndpoint ([], []) with
  | (normal, probing) =>
    if probing = [] ∨ normal = [] then (normal ++ probing, s)
    else
      let threshold := ⌊p.cfg.probeRatio * 100⌋
      if 0 < threshold then
        match src.intn 100 s with
        | (draw, s) => if (draw : ℤ) < threshold then (probing, s) else (normal, s)
      else (normal, s)

def pick (ctxErr : Option String) (s : σ) : Except PickError Endpoint × σ :=
  match ctxErr with
  | some text => (.error (.context text), s)
  | none =>
    match p.pickCandidates src p.endpoints s with
    | ([], s) => (.error .noEndpoint, s)
    | ([only], s) => (.ok only, s)
    | (candidates, s) =>
      match src.intn candidates.length s with
      | (a, s) =>
        match src.intn (candidates.length - 1) s with
        | (b, s) =>
          let b := if a ≤ b then b + 1 else b
          let first := candidates.getD a {}
          let second := candidates.getD b {}
          if endpointCost p.cfg first ≤ endpointCost p.cfg second then (.ok first, s) else (.ok second, s)

def orNoEndpoint : Option Endpoint → Except PickError Endpoint
  | none => .error .noEndpoint
  | some endpoint => .ok endpoint

theorem pick_eq (s : σ) :
    p.pick src none s =
      match p.pickCandidates src p.endpoints s with
      | (candidates, s) =>
        (orNoEndpoint (src.cheaper (endpointCost p.cfg) candidates s).1,
          (src.cheaper (endpointCost p.cfg) candidates s).2) := by
  unfold pick
  dsimp only
  rcases p.pickCandidates src p.endpoints s with ⟨candidates, s₁⟩
  match candidates with
  | [] => rfl
  | [only] => rfl
  | first :: second :: rest =>
    dsimp only
    rw [RandomSource.cheaper_draws src (by simp) {}]
    rcases hfirst : src.intn (first :: second :: rest).length s₁ with ⟨a, s₂⟩
    rcases hsecond : src.intn ((first :: second :: rest).length - 1) s₂ with ⟨b, s₃⟩
    simp only [hfirst, hsecond]
    generalize (if a ≤ b then b + 1 else b) = shifted
    split <;> rfl

end AdaptiveP2CPicker

/-! ## The two pickers side by side -/

def connections (endpoints : List Endpoint) : List (ℕ × PricedAddress) :=
  endpoints.zipIdx.map fun e => (e.2, { addr := e.1.address, status := e.1.status, slowScore := e.1.slowScore })

theorem connections_snoc (endpoints : List Endpoint) (last : Endpoint) :
    connections (endpoints ++ [last]) = connections endpoints ++
      [(endpoints.length, { addr := last.address, status := last.status, slowScore := last.slowScore })] := by
  simp [connections, List.zipIdx_append]

section Agreement

variable (stats : String → AdaptiveEndpointStats) (cfg : AdaptiveP2CConfig)

structure PricedAlike (endpoints : List Endpoint) : Prop where
  latency : cfg.latencyPenalty = 1
  slow : cfg.slowPenalty = 1
  weight : ∀ e ∈ endpoints, e.weight ≤ 0
  stats : ∀ e ∈ endpoints, stats e.address = { inflight := e.inflight, latencyEWMA := e.latencyEWMA }

def StandsFor (endpoints : List Endpoint) (items : List AdaptivePickerItem) (i : ℕ) (e : Endpoint) : Prop :=
  ∃ item, items[i]? = some item ∧ endpoints[item.subConn]? = some e ∧ item.cost stats = endpointCost cfg e

variable {stats cfg} {e : Endpoint}

theorem StandsFor.snoc {endpoints : List Endpoint} {items : List AdaptivePickerItem} {i : ℕ}
    (h : StandsFor stats cfg endpoints items i e) (last : Endpoint) (more : List AdaptivePickerItem) :
    StandsFor stats cfg (endpoints ++ [last]) (items ++ more) i e := by
  obtain ⟨item, hitem, he, hcost⟩ := h
  refine ⟨item, ?_, ?_, hcost⟩
  · rw [List.getElem?_append_left (List.getElem?_eq_some_iff.mp hitem).1]
    exact hitem
  · rw [List.getElem?_append_left (List.getElem?_eq_some_iff.mp he).1]
    exact he

theorem newAdaptivePickerItem_cost (h : PricedAlike stats cfg [e]) {sc : ℕ} {item : AdaptivePickerItem}
    (hitem : newAdaptivePickerItem sc { addr := e.address, status := e.status, slowScore := e.slowScore } = some item) :
    item.subConn = sc ∧ item.cost stats = endpointCost cfg e := by
  have hdegraded : e.status.normalized = .degraded ↔ e.status = .degraded := by
    cases e.status <;> simp [Code.normalized]
  unfold newAdaptivePickerItem at hitem
  dsimp only at hitem
  split at hitem
  · cases hitem
  · cases hitem
    refine ⟨rfl, ?_⟩
    unfold AdaptivePickerItem.cost endpointCost
    simp only [h.stats e (by simp), h.weight e (by simp), h.latency, h.slow, if_true,
      AdaptiveEndpointStats.latencySeconds, mul_one,
      mul_one_div, hdegraded]

theorem sortEndpoint_item {sc : ℕ} {item : AdaptivePickerItem}
    (hitem : newAdaptivePickerItem sc { addr := e.address, status := e.status, slowScore := e.slowScore } = some item) :
    item.status.normalTraffic = e.status.normalTraffic ∧ item.status.isProbing = e.status.isProbing := by
  rw [(newAdaptivePickerItem_status hitem).1]
  cases e.status <;> simp [Code.normalTraffic, Code.isProbing, Code.normalized]

theorem sortEndpoint_noItem {sc : ℕ}
    (hitem : newAdaptivePickerItem sc { addr := e.address, status := e.status, slowScore := e.slowScore } = none) :
    e.status.normalTraffic = false ∧ e.status.isProbing = false := by
  unfold newAdaptivePickerItem at hitem
  dsimp only at hitem
  split at hitem
  · rename_i hroutable
    revert hroutable
    cases e.status <;> simp [Code.normalTraffic, Code.isProbing, Code.normalized, Code.routable]
  · cases hitem

theorem classes_agree {endpoints : List Endpoint} (h : PricedAlike stats cfg endpoints) :
    List.Forall₂ (StandsFor stats cfg endpoints (buildPicker (connections endpoints)).items)
      (buildPicker (connections endpoints)).normalIndexes (endpoints.foldl sortEndpoint ([], [])).1 ∧
    List.Forall₂ (StandsFor stats cfg endpoints (buildPicker (connections endpoints)).items)
      (buildPicker (connections endpoints)).probingIndexes (endpoints.foldl sortEndpoint ([], [])).2 := by
  induction endpoints using List.reverseRecOn with
  | nil => exact ⟨.nil, .nil⟩
  | append_singleton rest last ih =>
    have hrest : PricedAlike stats cfg rest :=
      ⟨h.latency, h.slow, fun e he => h.weight e (by simp [he]), fun e he => h.stats e (by simp [he])⟩
    have hlast : PricedAlike stats cfg [last] :=
      ⟨h.latency, h.slow, fun e he => h.weight e (by simp_all), fun e he => h.stats e (by simp_all)⟩
    have hsnoc : buildPicker (connections (rest ++ [last])) = buildOne (buildPicker (connections rest))
        (rest.length, { addr := last.address, status := last.status, slowScore := last.slowScore }) := by
      simp [buildPicker, connections_snoc]
    obtain ⟨hnormal, hprobing⟩ := ih hrest
    rw [hsnoc, List.foldl_append, List.foldl_cons, List.foldl_nil]
    generalize buildPicker (connections rest) = p at hnormal hprobing ⊢
    generalize rest.foldl sortEndpoint ([], []) = classes at hnormal hprobing ⊢
    unfold buildOne sortEndpoint
    dsimp only
    cases hitem : newAdaptivePickerItem rest.length
        { addr := last.address, status := last.status, slowScore := last.slowScore } with
    | none =>
      obtain ⟨hnot, hnot'⟩ := sortEndpoint_noItem hitem
      rw [hnot, hnot']
      have hkeep : ∀ i e, StandsFor stats cfg rest p.items i e → StandsFor stats cfg (rest ++ [last]) p.items i e := by
        intro i e hstands
        simpa using hstands.snoc last []
      exact ⟨hnormal.imp hkeep, hprobing.imp hkeep⟩
    | some item =>
      obtain ⟨hsame, hsame'⟩ := sortEndpoint_item hitem
      obtain ⟨hsc, hcost⟩ := newAdaptivePickerItem_cost hlast hitem
      dsimp only
      rw [hsame, hsame']
      have hkeep : ∀ i e, StandsFor stats cfg rest p.items i e →
          StandsFor stats cfg (rest ++ [last]) (p.items ++ [item]) i e := fun i e hstands => hstands.snoc last [item]
      have hnew : StandsFor stats cfg (rest ++ [last]) (p.items ++ [item]) p.items.length last :=
        ⟨item, by simp, by rw [hsc]; simp, hcost⟩
      split
      · exact ⟨List.rel_append (hnormal.imp hkeep) (.cons hnew .nil), hprobing.imp hkeep⟩
      split
      · exact ⟨hnormal.imp hkeep, List.rel_append (hprobing.imp hkeep) (.cons hnew .nil)⟩
      · exact ⟨hnormal.imp hkeep, hprobing.imp hkeep⟩

end Agreement

def clientConfig : AdaptiveP2CConfig where
  latencyPenalty := 1
  slowPenalty := 1
  probeRatio := 1 / 50

theorem newAdaptiveP2CPicker_client (endpoints : List Endpoint) :
    newAdaptiveP2CPicker endpoints clientConfig = { endpoints, cfg := clientConfig } := by
  unfold newAdaptiveP2CPicker clientConfig
  norm_num

theorem candidates_agree {σ : Type} {stats : String → AdaptiveEndpointStats} {endpoints : List Endpoint}
    (h : PricedAlike stats clientConfig endpoints) (src : RandomSource σ) (s : σ) :
    List.Forall₂ (StandsFor stats clientConfig endpoints (buildPicker (connections endpoints)).items)
      ((buildPicker (connections endpoints)).pickCandidateIndexes src s).1
      (({ endpoints, cfg := clientConfig } : AdaptiveP2CPicker).pickCandidates src endpoints s).1 ∧
    ((buildPicker (connections endpoints)).pickCandidateIndexes src s).2 =
      (({ endpoints, cfg := clientConfig } : AdaptiveP2CPicker).pickCandidates src endpoints s).2 := by
  obtain ⟨hnormal, hprobing⟩ := classes_agree h
  have hthreshold : (buildPicker (connections endpoints)).probeThreshold = 2 := by
    rw [buildPicker_eq]
    rfl
  have hratio : ⌊clientConfig.probeRatio * 100⌋ = 2 := by
    norm_num [clientConfig]
  unfold BuiltPicker.pickCandidateIndexes AdaptiveP2CPicker.pickCandidates
  dsimp only
  rw [hthreshold, hratio]
  generalize buildPicker (connections endpoints) = p at hnormal hprobing ⊢
  generalize endpoints.foldl sortEndpoint ([], []) = classes at hnormal hprobing ⊢
  obtain ⟨normal, probing⟩ := classes
  dsimp only at hnormal hprobing ⊢
  have hnil : p.normalIndexes = [] ↔ normal = [] := by
    rw [← List.length_eq_zero_iff, ← List.length_eq_zero_iff, hnormal.length_eq]
  have hnil' : p.probingIndexes = [] ↔ probing = [] := by
    rw [← List.length_eq_zero_iff, ← List.length_eq_zero_iff, hprobing.length_eq]
  by_cases hno : normal = []
  · rw [if_pos (hnil.mpr hno), if_pos (.inr hno), hno]
    exact ⟨hprobing, rfl⟩
  by_cases hno' : probing = []
  · rw [if_neg (mt hnil.mp hno), if_pos (hnil'.mpr hno'), if_pos (.inl hno'), hno', List.append_nil]
    exact ⟨hnormal, rfl⟩
  · rw [if_neg (mt hnil.mp hno), if_neg (mt hnil'.mp hno'), if_pos (show 0 < 2 by decide),
      if_neg (show ¬(probing = [] ∨ normal = []) by tauto), if_pos (show (0 : ℤ) < 2 by decide)]
    by_cases hdraw : (src.intn 100 s).1 < 2
    · rw [if_pos hdraw, if_pos (by exact_mod_cast hdraw)]
      exact ⟨hprobing, rfl⟩
    · rw [if_neg hdraw, if_neg (by exact_mod_cast hdraw)]
      exact ⟨hnormal, rfl⟩

/-- Both pickers settle on the same endpoint and leave the random source in the same state, or both find none. -/
theorem pickers_agree {σ : Type} (src : RandomSource σ) (endpoints : List Endpoint) (stats : String → AdaptiveEndpointStats)
    (hweight : ∀ e ∈ endpoints, e.weight ≤ 0)
    (hstats : ∀ e ∈ endpoints, stats e.address = { inflight := e.inflight, latencyEWMA := e.latencyEWMA }) (s : σ) :
    let picked := (buildPicker (connections endpoints)).pickItem src stats s
    (newAdaptiveP2CPicker endpoints clientConfig).pick src none s =
      (match picked.1 with
        | none => .error .noEndpoint
        | some item => AdaptiveP2CPicker.orNoEndpoint endpoints[item.subConn]?, picked.2) := by
  have halike : PricedAlike stats clientConfig endpoints := ⟨rfl, rfl, hweight, hstats⟩
  obtain ⟨hclass, hstate⟩ := candidates_agree halike src s
  intro picked
  rw [newAdaptiveP2CPicker_client, AdaptiveP2CPicker.pick_eq]
  have hpicked : picked = (buildPicker (connections endpoints)).pickItem src stats s := rfl
  clear_value picked
  subst hpicked
  rw [BuiltPicker.pickItem_eq]
  generalize (buildPicker (connections endpoints)).pickCandidateIndexes src s = mine at hclass hstate ⊢
  dsimp only
  generalize ({ endpoints, cfg := clientConfig } : AdaptiveP2CPicker).pickCandidates src endpoints s = theirs at hclass hstate ⊢
  obtain ⟨candidates, s₁⟩ := mine
  obtain ⟨candidates', s₂⟩ := theirs
  dsimp only at hclass hstate ⊢
  subst hstate
  have hcost : ∀ i e, StandsFor stats clientConfig endpoints (buildPicker (connections endpoints)).items i e →
      (buildPicker (connections endpoints)).costAt stats i = endpointCost clientConfig e := by
    rintro i e ⟨item, hitem, -, hcost⟩
    rw [costAt_of_item hitem, hcost]
  obtain ⟨hrel, hsame⟩ := src.cheaper_rel hcost hclass s₁
  rw [← hsame]
  generalize (src.cheaper ((buildPicker (connections endpoints)).costAt stats) candidates s₁).1 = mine at hrel ⊢
  generalize (src.cheaper (endpointCost clientConfig) candidates' s₁).1 = theirs at hrel ⊢
  cases hrel with
  | none => rfl
  | @some i e hstands =>
    obtain ⟨item, hitem, he, -⟩ := hstands
    rw [Option.bind_some, hitem]
    dsimp only
    rw [he]

def threeEndpoints : List Endpoint :=
  [{ id := "a", address := "10.0.0.1:80", inflight := 3, latencyEWMA := 2000000 },
    { id := "b", address := "10.0.0.2:80", status := .degraded, slowScore := 1 / 2 },
    { id := "c", address := "10.0.0.3:80", status := .probing }]

def threeStats (address : String) : AdaptiveEndpointStats :=
  if address = "10.0.0.1:80" then { inflight := 3, latencyEWMA := 2000000 } else {}

theorem degraded_picked_by_both :
    (newAdaptiveP2CPicker threeEndpoints clientConfig).pick scripted none [7, 0, 0] =
      (match ((buildPicker (connections threeEndpoints)).pickItem scripted threeStats [7, 0, 0]).1 with
        | none => .error .noEndpoint
        | some item => AdaptiveP2CPicker.orNoEndpoint threeEndpoints[item.subConn]?,
        ((buildPicker (connections threeEndpoints)).pickItem scripted threeStats [7, 0, 0]).2) :=
  pickers_agree scripted threeEndpoints threeStats (by decide +kernel) (by simp [threeEndpoints, threeStats]) [7, 0, 0]

end AegisMesh.Routing

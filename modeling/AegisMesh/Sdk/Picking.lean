import Mathlib.Algebra.Order.Field.Rat
import Mathlib.Tactic.Positivity
import AegisMesh.Lib.TwoChoices
import AegisMesh.Sdk.Balancer

/-! # What a picker picks -/

namespace AegisMesh.Sdk

open Lib

structure PricedAddress extends ReadyAddress where
  slowScore : ℚ := 0
deriving DecidableEq

structure AdaptiveEndpointStats where
  inflight : ℤ := 0
  latencyEWMA : ℤ := 0

def AdaptiveEndpointStats.latencySeconds (stats : AdaptiveEndpointStats) : ℚ := stats.latencyEWMA / 1000000000

structure AdaptivePickerItem where
  subConn : ℕ
  address : String
  status : Code
  inflightPenalty : ℚ
  latencyPenalty : ℚ
  staticCost : ℚ
deriving DecidableEq

def newAdaptivePickerItem (sc : ℕ) (address : PricedAddress) : Option AdaptivePickerItem :=
  let statusValue := address.status.normalized
  if !statusValue.routable then none
  else
    let weight : ℚ := 1
    let slowScore := max 0 address.slowScore
    let effectiveWeight := weight / (1 + slowScore)
    let effectiveWeight := if effectiveWeight ≤ 0 then 1 else effectiveWeight
    let staticCost := if statusValue = .degraded then slowScore + 1 else slowScore
    some
      { subConn := sc
        address := address.addr
        status := statusValue
        inflightPenalty := 1 / effectiveWeight
        latencyPenalty := 1
        staticCost }

def AdaptivePickerItem.cost (stats : String → AdaptiveEndpointStats) (item : AdaptivePickerItem) : ℚ :=
  (max (stats item.address).inflight 0 : ℤ) * item.inflightPenalty +
    (stats item.address).latencySeconds * item.latencyPenalty + item.staticCost

structure BuiltPicker where
  items : List AdaptivePickerItem := []
  normalIndexes : List ℕ := []
  probingIndexes : List ℕ := []
  probeThreshold : ℕ := adaptiveDefaultProbeThreshold

def buildOne (p : BuiltPicker) (ready : ℕ × PricedAddress) : BuiltPicker :=
  match newAdaptivePickerItem ready.1 ready.2 with
  | none => p
  | some item =>
    let idx := p.items.length
    let p := { p with items := p.items ++ [item] }
    if item.status.normalTraffic then { p with normalIndexes := p.normalIndexes ++ [idx] }
    else if item.status.isProbing then { p with probingIndexes := p.probingIndexes ++ [idx] }
    else p

def buildPicker (ready : List (ℕ × PricedAddress)) : BuiltPicker := ready.foldl buildOne {}

namespace BuiltPicker

variable {σ : Type} (p : BuiltPicker) (src : RandomSource σ) (stats : String → AdaptiveEndpointStats)

def pickCandidateIndexes (s : σ) : List ℕ × σ :=
  if p.normalIndexes = [] then (p.probingIndexes, s)
  else if p.probingIndexes = [] then (p.normalIndexes, s)
  else if 0 < p.probeThreshold then
    match src.intn 100 s with
    | (draw, s) => if draw < p.probeThreshold then (p.probingIndexes, s) else (p.normalIndexes, s)
  else (p.normalIndexes, s)

def costAt (i : ℕ) : ℚ := ((p.items[i]?).map fun item => item.cost stats).getD 0

def pickItem (s : σ) : Option AdaptivePickerItem × σ :=
  match p.pickCandidateIndexes src s with
  | ([], s) => (none, s)
  | ([only], s) => (p.items[only]?, s)
  | (candidates, s) =>
    match src.intn candidates.length s with
    | (aPos, s) =>
      match src.intn (candidates.length - 1) s with
      | (bPos, s) =>
        let bPos := if aPos ≤ bPos then bPos + 1 else bPos
        let aIdx := candidates.getD aPos 0
        let bIdx := candidates.getD bPos 0
        if p.costAt stats aIdx ≤ p.costAt stats bIdx then (p.items[aIdx]?, s) else (p.items[bIdx]?, s)

theorem pickItem_eq (s : σ) :
    p.pickItem src stats s =
      match p.pickCandidateIndexes src s with
      | (candidates, s) =>
        ((src.cheaper (p.costAt stats) candidates s).1.bind fun i => p.items[i]?,
          (src.cheaper (p.costAt stats) candidates s).2) := by
  unfold pickItem
  rcases p.pickCandidateIndexes src s with ⟨candidates, s₁⟩
  match candidates with
  | [] => rfl
  | [only] => rfl
  | first :: second :: rest =>
    dsimp only
    rw [RandomSource.cheaper_draws src (by simp) 0]
    rcases hfirst : src.intn (first :: second :: rest).length s₁ with ⟨a, s₂⟩
    rcases hsecond : src.intn ((first :: second :: rest).length - 1) s₂ with ⟨b, s₃⟩
    simp only [hfirst, hsecond]
    generalize (if a ≤ b then b + 1 else b) = shifted
    split <;> rfl

end BuiltPicker

/-! ## What `Build` makes -/

def placesOf {α : Type} (q : α → Bool) (l : List α) : List ℕ := (List.range l.length).filter fun i => (l[i]?).any q

theorem placesOf_snoc {α : Type} (q : α → Bool) (l : List α) (a : α) :
    placesOf q (l ++ [a]) = placesOf q l ++ if q a then [l.length] else [] := by
  unfold placesOf
  rw [List.length_append, List.length_singleton, List.range_succ, List.filter_append]
  congr 1
  · refine List.filter_congr fun i hi => ?_
    rw [List.getElem?_append_left (List.mem_range.mp hi)]
  · cases hq : q a <;> simp [hq]

def normalItem (item : AdaptivePickerItem) : Bool := item.status.normalTraffic

def probingItem (item : AdaptivePickerItem) : Bool := !item.status.normalTraffic && item.status.isProbing

theorem buildPicker_eq (ready : List (ℕ × PricedAddress)) :
    buildPicker ready =
      let items := ready.filterMap fun r => newAdaptivePickerItem r.1 r.2
      { items, normalIndexes := placesOf normalItem items, probingIndexes := placesOf probingItem items } := by
  induction ready using List.reverseRecOn with
  | nil => rfl
  | append_singleton rest last ih =>
    have hsnoc : buildPicker (rest ++ [last]) = buildOne (buildPicker rest) last := by
      simp [buildPicker]
    rw [hsnoc, ih, List.filterMap_append]
    dsimp only
    generalize rest.filterMap (fun r => newAdaptivePickerItem r.1 r.2) = items
    unfold buildOne
    cases hitem : newAdaptivePickerItem last.1 last.2 with
    | none => simp [hitem]
    | some item =>
      simp only [List.filterMap_cons, hitem, List.filterMap_nil, placesOf_snoc, normalItem, probingItem]
      by_cases hnormal : item.status.normalTraffic = true <;> by_cases hprobing : item.status.isProbing = true <;>
        simp [hnormal, hprobing]

theorem mem_placesOf {α : Type} {q : α → Bool} {l : List α} {i : ℕ} :
    i ∈ placesOf q l ↔ ∃ a, l[i]? = some a ∧ q a = true := by
  unfold placesOf
  rw [List.mem_filter, List.mem_range]
  constructor
  · rintro ⟨hi, hany⟩
    rw [List.getElem?_eq_getElem hi] at hany ⊢
    exact ⟨_, rfl, hany⟩
  · rintro ⟨a, ha, hq⟩
    exact ⟨(List.getElem?_eq_some_iff.mp ha).1, by rw [ha]; exact hq⟩

theorem nodup_placesOf {α : Type} (q : α → Bool) (l : List α) : (placesOf q l).Nodup := List.nodup_range.filter _

theorem newAdaptivePickerItem_status {sc : ℕ} {address : PricedAddress} {item : AdaptivePickerItem}
    (h : newAdaptivePickerItem sc address = some item) :
    item.status = address.status.normalized ∧ item.status.routable = true := by
  unfold newAdaptivePickerItem at h
  dsimp only at h
  split at h
  · cases h
  · rename_i hroutable
    cases h
    exact ⟨rfl, by simpa using hroutable⟩

/-! ## Picks -/

def BuiltPicker.classOf (p : BuiltPicker) (item : AdaptivePickerItem) : List ℕ :=
  if normalItem item then p.normalIndexes else p.probingIndexes

section Fair

variable {σ : Type} (ready : List (ℕ × PricedAddress)) (stats : String → AdaptiveEndpointStats) (src : RandomSource σ)
  {item : AdaptivePickerItem}

theorem buildPicker_items {i : ℕ} (h : (buildPicker ready).items[i]? = some item) :
    ∃ r ∈ ready, newAdaptivePickerItem r.1 r.2 = some item := by
  rw [buildPicker_eq] at h
  exact List.mem_filterMap.mp (List.mem_of_getElem? h)

theorem mem_indexes {i : ℕ} :
    (i ∈ (buildPicker ready).normalIndexes ↔
      ∃ item, (buildPicker ready).items[i]? = some item ∧ item.status.normalTraffic = true) ∧
    (i ∈ (buildPicker ready).probingIndexes ↔
      ∃ item, (buildPicker ready).items[i]? = some item ∧ item.status = .probing) := by
  rw [buildPicker_eq]
  dsimp only
  rw [mem_placesOf, mem_placesOf]
  refine ⟨Iff.rfl, exists_congr fun item => and_congr_right fun _ => ?_⟩
  unfold probingItem
  cases item.status <;> simp [Code.normalTraffic, Code.isProbing, Code.normalized]

theorem normalIndexes_nil (h : (buildPicker ready).normalIndexes = []) {r : ℕ × PricedAddress} (hr : r ∈ ready) :
    r.2.status.normalTraffic = false := by
  by_contra hnormal
  have hroutable : r.2.status.normalized.routable = true := by
    revert hnormal
    cases r.2.status <;> simp [Code.normalTraffic, Code.normalized, Code.routable]
  have hitem : ∃ item, newAdaptivePickerItem r.1 r.2 = some item := by
    unfold newAdaptivePickerItem
    dsimp only
    rw [if_neg (by simp [hroutable])]
    exact ⟨_, rfl⟩
  obtain ⟨item, hitem⟩ := hitem
  have hmem : item ∈ (buildPicker ready).items := by
    rw [buildPicker_eq]
    exact List.mem_filterMap.mpr ⟨r, hr, hitem⟩
  obtain ⟨i, hi⟩ := List.mem_iff_getElem?.mp hmem
  have hplace : i ∈ (buildPicker ready).normalIndexes := by
    refine (mem_indexes ready).1.mpr ⟨item, hi, ?_⟩
    rw [(newAdaptivePickerItem_status hitem).1]
    revert hnormal
    cases r.2.status <;> simp [Code.normalTraffic, Code.normalized]
  rw [h] at hplace
  cases hplace

theorem pickCandidateIndexes_cases (s : σ) :
    ((buildPicker ready).pickCandidateIndexes src s).1 = (buildPicker ready).normalIndexes ∨
    ((buildPicker ready).pickCandidateIndexes src s).1 = (buildPicker ready).probingIndexes ∧
      ((buildPicker ready).normalIndexes = [] ∨ (src.intn 100 s).1 < adaptiveDefaultProbeThreshold) := by
  have hthreshold : (buildPicker ready).probeThreshold = adaptiveDefaultProbeThreshold := by rw [buildPicker_eq]
  unfold BuiltPicker.pickCandidateIndexes
  rw [hthreshold, if_pos (show 0 < adaptiveDefaultProbeThreshold by decide)]
  split
  · exact .inr ⟨rfl, .inl ‹_›⟩
  split
  · exact .inl rfl
  dsimp only
  split
  · exact .inr ⟨rfl, .inr ‹_›⟩
  · exact .inl rfl

structure FairPick (s : σ) (item : AdaptivePickerItem) : Prop where
  offered : ∃ r ∈ ready, newAdaptivePickerItem r.1 r.2 = some item
  routable : item.status ≠ .ejected ∧ item.status ≠ .dead ∧ item.status ≠ .unavailable
  probing : item.status = .probing →
    (∀ r ∈ ready, r.2.status.normalized ≠ .healthy ∧ r.2.status.normalized ≠ .degraded) ∨
      (src.intn 100 s).1 < (buildPicker ready).probeThreshold
  compared : 2 ≤ ((buildPicker ready).classOf item).length → ∃ i j a b,
    i ∈ (buildPicker ready).classOf item ∧ j ∈ (buildPicker ready).classOf item ∧ i ≠ j ∧
      (buildPicker ready).items[i]? = some a ∧ (buildPicker ready).items[j]? = some b ∧
      item = if a.cost stats ≤ b.cost stats then a else b
  notWorst : 2 ≤ ((buildPicker ready).classOf item).length → ∃ i ∈ (buildPicker ready).classOf item,
    (buildPicker ready).items[i]? = some item ∧
      ¬∀ j ∈ (buildPicker ready).classOf item, j ≠ i → (buildPicker ready).costAt stats j < item.cost stats

variable {ready stats src} {candidates : List ℕ}

theorem costAt_of_item {p : BuiltPicker} {i : ℕ} (h : p.items[i]? = some item) :
    p.costAt stats i = item.cost stats := by
  rw [BuiltPicker.costAt, h]
  rfl

theorem pickItem_candidate {s s' : σ} (h : (buildPicker ready).pickItem src stats s = (some item, s')) :
    ∃ candidates s₁ s₂ i, (candidates = (buildPicker ready).normalIndexes ∨
        candidates = (buildPicker ready).probingIndexes ∧
          ((buildPicker ready).normalIndexes = [] ∨ (src.intn 100 s).1 < adaptiveDefaultProbeThreshold)) ∧
      src.cheaper ((buildPicker ready).costAt stats) candidates s₁ = (some i, s₂) ∧
      (buildPicker ready).items[i]? = some item := by
  rw [BuiltPicker.pickItem_eq] at h
  have hcases := pickCandidateIndexes_cases ready src s
  generalize (buildPicker ready).pickCandidateIndexes src s = picked at h hcases
  obtain ⟨candidates, s₁⟩ := picked
  dsimp only at h hcases
  rcases hpick : src.cheaper ((buildPicker ready).costAt stats) candidates s₁ with ⟨_ | i, s₂⟩
  · rw [hpick] at h
    cases h
  · rw [hpick] at h
    exact ⟨candidates, s₁, s₂, i, hcases, hpick, (Prod.mk.inj h).1⟩

section Classes

variable (hclass : candidates = (buildPicker ready).normalIndexes ∨ candidates = (buildPicker ready).probingIndexes)

include hclass

theorem classOf_candidate {i : ℕ} (hi : i ∈ candidates) :
    ∃ item, (buildPicker ready).items[i]? = some item ∧ (buildPicker ready).classOf item = candidates := by
  unfold BuiltPicker.classOf normalItem
  rcases hclass with rfl | rfl
  · obtain ⟨item, hitem, hnormal⟩ := (mem_indexes ready).1.mp hi
    exact ⟨item, hitem, if_pos hnormal⟩
  · obtain ⟨item, hitem, hprobing⟩ := (mem_indexes ready).2.mp hi
    refine ⟨item, hitem, ?_⟩
    rw [hprobing]
    rfl

theorem nodup_class : candidates.Nodup := by
  rw [buildPicker_eq] at hclass
  rcases hclass with rfl | rfl
  · exact nodup_placesOf _ _
  · exact nodup_placesOf _ _

theorem cheaper_candidates {s s' : σ} {picked : ℕ}
    (hpick : src.cheaper ((buildPicker ready).costAt stats) candidates s = (some picked, s'))
    (hlen : 2 ≤ candidates.length) :
    ∃ i j a b, i ∈ candidates ∧ j ∈ candidates ∧ i ≠ j ∧
      (buildPicker ready).items[i]? = some a ∧ (buildPicker ready).items[j]? = some b ∧
      picked = if a.cost stats ≤ b.cost stats then i else j := by
  obtain ⟨m, n, hm, hn, hne, hcheaper⟩ := src.cheaper_spec ((buildPicker ready).costAt stats) hlen s
  obtain ⟨a, ha, -⟩ := classOf_candidate hclass (List.getElem_mem hm)
  obtain ⟨b, hb, -⟩ := classOf_candidate hclass (List.getElem_mem hn)
  refine ⟨candidates[m], candidates[n], a, b, List.getElem_mem hm, List.getElem_mem hn, ?_, ha, hb, ?_⟩
  · exact fun heq => hne ((nodup_class hclass).getElem_inj_iff.mp heq)
  · rw [hpick, costAt_of_item ha, costAt_of_item hb] at hcheaper
    exact Option.some.inj hcheaper

theorem exists_class_draw (hne : candidates ≠ []) (rest : List ℕ) :
    ∃ front, (buildPicker ready).pickCandidateIndexes scripted (front ++ rest) = (candidates, rest) := by
  have hthreshold : (buildPicker ready).probeThreshold = 2 := by
    rw [buildPicker_eq]
    rfl
  unfold BuiltPicker.pickCandidateIndexes
  rw [hthreshold]
  rcases hclass with rfl | rfl
  · by_cases hprobing : (buildPicker ready).probingIndexes = []
    · exact ⟨[], by simp [hne, hprobing]⟩
    · exact ⟨[2], by simp [hne, hprobing, scripted]⟩
  · by_cases hnormal : (buildPicker ready).normalIndexes = []
    · exact ⟨[], by simp [hnormal]⟩
    · exact ⟨[0], by simp [hnormal, hne, scripted]⟩

end Classes

theorem fairPick {s s' : σ} (h : (buildPicker ready).pickItem src stats s = (some item, s')) :
    FairPick ready stats src s item := by
  obtain ⟨candidates, s₁, s₂, i, hcases, hpick, hitem⟩ := pickItem_candidate h
  have hclass : candidates = (buildPicker ready).normalIndexes ∨ candidates = (buildPicker ready).probingIndexes :=
    hcases.imp_right And.left
  have hi := src.cheaper_mem hpick
  obtain ⟨item', hitem', hclassOf⟩ := classOf_candidate hclass hi
  obtain rfl : item' = item := Option.some.inj (hitem'.symm.trans hitem)
  obtain ⟨r, hr, hnew⟩ := buildPicker_items ready hitem
  have hstatus := newAdaptivePickerItem_status hnew
  refine ⟨⟨r, hr, hnew⟩, ?_, ?_, ?_, ?_⟩
  · have hroutable := hstatus.2
    revert hroutable
    cases item'.status <;> simp [Code.routable, Code.normalized]
  · intro hprobing
    rcases hcases with hnormal | ⟨-, hnone | hdraw⟩
    · rw [hnormal] at hi
      obtain ⟨normal, hnormalItem, htraffic⟩ := (mem_indexes ready).1.mp hi
      rw [hitem] at hnormalItem
      cases hnormalItem
      rw [hprobing] at htraffic
      cases htraffic
    · refine .inl fun other hother => ?_
      have hnot := normalIndexes_nil ready hnone hother
      revert hnot
      cases other.2.status <;> simp [Code.normalTraffic, Code.normalized]
    · right
      rw [buildPicker_eq]
      exact hdraw
  · rw [hclassOf]
    intro hlen
    obtain ⟨i', j, a, b, hi', hj, hne, ha, hb, hcheaper⟩ := cheaper_candidates hclass hpick hlen
    refine ⟨i', j, a, b, hi', hj, hne, ha, hb, ?_⟩
    split at hcheaper
    · rw [hcheaper, ha] at hitem
      exact (Option.some.inj hitem).symm.trans (if_pos ‹_›).symm
    · rw [hcheaper, hb] at hitem
      exact (Option.some.inj hitem).symm.trans (if_neg ‹_›).symm
  · rw [hclassOf]
    intro hlen
    obtain ⟨i', j, a, b, hi', hj, hne, ha, hb, hcheaper⟩ := cheaper_candidates hclass hpick hlen
    refine ⟨i, hi, hitem, fun hworst => ?_⟩
    split at hcheaper
    · rename_i hcost
      subst hcheaper
      have hless := hworst j hj (Ne.symm hne)
      rw [costAt_of_item hb] at hless
      rw [hitem] at ha
      cases ha
      exact absurd hless (not_lt.mpr hcost)
    · rename_i hcost
      subst hcheaper
      have hless := hworst i' hi' hne
      rw [costAt_of_item ha] at hless
      rw [hitem] at hb
      cases hb
      exact hcost (le_of_lt hless)

end Fair

/-- Whatever endpoints there are and whatever is drawn, a pick is fair; and every candidate that is not dearer than
all others of its class is what some draws pick. -/
theorem picks_fair_and_complete (ready : List (ℕ × PricedAddress)) (stats : String → AdaptiveEndpointStats) :
    (∀ (σ : Type) (src : RandomSource σ) (s s' : σ) (item : AdaptivePickerItem),
      (buildPicker ready).pickItem src stats s = (some item, s') → FairPick ready stats src s item) ∧
    ∀ candidates, candidates = (buildPicker ready).normalIndexes ∨ candidates = (buildPicker ready).probingIndexes →
      2 ≤ candidates.length → ∀ i ∈ candidates,
        (¬∀ j ∈ candidates, j ≠ i → (buildPicker ready).costAt stats j < (buildPicker ready).costAt stats i) →
        ∃ draws item, (buildPicker ready).items[i]? = some item ∧
          ((buildPicker ready).pickItem scripted stats draws).1 = some item := by
  refine ⟨fun σ src s s' item h => fairPick h, fun candidates hclass hlen i hi hnot => ?_⟩
  simp only [not_forall, not_lt] at hnot
  obtain ⟨j, hj, hne, hcost⟩ := hnot
  obtain ⟨m, hm, rfl⟩ := List.mem_iff_getElem.mp hi
  obtain ⟨n, hn, rfl⟩ := List.mem_iff_getElem.mp hj
  have hplaces : m ≠ n := by
    rintro rfl
    exact hne rfl
  obtain ⟨first, second, hpick⟩ :=
    RandomSource.exists_draws ((buildPicker ready).costAt stats) hm hn hplaces hcost []
  obtain ⟨front, hfront⟩ := exists_class_draw hclass (List.ne_nil_of_mem hi) [first, second]
  obtain ⟨item, hitem, -⟩ := classOf_candidate hclass hi
  refine ⟨front ++ [first, second], item, hitem, ?_⟩
  rw [BuiltPicker.pickItem_eq, hfront]
  dsimp only
  rw [hpick]
  exact hitem

/-! ## The balancer that keeps the permits -/

def AdaptivePickerItem.limited (limiter : String → ℕ) (item : AdaptivePickerItem) : PickerItem where
  address := item.address
  status := item.status
  limiter := limiter item.address

def BuiltPicker.limited (p : BuiltPicker) (limiter : String → ℕ) : AdaptivePicker where
  items := p.items.map (AdaptivePickerItem.limited limiter)
  normalIndexes := p.normalIndexes
  probingIndexes := p.probingIndexes
  probeThreshold := p.probeThreshold

theorem limited_pickCandidateIndexes {σ : Type} (p : BuiltPicker) (limiter : String → ℕ) (src : RandomSource σ) (s : σ)
    {c : PickChoice} (hprobe : c.probe = (src.intn 100 s).1) :
    (p.limited limiter).pickCandidateIndexes c = (p.pickCandidateIndexes src s).1 := by
  have hlt := src.lt 100 s (by decide)
  unfold AdaptivePicker.pickCandidateIndexes BuiltPicker.pickCandidateIndexes BuiltPicker.limited
  dsimp only
  rw [hprobe, Nat.mod_eq_of_lt hlt]
  by_cases hthreshold : 0 < p.probeThreshold
  · by_cases hdraw : (src.intn 100 s).1 < p.probeThreshold <;>
      simp only [hthreshold, hdraw, and_true, if_true, and_false, if_false] <;>
      split_ifs <;> rfl
  · simp only [hthreshold, false_and, if_false]
    split_ifs <;> rfl

/-- Every pick is one that the balancer leaves open. -/
theorem exists_choice {σ : Type} (p : BuiltPicker) (limiter : String → ℕ) (src : RandomSource σ)
    (stats : String → AdaptiveEndpointStats) (s : σ) :
    ∃ c, (p.limited limiter).pickItem c = (p.pickItem src stats s).1.map (AdaptivePickerItem.limited limiter) := by
  rcases hclass : p.pickCandidateIndexes src s with ⟨candidates, s₁⟩
  rcases hfirst : src.intn candidates.length s₁ with ⟨a, s₂⟩
  rcases hsecond : src.intn (candidates.length - 1) s₂ with ⟨b, s₃⟩
  refine ⟨{ probe := (src.intn 100 s).1, first := a, second := b, cost := p.costAt stats }, ?_⟩
  unfold AdaptivePicker.pickItem BuiltPicker.pickItem
  rw [limited_pickCandidateIndexes p limiter src s rfl, hclass]
  match candidates, hfirst, hsecond with
  | [], _, _ => rfl
  | [only], _, _ => simp [BuiltPicker.limited]
  | first :: second :: rest, hfirst, hsecond =>
    have ha := src.lt (first :: second :: rest).length s₁ (by simp)
    have hb := src.lt ((first :: second :: rest).length - 1) s₂ (by simp)
    rw [hfirst] at ha
    rw [hsecond] at hb
    simp only [hfirst, hsecond, Nat.mod_eq_of_lt ha, Nat.mod_eq_of_lt hb]
    generalize (first :: second :: rest).getD a 0 = aIdx
    generalize (first :: second :: rest).getD (if a ≤ b then b + 1 else b) 0 = bIdx
    split <;> simp [BuiltPicker.limited]

end AegisMesh.Sdk

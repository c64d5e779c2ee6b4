import AegisMesh.Fault.ReportOrder
import Mathlib.Algebra.Order.BigOperators.Group.List
import Mathlib.Tactic.FieldSimp
import Mathlib.Tactic.GCongr
import Mathlib.Tactic.Linarith

/-! # Scores grow with the signals -/

open Lib

namespace AegisMesh.Fault

/-! ## Medians -/

variable {l : List ℚ}

theorem median_eq (h : l ≠ []) :
    median l = if l.length % 2 = 1 then nth l (l.length / 2) 0
      else (nth l (l.length / 2 - 1) 0 + nth l (l.length / 2) 0) / 2 := by
  simp [median, h, nth]

theorem median_le_median {l l' : List ℚ} (h : List.Forall₂ (· ≤ ·) l l') : median l ≤ median l' := by
  by_cases hnil : l = []
  · subst hnil
    rw [List.forall₂_nil_left_iff.mp h]
  · have hpos : 0 < l.length := List.length_pos_iff.mpr hnil
    have hlen := h.length_eq
    have hnil' : l' ≠ [] := by
      apply List.length_pos_iff.mp
      omega
    rw [median_eq hnil, median_eq hnil', ← hlen]
    split
    · exact nth_le_nth h (by omega)
    · have hlow : nth l (l.length / 2 - 1) 0 ≤ nth l' (l.length / 2 - 1) 0 := nth_le_nth h (by omega)
      have hhigh : nth l (l.length / 2) 0 ≤ nth l' (l.length / 2) 0 := nth_le_nth h (by omega)
      linarith

theorem median_mul {r : ℚ} (hr : 0 ≤ r) (l : List ℚ) : median (l.map (r * ·)) = r * median l := by
  by_cases hnil : l = []
  · subst hnil
    simp [median]
  · have hmono : Monotone (r * ·) := fun a b hab => mul_le_mul_of_nonneg_left hab hr
    have hnth : ∀ k, nth (l.map (r * ·)) k 0 = r * nth l k 0 := by
      intro k
      have h := nth_map hmono l k 0
      simpa using h
    rw [median_eq hnil, median_eq (by simpa using hnil), List.length_map]
    split
    · exact hnth _
    · rw [hnth, hnth]
      ring

variable {x x' : ℚ}

theorem median_cons_of_lt (hlt : median (x :: l) < x) (hx : x ≤ x') :
    median (x' :: l) = median (x :: l) ∨
    ∃ low high, low < x ∧ median (x :: l) = (low + x) / 2 ∧ median (x' :: l) = (low + high) / 2 ∧ x ≤ high ∧ high ≤ x' ∧
      ∀ v ∈ l, v ≤ low ∨ high ≤ v := by
  have hlen : ∀ a : ℚ, (a :: l).length = l.length + 1 := fun a => rfl
  rw [median_eq (List.cons_ne_nil x l), hlen] at hlt
  rw [median_eq (List.cons_ne_nil x' l), median_eq (List.cons_ne_nil x l), hlen, hlen]
  by_cases hodd : (l.length + 1) % 2 = 1
  · simp only [if_pos hodd] at hlt ⊢
    exact .inl (nth_cons_of_lt hlt hx (by omega))
  · simp only [if_neg hodd] at hlt ⊢
    obtain ⟨k, hk⟩ : ∃ k, (l.length + 1) / 2 = k + 1 := ⟨(l.length + 1) / 2 - 1, by omega⟩
    rw [hk, Nat.add_sub_cancel] at hlt ⊢
    have hle : nth (x :: l) k 0 ≤ nth (x :: l) (k + 1) 0 := nth_le_nth_of_le (by omega) (by rw [hlen]; omega)
    have hlow : nth (x :: l) k 0 < x := by linarith
    have hlow' := nth_cons_of_lt hlow hx (by omega)
    by_cases hhigh : nth (x :: l) (k + 1) 0 < x
    · left
      rw [hlow', nth_cons_of_lt hhigh hx (by omega)]
    · right
      have htop : nth (x :: l) (k + 1) 0 = x :=
        le_antisymm (nth_succ_le List.mem_cons_self hlow (by rw [hlen]; omega)) (not_lt.mp hhigh)
      have hsteps : List.Forall₂ (· ≤ ·) (x :: l) (x' :: l) := .cons hx (List.forall₂_refl l)
      have hgrown : x ≤ nth (x' :: l) (k + 1) 0 := by
        rw [← htop]
        exact nth_le_nth hsteps (by rw [hlen]; omega)
      have hbelow : nth (x' :: l) k 0 < x' := by
        rw [hlow']
        exact hlow.trans_le hx
      refine ⟨nth (x :: l) k 0, nth (x' :: l) (k + 1) 0, hlow, by rw [htop], by rw [hlow'], hgrown,
        nth_succ_le List.mem_cons_self hbelow (by rw [hlen]; omega), fun v hv => ?_⟩
      by_cases hv' : v ≤ nth (x :: l) k 0
      · exact .inl hv'
      · have habove : nth (x' :: l) k 0 < v := by
          rw [hlow']
          exact not_le.mp hv'
        exact .inr (nth_succ_le (List.mem_cons_of_mem _ hv) habove (by rw [hlen]; omega))

theorem distances_of_lt (hlt : median (x :: l) < x) (hx : x ≤ x') :
    x - median (x :: l) ≤ x' - median (x' :: l) ∧
    ∀ v ∈ l, |v - median (x' :: l)| * (x - median (x :: l)) ≤ |v - median (x :: l)| * (x' - median (x' :: l)) := by
  rcases median_cons_of_lt hlt hx with hsame | ⟨low, high, hlow, hmed, hmed', hxh, hhx, hsides⟩
  · rw [hsame]
    refine ⟨by linarith, fun v _ => ?_⟩
    apply mul_le_mul_of_nonneg_left _ (abs_nonneg _)
    linarith
  · rw [hmed, hmed']
    refine ⟨by linarith, fun v hv => ?_⟩
    rcases hsides v hv with hv | hv
    · rw [abs_of_nonpos (by linarith), abs_of_nonpos (by linarith)]
      nlinarith
    · rw [abs_of_nonneg (by linarith), abs_of_nonneg (by linarith)]
      nlinarith

/-! ## Relative figures -/

def relativeLatency (latencies : List ℚ) (latency : ℚ) : ℚ :=
  max 0 (latency - median latencies) / max (medianAbsoluteDeviation latencies (median latencies)) (1 / 1000)

def relativeRate (rates : List ℚ) (rate : ℚ) : ℚ := rate / max (average rates) scoreEpsilon

theorem relativeLatency_mono (l : List ℚ) (hx : x ≤ x') :
    relativeLatency (x :: l) x ≤ relativeLatency (x' :: l) x' := by
  have hfloor : ∀ q : ℚ, 0 < max q (1 / 1000) := fun q => lt_max_of_lt_right (by norm_num)
  unfold relativeLatency
  by_cases hlt : median (x :: l) < x
  · obtain ⟨hown, hothers⟩ := distances_of_lt hlt hx
    have hd : 0 < x - median (x :: l) := sub_pos.mpr hlt
    have hd' : 0 < x' - median (x' :: l) := hd.trans_le hown
    rw [max_eq_right hd.le, max_eq_right hd'.le, div_le_div_iff₀ (hfloor _) (hfloor _)]
    -- In units of the own distance no deviation has grown, so their median has not.
    have hdeviations : medianAbsoluteDeviation (x' :: l) (median (x' :: l)) ≤
        (x' - median (x' :: l)) / (x - median (x :: l)) * medianAbsoluteDeviation (x :: l) (median (x :: l)) := by
      unfold medianAbsoluteDeviation
      rw [if_neg (List.cons_ne_nil _ _), if_neg (List.cons_ne_nil _ _), ← median_mul (by positivity), List.map_map]
      apply median_le_median
      rw [List.map_cons, List.map_cons]
      refine .cons ?_ (List.forall₂_map_left_iff.mpr (List.forall₂_map_right_iff.mpr
        (List.forall₂_same.mpr fun v hv => ?_)))
      · rw [Function.comp_apply, abs_of_pos hd, abs_of_pos hd', div_mul_cancel₀ _ hd.ne']
      · rw [Function.comp_apply, div_mul_eq_mul_div, le_div_iff₀ hd]
        linarith [hothers v hv]
    rw [div_mul_eq_mul_div, le_div_iff₀ hd] at hdeviations
    rcases max_cases (medianAbsoluteDeviation (x' :: l) (median (x' :: l))) (1 / 1000) with ⟨hmax, -⟩ | ⟨hmax, -⟩
    · rw [hmax]
      have hbase := le_max_left (medianAbsoluteDeviation (x :: l) (median (x :: l))) (1 / 1000)
      have hscaled := mul_le_mul_of_nonneg_left hbase hd'.le
      linarith
    · rw [hmax]
      have hbase := le_max_right (medianAbsoluteDeviation (x :: l) (median (x :: l))) (1 / 1000)
      have hscaled := mul_le_mul_of_nonneg_left hbase hd'.le
      have hsmall := mul_le_mul_of_nonneg_right hown (by norm_num : (0 : ℚ) ≤ 1 / 1000)
      linarith
  · have hzero : max 0 (x - median (x :: l)) = 0 := max_eq_left (by linarith)
    rw [hzero, zero_div]
    exact div_nonneg (le_max_left _ _) (hfloor _).le

theorem relativeRate_mono (hl : ∀ v ∈ l, 0 ≤ v) (h0 : 0 ≤ x) (hx : x ≤ x') :
    relativeRate (x :: l) x ≤ relativeRate (x' :: l) x' := by
  have hfloor : ∀ q : ℚ, 0 < max q scoreEpsilon := fun q => lt_max_of_lt_right (by norm_num [scoreEpsilon])
  have hrest : 0 ≤ l.sum := List.sum_nonneg hl
  have hlen : (0 : ℚ) < l.length + 1 := by positivity
  have haverage : ∀ a : ℚ, average (a :: l) = (a + l.sum) / (l.length + 1) := by
    intro a
    simp [average]
  unfold relativeRate
  rw [div_le_div_iff₀ (hfloor _) (hfloor _), haverage, haverage]
  rcases max_cases ((x' + l.sum) / (l.length + 1)) scoreEpsilon with ⟨hmax, -⟩ | ⟨hmax, -⟩
  · rw [hmax]
    have hbase : x' * ((x + l.sum) / (l.length + 1)) ≤ x' * max ((x + l.sum) / (l.length + 1)) scoreEpsilon :=
      mul_le_mul_of_nonneg_left (le_max_left _ _) (h0.trans hx)
    apply le_trans _ hbase
    rw [mul_div_assoc', mul_div_assoc', div_le_div_iff_of_pos_right hlen]
    nlinarith
  · rw [hmax]
    exact mul_le_mul hx (le_max_right _ _) (by norm_num [scoreEpsilon]) (h0.trans hx)

/-! ## One figure grows -/

inductive Worse (s : EndpointSample) : EndpointSample → Prop
  | latencyP95 {latency : ℤ} (h : s.latencyP95 ≤ latency) : Worse s { s with latencyP95 := latency }
  | errorCount {count : ℤ} (h : s.errorCount ≤ count) : Worse s { s with errorCount := count }
  | inflight {count : ℤ} (h : s.inflight ≤ count) : Worse s { s with inflight := count }
  | tcpRetransmit {count : ℤ} (h : s.tcpRetransmit ≤ count) : Worse s { s with tcpRetransmit := count }
  | connectError {count : ℤ} (h : s.connectError ≤ count) : Worse s { s with connectError := count }

variable {s s' : EndpointSample}

theorem Worse.names (h : Worse s s') : s'.service = s.service ∧ s'.instanceID = s.instanceID := by
  cases h <;> exact ⟨rfl, rfl⟩

theorem Worse.aggregate_left {a a' : EndpointSample} (h : Worse a a') (b : EndpointSample) :
    Worse (aggregateEndpointSample a b) (aggregateEndpointSample a' b) := by
  unfold aggregateEndpointSample
  rw [h.names.1]
  by_cases hempty : a.service = ""
  · rw [if_pos hempty, if_pos hempty]
    exact .errorCount le_rfl
  · rw [if_neg hempty, if_neg hempty]
    cases h with
    | latencyP95 h => exact .latencyP95 (max_le_max_right _ h)
    | errorCount h => exact .errorCount (by dsimp only; omega)
    | inflight h => exact .inflight (by dsimp only; omega)
    | tcpRetransmit h => exact .tcpRetransmit (by dsimp only; omega)
    | connectError h => exact .connectError (by dsimp only; omega)

theorem Worse.aggregate_right (a : EndpointSample) {b b' : EndpointSample} (h : Worse b b') :
    Worse (aggregateEndpointSample a b) (aggregateEndpointSample a b') := by
  unfold aggregateEndpointSample
  by_cases hempty : a.service = ""
  · rw [if_pos hempty, if_pos hempty]
    exact h
  · rw [if_neg hempty, if_neg hempty]
    cases h with
    | latencyP95 h => exact .latencyP95 (max_le_max_left _ h)
    | errorCount h => exact .errorCount (by dsimp only; omega)
    | inflight h => exact .inflight (by dsimp only; omega)
    | tcpRetransmit h => exact .tcpRetransmit (by dsimp only; omega)
    | connectError h => exact .connectError (by dsimp only; omega)

theorem Worse.foldl {a a' : EndpointSample} (h : Worse a a') (l : List EndpointSample) :
    Worse (l.foldl aggregateEndpointSample a) (l.foldl aggregateEndpointSample a') := by
  induction l generalizing a a' with
  | nil => exact h
  | cons b l ih => exact ih (h.aggregate_left b)

theorem Worse.aggregateOf (h : Worse s s') (before after : List EndpointSample) :
    Worse (aggregateOf s.service s.instanceID (before ++ s :: after))
      (aggregateOf s.service s.instanceID (before ++ s' :: after)) := by
  obtain ⟨hservice, hid⟩ := h.names
  simp only [Fault.aggregateOf, samplesOf, List.filter_append, List.filter_cons, hservice, hid, and_self, decide_true,
    if_true, List.foldl_append, List.foldl_cons]
  exact (h.aggregate_right _).foldl _

theorem Worse.samplesOf_of_ne (h : Worse s s') (before after : List EndpointSample) {id : String}
    (hid : id ≠ s.instanceID) :
    samplesOf s.service id (before ++ s' :: after) = samplesOf s.service id (before ++ s :: after) := by
  have hnot : ¬ s.instanceID = id := fun heq => hid heq.symm
  simp [samplesOf, List.filter_append, h.names.2, hnot]

structure Counted (s : EndpointSample) : Prop where
  errors : 0 ≤ s.errorCount
  retransmits : 0 ≤ s.tcpRetransmit
  connects : 0 ≤ s.connectError

theorem Worse.counted (h : Worse s s') (hs : Counted s) : Counted s' := by
  obtain ⟨herrors, hretransmits, hconnects⟩ := hs
  cases h with
  | latencyP95 h => exact ⟨herrors, hretransmits, hconnects⟩
  | errorCount h => exact ⟨herrors.trans h, hretransmits, hconnects⟩
  | inflight h => exact ⟨herrors, hretransmits, hconnects⟩
  | tcpRetransmit h => exact ⟨herrors, hretransmits.trans h, hconnects⟩
  | connectError h => exact ⟨herrors, hretransmits, hconnects.trans h⟩

theorem Counted.aggregate {a b : EndpointSample} (ha : Counted a) (hb : Counted b) :
    Counted (aggregateEndpointSample a b) := by
  unfold aggregateEndpointSample
  split
  · exact hb
  · exact ⟨add_nonneg ha.errors hb.errors, add_nonneg ha.retransmits hb.retransmits, add_nonneg ha.connects hb.connects⟩

theorem counted_aggregateOf {samples : List EndpointSample} (h : ∀ s ∈ samples, Counted s) (service id : String) :
    Counted (aggregateOf service id samples) := by
  induction samples using List.reverseRecOn with
  | nil => exact ⟨le_rfl, le_rfl, le_rfl⟩
  | append_singleton rest last ih =>
    have hrest := ih fun s hs => h s (List.mem_append_left _ hs)
    rw [aggregateOf_snoc]
    split
    · exact hrest.aggregate (h last (by simp))
    · exact hrest

theorem rate_nonneg {count total : ℤ} (h : 0 ≤ count) : 0 ≤ rate count total := by
  unfold rate
  split
  · exact le_rfl
  · have hcount : (0 : ℚ) ≤ count := by exact_mod_cast h
    have htotal : (0 : ℚ) ≤ total := by exact_mod_cast (by omega : 0 ≤ total)
    positivity

theorem networkRate_nonneg {count total : ℤ} : 0 ≤ networkRate count total := by
  unfold networkRate
  split_ifs
  · exact le_rfl
  · exact_mod_cast (by omega : 0 ≤ count)
  · have hcount : (0 : ℚ) ≤ count := by exact_mod_cast (by omega : 0 ≤ count)
    have htotal : (0 : ℚ) ≤ total := by exact_mod_cast (by omega : 0 ≤ total)
    positivity

theorem rate_mono {count count' : ℤ} (total : ℤ) (h : count ≤ count') : rate count total ≤ rate count' total := by
  unfold rate
  split
  · exact le_rfl
  · have hcount : (count : ℚ) ≤ count' := by exact_mod_cast h
    have htotal : (0 : ℚ) ≤ total := by exact_mod_cast (by omega : 0 ≤ total)
    gcongr

theorem networkRate_mono {count count' : ℤ} (total : ℤ) (h : count ≤ count') :
    networkRate count total ≤ networkRate count' total := by
  by_cases hpos : 0 < count
  · have hcount : (count : ℚ) ≤ count' := by exact_mod_cast h
    unfold networkRate
    rw [if_neg (not_le.mpr hpos), if_neg (not_le.mpr (hpos.trans_le h))]
    split
    · exact hcount
    · have htotal : (0 : ℚ) ≤ total := by exact_mod_cast (by omega : 0 ≤ total)
      gcongr
  · have hzero : networkRate count total = 0 := by
      unfold networkRate
      rw [if_pos (by omega)]
    rw [hzero]
    exact networkRate_nonneg

namespace ScoreCalculator

variable (c : ScoreCalculator)

theorem absoluteLatencyScore_mono {latency latency' : ℤ} (h : latency ≤ latency') :
    c.absoluteLatencyScore latency ≤ c.absoluteLatencyScore latency' := by
  have hseconds : ∀ {d : ℤ}, 0 < d → 0 < seconds d := by
    intro d hd
    have hcast : (0 : ℚ) < d := by exact_mod_cast hd
    unfold seconds
    positivity
  unfold absoluteLatencyScore
  by_cases hslo : c.latencySLO ≤ 0
  · rw [if_pos (.inl hslo), if_pos (.inl hslo)]
  · by_cases hpos : latency ≤ 0
    · rw [if_pos (.inr hpos)]
      split_ifs with hzero
      · exact le_rfl
      · have hnum := hseconds (by omega : 0 < latency')
        have hden := hseconds (by omega : 0 < c.latencySLO)
        positivity
    · have hden := hseconds (by omega : 0 < c.latencySLO)
      have hcast : (latency : ℚ) ≤ latency' := by exact_mod_cast h
      rw [if_neg (by omega), if_neg (by omega)]
      unfold seconds at hden ⊢
      gcongr

theorem score_cons {a : EndpointSample} (ha : Counted a) (service : String) (others : List EndpointSample) :
    (c.scoreAmong service (a :: others) a).score =
      c.weights.latencyWeight *
        max (relativeLatency (seconds a.latencyP95 :: others.map fun s => seconds s.latencyP95) (seconds a.latencyP95))
          (c.absoluteLatencyScore a.latencyP95) +
      c.weights.errorWeight *
        relativeRate (rate a.errorCount a.requestCount :: others.map fun s => rate s.errorCount s.requestCount)
          (rate a.errorCount a.requestCount) +
      c.weights.inflightWeight * (a.inflight / capacityOf a.capacity) +
      c.weights.retransmitWeight *
        relativeRate (networkRate (a.tcpRetransmit + a.connectError) a.requestCount ::
            others.map fun s => networkRate (s.tcpRetransmit + s.connectError) s.requestCount)
          (networkRate (a.tcpRetransmit + a.connectError) a.requestCount) := by
  have hno : ¬ 0 < a.errorCount → rate a.errorCount a.requestCount = 0 := by
    intro hnot
    have hzero : a.errorCount = 0 := le_antisymm (not_lt.mp hnot) ha.errors
    simp [rate, hzero]
  have hquiet : ¬ 0 < a.tcpRetransmit + a.connectError →
      networkRate (a.tcpRetransmit + a.connectError) a.requestCount = 0 := by
    intro hnot
    simp [networkRate, not_lt.mp hnot]
  have herror : ∀ q : ℚ, (if 0 < a.errorCount then rate a.errorCount a.requestCount / q else 0) =
      rate a.errorCount a.requestCount / q := by
    intro q
    split_ifs with h
    · rfl
    · rw [hno h, zero_div]
  have hnetwork : ∀ q : ℚ, (if 0 < a.tcpRetransmit + a.connectError then
      networkRate (a.tcpRetransmit + a.connectError) a.requestCount / q else 0) =
      networkRate (a.tcpRetransmit + a.connectError) a.requestCount / q := by
    intro q
    split_ifs with h
    · rfl
    · rw [hquiet h, zero_div]
  simp only [scoreAmong, List.map_cons, herror, hnetwork, relativeLatency, relativeRate]

end ScoreCalculator

structure ScoreWeights.Nonneg (w : ScoreWeights) : Prop where
  latency : 0 ≤ w.latencyWeight
  error : 0 ≤ w.errorWeight
  inflight : 0 ≤ w.inflightWeight
  retransmit : 0 ≤ w.retransmitWeight

theorem ScoreWeights.Nonneg.sum_le {w : ScoreWeights} (h : w.Nonneg) {latency latency' error error' inflight inflight'
    retransmit retransmit' : ℚ} (hlatency : latency ≤ latency') (herror : error ≤ error')
    (hinflight : inflight ≤ inflight')
    (hretransmit : retransmit ≤ retransmit') :
    w.latencyWeight * latency + w.errorWeight * error + w.inflightWeight * inflight + w.retransmitWeight * retransmit ≤
      w.latencyWeight * latency' + w.errorWeight * error' + w.inflightWeight * inflight' +
        w.retransmitWeight * retransmit' := by
  have h₁ := mul_le_mul_of_nonneg_left hlatency h.latency
  have h₂ := mul_le_mul_of_nonneg_left herror h.error
  have h₃ := mul_le_mul_of_nonneg_left hinflight h.inflight
  have h₄ := mul_le_mul_of_nonneg_left hretransmit h.retransmit
  linarith

namespace ScoreCalculator

variable (c : ScoreCalculator)

theorem score_mono_of_worse (hweights : c.weights.Nonneg) {a a' : EndpointSample} (ha : Counted a) (ha' : Counted a')
    {others : List EndpointSample} (hothers : ∀ s ∈ others, Counted s) (h : Worse a a') (service : String) :
    (c.scoreAmong service (a :: others) a).score ≤ (c.scoreAmong service (a' :: others) a').score := by
  have hrates : ∀ v ∈ others.map fun s => rate s.errorCount s.requestCount, 0 ≤ v := by
    intro v hv
    obtain ⟨s, hs, rfl⟩ := List.mem_map.mp hv
    exact rate_nonneg (hothers s hs).errors
  have hnetworkRates :
      ∀ v ∈ others.map fun s => networkRate (s.tcpRetransmit + s.connectError) s.requestCount, 0 ≤ v := by
    intro v hv
    obtain ⟨s, hs, rfl⟩ := List.mem_map.mp hv
    exact networkRate_nonneg
  rw [c.score_cons ha, c.score_cons ha']
  cases h with
  | @latencyP95 latency h =>
    have hseconds : seconds a.latencyP95 ≤ seconds latency := by
      unfold seconds
      have hcast : (a.latencyP95 : ℚ) ≤ latency := by exact_mod_cast h
      gcongr
    exact hweights.sum_le (max_le_max (relativeLatency_mono _ hseconds) (c.absoluteLatencyScore_mono h)) le_rfl
      le_rfl le_rfl
  | errorCount h =>
    exact hweights.sum_le le_rfl (relativeRate_mono hrates (rate_nonneg ha.errors) (rate_mono _ h)) le_rfl le_rfl
  | @inflight count h =>
    have hcapacity : (0 : ℚ) ≤ capacityOf a.capacity := by
      unfold capacityOf
      split_ifs
      · norm_num
      · exact_mod_cast (by omega : 0 ≤ a.capacity)
    have hcast : (a.inflight : ℚ) ≤ count := by exact_mod_cast h
    exact hweights.sum_le le_rfl le_rfl (div_le_div_of_nonneg_right hcast hcapacity) le_rfl
  | @tcpRetransmit count h =>
    have hevents : a.tcpRetransmit + a.connectError ≤ count + a.connectError := by omega
    exact hweights.sum_le le_rfl le_rfl le_rfl
      (relativeRate_mono hnetworkRates networkRate_nonneg (networkRate_mono _ hevents))
  | @connectError count h =>
    have hevents : a.tcpRetransmit + a.connectError ≤ a.tcpRetransmit + count := by omega
    exact hweights.sum_le le_rfl le_rfl le_rfl
      (relativeRate_mono hnetworkRates networkRate_nonneg (networkRate_mono _ hevents))

/-- A worse sample never lowers the score of its endpoint. -/
theorem score_grows_with_signal (hweights : c.weights.Nonneg) (before after : List EndpointSample) {s s' : EndpointSample}
    (h : Worse s s') (hplain : ∀ t ∈ before ++ s :: after, PlainName t.service)
    (hcounted : ∀ t ∈ before ++ s :: after, Counted t) {order order' : List (String × List EndpointSample)}
    (horder : Visits (before ++ s :: after) order) (horder' : Visits (before ++ s' :: after) order') {e : EndpointScore}
    (he : (c.calculateIn order).lookup (scoreKey s.service s.instanceID) = some e) :
    ∃ e', (c.calculateIn order').lookup (scoreKey s.service s.instanceID) = some e' ∧ e.score ≤ e'.score := by
  obtain ⟨hservice', hid'⟩ := h.names
  have hmem : s ∈ before ++ s :: after := by simp
  have hsame : ∀ P : EndpointSample → Prop, (P s → P s') → (∀ t ∈ before ++ s :: after, P t) →
      ∀ t ∈ before ++ s' :: after, P t := by
    intro P hP hall t ht
    simp only [List.mem_append, List.mem_cons] at ht hall
    rcases ht with ht | rfl | ht
    · exact hall t (.inl ht)
    · exact hP (hall s (.inr (.inl rfl)))
    · exact hall t (.inr (.inr ht))
  have hplain' := hsame (fun t => PlainName t.service) (fun hs => by rwa [hservice']) hplain
  have hcounted' := hsame Counted h.counted hcounted
  -- Only a named sample has a score.
  obtain ⟨t, ht, htService, htID, hkey⟩ := c.sample_of_lookup horder he
  obtain ⟨htSame, htSameID⟩ := (scoreKey_inj (hplain t ht) (hplain s hmem)).mp hkey
  have hservice : s.service ≠ "" := htSame ▸ htService
  have hid : s.instanceID ≠ "" := htSameID ▸ htID
  obtain ⟨d, hd, hown, hscore⟩ := c.lookup_of_plain horder hplain hmem hservice hid
  obtain ⟨d', hd', hown', hscore'⟩ := c.lookup_of_plain horder' hplain' (s := s') (by simp) (by rwa [hservice'])
    (by rwa [hid'])
  rw [hservice', hid'] at hown' hscore'
  rw [hservice'] at hd'
  rw [hscore] at he
  obtain rfl := Option.some.inj he
  refine ⟨_, hscore', ?_⟩
  have hothers : ∀ j, (d.erase s.instanceID).lookup j = (d'.erase s.instanceID).lookup j := by
    intro j
    rw [Dict.lookup_erase', Dict.lookup_erase']
    split_ifs with hj
    · rfl
    · by_cases hempty : j = ""
      · rw [hempty, lookup_aggregate_empty hd, lookup_aggregate_empty hd']
      · rw [lookup_aggregate_of_some hempty hd hservice, lookup_aggregate_of_some hempty hd' hservice, aggregateOf,
          aggregateOf, h.samplesOf_of_ne before after hj]
  have hvalues := Dict.values_perm_cons hown
  have hvalues' := (Dict.values_perm_cons hown').trans ((Dict.values_perm fun j => (hothers j).symm).cons _)
  rw [c.scoreAmong_perm hvalues, c.scoreAmong_perm hvalues']
  apply c.score_mono_of_worse hweights (counted_aggregateOf hcounted _ _) (counted_aggregateOf hcounted' _ _) _
    (h.aggregateOf before after)
  intro a ha
  obtain ⟨j, hj⟩ := Dict.mem_values.mp ha
  rw [Dict.lookup_erase'] at hj
  split_ifs at hj with hjs
  by_cases hempty : j = ""
  · rw [hempty, lookup_aggregate_empty hd] at hj
    cases hj
  · rw [lookup_aggregate_of_some hempty hd hservice] at hj
    split_ifs at hj
    obtain rfl := Option.some.inj hj
    exact counted_aggregateOf hcounted _ _

end ScoreCalculator

theorem slower_method_scores_no_less :
    ∃ e e', (plainCalculator.calculate [methodWindow "get" 10 1 5, methodWindow "put" 20 0 9]).lookup "pay/a" = some e ∧
      (plainCalculator.calculate [methodWindow "get" 10 1 50, methodWindow "put" 20 0 9]).lookup "pay/a" = some e' ∧
      e.score ≤ e'.score := by
  obtain ⟨order, horder, heq⟩ := plainCalculator.calculate_visits [methodWindow "get" 10 1 5, methodWindow "put" 20 0 9]
  obtain ⟨order', horder', heq'⟩ := plainCalculator.calculate_visits [methodWindow "get" 10 1 50, methodWindow "put" 20 0 9]
  have hsome : ((plainCalculator.calculate [methodWindow "get" 10 1 5, methodWindow "put" 20 0 9]).lookup "pay/a").isSome =
      true := by decide +kernel
  obtain ⟨e, he⟩ := Option.isSome_iff_exists.mp hsome
  have hweights : plainCalculator.weights.Nonneg := by
    constructor <;> norm_num [plainCalculator, newScoreCalculator, defaultScoreWeights]
  have hcounted : ∀ t ∈ [] ++ methodWindow "get" 10 1 5 :: [methodWindow "put" 20 0 9], Counted t := by
    intro t ht
    simp only [List.nil_append, List.mem_cons, List.not_mem_nil, or_false] at ht
    rcases ht with rfl | rfl <;> constructor <;> decide
  have hworse : Worse (methodWindow "get" 10 1 5) (methodWindow "get" 10 1 50) := .latencyP95 (by decide)
  obtain ⟨e', he', hle⟩ := plainCalculator.score_grows_with_signal hweights [] [methodWindow "put" 20 0 9] hworse
    (by simp [methodWindow, PlainName]) hcounted horder horder' (heq ▸ he)
  exact ⟨e, e', he, heq' ▸ he', hle⟩

end AegisMesh.Fault

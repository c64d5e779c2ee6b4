import Mathlib.Algebra.Order.Floor.Ring
import Mathlib.Data.List.Iterate
import Mathlib.Tactic.Linarith
import AegisMesh.Lib.Ranks
import AegisMesh.Telemetry.Recorder

/-! # Quantiles of a histogram -/

namespace AegisMesh.Telemetry

open Lib

/-! ## Shards -/

def latencyHistShardCount : ℕ := 8

structure ShardedLatencyHistogram where
  shards : List LatencyHistogram := List.replicate latencyHistShardCount {}

namespace ShardedLatencyHistogram

/-- `Record`. The sequence number is what the counter of the process gives. -/
def record (h : ShardedLatencyHistogram) (seq : ℕ) (sample : ℤ) : ShardedLatencyHistogram where
  shards := h.shards.modify (seq % latencyHistShardCount) (·.record sample)

def merged (h : ShardedLatencyHistogram) : LatencyHistogram where
  count := (h.shards.map LatencyHistogram.count).sum
  buckets := (List.range latencyHistogramBuckets).map fun b => (h.shards.map fun shard => shard.buckets.getD b 0).sum

def quantile (h : ShardedLatencyHistogram) (q : ℚ) : ℕ := h.merged.quantile q

def recordEach (samples : List (ℕ × ℤ)) : ShardedLatencyHistogram :=
  samples.foldl (fun h sample => h.record sample.1 sample.2) {}

end ShardedLatencyHistogram

def LatencyHistogram.recordEach (samples : List ℤ) : LatencyHistogram := samples.foldl LatencyHistogram.record {}

/-! ## Bounds -/

def latencyBound (i : ℕ) : ℕ := latencyBucketUpperBounds.getD i 0

theorem length_latencyBucketUpperBounds : latencyBucketUpperBounds.length = latencyHistogramBuckets := by
  simp [latencyBucketUpperBounds, latencyHistogramBuckets]

theorem latencyBound_one : latencyBound 1 = 1000 := by
  rw [latencyBound, latencyBucketUpperBounds]
  rfl

variable {i : ℕ}

theorem latencyBound_iterate (hi : i < 126) : latencyBound (i + 1) = nextLatencyBound^[i] 1000 := by
  have hlen : i < (List.iterate nextLatencyBound 1000 (latencyHistogramBuckets - 2)).length := by
    simpa [latencyHistogramBuckets] using hi
  unfold latencyBound latencyBucketUpperBounds
  rw [List.getD_cons_succ, List.getD_append _ _ _ _ hlen, List.getD_eq_getElem _ _ hlen, List.getElem_iterate]

theorem latencyBound_succ (hi : i < 125) : latencyBound (i + 2) = nextLatencyBound (latencyBound (i + 1)) := by
  rw [latencyBound_iterate (by omega), latencyBound_iterate (by omega), Function.iterate_succ_apply']

theorem latencyBound_last : latencyBound 127 = maxLatencyBucketNanos := by
  unfold latencyBound latencyBucketUpperBounds
  rw [List.getD_cons_succ, List.getD_append_right _ _ _ _ (by simp [latencyHistogramBuckets])]
  simp [latencyHistogramBuckets]

theorem nextLatencyBound_spec {b : ℕ} (hpos : 0 < b) (hmax : b ≤ maxLatencyBucketNanos) :
    b ≤ nextLatencyBound b ∧ nextLatencyBound b ≤ maxLatencyBucketNanos ∧ nextLatencyBound b ≤ b + (b + 6) / 7 := by
  unfold nextLatencyBound
  dsimp only
  split <;> omega

theorem latencyBound_range (hi : i < 126) :
    0 < latencyBound (i + 1) ∧ latencyBound (i + 1) ≤ maxLatencyBucketNanos := by
  induction i with
  | zero => rw [latencyBound_one, maxLatencyBucketNanos]; omega
  | succ i ih =>
    have hprev := ih (by omega)
    have hnext := nextLatencyBound_spec hprev.1 hprev.2
    rw [latencyBound_succ (by omega)]
    omega

theorem latencyBound_le_succ (hi : i < 127) : latencyBound i ≤ latencyBound (i + 1) := by
  rcases i with _ | i
  · exact Nat.zero_le _
  · have hrange := latencyBound_range (show i < 126 by omega)
    by_cases hlast : i = 125
    · subst hlast
      rw [latencyBound_last]
      exact hrange.2
    · rw [latencyBound_succ (by omega)]
      exact (nextLatencyBound_spec hrange.1 hrange.2).1

theorem latencyBound_mono {i j : ℕ} (hij : i ≤ j) (hj : j ≤ 127) : latencyBound i ≤ latencyBound j := by
  induction j, hij using Nat.le_induction with
  | base => exact le_rfl
  | succ j hij ih => exact (ih (by omega)).trans (latencyBound_le_succ (by omega))

/-! ## The bucket of a sample -/

theorem latencyBucketSearch_spec (nanos lo hi : ℕ) (hle : lo ≤ hi) (hhi : hi ≤ 127)
    (hbelow : ∀ j < lo, latencyBound j < nanos) (habove : nanos ≤ latencyBound hi ∨ hi = 127) :
    latencyBucketSearch nanos lo hi ≤ 127 ∧ (∀ j < latencyBucketSearch nanos lo hi, latencyBound j < nanos) ∧
      (nanos ≤ latencyBound (latencyBucketSearch nanos lo hi) ∨ latencyBucketSearch nanos lo hi = 127) := by
  induction lo, hi using latencyBucketSearch.induct nanos with
  | case1 lo hi hlt mid hmid ih =>
    rw [latencyBucketSearch, if_pos hlt]
    dsimp only
    rw [if_pos hmid]
    exact ih (by omega) (by omega) hbelow (.inl hmid)
  | case2 lo hi hlt mid hmid ih =>
    rw [latencyBucketSearch, if_pos hlt]
    dsimp only
    rw [if_neg hmid]
    refine ih (by omega) hhi (fun j hj => ?_) habove
    exact lt_of_le_of_lt (latencyBound_mono (by omega) (by omega)) (not_le.mp hmid)
  | case3 lo hi hlt =>
    obtain rfl : lo = hi := by omega
    rw [latencyBucketSearch, if_neg hlt]
    exact ⟨hhi, hbelow, habove⟩

theorem latencyBucketIndex_spec (nanos : ℕ) :
    latencyBucketIndex nanos ≤ 127 ∧ (∀ j < latencyBucketIndex nanos, latencyBound j < nanos) ∧
      (nanos ≤ latencyBound (latencyBucketIndex nanos) ∨ latencyBucketIndex nanos = 127) := by
  unfold latencyBucketIndex
  rw [length_latencyBucketUpperBounds]
  exact latencyBucketSearch_spec nanos 0 _ (Nat.zero_le _) le_rfl (by omega) (.inr rfl)

theorem sum_map_modify {α : Type} (g : α → ℕ) (f : α → α) (c : ℕ) {l : List α} (hi : i < l.length)
    (hf : ∀ a ∈ l, g (f a) = g a + c) : ((l.modify i f).map g).sum = (l.map g).sum + c := by
  induction l generalizing i with
  | nil => simp at hi
  | cons a l ih =>
    cases i with
    | zero =>
      have ha := hf a List.mem_cons_self
      simp only [List.modify_zero_cons, List.map_cons, List.sum_cons]
      omega
    | succ i =>
      have hrest := ih (by simpa using hi) fun b hb => hf b (List.mem_cons_of_mem _ hb)
      simp only [List.modify_succ_cons, List.map_cons, List.sum_cons]
      omega

theorem getD_record {h : LatencyHistogram} (hlen : h.buckets.length = latencyHistogramBuckets) (sample : ℤ) (b : ℕ) :
    (h.record sample).buckets.getD b 0 =
      h.buckets.getD b 0 + if latencyBucketIndex sample.toNat = b then 1 else 0 := by
  have hidx := (latencyBucketIndex_spec sample.toNat).1
  simp only [LatencyHistogram.record, List.getD_eq_getElem?_getD, List.getElem?_modify]
  split
  · rename_i hb
    have hlt : b < h.buckets.length := by rw [hlen, latencyHistogramBuckets]; omega
    rw [List.getElem?_eq_getElem hlt]
    simp
  · simp

structure ShardedLatencyHistogram.Sized (h : ShardedLatencyHistogram) : Prop where
  shards : h.shards.length = latencyHistShardCount
  buckets : ∀ shard ∈ h.shards, shard.buckets.length = latencyHistogramBuckets

theorem sized_new : ({} : ShardedLatencyHistogram).Sized := by
  constructor
  · simp
  · intro shard hshard
    rw [List.eq_of_mem_replicate hshard]
    simp

theorem ShardedLatencyHistogram.Sized.record {h : ShardedLatencyHistogram} (hsized : h.Sized) (seq : ℕ) (sample : ℤ) :
    (h.record seq sample).Sized := by
  constructor
  · simp [ShardedLatencyHistogram.record, hsized.shards]
  · intro shard hshard
    obtain ⟨j, hj⟩ := List.mem_iff_getElem?.mp hshard
    simp only [ShardedLatencyHistogram.record, List.getElem?_modify] at hj
    obtain ⟨old, hold, rfl⟩ := Option.map_eq_some_iff.mp hj
    have hlen := hsized.buckets old (List.mem_of_getElem? hold)
    split
    · simpa [LatencyHistogram.record] using hlen
    · exact hlen

def tally (indices : List ℕ) : LatencyHistogram where
  count := indices.length
  buckets := (List.range latencyHistogramBuckets).map fun b => indices.count b

theorem merged_new : ({} : ShardedLatencyHistogram).merged = tally [] := by
  have hempty : ∀ b, (List.replicate latencyHistogramBuckets 0).getD b 0 = 0 := by
    intro b
    simp only [List.getD_eq_getElem?_getD, List.getElem?_replicate]
    split <;> rfl
  simp only [ShardedLatencyHistogram.merged, tally, LatencyHistogram.mk.injEq, List.map_replicate, hempty]
  simp

variable {indices : List ℕ}

theorem merged_record {h : ShardedLatencyHistogram} (hsized : h.Sized) (htally : h.merged = tally indices) (seq : ℕ)
    (sample : ℤ) : (h.record seq sample).merged = tally (indices ++ [latencyBucketIndex sample.toNat]) := by
  have hshard : seq % latencyHistShardCount < h.shards.length := by
    rw [hsized.shards]
    exact Nat.mod_lt _ (by decide)
  simp only [ShardedLatencyHistogram.merged, tally, LatencyHistogram.mk.injEq] at htally ⊢
  constructor
  · have hsum := sum_map_modify LatencyHistogram.count (·.record sample) 1 hshard fun _ _ => rfl
    rw [ShardedLatencyHistogram.record, hsum, htally.1]
    simp
  · refine List.map_congr_left fun b hb => ?_
    have hold := List.map_inj_left.mp htally.2 b hb
    have hsum := sum_map_modify (fun shard => shard.buckets.getD b 0) (·.record sample)
      (if latencyBucketIndex sample.toNat = b then 1 else 0) hshard
      fun shard hmem => getD_record (hsized.buckets shard hmem) sample b
    rw [ShardedLatencyHistogram.record, hsum, hold, List.count_append, List.count_singleton]
    simp

theorem merged_recordEach (samples : List (ℕ × ℤ)) :
    (ShardedLatencyHistogram.recordEach samples).Sized ∧
    (ShardedLatencyHistogram.recordEach samples).merged =
      tally (samples.map fun sample => latencyBucketIndex sample.2.toNat) := by
  induction samples using List.reverseRecOn with
  | nil =>
    have hnone : ShardedLatencyHistogram.recordEach [] = {} := by simp [ShardedLatencyHistogram.recordEach]
    rw [hnone]
    exact ⟨sized_new, merged_new⟩
  | append_singleton rest last ih =>
    have hsnoc : ShardedLatencyHistogram.recordEach (rest ++ [last]) =
        (ShardedLatencyHistogram.recordEach rest).record last.1 last.2 := by
      simp [ShardedLatencyHistogram.recordEach]
    rw [hsnoc, List.map_append]
    exact ⟨ih.1.record _ _, merged_record ih.1 ih.2 last.1 last.2⟩

theorem tally_record (indices : List ℕ) (sample : ℤ) :
    (tally indices).record sample = tally (indices ++ [latencyBucketIndex sample.toNat]) := by
  unfold tally LatencyHistogram.record
  simp only [LatencyHistogram.mk.injEq, List.length_append, List.length_singleton, true_and]
  apply List.ext_getElem?
  intro b
  simp only [List.getElem?_modify, List.getElem?_map, List.count_append, List.count_singleton]
  by_cases hb : b < latencyHistogramBuckets
  · rw [List.getElem?_range hb]
    split <;> simp [*]
  · rw [List.getElem?_eq_none (by simpa using hb)]
    rfl

theorem recordEach_eq_tally (samples : List ℤ) :
    LatencyHistogram.recordEach samples = tally (samples.map fun sample => latencyBucketIndex sample.toNat) := by
  induction samples using List.reverseRecOn with
  | nil => simp [LatencyHistogram.recordEach, tally]
  | append_singleton rest last ih =>
    have hsnoc : LatencyHistogram.recordEach (rest ++ [last]) = (LatencyHistogram.recordEach rest).record last := by
      simp [LatencyHistogram.recordEach]
    rw [hsnoc, ih, tally_record, List.map_append]
    rfl

theorem tally_perm {indices indices' : List ℕ} (h : indices.Perm indices') : tally indices = tally indices' := by
  simp only [tally, h.length_eq, h.count_eq]

/-- Neither the shard that a sample goes to nor the order of the samples changes a quantile. -/
theorem sharded_quantile_eq (samples : List (ℕ × ℤ)) (order : List ℤ) (horder : order.Perm (samples.map Prod.snd)) (q : ℚ) :
    (ShardedLatencyHistogram.recordEach samples).quantile q = (LatencyHistogram.recordEach order).quantile q := by
  have hindices := horder.map fun sample => latencyBucketIndex sample.toNat
  rw [List.map_map] at hindices
  unfold ShardedLatencyHistogram.quantile
  rw [(merged_recordEach samples).2, recordEach_eq_tally, tally_perm hindices]
  rfl

def threeSamples : List (ℕ × ℤ) := [(3, 250000000), (12, -7), (5, 48000000)]

theorem sharded_median_eq :
    ([48000000, 250000000, -7] : List ℤ).Perm (threeSamples.map Prod.snd) ∧
    (ShardedLatencyHistogram.recordEach threeSamples).quantile (1 / 2) =
      (LatencyHistogram.recordEach [48000000, 250000000, -7]).quantile (1 / 2) :=
  ⟨by decide, sharded_quantile_eq threeSamples _ (by decide) _⟩

/-! ## The scan -/

end AegisMesh.Telemetry

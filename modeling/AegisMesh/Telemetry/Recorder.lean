import Mathlib.Data.Prod.Lex
import Mathlib.Data.Rat.Floor
import Mathlib.Data.String.Basic
import AegisMesh.Lib.Dict
import AegisMesh.Lib.Sorted

/-!
# The telemetry recorder (`pkg/telemetry`)

Shards are put together again by every reader, so there is one map of rows. Latencies are nanoseconds; an
averaged one is an exact rational where the source has `float64`.
-/

open Lib

namespace AegisMesh.Telemetry

/-! ## Latencies -/

def defaultEWMAAlpha : ℚ := 2 / 10

structure EWMA where
  alpha : ℚ
  value : ℚ := 0
  count : ℕ := 0
deriving DecidableEq

def newEWMA (alpha : ℚ) : EWMA where
  alpha := if alpha ≤ 0 ∨ 1 < alpha then defaultEWMAAlpha else alpha

def EWMA.observe (e : EWMA) (sample : ℤ) : EWMA :=
  let value : ℚ := max sample 0
  { e with
    value := if e.count = 0 then value else e.alpha * value + (1 - e.alpha) * e.value
    count := e.count + 1 }

/-- `math.Round` takes a half away from zero. -/
def EWMA.round (e : EWMA) : ℤ := if 0 ≤ e.value then ⌊e.value + 1 / 2⌋ else -⌊-e.value + 1 / 2⌋

def latencyHistogramBuckets : ℕ := 128

def maxLatencyBucketNanos : ℕ := 3600000000000

def nextLatencyBound (bound : ℕ) : ℕ :=
  let next := bound + (bound + 6) / 7
  if next ≤ bound ∨ maxLatencyBucketNanos ≤ next then maxLatencyBucketNanos else next

def latencyBucketUpperBounds : List ℕ :=
  0 :: (List.iterate nextLatencyBound 1000 (latencyHistogramBuckets - 2) ++ [maxLatencyBucketNanos])

def latencyBucketSearch (nanos lo hi : ℕ) : ℕ :=
  if lo < hi then
    let mid := lo + (hi - lo) / 2
    if nanos ≤ latencyBucketUpperBounds.getD mid 0 then latencyBucketSearch nanos lo mid
    else latencyBucketSearch nanos (mid + 1) hi
  else lo
termination_by hi - lo

def latencyBucketIndex (nanos : ℕ) : ℕ := latencyBucketSearch nanos 0 (latencyBucketUpperBounds.length - 1)

structure LatencyHistogram where
  count : ℕ := 0
  buckets : List ℕ := List.replicate latencyHistogramBuckets 0
deriving DecidableEq

def LatencyHistogram.record (h : LatencyHistogram) (sample : ℤ) : LatencyHistogram where
  count := h.count + 1
  buckets := h.buckets.modify (latencyBucketIndex sample.toNat) (· + 1)

def quantileScan (target : ℕ) : ℕ → List (ℕ × ℕ) → ℕ
  | _, [] => latencyBucketUpperBounds.getLastD 0
  | seen, (count, bound) :: rest => if target ≤ seen + count then bound else quantileScan target (seen + count) rest

def LatencyHistogram.quantile (h : LatencyHistogram) (q : ℚ) : ℕ :=
  let q := min (max q 0) 1
  if h.count = 0 then 0
  else
    let target := ⌊q * h.count + 999999999 / 1000000000⌋.toNat
    quantileScan (if target = 0 then 1 else target) 0 (h.buckets.zip latencyBucketUpperBounds)

/-! ## Observations and rows -/

structure Observation where
  destination : String
  method : String
  endpointID : String := ""
  registrationEpoch : String := ""
  upstream : String
  status : String
  latency : ℤ
  error : Bool := false
  timeout : Bool := false
deriving DecidableEq

structure EndpointStats where
  source : String
  destination : String
  method : String
  endpointID : String
  registrationEpoch : String
  upstream : String
  requestCount : ℕ
  errorCount : ℕ
  timeoutCount : ℕ
  inflight : ℕ
  latencyEWMA : ℤ
  latencyP95 : ℤ
  windowStart : ℕ
  windowEnd : ℕ
deriving DecidableEq

structure StatsKey where
  destination : String
  method : String
  endpointID : String
  registrationEpoch : String
  upstream : String
deriving DecidableEq

/-- The counters only go up, or down to zero, so they are natural numbers. -/
structure StatsRow where
  requestCount : ℕ := 0
  errorCount : ℕ := 0
  timeoutCount : ℕ := 0
  inflight : ℕ := 0
  ewma : EWMA := newEWMA defaultEWMAAlpha
  activeHist : LatencyHistogram := {}
  windowStart : ℕ
deriving DecidableEq

def isSpace (c : Char) : Bool :=
  (9 ≤ c.toNat && c.toNat ≤ 13) || (0x2000 ≤ c.toNat && c.toNat ≤ 0x200a) ||
    [0x20, 0x85, 0xa0, 0x1680, 0x2028, 0x2029, 0x202f, 0x205f, 0x3000].contains c.toNat

def trimSpace (s : String) : String :=
  String.ofList ((s.toList.dropWhile isSpace).reverse.dropWhile isSpace).reverse

def firstNonEmpty (value fallback : String) : String := if value ≠ "" then value else fallback

def makeStatsKey (destination method endpointID registrationEpoch upstream : String) : StatsKey where
  destination := firstNonEmpty destination "unknown"
  method := firstNonEmpty method "unknown"
  endpointID := trimSpace endpointID
  registrationEpoch := trimSpace registrationEpoch
  upstream := firstNonEmpty upstream "unknown"

def normalizeStatus (status : String) : String :=
  let status := trimSpace status
  if status = "" then "OK" else status

def Observation.key (obs : Observation) : StatsKey :=
  makeStatsKey obs.destination obs.method obs.endpointID obs.registrationEpoch obs.upstream

def StatsRow.record (row : StatsRow) (obs : Observation) (decrementInflight : Bool) : StatsRow :=
  let status := normalizeStatus obs.status
  { row with
    inflight := if decrementInflight then row.inflight - 1 else row.inflight
    requestCount := row.requestCount + 1
    errorCount := if obs.error || status ≠ "OK" then row.errorCount + 1 else row.errorCount
    timeoutCount := if obs.timeout || status = "DEADLINE_EXCEEDED" then row.timeoutCount + 1 else row.timeoutCount
    ewma := row.ewma.observe obs.latency
    activeHist := row.activeHist.record obs.latency }

def StatsRow.due (row : StatsRow) : Bool := !(row.requestCount = 0 && row.inflight = 0)

def StatsRow.stats (row : StatsRow) (source : String) (key : StatsKey) (now : ℕ) : EndpointStats where
  source := source
  destination := key.destination
  method := key.method
  endpointID := key.endpointID
  registrationEpoch := key.registrationEpoch
  upstream := key.upstream
  requestCount := row.requestCount
  errorCount := row.errorCount
  timeoutCount := row.timeoutCount
  inflight := row.inflight
  latencyEWMA := row.ewma.round
  latencyP95 := row.activeHist.quantile (95 / 100)
  windowStart := row.windowStart
  windowEnd := now

def StatsRow.reset (row : StatsRow) (now : ℕ) : StatsRow :=
  if row.due then
    { row with requestCount := 0, errorCount := 0, timeoutCount := 0, activeHist := {}, windowStart := now }
  else row

/-! ## The recorder -/

structure Recorder where
  source : String
  rows : Dict StatsKey StatsRow := ∅

def newRecorder (source : String) : Recorder where
  source := if source = "" then "unknown" else source

namespace Recorder

variable (r : Recorder)

def rowFor (key : StatsKey) (now : ℕ) : StatsRow := (r.rows.lookup key).getD { windowStart := now }

def start (destination method upstream : String) (now : ℕ) : Recorder :=
  let key := makeStatsKey destination method "" "" upstream
  let row := r.rowFor key now
  { r with rows := r.rows.insert key { row with inflight := row.inflight + 1 } }

def finish (destination method upstream status : String) (started now : ℕ) : Recorder :=
  let key := makeStatsKey destination method "" "" upstream
  let obs : Observation := { destination, method, upstream, status, latency := now - started }
  { r with rows := r.rows.insert key ((r.rowFor key now).record obs true) }

def observe (obs : Observation) (now : ℕ) : Recorder :=
  { r with rows := r.rows.insert obs.key ((r.rowFor obs.key now).record obs false) }

/-- The rows a snapshot reports, sorted. Rows that differ in the epoch alone come in any order. -/
def snapshot (now : ℕ) : List EndpointStats :=
  sortBy (fun stat => toLex (stat.destination, toLex (stat.upstream, toLex (stat.endpointID, stat.method))))
    ((r.rows.entries.filter fun e => e.2.due).map fun e => e.2.stats r.source e.1 now)

def snapshotAndReset (now : ℕ) : Recorder × List EndpointStats :=
  ({ r with rows := Dict.mapVal (fun _ row => row.reset now) r.rows }, r.snapshot now)

def Pending (key : StatsKey) : Prop := ∃ row, r.rows.lookup key = some row ∧ row.due

def Settled : Prop := ∀ key row, r.rows.lookup key = some row → row.inflight = 0

variable {r : Recorder}

theorem mem_snapshot {now : ℕ} {stat : EndpointStats} :
    stat ∈ r.snapshot now ↔
      ∃ key row, r.rows.lookup key = some row ∧ row.due ∧ stat = row.stats r.source key now := by
  unfold snapshot
  rw [mem_sortBy]
  simp only [List.mem_map, List.mem_filter]
  constructor
  · rintro ⟨⟨key, row⟩, ⟨hmem, hdue⟩, rfl⟩
    exact ⟨key, row, AList.mem_lookup_iff.mpr hmem, hdue, rfl⟩
  · rintro ⟨key, row, hrow, hdue, rfl⟩
    exact ⟨⟨key, row⟩, ⟨AList.mem_lookup_iff.mp hrow, hdue⟩, rfl⟩

theorem pending_observe (obs : Observation) (now : ℕ) (key : StatsKey) :
    (r.observe obs now).Pending key ↔ key = obs.key ∨ r.Pending key := by
  unfold Pending observe
  simp only [Dict.lookup_insert']
  by_cases hkey : key = obs.key
  · simp [hkey, StatsRow.due, StatsRow.record]
  · simp [hkey]

theorem Settled.observe (h : r.Settled) (obs : Observation) (now : ℕ) : (r.observe obs now).Settled := by
  intro key row hrow
  simp only [Recorder.observe, Dict.lookup_insert'] at hrow
  split at hrow
  · simp only [Option.some.injEq] at hrow
    subst hrow
    simp only [StatsRow.record, rowFor]
    cases hbefore : r.rows.lookup obs.key with
    | none => rfl
    | some before => exact h _ before hbefore
  · exact h key row hrow

theorem Settled.reset (h : r.Settled) (now : ℕ) : (r.snapshotAndReset now).1.Settled := by
  intro key row hrow
  simp only [snapshotAndReset, Dict.lookup_mapVal, Option.map_eq_some_iff] at hrow
  obtain ⟨before, hbefore, rfl⟩ := hrow
  unfold StatsRow.reset
  split <;> exact h key before hbefore

theorem not_pending_reset (h : r.Settled) (now : ℕ) (key : StatsKey) :
    ¬ (r.snapshotAndReset now).1.Pending key := by
  rintro ⟨row, hrow, hdue⟩
  simp only [snapshotAndReset, Dict.lookup_mapVal, Option.map_eq_some_iff] at hrow
  obtain ⟨before, hbefore, rfl⟩ := hrow
  have hinflight := h key before hbefore
  unfold StatsRow.reset at hdue
  split at hdue <;> simp_all [StatsRow.due]

end Recorder

end AegisMesh.Telemetry

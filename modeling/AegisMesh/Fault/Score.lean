import Mathlib.Data.List.Sort
import Mathlib.Data.Rat.Floor
import Mathlib.Data.String.Basic
import AegisMesh.Lib.Dict

/-!
# Slow scores (`pkg/fault/slow_score.go`)

Scores are exact rationals where the source has `float64`, and counts are exact
integers. A loop over a Go map goes over the entries in an order of its own.
-/

open Lib

namespace AegisMesh.Fault

structure ScoreWeights where
  latencyWeight : ℚ := 0
  errorWeight : ℚ := 0
  inflightWeight : ℚ := 0
  retransmitWeight : ℚ := 0
deriving DecidableEq

def defaultScoreWeights : ScoreWeights where
  latencyWeight := 45 / 100
  errorWeight := 25 / 100
  inflightWeight := 20 / 100
  retransmitWeight := 10 / 100

structure EndpointSample where
  service : String := ""
  instanceID : String := ""
  address : String := ""
  registrationEpoch : String := ""
  method : String := ""
  requestCount : ℤ := 0
  errorCount : ℤ := 0
  timeoutCount : ℤ := 0
  inflight : ℤ := 0
  capacity : ℤ := 0
  latencyEWMA : ℤ := 0
  latencyP95 : ℤ := 0
  tcpRetransmit : ℤ := 0
  connectError : ℤ := 0
deriving DecidableEq

structure EndpointScore where
  service : String := ""
  instanceID : String := ""
  address : String := ""
  registrationEpoch : String := ""
  method : String := ""
  score : ℚ := 0
  latencyScore : ℚ := 0
  errorScore : ℚ := 0
  inflightScore : ℚ := 0
  retransmitScore : ℚ := 0
deriving DecidableEq

structure ScoreCalculator where
  weights : ScoreWeights
  latencySLO : ℤ
deriving DecidableEq

def newScoreCalculator (weights : ScoreWeights) (latencySLO : ℤ) : ScoreCalculator :=
  let total := weights.latencyWeight + weights.errorWeight + weights.inflightWeight + weights.retransmitWeight
  { weights := if total ≤ 0 then defaultScoreWeights else weights
    latencySLO := if latencySLO < 0 then 0 else latencySLO }

def scoreKey (service instanceID : String) : String := service ++ "/" ++ instanceID

/-! ## Arithmetic -/

def scoreEpsilon : ℚ := 1 / 1000000000

def seconds (d : ℤ) : ℚ := d / 1000000000

def rate (count total : ℤ) : ℚ := if total ≤ 0 then 0 else count / total

def networkRate (count total : ℤ) : ℚ :=
  if count ≤ 0 then 0 else if total ≤ 0 then count else count / total

def capacityOf (value : ℤ) : ℤ := if value ≤ 0 then 100 else value

def median (values : List ℚ) : ℚ :=
  let sorted := values.insertionSort (· ≤ ·)
  let mid := sorted.length / 2
  if values = [] then 0
  else if sorted.length % 2 = 1 then sorted.getD mid 0
  else (sorted.getD (mid - 1) 0 + sorted.getD mid 0) / 2

def medianAbsoluteDeviation (values : List ℚ) (med : ℚ) : ℚ :=
  if values = [] then 0 else median (values.map fun value => |value - med|)

def average (values : List ℚ) : ℚ := if values = [] then 0 else values.sum / values.length

/-! ## Aggregation -/

def aggregateEndpointSample (current sample : EndpointSample) : EndpointSample :=
  if current.service = "" then sample
  else
    { current with
      address := if current.address = "" then sample.address else current.address
      registrationEpoch :=
        if current.registrationEpoch = "" then sample.registrationEpoch
        else if sample.registrationEpoch ≠ "" ∧ current.registrationEpoch ≠ sample.registrationEpoch then ""
        else current.registrationEpoch
      method :=
        if current.method ≠ "" ∧ sample.method ≠ "" ∧ current.method ≠ sample.method then "" else current.method
      requestCount := current.requestCount + sample.requestCount
      errorCount := current.errorCount + sample.errorCount
      timeoutCount := current.timeoutCount + sample.timeoutCount
      inflight := current.inflight + sample.inflight
      capacity := max current.capacity sample.capacity
      latencyEWMA := max current.latencyEWMA sample.latencyEWMA
      latencyP95 := max current.latencyP95 sample.latencyP95
      tcpRetransmit := current.tcpRetransmit + sample.tcpRetransmit
      connectError := current.connectError + sample.connectError }

def aggregateByService (samples : List EndpointSample) : Dict String (Dict String EndpointSample) :=
  samples.foldl
    (fun byService sample =>
      if sample.service = "" ∨ sample.instanceID = "" then byService
      else
        let serviceSamples := (byService.lookup sample.service).getD ∅
        byService.insert sample.service (serviceSamples.insert sample.instanceID
          (aggregateEndpointSample ((serviceSamples.lookup sample.instanceID).getD {}) sample)))
    ∅

namespace ScoreCalculator

variable (c : ScoreCalculator)

def absoluteLatencyScore (latency : ℤ) : ℚ :=
  if c.latencySLO ≤ 0 ∨ latency ≤ 0 then 0 else seconds latency / seconds c.latencySLO

def scoreAmong (service : String) (samples : List EndpointSample) (sample : EndpointSample) : EndpointScore :=
  let latencies := samples.map fun s => seconds s.latencyP95
  let medianLatency := median latencies
  let madLatency := medianAbsoluteDeviation latencies medianLatency
  let avgErrorRate := average (samples.map fun s => rate s.errorCount s.requestCount)
  let avgRetransmitRate :=
    average (samples.map fun s => networkRate (s.tcpRetransmit + s.connectError) s.requestCount)
  let relativeLatencyScore := max 0 (seconds sample.latencyP95 - medianLatency) / max madLatency (1 / 1000)
  let latencyScore := max relativeLatencyScore (c.absoluteLatencyScore sample.latencyP95)
  let errorScore :=
    if 0 < sample.errorCount then rate sample.errorCount sample.requestCount / max avgErrorRate scoreEpsilon else 0
  let inflightScore : ℚ := sample.inflight / capacityOf sample.capacity
  let networkEvents := sample.tcpRetransmit + sample.connectError
  let retransmitScore :=
    if 0 < networkEvents then networkRate networkEvents sample.requestCount / max avgRetransmitRate scoreEpsilon
    else 0
  { service
    instanceID := sample.instanceID
    address := sample.address
    registrationEpoch := sample.registrationEpoch
    method := sample.method
    score := c.weights.latencyWeight * latencyScore + c.weights.errorWeight * errorScore +
      c.weights.inflightWeight * inflightScore + c.weights.retransmitWeight * retransmitScore
    latencyScore
    errorScore
    inflightScore
    retransmitScore }

def calculateService (service : String) (samples : List EndpointSample) (out : Dict String EndpointScore) :
    Dict String EndpointScore :=
  samples.foldl
    (fun out sample => out.insert (scoreKey service sample.instanceID) (c.scoreAmong service samples sample)) out

def calculate (samples : List EndpointSample) : Dict String EndpointScore :=
  (aggregateByService samples).entries.foldl (fun out e => c.calculateService e.1 (Dict.values e.2) out) ∅

end ScoreCalculator

end AegisMesh.Fault

import AegisMesh.Ebpf.Endpoint
import AegisMesh.Controller.Telemetry

/-!
# Reporting windows (`agent/ebpf/aggregator.go`, `reporter.go`, `telemetry.go`)
-/

open Lib AegisMesh.Controller

namespace AegisMesh.Ebpf

structure EndpointRef where
  service : String := ""
  instanceID : String
  address : String
deriving DecidableEq

structure NetworkRow where
  ref : EndpointRef
  retransmits : ℕ := 0
  connectErrors : ℕ := 0
  connectLatency : Int64 := 0
  windowStart : Int64
  windowEnd : Int64

def NetworkRow.add (row : NetworkRow) (event : TCPEvent) : NetworkRow where
  ref := row.ref
  retransmits := row.retransmits + event.retransmits
  connectErrors := row.connectErrors + event.connectErrors
  connectLatency := row.connectLatency + event.connectLatency
  windowStart := row.windowStart
  windowEnd := event.observedAt

structure NetworkSample where
  service : String
  instanceID : String
  address : String
  tcpRetransmit : ℕ
  connectError : ℕ
  connectLatency : Int64
  windowStart : Int64
  windowEnd : Int64

structure Aggregator where
  endpoints : Dict UInt64 EndpointRef
  rows : Dict UInt64 NetworkRow := ∅

def newAggregator (parseIPv6 : List Char → Option (List UInt8)) (endpoints : List (String × EndpointRef)) :
    Aggregator where
  endpoints := endpoints.foldl (fun refs e =>
    match parseEndpointKey parseIPv6 e.1 with
    | .error _ => refs
    | .ok key => refs.insert key (if e.2.address = "" then { e.2 with address := e.1 } else e.2)) ∅

namespace Aggregator

def refOf (a : Aggregator) (key : UInt64) : EndpointRef :=
  (a.endpoints.lookup key).getD { instanceID := formatEndpoint key, address := formatEndpoint key }

def observe (a : Aggregator) (event : TCPEvent) : Aggregator :=
  let key := event.remoteKey
  if key = 0 then a
  else
    let row := (a.rows.lookup key).getD
      { ref := a.refOf key, windowStart := event.observedAt, windowEnd := event.observedAt }
    { a with rows := a.rows.insert key (row.add event) }

def snapshotAndReset (a : Aggregator) : List NetworkSample × Aggregator :=
  let out := (Dict.values a.rows).map fun row =>
    { service := row.ref.service
      instanceID := row.ref.instanceID
      address := row.ref.address
      tcpRetransmit := row.retransmits
      connectError := row.connectErrors
      connectLatency := row.connectLatency
      windowStart := row.windowStart
      windowEnd := row.windowEnd : NetworkSample }
  (out.mergeSort fun x y => x.address ≤ y.address, { a with rows := ∅ })

end Aggregator

def networkSamplesToTelemetrySamples (samples : List NetworkSample) : List EndpointStatsSample :=
  samples.map fun sample =>
    { source := "ebpf"
      service := sample.service
      instanceId := sample.instanceID
      endpointAddress := sample.address
      tcpRetransmit := sample.tcpRetransmit
      connectError := sample.connectError
      windowStartUnixMillis := sample.windowStart.toInt / 1000000
      windowEndUnixMillis := sample.windowEnd.toInt / 1000000 }

/-! ## The agent -/

def eventBufferSize : ℕ := 1024

/-- `dropped`, `delivered` and `failed` record what the channel had no room for and what was sent. -/
structure Agent where
  aggregator : Aggregator
  queue : List TCPEvent := []
  dropped : List TCPEvent := []
  delivered : List EndpointStatsSample := []
  failed : List EndpointStatsSample := []

inductive AgentEvent
  /-- A turn of `readLoop`. -/
  | record (raw : List UInt8)
  /-- `run` or `drainEvents` takes an event. -/
  | receive
  /-- `ReportOnce` after its drain; the readers go on, so the channel need not be empty. -/
  | report (answered : Bool)

namespace Agent

def step (s : Agent) : AgentEvent → Agent
  | .record raw =>
    match decodeRawTCPEvent raw with
    | .error _ => s
    | .ok event =>
      if s.queue.length < eventBufferSize then { s with queue := s.queue ++ [event] }
      else { s with dropped := event :: s.dropped }
  | .receive =>
    match s.queue with
    | [] => s
    | event :: rest => { s with queue := rest, aggregator := s.aggregator.observe event }
  | .report answered =>
    let (out, a) := s.aggregator.snapshotAndReset
    let samples := networkSamplesToTelemetrySamples out
    if answered then { s with aggregator := a, delivered := samples ++ s.delivered }
    else { s with aggregator := a, failed := samples ++ s.failed }

def run (s : Agent) (events : List AgentEvent) : Agent := events.foldl step s

/-! ## Conservation -/

/-- The retransmits and connect errors that an event adds to the endpoint. -/
def ofEvent (a : Aggregator) (ref : EndpointRef) (e : TCPEvent) : ℤ × ℤ :=
  if e.remoteKey ≠ 0 ∧ a.refOf e.remoteKey = ref then (e.retransmits, e.connectErrors) else 0

def ofRow (ref : EndpointRef) (row : NetworkRow) : ℤ × ℤ :=
  if row.ref = ref then (row.retransmits, row.connectErrors) else 0

def ofSample (ref : EndpointRef) (p : EndpointStatsSample) : ℤ × ℤ :=
  if EndpointRef.mk p.service p.instanceId p.endpointAddress = ref then (p.tcpRetransmit, p.connectError) else 0

def decoded? : AgentEvent → Option TCPEvent
  | .record raw => (decodeRawTCPEvent raw).toOption
  | _ => none

def rowTotal (a : Aggregator) (ref : EndpointRef) : ℤ × ℤ := ((Dict.values a.rows).map (ofRow ref)).sum

structure Counted (a₀ : Aggregator) (seen : List TCPEvent) (s : Agent) : Prop where
  endpoints : s.aggregator.endpoints = a₀.endpoints
  refs : ∀ key row, s.aggregator.rows.lookup key = some row → row.ref = a₀.refOf key
  bound : s.queue.length ≤ eventBufferSize
  sums : ∀ ref, (seen.map (ofEvent a₀ ref)).sum =
    (s.delivered.map (ofSample ref)).sum + (s.failed.map (ofSample ref)).sum + rowTotal s.aggregator ref +
      (s.queue.map (ofEvent a₀ ref)).sum + (s.dropped.map (ofEvent a₀ ref)).sum

variable {a a₀ : Aggregator} {s : Agent} {seen : List TCPEvent}

theorem rowTotal_observe (hrefs : ∀ key row, a.rows.lookup key = some row → row.ref = a.refOf key) (e : TCPEvent)
    (ref : EndpointRef) : rowTotal (a.observe e) ref = rowTotal a ref + ofEvent a ref e := by
  by_cases hkey : e.remoteKey = 0
  · simp [Aggregator.observe, ofEvent, hkey]
  · cases hrow : a.rows.lookup e.remoteKey with
    | none =>
      have hnot : e.remoteKey ∉ a.rows.entries.keys := AList.lookup_eq_none.mp hrow
      simp [Aggregator.observe, rowTotal, ofRow, ofEvent, NetworkRow.add, Dict.values, hkey, hrow,
        List.kerase_of_notMem_keys hnot, add_comm]
    | some row =>
      -- The key's row gives way to the new one, and the others keep their sum.
      have hsum := ((Dict.values_perm_cons hrow).map (ofRow ref)).sum_eq
      have href := hrefs _ _ hrow
      have hadd : ofRow ref (row.add e) = ofRow ref row + ofEvent a ref e := by
        simp only [ofRow, ofEvent, NetworkRow.add, href]
        split <;> simp_all
      simp only [rowTotal, hsum, Aggregator.observe, hkey, hrow, Option.getD_some, if_false]
      simp only [Dict.values, AList.entries_insert, AList.erase, List.map_cons, List.sum_cons, hadd]
      abel

theorem sum_sent (a : Aggregator) (ref : EndpointRef) :
    ((networkSamplesToTelemetrySamples a.snapshotAndReset.1).map (ofSample ref)).sum = rowTotal a ref := by
  simp only [networkSamplesToTelemetrySamples, Aggregator.snapshotAndReset, List.map_map]
  rw [((List.mergeSort_perm _ _).map _).sum_eq, List.map_map]
  rfl

theorem Counted.step (h : Counted a₀ seen s) (e : AgentEvent) : Counted a₀ (seen ++ (decoded? e).toList) (s.step e) := by
  have hrefOf : ∀ key, s.aggregator.refOf key = a₀.refOf key := fun key => by simp [Aggregator.refOf, h.endpoints]
  cases e with
  | record raw =>
    cases hraw : decodeRawTCPEvent raw with
    | error err => simpa [Agent.step, decoded?, hraw, Except.toOption] using h
    | ok event =>
      by_cases hroom : s.queue.length < eventBufferSize
      all_goals
        simp only [Agent.step, decoded?, hraw, hroom, Except.toOption, Option.toList, if_true, if_false]
        refine ⟨h.endpoints, h.refs, ?_, fun ref => by
          simp only [List.map_append, List.map_cons, List.map_nil, List.sum_append, List.sum_cons, List.sum_nil,
            add_zero, h.sums ref]
          abel⟩
      · simpa using Nat.succ_le_of_lt hroom
      · exact h.bound
  | receive =>
    cases hqueue : s.queue with
    | nil => simpa [Agent.step, decoded?, hqueue] using h
    | cons event rest =>
      have hbound := h.bound
      have hobserve := rowTotal_observe (fun key row hrow => (h.refs key row hrow).trans (hrefOf key).symm) event
      simp only [Agent.step, decoded?, hqueue, Option.toList, List.append_nil]
      refine ⟨?_, ?_, by grind, fun ref => ?_⟩
      · rw [← h.endpoints, Aggregator.observe]
        split <;> rfl
      · simp only [Aggregator.observe]
        split
        · exact h.refs
        · refine Dict.forall_lookup_insert.mpr ⟨?_, fun key row _ => h.refs key row⟩
          cases hrow : s.aggregator.rows.lookup event.remoteKey with
          | none => exact hrefOf _
          | some row => exact h.refs _ row hrow
      · have hevent : ofEvent s.aggregator ref event = ofEvent a₀ ref event := by simp only [ofEvent, hrefOf]
        rw [h.sums ref, hobserve, hqueue, List.map_cons, List.sum_cons, hevent]
        abel
  | report answered =>
    have hrows : ∀ ref, rowTotal s.aggregator.snapshotAndReset.2 ref = 0 := fun _ => rfl
    cases answered
    all_goals
      refine ⟨h.endpoints, by simp [Agent.step, Aggregator.snapshotAndReset], h.bound, fun ref => ?_⟩
      simp only [Agent.step, decoded?, Option.toList_none, List.append_nil, h.sums ref, if_true, Bool.false_eq_true,
        if_false, List.map_append, List.sum_append, sum_sent, hrows]
      abel

theorem counted_run (parseIPv6 : List Char → Option (List UInt8)) (endpoints : List (String × EndpointRef))
    (events : List AgentEvent) :
    Counted (newAggregator parseIPv6 endpoints) (events.filterMap decoded?)
      (run { aggregator := newAggregator parseIPv6 endpoints } events) := by
  induction events using List.reverseRecOn with
  | nil => exact ⟨rfl, fun _ _ h => (nomatch h), Nat.zero_le _, fun _ => rfl⟩
  | append_singleton before e ih =>
    have hone : List.filterMap decoded? [e] = (decoded? e).toList := by cases h : decoded? e <;> simp [h]
    rw [List.filterMap_append, hone]
    simpa [run] using ih.step e

/-- What the kernel has reported of an endpoint is counted once: in a report that was answered or has failed, in a
row, in the channel, or among the events that found it full. -/
theorem figures_conserved (parseIPv6 : List Char → Option (List UInt8)) (endpoints : List (String × EndpointRef))
    (events : List AgentEvent) (ref : EndpointRef) :
    let a₀ := newAggregator parseIPv6 endpoints
    let s := run { aggregator := a₀ } events
    s.queue.length ≤ eventBufferSize ∧
      ((events.filterMap decoded?).map (ofEvent a₀ ref)).sum =
        (s.delivered.map (ofSample ref)).sum + (s.failed.map (ofSample ref)).sum + rowTotal s.aggregator ref +
          (s.queue.map (ofEvent a₀ ref)).sum + (s.dropped.map (ofEvent a₀ ref)).sum :=
  have h := counted_run parseIPv6 endpoints events
  ⟨h.bound, h.sums ref⟩

end Agent

end AegisMesh.Ebpf

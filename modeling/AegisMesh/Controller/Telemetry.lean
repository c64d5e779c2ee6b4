import AegisMesh.Controller.RegistryService

/-!
# The telemetry service of the controller (`pkg/controller/telemetry_service.go`)

The handlers come after authorization. `listed` is what the store's `List` answers for a
service in the course of one report: the report keeps each listing, so it asks once.
-/

open Lib

namespace AegisMesh.Controller

open Registry Fault

/-! ## Messages -/

structure EndpointStatsSample where
  source : String := ""
  service : String
  instanceId : String := ""
  endpointAddress : String := ""
  registrationEpoch : String := ""
  method : String := ""
  requestCount : ℤ := 0
  errorCount : ℤ := 0
  timeoutCount : ℤ := 0
  inflight : ℤ := 0
  capacity : ℤ := 0
  latencyEwmaSeconds : ℚ := 0
  latencyP95Seconds : ℚ := 0
  tcpRetransmit : ℤ := 0
  connectError : ℤ := 0
  windowStartUnixMillis : ℤ := 0
  windowEndUnixMillis : ℤ := 0
deriving DecidableEq

structure EndpointHealthMessage where
  service : String
  instanceId : String
  endpointAddress : String
  registrationEpoch : String
  state : String
  slowScore : ℚ
  consecutiveSlowWindows : ℕ
  consecutiveEjectWindows : ℕ
deriving DecidableEq

def healthToProto (health : List EndpointHealth) : List EndpointHealthMessage :=
  health.map fun endpoint =>
    { service := endpoint.service
      instanceId := endpoint.instanceID
      endpointAddress := endpoint.address
      registrationEpoch := endpoint.registrationEpoch
      state := endpoint.state.string
      slowScore := endpoint.slowScore
      consecutiveSlowWindows := endpoint.consecutiveSlowWindows
      consecutiveEjectWindows := endpoint.consecutiveEjectWindows }

def secondsToDuration (seconds : ℚ) : ℤ := if seconds ≤ 0 then 0 else ⌊seconds * 1000000000⌋

/-! ## Attribution -/

def splitHostPort (hostport : String) : Option (String × String) :=
  let chars := hostport.toList
  let port := (chars.reverse.takeWhile (· ≠ ':')).reverse
  let colon := chars.length - port.length - 1
  let close := chars.idxOf ']'
  if ':' ∉ chars then none
  else if chars.head? = some '[' then
    -- The first bracket that closes has to stand right before the last colon.
    if ']' ∉ chars ∨ close + 1 ≠ colon then none
    else if '[' ∈ chars.drop 1 ∨ ']' ∈ chars.drop (close + 1) then none
    else some (String.ofList ((chars.take close).drop 1), String.ofList port)
  else if ':' ∈ chars.take colon ∨ '[' ∈ chars ∨ ']' ∈ chars then none
  else some (String.ofList (chars.take colon), String.ofList port)

structure TelemetryServiceInstances where
  byAddress : Dict String Instance := ∅
  byID : Dict String Instance := ∅

def TelemetryServiceInstances.add (instances : TelemetryServiceInstances) (inst : Instance) :
    TelemetryServiceInstances where
  byAddress := if inst.address ≠ "" then instances.byAddress.insert inst.address inst else instances.byAddress
  byID := if inst.id ≠ "" then instances.byID.insert inst.id inst else instances.byID

def telemetryInstances (listed : List Instance) : TelemetryServiceInstances :=
  listed.foldl TelemetryServiceInstances.add {}

def matchPort (observedPort : String) : Option Instance → List (Sigma fun _ : String => Instance) → Option Instance
  | found, [] => found.filter fun inst => inst.id ≠ ""
  | found, ⟨registeredAddress, inst⟩ :: rest =>
    match splitHostPort registeredAddress with
    | none => matchPort observedPort found rest
    | some (_, registeredPort) =>
      if registeredPort ≠ observedPort then matchPort observedPort found rest
      else if found.any fun earlier => earlier.id ≠ "" && earlier.id ≠ inst.id then none
      else matchPort observedPort (some inst) rest

def resolveInstanceByUniquePort (byAddress : Dict String Instance) (observedAddress : String) : Option Instance :=
  match splitHostPort observedAddress with
  | none => none
  | some (_, observedPort) => if observedPort = "" then none else matchPort observedPort none byAddress.entries

def resolveAmong (listed : List Instance) (instanceId endpointAddress : String) : Option Instance :=
  let instances := telemetryInstances listed
  if instanceId ≠ "" then
    (instances.byID.lookup instanceId).filter fun inst =>
      endpointAddress = "" || healthMatchesInstanceAddress endpointAddress inst.address
  else if endpointAddress = "" then none
  else
    match instances.byAddress.lookup endpointAddress with
    | some inst => some inst
    | none => resolveInstanceByUniquePort instances.byAddress endpointAddress

theorem lookup_add (instances : TelemetryServiceInstances) (inst found : Instance) (key : String) :
    ((instances.add inst).byID.lookup key = some found → instances.byID.lookup key = some found ∨ found = inst) ∧
    ((instances.add inst).byAddress.lookup key = some found →
      instances.byAddress.lookup key = some found ∨ found = inst) := by
  constructor <;>
  · intro h
    simp only [TelemetryServiceInstances.add] at h
    split at h
    · rw [Dict.lookup_insert'] at h
      split at h
      · exact .inr (Option.some.inj h).symm
      · exact .inl h
    · exact .inl h

variable {inst : Instance}

theorem telemetryInstances_mem {listed : List Instance} {key : String} :
    ((telemetryInstances listed).byID.lookup key = some inst → inst ∈ listed) ∧
    ((telemetryInstances listed).byAddress.lookup key = some inst → inst ∈ listed) := by
  induction listed using List.reverseRecOn with
  | nil => simp [telemetryInstances]
  | append_singleton rest last ih =>
    have hlast := lookup_add (telemetryInstances rest) last inst key
    simp only [telemetryInstances, List.foldl_append, List.foldl_cons, List.foldl_nil, List.mem_append,
      List.mem_singleton] at hlast ih ⊢
    exact ⟨fun h => (hlast.1 h).imp_left ih.1, fun h => (hlast.2 h).imp_left ih.2⟩

theorem mem_of_matchPort {port : String} {found : Option Instance} {entries : List (Sigma fun _ : String => Instance)}
    (h : matchPort port found entries = some inst) :
    found = some inst ∨ ∃ address, ⟨address, inst⟩ ∈ entries := by
  induction entries generalizing found with
  | nil => exact .inl (Option.filter_eq_some_iff.mp h).1
  | cons entry rest ih =>
    have hrest : ∀ {found'}, matchPort port found' rest = some inst →
        found' = some inst ∨ ∃ address, ⟨address, inst⟩ ∈ entry :: rest :=
      fun h => (ih h).imp_right fun ⟨address, hmem⟩ => ⟨address, List.mem_cons_of_mem _ hmem⟩
    unfold matchPort at h
    split at h
    · exact hrest h
    · split_ifs at h
      · exact hrest h
      · rcases hrest h with hfound | hmem
        · exact .inr ⟨entry.1, by simp [← Option.some.inj hfound]⟩
        · exact .inr hmem

theorem mem_of_resolveAmong {listed : List Instance} {instanceId endpointAddress : String}
    (h : resolveAmong listed instanceId endpointAddress = some inst) : inst ∈ listed := by
  simp only [resolveAmong] at h
  split_ifs at h
  · exact telemetryInstances_mem.1 (Option.filter_eq_some_iff.mp h).1
  · split at h
    · rename_i found hfound
      rw [← Option.some.inj h]
      exact telemetryInstances_mem.2 hfound
    · simp only [resolveInstanceByUniquePort] at h
      split at h
      · cases h
      · split_ifs at h
        rcases mem_of_matchPort h with hnone | ⟨address, hmem⟩
        · cases hnone
        · exact telemetryInstances_mem.2 (AList.mem_lookup_iff.mpr hmem)

variable (listed : String → Except RegistryError (List Instance))

def resolveTelemetryInstance (sample : EndpointStatsSample) : Except StatusError (Option Instance) :=
  match listed sample.service with
  | .error err => .error (statusFromRegistryError err)
  | .ok instances => .ok (resolveAmong instances sample.instanceId sample.endpointAddress)

def staleEpoch (sample : EndpointStatsSample) (inst : Instance) : Bool :=
  sample.registrationEpoch ≠ "" && inst.registrationEpoch ≠ "" && sample.registrationEpoch ≠ inst.registrationEpoch

def attributed (sample : EndpointStatsSample) (inst : Instance) : EndpointSample where
  service := sample.service
  instanceID := inst.id
  address := if sample.endpointAddress = "" then inst.address else sample.endpointAddress
  registrationEpoch := if sample.registrationEpoch = "" then inst.registrationEpoch else sample.registrationEpoch
  method := sample.method
  requestCount := sample.requestCount
  errorCount := sample.errorCount
  timeoutCount := sample.timeoutCount
  inflight := sample.inflight
  capacity := sample.capacity
  latencyEWMA := secondsToDuration sample.latencyEwmaSeconds
  latencyP95 := secondsToDuration sample.latencyP95Seconds
  tcpRetransmit := sample.tcpRetransmit
  connectError := sample.connectError

def sampleFromProto : Option EndpointStatsSample → Except StatusError (Option EndpointSample)
  | none => .ok none
  | some sample =>
    if sample.service = "" then .ok none
    else
      match resolveTelemetryInstance listed sample with
      | .error err => .error err
      | .ok none => .ok none
      | .ok (some inst) => .ok (if staleEpoch sample inst then none else some (attributed sample inst))

def samplesFromProto : List (Option EndpointStatsSample) → Except StatusError (List EndpointSample)
  | [] => .ok []
  | sample :: rest =>
    match sampleFromProto listed sample with
    | .error err => .error err
    | .ok sample => (samplesFromProto rest).map fun samples => sample.toList ++ samples

variable {listed}

theorem sampleFromProto_eq_some {p : EndpointStatsSample} {sample : EndpointSample} :
    sampleFromProto listed (some p) = .ok (some sample) ↔
      p.service ≠ "" ∧ ∃ instances inst, listed p.service = .ok instances ∧
        resolveAmong instances p.instanceId p.endpointAddress = some inst ∧ staleEpoch p inst = false ∧
        attributed p inst = sample := by
  simp only [sampleFromProto, resolveTelemetryInstance]
  by_cases hservice : p.service = ""
  · simp [hservice]
  cases hlisted : listed p.service with
  | error err => simp [hservice]
  | ok instances =>
    cases hinst : resolveAmong instances p.instanceId p.endpointAddress with
    | none => simp [hservice, hinst]
    | some inst => by_cases hstale : staleEpoch p inst <;> simp [hservice, hinst, hstale]

theorem mem_samplesFromProto {protos : List (Option EndpointStatsSample)} {samples : List EndpointSample}
    (h : samplesFromProto listed protos = .ok samples) {sample : EndpointSample} :
    sample ∈ samples ↔ ∃ p ∈ protos, sampleFromProto listed p = .ok (some sample) := by
  induction protos generalizing samples with
  | nil =>
    simp only [samplesFromProto, Except.ok.injEq] at h
    simp [← h]
  | cons p rest ih =>
    simp only [samplesFromProto] at h
    cases hp : sampleFromProto listed p with
    | error err => simp [hp] at h
    | ok first =>
      cases hrest : samplesFromProto listed rest with
      | error err => simp [hp, hrest, Except.map] at h
      | ok others =>
        simp only [hp, hrest, Except.map, Except.ok.injEq] at h
        simp only [← h, List.mem_append, Option.mem_toList, ih hrest, List.exists_mem_cons_iff, hp, Except.ok.injEq]

theorem samplesFromProto_ok {protos : List (Option EndpointStatsSample)}
    (h : ∀ p, some p ∈ protos → p.service ≠ "" → ∃ instances, listed p.service = .ok instances) :
    ∃ samples, samplesFromProto listed protos = .ok samples := by
  induction protos with
  | nil => exact ⟨[], rfl⟩
  | cons p rest ih =>
    obtain ⟨others, hothers⟩ := ih fun p hp => h p (List.mem_cons_of_mem _ hp)
    have hfirst : ∃ first, sampleFromProto listed p = .ok first := by
      cases p with
      | none => exact ⟨none, rfl⟩
      | some p =>
        by_cases hservice : p.service = ""
        · exact ⟨none, by simp [sampleFromProto, hservice]⟩
        obtain ⟨instances, hinstances⟩ := h p (by simp) hservice
        simp only [sampleFromProto, if_neg hservice, resolveTelemetryInstance, hinstances]
        split
        · contradiction
        · exact ⟨_, rfl⟩
        · exact ⟨_, rfl⟩
    obtain ⟨first, hfirst⟩ := hfirst
    exact ⟨first.toList ++ others, by simp [samplesFromProto, hfirst, hothers, Except.map]⟩

/-! ## Handlers -/

variable (listed)

/-- `ReportEndpointStats`. `Update` answers with the records of every service. -/
def reportEndpointStats (m : HealthManager) (now wall : ℕ) (req : Option (List (Option EndpointStatsSample))) :
    HealthManager × Except StatusError (List EndpointHealthMessage) :=
  match req with
  | none => (m, .error { code := .invalidArgument, message := "telemetry request is required" })
  | some samples =>
    match samplesFromProto listed samples with
    | .error err => (m, .error err)
    | .ok samples =>
      let m := m.update samples now wall
      (m, .ok (healthToProto (m.list "")))

/-- `ListEndpointHealth`; a nil request asks for every service. -/
def listEndpointHealth (m : HealthManager) (service : Option String) : List EndpointHealthMessage :=
  healthToProto (m.list (service.getD ""))

end AegisMesh.Controller

import AegisMesh.Controller.Scoped
import AegisMesh.Lib.Program

/-!
# The handlers of the controller, call by call

Each of the eight methods as a program over what stands behind it. A type assertion of the source is a
field of `Services`.
-/

open Lib

namespace AegisMesh.Controller

open Registry Fault Security

/-! ## Calls -/

inductive BackendCall
  | register (inst : Instance) (lease : ℤ)
  | heartbeatWithOwner (service id : String) (fence : Fence) (lease : ℤ)
  | list (service : String)
  | snapshot (service : String)
  | watch (service : String) (afterVersion : ℕ)
  | healthVersion (service : String)
  | healthGet (service instanceID : String)
  | healthState (service instanceID : String)
  | watchHealth (service : String) (afterVersion : ℕ)
  | healthList (service : String)
  | healthUpdate (samples : List EndpointSample)
  | recordHealth (endpoint : EndpointHealth)
  | saveHealth (health : List EndpointHealth)
  | policyGet (service : String)
  | reloadIfChanged
  | sendInstances (response : ListInstancesResponse)
  | sendPolicy (snapshot : Policy.PolicySnapshot)

@[reducible] def BackendCall.Answer : BackendCall → Type
  | .register _ _ => Option RegistryError
  | .heartbeatWithOwner _ _ _ _ => Option RegistryError
  | .list _ => Except RegistryError (List Instance)
  | .snapshot _ => Except RegistryError InstanceSnapshot
  | .watch _ _ => Bool
  | .healthVersion _ => ℕ
  | .healthGet _ _ => Option EndpointHealth
  | .healthState _ _ => Option Code
  | .watchHealth _ _ => Bool
  | .healthList _ => List EndpointHealth
  | .healthUpdate _ => List EndpointHealth
  | .recordHealth _ => Unit
  | .saveHealth _ => Unit
  | .policyGet _ => Option Policy.PolicySnapshot
  | .reloadIfChanged => Option String
  | .sendInstances _ => Option StatusError
  | .sendPolicy _ => Option StatusError

/-- The services that a call names to the registry store, to the policy store, to the listing of
health, and in the samples of an update. -/
def BackendCall.services : BackendCall → List String
  | .register inst _ => [inst.service]
  | .heartbeatWithOwner service _ _ _ => [service]
  | .list service => [service]
  | .snapshot service => [service]
  | .watch service _ => [service]
  | .healthList service => [service]
  | .healthUpdate samples => samples.map EndpointSample.service
  | .policyGet service => [service]
  | _ => []

abbrev Handler (α : Type) := Program BackendCall.Answer StatusError α

def ask (op : BackendCall) : Handler op.Answer := Program.ask op

@[simp] theorem ask_bind {α : Type} (op : BackendCall) (next : op.Answer → Handler α) : (ask op >>= next) = .call op next :=
  rfl

structure HealthInterfaces where
  snapshots : Bool := true
  versions : Bool := true
  watches : Bool := true

/-- What the three services are made of. A field is `false` or `none` where the source finds no
such interface, or nil. -/
structure Services where
  defaultLease : ℤ
  ownerHeartbeater : Bool := true
  snapshotter : Bool := true
  watcher : Bool := true
  health : Option HealthInterfaces := some {}
  metrics : Bool := false
  healthStore : Bool := false
  policyStore : Bool := true
  policyReloader : Bool := true

namespace Services

variable (c : Services)

/-! ## The registry service -/

def registerInstance : Option RegisterInstanceRequest → Handler RegisterInstanceResponse
  | some { inst := some proto, leaseTtlSeconds } => do
    let inst := instanceFromProto proto
    match ← ask (.register inst (leaseTTL c.defaultLease leaseTtlSeconds)) with
    | some err => .fail (statusFromRegistryError err)
    | none =>
      match ← ask (.list inst.service) with
      | .error err => .fail (statusFromRegistryError err)
      | .ok instances =>
        match registerResponse inst instances with
        | .error err => .fail err
        | .ok response => return response
  | _ => .fail { code := .invalidArgument, message := "instance is required" }

def heartbeat : Option HeartbeatRequest → Handler ServiceInstance
  | none => .fail { code := .invalidArgument, message := "heartbeat request is required" }
  | some req =>
    if req.registrationEpoch = "" ∨ req.ownerToken = "" then
      .fail { code := .invalidArgument, message := "registration epoch and owner token are required" }
    else if c.ownerHeartbeater then do
      match ← ask (.heartbeatWithOwner req.service req.instanceId ⟨req.registrationEpoch, req.ownerToken⟩
          (leaseTTL c.defaultLease req.leaseTtlSeconds)) with
      | some err => .fail (statusFromRegistryError err)
      | none =>
        match ← ask (.list req.service) with
        | .error err => .fail (statusFromRegistryError err)
        | .ok instances =>
          match instances.find? fun inst => inst.id = req.instanceId with
          | some inst => return instanceToProto inst
          | none => .fail { code := .notFound, message := "instance not found" }
    else .fail { code := .internal, message := "registry store does not support fenced heartbeat" }

def registrySnapshot (service : String) : Handler InstanceSnapshot :=
  if c.snapshotter then do
    match ← ask (.snapshot service) with
    | .error err => .fail (statusFromRegistryError err)
    | .ok snapshot => return snapshot
  else do
    match ← ask (.list service) with
    | .error err => .fail (statusFromRegistryError err)
    | .ok instances => return { service, instances }

def healthVersion (service : String) : Handler ℕ :=
  if c.health.any HealthInterfaces.versions then ask (.healthVersion service) else return 0

def overlay (inst : Instance) : Handler ServiceInstance :=
  match c.health with
  | none => return overlaid inst none
  | some health =>
    if health.snapshots then do
      let found ← ask (.healthGet inst.service inst.id)
      return overlaid inst found
    else do
      match ← ask (.healthState inst.service inst.id) with
      | some state => return instanceToProto { inst with status := state }
      | none => return instanceToProto inst

def overlayAll : List Instance → Handler (List ServiceInstance)
  | [] => return []
  | inst :: rest => do
    let first ← c.overlay inst
    let others ← overlayAll rest
    return first :: others

def instancesView (service : String) : Handler InstancesView := do
  let snapshot ← c.registrySnapshot service
  let healthVersion ← c.healthVersion service
  let instances ← c.overlayAll snapshot.instances
  return {
    response := { instances, version := combineInstancesVersion snapshot.version healthVersion }
    registryVersion := snapshot.version
    healthVersion }

def listInstances : Option String → Handler ListInstancesResponse
  | none => .fail { code := .invalidArgument, message := "service is required" }
  | some service =>
    if service = "" then .fail { code := .invalidArgument, message := "service is required" }
    else do
      let view ← c.instancesView service
      return view.response

def sendInstancesIfChanged (service : String) (lastSentVersion : ℤ) : Handler (InstancesView × ℤ) := do
  let view ← c.instancesView service
  if (view.response.version : ℤ) = lastSentVersion then return (view, lastSentVersion)
  else
    match ← ask (.sendInstances view.response) with
    | some err => .fail err
    | none => return (view, view.response.version)

def watchRegistry (service : String) (afterVersion : ℕ) : Handler Bool :=
  if c.watcher then ask (.watch service afterVersion) else return false

def watchHealth (service : String) (afterVersion : ℕ) : Handler Bool :=
  if c.health.any HealthInterfaces.watches then ask (.watchHealth service afterVersion) else return false

/-- The locals of `WatchInstances`: the version to remember, which channels are not nil, and
whether there is a ticker. -/
structure WatchLocals where
  lastSentVersion : ℤ
  registryUpdates : Bool
  healthUpdates : Bool
  ticker : Bool
deriving DecidableEq

/-- What the `select` of `WatchInstances` finds. `ok` is `false` for a channel that is closed. -/
inductive Wake
  | done
  | registry (ok : Bool)
  | health (ok : Bool)
  | tick
deriving DecidableEq

/-- A channel that is nil is never ready. -/
def WatchLocals.ready (l : WatchLocals) : Wake → Bool
  | .done => true
  | .registry _ => l.registryUpdates
  | .health _ => l.healthUpdates
  | .tick => l.ticker

def incomplete (registryUpdates healthUpdates : Bool) : Bool :=
  !registryUpdates || (c.health.isSome && !healthUpdates)

def withTicker (l : WatchLocals) : WatchLocals :=
  if !l.registryUpdates && (c.health.isNone || !l.healthUpdates) then { l with ticker := true } else l

def startWatch (service : String) (lastSeenVersion : ℤ) : Handler WatchLocals := do
  let (view, lastSentVersion) ← c.sendInstancesIfChanged service lastSeenVersion
  let registryUpdates ← c.watchRegistry service view.registryVersion
  let healthUpdates ← c.watchHealth service view.healthVersion
  return { lastSentVersion, registryUpdates, healthUpdates, ticker := c.incomplete registryUpdates healthUpdates }

def restartClosedWatches (service : String) (view : InstancesView) (l : WatchLocals) : Handler WatchLocals := do
  let registryUpdates ← (if l.registryUpdates then pure true else c.watchRegistry service view.registryVersion)
  let healthUpdates ←
    (if c.health.isSome && !l.healthUpdates then c.watchHealth service view.healthVersion else pure l.healthUpdates)
  return { l with registryUpdates, healthUpdates, ticker := l.ticker || c.incomplete registryUpdates healthUpdates }

/-- One turn of the loop; `none` where the context is done. A closed channel goes straight to the
next turn. -/
def watchTurn (service : String) (l : WatchLocals) : Wake → Handler (Option WatchLocals)
  | .done => return none
  | .registry false => return some { l with registryUpdates := false, ticker := true }
  | .health false => return some { l with healthUpdates := false, ticker := true }
  | .registry true => do
    let (_, lastSentVersion) ← c.sendInstancesIfChanged service l.lastSentVersion
    return some (c.withTicker { l with lastSentVersion })
  | .health true => do
    let (_, lastSentVersion) ← c.sendInstancesIfChanged service l.lastSentVersion
    return some (c.withTicker { l with lastSentVersion })
  | .tick => do
    let (view, lastSentVersion) ← c.sendInstancesIfChanged service l.lastSentVersion
    let l ← c.restartClosedWatches service view { l with lastSentVersion }
    return some (c.withTicker l)

inductive StreamEnd
  | cancelled
  | waiting
deriving DecidableEq

def watchLoop (service : String) : WatchLocals → List Wake → Handler StreamEnd
  | _, [] => return .waiting
  | l, wake :: rest =>
    if l.ready wake then do
      match ← c.watchTurn service l wake with
      | none => return .cancelled
      | some l => watchLoop service l rest
    else watchLoop service l rest

structure WatchInstancesRequest where
  service : String
  lastSeenVersion : ℤ := 0
deriving DecidableEq

def watchInstances (wakes : List Wake) : Option WatchInstancesRequest → Handler StreamEnd
  | none => .fail { code := .invalidArgument, message := "service is required" }
  | some req =>
    if req.service = "" then .fail { code := .invalidArgument, message := "service is required" }
    else do
      let l ← c.startWatch req.service req.lastSeenVersion
      c.watchLoop req.service l wakes

/-! ## The telemetry service -/

/-- `telemetryInstances`. The cache keeps the listing that the maps of the source are made of. -/
def listOnce (cache : Dict String (List Instance)) (service : String) :
    Handler (List Instance × Dict String (List Instance)) :=
  if service = "" then return ([], cache)
  else
    match cache.lookup service with
    | some listed => return (listed, cache)
    | none => do
      match ← ask (.list service) with
      | .error err => .fail (statusFromRegistryError err)
      | .ok listed => return (listed, cache.insert service listed)

def samplesFromProto : Dict String (List Instance) → List (Option EndpointStatsSample) → Handler (List EndpointSample)
  | _, [] => return []
  | cache, none :: rest => samplesFromProto cache rest
  | cache, some sample :: rest =>
    if sample.service = "" then samplesFromProto cache rest
    else do
      let (listed, cache) ← listOnce cache sample.service
      match resolveAmong listed sample.instanceId sample.endpointAddress with
      | none => samplesFromProto cache rest
      | some inst =>
        if staleEpoch sample inst then samplesFromProto cache rest
        else do
          let samples ← samplesFromProto cache rest
          return attributed sample inst :: samples

def recordHealth : List EndpointHealth → Handler Unit
  | [] => return ()
  | endpoint :: rest => do
    ask (.recordHealth endpoint)
    recordHealth rest

def saveHealthSnapshot (health : List EndpointHealth) : Handler Unit :=
  if c.healthStore && health ≠ [] then ask (.saveHealth health) else return ()

def reportEndpointStats : Option (List (Option EndpointStatsSample)) → Handler (List EndpointHealthMessage)
  | none => .fail { code := .invalidArgument, message := "telemetry request is required" }
  | some protos => do
    let samples ← samplesFromProto ∅ protos
    let health ← ask (.healthUpdate samples)
    recordHealth (if c.metrics then health else [])
    c.saveHealthSnapshot health
    return healthToProto health

def listEndpointHealth (service : Option String) : Handler (List EndpointHealthMessage) := do
  let health ← ask (.healthList (service.getD ""))
  return healthToProto health

/-! ## The policy service -/

def policyService : Option String → Handler String
  | none => .fail { code := .invalidArgument, message := "service is required" }
  | some service =>
    if service = "" then .fail { code := .invalidArgument, message := "service is required" }
    else if c.policyStore then return service
    else .fail { code := .notFound, message := "policy store is not configured" }

def getPolicy (request : Option String) : Handler Policy.PolicySnapshot := do
  let service ← c.policyService request
  match ← ask (.policyGet service) with
  | none => .fail policyNotFound
  | some snapshot => return snapshot

def sendPolicyIfChanged (service : String) (lastRevision : ℤ) : Handler ℤ := do
  let found ← ask (.policyGet service)
  match sendIfChanged service found lastRevision with
  | .error err => .fail err
  | .ok (lastRevision, none) => return lastRevision
  | .ok (lastRevision, some message) =>
    match ← ask (.sendPolicy message) with
    | some err => .fail err
    | none => return lastRevision

def reload : Handler Unit :=
  if c.policyReloader then do
    match ← ask .reloadIfChanged with
    | some message => .fail { code := .internal, message }
    | none => return ()
  else return ()

def policyLoop (service : String) : ℤ → ℕ → Handler StreamEnd
  | _, 0 => return .waiting
  | lastRevision, ticks + 1 => do
    c.reload
    let lastRevision ← sendPolicyIfChanged service lastRevision
    policyLoop service lastRevision ticks

def watchPolicy (ticks : ℕ) (request : Option String) : Handler StreamEnd := do
  let service ← c.policyService request
  let lastRevision ← sendPolicyIfChanged service 0
  c.policyLoop service lastRevision ticks

/-! ## The eight methods -/

end Services

open Services

/-- A call of a method. A stream comes with what its loop finds, as far as it is looked at. -/
inductive ControllerCall
  | unary (req : UnaryRequest)
  | watchInstances (req : Option WatchInstancesRequest) (wakes : List Wake)
  | watchPolicy (service : Option String) (ticks : ℕ)

def ControllerCall.request : ControllerCall → Request
  | .unary req => req.request
  | .watchInstances req _ => .watchInstances (req.map WatchInstancesRequest.service)
  | .watchPolicy service _ => .watchPolicy service

inductive CallResult
  | response (response : Response)
  | stream (result : StreamEnd)

def Services.respond (c : Services) : UnaryRequest → Handler Response
  | .registerInstance req => return .registered (← c.registerInstance req)
  | .heartbeat req => return .renewed (← c.heartbeat req)
  | .listInstances service => return .instances (← c.listInstances service)
  | .reportEndpointStats samples => return .health (← c.reportEndpointStats samples)
  | .listEndpointHealth service => return .health (← Services.listEndpointHealth service)
  | .getPolicy service => return .policy (← c.getPolicy service)

def Services.handle (c : Services) : ControllerCall → Handler CallResult
  | .unary req => return .response (← c.respond req)
  | .watchInstances req wakes => return .stream (← c.watchInstances wakes req)
  | .watchPolicy service ticks => return .stream (← c.watchPolicy ticks service)

end AegisMesh.Controller

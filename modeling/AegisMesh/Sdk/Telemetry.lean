import AegisMesh.Controller.Telemetry
import AegisMesh.Sdk.Resolver
import AegisMesh.Telemetry.Recorder

/-!
# Telemetry of the SDK (`sdk/go/aegisgrpc/interceptor.go`, `reporter.go`, `report_pool.go`)

The interceptor turns a finished call into an observation.
-/

namespace AegisMesh.Sdk

open Controller Telemetry

inductive RpcCode
  | ok
  | canceled
  | unknown
  | invalidArgument
  | deadlineExceeded
  | notFound
  | alreadyExists
  | permissionDenied
  | resourceExhausted
  | failedPrecondition
  | aborted
  | outOfRange
  | unimplemented
  | internal
  | unavailable
  | dataLoss
  | unauthenticated
deriving DecidableEq, Repr

def RpcCode.string : RpcCode → String
  | .ok => "OK"
  | .canceled => "Canceled"
  | .unknown => "Unknown"
  | .invalidArgument => "InvalidArgument"
  | .deadlineExceeded => "DeadlineExceeded"
  | .notFound => "NotFound"
  | .alreadyExists => "AlreadyExists"
  | .permissionDenied => "PermissionDenied"
  | .resourceExhausted => "ResourceExhausted"
  | .failedPrecondition => "FailedPrecondition"
  | .aborted => "Aborted"
  | .outOfRange => "OutOfRange"
  | .unimplemented => "Unimplemented"
  | .internal => "Internal"
  | .unavailable => "Unavailable"
  | .dataLoss => "DataLoss"
  | .unauthenticated => "Unauthenticated"

/-- What the interceptor knows of a call when its invoker returns. `peer` is `remote.Addr`. -/
structure FinishedCall where
  destination : String
  method : String
  peer : Option String
  code : RpcCode
  latency : ℤ
deriving DecidableEq

def endpointIDForAddress (cache : IdentityCache) (address : String) : String :=
  (endpointIdentityForAddress cache address).instanceID

/-- The observation of the unary interceptor. It sets no `RegistrationEpoch`, although the
cache keeps one beside the id. -/
def telemetryObservation (cache : IdentityCache) (call : FinishedCall) : Observation where
  destination := call.destination
  method := call.method
  endpointID :=
    match call.peer with
    | some upstream => endpointIDForAddress cache upstream
    | none => ""
  upstream := call.peer.getD "unknown"
  status := call.code.string
  latency := call.latency
  error := call.code ≠ .ok
  timeout := call.code = .deadlineExceeded

/-- `Time.UnixMilli`, for instants counted from the zero time. -/
def unixMilli (t : ℕ) : ℤ := t / 1000000 - 62135596800000

def statsToProto (stat : EndpointStats) : EndpointStatsSample where
  source := stat.source
  service := stat.destination
  instanceId := stat.endpointID
  registrationEpoch := stat.registrationEpoch
  endpointAddress := stat.upstream
  method := stat.method
  requestCount := stat.requestCount
  errorCount := stat.errorCount
  timeoutCount := stat.timeoutCount
  inflight := stat.inflight
  latencyEwmaSeconds := Fault.seconds stat.latencyEWMA
  latencyP95Seconds := Fault.seconds stat.latencyP95
  windowStartUnixMillis := unixMilli stat.windowStart
  windowEndUnixMillis := unixMilli stat.windowEnd

def reportOnce (r : Recorder) (now : ℕ) : Recorder × Option (List EndpointStatsSample) :=
  let (r, stats) := r.snapshotAndReset now
  (r, if stats = [] then none else some (stats.map statsToProto))

end AegisMesh.Sdk

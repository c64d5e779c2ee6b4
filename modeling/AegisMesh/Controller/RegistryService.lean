import AegisMesh.Fault.Manager
import AegisMesh.Registry.Memory

/-!
# The registry service of the controller (`pkg/controller/registry_service.go`)

The handlers come after authorization. A handler calls the store and the health
manager in separate steps, so what each step returns is a parameter.
-/

open Lib

namespace AegisMesh.Controller

open Registry Fault

/-! ## Messages -/

structure ServiceInstance where
  id : String
  service : String
  address : String
  status : String := ""
  labels : Labels := none
  lastSeenUnixMillis : ℕ := 0
  registrationEpoch : String := ""
  slowScore : ℚ := 0
deriving DecidableEq

structure ListInstancesResponse where
  instances : List ServiceInstance
  version : ℕ
deriving DecidableEq

structure RegisterInstanceResponse where
  inst : ServiceInstance
  ownerToken : String
deriving DecidableEq

inductive GrpcCode
  | invalidArgument
  | notFound
  | failedPrecondition
  | permissionDenied
  | unauthenticated
  | internal
deriving DecidableEq, Repr

structure StatusError where
  code : GrpcCode
  message : String
deriving DecidableEq

def statusFromRegistryError (err : RegistryError) : StatusError where
  code :=
    match err with
    | .invalidInstance => .invalidArgument
    | .instanceNotFound => .notFound
    | .registrationEpochMismatch => .failedPrecondition
    | _ => .internal
  message := err.text

def instanceFromProto (inst : ServiceInstance) : Instance where
  id := inst.id
  service := inst.service
  address := inst.address
  status := (Code.parse inst.status).normalized
  labels := cloneLabels inst.labels

def instanceToProto (inst : Instance) : ServiceInstance where
  id := inst.id
  service := inst.service
  address := inst.address
  status := inst.status.string
  labels := cloneLabels inst.labels
  lastSeenUnixMillis := inst.lastSeen / 1000000
  registrationEpoch := inst.registrationEpoch

/-! ## Registration -/

/-- The end of `RegisterInstance`: the answer made from the `List` that follows its `Register`. -/
def registerResponse (inst : Instance) (instances : List Instance) : Except StatusError RegisterInstanceResponse :=
  match instances.find? fun registered => registered.id = inst.id with
  | some registered => .ok { inst := instanceToProto registered, ownerToken := registered.ownerToken }
  | none => .error { code := .internal, message := "registered instance was not visible" }

/-! ## Versions -/

/-- One byte of `fnv64Mix` at a time, `n` bytes in all. -/
def fnv64MixBytes : ℕ → UInt64 → UInt64 → UInt64
  | 0, hash, _ => hash
  | n + 1, hash, value => fnv64MixBytes n ((hash ^^^ (value &&& 0xff)) * 1099511628211) (value >>> 8)

def fnv64Mix (hash value : UInt64) : UInt64 := fnv64MixBytes 8 hash value

def combineInstancesVersion (registryVersion healthVersion : ℕ) : ℕ :=
  let version := fnv64Mix (fnv64Mix 1469598103934665603 (.ofNat registryVersion)) (.ofNat healthVersion)
  let version := version &&& 0x7fffffffffffffff
  if version = 0 then 1 else version.toNat

/-! ## Views -/

def healthMatchesInstanceAddress (healthAddress instanceAddress : String) : Bool :=
  healthAddress = "" || instanceAddress = "" || healthAddress = instanceAddress

def healthMatchesInstanceRegistrationEpoch (healthEpoch instanceEpoch : String) : Bool :=
  healthEpoch = "" || instanceEpoch = "" || healthEpoch = instanceEpoch

def healthMatchesInstance (health : EndpointHealth) (inst : Instance) : Bool :=
  healthMatchesInstanceAddress health.address inst.address &&
    healthMatchesInstanceRegistrationEpoch health.registrationEpoch inst.registrationEpoch

def overlayHealth (inst : Instance) (health : Option EndpointHealth) : Instance × ℚ :=
  match health with
  | some health =>
    if healthMatchesInstance health inst then ({ inst with status := health.state }, health.slowScore) else (inst, 0)
  | none => (inst, 0)

def overlaid (inst : Instance) (health : Option EndpointHealth) : ServiceInstance :=
  let (inst, slowScore) := overlayHealth inst health
  { instanceToProto inst with slowScore }

structure InstancesView where
  response : ListInstancesResponse
  registryVersion : ℕ
  healthVersion : ℕ
deriving DecidableEq

/-- `instancesView`: the snapshot first, then the health version, then one `Get` for each
instance. `get` is what these last reads answer. -/
def instancesView (snapshot : InstanceSnapshot) (healthVersion : ℕ)
    (get : String → String → Option EndpointHealth) : InstancesView where
  response :=
    { instances := snapshot.instances.map fun inst => overlaid inst (get inst.service inst.id)
      version := combineInstancesVersion snapshot.version healthVersion }
  registryVersion := snapshot.version
  healthVersion := healthVersion

def viewOf (snapshot : InstanceSnapshot) (health : HealthManager) : InstancesView :=
  instancesView snapshot (health.healthVersion snapshot.service) health.get

def sendInstancesIfChanged (view : InstancesView) (lastSentVersion : ℕ) : Option ListInstancesResponse × ℕ :=
  if view.response.version = lastSentVersion then (none, lastSentVersion)
  else (some view.response, view.response.version)

end AegisMesh.Controller

import AegisMesh.Controller.RegistryService

/-!
# The registry resolver of the SDK (`sdk/go/aegisgrpc/resolver.go`)

The resolvers of one process share a cache from addresses to endpoint identities.
gRPC may refuse a state; whether it does is a parameter.
-/

open Lib

namespace AegisMesh.Sdk

open Controller

structure EndpointIdentity where
  instanceID : String := ""
  registrationEpoch : String := ""
deriving DecidableEq

abbrev IdentityCache := Dict String EndpointIdentity

structure Address where
  addr : String
  serverName : String
  instanceID : String
  registrationEpoch : String
  status : Code
  slowScore : ℚ
deriving DecidableEq

def rememberEndpointIdentity (cache : IdentityCache) (address endpointID registrationEpoch : String) : IdentityCache :=
  if address = "" then cache
  else if endpointID = "" then cache.erase address
  else cache.insert address { instanceID := endpointID, registrationEpoch }

def endpointIdentityForAddress (cache : IdentityCache) (address : String) : EndpointIdentity :=
  (cache.lookup address).getD {}

def usable (inst : ServiceInstance) : Bool := inst.address ≠ "" && (Code.parse inst.status).routable

def toAddress (inst : ServiceInstance) : Address where
  addr := inst.address
  serverName := inst.id
  instanceID := inst.id
  registrationEpoch := inst.registrationEpoch
  status := Code.parse inst.status
  slowScore := inst.slowScore

def addressesOf (view : InstancesView) : List Address := (view.response.instances.filter usable).map toAddress

/-- `instancesToAddresses`. Each usable instance is also written to the identity cache. -/
def instancesToAddresses (cache : IdentityCache) (instances : List ServiceInstance) : IdentityCache × List Address :=
  ((instances.filter usable).foldl
      (fun cache inst => rememberEndpointIdentity cache inst.address inst.id inst.registrationEpoch) cache,
    (instances.filter usable).map toAddress)

structure RegistryResolver where
  lastVersion : ℕ := 0
  pushed : Option (List Address) := none
deriving DecidableEq

/-- `applyInstancesResponse`. `accepts` is what `UpdateState` answers. -/
def applyInstancesResponse (accepts : List Address → Bool) (r : RegistryResolver) (cache : IdentityCache)
    (resp : Option ListInstancesResponse) : RegistryResolver × IdentityCache :=
  match resp with
  | none => (r, cache)
  | some resp =>
    if resp.version ≠ 0 ∧ resp.version = r.lastVersion then (r, cache)
    else
      let (cache, addresses) := instancesToAddresses cache resp.instances
      if !accepts addresses then (r, cache)
      else
        ({ lastVersion := if resp.version ≠ 0 then resp.version else r.lastVersion
           pushed := some addresses }, cache)

end AegisMesh.Sdk

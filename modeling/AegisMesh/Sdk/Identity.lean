import Mathlib.Logic.Function.Basic
import AegisMesh.Lib.Runs
import AegisMesh.Sdk.Telemetry

/-! # Endpoint identities of one SDK process -/

open Lib

namespace AegisMesh.Sdk

open Registry Controller

/-- A response that reaches a resolver. `accepted` is what gRPC answers to the state made of it. -/
structure Arrival where
  resolver : ℕ
  resp : ListInstancesResponse
  accepted : Bool := true

/-- The resolvers and their cache. `listings` is the ghost of the listings that were turned into
addresses, newest first, each with the service of its resolver. -/
structure SdkProcess where
  resolvers : ℕ → RegistryResolver := fun _ => {}
  identities : IdentityCache := ∅
  listings : List (String × List ServiceInstance) := []

def RegistryResolver.skips (r : RegistryResolver) (resp : ListInstancesResponse) : Bool :=
  resp.version ≠ 0 && resp.version = r.lastVersion

namespace SdkProcess

variable (services : ℕ → String)

def step (p : SdkProcess) (arrival : Arrival) : SdkProcess :=
  let r := p.resolvers arrival.resolver
  let (r', identities) := applyInstancesResponse (fun _ => arrival.accepted) r p.identities (some arrival.resp)
  { resolvers := Function.update p.resolvers arrival.resolver r'
    identities
    listings := if r.skips arrival.resp then p.listings
      else (services arrival.resolver, arrival.resp.instances) :: p.listings }

def run (p : SdkProcess) (arrivals : List Arrival) : SdkProcess := arrivals.foldl (step services) p

end SdkProcess

def idAt (address : String) (instances : List ServiceInstance) : Option String :=
  ((instances.filter usable).reverse.find? fun inst => inst.address = address).map ServiceInstance.id

def assigned (listings : List (String × List ServiceInstance)) (service address : String) : String :=
  ((listings.find? fun listing => listing.1 = service).bind fun listing => idAt address listing.2).getD ""

def lastGiven (listings : List (String × List ServiceInstance)) (address : String) : Option String :=
  listings.findSome? fun listing => idAt address listing.2

/-! ## What the cache holds -/

theorem endpointID_remember (cache : IdentityCache) {inst : ServiceInstance} (h : inst.address ≠ "") (address : String) :
    endpointIDForAddress (rememberEndpointIdentity cache inst.address inst.id inst.registrationEpoch) address =
      if inst.address = address then inst.id else endpointIDForAddress cache address := by
  simp only [endpointIDForAddress, endpointIdentityForAddress, rememberEndpointIdentity, if_neg h]
  by_cases hid : inst.id = ""
  · rw [if_pos hid, Dict.lookup_erase']
    by_cases haddress : inst.address = address
    · simp [haddress, hid]
    · simp [haddress, Ne.symm haddress]
  · rw [if_neg hid, Dict.lookup_insert']
    by_cases haddress : inst.address = address
    · simp [haddress]
    · simp [haddress, Ne.symm haddress]

theorem endpointID_instances (cache : IdentityCache) (instances : List ServiceInstance) (address : String) :
    endpointIDForAddress (instancesToAddresses cache instances).1 address =
      (idAt address instances).getD (endpointIDForAddress cache address) := by
  simp only [instancesToAddresses, idAt]
  have husable : ∀ inst ∈ instances.filter usable, inst.address ≠ "" := by
    intro inst hinst
    have := (List.mem_filter.mp hinst).2
    simp only [usable, Bool.and_eq_true, decide_eq_true_eq] at this
    exact this.1
  generalize instances.filter usable = own at husable ⊢
  induction own using List.reverseRecOn with
  | nil => rfl
  | append_singleton rest last ih =>
    rw [List.foldl_append, List.foldl_cons, List.foldl_nil, endpointID_remember _ (husable last (by simp)),
      ih fun inst hinst => husable inst (List.mem_append_left _ hinst), List.reverse_append]
    by_cases haddress : last.address = address <;> simp [haddress]

def SdkProcess.Mirrors (p : SdkProcess) : Prop :=
  ∀ address, endpointIDForAddress p.identities address = (lastGiven p.listings address).getD ""

namespace SdkProcess

variable {services : ℕ → String} {p : SdkProcess}

theorem step_identities (arrival : Arrival) (address : String) :
    endpointIDForAddress (p.step services arrival).identities address =
      if (p.resolvers arrival.resolver).skips arrival.resp then endpointIDForAddress p.identities address
      else (idAt address arrival.resp.instances).getD (endpointIDForAddress p.identities address) := by
  rw [← endpointID_instances]
  simp only [step, applyInstancesResponse, RegistryResolver.skips, Bool.and_eq_true, decide_eq_true_eq]
  split
  · rfl
  · cases arrival.accepted <;> rfl

theorem Mirrors.step (h : p.Mirrors) (arrival : Arrival) : (p.step services arrival).Mirrors := by
  intro address
  rw [step_identities, h address]
  simp only [SdkProcess.step]
  split
  · rfl
  · simp only [lastGiven, List.findSome?_cons]
    cases idAt address arrival.resp.instances <;> rfl

theorem Mirrors.run (h : p.Mirrors) (arrivals : List Arrival) : (p.run services arrivals).Mirrors :=
  run_invariant (I := Mirrors) (fun _ arrival hp => hp.step arrival) h arrivals

end SdkProcess

theorem assigned_of_lastGiven_none {listings : List (String × List ServiceInstance)} {address : String}
    (h : lastGiven listings address = none) (service : String) : assigned listings service address = "" := by
  rw [lastGiven, List.findSome?_eq_none_iff] at h
  unfold assigned
  cases hfind : listings.find? fun listing => listing.1 = service with
  | none => rfl
  | some listing => simp [h listing (List.mem_of_find?_eq_some hfind)]

/-! ## Attribution -/

theorem lookup_byID_keeps {listed : List Instance} {inst : Instance}
    (hother : ∀ other ∈ listed, other.id ≠ inst.id) (instances : TelemetryServiceInstances) :
    (listed.foldl TelemetryServiceInstances.add instances).byID.lookup inst.id = instances.byID.lookup inst.id := by
  induction listed generalizing instances with
  | nil => rfl
  | cons first rest ih =>
    rw [List.foldl_cons, ih fun other h => hother other (List.mem_cons_of_mem _ h)]
    simp only [TelemetryServiceInstances.add]
    split
    · rw [Dict.lookup_insert', if_neg (Ne.symm (hother first List.mem_cons_self))]
    · rfl

theorem resolveAmong_id {listed : List Instance} (hdistinct : (listed.map Instance.id).Nodup) {inst : Instance}
    (hmem : inst ∈ listed) (hid : inst.id ≠ "") : resolveAmong listed inst.id inst.address = some inst := by
  obtain ⟨front, rest, rfl⟩ := List.append_of_mem hmem
  have hrest : ∀ other ∈ rest, other.id ≠ inst.id := by
    rw [List.map_append, List.map_cons] at hdistinct
    have hcons := (List.nodup_append.mp hdistinct).2.1
    intro other hother heq
    exact (List.nodup_cons.mp hcons).1 (heq ▸ List.mem_map_of_mem hother)
  have hlookup : (telemetryInstances (front ++ inst :: rest)).byID.lookup inst.id = some inst := by
    rw [telemetryInstances, List.foldl_append, List.foldl_cons, lookup_byID_keeps hrest]
    simp [TelemetryServiceInstances.add, hid]
  simp [resolveAmong, hid, hlookup, healthMatchesInstanceAddress]

/-- An observation carries the id that the most recent listing of its service assigns to the peer exactly if the last
listing of all with a routable instance there gives that id. -/
theorem observed_id_iff (services : ℕ → String) (arrivals : List Arrival) (call : FinishedCall) {address : String}
    (hpeer : call.peer = some address) :
    let p := ({} : SdkProcess).run services arrivals
    let id := assigned p.listings call.destination address
    ((telemetryObservation p.identities call).endpointID = id ↔
      ∀ given, lastGiven p.listings address = some given → given = id) ∧
    ((∀ given, lastGiven p.listings address = some given → given = id) →
      ∀ (listed : List Instance) (inst : Instance), (listed.map Instance.id).Nodup → inst ∈ listed → inst.id ≠ "" →
        inst.id = id → inst.address = address →
        resolveAmong listed (telemetryObservation p.identities call).endpointID address = some inst) := by
  intro p id
  have hmirrors : p.Mirrors := by
    have hstart : ({} : SdkProcess).Mirrors := fun _ => rfl
    exact hstart.run arrivals
  have hobserved : (telemetryObservation p.identities call).endpointID = (lastGiven p.listings address).getD "" := by
    simp only [telemetryObservation, hpeer]
    exact hmirrors address
  have hiff : (telemetryObservation p.identities call).endpointID = id ↔
      ∀ given, lastGiven p.listings address = some given → given = id := by
    rw [hobserved]
    cases hgiven : lastGiven p.listings address with
    | none => simp [id, assigned_of_lastGiven_none hgiven]
    | some given => simp
  refine ⟨hiff, ?_⟩
  rintro hsame listed inst hdistinct hmem hid hassigned rfl
  rw [hiff.mpr hsame, ← hassigned]
  exact resolveAmong_id hdistinct hmem hid

/-! ## Two services at one address -/

def twoServices (resolver : ℕ) : String := if resolver = 0 then "order" else "user"

def listingOf (service id : String) (version : ℕ) : ListInstancesResponse where
  instances := [{ id, service, address := "10.0.0.1:80", status := "HEALTHY" }]
  version := version

def orderCall : FinishedCall where
  destination := "order"
  method := "/order.Order/Get"
  peer := some "10.0.0.1:80"
  code := .ok
  latency := 1000000

/-- `user` is listed at the address of `order`: a call to `order` carries the id of `user`'s instance, and its sample
is dropped. -/
theorem other_service_takes_identity :
    let p := ({} : SdkProcess).run twoServices
      [{ resolver := 0, resp := listingOf "order" "o1" 1 }, { resolver := 1, resp := listingOf "user" "u1" 1 }]
    assigned p.listings "order" "10.0.0.1:80" = "o1" ∧
    (telemetryObservation p.identities orderCall).endpointID = "u1" ∧
    resolveAmong [{ id := "o1", service := "order", address := "10.0.0.1:80" }] "u1" "10.0.0.1:80" = none := by
  decide +kernel

theorem last_listed_keeps_identity :
    let p := ({} : SdkProcess).run twoServices
      [{ resolver := 1, resp := listingOf "user" "u1" 1 }, { resolver := 0, resp := listingOf "order" "o1" 1 }]
    (telemetryObservation p.identities orderCall).endpointID = assigned p.listings "order" "10.0.0.1:80" :=
  ((observed_id_iff twoServices
    [{ resolver := 1, resp := listingOf "user" "u1" 1 }, { resolver := 0, resp := listingOf "order" "o1" 1 }]
    orderCall rfl).1).mpr (by decide +kernel)

end AegisMesh.Sdk

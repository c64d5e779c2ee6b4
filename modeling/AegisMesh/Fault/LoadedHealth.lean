import AegisMesh.Fault.SavedHealth
import AegisMesh.Registry.Basic

/-! # Health that is saved and loaded again -/

open Lib

namespace AegisMesh.Fault.EtcdHealthStore

open Telemetry

variable (s : EtcdHealthStore)

deriving instance DecidableEq for SavePlace

/-! ## Load -/

def listed (kv : HealthKV) : List (String × HealthValue) :=
  (kv.entries.entries.filter fun e => s.instancesPrefix.toList.isPrefixOf e.1.toList).map fun e => (e.1, e.2.value)

def loadAll : List (String × HealthValue) → Except String (List EndpointHealth)
  | [] => .ok []
  | (key, value) :: rest =>
    match s.healthFromKV key value with
    | .error err => .error err
    | .ok (endpoint, true) => (loadAll rest).map (endpoint :: ·)
    | .ok (_, false) => loadAll rest

def load (kv : HealthKV) : Except String (List EndpointHealth × ℕ) :=
  (s.loadAll (s.listed kv)).map fun health =>
    (sortBy (fun endpoint => toLex (endpoint.service, endpoint.instanceID)) health, kv.revision)

structure Portable (endpoint : EndpointHealth) : Prop where
  service_ne : endpoint.service ≠ ""
  instanceID_ne : endpoint.instanceID ≠ ""
  service : trimSpace endpoint.service = endpoint.service
  instanceID : trimSpace endpoint.instanceID = endpoint.instanceID
  state : endpoint.state ≠ .unspecified

variable {s} {endpoint : EndpointHealth} {kv : HealthKV} {saved : List EndpointHealth}

theorem Portable.prepared (h : Portable endpoint) (now : ℕ) : Portable (prepared endpoint now) where
  service_ne := h.service_ne
  instanceID_ne := h.instanceID_ne
  service := h.service
  instanceID := h.instanceID
  state := by
    have hstate := h.state
    simp [EtcdHealthStore.prepared, Code.normalized, hstate]

theorem Portable.identity (h : Portable endpoint) :
    s.healthIdentityFromKey (s.key endpoint) = some (endpoint.service, endpoint.instanceID) :=
  s.healthIdentityFromKey_own h.service h.instanceID h.service_ne h.instanceID_ne

theorem Portable.read_back (h : Portable endpoint) :
    s.healthFromKV (s.key endpoint) (.ok (encodeHealth endpoint)) = .ok (endpoint, true) := by
  unfold healthFromKV
  rw [h.identity, decodeHealth_encodeHealth h.service_ne h.instanceID_ne]
  simp [Code.normalized, h.state]

def names (endpoint : EndpointHealth) : String × String := (endpoint.service, endpoint.instanceID)

def Holds (s : EtcdHealthStore) (kv : HealthKV) (saved : List EndpointHealth) : Prop :=
  kv.entries.entries.map (fun e => (e.1, e.2.value)) = saved.map fun endpoint => (s.key endpoint, .ok (encodeHealth endpoint))

theorem loadAll_saved (h : ∀ r ∈ saved, Portable r) :
    s.loadAll (saved.map fun r => (s.key r, .ok (encodeHealth r))) = .ok saved := by
  induction saved with
  | nil => rfl
  | cons r rest ih =>
    obtain ⟨hr, hrest⟩ := List.forall_mem_cons.mp h
    rw [List.map_cons, loadAll, hr.read_back]
    simp only [ih hrest]
    rfl

theorem key_under (s : EtcdHealthStore) (r : EndpointHealth) :
    s.instancesPrefix.toList.isPrefixOf (s.key r).toList = true := by
  simp [key, healthInstanceKey, String.toList_append]

theorem Holds.load (h : s.Holds kv saved) (hsaved : ∀ r ∈ saved, Portable r) :
    ∃ loaded, s.load kv = .ok (loaded, kv.revision) ∧ loaded.Perm saved := by
  have hstart : ∀ e ∈ kv.entries.entries, s.instancesPrefix.toList.isPrefixOf e.1.toList = true := by
    intro e he
    have hmem := List.mem_map_of_mem (f := fun e => (e.1, e.2.value)) he
    rw [h, List.mem_map] at hmem
    obtain ⟨r, -, hpair⟩ := hmem
    rw [← show s.key r = e.1 from congrArg Prod.fst hpair]
    exact s.key_under r
  have hlisted : s.listed kv = saved.map fun r => (s.key r, .ok (encodeHealth r)) := by
    rw [listed, List.filter_eq_self.mpr hstart]
    exact h
  refine ⟨sortBy (fun r => toLex (r.service, r.instanceID)) saved, ?_, List.perm_insertionSort (fun a b => _ ≤ _) saved⟩
  unfold EtcdHealthStore.load
  rw [hlisted, loadAll_saved hsaved]
  rfl

end AegisMesh.Fault.EtcdHealthStore

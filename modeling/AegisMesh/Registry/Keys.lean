import AegisMesh.Lib.Fields
import AegisMesh.Lib.PathEscape
import AegisMesh.Registry.LeaseStore
import AegisMesh.Telemetry.Recorder

/-! # Keys of the lease-store registry -/

open Lib

namespace AegisMesh.Registry

open Telemetry

def cleanLeaseStorePrefix (start : String) : String :=
  let start := trimSpace start
  if start = "" then "/aegismesh/registry"
  else "/" ++ String.ofList ((start.toList.dropWhile (· = '/')).reverse.dropWhile (· = '/')).reverse

/-- What the registry needs of `url.PathEscape`. -/
structure Escapes (escape : String → String) : Prop where
  injective : Function.Injective escape
  slash : ∀ name, '/' ∉ (escape name).toList

theorem escapes_pathEscape : Escapes pathEscape := ⟨pathEscape_injective, slash_not_mem_pathEscape⟩

namespace LeaseStoreRegistry

def newLeaseStoreRegistry (start : String) (escape : String → String) : LeaseStoreRegistry where
  keyPrefix := cleanLeaseStorePrefix start
  escape := escape

def listKVs (s : LeaseStore) (start : String) : List (String × Entry (Option LeaseStoreRecord)) :=
  (s.entries.entries.filter fun e => start.toList.isPrefixOf e.1.toList).map fun e => (e.1, e.2)

variable {r : LeaseStoreRegistry} {service id service' id' : String}

theorem toList_servicePrefix (r : LeaseStoreRegistry) (service : String) :
    (r.servicePrefix service).toList = r.keyPrefix.toList ++ '/' :: ((r.escape service).toList ++ ['/']) := by
  simp [servicePrefix, String.toList_append]

theorem toList_instanceKey (r : LeaseStoreRegistry) (service id : String) :
    (r.instanceKey service id).toList =
      r.keyPrefix.toList ++ '/' :: ((r.escape service).toList ++ '/' :: (r.escape id).toList) := by
  simp [instanceKey, servicePrefix, String.toList_append]

theorem instanceKey_eq_iff (hescape : Escapes r.escape) :
    r.instanceKey service id = r.instanceKey service' id' ↔ service = service' ∧ id = id' := by
  refine ⟨fun h => ?_, fun h => by rw [h.1, h.2]⟩
  have hlist := congrArg String.toList h
  rw [toList_instanceKey, toList_instanceKey] at hlist
  have hnames := (List.cons.inj (List.append_cancel_left hlist)).2
  obtain ⟨hservice, hid⟩ := append_cons_inj (hescape.slash service) (hescape.slash service') hnames
  exact ⟨hescape.injective (String.toList_inj.mp hservice), hescape.injective (String.toList_inj.mp hid)⟩

theorem servicePrefix_iff (hescape : Escapes r.escape) :
    (r.servicePrefix service).toList <+: (r.instanceKey service' id').toList ↔ service = service' := by
  rw [toList_servicePrefix, toList_instanceKey]
  constructor
  · rintro ⟨rest, hrest⟩
    rw [List.append_assoc, List.cons_append, List.append_assoc, List.singleton_append] at hrest
    have hnames := (List.cons.inj (List.append_cancel_left hrest)).2
    obtain ⟨hservice, -⟩ := append_cons_inj (hescape.slash service) (hescape.slash service') hnames
    exact hescape.injective (String.toList_inj.mp hservice)
  · rintro rfl
    refine ⟨(r.escape id').toList, ?_⟩
    simp

/-- A key names its service and its id, and is listed under its own service only. -/
theorem keys_separate_services (start : String) (escape : String → String) (hescape : Escapes escape) :
    (∀ service id service' id', (newLeaseStoreRegistry start escape).instanceKey service id =
      (newLeaseStoreRegistry start escape).instanceKey service' id' ↔ service = service' ∧ id = id') ∧
    (∀ service service' id', ((newLeaseStoreRegistry start escape).servicePrefix service).toList <+:
      ((newLeaseStoreRegistry start escape).instanceKey service' id').toList ↔ service = service') ∧
    ∀ (s : LeaseStore) service, ∀ kv ∈ listKVs s ((newLeaseStoreRegistry start escape).servicePrefix service),
      ∀ service' id', kv.1 = (newLeaseStoreRegistry start escape).instanceKey service' id' → service' = service := by
  refine ⟨fun _ _ _ _ => instanceKey_eq_iff hescape, fun _ _ _ => servicePrefix_iff hescape, ?_⟩
  intro s service kv hkv service' id' hkey
  obtain ⟨e, he, rfl⟩ := List.mem_map.mp hkv
  have hprefix := List.isPrefixOf_iff_prefix.mp (List.mem_filter.mp he).2
  rw [show e.1 = _ from hkey] at hprefix
  exact ((servicePrefix_iff hescape).mp hprefix).symm

theorem user_apart_from_user_service :
    ¬ ((newLeaseStoreRegistry "/aegis/test/" pathEscape).servicePrefix "user").toList <+:
      ((newLeaseStoreRegistry "/aegis/test/" pathEscape).instanceKey "user-service" "user/a").toList := by
  rw [(keys_separate_services "/aegis/test/" pathEscape escapes_pathEscape).2.1]
  decide

end LeaseStoreRegistry

end AegisMesh.Registry

import AegisMesh.Registry.LeaseStore
import AegisMesh.Sdk.Resolver

/-! # Which changes of a lease-store service reach a client -/

open Lib

namespace AegisMesh.Controller

open Registry Fault Sdk

structure Delivered (view view' : InstancesView) : Prop where
  sent : (sendInstancesIfChanged view' view.response.version).1 = some view'.response
  pushed : ∀ (accepts : List Address → Bool) (resolver : RegistryResolver) (cache : IdentityCache),
    resolver.lastVersion = view.response.version → accepts (addressesOf view') = true →
      (applyInstancesResponse accepts resolver cache (some view'.response)).1.pushed = some (addressesOf view')

theorem delivered_of_version_ne {view view' : InstancesView} (h : view'.response.version ≠ view.response.version) :
    Delivered view view' := by
  constructor
  · rw [sendInstancesIfChanged, if_neg h]
  · intro accepts resolver cache hlast haccepts
    have hskip : ¬ (view'.response.version ≠ 0 ∧ view'.response.version = resolver.lastVersion) := by
      rw [hlast]
      exact fun hn => h hn.2
    simp only [addressesOf] at haccepts
    simp only [applyInstancesResponse, if_neg hskip, instancesToAddresses, haccepts, Bool.not_true,
      Bool.false_eq_true, if_false, addressesOf]

/-- Two reads of one service with the same health. If the listing differs, the later view has the larger version and
is delivered exactly when a listed entry was written in between or nothing is listed any more. -/
theorem change_delivered_iff (r : LeaseStoreRegistry) (s : LeaseStore)
    (changes : List (ℕ × Change String (Option LeaseStoreRecord))) (service : String) (ctx ctx' : Ctx)
    (snap snap' : InstanceSnapshot) (h : r.snapshot s ctx service = .ok snap)
    (h' : r.snapshot (s.applyAll changes) ctx' service = .ok snap')
    (hdiff : ¬ ∀ inst, inst ∈ snap'.instances ↔ inst ∈ snap.instances) (health : HealthManager)
    (hcollision : (viewOf snap' health).response.version = (viewOf snap health).response.version →
      snap'.version = snap.version) :
    (snap.version < snap'.version ∧ Delivered (viewOf snap health) (viewOf snap' health)) ↔
      (snap'.instances = [] ∨ r.WrittenSince s (s.applyAll changes) service) := by
  have hiff := LeaseStoreRegistry.version_lt_iff (RevStore.later_applyAll changes s)
    (LeaseStoreRegistry.snapshot_spec h) (LeaseStoreRegistry.snapshot_spec h') hdiff
  constructor
  · exact fun hgrow => hiff.mp hgrow.1
  · intro hcond
    have hlt := hiff.mpr hcond
    exact ⟨hlt, delivered_of_version_ne fun heq => absurd (hcollision heq) (by omega)⟩

/-! ## A seen write and a hidden expiry -/

def plainKeys : LeaseStoreRegistry where
  keyPrefix := "/aegis"
  escape s := s

def storedAt (id address : String) : Option LeaseStoreRecord :=
  some { id, service := "svc", address, status := "HEALTHY" }

def twoInstances : LeaseStore :=
  ((RevStore.empty 0).put 0 "/aegis/svc/a" (storedAt "a" "10.0.0.1:80")).put 0 "/aegis/svc/b"
    (storedAt "b" "10.0.0.2:80")

def noHealth : HealthManager where
  calculator := newScoreCalculator {} 0
  baseStateMachine := .default

theorem new_instance_delivered :
    ∃ snap snap', plainKeys.snapshot twoInstances .background "svc" = .ok snap ∧
      plainKeys.snapshot (twoInstances.applyAll [(0, .put "/aegis/svc/c" (storedAt "c" "10.0.0.3:80"))]) .background
        "svc" = .ok snap' ∧
      ((snap.version < snap'.version ∧ Delivered (viewOf snap noHealth) (viewOf snap' noHealth)) ↔
        (snap'.instances = [] ∨ plainKeys.WrittenSince twoInstances
          (twoInstances.applyAll [(0, .put "/aegis/svc/c" (storedAt "c" "10.0.0.3:80"))]) "svc")) := by
  refine ⟨_, _, rfl, rfl, change_delivered_iff plainKeys twoInstances _ "svc" .background .background _ _ rfl rfl
    (fun hall => ?_) noHealth fun heq => absurd heq (by decide)⟩
  have hnew := (hall { id := "c", service := "svc", address := "10.0.0.3:80", status := .healthy }).mp (by decide)
  exact absurd hnew (by decide)

theorem partial_expiry_hidden :
    ∃ snap snap', plainKeys.snapshot twoInstances .background "svc" = .ok snap ∧
      plainKeys.snapshot (twoInstances.applyAll [(0, .expire ["/aegis/svc/a"])]) .background "svc" = .ok snap' ∧
      snap.instances.map Instance.id = ["a", "b"] ∧ snap'.instances.map Instance.id = ["b"] ∧
      snap.version = 2 ∧ snap'.version = 2 ∧
      (sendInstancesIfChanged (viewOf snap' noHealth) (viewOf snap noHealth).response.version).1 = none ∧
      (applyInstancesResponse (fun _ => true)
        { lastVersion := (viewOf snap noHealth).response.version, pushed := some (addressesOf (viewOf snap noHealth)) }
        ∅ (some (viewOf snap' noHealth).response)).1.pushed = some (addressesOf (viewOf snap noHealth)) := by
  refine ⟨_, _, rfl, rfl, ?_⟩
  decide

end AegisMesh.Controller

import AegisMesh.Controller.ActiveHealth

/-! # Samples without an instance id -/

open Lib

namespace AegisMesh.Controller

open Registry Fault

def withAddress (listed : List Instance) (address : String) : List Instance :=
  listed.filter fun inst => inst.address = address

theorem lookup_byAddress (listed : List Instance) (address : String) :
    (telemetryInstances listed).byAddress.lookup address =
      if address = "" then none else (withAddress listed address).getLast? := by
  induction listed using List.reverseRecOn with
  | nil => simp [telemetryInstances, withAddress]
  | append_singleton rest last ih =>
    have hsnoc : telemetryInstances (rest ++ [last]) = (telemetryInstances rest).add last := by
      simp [telemetryInstances, List.foldl_append]
    rw [hsnoc, TelemetryServiceInstances.add]
    simp only [withAddress, List.filter_append] at ih ⊢
    by_cases hempty : last.address = ""
    · rw [if_neg (by simpa using hempty), ih]
      by_cases haddress : address = ""
      · rw [if_pos haddress, if_pos haddress]
      · have hother : last.address ≠ address := by
          rw [hempty]
          exact Ne.symm haddress
        simp [haddress, hother]
    · rw [if_pos hempty, Dict.lookup_insert', ih]
      by_cases hsame : address = last.address
      · simp [hsame, hempty]
      · simp [hsame, Ne.symm hsame]

theorem nodup_instances (l : Listing) (service : String) : (l.instances service).Nodup := (l.distinct service).of_map _

variable {inst : Instance}

theorem filter_eq_singleton {listed : List Instance} (hnodup : listed.Nodup) {p : Instance → Bool}
    (hmem : inst ∈ listed) (hp : p inst = true) (hone : ∀ other ∈ listed, p other = true → other = inst) :
    listed.filter p = [inst] := by
  have hperm : (listed.filter p).Perm [inst] := by
    rw [List.perm_ext_iff_of_nodup (hnodup.filter _) (List.nodup_singleton _)]
    intro other
    simp only [List.mem_filter, List.mem_singleton]
    constructor
    · exact fun h => hone other h.1 h.2
    · rintro rfl
      exact ⟨hmem, hp⟩
  exact List.perm_singleton.mp hperm

/-! ## The loop over the ports -/

structure Listing.Apart (l : Listing) : Prop where
  addresses : ∀ {service inst other}, inst ∈ l.instances service → other ∈ l.instances service → inst.address ≠ "" →
    other.address = inst.address → other = inst
  ids : ∀ {service inst}, inst ∈ l.instances service → inst.id ≠ ""

theorem Listing.Apart.lookup {l : Listing} (h : l.Apart) {service address : String} :
    (telemetryInstances (l.instances service)).byAddress.lookup address = some inst ↔
      address ≠ "" ∧ withAddress (l.instances service) address = [inst] := by
  rw [lookup_byAddress]
  by_cases hempty : address = ""
  · simp [hempty]
  · rw [if_neg hempty]
    constructor
    · intro hlast
      have hmem := List.mem_of_getLast? hlast
      simp only [withAddress, List.mem_filter, decide_eq_true_eq] at hmem
      obtain ⟨hlisted, rfl⟩ := hmem
      refine ⟨hempty, filter_eq_singleton (nodup_instances l service) hlisted (by simp) fun other hother hsame => ?_⟩
      exact h.addresses hlisted hother hempty (by simpa using hsame)
    · rintro ⟨-, hone⟩
      rw [hone]
      rfl

end AegisMesh.Controller

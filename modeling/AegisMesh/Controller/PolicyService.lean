import AegisMesh.Controller.RegistryService
import AegisMesh.Policy.Snapshot

/-!
# The policy service of the controller (`pkg/controller/policy_service.go`)

The handlers come after authorization. A store is what its `Get` answers.
-/

open Lib

namespace AegisMesh.Controller

open Policy

abbrev PolicyStore := String → Option PolicySnapshot

def checkPolicyRequest (store : Option PolicyStore) (request : Option String) :
    Except StatusError (PolicyStore × String) :=
  match request with
  | none => .error { code := .invalidArgument, message := "service is required" }
  | some service =>
    if service = "" then .error { code := .invalidArgument, message := "service is required" }
    else
      match store with
      | none => .error { code := .notFound, message := "policy store is not configured" }
      | some store => .ok (store, service)

def policyNotFound : StatusError where
  code := .notFound
  message := "policy not found"

def getPolicy (store : Option PolicyStore) (request : Option String) : Except StatusError PolicySnapshot :=
  match checkPolicyRequest store request with
  | .error err => .error err
  | .ok (store, service) =>
    match store service with
    | none => .error policyNotFound
    | some snapshot => .ok snapshot

def deletedPolicyRevision : ℤ := -1

def deletedPolicy (service : String) : PolicySnapshot where
  service := service
  revision := deletedPolicyRevision

/-- The stream's new last revision, and what it sends. `found` is what the store has for the service. -/
def sendIfChanged (service : String) (found : Option PolicySnapshot) (lastRevision : ℤ) :
    Except StatusError (ℤ × Option PolicySnapshot) :=
  match found with
  | none =>
    if lastRevision = 0 then .error policyNotFound
    else if lastRevision = deletedPolicyRevision then .ok (lastRevision, none)
    else .ok (deletedPolicyRevision, some (deletedPolicy service))
  | some snapshot =>
    if snapshot.revision = lastRevision then .ok (lastRevision, none)
    else .ok (snapshot.revision, some snapshot)

def policyMessage (service : String) : Option PolicySnapshot → PolicySnapshot
  | none => deletedPolicy service
  | some snapshot => snapshot

theorem sendIfChanged_ok {service : String} {found message : Option PolicySnapshot} {lastRevision revision : ℤ}
    (h : sendIfChanged service found lastRevision = .ok (revision, message)) :
    revision = (policyMessage service found).revision ∧
      message = if revision = lastRevision then none else some (policyMessage service found) := by
  unfold sendIfChanged at h
  split at h
  · split at h
    · cases h
    · split at h
      · rename_i hlast
        cases h
        exact ⟨hlast, (if_pos rfl).symm⟩
      · rename_i hlast
        cases h
        exact ⟨rfl, (if_neg (Ne.symm hlast)).symm⟩
  · split at h
    · rename_i hlast
      cases h
      exact ⟨hlast.symm, (if_pos rfl).symm⟩
    · rename_i hlast
      cases h
      exact ⟨rfl, (if_neg hlast).symm⟩

end AegisMesh.Controller

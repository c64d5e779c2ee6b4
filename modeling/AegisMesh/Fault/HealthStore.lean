import AegisMesh.Fault.StateMachine
import AegisMesh.Lib.PathEscape
import AegisMesh.Telemetry.Recorder

/-!
# The health store in etcd (`pkg/fault/health_store.go`)

One key for each endpoint, with a record of its health. `instancesPrefix` is what
`NewEtcdHealthStore` has made of the configured one. The reader of a key and the
writer of it use the same.
-/

namespace AegisMesh.Fault

open Lib Telemetry

structure HealthRecord where
  service : String
  instanceID : String
  address : String
  registrationEpoch : String
  state : String
  slowScore : ℚ
  consecutiveSlowWindows : ℕ
  consecutiveEjectWindows : ℕ
  lastTransitionAt : ℕ
  ejectedAt : ℕ
  updatedAt : ℕ
deriving DecidableEq

/-- What stands under a key: a record, or bytes that `json.Unmarshal` answers with an error. -/
abbrev HealthValue := Except String HealthRecord

def encodeHealth (endpoint : EndpointHealth) : HealthRecord where
  service := endpoint.service
  instanceID := endpoint.instanceID
  address := endpoint.address
  registrationEpoch := endpoint.registrationEpoch
  state := endpoint.state.normalized.string
  slowScore := endpoint.slowScore
  consecutiveSlowWindows := endpoint.consecutiveSlowWindows
  consecutiveEjectWindows := endpoint.consecutiveEjectWindows
  lastTransitionAt := endpoint.lastTransitionAt
  ejectedAt := endpoint.ejectedAt
  updatedAt := endpoint.updatedAt

def decodeHealth : HealthValue → Except String EndpointHealth
  | .error err => .error err
  | .ok record =>
    if record.service = "" ∨ record.instanceID = "" then .error "health snapshot missing service or instance id"
    else
      .ok
        { service := record.service
          instanceID := record.instanceID
          address := record.address
          registrationEpoch := record.registrationEpoch
          state := (Code.parse record.state).normalized
          slowScore := record.slowScore
          consecutiveSlowWindows := record.consecutiveSlowWindows
          consecutiveEjectWindows := record.consecutiveEjectWindows
          lastTransitionAt := record.lastTransitionAt
          ejectedAt := record.ejectedAt
          updatedAt := record.updatedAt }

theorem decodeHealth_encodeHealth {health : EndpointHealth} (hservice : health.service ≠ "")
    (hid : health.instanceID ≠ "") :
    decodeHealth (.ok (encodeHealth health)) = .ok { health with state := health.state.normalized } := by
  have hstate : (Code.parse health.state.normalized.string).normalized = health.state.normalized := by
    rw [Code.parse_string]
    cases health.state <;> rfl
  simp [decodeHealth, encodeHealth, hservice, hid, hstate]

structure EtcdHealthStore where
  instancesPrefix : String

namespace EtcdHealthStore

variable (s : EtcdHealthStore) {service instanceID : String}

/-- `HealthInstanceKey`. The names lose the blanks around them. -/
def healthInstanceKey (service instanceID : String) : String :=
  s.instancesPrefix ++ pathEscape (trimSpace service) ++ "/instances/" ++ pathEscape (trimSpace instanceID)

def nameOf (segment : List Char) : Option String :=
  match pathUnescapeText (String.ofList segment) with
  | none => none
  | some name => if segment = [] ∨ name = "" then none else some name

def healthIdentityFromKey (key : String) : Option (String × String) :=
  if !s.instancesPrefix.toList.isPrefixOf key.toList then none
  else
    match (key.toList.drop s.instancesPrefix.toList.length).splitOn '/' with
    | [service, kind, instanceID] =>
      if kind ≠ "instances".toList then none
      else
        match nameOf service, nameOf instanceID with
        | some service, some instanceID => some (service, instanceID)
        | _, _ => none
    | _ => none

def healthFromKV (key : String) (value : HealthValue) : Except String (EndpointHealth × Bool) :=
  match s.healthIdentityFromKey key with
  | none => .ok ({}, false)
  | some (service, instanceID) =>
    match decodeHealth value with
    | .error err => .error ("decode health " ++ service ++ "/" ++ instanceID ++ ": " ++ err)
    | .ok health => .ok ({ health with service, instanceID }, true)

/-! ## Keys and their names -/

theorem pathEscape_ne_empty {name : String} (h : name ≠ "") : (pathEscape name).toList ≠ [] := by
  intro hnil
  have hempty : pathEscape name = pathEscape "" := by
    rw [← String.toList_inj, hnil]
    rfl
  exact h (pathEscape_injective hempty)

theorem nameOf_pathEscape {name : String} (h : name ≠ "") : nameOf (pathEscape name).toList = some name := by
  simp [nameOf, pathUnescapeText_pathEscape, pathEscape_ne_empty h, h]

theorem healthIdentityFromKey_key (hservice : trimSpace service ≠ "") (hid : trimSpace instanceID ≠ "") :
    s.healthIdentityFromKey (s.healthInstanceKey service instanceID) = some (trimSpace service, trimSpace instanceID) := by
  have hlist : (s.healthInstanceKey service instanceID).toList = s.instancesPrefix.toList ++
      ((pathEscape (trimSpace service)).toList ++ '/' :: ("instances".toList ++ '/' ::
        (pathEscape (trimSpace instanceID)).toList)) := by
    simp [healthInstanceKey, String.toList_append]
  have hsplit : ((pathEscape (trimSpace service)).toList ++ '/' :: ("instances".toList ++ '/' ::
      (pathEscape (trimSpace instanceID)).toList)).splitOn '/' =
        [(pathEscape (trimSpace service)).toList, "instances".toList, (pathEscape (trimSpace instanceID)).toList] := by
    rw [List.splitOn_append_cons_self_of_not_mem (slash_not_mem_pathEscape _),
      List.splitOn_append_cons_self_of_not_mem (by decide), List.splitOn_eq_singleton (slash_not_mem_pathEscape _)]
  unfold healthIdentityFromKey
  rw [hlist, List.drop_left, hsplit, List.isPrefixOf_iff_prefix.mpr (List.prefix_append _ _)]
  simp only [Bool.not_true, Bool.false_eq_true, if_false, ne_eq, not_true, nameOf_pathEscape hservice,
    nameOf_pathEscape hid]

theorem healthIdentityFromKey_own (hservice : trimSpace service = service) (hid : trimSpace instanceID = instanceID)
    (hservice_ne : service ≠ "") (hid_ne : instanceID ≠ "") :
    s.healthIdentityFromKey (s.healthInstanceKey service instanceID) = some (service, instanceID) := by
  rw [s.healthIdentityFromKey_key (by rwa [hservice]) (by rwa [hid]), hservice, hid]

theorem healthFromKV_updatedAt (hservice : trimSpace service ≠ "") (hid : trimSpace instanceID ≠ "")
    {record : HealthRecord} {health : EndpointHealth} {ok : Bool}
    (h : s.healthFromKV (s.healthInstanceKey service instanceID) (.ok record) = .ok (health, ok)) :
    health.updatedAt = record.updatedAt := by
  unfold healthFromKV at h
  rw [s.healthIdentityFromKey_key hservice hid] at h
  unfold decodeHealth at h
  dsimp only at h
  split at h
  · cases h
  · rename_i hdecoded
    split at hdecoded
    · cases hdecoded
    · cases hdecoded
      cases h
      rfl

end EtcdHealthStore

end AegisMesh.Fault

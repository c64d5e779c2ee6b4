import Mathlib.Data.String.Basic
import AegisMesh.Lib.Dict
import AegisMesh.Lib.Sorted
import AegisMesh.Registry.Basic

/-!
# The in-memory registry (`pkg/registry/registry.go`)

One definition per Go function. A function takes the clock reading and the minted
strings that it would draw, and returns the registry it leaves behind. A pointer to
a `serviceState` is followed through the map that holds it.
-/

open Lib

namespace AegisMesh.Registry

structure Record where
  inst : Instance
  expiresAt : ℕ
  generation : ℕ
deriving DecidableEq

def Record.renew (record : Record) (now : ℕ) (ttl : ℤ) (generation : ℕ) : Record where
  inst := { record.inst with lastSeen := now }
  expiresAt := addTTL now ttl
  generation := generation

structure InstanceSnapshot where
  service : String
  version : ℕ := 0
  instances : List Instance
  nextExpiresAt : ℕ := 0
deriving DecidableEq

/-- `notify` counts the channels closed so far: a watcher that holds channel `k`
has been woken once `k < notify`. -/
structure ServiceState where
  records : Dict String Record
  snapshot : InstanceSnapshot
  version : ℕ := 0
  notify : ℕ := 0

structure ExpiryEntry where
  service : String
  id : String
  expiresAt : ℕ
  generation : ℕ
deriving DecidableEq

structure ExpiredRecord where
  service : String
  id : String
deriving DecidableEq

/-- `expiryHeap`. `container/heap` promises only that the root is a smallest entry. -/
abbrev ExpiryHeap := PQueue (ExpiryEntry.expiresAt)

structure MemoryRegistry where
  services : Dict String ServiceState := ∅
  expiries : ExpiryHeap := PQueue.empty
  generation : ℕ := 0

/-! ## One service -/

def newServiceState (service : String) : ServiceState where
  records := ∅
  snapshot := { service, instances := [] }

def liveRecords (records : Dict String Record) (now : ℕ) : List Record :=
  (Dict.values records).filter fun record => now < record.expiresAt

def nextExpiry (recs : List Record) : ℕ :=
  recs.foldl (fun next record => if next = 0 ∨ record.expiresAt < next then record.expiresAt else next) 0

def listing (records : Dict String Record) (now : ℕ) : List Instance :=
  sortBy Instance.id ((liveRecords records now).map Record.inst)

def ServiceState.rebuildSnapshotLocked (s : ServiceState) (service : String) (now : ℕ) :
    ServiceState :=
  { s with
    version := s.version + 1
    snapshot :=
      { service
        version := s.version + 1
        instances := listing s.records now
        nextExpiresAt := nextExpiry (liveRecords s.records now) }
    notify := s.notify + 1 }

def snapshotNeedsExpiry (snapshot : InstanceSnapshot) (now : ℕ) : Bool :=
  snapshot.nextExpiresAt ≠ 0 && !(now < snapshot.nextExpiresAt)

def ServiceState.sweepExpired (s : ServiceState) (service : String) (now : ℕ) :
    ServiceState × ℕ :=
  let kept := Dict.filter (fun _ record => now < record.expiresAt) s.records
  let expired := s.records.entries.length - kept.entries.length
  if 0 < expired then ({ s with records := kept }.rebuildSnapshotLocked service now, expired)
  else (s, 0)

namespace MemoryRegistry

/-! ## The expiry heap -/

def pushExpiry (r : MemoryRegistry) (entry : ExpiryEntry) : MemoryRegistry :=
  { r with expiries := r.expiries.push entry }

def popExpired (r : MemoryRegistry) (now : ℕ) : Option (ExpiryEntry × MemoryRegistry) :=
  match r.expiries.pop with
  | none => none
  | some (entry, rest) =>
    if now < entry.expiresAt then none else some (entry, { r with expiries := rest })

/-! ## Writing one service -/

def serviceState (r : MemoryRegistry) (service : String) : ServiceState :=
  (r.services.lookup service).getD (newServiceState service)

def lease (r : MemoryRegistry) (service id : String) : Option Record :=
  (r.services.lookup service).bind fun s => s.records.lookup id

def setService (r : MemoryRegistry) (service : String) (s : ServiceState) : MemoryRegistry :=
  { r with services := r.services.insert service s }

def putRecord (r : MemoryRegistry) (record : Record) (now : ℕ) : MemoryRegistry :=
  let s := r.serviceState record.inst.service
  r.setService record.inst.service
    ({ s with records := s.records.insert record.inst.id record }.rebuildSnapshotLocked record.inst.service now)

def entryOf (record : Record) : ExpiryEntry where
  service := record.inst.service
  id := record.inst.id
  expiresAt := record.expiresAt
  generation := record.generation

/-! ## Register and heartbeat -/

def registerAt (r : MemoryRegistry) (ctx : Ctx) (inst : Instance) (ttl : ℤ) (now : ℕ)
    (epoch token : String) : MemoryRegistry × Option RegistryError :=
  if ctx 0 then (r, some .context)
  else if !inst.named then (r, some .invalidInstance)
  else if ttl ≤ 0 then (r, some .invalidInstance)
  else
    let inst := { inst with
      status := inst.status.normalized
      lastSeen := now
      registrationEpoch := epoch
      ownerToken := token
      labels := cloneLabels inst.labels }
    let record : Record := { inst, expiresAt := addTTL now ttl, generation := r.generation + 1 }
    (({ r with generation := r.generation + 1 }.putRecord record now).pushExpiry (entryOf record), none)

/-- The fence of a heartbeat: `some` error when the record is not the caller's. -/
def checkFence (record : Record) (registrationEpoch ownerToken : String) (requireEpoch requireOwner : Bool) :
    Option RegistryError :=
  if requireEpoch && record.inst.registrationEpoch ≠ registrationEpoch then some .registrationEpochMismatch
  else if requireOwner && record.inst.ownerToken ≠ ownerToken then some .registrationEpochMismatch
  else none

def validateHeartbeatWithOwner (r : MemoryRegistry) (ctx : Ctx) (service id registrationEpoch ownerToken : String)
    (ttl : ℤ) (requireEpoch requireOwner : Bool) : Option RegistryError :=
  if ctx 0 then some .context
  else if service = "" ∨ id = "" ∨ ttl ≤ 0 then some .invalidInstance
  else
    match r.services.lookup service with
    | none => some .instanceNotFound
    | some s =>
      match s.records.lookup id with
      | none => some .instanceNotFound
      | some record => checkFence record registrationEpoch ownerToken requireEpoch requireOwner

def heartbeatAtWithOwner (r : MemoryRegistry) (ctx : Ctx) (service id registrationEpoch ownerToken : String)
    (ttl : ℤ) (now : ℕ) (requireEpoch requireOwner : Bool) : MemoryRegistry × Option RegistryError :=
  if ctx 0 then (r, some .context)
  else if service = "" ∨ id = "" ∨ ttl ≤ 0 then (r, some .invalidInstance)
  else
    match r.services.lookup service with
    | none => (r, some .instanceNotFound)
    | some s =>
      -- The generation is drawn before the record is looked up, so a failure uses one up.
      let r := { r with generation := r.generation + 1 }
      match s.records.lookup id with
      | none => (r, some .instanceNotFound)
      | some record =>
        match checkFence record registrationEpoch ownerToken requireEpoch requireOwner with
        | some err => (r, some err)
        | none =>
          let record := record.renew now ttl r.generation
          let s := { s with records := s.records.insert id record }.rebuildSnapshotLocked service now
          ((r.setService service s).pushExpiry
            { service, id, expiresAt := record.expiresAt, generation := record.generation }, none)

def heartbeatAt (r : MemoryRegistry) (ctx : Ctx) (service id : String) (ttl : ℤ) (now : ℕ) :
    MemoryRegistry × Option RegistryError :=
  r.heartbeatAtWithOwner ctx service id "" "" ttl now false false

def heartbeatWithEpoch (r : MemoryRegistry) (ctx : Ctx) (service id registrationEpoch : String)
    (ttl : ℤ) (now : ℕ) : MemoryRegistry × Option RegistryError :=
  if registrationEpoch = "" then (r, some .invalidInstance)
  else r.heartbeatAtWithOwner ctx service id registrationEpoch "" ttl now true false

def heartbeatWithOwner (r : MemoryRegistry) (ctx : Ctx) (service id registrationEpoch ownerToken : String)
    (ttl : ℤ) (now : ℕ) : MemoryRegistry × Option RegistryError :=
  if registrationEpoch = "" ∨ ownerToken = "" then (r, some .invalidInstance)
  else r.heartbeatAtWithOwner ctx service id registrationEpoch ownerToken ttl now true true

/-! ## Reading -/

/-- `Snapshot`. Reading an expired snapshot deletes the expired records first, unless
the context is done by then. -/
def snapshot (r : MemoryRegistry) (ctx : Ctx) (service : String) (now : ℕ) :
    MemoryRegistry × Except RegistryError InstanceSnapshot :=
  if ctx 0 then (r, .error .context)
  else if service = "" then (r, .error .invalidInstance)
  else
    match r.services.lookup service with
    | none => (r, .ok { service, instances := [] })
    | some s =>
      if snapshotNeedsExpiry s.snapshot now && !ctx 1 then
        let s := (s.sweepExpired service now).1
        (r.setService service s, .ok s.snapshot)
      else (r, .ok s.snapshot)

def list (r : MemoryRegistry) (ctx : Ctx) (service : String) (now : ℕ) :
    MemoryRegistry × Except RegistryError (List Instance) :=
  let (r, result) := r.snapshot ctx service now
  (r, result.map InstanceSnapshot.instances)

/-! ## Sweeping -/

def deleteFrom (r : MemoryRegistry) (service id : String) : MemoryRegistry :=
  let s := r.serviceState service
  r.setService service { s with records := s.records.erase id }

def isDue (r : MemoryRegistry) (entry : ExpiryEntry) (now : ℕ) : Bool :=
  match r.lease entry.service entry.id with
  | none => false
  | some record => record.generation = entry.generation && !(now < record.expiresAt)

/-- The loop of `sweepExpiredRecords`. Each turn pops an entry, so `fuel` is the heap's size. -/
def sweepLoop (now : ℕ) : ℕ → Ctx → MemoryRegistry → List ExpiredRecord → MemoryRegistry × List ExpiredRecord
  | 0, _, r, expired => (r, expired)
  | fuel + 1, ctx, r, expired =>
    match r.popExpired now with
    | none => (r, expired)
    | some (entry, r) =>
      -- A context that is done here has already cost the popped entry.
      if ctx 0 then (r, expired)
      else if r.isDue entry now then
        sweepLoop now fuel (ctx.after 1) (r.deleteFrom entry.service entry.id)
          (expired ++ [{ service := entry.service, id := entry.id }])
      else sweepLoop now fuel (ctx.after 1) r expired

def rebuildService (now : ℕ) (r : MemoryRegistry) (service : String) : MemoryRegistry :=
  r.setService service ((r.serviceState service).rebuildSnapshotLocked service now)

def sweepExpiredRecords (r : MemoryRegistry) (ctx : Ctx) (now : ℕ) : MemoryRegistry × List ExpiredRecord :=
  if ctx 0 then (r, [])
  else
    let (r, expired) := sweepLoop now r.expiries.entries.length (ctx.after 1) r []
    ((expired.map ExpiredRecord.service).dedup.foldl (rebuildService now) r, expired)

def sweepExpired (r : MemoryRegistry) (ctx : Ctx) (now : ℕ) : MemoryRegistry × ℕ :=
  let (r, expired) := r.sweepExpiredRecords ctx now
  (r, expired.length)

/-! ## Replay -/

def deleteRecord (r : MemoryRegistry) (service id : String) (now : ℕ) : MemoryRegistry × Bool :=
  match r.services.lookup service with
  | none => (r, false)
  | some s =>
    match s.records.lookup id with
    | none => (r, false)
    | some _ =>
      (r.setService service ({ s with records := s.records.erase id }.rebuildSnapshotLocked service now), true)

def restoredInstance (inst : Instance) (epoch token : String) : Instance :=
  { inst with
    status := inst.status.normalized
    registrationEpoch := if inst.registrationEpoch = "" then epoch else inst.registrationEpoch
    ownerToken := if inst.ownerToken = "" then token else inst.ownerToken
    labels := cloneLabels inst.labels }

/-- `restoreRecord`. `filterNow` and `now` are its two clock readings; the first is
used only by the filter. -/
def restoreRecord (r : MemoryRegistry) (inst : Instance) (expiresAt : ℕ) (filterExpired : Bool)
    (filterNow now : ℕ) (epoch token : String) : MemoryRegistry :=
  if !inst.named then r
  else if filterExpired && !(filterNow < expiresAt) then r
  else
    let record : Record := { inst := restoredInstance inst epoch token, expiresAt, generation := r.generation + 1 }
    ({ r with generation := r.generation + 1 }.putRecord record now).pushExpiry (entryOf record)

def restoreHistorical (r : MemoryRegistry) (inst : Instance) (expiresAt now : ℕ) (epoch token : String) :
    MemoryRegistry :=
  r.restoreRecord inst expiresAt false now now epoch token

end MemoryRegistry

end AegisMesh.Registry

import Mathlib.Algebra.GroupWithZero.Nat
import Mathlib.Data.Prod.Lex
import AegisMesh.Registry.Memory

/-!
# The log-backed registry (`pkg/registry/file_registry_v2.go`)

The two files are kept as what a reader of them gets back: a list of snapshot
records, and a list of log records. Sync mode is `always` and no file operation
fails, so an acknowledged record is in the file.

`Env` is what the process draws from outside. A clock reading is never Go's zero
time, so the encoder's fallback for a zero timestamp is not reached.
-/

open Lib

namespace AegisMesh.Registry

structure Env where
  clock : ℕ → ℕ
  mint : ℕ → String
  clock_mono : Monotone clock
  clock_pos : ∀ n, 0 < clock n
  mint_ne : ∀ n, mint n ≠ ""

/-! ## Log records -/

inductive WALOp
  | register
  | heartbeat
  | deleteExpired
  | snapshotMark
deriving DecidableEq, Repr

structure RegisterPayload where
  status : String := ""
  labels : Labels := none
  registrationEpoch : String := ""
  ownerToken : String := ""
deriving DecidableEq

def RegisterPayload.marshalled (p : RegisterPayload) : RegisterPayload :=
  { p with labels := if p.labels.pairs = ∅ then none else p.labels }

/-- `payload` is `none` where the Go record has no payload bytes. -/
structure WALRecord where
  op : WALOp
  timestamp : ℕ
  service : String := ""
  id : String := ""
  address : String := ""
  ttl : ℤ := 0
  payload : Option RegisterPayload := none
deriving DecidableEq

def newRegisterWALRecord (inst : Instance) (ttl : ℤ) (now : ℕ) : WALRecord where
  op := .register
  timestamp := now
  service := inst.service
  id := inst.id
  address := inst.address
  ttl := ttl
  payload := some (RegisterPayload.marshalled
    { status := inst.status.string
      labels := inst.labels
      registrationEpoch := inst.registrationEpoch
      ownerToken := inst.ownerToken })

def newHeartbeatWALRecord (service id : String) (ttl : ℤ) (now : ℕ) : WALRecord where
  op := .heartbeat
  timestamp := now
  service := service
  id := id
  ttl := ttl

def newDeleteExpiredWALRecord (service id : String) (now : ℕ) : WALRecord where
  op := .deleteExpired
  timestamp := now
  service := service
  id := id

def newSnapshotMarkWALRecord (now : ℕ) : WALRecord where
  op := .snapshotMark
  timestamp := now

def WALRecord.registered (record : WALRecord) : Instance :=
  let payload := record.payload.getD {}
  { id := record.id
    service := record.service
    address := record.address
    status := (Code.parse payload.status).normalized
    labels := payload.labels
    lastSeen := record.timestamp
    registrationEpoch := payload.registrationEpoch
    ownerToken := payload.ownerToken }

/-- `payloadLen` is the length of a payload's JSON text. -/
structure FileConfig where
  compactBytes : ℤ
  payloadLen : RegisterPayload → ℕ

def maxNameLen : ℕ := 0xffff

def maxFileRegistryPayloadLen : ℕ := 1 <<< 20

def FileConfig.payloadBytes (cfg : FileConfig) (record : WALRecord) : ℕ :=
  (record.payload.map cfg.payloadLen).getD 0

/-- The size check of `encodeFileRegistryWALRecord`. -/
def FileConfig.encodes (cfg : FileConfig) (record : WALRecord) : Bool :=
  record.service.utf8ByteSize ≤ maxNameLen && record.id.utf8ByteSize ≤ maxNameLen &&
    record.address.utf8ByteSize ≤ maxNameLen && cfg.payloadBytes record ≤ maxFileRegistryPayloadLen

def FileConfig.frameLen (cfg : FileConfig) (record : WALRecord) : ℕ :=
  32 + (record.service.utf8ByteSize + record.id.utf8ByteSize + record.address.utf8ByteSize +
    cfg.payloadBytes record) + 4

/-- The checks of `parseFileRegistryWALHeader` on a frame that its encoder wrote. -/
def WALRecord.parses (record : WALRecord) : Bool :=
  match record.op with
  | .register => record.service ≠ "" && record.id ≠ "" && record.address ≠ "" && 0 < record.ttl
  | .heartbeat =>
    record.service ≠ "" && record.id ≠ "" && record.address = "" && record.payload = none && 0 < record.ttl
  | .deleteExpired =>
    record.service ≠ "" && record.id ≠ "" && record.address = "" && record.payload = none && record.ttl = 0
  | .snapshotMark =>
    record.service = "" && record.id = "" && record.address = "" && record.payload = none && record.ttl = 0

/-! ## The registry -/

structure FileRecord where
  inst : Instance
  expiresAt : ℕ
deriving DecidableEq

structure Files where
  snapshot : List FileRecord := []
  wal : List WALRecord := []

/-- `ticks` and `minted` count the draws made so far. -/
structure FileRegistryV2 where
  memory : MemoryRegistry := {}
  files : Files := {}
  walSize : ℕ := 0
  ticks : ℕ := 0
  minted : ℕ := 0

def snapshotMemoryRegistry (memory : MemoryRegistry) (now : ℕ) : List FileRecord :=
  sortBy (fun record => toLex (record.inst.service, record.inst.id))
    (((Dict.values memory.services).flatMap fun s => liveRecords s.records now).map fun record =>
      { inst := record.inst, expiresAt := record.expiresAt })

namespace FileRegistryV2

variable (cfg : FileConfig) (env : Env)

def tick (r : FileRegistryV2) : FileRegistryV2 := { r with ticks := r.ticks + 1 }

/-- `Append`. The look at the context stands for the race in `submit`. -/
def append (r : FileRegistryV2) (ctx : Ctx) (record : WALRecord) : FileRegistryV2 × Option RegistryError :=
  if !cfg.encodes record then (r, some .invalidWALRecord)
  else if ctx 0 then (r, some .context)
  else
    ({ r with
      files := { r.files with wal := r.files.wal ++ [record] }
      walSize := r.walSize + cfg.frameLen record }, none)

def reset (r : FileRegistryV2) (ctx : Ctx) (mark : WALRecord) : FileRegistryV2 × Option RegistryError :=
  if ctx 0 then (r, some .context)
  else ({ r with files := { r.files with wal := [mark] }, walSize := cfg.frameLen mark }, none)

def compact (r : FileRegistryV2) (ctx : Ctx) : FileRegistryV2 × Option RegistryError :=
  if ctx 0 then (r, some .context)
  else
    let snapshot := snapshotMemoryRegistry r.memory (env.clock r.ticks)
    let r := { r.tick with files := { r.files with snapshot } }
    r.tick.reset cfg (ctx.after 1) (newSnapshotMarkWALRecord (env.clock r.ticks))

def maybeCompact (r : FileRegistryV2) (ctx : Ctx) : FileRegistryV2 × Option RegistryError :=
  if cfg.compactBytes ≤ 0 ∨ r.walSize < cfg.compactBytes then (r, none)
  else r.compact cfg env ctx

def minting (r : FileRegistryV2) (inst : Instance) : Instance :=
  { inst with
    status := inst.status.normalized
    lastSeen := env.clock r.ticks
    registrationEpoch := env.mint r.minted
    ownerToken := env.mint (r.minted + 1)
    labels := cloneLabels inst.labels }

/-- `memory.restoreHistorical`, with its reading of the clock and the two strings it may mint. -/
def restore (r : FileRegistryV2) (inst : Instance) (expiresAt : ℕ) : FileRegistryV2 :=
  { r with
    memory := r.memory.restoreHistorical inst expiresAt (env.clock r.ticks) (env.mint r.minted)
      (env.mint (r.minted + 1))
    ticks := r.ticks + 1
    minted := r.minted + 2 }

def register (r : FileRegistryV2) (ctx : Ctx) (inst : Instance) (ttl : ℤ) : FileRegistryV2 × Option RegistryError :=
  if ctx 0 then (r, some .context)
  else if !inst.named || ttl ≤ 0 then (r, some .invalidInstance)
  else
    let now := env.clock r.ticks
    let inst := r.minting env inst
    let r := { r.tick with minted := r.minted + 2 }
    match r.append cfg (ctx.after 1) (newRegisterWALRecord inst ttl now) with
    | (r, some err) => (r, some err)
    | (r, none) => (r.restore env inst (addTTL now ttl)).maybeCompact cfg env (ctx.after 2)

def heartbeatFenced (r : FileRegistryV2) (ctx : Ctx) (service id registrationEpoch ownerToken : String) (ttl : ℤ)
    (requireEpoch requireOwner : Bool) : FileRegistryV2 × Option RegistryError :=
  if ctx 0 then (r, some .context)
  else if service = "" ∨ id = "" ∨ ttl ≤ 0 then (r, some .invalidInstance)
  else
    let now := env.clock r.ticks
    let r := r.tick
    match r.memory.validateHeartbeatWithOwner .background service id registrationEpoch ownerToken ttl
        requireEpoch requireOwner with
    | some err => (r, some err)
    | none =>
      match r.append cfg (ctx.after 1) (newHeartbeatWALRecord service id ttl now) with
      | (r, some err) => (r, some err)
      | (r, none) =>
        match r.memory.heartbeatAtWithOwner .background service id registrationEpoch ownerToken ttl now
            requireEpoch requireOwner with
        | (memory, some err) => ({ r with memory }, some err)
        | (memory, none) => { r with memory }.maybeCompact cfg env (ctx.after 2)

def heartbeat (r : FileRegistryV2) (ctx : Ctx) (service id : String) (ttl : ℤ) :
    FileRegistryV2 × Option RegistryError :=
  r.heartbeatFenced cfg env ctx service id "" "" ttl false false

def heartbeatWithEpoch (r : FileRegistryV2) (ctx : Ctx) (service id registrationEpoch : String) (ttl : ℤ) :
    FileRegistryV2 × Option RegistryError :=
  if registrationEpoch = "" then (r, some .invalidInstance)
  else r.heartbeatFenced cfg env ctx service id registrationEpoch "" ttl true false

def heartbeatWithOwner (r : FileRegistryV2) (ctx : Ctx) (service id registrationEpoch ownerToken : String)
    (ttl : ℤ) : FileRegistryV2 × Option RegistryError :=
  if registrationEpoch = "" ∨ ownerToken = "" then (r, some .invalidInstance)
  else r.heartbeatFenced cfg env ctx service id registrationEpoch ownerToken ttl true true

def snapshot (r : FileRegistryV2) (ctx : Ctx) (service : String) :
    FileRegistryV2 × Except RegistryError InstanceSnapshot :=
  let (memory, result) := r.memory.snapshot ctx service (env.clock r.ticks)
  ({ r.tick with memory }, result)

def list (r : FileRegistryV2) (ctx : Ctx) (service : String) :
    FileRegistryV2 × Except RegistryError (List Instance) :=
  let (r, result) := r.snapshot env ctx service
  (r, result.map InstanceSnapshot.instances)

def logExpired (r : FileRegistryV2) (expired : ExpiredRecord) : FileRegistryV2 :=
  (r.tick.append cfg .background (newDeleteExpiredWALRecord expired.service expired.id (env.clock r.ticks))).1

def sweepExpired (r : FileRegistryV2) (ctx : Ctx) : FileRegistryV2 × ℕ :=
  let (memory, expired) := r.memory.sweepExpiredRecords ctx (env.clock r.ticks)
  let r := expired.foldl (logExpired cfg env) { r.tick with memory }
  if 0 < expired.length then ((r.maybeCompact cfg env .background).1, expired.length)
  else (r, expired.length)

/-! ## Opening -/

def applyWALRecord (r : FileRegistryV2) (record : WALRecord) : Except RegistryError FileRegistryV2 :=
  match record.op with
  | .register => .ok (r.restore env record.registered (addTTL record.timestamp record.ttl))
  | .heartbeat =>
    match r.memory.heartbeatAt .background record.service record.id record.ttl record.timestamp with
    | (memory, none) => .ok { r with memory }
    | (memory, some .instanceNotFound) => .ok { r with memory }
    | (_, some err) => .error err
  | .deleteExpired =>
    .ok { r with memory := (r.memory.deleteRecord record.service record.id record.timestamp).1 }
  | .snapshotMark => .ok r

def loadSnapshot (r : FileRegistryV2) : FileRegistryV2 :=
  r.files.snapshot.foldl (fun r record => r.restore env record.inst record.expiresAt) r

/-- `replayWAL`. The first frame that does not parse ends the log, and the rest is cut off. -/
def replayWAL (r : FileRegistryV2) : Except RegistryError FileRegistryV2 :=
  let valid := r.files.wal.takeWhile WALRecord.parses
  valid.foldlM (applyWALRecord env) { r with files := { r.files with wal := valid } }

def openWAL (r : FileRegistryV2) : FileRegistryV2 :=
  { r.tick with
    memory := (r.memory.sweepExpired .background (env.clock r.ticks)).1
    walSize := (r.files.wal.map cfg.frameLen).sum }

/-- `NewFileRegistryV2` on `files`. The draws go on from `ticks` and `minted`. -/
def openFiles (files : Files) (ticks minted : ℕ) : Except RegistryError FileRegistryV2 := do
  let r ← (loadSnapshot env { files, ticks, minted }).replayWAL env
  let r := r.openWAL cfg env
  if 0 < cfg.compactBytes ∧ cfg.compactBytes ≤ r.walSize then
    match r.compact cfg env .background with
    | (r, none) => .ok r
    | (_, some err) => .error err
  else .ok r

end FileRegistryV2

/-! ## Runs -/

/-- One call on the registry, or a stop of the process followed by a new start. -/
inductive Call
  | register (ctx : Ctx) (inst : Instance) (ttl : ℤ)
  | heartbeat (ctx : Ctx) (service id : String) (ttl : ℤ)
  | heartbeatWithEpoch (ctx : Ctx) (service id registrationEpoch : String) (ttl : ℤ)
  | heartbeatWithOwner (ctx : Ctx) (service id registrationEpoch ownerToken : String) (ttl : ℤ)
  | list (ctx : Ctx) (service : String)
  | snapshot (ctx : Ctx) (service : String)
  | sweepExpired (ctx : Ctx)
  | compact (ctx : Ctx)
  | restart

namespace FileRegistryV2

variable (cfg : FileConfig) (env : Env)

def step (r : FileRegistryV2) : Call → FileRegistryV2
  | .register ctx inst ttl => (r.register cfg env ctx inst ttl).1
  | .heartbeat ctx service id ttl => (r.heartbeat cfg env ctx service id ttl).1
  | .heartbeatWithEpoch ctx service id epoch ttl => (r.heartbeatWithEpoch cfg env ctx service id epoch ttl).1
  | .heartbeatWithOwner ctx service id epoch token ttl =>
    (r.heartbeatWithOwner cfg env ctx service id epoch token ttl).1
  | .list ctx service => (r.list env ctx service).1
  | .snapshot ctx service => (r.snapshot env ctx service).1
  | .sweepExpired ctx => (r.sweepExpired cfg env ctx).1
  | .compact ctx => (r.compact cfg env ctx).1
  | .restart =>
    match openFiles cfg env r.files r.ticks r.minted with
    | .ok r' => r'
    | .error _ => r

def run (calls : List Call) : FileRegistryV2 := calls.foldl (step cfg env) {}

end FileRegistryV2

end AegisMesh.Registry

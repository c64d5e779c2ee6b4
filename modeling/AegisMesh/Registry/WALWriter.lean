import AegisMesh.Lib.Program
import AegisMesh.Registry.WALCodec

/-!
# The writer of the log (`pkg/registry/file_registry_v2.go`)

One goroutine takes the requests one after another and writes them through a `bufio.Writer`. Every write and
every sync may fail.
-/

open Lib

namespace AegisMesh.Registry.FileRegistryWAL

inductive SyncMode
  | always
  | batch
deriving DecidableEq

structure WALConfig where
  syncMode : SyncMode := .batch
  flushRecords : ℕ := 64
  flushBytes : ℕ := 64 * 1024
  requestBuffer : ℕ := 1024

inductive WALError
  | closed
  | invalid
  | context
  | io (text : String)
deriving DecidableEq

inductive RequestKind
  | append
  | reset
  | close
deriving DecidableEq

/-- `fileRegistryWALRequest`. In place of its channel stands the call that waits there. -/
structure Request where
  kind : RequestKind
  data : Bytes := []
  caller : ℕ
deriving DecidableEq

/-! ## The file -/

inductive Event
  | failed
  | truncated
  | acked (req : Request) (err : Option WALError)
deriving DecidableEq

structure Disk where
  content : Bytes
  synced : Bytes
  isOpen : Bool := true
  log : List Event := []
deriving DecidableEq

namespace Disk

def note (d : Disk) (e : Event) : Disk := { d with log := d.log ++ [e] }

def acks (d : Disk) : List Request :=
  d.log.filterMap fun
    | .acked req _ => some req
    | _ => none

def ackOf (d : Disk) (caller : ℕ) : Option (Option WALError) :=
  d.log.findSome? fun
    | .acked req err => if req.caller = caller then some err else none
    | _ => none

end Disk

inductive FileOp
  | write (p : Bytes)
  | sync
  | close
  | openTrunc
  | ack (req : Request) (err : Option WALError)

/-- A write that fails says how many bytes it has written. -/
@[reducible] def FileOp.Answer : FileOp → Type
  | .write _ => Option (ℕ × WALError)
  | .ack _ _ => Unit
  | _ => Option WALError

abbrev Fault := Option (ℕ × String)

def errClosed : WALError := .io "file already closed"

def Disk.perform (d : Disk) (fault : Fault) : (op : FileOp) → op.Answer × Disk
  | .write p =>
    if d.isOpen then
      match fault with
      | none => (none, { d with content := d.content ++ p })
      | some (n, text) => (some (n, .io text), { d with content := d.content ++ p.take n }.note .failed)
    else (some (0, errClosed), d.note .failed)
  | .sync =>
    if d.isOpen then
      match fault with
      | none => (none, { d with synced := d.content })
      | some (_, text) => (some (.io text), d.note .failed)
    else (some errClosed, d.note .failed)
  | .close =>
    if d.isOpen then (fault.map fun f => .io f.2, { d with isOpen := false }) else (some errClosed, d)
  | .openTrunc =>
    match fault with
    | none => (none, { d with content := [], synced := [], isOpen := true }.note .truncated)
    | some (_, text) => (some (.io text), d)
  | .ack req err => ((), d.note (.acked req err))

def Disk.Acts (op : FileOp) (d : Disk) (answer : op.Answer) (d' : Disk) : Prop :=
  ∃ fault, d.perform fault op = (answer, d')

abbrev Work := Program FileOp.Answer Empty

def ask (op : FileOp) : Work op.Answer := Program.ask op

/-! ## `bufio.Writer` -/

structure BufWriter where
  buffered : Bytes := []
  err : Option WALError := none
deriving DecidableEq

def bufferSize : ℕ := 64 * 1024

namespace BufWriter

def flush (b : BufWriter) : Work (BufWriter × Option WALError) :=
  match b.err with
  | some e => pure (b, some e)
  | none =>
    if b.buffered = [] then pure (b, none)
    else do
      match ← ask (.write b.buffered) with
      | none => pure ({ b with buffered := [] }, none)
      | some (n, e) => pure ({ buffered := b.buffered.drop n, err := some e }, some e)

def writeThrough (b : BufWriter) (p : Bytes) : Work (BufWriter × Option WALError) := do
  match ← ask (.write p) with
  | none => pure (b, none)
  | some (_, e) => pure ({ b with err := some e }, some e)

/-- `Write`. Its loop turns at most twice: once to fill the buffer and flush it, and once to write the rest
past it. -/
def write (b : BufWriter) (p : Bytes) : Work (BufWriter × Option WALError) :=
  match b.err with
  | some e => pure (b, some e)
  | none =>
    let room := bufferSize - b.buffered.length
    if p.length ≤ room then pure ({ b with buffered := b.buffered ++ p }, none)
    else if b.buffered = [] then b.writeThrough p
    else do
      let (b, err) ← flush { b with buffered := b.buffered ++ p.take room }
      match err with
      | some e => pure (b, some e)
      | none =>
        let rest := p.drop room
        if rest.length ≤ bufferSize then pure ({ b with buffered := b.buffered ++ rest }, none) else b.writeThrough rest

end BufWriter

/-! ## `run` -/

structure Writer where
  buf : BufWriter := {}
  pendingAcks : List Request := []
  pendingRecords : ℕ := 0
  pendingBytes : ℕ := 0
  fatalErr : Option WALError := none
deriving DecidableEq

namespace Writer

variable (w : Writer)

/-- `flush(true)`, the only way in which it is called. -/
def flush : Work (Writer × Option WALError) := do
  let (buf, err) ← (if 0 < w.buf.buffered.length then w.buf.flush else pure (w.buf, none))
  match err with
  | some e => pure ({ w with buf }, some e)
  | none =>
    match ← ask .sync with
    | some e => pure ({ w with buf }, some e)
    | none => pure ({ w with buf, pendingRecords := 0, pendingBytes := 0 }, none)

def ackAll (err : Option WALError) : List Request → Work Unit
  | [] => pure ()
  | req :: rest => do
    ask (.ack req err)
    ackAll err rest

def ackPending (err : Option WALError) : Work Writer := do
  ackAll err w.pendingAcks
  pure { w with pendingAcks := [] }

def failing : Option WALError → Writer
  | none => w
  | some e => { w with fatalErr := some e }

def shouldFlush (cfg : WALConfig) : Bool := cfg.flushRecords ≤ w.pendingRecords || cfg.flushBytes ≤ w.pendingBytes

def append (cfg : WALConfig) (req : Request) : Work Writer :=
  match w.fatalErr with
  | some e => do
    ask (.ack req (some e))
    pure w
  | none => do
    let (buf, err) ← w.buf.write req.data
    match err with
    | some e => do
      ask (.ack req (some e))
      pure { w with buf, fatalErr := some e }
    | none =>
      let w := { w with buf, pendingRecords := w.pendingRecords + 1, pendingBytes := w.pendingBytes + req.data.length }
      let w ← (match cfg.syncMode with
        | .batch => do
          ask (.ack req none)
          pure w
        | .always => pure { w with pendingAcks := w.pendingAcks ++ [req] })
      if cfg.syncMode = .always ∨ w.shouldFlush cfg then do
        let (w, err) ← w.flush
        (w.failing err).ackPending err
      else pure w

def orElse (err : Option WALError) (next : Work (Option WALError)) : Work (Option WALError) :=
  match err with
  | some e => pure (some e)
  | none => next

def writeMark (err : Option WALError) (data : Bytes) : Work (Writer × Option WALError) :=
  match err with
  | some e => pure (w, some e)
  | none => do
    let (buf, err) ← BufWriter.write {} data
    pure ({ w with buf }, err)

def flushMark (err : Option WALError) : Work (Writer × Option WALError) :=
  match err with
  | some e => pure (w, some e)
  | none => w.flush

def reset (req : Request) : Work Writer := do
  let (w, err) ← w.flush
  let w ← w.ackPending err
  let err ← orElse err (ask .close)
  let err ← orElse err (ask .openTrunc)
  let (w, err) ← w.writeMark err req.data
  let (w, err) ← w.flushMark err
  ask (.ack req err)
  pure (w.failing err)

def close (req : Request) : Work Unit := do
  let (w, err) ← w.flush
  let _ ← w.ackPending err
  let closeErr ← ask .close
  ask (.ack req (err.or closeErr))

def tick : Work Writer :=
  if w.pendingRecords = 0 ∧ w.buf.buffered = [] then pure w
  else do
    let (w, err) ← w.flush
    (w.failing err).ackPending err

def handle (cfg : WALConfig) (req : Request) : Work (Option Writer) :=
  match req.kind with
  | .append => do
    let w ← w.append cfg req
    pure (some w)
  | .reset => do
    let w ← w.reset req
    pure (some w)
  | .close => do
    w.close req
    pure none

end Writer

end AegisMesh.Registry.FileRegistryWAL

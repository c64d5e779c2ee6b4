import AegisMesh.Lib.Channel
import AegisMesh.Lib.Threads

/-!
# The trace writer (`pkg/trace/async.go`)

`Write` hands a record to a queue, and one goroutine takes the records out and writes them to
a file until `Close` stops it. Encoding and I/O succeed here.
-/

open Lib

namespace AegisMesh.Trace

structure TraceRecord where
  traceID : String := ""
  spanID : String := ""
  parentSpanID : String := ""
  timestampUnixMilli : ℤ := 0
  source : String := ""
  destination : String := ""
  method : String := ""
  route : String := ""
  path : List String := []
  upstream : String := ""
  attempt : ℤ := 0
  retryAttempts : ℤ := 0
  status : String := ""
deriving DecidableEq

def TraceRecord.stamped (record : TraceRecord) (now : ℤ) : TraceRecord :=
  if record.timestampUnixMilli = 0 then { record with timestampUnixMilli := now } else record

inductive OverflowPolicy
  | unset
  | drop
  | block
  | sample
deriving DecidableEq

structure AsyncConfig where
  queueSize : ℤ := 0
  flushRecords : ℤ := 0
  overflowPolicy : OverflowPolicy := .unset
  sampleEvery : ℤ := 0

namespace AsyncConfig

def default : AsyncConfig where
  queueSize := 4096
  flushRecords := 64
  overflowPolicy := .drop
  sampleEvery := 10

def completed (cfg : AsyncConfig) : AsyncConfig where
  queueSize := if cfg.queueSize ≤ 0 then default.queueSize else cfg.queueSize
  flushRecords := if cfg.flushRecords ≤ 0 then default.flushRecords else cfg.flushRecords
  overflowPolicy := if cfg.overflowPolicy = .unset then .drop else cfg.overflowPolicy
  sampleEvery := if cfg.sampleEvery ≤ 0 then default.sampleEvery else cfg.sampleEvery

theorem queueSize_pos (cfg : AsyncConfig) : 0 < cfg.completed.queueSize.toNat := by
  simp only [completed, default]
  split <;> omega

end AsyncConfig

inductive Runner
  | looping
  | draining
  | ended
deriving DecidableEq

inductive Once
  | fresh
  | running
  | done
deriving DecidableEq

abbrev Item := ℕ × TraceRecord

/-- The writer with its goroutine. `stopped` tells that `stopCh` is closed, and `doneCh` is closed when the
goroutine has ended. `written` lists what was taken out of the queue. -/
structure AsyncWriter where
  queue : Channel Item
  sampleCounter : ℕ := 0
  dropped : List String := []
  once : Once := .fresh
  closed : Bool := false
  stopped : Bool := false
  runner : Runner := .looping
  pending : ℕ := 0
  buffered : List UInt8 := []
  file : List UInt8
  written : List Item := []

namespace AsyncWriter

/-! ## The goroutine -/

def bufferSize : ℕ := 4096

/-- `bufio.Writer.Write`: what does not fit goes to the file. -/
def bufferWrite (w : AsyncWriter) (p : List UInt8) : AsyncWriter :=
  let available := bufferSize - w.buffered.length
  if p.length ≤ available then { w with buffered := w.buffered ++ p }
  else if w.buffered = [] then { w with file := w.file ++ p }
  else
    let file := w.file ++ (w.buffered ++ p.take available)
    let rest := p.drop available
    if rest.length ≤ bufferSize then { w with file, buffered := rest }
    else { w with file := file ++ rest, buffered := [] }

def flush (w : AsyncWriter) : AsyncWriter :=
  if w.pending = 0 then w else { w with file := w.file ++ w.buffered, buffered := [], pending := 0 }

variable (cfg : AsyncConfig) (encode : TraceRecord → List UInt8)

def writeRecord (w : AsyncWriter) (item : Item) : AsyncWriter :=
  let w := w.bufferWrite (encode item.2)
  let w := { w with pending := w.pending + 1, written := w.written ++ [item] }
  if cfg.completed.flushRecords ≤ w.pending then w.flush else w

/-- The cases of the two selects: a record, the ticker, the stop, and the default. -/
inductive Turn
  | record
  | tick
  | stop
  | finish

def turn (w : AsyncWriter) : Turn → AsyncWriter
  | .record =>
    if w.runner = .ended then w
    else
      match w.queue.receive with
      | none => w
      | some (item, queue) => { w with queue }.writeRecord cfg encode item
  | .tick => if w.runner = .looping then w.flush else w
  | .stop => if w.runner = .looping ∧ w.stopped then { w with runner := .draining } else w
  | .finish => if w.runner = .draining ∧ w.queue.buffer = [] then { w.flush with runner := .ended } else w

/-! ## Write and Close -/

inductive Call
  | write (record : TraceRecord)
  | close
deriving DecidableEq

/-- Where a call is. A record `inSend` is with the channel. `wrote`, `dropped` and `refused` are the ends of a `Write`:
nil, nil with a drop counted, and `ErrWriterClosed`. -/
inductive Place
  | checking (record : TraceRecord)
  | sending (record : TraceRecord)
  | counting (record : TraceRecord)
  | retrying (record : TraceRecord)
  | inSend (record : TraceRecord)
  | wrote (record : TraceRecord)
  | dropped (reason : String)
  | refused
  | closing
  | storing
  | stopping
  | joining
  | closed
deriving DecidableEq

structure Thread where
  call : Call
  place : Place
deriving DecidableEq

def offer (w : AsyncWriter) (id : ℕ) (record : TraceRecord) (otherwise : AsyncWriter × Place) : AsyncWriter × Place :=
  match w.queue.trySend (id, record) with
  | some queue => ({ w with queue }, .wrote record)
  | none => otherwise

def drop (w : AsyncWriter) (reason : String) : AsyncWriter × Place :=
  ({ w with dropped := w.dropped ++ [reason] }, .dropped reason)

def movePlace (id : ℕ) (w : AsyncWriter) (place : Place) (now : ℤ) : Option (AsyncWriter × Place) :=
  match place with
  | .checking record => if w.closed then some (w, .refused) else some (w, .sending (record.stamped now))
  | .sending record =>
    match cfg.completed.overflowPolicy with
    | .block => some ({ w with queue := w.queue.send (id, record) }, .inSend record)
    | .sample => some (w.offer id record (w, .counting record))
    | _ => some (w.offer id record (w.drop "queue_full"))
  | .counting record =>
    let count := (w.sampleCounter + 1) % 2 ^ 64
    let w := { w with sampleCounter := count }
    if count % cfg.completed.sampleEvery.toNat ≠ 0 then some (w.drop "queue_full_sampled") else some (w, .retrying record)
  | .retrying record => some (w.offer id record (w.drop "queue_full"))
  | .inSend record => if (id, record) ∈ w.queue.waiting then none else some (w, .wrote record)
  | .closing =>
    match w.once with
    | .fresh => some ({ w with once := .running }, .storing)
    | .running => none
    | .done => some (w, .closed)
  | .storing => some ({ w with closed := true }, .stopping)
  | .stopping => some ({ w with stopped := true }, .joining)
  | .joining => if w.runner = .ended then some ({ w with once := .done }, .closed) else none
  | .wrote _ => none
  | .dropped _ => none
  | .refused => none
  | .closed => none

def calls : ThreadSystem AsyncWriter Thread Call ℤ Turn where
  start
    | .write record => { call := .write record, place := .checking record }
    | .close => { call := .close, place := .closing }
  move id w t now := (movePlace cfg id w t.place now).map fun (w, place) => (w, { t with place })
  outside := turn cfg encode

def newAsyncJSONLWriter (opened : List UInt8) : AsyncWriter where
  queue := .make cfg.completed.queueSize.toNat cfg.queueSize_pos
  file := opened

end AsyncWriter

end AegisMesh.Trace

import AegisMesh.Registry.Calls
import AegisMesh.Registry.FileCalls

/-!
# Registry writes that fail (`pkg/registry/file_registry_v2.go`)

`Register` and the heartbeats check, append to the log, apply to memory and compact, each in a step of its
own. A reader can sweep between any two of them, and the context can be cancelled at any moment. Files
fail in a compaction only; an append is refused with the error that an earlier one has left behind.
-/

open Lib

namespace AegisMesh.Registry

open MemoryRegistry (Beat)

inductive WriteOp
  | register (inst : Instance) (ttl : ℤ)
  | heartbeat (service id : String) (ttl : ℤ)
  | heartbeatWithEpoch (service id registrationEpoch : String) (ttl : ℤ)
  | heartbeatWithOwner (service id registrationEpoch ownerToken : String) (ttl : ℤ)

inductive WriteError
  | registry (err : RegistryError)
  | walClosed
  | io (text : String)
deriving DecidableEq

/-- `walErr` is the `fatalErr` of the goroutine that writes the log. -/
structure OpenRegistry where
  memory : MemoryRegistry := {}
  files : Files := {}
  walSize : ℕ := 0
  walErr : Option String := none
  walClosed : Bool := false

inductive Effect
  | restore (inst : Instance) (expiresAt : ℕ)
  | renew (b : Beat) (now : ℕ)

inductive WritePlace
  | entering (op : WriteOp)
  | validating (b : Beat) (now : ℕ)
  | appending (record : WALRecord) (effect : Effect)
  | applying (effect : Effect)
  | compacting
  | snapshotting
  | resetting
  | returned (err : Option WriteError)

/-- How a reset of the log ends. It fails with the old log still there, or with the new one begun. -/
inductive ResetOutcome
  | done
  | failedBefore (text : String)
  | failedAfter (text : String) (marked : Bool)

/-- What a step draws from outside. Where the context is done and the writer ready at once,
`heedCtx` is the choice of the `select` in `submit`. -/
structure WriteChoice where
  now : ℕ := 0
  epoch : String := ""
  token : String := ""
  heedCtx : Bool := true
  snapshotErr : Option String := none
  reset : ResetOutcome := .done

inductive WriteEvent
  | step (c : WriteChoice)
  | list (ctx : Ctx) (service : String) (now : ℕ)
  | cancel

/-- One call on an open registry. `cancelled` says whether its context is done. -/
structure WriteRun where
  registry : OpenRegistry
  cancelled : Bool
  place : WritePlace

namespace OpenRegistry

variable (cfg : FileConfig) {s base : OpenRegistry}

def submit (s : OpenRegistry) (cancelled : Bool) (c : WriteChoice) : Option WriteError :=
  if s.walClosed then some .walClosed
  else if cancelled && c.heedCtx then some (.registry .context)
  else none

def append (s : OpenRegistry) (cancelled : Bool) (c : WriteChoice) (record : WALRecord) :
    OpenRegistry × Option WriteError :=
  if !cfg.encodes record then (s, some (.registry .invalidWALRecord))
  else
    match s.submit cancelled c with
    | some err => (s, some err)
    | none =>
      match s.walErr with
      | some text => (s, some (.io text))
      | none =>
        ({ s with
          files := { s.files with wal := s.files.wal ++ [record] }
          walSize := s.walSize + cfg.frameLen record }, none)

def apply (s : OpenRegistry) (c : WriteChoice) : Effect → OpenRegistry × Option WriteError
  | .restore inst expiresAt =>
    ({ s with memory := s.memory.restoreRecord inst expiresAt false c.now c.now c.epoch c.token }, none)
  | .renew b now =>
    let out := s.memory.beatAt .background b now
    ({ s with memory := out.1 }, out.2.map .registry)

/-- `Reset` on the writer's side. Its error stays, and refuses every later append. -/
def reset (s : OpenRegistry) (cancelled : Bool) (c : WriteChoice) : OpenRegistry × Option WriteError :=
  let mark := newSnapshotMarkWALRecord c.now
  match s.submit cancelled c with
  | some err => (s, some err)
  | none =>
    match c.reset with
    | .done => ({ s with files := { s.files with wal := [mark] }, walSize := cfg.frameLen mark }, none)
    | .failedBefore text => ({ s with walErr := some text }, some (.io text))
    | .failedAfter text marked =>
      ({ s with
        files := { s.files with wal := if marked then [mark] else [] }
        walSize := cfg.frameLen mark
        walErr := some text }, some (.io text))

def Full (s : OpenRegistry) : Prop := ¬(cfg.compactBytes ≤ 0 ∨ s.walSize < cfg.compactBytes)

instance : Decidable (s.Full cfg) := inferInstanceAs (Decidable (¬_))

def read (s : OpenRegistry) (ctx : Ctx) (service : String) (now : ℕ) : OpenRegistry :=
  { s with memory := (s.memory.list ctx service now).1 }

end OpenRegistry

def WriteOp.enter (op : WriteOp) (cancelled : Bool) (c : WriteChoice) : WritePlace :=
  match op with
  | .register inst ttl =>
    if cancelled then .returned (some (.registry .context))
    else if !inst.named || ttl ≤ 0 then .returned (some (.registry .invalidInstance))
    else
      let inst : Instance := { inst with
        status := inst.status.normalized
        lastSeen := c.now
        registrationEpoch := c.epoch
        ownerToken := c.token
        labels := cloneLabels inst.labels }
      .appending (newRegisterWALRecord inst ttl c.now) (.restore inst (addTTL c.now ttl))
  | .heartbeat service id ttl => beat ⟨service, id, "", "", ttl, false, false⟩
  | .heartbeatWithEpoch service id epoch ttl =>
    if epoch = "" then .returned (some (.registry .invalidInstance))
    else beat ⟨service, id, epoch, "", ttl, true, false⟩
  | .heartbeatWithOwner service id epoch token ttl =>
    if epoch = "" ∨ token = "" then .returned (some (.registry .invalidInstance))
    else beat ⟨service, id, epoch, token, ttl, true, true⟩
where
  beat (b : Beat) : WritePlace :=
    if cancelled then .returned (some (.registry .context))
    else if b.service = "" ∨ b.id = "" ∨ b.ttl ≤ 0 then .returned (some (.registry .invalidInstance))
    else .validating b c.now

namespace WriteRun

variable (cfg : FileConfig) {p : WriteRun} {base : OpenRegistry}

def proceed (p : WriteRun) (out : OpenRegistry × Option WriteError) (next : WritePlace) : WriteRun :=
  match out with
  | (registry, none) => { p with registry, place := next }
  | (registry, some err) => { p with registry, place := .returned (some err) }

def advance (p : WriteRun) (c : WriteChoice) : WriteRun :=
  match p.place with
  | .entering op => { p with place := op.enter p.cancelled c }
  | .validating b now =>
    match p.registry.memory.validateHeartbeatWithOwner .background b.service b.id b.epoch b.token b.ttl
        b.requireEpoch b.requireOwner with
    | some err => { p with place := .returned (some (.registry err)) }
    | none => { p with place := .appending (newHeartbeatWALRecord b.service b.id b.ttl now) (.renew b now) }
  | .appending record effect => p.proceed (p.registry.append cfg p.cancelled c record) (.applying effect)
  | .applying effect => p.proceed (p.registry.apply c effect) .compacting
  | .compacting =>
    if p.registry.Full cfg then
      if p.cancelled then { p with place := .returned (some (.registry .context)) }
      else { p with place := .snapshotting }
    else { p with place := .returned none }
  | .snapshotting =>
    match c.snapshotErr with
    | some text => { p with place := .returned (some (.io text)) }
    | none =>
      let files := { p.registry.files with snapshot := snapshotMemoryRegistry p.registry.memory c.now }
      { p with registry := { p.registry with files }, place := .resetting }
  | .resetting => p.proceed (p.registry.reset cfg p.cancelled c) (.returned none)
  | .returned _ => p

def step (p : WriteRun) : WriteEvent → WriteRun
  | .step c => p.advance cfg c
  | .list ctx service now => { p with registry := p.registry.read ctx service now }
  | .cancel => { p with cancelled := true }

def start (s : OpenRegistry) (op : WriteOp) : WriteRun := ⟨s, false, .entering op⟩

def run (s : OpenRegistry) (op : WriteOp) (events : List WriteEvent) : WriteRun :=
  events.foldl (step cfg) (start s op)

end WriteRun

namespace OpenRegistry

variable (cfg : FileConfig) (env : Env)

def readStep (s : OpenRegistry) : WriteEvent → OpenRegistry
  | .list ctx service now => s.read ctx service now
  | _ => s

def reads (s : OpenRegistry) (events : List WriteEvent) : OpenRegistry := events.foldl readStep s

def listed (s : OpenRegistry) (service : String) (t : ℕ) : Except RegistryError (List Instance) :=
  (s.memory.list .background service t).2

def reopened (s : OpenRegistry) (service : String) : Except RegistryError (List Instance) := do
  let r ← FileRegistryV2.openFiles cfg env s.files 0 0
  (r.list env .background service).2

end OpenRegistry

/-! ## A call on its own

Without readers and without a cancellation the steps are the calls of `FileRegistryV2`. -/

namespace FileRegistryV2

variable (cfg : FileConfig) (env : Env)

def opened (r : FileRegistryV2) : OpenRegistry where
  memory := r.memory
  files := r.files
  walSize := r.walSize

def write (r : FileRegistryV2) : WriteOp → FileRegistryV2 × Option RegistryError
  | .register inst ttl => r.register cfg env .background inst ttl
  | .heartbeat service id ttl => r.heartbeat cfg env .background service id ttl
  | .heartbeatWithEpoch service id epoch ttl => r.heartbeatWithEpoch cfg env .background service id epoch ttl
  | .heartbeatWithOwner service id epoch token ttl =>
    r.heartbeatWithOwner cfg env .background service id epoch token ttl

end FileRegistryV2

namespace WriteRun

variable (cfg : FileConfig) (env : Env) {s base : OpenRegistry} {p : WriteRun}

def Reaches (r : FileRegistryV2) (place : WritePlace) (out : FileRegistryV2 × Option RegistryError) : Prop :=
  ∃ choices : List WriteChoice,
    choices.foldl (advance cfg) ⟨r.opened, false, place⟩ = ⟨out.1.opened, false, .returned (out.2.map .registry)⟩

variable {cfg}

theorem reaches_returned (r : FileRegistryV2) (err : Option RegistryError) :
    Reaches cfg r (.returned (err.map .registry)) (r, err) :=
  ⟨[], rfl⟩

theorem Reaches.head {r r' : FileRegistryV2} {place place' : WritePlace} {out : FileRegistryV2 × Option RegistryError}
    (h : Reaches cfg r' place' out) (c : WriteChoice)
    (hstep : advance cfg ⟨r.opened, false, place⟩ c = ⟨r'.opened, false, place'⟩) : Reaches cfg r place out := by
  obtain ⟨choices, hrun⟩ := h
  exact ⟨c :: choices, by rw [List.foldl_cons, hstep, hrun]⟩

theorem reaches_maybeCompact (r : FileRegistryV2) :
    Reaches cfg r .compacting (r.maybeCompact cfg env .background) := by
  by_cases hfull : cfg.compactBytes ≤ 0 ∨ (r.walSize : ℤ) < cfg.compactBytes
  · rw [FileRegistryV2.maybeCompact, if_pos hfull]
    apply (reaches_returned r none).head {}
    simp [advance, OpenRegistry.Full, FileRegistryV2.opened, hfull]
  · refine ⟨[{}, { now := env.clock r.ticks }, { now := env.clock (r.ticks + 1) }], ?_⟩
    simp only [List.foldl, advance, OpenRegistry.Full, FileRegistryV2.opened, hfull, FileRegistryV2.maybeCompact]
    rfl

theorem reaches_append (r : FileRegistryV2) (record : WALRecord) (effect : Effect)
    (next : FileRegistryV2 → FileRegistryV2 × Option RegistryError)
    (hnext : ∀ r', r'.memory = r.memory → Reaches cfg r' (.applying effect) (next r')) :
    Reaches cfg r (.appending record effect)
      (match r.append cfg .background record with
        | (r, some err) => (r, some err)
        | (r, none) => next r) := by
  by_cases henc : cfg.encodes record = true
  · simp only [FileRegistryV2.append, henc, Ctx.background]
    let appended : FileRegistryV2 := { r with
      files := { r.files with wal := r.files.wal ++ [record] }
      walSize := r.walSize + cfg.frameLen record }
    apply (hnext appended rfl).head {}
    simp [appended, advance, proceed, OpenRegistry.append, OpenRegistry.submit, FileRegistryV2.opened, henc]
  · simp only [FileRegistryV2.append, henc]
    apply (reaches_returned r (some .invalidWALRecord)).head {}
    simp [advance, proceed, OpenRegistry.append, henc]

theorem reaches_register (r : FileRegistryV2) (inst : Instance) (ttl : ℤ) :
    Reaches cfg r (.entering (.register inst ttl)) (r.register cfg env .background inst ttl) := by
  let c : WriteChoice := { now := env.clock r.ticks, epoch := env.mint r.minted, token := env.mint (r.minted + 1) }
  by_cases hargs : (!inst.named || ttl ≤ 0) = true
  · simp only [FileRegistryV2.register, Ctx.background, hargs]
    apply (reaches_returned r (some .invalidInstance)).head c
    simp only [advance, WriteOp.enter, hargs]
    rfl
  · simp only [FileRegistryV2.register, Ctx.background, hargs]
    have happended := reaches_append { r.tick with minted := r.minted + 2 }
      (newRegisterWALRecord (r.minting env inst) ttl c.now) (.restore (r.minting env inst) (addTTL c.now ttl))
      (fun r' => (r'.restore env (r.minting env inst) (addTTL c.now ttl)).maybeCompact cfg env .background)
      fun r' _ => (reaches_maybeCompact env _).head
        { now := env.clock r'.ticks, epoch := env.mint r'.minted, token := env.mint (r'.minted + 1) } rfl
    apply happended.head c
    simp only [advance, WriteOp.enter, hargs]
    rfl

def renewal (cfg : FileConfig) (env : Env) (b : Beat) (now : ℕ) (r : FileRegistryV2) :
    FileRegistryV2 × Option RegistryError :=
  match r.memory.beatAt .background b now with
  | (memory, some err) => ({ r with memory }, some err)
  | (memory, none) => { r with memory }.maybeCompact cfg env .background

theorem reaches_renewal (r : FileRegistryV2) (b : Beat) (now : ℕ)
    (hpasses : (r.memory.beatAt .background b now).2 = none) :
    Reaches cfg r (.applying (.renew b now)) (renewal cfg env b now r) := by
  unfold renewal
  rcases hbeat : r.memory.beatAt .background b now with ⟨memory, err⟩
  rw [hbeat] at hpasses
  obtain rfl : err = none := hpasses
  apply (reaches_maybeCompact env { r with memory }).head {}
  simp [advance, proceed, OpenRegistry.apply, FileRegistryV2.opened, hbeat]

/-- The check and the renewal of a heartbeat see one memory here, so that the renewal passes with the check. -/
theorem reaches_beat (r : FileRegistryV2) (op : WriteOp) (b : Beat)
    (henter : ∀ c, op.enter false c = WriteOp.enter.beat false c b) :
    Reaches cfg r (.entering op) (r.heartbeatFenced cfg env .background b.service b.id b.epoch b.token b.ttl
      b.requireEpoch b.requireOwner) := by
  by_cases hargs : b.service = "" ∨ b.id = "" ∨ b.ttl ≤ 0
  · simp only [FileRegistryV2.heartbeatFenced, Ctx.background, hargs]
    apply (reaches_returned r (some .invalidInstance)).head {}
    simp only [advance, henter, WriteOp.enter.beat, hargs]
    rfl
  have hentered : advance cfg ⟨r.opened, false, .entering op⟩ { now := env.clock r.ticks } =
      ⟨r.tick.opened, false, .validating b (env.clock r.ticks)⟩ := by
    simp only [advance, henter, WriteOp.enter.beat, hargs]
    rfl
  apply Reaches.head ?_ _ hentered
  simp only [FileRegistryV2.heartbeatFenced, Ctx.background, hargs]
  rcases hvalid : r.memory.validateHeartbeatWithOwner .background b.service b.id b.epoch b.token b.ttl b.requireEpoch
    b.requireOwner with _ | err <;> simp only [FileRegistryV2.tick, hvalid]
  · have happended := reaches_append r.tick (newHeartbeatWALRecord b.service b.id b.ttl (env.clock r.ticks))
      (.renew b (env.clock r.ticks)) (renewal cfg env b (env.clock r.ticks)) (by
        intro r' hmemory
        apply reaches_renewal
        rw [hmemory, MemoryRegistry.beatAt, MemoryRegistry.heartbeatAtWithOwner_err]
        exact hvalid)
    apply happended.head {}
    simp only [advance, FileRegistryV2.opened, FileRegistryV2.tick, hvalid]
  · apply (reaches_returned r.tick (some err)).head {}
    simp [advance, FileRegistryV2.opened, FileRegistryV2.tick, hvalid]

theorem reaches_write (r : FileRegistryV2) (op : WriteOp) : Reaches cfg r (.entering op) (r.write cfg env op) := by
  have hrefused {op : WriteOp} (h : ∀ c, op.enter false c = .returned (some (.registry .invalidInstance))) :
      Reaches cfg r (.entering op) (r, some .invalidInstance) := by
    apply (reaches_returned r (some .invalidInstance)).head {}
    simp [advance, h]
  rcases op with ⟨inst, ttl⟩ | ⟨service, id, ttl⟩ | ⟨service, id, epoch, ttl⟩ | ⟨service, id, epoch, token, ttl⟩
  · exact reaches_register env r inst ttl
  · exact reaches_beat env r _ ⟨service, id, "", "", ttl, false, false⟩ fun _ => rfl
  · simp only [FileRegistryV2.write, FileRegistryV2.heartbeatWithEpoch]
    split
    · rename_i hempty
      exact hrefused fun _ => if_pos hempty
    · rename_i hempty
      exact reaches_beat env r _ ⟨service, id, epoch, "", ttl, true, false⟩ fun _ => if_neg hempty
  · simp only [FileRegistryV2.write, FileRegistryV2.heartbeatWithOwner]
    split
    · rename_i hempty
      exact hrefused fun _ => if_pos hempty
    · rename_i hempty
      exact reaches_beat env r _ ⟨service, id, epoch, token, ttl, true, true⟩ fun _ => if_neg hempty

/-! ## No effect of a call that fails -/

variable (cfg)

def pending : WritePlace → Option Beat
  | .appending _ effect => beat effect
  | .applying effect => beat effect
  | _ => none
where
  beat : Effect → Option Beat
    | .restore _ _ => none
    | .renew b _ => some b

def Passes (memory : MemoryRegistry) (place : WritePlace) : Prop :=
  ∀ b, pending place = some b → MemoryRegistry.judge (memory.lease b.service b.id) .background b = none

/-- No reader deletes the record between the check and the renewal, and the compaction does not fail:
its context is not done when it looks, and the files can be written. -/
def Undisturbed (p : WriteRun) : WriteEvent → Prop
  | .list ctx service now => ∀ b, pending p.place = some b →
      (p.registry.read ctx service now).memory.lease b.service b.id = p.registry.memory.lease b.service b.id
  | .step c =>
    match p.place with
    | .compacting => p.registry.Full cfg → p.cancelled = false
    | .snapshotting => c.snapshotErr = none
    | .resetting => (p.cancelled && c.heedCtx) = false ∧ c.reset = .done
    | _ => True
  | .cancel => True

/-- `base` is the registry without the call. A call that is still to fail has done nothing yet. -/
def Harmless (base : OpenRegistry) (p : WriteRun) : Prop :=
  match p.place with
  | .entering _ | .validating _ _ | .returned (some _) => p.registry = base
  | .appending _ _ => p.registry = base ∧ Passes p.registry.memory p.place
  | .applying _ => p.registry.walClosed = false ∧ Passes p.registry.memory p.place
  | .compacting | .snapshotting | .resetting => p.registry.walClosed = false
  | .returned none => True

variable {cfg}

theorem enter_cases (op : WriteOp) (cancelled : Bool) (c : WriteChoice) :
    (∃ err, op.enter cancelled c = .returned (some err)) ∨
    (∃ b, op.enter cancelled c = .validating b c.now) ∨
    (∃ record inst expiresAt, op.enter cancelled c = .appending record (.restore inst expiresAt)) := by
  unfold WriteOp.enter WriteOp.enter.beat
  split <;> split_ifs <;> simp

theorem append_cases (cfg : FileConfig) (s : OpenRegistry) (cancelled : Bool) (c : WriteChoice) (record : WALRecord) :
    (∃ err, s.append cfg cancelled c record = (s, some err)) ∨
    ∃ s', s.append cfg cancelled c record = (s', none) ∧ s'.memory = s.memory ∧ s'.walClosed = false := by
  unfold OpenRegistry.append OpenRegistry.submit
  by_cases hclosed : s.walClosed = true
  · left
    split_ifs <;> simp
  · have hopen : s.walClosed = false := by simpa using hclosed
    split_ifs with henc hctx
    · exact .inl ⟨_, rfl⟩
    · exact .inl ⟨_, rfl⟩
    · rcases s.walErr with _ | text
      · exact .inr ⟨_, rfl, rfl, hopen⟩
      · exact .inl ⟨_, rfl⟩

theorem Passes.apply {effect : Effect} (h : Passes s.memory (.applying effect)) (c : WriteChoice) :
    (s.apply c effect).2 = none ∧ (s.apply c effect).1.walClosed = s.walClosed := by
  cases effect with
  | restore inst expiresAt => exact ⟨rfl, rfl⟩
  | renew b now =>
    refine ⟨?_, rfl⟩
    simp only [OpenRegistry.apply, MemoryRegistry.beatAt_err, h b rfl, Option.map_none]

theorem Harmless.advance (h : Harmless base p) (c : WriteChoice) (hok : Undisturbed cfg p (.step c)) :
    Harmless base (p.advance cfg c) := by
  rcases p with ⟨s, cancelled, place⟩
  cases place with
  | entering op =>
    rcases enter_cases op cancelled c with ⟨err, heq⟩ | ⟨b, heq⟩ | ⟨record, inst, expiresAt, heq⟩ <;>
      simp only [WriteRun.advance, heq]
    · exact h
    · exact h
    · exact ⟨h, fun b hb => nomatch hb⟩
  | validating b now =>
    have herr := s.memory.beatAt_err .background b now
    rw [MemoryRegistry.beatAt, MemoryRegistry.heartbeatAtWithOwner_err] at herr
    simp only [WriteRun.advance]
    split
    · exact h
    · rename_i hvalid
      refine ⟨h, ?_⟩
      rintro b' ⟨⟩
      exact herr.symm.trans hvalid
  | appending record effect =>
    obtain ⟨hbase, hpasses⟩ := h
    rcases append_cases cfg s cancelled c record with ⟨err, heq⟩ | ⟨s', heq, hmemory, hopen⟩ <;>
      simp only [WriteRun.advance, heq, proceed]
    · exact hbase
    · refine ⟨hopen, ?_⟩
      rw [hmemory]
      exact hpasses
  | applying effect =>
    obtain ⟨hopen, hpasses⟩ := h
    obtain ⟨hnone, hclosed⟩ := hpasses.apply c
    rcases happly : s.apply c effect with ⟨s', err⟩
    rw [happly] at hnone hclosed
    obtain rfl : err = none := hnone
    simp only [WriteRun.advance, proceed, happly]
    exact hclosed.trans hopen
  | compacting =>
    simp only [WriteRun.advance]
    split
    · rename_i hfull
      have hlive : cancelled = false := hok hfull
      subst hlive
      exact h
    · trivial
  | snapshotting =>
    have hwritten : c.snapshotErr = none := hok
    simp only [WriteRun.advance, hwritten]
    exact h
  | resetting =>
    obtain ⟨hlive, hdone⟩ := hok
    have hopen : s.walClosed = false := h
    simp only [WriteRun.advance, OpenRegistry.reset, OpenRegistry.submit, hopen, hlive, hdone, proceed]
    trivial
  | returned err => exact h

theorem Harmless.step (h : Harmless base p) (e : WriteEvent) (hok : Undisturbed cfg p e) :
    Harmless (base.readStep e) (p.step cfg e) := by
  cases e with
  | step c => exact h.advance c hok
  | cancel => exact h
  | list ctx service now =>
    rcases p with ⟨s, cancelled, place⟩
    have hpasses (h : Passes s.memory place) : Passes (s.read ctx service now).memory place := by
      intro b hb
      rw [hok b hb]
      exact h b hb
    have hread (h : s = base) : s.read ctx service now = base.read ctx service now := by rw [h]
    cases place with
    | entering op => exact hread h
    | validating b now => exact hread h
    | appending record effect => exact ⟨hread h.1, hpasses h.2⟩
    | applying effect => exact ⟨h.1, hpasses h.2⟩
    | compacting => exact h
    | snapshotting => exact h
    | resetting => exact h
    | returned err =>
      cases err with
      | none => trivial
      | some err => exact hread h

theorem harmless_run (h : Harmless base p) {events : List WriteEvent}
    (hok : Along (WriteRun.step cfg) (Undisturbed cfg) p events) :
    Harmless (base.reads events) (events.foldl (WriteRun.step cfg) p) := by
  induction events generalizing base p with
  | nil => exact h
  | cons e rest ih => exact ih (h.step e hok.1) hok.2

/-- Undisturbed, a call that returns an error leaves the lists of this process and of the next as they are without it. -/
theorem failed_write_has_no_effect (cfg : FileConfig) (env : Env) (s : OpenRegistry) (op : WriteOp)
    (events : List WriteEvent) (err : WriteError)
    (hundisturbed : Along (WriteRun.step cfg) (Undisturbed cfg) (start s op) events)
    (hfailed : (run cfg s op events).place = .returned (some err)) (service : String) (t : ℕ) :
    (run cfg s op events).registry.listed service t = (s.reads events).listed service t ∧
    (run cfg s op events).registry.reopened cfg env service = (s.reads events).reopened cfg env service := by
  have hstart : Harmless s (start s op) := rfl
  have hend := harmless_run hstart hundisturbed
  unfold Harmless at hend
  unfold run at hfailed ⊢
  rw [hfailed] at hend
  rw [show _ = s.reads events from hend]
  exact ⟨rfl, rfl⟩

/-! ### What a call that fails can leave behind -/

def thirtyEnv : Env where
  clock _ := 30
  mint _ := "minted"
  clock_mono _ _ _ := le_rfl
  clock_pos _ := by decide
  mint_ne _ := by decide

def compactingAt (compactBytes : ℤ) : FileConfig where
  compactBytes
  payloadLen _ := 0

def registerA (ttl : ℤ) : WriteOp := .register { id := "a", service := "svc", address := "h:1" } ttl

def registering : List WriteEvent :=
  [.step { now := 15, epoch := "e", token := "o" }, .step {}, .step { now := 15 }]

def cancelledLate : List WriteEvent := registering ++ [.cancel, .step {}]

def registeredA : OpenRegistry := (run (compactingAt 0) {} (registerA 10) (registering ++ [.step {}])).registry

def beatA : WriteOp := .heartbeat "svc" "a" 100

def sweptBeat : List WriteEvent :=
  [.step { now := 18 }, .step {}, .step {}, .list .background "svc" 26, .step {}]

def ids (result : Except RegistryError (List Instance)) : Except RegistryError (List String) :=
  result.map (List.map Instance.id)

theorem failed_writes_take_effect :
    ((run (compactingAt 1) {} (registerA 100) cancelledLate).place = .returned (some (.registry .context)) ∧
      ids ((run (compactingAt 1) {} (registerA 100) cancelledLate).registry.listed "svc" 30) = .ok ["a"] ∧
      ids ((({} : OpenRegistry).reads cancelledLate).listed "svc" 30) = .ok []) ∧
    ((run (compactingAt 0) registeredA beatA sweptBeat).place = .returned (some (.registry .instanceNotFound)) ∧
      ids ((run (compactingAt 0) registeredA beatA sweptBeat).registry.reopened (compactingAt 0) thirtyEnv "svc") =
        .ok ["a"] ∧
      ids ((registeredA.reads sweptBeat).reopened (compactingAt 0) thirtyEnv "svc") = .ok []) :=
  ⟨⟨rfl, by decide, by decide⟩, rfl, by decide, by decide⟩

def cancelledBeat : List WriteEvent :=
  [.step { now := 18 }, .step {}, .list .background "svc" 19, .cancel, .step {}]

theorem cancelled_beat_has_no_effect :
    (run (compactingAt 1) registeredA beatA cancelledBeat).place = .returned (some (.registry .context)) ∧
    ∀ service t,
      (run (compactingAt 1) registeredA beatA cancelledBeat).registry.listed service t =
        (registeredA.reads cancelledBeat).listed service t ∧
      (run (compactingAt 1) registeredA beatA cancelledBeat).registry.reopened (compactingAt 1) thirtyEnv service =
        (registeredA.reads cancelledBeat).reopened (compactingAt 1) thirtyEnv service := by
  have hundisturbed : Along (WriteRun.step (compactingAt 1)) (Undisturbed (compactingAt 1)) (start registeredA beatA)
      cancelledBeat := by
    refine ⟨trivial, trivial, ?_, trivial, trivial, trivial⟩
    rintro b ⟨⟩
    rfl
  exact ⟨rfl, failed_write_has_no_effect _ _ _ _ _ (.registry .context) hundisturbed rfl⟩

end WriteRun

end AegisMesh.Registry

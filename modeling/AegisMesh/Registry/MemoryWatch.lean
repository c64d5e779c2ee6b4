import AegisMesh.Lib.Threads
import AegisMesh.Registry.Calls
import AegisMesh.Registry.Versions

/-!
# Watching the in-memory registry

The calls and the watchers of one registry, one critical section or atomic operation at a time.
-/

open Lib

namespace AegisMesh.Registry

/-! ## The calls -/

inductive CallThread
  | registering (ctx : Ctx) (inst : Instance) (ttl : ℤ) (epoch token : String)
  | creating (record : Record) (now : ℕ)
  | storing (record : Record) (now : ℕ)
  | beating (ctx : Ctx) (b : MemoryRegistry.Beat)
  | drawing (b : MemoryRegistry.Beat) (now : ℕ)
  | renewing (b : MemoryRegistry.Beat) (now generation : ℕ)
  | pushing (entry : ExpiryEntry)
  | looking (ctx : Ctx) (service : String) (asked : Except RegistryError InstanceSnapshot → Answer)
  | loading (ctx : Ctx) (service : String) (asked : Except RegistryError InstanceSnapshot → Answer)
  | expiring (ctx : Ctx) (service : String) (now : ℕ) (asked : Except RegistryError InstanceSnapshot → Answer)
  | reloading (service : String) (asked : Except RegistryError InstanceSnapshot → Answer)
  | sweeping (ctx : Ctx)
  | popping (ctx : Ctx) (now : ℕ) (dirty : List String) (expired : ℕ)
  | deleting (ctx : Ctx) (now : ℕ) (dirty : List String) (expired : ℕ) (entry : ExpiryEntry)
  | rebuilding (now : ℕ) (dirty : List String) (expired : ℕ)
  | returned (answer : Answer)

/-- What the code leaves open in a step: the clock, the order of a map, whether the timer has fired, and whether the
context of a watcher is done. -/
structure StepChoice where
  now : ℕ := 0
  next : String := ""
  fired : Bool := false
  done : Bool := false

/-- A heartbeat with an empty fence returns before it looks at anything. -/
def CallThread.start (ctx : Ctx) (call : MemoryCall) : CallThread :=
  match call with
  | .register inst ttl epoch token => .registering ctx inst ttl epoch token
  | .list service => .looking ctx service fun result => .instances (result.map InstanceSnapshot.instances)
  | .snapshot service => .looking ctx service .snapshot
  | .sweepExpired => .sweeping ctx
  | call =>
    match call.beat with
    | some b => .beating ctx b
    | none => .returned (.done (some .invalidInstance))

namespace MemoryRegistry

/-- `serviceState` as `LoadOrStore`. -/
def ensureService (r : MemoryRegistry) (service : String) : MemoryRegistry :=
  match r.services.lookup service with
  | none => r.setService service (newServiceState service)
  | some _ => r

def renew (r : MemoryRegistry) (b : Beat) (now generation : ℕ) : MemoryRegistry × CallThread :=
  match r.lease b.service b.id with
  | none => (r, .returned (.done (some .instanceNotFound)))
  | some record =>
    match checkFence record b.epoch b.token b.requireEpoch b.requireOwner with
    | some err => (r, .returned (.done (some err)))
    | none =>
      let s := r.serviceState b.service
      let s := { s with records := s.records.insert b.id (record.renew now b.ttl generation) }
      (r.setService b.service (s.rebuildSnapshotLocked b.service now),
        .pushing { service := b.service, id := b.id, expiresAt := addTTL now b.ttl, generation })

def sweepService (r : MemoryRegistry) (service : String) (now : ℕ) : MemoryRegistry :=
  r.setService service ((r.serviceState service).sweepExpired service now).1

def moveCall (r : MemoryRegistry) (t : CallThread) (c : StepChoice) : Option (MemoryRegistry × CallThread) :=
  match t with
  | .registering ctx inst ttl epoch token =>
    if ctx 0 then some (r, .returned (.done (some .context)))
    else if !inst.named || ttl ≤ 0 then some (r, .returned (.done (some .invalidInstance)))
    else some ({ r with generation := r.generation + 1 }, .creating (r.newRecord inst ttl c.now epoch token) c.now)
  | .creating record now => some (r.ensureService record.inst.service, .storing record now)
  | .storing record now => some (r.putRecord record now, .pushing (entryOf record))
  | .pushing entry => some (r.pushExpiry entry, .returned (.done none))
  | .beating ctx b =>
    if ctx 0 then some (r, .returned (.done (some .context)))
    else if b.service = "" ∨ b.id = "" ∨ b.ttl ≤ 0 then some (r, .returned (.done (some .invalidInstance)))
    else
      match r.services.lookup b.service with
      | none => some (r, .returned (.done (some .instanceNotFound)))
      | some _ => some (r, .drawing b c.now)
  | .drawing b now => some ({ r with generation := r.generation + 1 }, .renewing b now (r.generation + 1))
  | .renewing b now generation => some (r.renew b now generation)
  | .looking ctx service asked =>
    if ctx 0 then some (r, .returned (asked (.error .context)))
    else if service = "" then some (r, .returned (asked (.error .invalidInstance)))
    else
      match r.services.lookup service with
      | none => some (r, .returned (asked (.ok { service, instances := [] })))
      | some _ => some (r, .loading (ctx.after 1) service asked)
  | .loading ctx service asked =>
    let snapshot := (r.serviceState service).snapshot
    if snapshotNeedsExpiry snapshot c.now then some (r, .expiring ctx service c.now asked)
    else some (r, .returned (asked (.ok snapshot)))
  | .expiring ctx service now asked =>
    some (if ctx 0 then r else r.sweepService service now, .reloading service asked)
  | .reloading service asked => some (r, .returned (asked (.ok (r.serviceState service).snapshot)))
  | .sweeping ctx =>
    if ctx 0 then some (r, .returned (.expired 0)) else some (r, .popping (ctx.after 1) c.now [] 0)
  | .popping ctx now dirty expired =>
    match r.popExpired now with
    | none => some (r, .rebuilding now dirty expired)
    | some (entry, r) =>
      if ctx 0 then some (r, .rebuilding now dirty expired)
      else some (r, .deleting (ctx.after 1) now dirty expired entry)
  | .deleting ctx now dirty expired entry =>
    if r.isDue entry now then
      some (r.deleteFrom entry.service entry.id, .popping ctx now (dirty.insert entry.service) (expired + 1))
    else some (r, .popping ctx now dirty expired)
  | .rebuilding now dirty expired =>
    if dirty = [] then some (r, .returned (.expired expired))
    else if c.next ∈ dirty then some (rebuildService now r c.next, .rebuilding now (dirty.erase c.next) expired)
    else none
  | .returned _ => none

end MemoryRegistry

/-! ## The watchers -/

structure MemoryWatcher where
  service : String
  afterVersion : ℕ
  lastVersion : ℕ
  emitted : List InstanceSnapshot := []

inductive LoopPhase
  | opening (ctx : Ctx)
  | top
  | sweeping (now : ℕ)
  | reading
  | sending (snapshot : InstanceSnapshot)
  | waiting (notify : ℕ) (timer : Bool)
  | closed

inductive RegistryThread
  | call (t : CallThread)
  | watch (w : MemoryWatcher) (phase : LoopPhase)

inductive RegistryCall
  | call (ctx : Ctx) (call : MemoryCall)
  | watch (ctx : Ctx) (service : String) (afterVersion : ℕ)

namespace MemoryRegistry

def moveWatch (r : MemoryRegistry) (w : MemoryWatcher) (phase : LoopPhase) (c : StepChoice) :
    Option (MemoryRegistry × MemoryWatcher × LoopPhase) :=
  let s := r.serviceState w.service
  match phase with
  | .opening ctx =>
    if ctx 0 || w.service = "" then some (r, w, .closed) else some (r.ensureService w.service, w, .top)
  | .top =>
    if c.done then some (r, w, .closed)
    else if snapshotNeedsExpiry s.snapshot c.now then some (r, w, .sweeping c.now)
    else some (r, w, .reading)
  | .sweeping now => some (if c.done then r else r.sweepService w.service now, w, .reading)
  | .reading =>
    if w.lastVersion < s.snapshot.version then
      some (r, { w with lastVersion := s.snapshot.version }, .sending s.snapshot)
    else some (r, w, .waiting s.notify (s.snapshot.nextExpiresAt ≠ 0))
  | .sending snapshot =>
    if c.done then some (r, w, .closed) else some (r, { w with emitted := w.emitted ++ [snapshot] }, .top)
  | .waiting notify timer =>
    if c.done then some (r, w, .closed)
    else if notify < s.notify ∨ (timer ∧ c.fired) then some (r, w, .top)
    else none
  | .closed => none

def threads : ThreadSystem MemoryRegistry RegistryThread RegistryCall StepChoice Empty where
  start
    | .call ctx call => .call (.start ctx call)
    | .watch ctx service afterVersion => .watch { service, afterVersion, lastVersion := afterVersion } (.opening ctx)
  move
    | _, r, .call t, c => (r.moveCall t c).map fun out => (out.1, .call out.2)
    | _, r, .watch w phase, c => (r.moveWatch w phase c).map fun out => (out.1, .watch out.2.1 out.2.2)
  outside _ e := nomatch e

/-! ## What a step does to a service -/

inductive Publishes (s s' : ServiceState) : Prop
  | kept (snapshot : s'.snapshot = s.snapshot) (version : s'.version = s.version) (notify : s'.notify = s.notify)
  | published (snapshot : s'.snapshot.version = s.version + 1) (version : s'.version = s.version + 1)
    (notify : s'.notify = s.notify + 1)

def Steps (r r' : MemoryRegistry) : Prop := ∀ service, Publishes (r.serviceState service) (r'.serviceState service)

variable {r r' : MemoryRegistry}

theorem Publishes.refl (s : ServiceState) : Publishes s s := .kept rfl rfl rfl

theorem Steps.refl (r : MemoryRegistry) : Steps r r := fun _ => .refl _

theorem steps_of_services (h : r'.services = r.services) : Steps r r' := by
  intro service
  rw [serviceState_congr h]
  exact .refl _

theorem steps_setService {service : String} {s : ServiceState} (h : Publishes (r.serviceState service) s) :
    Steps r (r.setService service s) := by
  intro service'
  rw [serviceState_setService]
  split
  · rename_i heq
    exact heq ▸ h
  · exact .refl _

theorem steps_rebuild (r : MemoryRegistry) (service : String) (records : Dict String Record) (now : ℕ) :
    Steps r (r.setService service
      ({ r.serviceState service with records }.rebuildSnapshotLocked service now)) :=
  steps_setService (.published rfl rfl rfl)

theorem steps_ensureService (r : MemoryRegistry) (service : String) : Steps r (r.ensureService service) := by
  unfold ensureService
  cases h : r.services.lookup service with
  | none =>
    refine steps_setService (.kept ?_ ?_ ?_) <;> simp [serviceState, h]
  | some s => exact .refl r

theorem steps_sweepService (r : MemoryRegistry) (service : String) (now : ℕ) : Steps r (r.sweepService service now) := by
  refine steps_setService ?_
  unfold ServiceState.sweepExpired
  dsimp only
  split
  · exact .published rfl rfl rfl
  · exact .refl _

theorem steps_deleteFrom (r : MemoryRegistry) (service id : String) : Steps r (r.deleteFrom service id) :=
  steps_setService (.kept rfl rfl rfl)

theorem steps_renew (r : MemoryRegistry) (b : Beat) (now generation : ℕ) : Steps r (r.renew b now generation).1 := by
  unfold renew
  split
  · exact .refl r
  · split
    · exact .refl r
    · exact steps_rebuild r b.service _ now

theorem steps_moveCall {t t' : CallThread} {c : StepChoice} (h : r.moveCall t c = some (r', t')) : Steps r r' := by
  unfold moveCall at h
  cases t with
  | registering ctx inst ttl epoch token =>
    dsimp only at h
    split_ifs at h <;> cases h
    · exact .refl r
    · exact .refl r
    · exact steps_of_services rfl
  | creating record now =>
    cases h
    exact steps_ensureService r _
  | storing record now =>
    cases h
    exact steps_rebuild r _ _ now
  | pushing entry =>
    cases h
    exact steps_of_services rfl
  | beating ctx b =>
    dsimp only at h
    split_ifs at h
    · cases h
      exact .refl r
    · cases h
      exact .refl r
    · split at h <;> cases h <;> exact .refl r
  | drawing b now =>
    cases h
    exact steps_of_services rfl
  | renewing b now generation =>
    have hsteps := steps_renew r b now generation
    rw [Option.some.inj h] at hsteps
    exact hsteps
  | looking ctx service asked =>
    dsimp only at h
    split_ifs at h
    · cases h
      exact .refl r
    · cases h
      exact .refl r
    · split at h <;> cases h <;> exact .refl r
  | loading ctx service asked =>
    dsimp only at h
    split_ifs at h <;> cases h <;> exact .refl r
  | expiring ctx service now asked =>
    cases h
    split
    · exact .refl r
    · exact steps_sweepService r service now
  | reloading service asked =>
    cases h
    exact .refl r
  | sweeping ctx =>
    dsimp only at h
    split_ifs at h <;> cases h <;> exact .refl r
  | popping ctx now dirty expired =>
    dsimp only at h
    split at h
    · cases h
      exact .refl r
    · rename_i hpop
      split_ifs at h <;> cases h <;> exact steps_of_services (popExpired_services hpop)
  | deleting ctx now dirty expired entry =>
    dsimp only at h
    split_ifs at h <;> cases h
    · exact steps_deleteFrom r _ _
    · exact .refl r
  | rebuilding now dirty expired =>
    dsimp only at h
    split_ifs at h <;> cases h
    · exact .refl r
    · exact steps_rebuild r _ _ now
  | returned answer => cases h

end MemoryRegistry

/-! ## What holds of a watcher -/

def MemoryWatcher.lastEmitted (w : MemoryWatcher) : ℕ := (w.emitted.map InstanceSnapshot.version).getLastD w.afterVersion

namespace MemoryRegistry

variable {r r' : MemoryRegistry} {w w' : MemoryWatcher} {phase phase' : LoopPhase}

def Awake (r : MemoryRegistry) (w : MemoryWatcher) (notify : ℕ) : Prop :=
  (r.published w.service).version ≤ w.lastVersion ∧ notify = (r.serviceState w.service).notify ∨
    notify < (r.serviceState w.service).notify

def InPhase (r : MemoryRegistry) (w : MemoryWatcher) : LoopPhase → Prop
  | .sending snapshot => w.lastVersion = snapshot.version ∧ w.lastEmitted < snapshot.version
  | .waiting notify _ => w.lastVersion = w.lastEmitted ∧ r.Awake w notify
  | .closed => True
  | _ => w.lastVersion = w.lastEmitted

structure Watches (r : MemoryRegistry) (w : MemoryWatcher) (phase : LoopPhase) : Prop where
  increasing : (w.afterVersion :: w.emitted.map InstanceSnapshot.version).IsChain (· < ·)
  inPhase : r.InPhase w phase

theorem Awake.steps {notify : ℕ} (h : r.Awake w notify) (hsteps : Steps r r') : r'.Awake w notify := by
  unfold Awake published at h ⊢
  cases hsteps w.service with
  | kept hsnapshot hversion hnotify =>
    rw [hsnapshot, hnotify]
    exact h
  | published hsnapshot hversion hnotify =>
    right
    rcases h with ⟨-, heq⟩ | hlt <;> omega

theorem Watches.steps (h : r.Watches w phase) (hsteps : Steps r r') : r'.Watches w phase := by
  refine ⟨h.increasing, ?_⟩
  have hphase := h.inPhase
  cases phase with
  | waiting notify timer => exact ⟨hphase.1, hphase.2.steps hsteps⟩
  | _ => exact hphase

theorem lastEmitted_snoc (w : MemoryWatcher) (snapshot : InstanceSnapshot) :
    ({ w with emitted := w.emitted ++ [snapshot] } : MemoryWatcher).lastEmitted = snapshot.version := by
  simp [MemoryWatcher.lastEmitted]

theorem Watches.move {c : StepChoice} (h : r.Watches w phase) (hmove : r.moveWatch w phase c = some (r', w', phase')) :
    Steps r r' ∧ r'.Watches w' phase' := by
  obtain ⟨hincreasing, hphase⟩ := h
  unfold moveWatch at hmove
  cases phase with
  | opening ctx =>
    dsimp only at hmove
    split_ifs at hmove <;> cases hmove
    · exact ⟨.refl r, hincreasing, trivial⟩
    · exact ⟨steps_ensureService r _, hincreasing, hphase⟩
  | top =>
    dsimp only at hmove
    split_ifs at hmove <;> cases hmove
    · exact ⟨.refl r, hincreasing, trivial⟩
    · exact ⟨.refl r, hincreasing, hphase⟩
    · exact ⟨.refl r, hincreasing, hphase⟩
  | sweeping now =>
    cases hmove
    refine ⟨?_, hincreasing, hphase⟩
    split
    · exact .refl r
    · exact steps_sweepService r _ now
  | reading =>
    dsimp only at hmove
    split_ifs at hmove with hnew <;> cases hmove
    · have hlast : w.lastVersion = w.lastEmitted := hphase
      exact ⟨.refl r, hincreasing, rfl, hlast ▸ hnew⟩
    · exact ⟨.refl r, hincreasing, hphase, .inl ⟨not_lt.mp hnew, rfl⟩⟩
  | sending snapshot =>
    dsimp only at hmove
    split_ifs at hmove <;> cases hmove
    · exact ⟨.refl r, hincreasing, trivial⟩
    · refine ⟨.refl r, ?_, hphase.1.trans (lastEmitted_snoc w snapshot).symm⟩
      rw [List.map_append]
      exact isChain_snoc hincreasing hphase.2
  | waiting notify timer =>
    dsimp only at hmove
    split_ifs at hmove <;> cases hmove
    · exact ⟨.refl r, hincreasing, trivial⟩
    · exact ⟨.refl r, hincreasing, hphase.1⟩
  | closed => cases hmove

/-! ## Runs -/

def Keeps (r : MemoryRegistry) : RegistryThread → Prop
  | .call _ => True
  | .watch w phase => r.Watches w phase

theorem Keeps.steps {t : RegistryThread} (h : r.Keeps t) (hsteps : Steps r r') : r'.Keeps t := by
  cases t with
  | call t => trivial
  | watch w phase => exact Watches.steps h hsteps

theorem Numbered.steps (h : r.Numbered) (hsteps : Steps r r') : r'.Numbered := by
  intro service
  have hle := h service
  cases hsteps service with
  | kept hsnapshot hversion hnotify =>
    rw [hsnapshot, hversion]
    exact hle
  | published hsnapshot hversion hnotify => omega

theorem steps_move {id : ℕ} {t t' : RegistryThread} {c : StepChoice} (ht : r.Keeps t)
    (hmove : threads.move id r t c = some (r', t')) : Steps r r' ∧ r'.Keeps t' := by
  cases t with
  | call t =>
    obtain ⟨⟨r'', t''⟩, hcall, heq⟩ := Option.map_eq_some_iff.mp hmove
    cases heq
    exact ⟨steps_moveCall hcall, trivial⟩
  | watch w phase =>
    obtain ⟨⟨r'', w', phase'⟩, hwatch, heq⟩ := Option.map_eq_some_iff.mp hmove
    cases heq
    exact Watches.move ht hwatch

theorem keeps_run (events : List (ThreadEvent RegistryCall StepChoice Empty)) :
    ThreadSystem.Keeps Numbered (fun r _ t => r.Keeps t) (threads.run {} events) := by
  refine ThreadSystem.Keeps.run threads ?_ ?_ (fun s e => nomatch e) numbered_empty events
  · intro r id call _
    cases call with
    | call ctx call => trivial
    | watch ctx service afterVersion => exact ⟨List.isChain_singleton _, rfl⟩
  · intro r id t c r' t' hr ht hmove
    obtain ⟨hsteps, ht'⟩ := steps_move ht hmove
    exact ⟨hr.steps hsteps, ht', fun _ u _ hu => hu.steps hsteps⟩

theorem steps_step {p : Threads MemoryRegistry RegistryThread} (h : ThreadSystem.Keeps Numbered (fun r _ t => r.Keeps t) p)
    (e : ThreadEvent RegistryCall StepChoice Empty) : Steps p.shared (threads.step p e).shared := by
  have hdid := threads.did_step p e
  generalize threads.step p e = p' at hdid
  cases hdid with
  | moved ht hmove => exact (steps_move (h.thread _ _ ht) hmove).1
  | changed e => cases e
  | _ => exact .refl _

/-- After every run, every watcher has emitted increasing versions above its `afterVersion`, and one that waits has
emitted the current version or waits on a channel that is closed. -/
theorem no_lost_wakeup (events : List (ThreadEvent RegistryCall StepChoice Empty)) :
    (∀ e service, (threads.step (threads.run {} events) e).shared.published service =
        (threads.run {} events).shared.published service ∨
      ((threads.run {} events).shared.published service).version <
        ((threads.step (threads.run {} events) e).shared.published service).version) ∧
    ∀ id w phase, (threads.run {} events).threads.lookup id = some (.watch w phase) →
      (w.emitted.map InstanceSnapshot.version).Pairwise (· < ·) ∧
      (∀ v ∈ w.emitted.map InstanceSnapshot.version, w.afterVersion < v) ∧
      ∀ notify timer, phase = .waiting notify timer →
        ((threads.run {} events).shared.published w.service).version ≤ w.lastEmitted ∨
          notify < ((threads.run {} events).shared.serviceState w.service).notify := by
  have hkeeps := keeps_run events
  refine ⟨fun e service => ?_, fun id w phase hw => ?_⟩
  · have hnumbered := hkeeps.shared service
    cases steps_step hkeeps e service with
    | kept hsnapshot hversion hnotify => exact .inl hsnapshot
    | published hsnapshot hversion hnotify =>
      right
      unfold published
      omega
  · have hwatches : (threads.run {} events).shared.Watches w phase := hkeeps.thread id _ hw
    obtain ⟨habove, hincreasing⟩ := List.pairwise_cons.mp (List.isChain_iff_pairwise.mp hwatches.increasing)
    refine ⟨hincreasing, habove, ?_⟩
    rintro notify timer rfl
    obtain ⟨hlast, ⟨hle, -⟩ | hlt⟩ := hwatches.inPhase
    · exact .inl (hlast ▸ hle)
    · exact .inr hlt

def registeredMeanwhile : List (ThreadEvent RegistryCall StepChoice Empty) :=
  [.call 0 (.watch .background "svc" 0), .move 0 {}, .move 0 {}, .move 0 {},
    .call 1 (.call .background (.register { id := "a", service := "svc", address := "h:1" } 10 "e" "t")),
    .move 1 { now := 1 }, .move 1 {}, .move 1 {}]

theorem registered_meanwhile_woken :
    ∃ w, (threads.run {} registeredMeanwhile).threads.lookup 0 = some (.watch w (.waiting 0 false)) ∧
      (((threads.run {} registeredMeanwhile).shared.published w.service).version ≤ w.lastEmitted ∨
        0 < ((threads.run {} registeredMeanwhile).shared.serviceState w.service).notify) :=
  ⟨_, rfl, ((no_lost_wakeup registeredMeanwhile).2 0 _ _ rfl).2.2 0 false rfl⟩

end MemoryRegistry

end AegisMesh.Registry

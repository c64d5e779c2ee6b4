import AegisMesh.Controller.ViewReads
import AegisMesh.Registry.Reads

/-!
# The stream of instances (`pkg/controller/registry_service.go`)

`WatchInstances` takes a view, waits for one of its channels, and takes the next view, beside the process.
-/

open Lib

namespace AegisMesh.Controller

open Registry Fault

/-! ## The loop -/

inductive WatchPlace
  | running (code : Handler (Option Services.WatchLocals))
  | waiting (locals : Services.WatchLocals)
  | ended

structure WatchState where
  world : WatchWorld
  place : WatchPlace

inductive WatchEvent
  | change (op : ProcessOp)
  | call (choice : CallChoice)
  | wake (wake : Services.Wake) (version : ℕ)

def startingAt (c : Services) (service : String) (lastSeenVersion : ℤ) : WatchPlace :=
  .running do
    let locals ← c.startWatch service lastSeenVersion
    return some locals

def WatchWorld.deliver (w : WatchWorld) (service : String) : Services.Wake → ℕ → Option WatchWorld
  | .registry true, version =>
    if version ≤ (w.process.registry.published service).version then some { w with registryFrom := version } else none
  | .health true, version =>
    if version ≤ w.process.health.healthVersion service then some { w with healthFrom := version } else none
  | _, _ => some w

def WatchState.step (c : Services) (service : String) (s : WatchState) : WatchEvent → WatchState
  | .change op => { s with world := { s.world with process := s.world.process.step op } }
  | .call choice =>
    match s.place with
    | .running (.done (some locals)) => { s with place := .waiting locals }
    | .running (.done none) => { s with place := .ended }
    | .running (.fail _) => { s with place := .ended }
    | .running (.call op next) =>
      match WatchWorld.perform choice op s.world with
      | none => s
      | some (answer, world) => { world, place := .running (next answer) }
    | _ => s
  | .wake wake version =>
    match s.place with
    | .waiting locals =>
      if locals.ready wake then
        match s.world.deliver service wake version with
        | none => s
        | some world => { world, place := .running (c.watchTurn service locals wake) }
      else s
    | _ => s

def WatchState.run (c : Services) (service : String) (s : WatchState) (events : List WatchEvent) : WatchState :=
  events.foldl (WatchState.step c service) s

def WatchEvent.Plain : WatchEvent → Prop
  | .change op => op.Plain
  | _ => True

/-! ## One turn -/

structure Caught (service : String) (seen : Option ListInstancesResponse) (version : ℤ) (view : InstancesView)
    (w : WatchWorld) : Prop where
  behind : Behind service seen w
  follows : w.process.Follows service view
  registry : w.registryFrom ≤ view.registryVersion
  health : w.healthFrom ≤ view.healthVersion
  version : version = view.response.version
  shown : ∃ response, w.sent.getLast?.or seen = some response ∧ response.version = view.response.version

section

variable {service : String} {seen : Option ListInstancesResponse} {w w' : WatchWorld} {version : ℤ} {view : InstancesView}
  {defaultLease : ℤ}

theorem enduring_caught (hplain : PlainName service) (hne : service ≠ "") (version : ℤ) (view : InstancesView) :
    Enduring service seen (Caught service seen version view) := by
  refine fun w hw => ⟨hw.behind, fun process hmoves => ?_⟩
  exact ⟨hw.behind.moves hplain hne hmoves, hw.follows.moves hplain hne hmoves, hw.registry, hw.health, hw.version, hw.shown⟩

def Remembers (seen : Option ListInstancesResponse) (w : WatchWorld) (version : ℤ) : Prop :=
  version = 0 ∨ ∃ response, w.sent.getLast?.or seen = some response ∧ version = response.version

theorem combineInstancesVersion_pos (registryVersion healthVersion : ℕ) :
    0 < combineInstancesVersion registryVersion healthVersion := by
  unfold combineInstancesVersion
  dsimp only
  split
  · exact Nat.one_pos
  · rename_i hne
    exact Nat.pos_of_ne_zero fun h0 => hne (UInt64.toNat_inj.mp h0)

theorem always_sendInstancesIfChanged (h : Behind service seen w) (hplain : PlainName service) (hne : service ≠ "")
    (hremembers : Remembers seen w version) :
    ((memoryServices defaultLease).sendInstancesIfChanged service version).Always WatchWorld.Acts (Behind service seen)
      (fun r w' => Caught service seen r.2 r.1 w') w := by
  unfold Services.sendInstancesIfChanged
  refine (always_instancesView h hplain hne).bind ?_
  rintro view w₁ ⟨hreading, hfollows, hregistry, hhealth⟩
  have hfrom : w₁.registryFrom ≤ view.registryVersion := hreading.registryFrom ▸ h.registryFrom.trans hregistry
  have hfrom' : w₁.healthFrom ≤ view.healthVersion := hreading.healthFrom ▸ h.healthFrom.trans hhealth
  split
  · rename_i hsame
    refine .done ⟨hreading.behind, hfollows, hfrom, hfrom', hsame.symm, ?_⟩
    rcases hremembers with hzero | ⟨response, hresponse, hversion⟩
    · have hpos := combineInstancesVersion_pos view.registryVersion view.healthVersion
      rw [← hfollows.version] at hpos
      omega
    · rw [hreading.sent]
      exact ⟨response, hresponse, Int.ofNat_inj.mp (hversion.symm.trans hsame.symm)⟩
  · -- The message is sent when the process has gone on, and follows it still.
    have hsend : (Controller.ask (.sendInstances view.response)).Always WatchWorld.Acts (Behind service seen)
        (fun (err : Option StatusError) w' => err = none → Caught service seen view.response.version view w') w₁ := by
      refine (enduring_reading hplain hne (lasting_follows hplain hne view) w).ask ⟨hreading, hfollows⟩ ?_
      rintro w₂ choice err w' ⟨hreading₂, hfollows₂⟩ hperform hnone
      cases hperform
      rw [hnone]
      have hbehind := hreading₂.behind
      refine ⟨⟨hbehind.good, hbehind.registryFrom, hbehind.healthFrom, fun response hresponse => ?_⟩, hfollows₂, ?_, ?_, rfl,
        view.response, ?_, rfl⟩
      · simp only [Option.isNone_none, if_true, List.getLast?_concat, Option.some_or, Option.some.injEq] at hresponse
        exact ⟨view, hresponse, hfollows₂⟩
      · exact hreading₂.registryFrom ▸ h.registryFrom.trans hregistry
      · exact hreading₂.healthFrom ▸ h.healthFrom.trans hhealth
      · simp
    refine hsend.bind fun err w' herr => ?_
    cases err with
    | some err => trivial
    | none => exact .done (herr rfl)

theorem always_watchRegistry (h : Caught service seen version view w) (hplain : PlainName service) (hne : service ≠ "") :
    ((memoryServices defaultLease).watchRegistry service view.registryVersion).Always WatchWorld.Acts (Behind service seen)
      (fun _ w' => Caught service seen version view w') w := by
  unfold Services.watchRegistry
  rw [if_pos (show (memoryServices defaultLease).watcher = true from rfl)]
  refine (enduring_caught hplain hne version view).ask h ?_
  intro w₁ choice answer w' hcaught hperform
  cases hperform
  split
  · obtain ⟨instances, hread, -⟩ := hcaught.follows.read
    have hbehind := hcaught.behind
    exact ⟨⟨hbehind.good, hread.le, hbehind.healthFrom, hbehind.shown⟩, hcaught.follows, le_rfl, hcaught.health,
      hcaught.version, hcaught.shown⟩
  · exact hcaught

theorem always_watchHealth (h : Caught service seen version view w) (hplain : PlainName service) (hne : service ≠ "") :
    ((memoryServices defaultLease).watchHealth service view.healthVersion).Always WatchWorld.Acts (Behind service seen)
      (fun _ w' => Caught service seen version view w') w := by
  unfold Services.watchHealth
  rw [if_pos (show (memoryServices defaultLease).health.any HealthInterfaces.watches = true from rfl)]
  refine (enduring_caught hplain hne version view).ask h ?_
  intro w₁ choice answer w' hcaught hperform
  cases hperform
  split
  · obtain ⟨instances, -, hread⟩ := hcaught.follows.read
    have hbehind := hcaught.behind
    exact ⟨⟨hbehind.good, hbehind.registryFrom, hread.le, hbehind.shown⟩, hcaught.follows, hcaught.registry, le_rfl,
      hcaught.version, hcaught.shown⟩
  · exact hcaught

def TurnCaught (service : String) (seen : Option ListInstancesResponse) (locals : Option Services.WatchLocals)
    (w : WatchWorld) : Prop :=
  ∀ l, locals = some l → ∃ view, Caught service seen l.lastSentVersion view w

theorem always_startWatch (h : Behind service seen w) (hplain : PlainName service) (hne : service ≠ "")
    (hremembers : Remembers seen w version) :
    ((memoryServices defaultLease).startWatch service version).Always WatchWorld.Acts (Behind service seen)
      (fun l w' => ∃ view, Caught service seen l.lastSentVersion view w') w := by
  unfold Services.startWatch
  refine (always_sendInstancesIfChanged h hplain hne hremembers).bind ?_
  rintro ⟨view, lastSentVersion⟩ w₁ hcaught₁
  refine (always_watchRegistry hcaught₁ hplain hne).bind fun registryUpdates w₂ hcaught₂ => ?_
  refine (always_watchHealth hcaught₂ hplain hne).bind fun healthUpdates w₃ hcaught₃ => ?_
  exact .done ⟨view, hcaught₃⟩

theorem always_restartClosedWatches (h : Caught service seen version view w) (hplain : PlainName service)
    (hne : service ≠ "") (l : Services.WatchLocals) (hversion : l.lastSentVersion = version) :
    ((memoryServices defaultLease).restartClosedWatches service view l).Always WatchWorld.Acts (Behind service seen)
      (fun l' w' => Caught service seen l'.lastSentVersion view w') w := by
  unfold Services.restartClosedWatches
  have hregistry : (if l.registryUpdates then pure true else
      (memoryServices defaultLease).watchRegistry service view.registryVersion).Always WatchWorld.Acts (Behind service seen)
      (fun _ w' => Caught service seen version view w') w := by
    split
    · exact .done h
    · exact always_watchRegistry h hplain hne
  refine hregistry.bind fun registryUpdates w₁ hcaught₁ => ?_
  have hhealth : (if (memoryServices defaultLease).health.isSome && !l.healthUpdates then
      (memoryServices defaultLease).watchHealth service view.healthVersion else pure l.healthUpdates).Always
      WatchWorld.Acts (Behind service seen) (fun _ w' => Caught service seen version view w') w₁ := by
    split
    · exact always_watchHealth hcaught₁ hplain hne
    · exact .done hcaught₁
  refine hhealth.bind fun healthUpdates w₂ hcaught₂ => ?_
  exact .done (hversion.symm ▸ hcaught₂)

theorem withTicker_lastSentVersion (c : Services) (l : Services.WatchLocals) :
    (c.withTicker l).lastSentVersion = l.lastSentVersion := by
  unfold Services.withTicker
  split <;> rfl

theorem always_watchTurn (h : Behind service seen w) (hplain : PlainName service) (hne : service ≠ "")
    (l : Services.WatchLocals) (hremembers : Remembers seen w l.lastSentVersion) (wake : Services.Wake)
    (hclosed : wake = .registry false ∨ wake = .health false → ∃ view, Caught service seen l.lastSentVersion view w) :
    ((memoryServices defaultLease).watchTurn service l wake).Always WatchWorld.Acts (Behind service seen)
      (TurnCaught service seen) w := by
  have hview : ((memoryServices defaultLease).sendInstancesIfChanged service l.lastSentVersion).Always WatchWorld.Acts
      (Behind service seen) (fun r w' => Caught service seen r.2 r.1 w') w :=
    always_sendInstancesIfChanged h hplain hne hremembers
  have hturn : ∀ (r : InstancesView × ℤ) w', Caught service seen r.2 r.1 w' → TurnCaught service seen
      (some ((memoryServices defaultLease).withTicker { l with lastSentVersion := r.2 })) w' := by
    rintro ⟨view, lastSentVersion⟩ w' hcaught l' hl'
    cases hl'
    rw [withTicker_lastSentVersion]
    exact ⟨view, hcaught⟩
  cases wake with
  | done => exact .done fun l' hl' => by cases hl'
  | registry ok =>
    cases ok with
    | false =>
      refine .done fun l' hl' => ?_
      cases hl'
      exact hclosed (.inl rfl)
    | true => exact hview.bind fun r w' hcaught => .done (hturn r w' hcaught)
  | health ok =>
    cases ok with
    | false =>
      refine .done fun l' hl' => ?_
      cases hl'
      exact hclosed (.inr rfl)
    | true => exact hview.bind fun r w' hcaught => .done (hturn r w' hcaught)
  | tick =>
    refine hview.bind ?_
    rintro ⟨view, lastSentVersion⟩ w₁ hcaught₁
    refine (always_restartClosedWatches hcaught₁ hplain hne _ rfl).bind fun l₂ w₂ hcaught₂ => .done fun l' hl' => ?_
    cases hl'
    rw [withTicker_lastSentVersion]
    exact ⟨view, hcaught₂⟩

/-! ## The whole stream -/

def WatchState.Watches (service : String) (seen : Option ListInstancesResponse) (s : WatchState) : Prop :=
  match s.place with
  | .running code => code.Always WatchWorld.Acts (Behind service seen) (TurnCaught service seen) s.world
  | .waiting l => TurnCaught service seen (some l) s.world
  | .ended => True

theorem turnCaught_after (hplain : PlainName service) (hne : service ≠ "") {locals : Option Services.WatchLocals}
    (h : TurnCaught service seen locals w) {ops : List ProcessOp} (hops : ∀ o ∈ ops, o.Plain) :
    TurnCaught service seen locals (w.after ops) := by
  intro l hl
  obtain ⟨view, hcaught⟩ := h l hl
  exact ⟨view, (enduring_caught hplain hne _ view).after hcaught hops⟩

theorem enduring_behind (hplain : PlainName service) (hne : service ≠ "") : Enduring service seen (Behind service seen) :=
  fun _ hw => ⟨hw, fun _ hmoves => hw.moves hplain hne hmoves⟩

theorem always_after (hplain : PlainName service) (hne : service ≠ "") {code : Handler (Option Services.WatchLocals)}
    (h : code.Always WatchWorld.Acts (Behind service seen) (TurnCaught service seen) w) {ops : List ProcessOp}
    (hops : ∀ o ∈ ops, o.Plain) :
    code.Always WatchWorld.Acts (Behind service seen) (TurnCaught service seen) (w.after ops) := by
  cases code with
  | done locals => exact turnCaught_after hplain hne h hops
  | fail err => trivial
  | call op next =>
    refine ⟨(enduring_behind hplain hne).after h.1 hops, fun answer w' hacts => h.2 answer w' ?_⟩
    obtain ⟨more, choice, hmore, hperform⟩ := hacts
    refine ⟨ops ++ more, choice, List.forall_mem_append.mpr ⟨hops, hmore⟩, ?_⟩
    rw [← hperform, WatchWorld.after, WatchWorld.after, WatchWorld.after, Process.run, Process.run, Process.run,
      List.foldl_append]

theorem Caught.deliver (h : Caught service seen version view w) {wake : Services.Wake} {delivered : ℕ}
    (hdeliver : w.deliver service wake delivered = some w') :
    Behind service seen w' ∧ Remembers seen w' version ∧
      (wake = .registry false ∨ wake = .health false → Caught service seen version view w') := by
  have hbehind := h.behind
  obtain ⟨response, hresponse, hversion⟩ := h.shown
  have hremembers : version = response.version := by rw [h.version, hversion]
  unfold WatchWorld.deliver at hdeliver
  split at hdeliver
  · split at hdeliver <;> cases hdeliver
    refine ⟨⟨hbehind.good, ‹_›, hbehind.healthFrom, hbehind.shown⟩, .inr ⟨response, hresponse, hremembers⟩, ?_⟩
    rintro (hwake | hwake) <;> cases hwake
  · split at hdeliver <;> cases hdeliver
    refine ⟨⟨hbehind.good, hbehind.registryFrom, ‹_›, hbehind.shown⟩, .inr ⟨response, hresponse, hremembers⟩, ?_⟩
    rintro (hwake | hwake) <;> cases hwake
  · cases hdeliver
    exact ⟨hbehind, .inr ⟨response, hresponse, hremembers⟩, fun _ => h⟩

theorem WatchState.Watches.step {s : WatchState} (h : s.Watches service seen) (hplain : PlainName service)
    (hne : service ≠ "") {e : WatchEvent} (he : e.Plain) :
    (s.step (memoryServices defaultLease) service e).Watches service seen := by
  obtain ⟨world, place⟩ := s
  cases e with
  | change op =>
    have hops : ∀ o ∈ [op], o.Plain := List.forall_mem_singleton.mpr he
    cases place with
    | running code => exact always_after hplain hne h hops
    | waiting l => exact turnCaught_after hplain hne h hops
    | ended => trivial
  | call choice =>
    cases place with
    | waiting l => exact h
    | ended => trivial
    | running code =>
      cases code with
      | done locals =>
        cases locals with
        | none => trivial
        | some l => exact h
      | fail err => trivial
      | call op next =>
        simp only [WatchState.step]
        split
        · exact h
        · rename_i answer world' hperform
          exact h.2 answer world' ⟨[], choice, List.forall_mem_nil _, hperform⟩
  | wake wake delivered =>
    cases place with
    | running code => exact h
    | ended => trivial
    | waiting l =>
      simp only [WatchState.step]
      split
      · split
        · exact h
        · rename_i world' hdeliver
          obtain ⟨view, hcaught⟩ := h l rfl
          obtain ⟨hbehind, hremembers, hclosed⟩ := hcaught.deliver hdeliver
          exact always_watchTurn hbehind hplain hne l hremembers wake fun hwake => ⟨view, hclosed hwake⟩
      · exact h

theorem WatchState.Watches.run {s : WatchState} (h : s.Watches service seen) (hplain : PlainName service)
    (hne : service ≠ "") {events : List WatchEvent} (hevents : ∀ e ∈ events, e.Plain) :
    (s.run (memoryServices defaultLease) service events).Watches service seen := by
  have hstep : ∀ (s : WatchState) (e : WatchEvent), s.Watches service seen → e.Plain →
      (s.step (memoryServices defaultLease) service e).Watches service seen := fun _ _ hs he => hs.step hplain hne he
  exact run_invariant_of hstep h hevents

end

/-! ## A listing -/

def Process.NoneRunOut (p : Process) (service : String) (now : ℕ) : Prop :=
  ∀ record ∈ Dict.values (p.registry.serviceState service).records,
    record.inst ∈ (p.registry.published service).instances → now < record.expiresAt

section

variable {service : String} {p : Process} {w : WatchWorld} {defaultLease : ℤ} {choice : CallChoice}

theorem Process.Good.not_needsExpiry (h : p.Good) {now : ℕ} (hleases : p.NoneRunOut service now) :
    snapshotNeedsExpiry (p.registry.published service) now = false := by
  obtain ⟨t, hwf⟩ := h.wellFormed
  unfold NoneRunOut at hleases
  unfold MemoryRegistry.published MemoryRegistry.serviceState at *
  cases hs : p.registry.services.lookup service with
  | none => rfl
  | some s =>
    rw [hs, Option.getD_some] at hleases
    obtain ⟨u, -, hpublished⟩ := hwf.published hs
    rw [Option.getD_some, Bool.eq_false_iff, ne_eq, hpublished.needsExpiry_iff]
    rintro ⟨id, record, hlookup, hlive, hout⟩
    have hlisted : record.inst ∈ s.snapshot.instances := by
      rw [hpublished.instances, listing, mem_sortBy]
      exact List.mem_map_of_mem (mem_liveRecords.mpr ⟨⟨id, hlookup⟩, hlive⟩)
    have := hleases record (Dict.mem_values.mpr ⟨id, hlookup⟩) hlisted
    omega

theorem exec_overlayAll (instances : List Instance) :
    ((memoryServices defaultLease).overlayAll instances).exec (WatchWorld.perform choice) w =
      some (.ok (instances.map fun inst => overlaid inst (w.process.health.get inst.service inst.id)), w) := by
  induction instances with
  | nil => rfl
  | cons inst rest ih =>
    have hfirst : ((memoryServices defaultLease).overlay inst).exec (WatchWorld.perform choice) w =
        some (.ok (overlaid inst (w.process.health.get inst.service inst.id)), w) := rfl
    unfold Services.overlayAll
    rw [Program.exec_bind _ hfirst, Program.exec_bind _ ih]
    rfl

theorem exec_listInstances (hgood : w.process.Good) (hne : service ≠ "") (hctx : choice.moment.ctx 0 = false)
    (hleases : w.process.NoneRunOut service choice.moment.now) :
    ((memoryServices defaultLease).listInstances (some service)).exec (WatchWorld.perform choice) w =
      some (.ok
        { instances := w.process.listed service
          version := combineInstancesVersion (w.process.registry.published service).version
            (w.process.health.healthVersion service) }, w) := by
  have hsnapshot : ((memoryServices defaultLease).registrySnapshot service).exec (WatchWorld.perform choice) w =
      some (.ok (w.process.registry.published service), w) := by
    have hread := MemoryRegistry.snapshot_of_not_needsExpiry hctx hne (hgood.not_needsExpiry hleases)
    have hask : (ask (.snapshot service)).exec (WatchWorld.perform choice) w =
        some (.ok (.ok (w.process.registry.published service)), w) := by
      simp only [ask, Program.ask, Program.exec, WatchWorld.perform, hread]
    unfold Services.registrySnapshot
    rw [if_pos (show (memoryServices defaultLease).snapshotter = true from rfl), Program.exec_bind _ hask]
    rfl
  have hversion : ((memoryServices defaultLease).healthVersion service).exec (WatchWorld.perform choice) w =
      some (.ok (w.process.health.healthVersion service), w) := rfl
  have hview : ((memoryServices defaultLease).instancesView service).exec (WatchWorld.perform choice) w =
      some (.ok (instancesView (w.process.registry.published service) (w.process.health.healthVersion service)
        w.process.health.get), w) := by
    unfold Services.instancesView
    rw [Program.exec_bind _ hsnapshot, Program.exec_bind _ hversion, Program.exec_bind _ (exec_overlayAll _)]
    rfl
  dsimp only [Services.listInstances]
  rw [if_neg hne, Program.exec_bind _ hview]
  rfl

end

/-! ## Streams that are never stale -/

def WatchState.isOpen (s : WatchState) : Bool :=
  match s.place with
  | .waiting l => l.registryUpdates && l.healthUpdates
  | _ => false

/-- Nothing is pending: neither source is ahead of its channel. And no lease that is listed has run out by `now`. -/
structure WatchState.Idle (s : WatchState) (service : String) (now : ℕ) : Prop where
  isOpen : s.isOpen = true
  registry : (s.world.process.registry.published service).version ≤ s.world.registryFrom
  health : s.world.process.health.healthVersion service ≤ s.world.healthFrom
  leases : s.world.process.NoneRunOut service now

def Process.Unshared (p : Process) (service : String) : Prop :=
  ∀ r ≤ (p.registry.published service).version, ∀ h ≤ p.health.healthVersion service,
    combineInstancesVersion r h =
      combineInstancesVersion (p.registry.published service).version (p.health.healthVersion service) →
    r = (p.registry.published service).version ∧ h = p.health.healthVersion service

inductive WatchStarts (start : Process) (c : Services) (service : String) :
    Option ListInstancesResponse → WatchState → Prop
  | unseen (ops : List ProcessOp) (hops : ∀ o ∈ ops, o.Plain) :
    WatchStarts start c service none { world := { process := start.run ops }, place := startingAt c service 0 }
  | seen (before later : List ProcessOp) (hbefore : ∀ o ∈ before, o.Plain) (hlater : ∀ o ∈ later, o.Plain)
    (view : InstancesView) (issued : WatchWorld)
    (hissued : (c.instancesView service).Runs WatchWorld.Acts { process := start.run before } view issued) :
    WatchStarts start c service (some view.response)
      { world := { process := issued.process.run later }, place := startingAt c service view.response.version }

section

variable {service : String} {seen : Option ListInstancesResponse} {s : WatchState} {p : Process} {w : WatchWorld}
  {defaultLease : ℤ}

theorem watches_starting (hplain : PlainName service) (hne : service ≠ "") {version : ℤ} (h : Behind service seen w)
    (hremembers : Remembers seen w version) :
    WatchState.Watches service seen { world := w, place := startingAt (memoryServices defaultLease) service version } := by
  refine (always_startWatch h hplain hne hremembers).bind fun l w' hcaught => .done fun l' hl' => ?_
  cases hl'
  exact hcaught

theorem WatchStarts.watches (hstart : WatchStarts p (memoryServices defaultLease) service seen s) (hgood : p.Good)
    (hplain : PlainName service) (hne : service ≠ "") : s.Watches service seen := by
  have hfresh : ∀ ops : List ProcessOp, (∀ o ∈ ops, o.Plain) → Behind service none { process := p.run ops } := by
    intro ops hops
    exact ⟨hgood.run hops, Nat.zero_le _, Nat.zero_le _, (fun _ hnone => by cases hnone)⟩
  cases hstart with
  | unseen ops hops => exact watches_starting hplain hne (hfresh ops hops) (.inl rfl)
  | seen before later hbefore hlater view issued hissued =>
    obtain ⟨hreading, hfollows, -, -⟩ := (always_instancesView (hfresh before hbefore) hplain hne).runs hissued
    have hbehind : Behind service (some view.response) { process := issued.process } := by
      refine ⟨hreading.behind.good, Nat.zero_le _, Nat.zero_le _, fun response hresponse => ?_⟩
      cases hresponse
      exact ⟨view, rfl, hfollows⟩
    exact watches_starting hplain hne ((enduring_behind hplain hne).after hbehind hlater) (.inr ⟨_, rfl, rfl⟩)

/-- Whatever happens to the process between the calls of a stream, and however often its channels close and are
restarted: when it is idle, its last message, or what the client had seen before, is what `ListInstances` returns.
The names of services are plain. -/
theorem idle_stream_is_current (calculator : ScoreCalculator) (baseStateMachine : StateMachineConfig) (defaultLease : ℤ)
    (service : String) (hne : service ≠ "") (hplain : PlainName service) (seen : Option ListInstancesResponse)
    (start : WatchState)
    (hstart : WatchStarts (Process.start calculator baseStateMachine) (memoryServices defaultLease) service seen start)
    (events : List WatchEvent) (hevents : ∀ e ∈ events, e.Plain) (choice : CallChoice) (hctx : choice.moment.ctx 0 = false)
    (hidle : (start.run (memoryServices defaultLease) service events).Idle service choice.moment.now)
    (hunshared : (start.run (memoryServices defaultLease) service events).world.process.Unshared service) :
    let w := (start.run (memoryServices defaultLease) service events).world
    ∃ response, w.sent.getLast?.or seen = some response ∧
      ((memoryServices defaultLease).listInstances (some service)).exec (WatchWorld.perform choice) w =
        some (.ok response, w) := by
  intro w
  have hgood := Process.good_start calculator baseStateMachine
  have hwatches : (start.run (memoryServices defaultLease) service events).Watches service seen :=
    (hstart.watches hgood hplain hne).run hplain hne hevents
  have hopen := hidle.isOpen
  unfold WatchState.isOpen at hopen
  unfold WatchState.Watches at hwatches
  split at hopen
  · rename_i l hplace
    rw [hplace] at hwatches
    obtain ⟨view, hcaught⟩ := hwatches l rfl
    obtain ⟨response, hresponse, hversion⟩ := hcaught.shown
    obtain ⟨shown, rfl, hfollows⟩ := hcaught.behind.shown response hresponse
    -- Both versions of the last view are the current ones.
    obtain ⟨instances, hread, hshowing⟩ := hcaught.follows.read
    have hregistry : view.registryVersion = (w.process.registry.published service).version :=
      le_antisymm hread.le (hidle.registry.trans hcaught.registry)
    have hhealth : view.healthVersion = w.process.health.healthVersion service :=
      le_antisymm hshowing.le (hidle.health.trans hcaught.health)
    -- So they are those of the last message.
    have hcombined : shown.response.version = combineInstancesVersion (w.process.registry.published service).version
        (w.process.health.healthVersion service) := by
      rw [hversion, hcaught.follows.version, hregistry, hhealth]
    obtain ⟨instances', hread', hshowing'⟩ := hfollows.read
    obtain ⟨hsame, hsame'⟩ := hunshared _ hread'.le _ hshowing'.le (hfollows.version.symm.trans hcombined)
    refine ⟨shown.response, hresponse, ?_⟩
    rw [exec_listInstances hcaught.behind.good hne hctx hidle.leases, ← hfollows.current hsame hsame', ← hcombined]
  · cases hopen

end

/-! ## A name with a slash -/

def slowProcess : Process := Process.start (newScoreCalculator {} 100000000) {}

def slashInstance : Instance := { id := "b/c", service := "a", address := "10.0.0.1:80" }

def slowSample (service instanceID : String) : EndpointSample :=
  { service, instanceID, requestCount := 10, latencyEWMA := 1000000000, latencyP95 := 1000000000 }

def slashStart : WatchState where
  world := { process := slowProcess.run [.register {} slashInstance 30000000000 ⟨"e", "t"⟩] }
  place := startingAt (memoryServices 0) "a" 0

def sampledEvents (service instanceID : String) : List WatchEvent :=
  List.replicate 7 (.call {}) ++ [.change (.update [slowSample service instanceID] 1 1)]

def wokenEvents : List WatchEvent :=
  sampledEvents "a" "b/c" ++ .wake (.health true) 1 :: List.replicate 5 (.call {})

theorem sampled_stream_is_current :
    (slashStart.run (memoryServices 0) "a" wokenEvents).world.sent.length = 2 ∧
    ∃ response, (slashStart.run (memoryServices 0) "a" wokenEvents).world.sent.getLast?.or none = some response ∧
      ((memoryServices 0).listInstances (some "a")).exec (WatchWorld.perform {})
          (slashStart.run (memoryServices 0) "a" wokenEvents).world =
        some (.ok response, (slashStart.run (memoryServices 0) "a" wokenEvents).world) := by
  refine ⟨by decide +kernel, ?_⟩
  refine idle_stream_is_current (newScoreCalculator {} 100000000) {} 0 "a" (by decide) (by unfold PlainName; decide) none
    slashStart (.unseen _ ?_) wokenEvents ?_ {} rfl ⟨by decide +kernel, by decide +kernel, by decide +kernel, ?_⟩ ?_
  · simp [ProcessOp.Plain]
  · intro e he
    simp only [wokenEvents, sampledEvents, List.mem_append, List.mem_cons, List.mem_replicate, List.not_mem_nil, or_false] at he
    rcases he with (⟨-, rfl⟩ | rfl) | rfl | ⟨-, rfl⟩
    · trivial
    · refine List.forall_mem_singleton.mpr ?_
      unfold PlainName
      decide
    · trivial
    · trivial
  · unfold Process.NoneRunOut
    decide +kernel
  · unfold Process.Unshared
    decide +kernel

def scoresNow (w : WatchWorld) : Option (List ℚ) :=
  match ((memoryServices 0).listInstances (some "a")).exec (WatchWorld.perform {}) w with
  | some (.ok response, _) => some (response.instances.map ServiceInstance.slowScore)
  | _ => none

/-- A sample of instance `c` of `a/b` is filed where `b/c` of `a` is looked up, and moves the version of `a/b` only.
-/
theorem slash_leaves_stream_stale :
    let s := slashStart.run (memoryServices 0) "a" (sampledEvents "a/b" "c")
    WatchStarts slowProcess (memoryServices 0) "a" none slashStart ∧ s.Idle "a" 0 ∧ s.world.process.Unshared "a" ∧
      s.world.sent.map (fun message => message.instances.map ServiceInstance.slowScore) = [[0]] ∧
      scoresNow s.world = some [9 / 2] := by
  refine ⟨.unseen _ ?_, ⟨by decide +kernel, by decide +kernel, by decide +kernel, ?_⟩, ?_, by decide +kernel,
    by decide +kernel⟩
  · simp [ProcessOp.Plain]
  · unfold Process.NoneRunOut
    decide +kernel
  · unfold Process.Unshared
    decide +kernel

end AegisMesh.Controller

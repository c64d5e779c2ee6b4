import AegisMesh.Controller.Handlers

/-! # Views that are read while the process goes on -/

open Lib

namespace AegisMesh.Controller

open Registry Fault

/-! ## The calls of a stream -/

/-- What the code leaves open: the moment of a snapshot, whether a watch is granted, and the error of a send. -/
structure CallChoice where
  moment : Moment := {}
  opens : Bool := true
  sendErr : Option StatusError := none

/-- A stream and the process behind it. A channel is the version that it last delivered or was started from. -/
structure WatchWorld where
  process : Process
  registryFrom : ℕ := 0
  healthFrom : ℕ := 0
  sent : List ListInstancesResponse := []

namespace WatchWorld

variable (w : WatchWorld)

/-- The calls that the handlers of a listing and of its stream make; `none` for the other ones. -/
def perform (choice : CallChoice) : (op : BackendCall) → WatchWorld → Option (op.Answer × WatchWorld)
  | .snapshot service, w =>
    let (registry, result) := w.process.registry.snapshot choice.moment.ctx service choice.moment.now
    some (result, { w with process := { w.process with registry } })
  | .healthVersion service, w => some (w.process.health.healthVersion service, w)
  | .healthGet service instanceID, w => some (w.process.health.get service instanceID, w)
  | .watch _ afterVersion, w =>
    some (choice.opens, if choice.opens then { w with registryFrom := afterVersion } else w)
  | .watchHealth _ afterVersion, w =>
    some (choice.opens, if choice.opens then { w with healthFrom := afterVersion } else w)
  | .sendInstances response, w =>
    some (choice.sendErr, if choice.sendErr.isNone then { w with sent := w.sent ++ [response] } else w)
  | _, _ => none

def after (ops : List ProcessOp) : WatchWorld := { w with process := w.process.run ops }

def Acts (op : BackendCall) (w : WatchWorld) (answer : op.Answer) (w' : WatchWorld) : Prop :=
  ∃ ops choice, (∀ o ∈ ops, o.Plain) ∧ perform choice op (w.after ops) = some (answer, w')

end WatchWorld

/-! ## What a view is worth -/

def Overlays (service : String) (instances : List Instance) (messages : List ServiceInstance)
    (shows : String → Option (String × String × Code × ℚ)) : Prop :=
  ∀ get : String → String → Option EndpointHealth, (∀ id, (get service id).map EndpointHealth.shown = shows id) →
    messages = instances.map fun inst => overlaid inst (get inst.service inst.id)

namespace Process

def listed (p : Process) (service : String) : List ServiceInstance :=
  (p.registry.published service).instances.map fun inst => overlaid inst (p.health.get inst.service inst.id)

structure Follows (p : Process) (service : String) (view : InstancesView) : Prop where
  version : view.response.version = combineInstancesVersion view.registryVersion view.healthVersion
  read : ∃ instances : List Instance,
    (p.registry.publication service).Since view.registryVersion (fun snapshot => snapshot.instances = instances) ∧
    (p.health.showing service).Since view.healthVersion (Overlays service instances view.response.instances)

variable {p p' : Process} {service : String} {view : InstancesView}

theorem Follows.moves (h : p.Follows service view) (hplain : PlainName service) (hne : service ≠ "") (hmoves : p.Moves p') :
    p'.Follows service view := by
  obtain ⟨instances, hregistry, hhealth⟩ := h.read
  exact ⟨h.version, instances, hregistry.grows (hmoves.registry service),
    hhealth.grows (hmoves.health service hplain hne)⟩

theorem Follows.current (h : p.Follows service view)
    (hregistry : view.registryVersion = (p.registry.published service).version)
    (hhealth : view.healthVersion = p.health.healthVersion service) : view.response.instances = p.listed service := by
  obtain ⟨instances, hread, hshown⟩ := h.read
  have hinstances : (p.registry.published service).instances = instances := hread.known hregistry
  rw [hshown.known hhealth p.health.get fun id => rfl, listed, hinstances]

end Process

/-! ## Reading -/

section

variable {service : String} {w w' w₀ : WatchWorld}

structure Behind (service : String) (seen : Option ListInstancesResponse) (w : WatchWorld) : Prop where
  good : w.process.Good
  registryFrom : w.registryFrom ≤ (w.process.registry.published service).version
  healthFrom : w.healthFrom ≤ w.process.health.healthVersion service
  shown : ∀ response, w.sent.getLast?.or seen = some response →
    ∃ view, view.response = response ∧ w.process.Follows service view

variable {seen : Option ListInstancesResponse} {P : Process → Prop}

theorem Behind.moves (h : Behind service seen w) (hplain : PlainName service) (hne : service ≠ "") {process : Process}
    (hmoves : w.process.Moves process) : Behind service seen { w with process } where
  good := hmoves.good
  registryFrom := h.registryFrom.trans (hmoves.registry service).le
  healthFrom := h.healthFrom.trans (hmoves.health service hplain hne).le
  shown response hresponse := by
    obtain ⟨view, hview, hfollows⟩ := h.shown response hresponse
    exact ⟨view, hview, hfollows.moves hplain hne hmoves⟩

/-- The world in the middle of a view that was begun in `w₀`: only the process has moved. -/
structure Reading (service : String) (seen : Option ListInstancesResponse) (w₀ w : WatchWorld) : Prop where
  behind : Behind service seen w
  registryFrom : w.registryFrom = w₀.registryFrom
  healthFrom : w.healthFrom = w₀.healthFrom
  sent : w.sent = w₀.sent
  registry : (w₀.process.registry.published service).version ≤ (w.process.registry.published service).version
  health : w₀.process.health.healthVersion service ≤ w.process.health.healthVersion service

theorem Behind.reading (h : Behind service seen w) : Reading service seen w w := ⟨h, rfl, rfl, rfl, le_rfl, le_rfl⟩

theorem Reading.moves (h : Reading service seen w₀ w) (hplain : PlainName service) (hne : service ≠ "") {process : Process}
    (hmoves : w.process.Moves process) : Reading service seen w₀ { w with process } where
  behind := h.behind.moves hplain hne hmoves
  registryFrom := h.registryFrom
  healthFrom := h.healthFrom
  sent := h.sent
  registry := h.registry.trans (hmoves.registry service).le
  health := h.health.trans (hmoves.health service hplain hne).le

def Lasting (P : Process → Prop) : Prop := ∀ p p' : Process, p.Good → p.Moves p' → P p → P p'

theorem lasting_follows (hplain : PlainName service) (hne : service ≠ "") (view : InstancesView) :
    Lasting fun p => p.Follows service view := fun _ _ _ hmoves h => h.moves hplain hne hmoves

theorem lasting_publication (service : String) (v : ℕ) (P : InstanceSnapshot → Prop) :
    Lasting fun p => (p.registry.publication service).Since v P := fun _ _ _ hmoves h => h.grows (hmoves.registry service)

theorem lasting_showing (hplain : PlainName service) (hne : service ≠ "") (v : ℕ)
    (P : (String → Option (String × String × Code × ℚ)) → Prop) :
    Lasting fun p => (p.health.showing service).Since v P := fun _ _ _ hmoves h => h.grows (hmoves.health service hplain hne)

theorem Lasting.and {P Q : Process → Prop} (hP : Lasting P) (hQ : Lasting Q) : Lasting fun p => P p ∧ Q p :=
  fun p p' hgood hmoves h => ⟨hP p p' hgood hmoves h.1, hQ p p' hgood hmoves h.2⟩

def Enduring (service : String) (seen : Option ListInstancesResponse) (K : WatchWorld → Prop) : Prop :=
  ∀ w, K w → Behind service seen w ∧ ∀ process, w.process.Moves process → K { w with process }

theorem Enduring.after {K : WatchWorld → Prop} (hK : Enduring service seen K) (hw : K w) {ops : List ProcessOp}
    (hops : ∀ o ∈ ops, o.Plain) : K (w.after ops) := by
  have hrun : ∀ p : Process, K { w with process := p } → K { w with process := p.run ops } := by
    intro p hp
    refine run_invariant_of (I := fun p => K { w with process := p }) (fun p o hp ho => ?_) hp hops
    obtain ⟨hbehind, hmoves⟩ := hK _ hp
    exact hmoves _ (hbehind.good.step ho)
  exact hrun w.process hw

theorem Enduring.ask {K : WatchWorld → Prop} (hK : Enduring service seen K) (hw : K w) {op : BackendCall}
    {ends : op.Answer → WatchWorld → Prop}
    (hcall : ∀ w₁ choice answer w', K w₁ → WatchWorld.perform choice op w₁ = some (answer, w') → ends answer w') :
    (Controller.ask op).Always WatchWorld.Acts (Behind service seen) ends w := by
  refine .ask (hK w hw).1 fun answer w' hacts => ?_
  obtain ⟨ops, choice, hops, hperform⟩ := hacts
  exact hcall _ choice answer w' (hK.after hw hops) hperform

theorem enduring_reading (hplain : PlainName service) (hne : service ≠ "") (hP : Lasting P) (w₀ : WatchWorld) :
    Enduring service seen fun w => Reading service seen w₀ w ∧ P w.process := by
  refine fun w hw => ⟨hw.1.behind, fun process hmoves => ⟨hw.1.moves hplain hne hmoves, ?_⟩⟩
  exact hP _ _ hw.1.behind.good hmoves hw.2

def memoryServices (defaultLease : ℤ) : Services where
  defaultLease := defaultLease

variable {defaultLease : ℤ}

theorem always_registrySnapshot (h : Reading service seen w₀ w) (hplain : PlainName service) (hne : service ≠ "") :
    ((memoryServices defaultLease).registrySnapshot service).Always WatchWorld.Acts (Behind service seen)
      (fun snapshot w' => Reading service seen w₀ w' ∧ (∀ inst ∈ snapshot.instances, inst.service = service) ∧
        (w₀.process.registry.published service).version ≤ snapshot.version ∧
        (w'.process.registry.publication service).Since snapshot.version (· = snapshot)) w := by
  unfold Services.registrySnapshot
  rw [if_pos (show (memoryServices defaultLease).snapshotter = true from rfl)]
  have hcall : (Controller.ask (.snapshot service)).Always WatchWorld.Acts (Behind service seen)
      (fun (answer : Except RegistryError InstanceSnapshot) w' => Reading service seen w₀ w' ∧
        ∀ snapshot, answer = .ok snapshot → snapshot = w'.process.registry.published service) w := by
    refine (enduring_reading hplain hne (P := fun _ => True) (fun _ _ _ _ h => h) w₀).ask ⟨h, trivial⟩ ?_
    rintro w₁ choice answer w' ⟨hreading, -⟩ hperform
    cases hperform
    have hplainOp : (ProcessOp.snapshot choice.moment service).Plain := trivial
    have hmoves := hreading.behind.good.step hplainOp
    exact ⟨hreading.moves hplain hne hmoves, fun snapshot hok => MemoryRegistry.snapshot_published hok⟩
  refine hcall.bind ?_
  rintro answer w' ⟨hreading, hpublished⟩
  cases answer with
  | error err => trivial
  | ok snapshot =>
    obtain rfl := hpublished snapshot rfl
    exact .done ⟨hreading, fun inst hinst => hreading.behind.good.service hinst, hreading.registry, le_rfl, fun _ => rfl⟩

theorem always_healthVersion (h : Reading service seen w₀ w) (hplain : PlainName service) (hne : service ≠ "")
    (hP : Lasting P) (hw : P w.process) :
    ((memoryServices defaultLease).healthVersion service).Always WatchWorld.Acts (Behind service seen)
      (fun version w' => Reading service seen w₀ w' ∧ P w'.process ∧
        w₀.process.health.healthVersion service ≤ version ∧ version ≤ w'.process.health.healthVersion service) w := by
  unfold Services.healthVersion
  rw [if_pos (show (memoryServices defaultLease).health.any HealthInterfaces.versions = true from rfl)]
  refine (enduring_reading hplain hne hP w₀).ask ⟨h, hw⟩ ?_
  rintro w₁ choice answer w' ⟨hreading, hkept⟩ hperform
  cases hperform
  exact ⟨hreading, hkept, hreading.health, le_rfl⟩

theorem always_overlay (h : Reading service seen w₀ w) (hplain : PlainName service) (hne : service ≠ "")
    (hP : Lasting P) (hw : P w.process) {version : ℕ} (hversion : version ≤ w.process.health.healthVersion service)
    {inst : Instance} (hinst : inst.service = service) :
    ((memoryServices defaultLease).overlay inst).Always WatchWorld.Acts (Behind service seen)
      (fun message w' => Reading service seen w₀ w' ∧ P w'.process ∧
        (w'.process.health.showing service).Since version (Overlays service [inst] [message])) w := by
  have hcall : (Controller.ask (.healthGet inst.service inst.id)).Always WatchWorld.Acts (Behind service seen)
      (fun (found : Option EndpointHealth) w' => Reading service seen w₀ w' ∧ P w'.process ∧
        (w'.process.health.showing service).Since version
          (fun shows => shows inst.id = found.map EndpointHealth.shown)) w := by
    refine (enduring_reading hplain hne (hP.and (lasting_showing hplain hne version fun _ => True)) w₀).ask
      ⟨h, hw, hversion, fun _ => trivial⟩ ?_
    rintro w₁ choice answer w' ⟨hreading, hkept, hsince⟩ hperform
    cases hperform
    refine ⟨hreading, hkept, hsince.le, fun _ => ?_⟩
    rw [hinst]
    rfl
  refine hcall.bind ?_
  rintro found w' ⟨hreading, hkept, hfound⟩
  refine .done ⟨hreading, hkept, hfound.imp fun shows hshows get hget => ?_⟩
  rw [List.map_singleton, hinst, overlaid_congr inst (hshows.symm.trans (hget inst.id).symm)]

theorem Overlays.cons {inst : Instance} {rest : List Instance} {message : ServiceInstance} {messages : List ServiceInstance}
    {shows : String → Option (String × String × Code × ℚ)} (h : Overlays service [inst] [message] shows)
    (hrest : Overlays service rest messages shows) : Overlays service (inst :: rest) (message :: messages) shows := by
  intro get hget
  have hfirst := h get hget
  rw [List.map_cons, List.map_nil, List.cons.injEq] at hfirst
  rw [List.map_cons, ← hfirst.1, ← hrest get hget]

theorem always_overlayAll (h : Reading service seen w₀ w) (hplain : PlainName service) (hne : service ≠ "")
    (hP : Lasting P) (hw : P w.process) {version : ℕ} (hversion : version ≤ w.process.health.healthVersion service)
    {instances : List Instance} (hinstances : ∀ inst ∈ instances, inst.service = service) :
    ((memoryServices defaultLease).overlayAll instances).Always WatchWorld.Acts (Behind service seen)
      (fun messages w' => Reading service seen w₀ w' ∧ P w'.process ∧
        (w'.process.health.showing service).Since version (Overlays service instances messages)) w := by
  induction instances generalizing w P with
  | nil => exact .done ⟨h, hw, hversion, fun _ _ _ => rfl⟩
  | cons inst rest ih =>
    obtain ⟨hinst, hrest⟩ := List.forall_mem_cons.mp hinstances
    refine (always_overlay h hplain hne hP hw hversion hinst).bind ?_
    rintro message w₁ ⟨hreading₁, hkept₁, hfirst⟩
    refine (ih hreading₁ (hP.and (lasting_showing hplain hne version _)) ⟨hkept₁, hfirst⟩ hfirst.le hrest).bind ?_
    rintro messages w₂ ⟨hreading₂, ⟨hkept₂, hfirst₂⟩, hothers⟩
    exact .done ⟨hreading₂, hkept₂, (hfirst₂.and hothers).imp fun _ hboth => hboth.1.cons hboth.2⟩

theorem always_instancesView (h : Behind service seen w) (hplain : PlainName service) (hne : service ≠ "") :
    ((memoryServices defaultLease).instancesView service).Always WatchWorld.Acts (Behind service seen)
      (fun view w' => Reading service seen w w' ∧ w'.process.Follows service view ∧
        (w.process.registry.published service).version ≤ view.registryVersion ∧
        w.process.health.healthVersion service ≤ view.healthVersion) w := by
  unfold Services.instancesView
  refine (always_registrySnapshot h.reading hplain hne).bind ?_
  rintro snapshot w₁ ⟨hreading₁, hinstances, hregistry, hpublished⟩
  refine (always_healthVersion hreading₁ hplain hne (lasting_publication service _ _) hpublished).bind ?_
  rintro version w₂ ⟨hreading₂, hpublished₂, hhealth, hversion⟩
  refine (always_overlayAll hreading₂ hplain hne (lasting_publication service _ _) hpublished₂ hversion hinstances).bind ?_
  rintro messages w₃ ⟨hreading₃, hpublished₃, hoverlays⟩
  refine .done ⟨hreading₃, ⟨rfl, snapshot.instances, hpublished₃.imp fun _ heq => ?_, hoverlays⟩, hregistry, hhealth⟩
  rw [heq]

end

end AegisMesh.Controller

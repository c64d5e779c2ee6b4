import AegisMesh.Controller.PolicyService
import AegisMesh.Controller.Versions
import AegisMesh.Fault.Alike
import AegisMesh.Registry.Alike
import AegisMesh.Security.Auth

/-! # What a scoped caller can learn -/

open Lib

namespace AegisMesh.Controller

open Registry Fault Security

structure ControlPlane (σ : Type) where
  store : σ
  health : HealthManager
  policies : Option PolicyStore := none

/-- What one call draws from the world: the moments of its calls to the store, the fence it mints
and its clock readings. A report lists each service that it names once. -/
structure Draws where
  first : Moment := {}
  second : Moment := {}
  listAt : String → Moment := fun _ => {}
  fence : Fence := ⟨"", ""⟩
  now : ℕ := 0
  wall : ℕ := 0

inductive UnaryRequest
  | registerInstance (req : Option RegisterInstanceRequest)
  | heartbeat (req : Option HeartbeatRequest)
  | listInstances (service : Option String)
  | reportEndpointStats (samples : Option (List (Option EndpointStatsSample)))
  | listEndpointHealth (service : Option String)
  | getPolicy (service : Option String)

def UnaryRequest.request : UnaryRequest → Request
  | .registerInstance req => .registerInstance req
  | .heartbeat req => .heartbeat req
  | .listInstances service => .listInstances service
  | .reportEndpointStats samples => .reportEndpointStats samples
  | .listEndpointHealth service => .listEndpointHealth service
  | .getPolicy service => .getPolicy service

inductive Response
  | registered (response : RegisterInstanceResponse)
  | renewed (inst : ServiceInstance)
  | instances (response : ListInstancesResponse)
  | health (endpoints : List EndpointHealthMessage)
  | policy (snapshot : Policy.PolicySnapshot)

section Handlers

variable {σ : Type} (R : SnapshotStore σ) (defaultLease : ℤ)

def registerInstance (s : σ) (w : Draws) : Option RegisterInstanceRequest → Except StatusError RegisterInstanceResponse
  | some { inst := some proto, leaseTtlSeconds } =>
    let inst := instanceFromProto proto
    match R.register s w.first inst (leaseTTL defaultLease leaseTtlSeconds) w.fence with
    | (_, some err) => .error (statusFromRegistryError err)
    | (s, none) =>
      match (R.list s w.second inst.service).2 with
      | .error err => .error (statusFromRegistryError err)
      | .ok instances => registerResponse inst instances
  | _ => .error { code := .invalidArgument, message := "instance is required" }

def heartbeat (s : σ) (w : Draws) : Option HeartbeatRequest → Except StatusError ServiceInstance
  | none => .error { code := .invalidArgument, message := "heartbeat request is required" }
  | some req =>
    if req.registrationEpoch = "" ∨ req.ownerToken = "" then
      .error { code := .invalidArgument, message := "registration epoch and owner token are required" }
    else
      match R.heartbeatWithOwner s w.first req.service req.instanceId ⟨req.registrationEpoch, req.ownerToken⟩
          (leaseTTL defaultLease req.leaseTtlSeconds) with
      | (_, some err) => .error (statusFromRegistryError err)
      | (s, none) =>
        match (R.list s w.second req.service).2 with
        | .error err => .error (statusFromRegistryError err)
        | .ok instances =>
          match instances.find? fun inst => inst.id = req.instanceId with
          | some inst => .ok (instanceToProto inst)
          | none => .error { code := .notFound, message := "instance not found" }

def listInstances (c : ControlPlane σ) (w : Draws) : Option String → Except StatusError ListInstancesResponse
  | none => .error { code := .invalidArgument, message := "service is required" }
  | some service =>
    if service = "" then .error { code := .invalidArgument, message := "service is required" }
    else
      match (R.snapshot c.store w.first service).2 with
      | .error err => .error (statusFromRegistryError err)
      | .ok snapshot => .ok (instancesView snapshot (c.health.healthVersion service) c.health.get).response

def ControlPlane.listed (c : ControlPlane σ) (w : Draws) (service : String) : Except RegistryError (List Instance) :=
  (R.list c.store (w.listAt service) service).2

def ControlPlane.handle (c : ControlPlane σ) (w : Draws) : UnaryRequest → Except StatusError Response
  | .registerInstance req => (registerInstance R defaultLease c.store w req).map .registered
  | .heartbeat req => (heartbeat R defaultLease c.store w req).map .renewed
  | .listInstances service => (listInstances R c w service).map .instances
  | .reportEndpointStats samples => (reportEndpointStats (c.listed R w) c.health w.now w.wall samples).2.map .health
  | .listEndpointHealth service => .ok (.health (listEndpointHealth c.health service))
  | .getPolicy service => (getPolicy c.policies service).map .policy

def ControlPlane.respond (c : ControlPlane σ) (w : Draws) (principal : Option Principal) (req : UnaryRequest) :
    Except StatusError Response :=
  match authorizeControllerPrincipal principal req.request with
  | some err => .error err
  | none => c.handle R defaultLease w req

end Handlers

/-! ## Controllers that are alike -/

section Alike

variable {σ : Type}

structure ControlPlane.Alike (alike : String → σ → σ → Prop) (services : List String) (c c' : ControlPlane σ) :
    Prop where
  store : ∀ service ∈ services, alike service c.store c'.store
  health : ∀ service ∈ services, HealthManager.Alike service c.health c'.health
  calculator : c.health.calculator = c'.health.calculator
  policies : ∀ service ∈ services,
    c.policies.map (fun store => store service) = c'.policies.map fun store => store service

structure ControlPlane.Sound (good : σ → Prop) (c : ControlPlane σ) : Prop where
  store : good c.store
  health : c.health.Keyed

def SameElsewhere (services : List String) (m m' : HealthManager) : Prop :=
  ∀ key, (∀ service ∈ services, ∀ id, key ≠ scoreKey service id) →
    healthToProto (m.health.lookup key).toList = healthToProto (m'.health.lookup key).toList

def Reports (p : Principal) (w : Draws) (req : UnaryRequest) : Prop :=
  ∃ samples sample, req = .reportEndpointStats (some samples) ∧
    authorizeControllerPrincipal (some p) req.request = none ∧
    some sample ∈ samples ∧ sample.service ≠ "" ∧ (w.listAt sample.service).ctx 0 = false

def Lists (p : Principal) (w : Draws) (req : UnaryRequest) (service : String) : Prop :=
  req = .listInstances (some service) ∧ authorizeControllerPrincipal (some p) req.request = none ∧ w.first.ctx 0 = false

variable {R : SnapshotStore σ} {good : σ → Prop} {alike : String → σ → σ → Prop} {c c' : ControlPlane σ}
  {protos : List (Option EndpointStatsSample)} {message : EndpointHealthMessage}

theorem registerInstance_congr (hR : R.Separates good alike) {s s' : σ} (hs : good s) (hs' : good s')
    (defaultLease : ℤ) (w : Draws) {req : RegisterInstanceRequest} {proto : ServiceInstance}
    (hproto : req.inst = some proto) (h : alike proto.service s s') :
    registerInstance R defaultLease s w (some req) = registerInstance R defaultLease s' w (some req) := by
  obtain ⟨_, leaseTtlSeconds⟩ := req
  obtain rfl := hproto
  have halike : alike (instanceFromProto proto).service s s' := h
  obtain ⟨herr, halike⟩ := hR.register w.first (instanceFromProto proto) (leaseTTL defaultLease leaseTtlSeconds) w.fence
    hs hs' halike
  have hlist := hR.list w.second (instanceFromProto proto).service (hR.good_register s w.first _ _ w.fence hs)
    (hR.good_register s' w.first _ _ w.fence hs') halike
  unfold registerInstance
  dsimp only
  generalize R.register s w.first (instanceFromProto proto) (leaseTTL defaultLease leaseTtlSeconds) w.fence = out at *
  generalize R.register s' w.first (instanceFromProto proto) (leaseTTL defaultLease leaseTtlSeconds) w.fence = out' at *
  obtain ⟨t, err⟩ := out
  obtain ⟨t', err'⟩ := out'
  dsimp only at herr hlist
  subst herr
  cases err with
  | some err => rfl
  | none =>
    dsimp only
    rw [hlist]

theorem heartbeat_congr (hR : R.Separates good alike) {s s' : σ} (hs : good s) (hs' : good s') (defaultLease : ℤ)
    (w : Draws) {req : HeartbeatRequest} (h : alike req.service s s') :
    heartbeat R defaultLease s w (some req) = heartbeat R defaultLease s' w (some req) := by
  obtain ⟨herr, halike⟩ := hR.heartbeat w.first req.service req.instanceId ⟨req.registrationEpoch, req.ownerToken⟩
    (leaseTTL defaultLease req.leaseTtlSeconds) hs hs' h
  have hlist := hR.list w.second req.service
    (hR.good_heartbeat s w.first req.service req.instanceId ⟨req.registrationEpoch, req.ownerToken⟩ _ hs)
    (hR.good_heartbeat s' w.first req.service req.instanceId ⟨req.registrationEpoch, req.ownerToken⟩ _ hs') halike
  dsimp only [heartbeat]
  split
  · rfl
  generalize R.heartbeatWithOwner s w.first req.service req.instanceId ⟨req.registrationEpoch, req.ownerToken⟩
    (leaseTTL defaultLease req.leaseTtlSeconds) = out at *
  generalize R.heartbeatWithOwner s' w.first req.service req.instanceId ⟨req.registrationEpoch, req.ownerToken⟩
    (leaseTTL defaultLease req.leaseTtlSeconds) = out' at *
  obtain ⟨t, err⟩ := out
  obtain ⟨t', err'⟩ := out'
  dsimp only at herr hlist
  subst herr
  cases err with
  | some err => rfl
  | none =>
    dsimp only
    rw [hlist]

theorem listInstances_eq_iff (hR : R.Separates good alike) (hc : c.Sound good) (hc' : c'.Sound good) {service : String}
    (hservice : service ≠ "") (hstore : alike service c.store c'.store)
    (hhealth : HealthManager.Alike service c.health c'.health) (w : Draws) :
    listInstances R c w (some service) = listInstances R c' w (some service) ↔
      ∀ snap snap', (R.snapshot c.store w.first service).2 = .ok snap →
        (R.snapshot c'.store w.first service).2 = .ok snap' →
        combineInstancesVersion snap.version (c.health.healthVersion service) =
          combineInstancesVersion snap'.version (c.health.healthVersion service) := by
  have hlist := hR.list w.first service hc.store hc'.store hstore
  have hown := hR.own c.store w.first service
  rw [hR.snapshot, hR.snapshot] at hlist
  rw [hR.snapshot] at hown
  dsimp only [listInstances]
  rw [if_neg hservice, if_neg hservice]
  cases hsnap : (R.snapshot c.store w.first service).2 with
  | error err =>
    cases hsnap' : (R.snapshot c'.store w.first service).2 with
    | error err' =>
      have herr : err = err' := by simpa [hsnap, hsnap', Except.map] using hlist
      simp [herr]
    | ok snap' => simp [hsnap, hsnap', Except.map] at hlist
  | ok snap =>
    cases hsnap' : (R.snapshot c'.store w.first service).2 with
    | error err' => simp [hsnap, hsnap', Except.map] at hlist
    | ok snap' =>
      have hinstances : snap.instances = snap'.instances := by simpa [hsnap, hsnap', Except.map] using hlist
      have hviews : ∀ inst ∈ snap.instances, overlaid inst (c.health.get inst.service inst.id) =
          overlaid inst (c'.health.get inst.service inst.id) := by
        intro inst hinst
        rw [hown snap.instances hc.store (by rw [hsnap]; rfl) inst hinst, hhealth.get]
      simp only [instancesView, ← hhealth.version, ← hinstances, List.map_congr_left hviews, Except.ok.injEq,
        ListInstancesResponse.mk.injEq, true_and]
      constructor
      · rintro hversion _ _ rfl rfl
        exact hversion
      · exact fun hversion => hversion snap snap' rfl rfl

/-! ## Reports -/

theorem samplesFromProto_congr {listed listed' : String → Except RegistryError (List Instance)}
    (h : ∀ sample, some sample ∈ protos → sample.service ≠ "" → listed sample.service = listed' sample.service) :
    samplesFromProto listed protos = samplesFromProto listed' protos := by
  induction protos with
  | nil => rfl
  | cons first rest ih =>
    have hfirst : sampleFromProto listed first = sampleFromProto listed' first := by
      cases first with
      | none => rfl
      | some sample =>
        by_cases hservice : sample.service = ""
        · simp [sampleFromProto, hservice]
        · simp only [sampleFromProto, resolveTelemetryInstance, h sample List.mem_cons_self hservice]
    simp only [samplesFromProto, hfirst, ih fun sample hsample => h sample (List.mem_cons_of_mem _ hsample)]

theorem samplesFromProto_error {listed : String → Except RegistryError (List Instance)} {sample : EndpointStatsSample}
    (hsample : some sample ∈ protos) (hservice : sample.service ≠ "") {err : RegistryError}
    (h : listed sample.service = .error err) :
    ∃ err, samplesFromProto listed protos = .error err := by
  induction protos with
  | nil => cases hsample
  | cons first rest ih =>
    simp only [samplesFromProto]
    cases hfirst : sampleFromProto listed first with
    | error err' => exact ⟨err', rfl⟩
    | ok found =>
      rcases List.mem_cons.mp hsample with rfl | hsample
      · simp [sampleFromProto, hservice, resolveTelemetryInstance, h] at hfirst
      · obtain ⟨err', herr'⟩ := ih hsample
        exact ⟨err', by simp [herr', Except.map]⟩

def EndpointHealthMessage.names (message : EndpointHealthMessage) : String ×ₗ String :=
  toLex (message.service, message.instanceId)

theorem mem_healthToProto {health : List EndpointHealth} :
    message ∈ healthToProto health ↔ ∃ endpoint ∈ health, healthToProto [endpoint] = [message] := by
  simp [healthToProto]

theorem names_of_healthToProto {endpoint : EndpointHealth} (h : healthToProto [endpoint] = [message]) :
    message.service = endpoint.service ∧ message.instanceId = endpoint.instanceID := by
  simp only [healthToProto, List.map_cons, List.map_nil, List.cons.injEq, and_true] at h
  rw [← h]
  exact ⟨rfl, rfl⟩

theorem healthToProto_toList (found : Option EndpointHealth) :
    healthToProto found.toList = [message] ↔
      ∃ endpoint, found = some endpoint ∧ healthToProto [endpoint] = [message] := by
  cases found <;> simp [healthToProto]

theorem healthToProto_list_iff {m m' : HealthManager} (hm : m.Keyed) (hm' : m'.Keyed) :
    healthToProto (m.list "") = healthToProto (m'.list "") ↔
      ∀ key, healthToProto (m.health.lookup key).toList = healthToProto (m'.health.lookup key).toList := by
  have hmem : ∀ {m : HealthManager} {message : EndpointHealthMessage}, m.Keyed →
      (message ∈ healthToProto (m.list "") ↔
        healthToProto (m.health.lookup (scoreKey message.service message.instanceId)).toList = [message]) := by
    intro m message hm
    rw [healthToProto_toList, mem_healthToProto]
    constructor
    · rintro ⟨endpoint, hendpoint, hmessage⟩
      obtain ⟨⟨key, hl⟩, -⟩ := HealthManager.mem_list.mp hendpoint
      obtain ⟨hservice, hid⟩ := names_of_healthToProto hmessage
      rw [hservice, hid, hm key endpoint hl]
      exact ⟨endpoint, hl, hmessage⟩
    · rintro ⟨endpoint, hl, hmessage⟩
      exact ⟨endpoint, HealthManager.mem_list.mpr ⟨⟨_, hl⟩, .inl rfl⟩, hmessage⟩
  have hstrict : ∀ {m : HealthManager}, m.Keyed →
      (healthToProto (m.list "")).Pairwise fun a b => a.names < b.names := by
    intro m hm
    rw [healthToProto, List.pairwise_map]
    exact hm.list_strict ""
  constructor
  · intro heq
    have hsub : ∀ {m m' : HealthManager}, m.Keyed → m'.Keyed → healthToProto (m.list "") = healthToProto (m'.list "") →
        ∀ key endpoint, m.health.lookup key = some endpoint →
          healthToProto (m'.health.lookup key).toList = healthToProto [endpoint] := by
      intro m m' hm hm' heq key endpoint hl
      obtain ⟨message, hmessage⟩ : ∃ message, healthToProto [endpoint] = [message] := ⟨_, rfl⟩
      have hlisted : message ∈ healthToProto (m.list "") :=
        mem_healthToProto.mpr ⟨endpoint, HealthManager.mem_list.mpr ⟨⟨key, hl⟩, .inl rfl⟩, hmessage⟩
      rw [heq, hmem hm'] at hlisted
      obtain ⟨hservice, hid⟩ := names_of_healthToProto hmessage
      rw [hservice, hid, hm key endpoint hl] at hlisted
      rw [hlisted, hmessage]
    intro key
    cases hl : m.health.lookup key with
    | some endpoint => exact (hsub hm hm' heq key endpoint hl).symm
    | none =>
      cases hl' : m'.health.lookup key with
      | none => rfl
      | some endpoint =>
        have := hsub hm' hm heq.symm key endpoint hl'
        rw [hl] at this
        exact this
  · intro hkeys
    refine strict_ext _ (hstrict hm) (hstrict hm') fun message => ?_
    rw [hmem hm, hmem hm', hkeys]

theorem report_eq_iff (hR : R.Separates good alike) {p : Principal} (hc : c.Sound good) (hc' : c'.Sound good)
    (h : c.Alike alike p.services c') (w : Draws) {service : String} (hservice : service ≠ "")
    (hscope : service ∈ p.services) (hnamed : ∃ sample, some sample ∈ protos ∧ sample.service = service)
    (hone : ∀ sample, some sample ∈ protos → sample.service ≠ "" → sample.service = service) :
    (reportEndpointStats (c.listed R w) c.health w.now w.wall (some protos)).2 =
        (reportEndpointStats (c'.listed R w) c'.health w.now w.wall (some protos)).2 ↔
      ((w.listAt service).ctx 0 = false → SameElsewhere p.services c.health c'.health) := by
  have hlisted : c.listed R w service = c'.listed R w service :=
    hR.list (w.listAt service) service hc.store hc'.store (h.store service hscope)
  have hsamples : samplesFromProto (c.listed R w) protos = samplesFromProto (c'.listed R w) protos :=
    samplesFromProto_congr fun sample hsample hne => by rw [hone sample hsample hne, hlisted]
  have hlists := hR.lists c.store (w.listAt service) service hc.store hservice
  dsimp only [reportEndpointStats]
  rw [← hsamples]
  by_cases hctx : (w.listAt service).ctx 0 = false
  · obtain ⟨instances, hinstances⟩ := hlists.mpr hctx
    have hresolves : ∀ sample, some sample ∈ protos → sample.service ≠ "" →
        ∃ instances, c.listed R w sample.service = .ok instances :=
      fun sample hsample hne => ⟨instances, by rw [hone sample hsample hne]; exact hinstances⟩
    obtain ⟨samples, hok⟩ := samplesFromProto_ok hresolves
    have hown : ∀ sample ∈ samples, sample.service = service := by
      intro sample hsample
      obtain ⟨proto, hproto, hresolved⟩ := (mem_samplesFromProto hok).mp hsample
      cases proto with
      | none => cases hresolved
      | some proto =>
        obtain ⟨hne, _, inst, _, _, _, rfl⟩ := sampleFromProto_eq_some.mp hresolved
        exact hone proto hproto hne
    simp only [hok, hctx, true_implies, Except.ok.injEq]
    rw [healthToProto_list_iff (hc.health.update samples w.now w.wall) (hc'.health.update samples w.now w.wall)]
    constructor
    · intro hkeys key hkey
      have hsame := hkeys key
      rwa [HealthManager.lookup_update_frame hown (hkey service hscope),
        HealthManager.lookup_update_frame hown (hkey service hscope)] at hsame
    · intro helsewhere key
      by_cases hservice : ∃ id, key = scoreKey service id
      · obtain ⟨id, rfl⟩ := hservice
        exact congrArg (fun found : Option EndpointHealth => healthToProto found.toList)
          ((h.health service hscope).get_update h.calculator hown w.now w.wall id)
      · -- The samples leave the key alone, in both managers.
        simp only [not_exists] at hservice
        rw [HealthManager.lookup_update_frame hown hservice, HealthManager.lookup_update_frame hown hservice]
        by_cases hscoped : ∃ other ∈ p.services, ∃ id, key = scoreKey other id
        · obtain ⟨other, hother, id, rfl⟩ := hscoped
          exact congrArg (fun found : Option EndpointHealth => healthToProto found.toList)
            ((h.health other hother).get id)
        · exact helsewhere key fun other hother id hkey => hscoped ⟨other, hother, id, hkey⟩
  · cases hfailed : c.listed R w service with
    | ok instances => exact absurd (hlists.mp ⟨instances, hfailed⟩) hctx
    | error err =>
      obtain ⟨sample, hsample, rfl⟩ := hnamed
      obtain ⟨err', herr'⟩ := samplesFromProto_error hsample hservice hfailed
      simp [herr', hctx]

/-! ## One call -/

theorem map_eq_map_iff {ε α β : Type} {f : α → β} (hf : Function.Injective f) {x y : Except ε α} :
    x.map f = y.map f ↔ x = y := by
  cases x <;> cases y <;> simp [Except.map, hf.eq_iff]

theorem quiet_of_ne {p : Principal} {w : Draws} {req : UnaryRequest} {P : Prop} {Q : String → Prop}
    (hreport : ∀ samples, req ≠ .reportEndpointStats samples) (hlist : ∀ service, req ≠ .listInstances service) :
    (Reports p w req → P) ∧ ∀ service, Lists p w req service → Q service :=
  ⟨fun ⟨_, _, hreq, _⟩ => absurd hreq (hreport _), fun _ ⟨hreq, _⟩ => absurd hreq (hlist _)⟩

theorem respond_eq_iff (hR : R.Separates good alike) {p : Principal} (hp : p.Scoped) (hc : c.Sound good)
    (hc' : c'.Sound good) (h : c.Alike alike p.services c') (defaultLease : ℤ) (w : Draws) (req : UnaryRequest) :
    c.respond R defaultLease w (some p) req = c'.respond R defaultLease w (some p) req ↔
      (Reports p w req → SameElsewhere p.services c.health c'.health) ∧
      ∀ service, Lists p w req service → ∀ snap snap', (R.snapshot c.store w.first service).2 = .ok snap →
        (R.snapshot c'.store w.first service).2 = .ok snap' →
        combineInstancesVersion snap.version (c.health.healthVersion service) =
          combineInstancesVersion snap'.version (c.health.healthVersion service) := by
  unfold ControlPlane.respond
  cases hauth : authorizeControllerPrincipal (some p) req.request with
  | some err =>
    simp only [true_iff]
    refine ⟨fun ⟨_, _, _, hpass, _⟩ => ?_, fun _ ⟨_, hpass, _⟩ => ?_⟩ <;>
    · rw [hauth] at hpass
      cases hpass
  | none =>
    dsimp only
    cases req with
    | registerInstance req =>
      obtain ⟨name, hname, -, hscope⟩ := message_authorized hp.services (scope_checked hp hauth) rfl
      obtain ⟨message, rfl, hinst⟩ := Option.bind_eq_some_iff.mp hname
      obtain ⟨proto, hproto, rfl⟩ := Option.map_eq_some_iff.mp hinst
      refine iff_of_true (congrArg (Except.map Response.registered) ?_) (quiet_of_ne (fun _ => nofun) fun _ => nofun)
      exact registerInstance_congr hR hc.store hc'.store defaultLease w hproto (h.store _ hscope)
    | heartbeat req =>
      obtain ⟨name, hname, -, hscope⟩ := message_authorized hp.services (scope_checked hp hauth) rfl
      obtain ⟨message, rfl, rfl⟩ := Option.map_eq_some_iff.mp hname
      refine iff_of_true (congrArg (Except.map Response.renewed) ?_) (quiet_of_ne (fun _ => nofun) fun _ => nofun)
      exact heartbeat_congr hR hc.store hc'.store defaultLease w (h.store _ hscope)
    | listInstances service =>
      obtain ⟨name, rfl, hname, hscope⟩ := message_authorized hp.services (scope_checked hp hauth) rfl
      have hinjective : Function.Injective Response.instances := fun _ _ heq => Response.instances.inj heq
      refine (map_eq_map_iff hinjective).trans
        ((listInstances_eq_iff hR hc hc' hname (h.store name hscope) (h.health name hscope) w).trans ?_)
      constructor
      · refine fun hversion => ⟨fun ⟨_, _, hreq, _⟩ => (nomatch hreq), ?_⟩
        rintro service ⟨hreq, -⟩
        cases hreq
        exact hversion
      · intro hversion snap snap' hsnap
        have hctx : w.first.ctx 0 = false :=
          (hR.lists c.store w.first name hc.store hname).mp ⟨snap.instances, by rw [hR.snapshot, hsnap]; rfl⟩
        exact hversion.2 name ⟨rfl, hauth, hctx⟩ snap snap' hsnap
    | reportEndpointStats samples =>
      obtain ⟨protos, service, rfl, hservice, hscope, hnamed, hone⟩ := report_authorized hp.services (scope_checked hp hauth)
      have hinjective : Function.Injective Response.health := fun _ _ heq => Response.health.inj heq
      refine (map_eq_map_iff hinjective).trans ((report_eq_iff hR hc hc' h w hservice hscope hnamed hone).trans
        ⟨fun hsame => ⟨?_, fun _ ⟨hreq, _⟩ => (nomatch hreq)⟩, ?_⟩)
      · rintro ⟨_, sample, hreq, -, hsample, hne, hctx⟩
        cases hreq
        rw [hone sample hsample hne] at hctx
        exact hsame hctx
      · intro hsame hctx
        obtain ⟨sample, hsample, rfl⟩ := hnamed
        exact hsame.1 ⟨protos, sample, rfl, hauth, hsample, hservice, hctx⟩
    | listEndpointHealth service =>
      obtain ⟨name, rfl, hname, hscope⟩ := health_authorized hp.services (scope_checked hp hauth)
      refine iff_of_true ?_ (quiet_of_ne (fun _ => nofun) fun _ => nofun)
      simp only [ControlPlane.handle, listEndpointHealth, Option.getD_some,
        (h.health name hscope).list hc.health hc'.health hname]
    | getPolicy service =>
      obtain ⟨name, rfl, hname, hscope⟩ := message_authorized hp.services (scope_checked hp hauth) rfl
      refine iff_of_true (congrArg (Except.map Response.policy) ?_) (quiet_of_ne (fun _ => nofun) fun _ => nofun)
      have hpolicy := h.policies name hscope
      simp only [getPolicy, checkPolicyRequest, if_neg hname]
      cases hstore : c.policies with
      | none =>
        have hstore' : c'.policies = none := by simpa [hstore, eq_comm] using hpolicy
        rw [hstore']
      | some store =>
        cases hstore' : c'.policies with
        | none => simp [hstore, hstore'] at hpolicy
        | some store' =>
          have hsame : store name = store' name := by simpa [hstore, hstore'] using hpolicy
          simp only [hsame]

end Alike

/-! ## Every process -/

def Process.plane (p : Process) (policies : Option PolicyStore) : ControlPlane MemoryRegistry where
  store := p.registry
  health := p.health
  policies := policies

theorem Process.sound_step {p : Process} {policies : Option PolicyStore}
    (h : (p.plane policies).Sound fun r => ∃ t, r.WellFormed t) (op : ProcessOp) :
    ((p.step op).plane policies).Sound fun r => ∃ t, r.WellFormed t := by
  have hlaws := MemoryRegistry.store_keepsFences
  obtain ⟨hstore, hhealth⟩ := h
  cases op with
  | register m inst ttl fence => exact ⟨(hlaws.register p.registry m inst ttl fence hstore).1, hhealth⟩
  | heartbeat m service id fence ttl => exact ⟨(hlaws.heartbeat p.registry m service id fence ttl hstore).1, hhealth⟩
  | snapshot m service => exact ⟨(hlaws.list p.registry m service hstore).1, hhealth⟩
  | sweep m => exact ⟨(hlaws.sweep p.registry m hstore).1, hhealth⟩
  | update samples now wall => exact ⟨hstore, HealthManager.Keyed.update hhealth samples now wall⟩
  | tick now wall => exact ⟨hstore, HealthManager.Keyed.tick hhealth now wall⟩
  | mergeSnapshot records now => exact ⟨hstore, HealthManager.Keyed.mergeSnapshot hhealth records now⟩
  | pruneMissing retain => exact ⟨hstore, HealthManager.Keyed.pruneMissing hhealth retain⟩
  | configure service cfg now => exact ⟨hstore, HealthManager.Keyed.setServiceStateMachineConfig hhealth service cfg now⟩
  | replaceConfigs configs now =>
    exact ⟨hstore, HealthManager.Keyed.replaceServiceStateMachineConfigs hhealth configs now⟩

theorem Process.plane_sound (calculator : ScoreCalculator) (baseStateMachine : StateMachineConfig) (ops : List ProcessOp)
    (policies : Option PolicyStore) :
    (((Process.start calculator baseStateMachine).run ops).plane policies).Sound fun r => ∃ t, r.WellFormed t := by
  have hstart : ((Process.start calculator baseStateMachine).plane policies).Sound fun r => ∃ t, r.WellFormed t :=
    ⟨⟨0, MemoryRegistry.wellFormed_empty 0⟩, fun key health h => by simp [plane, start] at h⟩
  exact run_invariant (I := fun p : Process => (p.plane policies).Sound fun r => ∃ t, r.WellFormed t)
    (fun p op hp => Process.sound_step hp op) hstart ops

/-- For every caller with services of its own and every two controllers that are alike in these: the answers are one
exactly if the call is no report, or the endpoints of all other services show the same in both. Over a shared
store a list of a service without instances also needs revisions with one hash. -/
theorem scoped_response_iff {p : Principal} (hp : p.Scoped) (defaultLease : ℤ) (w : Draws) (req : UnaryRequest) :
    (∀ c c' : ControlPlane MemoryRegistry, c.Sound (fun r => ∃ t, r.WellFormed t) →
      c'.Sound (fun r => ∃ t, r.WellFormed t) → c.Alike MemoryRegistry.Alike p.services c' →
      (c.respond MemoryRegistry.snapshotStore defaultLease w (some p) req =
          c'.respond MemoryRegistry.snapshotStore defaultLease w (some p) req ↔
        (Reports p w req → SameElsewhere p.services c.health c'.health))) ∧
    ∀ (keyPrefix : String) (c c' : ControlPlane LeaseStore), c.Sound (LeaseStoreRegistry.shared keyPrefix).Filed →
      c'.Sound (LeaseStoreRegistry.shared keyPrefix).Filed →
      c.Alike (LeaseStoreRegistry.shared keyPrefix).SameEntries p.services c' →
      (c.respond (LeaseStoreRegistry.shared keyPrefix).snapshotStore defaultLease w (some p) req =
          c'.respond (LeaseStoreRegistry.shared keyPrefix).snapshotStore defaultLease w (some p) req ↔
        (Reports p w req → SameElsewhere p.services c.health c'.health) ∧
        ∀ service, Lists p w req service → (∀ e, ¬ (LeaseStoreRegistry.shared keyPrefix).Holds c.store service e) →
          combineInstancesVersion c.store.revision (c.health.healthVersion service) =
            combineInstancesVersion c'.store.revision (c.health.healthVersion service)) := by
  constructor
  · intro c c' hc hc' h
    rw [respond_eq_iff MemoryRegistry.snapshotStore_separates hp hc hc' h, and_iff_left]
    rintro service ⟨rfl, hauth, -⟩ snap snap' hsnap hsnap'
    obtain ⟨name, hname, -, hscope⟩ := message_authorized hp.services (scope_checked hp hauth) rfl
    obtain rfl := Option.some.inj hname
    obtain ⟨t, hwf⟩ := hc.store
    obtain ⟨t', hwf'⟩ := hc'.store
    have hsame := (h.store _ hscope).snapshot hwf hwf' w.first.ctx w.first.now
    rw [Except.ok.inj (hsnap.symm.trans (hsame.trans hsnap'))]
  · intro keyPrefix c c' hc hc' h
    have hvalues : c.Alike (LeaseStoreRegistry.shared keyPrefix).Alike p.services c' :=
      ⟨fun service hservice => (h.store service hservice).alike, h.health, h.calculator, h.policies⟩
    have hR := LeaseStoreRegistry.snapshotStore_separates keyPrefix
    rw [respond_eq_iff hR hp hc hc' hvalues]
    refine and_congr_right fun _ => forall_congr' fun service => forall_congr' fun hlists => ?_
    obtain ⟨rfl, hauth, hctx⟩ := hlists
    obtain ⟨name, hname, hne, hscope⟩ := message_authorized hp.services (scope_checked hp hauth) rfl
    obtain rfl := Option.some.inj hname
    obtain ⟨snap, hsnap⟩ := (LeaseStoreRegistry.snapshot_ok_iff hc.store w.first.ctx hne).mpr hctx
    obtain ⟨snap', hsnap'⟩ := (LeaseStoreRegistry.snapshot_ok_iff hc'.store w.first.ctx hne).mpr hctx
    have hshown := (LeaseStoreRegistry.snapshot_spec hsnap).instances
    have hiff : (∀ e, ¬ (LeaseStoreRegistry.shared keyPrefix).Holds c.store service e) ↔ snap.instances = [] := by
      simp [List.eq_nil_iff_forall_not_mem, hshown]
    simp only [LeaseStoreRegistry.snapshotStore, hsnap, hsnap', Except.ok.injEq, hiff]
    rcases (h.store service hscope).version hsnap hsnap' with ⟨hversion, hsome⟩ | ⟨hnil, hversion, hversion'⟩
    · simp [hversion, hsome]
    · simp [hversion, hversion', hnil]

/-! ## A caller for orders alone -/

def orderSdk : Principal where
  role := .sdk
  services := ["order"]

theorem orderSdk_scoped : orderSdk.Scoped := ⟨by decide, by decide, by decide⟩

def orderRegistry : MemoryRegistry :=
  (MemoryRegistry.store.register {} {} { id := "a", service := "order", address := "10.0.0.1:80" } 30000000000
    ⟨"epoch", "token"⟩).1

def userRecord (address : String) (updatedAt : ℕ) : EndpointHealth :=
  { newEndpointHealth "user" "b" address "" with updatedAt }

def withUser (address : String) (updatedAt : ℕ) : ControlPlane MemoryRegistry where
  store := orderRegistry
  health :=
    { calculator := newScoreCalculator {} 0
      baseStateMachine := {}
      health := AList.insert (scoreKey "user" "b") (userRecord address updatedAt) ∅ }

def orderReport : UnaryRequest := .reportEndpointStats (some [some { service := "order", instanceId := "a" }])

theorem withUser_sound (address : String) (updatedAt : ℕ) :
    (withUser address updatedAt).Sound fun r => ∃ t, r.WellFormed t where
  store := (MemoryRegistry.store_keepsFences.register {} {} _ _ _ ⟨0, MemoryRegistry.wellFormed_empty 0⟩).1
  health key health h := by
    simp only [withUser, Dict.lookup_insert'] at h
    split at h
    · rename_i hkey
      rw [hkey, ← Option.some.inj h]
      rfl
    · simp at h

theorem withUser_get_order (address : String) (updatedAt : ℕ) (id : String) :
    (withUser address updatedAt).health.get "order" id = none := by
  have hkey : scoreKey "order" id ≠ scoreKey "user" "b" := fun h =>
    absurd ((scoreKey_inj (by simp [PlainName]) (by simp [PlainName])).mp h).1 (by decide)
  simp only [HealthManager.get, withUser, Dict.lookup_insert', if_neg hkey]
  rfl

theorem withUser_alike (address address' : String) (updatedAt updatedAt' : ℕ) :
    (withUser address updatedAt).Alike MemoryRegistry.Alike orderSdk.services (withUser address' updatedAt') where
  store _ _ := MemoryRegistry.Alike.refl _ _
  health service hservice := by
    obtain rfl := List.mem_singleton.mp hservice
    exact ⟨fun id => by rw [withUser_get_order, withUser_get_order], rfl, rfl,
      fun id health h => by rw [withUser_get_order] at h; cases h⟩
  calculator := rfl
  policies _ _ := rfl

theorem hidden_time_stays_hidden :
    (withUser "10.0.0.9:80" 1).respond MemoryRegistry.snapshotStore 30000000000 {} (some orderSdk) orderReport =
      (withUser "10.0.0.9:80" 2).respond MemoryRegistry.snapshotStore 30000000000 {} (some orderSdk) orderReport := by
  refine ((scoped_response_iff orderSdk_scoped 30000000000 {} orderReport).1 _ _ (withUser_sound _ _)
    (withUser_sound _ _) (withUser_alike _ _ _ _)).mpr fun _ key _ => ?_
  simp only [withUser, Dict.lookup_insert']
  split <;> rfl

def Response.endpoints : Except StatusError Response → List (String × String)
  | .ok (.health messages) => messages.map fun message => (message.service, message.endpointAddress)
  | _ => []

/-- Two controllers that are alike in orders are told apart by an address of the other service. -/
theorem report_shows_other_service :
    orderSdk.Scoped ∧ ((withUser "10.0.0.8:80" 1).Sound fun r => ∃ t, r.WellFormed t) ∧
    ((withUser "10.0.0.9:80" 1).Sound fun r => ∃ t, r.WellFormed t) ∧
    (withUser "10.0.0.8:80" 1).Alike MemoryRegistry.Alike orderSdk.services (withUser "10.0.0.9:80" 1) ∧
    Response.endpoints
        ((withUser "10.0.0.8:80" 1).respond MemoryRegistry.snapshotStore 30000000000 {} (some orderSdk) orderReport) =
      [("order", "10.0.0.1:80"), ("user", "10.0.0.8:80")] ∧
    Response.endpoints
        ((withUser "10.0.0.9:80" 1).respond MemoryRegistry.snapshotStore 30000000000 {} (some orderSdk) orderReport) =
      [("order", "10.0.0.1:80"), ("user", "10.0.0.9:80")] :=
  ⟨orderSdk_scoped, withUser_sound _ _, withUser_sound _ _, withUser_alike _ _ _ _, by decide +kernel,
    by decide +kernel⟩

end AegisMesh.Controller

import AegisMesh.Controller.Handlers

/-!
# The handlers against a control plane

Run against the parts of a `ControlPlane`, the program of a unary method gives the answer of
the plane's own handler.
-/

open Lib

namespace AegisMesh.Controller

open Registry Fault Security

variable {σ : Type} (R : SnapshotStore σ) (defaultLease : ℤ) (c : ControlPlane σ) (w : Draws)

def ControlPlane.services : Services where
  defaultLease := defaultLease
  policyStore := c.policies.isSome

def ControlPlane.answers (listed : String → Except RegistryError (List Instance)) : (op : BackendCall) → op.Answer
  | .register inst lease => (R.register c.store w.first inst lease w.fence).2
  | .heartbeatWithOwner service id fence lease => (R.heartbeatWithOwner c.store w.first service id fence lease).2
  | .list service => listed service
  | .snapshot service => (R.snapshot c.store w.first service).2
  | .watch _ _ => true
  | .healthVersion service => c.health.healthVersion service
  | .healthGet service instanceID => c.health.get service instanceID
  | .healthState service instanceID => (c.health.get service instanceID).map EndpointHealth.state
  | .watchHealth _ _ => true
  | .healthList service => c.health.list service
  | .healthUpdate samples => (c.health.update samples w.now w.wall).list ""
  | .recordHealth _ => ()
  | .saveHealth _ => ()
  | .policyGet service => c.policies.bind fun store => store service
  | .reloadIfChanged => none
  | .sendInstances _ => none
  | .sendPolicy _ => none

def ControlPlane.listedFor : UnaryRequest → String → Except RegistryError (List Instance)
  | .registerInstance (some { inst := some proto, leaseTtlSeconds }), service =>
    (R.list (R.register c.store w.first (instanceFromProto proto) (leaseTTL defaultLease leaseTtlSeconds) w.fence).1
      w.second service).2
  | .heartbeat (some req), service =>
    (R.list (R.heartbeatWithOwner c.store w.first req.service req.instanceId
      ⟨req.registrationEpoch, req.ownerToken⟩ (leaseTTL defaultLease req.leaseTtlSeconds)).1 w.second service).2
  | _, service => c.listed R w service

variable {R defaultLease c w} {listed : String → Except RegistryError (List Instance)}
  {cache : Dict String (List Instance)}

theorem eval_registerInstance (req : Option RegisterInstanceRequest) :
    ((c.services defaultLease).registerInstance req).eval
        (c.answers R w (c.listedFor R defaultLease w (.registerInstance req))) =
      registerInstance R defaultLease c.store w req := by
  match req with
  | none => rfl
  | some { inst := none, leaseTtlSeconds } => rfl
  | some { inst := some proto, leaseTtlSeconds } =>
    dsimp only [Services.registerInstance, registerInstance, Bind.bind, Program.bind, ask, Program.ask, Program.eval,
      ControlPlane.answers, ControlPlane.services]
    cases hreg : R.register c.store w.first (instanceFromProto proto) (leaseTTL defaultLease leaseTtlSeconds) w.fence with
    | mk stored err =>
    cases err with
    | some err => rfl
    | none =>
      dsimp only [Program.eval, ControlPlane.answers, ControlPlane.listedFor]
      rw [hreg]
      cases (R.list stored w.second (instanceFromProto proto).service).2 with
      | error err => rfl
      | ok instances =>
        dsimp only
        cases registerResponse (instanceFromProto proto) instances <;> rfl

theorem eval_heartbeat (req : Option HeartbeatRequest) :
    ((c.services defaultLease).heartbeat req).eval
        (c.answers R w (c.listedFor R defaultLease w (.heartbeat req))) =
      heartbeat R defaultLease c.store w req := by
  cases req with
  | none => rfl
  | some req =>
    dsimp only [Services.heartbeat, heartbeat, Bind.bind, Program.bind, ask, Program.ask, ControlPlane.services]
    split
    · rfl
    rw [if_pos rfl, Program.eval_call]
    dsimp only [ControlPlane.answers]
    cases hbeat : R.heartbeatWithOwner c.store w.first req.service req.instanceId
        ⟨req.registrationEpoch, req.ownerToken⟩ (leaseTTL defaultLease req.leaseTtlSeconds) with
    | mk stored err =>
    cases err with
    | some err => rfl
    | none =>
      dsimp only [Program.eval, ControlPlane.answers, ControlPlane.listedFor]
      rw [hbeat]
      cases (R.list stored w.second req.service).2 with
      | error err => rfl
      | ok instances =>
        dsimp only
        cases instances.find? fun inst => inst.id = req.instanceId <;> rfl

theorem eval_overlayAll (instances : List Instance) :
    ((c.services defaultLease).overlayAll instances).eval (c.answers R w listed) =
      .ok (instances.map fun inst => overlaid inst (c.health.get inst.service inst.id)) := by
  induction instances with
  | nil => rfl
  | cons inst rest ih =>
    have hfirst : ((c.services defaultLease).overlay inst).eval (c.answers R w listed) =
        .ok (overlaid inst (c.health.get inst.service inst.id)) := rfl
    rw [Services.overlayAll, Program.eval_bind_ok _ hfirst, Program.eval_bind_ok _ ih]
    rfl

theorem eval_registrySnapshot (service : String) :
    ((c.services defaultLease).registrySnapshot service).eval (c.answers R w listed) =
      (R.snapshot c.store w.first service).2.mapError statusFromRegistryError := by
  dsimp only [Services.registrySnapshot, ControlPlane.services, Bind.bind, Program.bind, ask, Program.ask]
  rw [if_pos rfl, Program.eval_call]
  dsimp only [ControlPlane.answers]
  cases (R.snapshot c.store w.first service).2 <;> rfl

theorem eval_listInstances (service : Option String) :
    ((c.services defaultLease).listInstances service).eval (c.answers R w listed) = listInstances R c w service := by
  cases service with
  | none => rfl
  | some service =>
    dsimp only [Services.listInstances, listInstances, Services.instancesView]
    split
    · rfl
    rw [Program.eval_bind, Program.eval_bind, eval_registrySnapshot]
    cases hsnapshot : (R.snapshot c.store w.first service).2 with
    | error err => rfl
    | ok snapshot =>
      have hversion : ((c.services defaultLease).healthVersion service).eval (c.answers R w listed) =
          .ok (c.health.healthVersion service) := rfl
      dsimp only [Except.mapError, Except.bind]
      rw [Program.eval_bind_ok _ hversion, Program.eval_bind_ok _ (eval_overlayAll _)]
      rfl

def Cached (listed : String → Except RegistryError (List Instance)) (cache : Dict String (List Instance)) : Prop :=
  ∀ service instances, cache.lookup service = some instances → listed service = .ok instances

theorem Cached.insert (hcache : Cached listed cache) {service : String} {instances : List Instance}
    (h : listed service = .ok instances) : Cached listed (cache.insert service instances) := by
  exact Dict.forall_lookup_insert.mpr ⟨h, fun other found _ hfound => hcache other found hfound⟩

theorem eval_listOnce (hcache : Cached listed cache) {service : String} (hservice : service ≠ "") :
    (∃ err, listed service = .error err ∧
      (Services.listOnce cache service).eval (c.answers R w listed) = .error (statusFromRegistryError err)) ∨
    ∃ instances cache', listed service = .ok instances ∧ Cached listed cache' ∧
      (Services.listOnce cache service).eval (c.answers R w listed) = .ok (instances, cache') := by
  dsimp only [Services.listOnce, Bind.bind, Program.bind, ask, Program.ask]
  rw [if_neg hservice]
  cases hfound : cache.lookup service with
  | some instances => exact .inr ⟨instances, cache, hcache service instances hfound, hcache, rfl⟩
  | none =>
    dsimp only [Program.eval, ControlPlane.answers]
    cases hlisted : listed service with
    | error err => exact .inl ⟨err, rfl, rfl⟩
    | ok instances => exact .inr ⟨instances, cache.insert service instances, rfl, hcache.insert hlisted, rfl⟩

theorem eval_samplesFromProto (hcache : Cached listed cache) (protos : List (Option EndpointStatsSample)) :
    (Services.samplesFromProto cache protos).eval (c.answers R w listed) = samplesFromProto listed protos := by
  induction protos generalizing cache with
  | nil => rfl
  | cons first rest ih =>
    have hskip : ∀ {cache}, Cached listed cache → (Services.samplesFromProto cache rest).eval (c.answers R w listed) =
        (samplesFromProto listed rest).map fun samples => [] ++ samples := by
      intro cache hcache
      rw [ih hcache]
      cases samplesFromProto listed rest <;> rfl
    cases first with
    | none => exact hskip hcache
    | some sample =>
      dsimp only [Services.samplesFromProto, samplesFromProto, sampleFromProto, resolveTelemetryInstance]
      by_cases hservice : sample.service = ""
      · rw [if_pos hservice, if_pos hservice]
        exact hskip hcache
      rw [if_neg hservice, if_neg hservice]
      rcases eval_listOnce (R := R) (c := c) (w := w) hcache hservice with
        ⟨err, hlisted, hfail⟩ | ⟨instances, cache', hlisted, hcache', hfound⟩
      · rw [Program.eval_bind, hfail, hlisted]
        rfl
      · rw [Program.eval_bind_ok _ hfound, hlisted]
        dsimp only
        cases resolveAmong instances sample.instanceId sample.endpointAddress with
        | none => exact hskip hcache'
        | some inst =>
          dsimp only
          by_cases hstale : staleEpoch sample inst = true
          · rw [if_pos hstale, if_pos hstale]
            exact hskip hcache'
          · rw [if_neg hstale, if_neg hstale, Program.eval_bind, ih hcache']
            cases samplesFromProto listed rest <;> rfl

theorem eval_reportEndpointStats (samples : Option (List (Option EndpointStatsSample))) :
    ((c.services defaultLease).reportEndpointStats samples).eval (c.answers R w listed) =
      (reportEndpointStats listed c.health w.now w.wall samples).2 := by
  cases samples with
  | none => rfl
  | some protos =>
    have hempty : Cached listed ∅ := by
      intro service instances h
      cases h
    dsimp only [Services.reportEndpointStats, reportEndpointStats]
    rw [Program.eval_bind, eval_samplesFromProto hempty]
    cases samplesFromProto listed protos <;> rfl

theorem eval_getPolicy (service : Option String) :
    ((c.services defaultLease).getPolicy service).eval (c.answers R w listed) = getPolicy c.policies service := by
  cases service with
  | none => rfl
  | some service =>
    dsimp only [Services.getPolicy, getPolicy, Services.policyService, checkPolicyRequest, ControlPlane.services]
    by_cases hservice : service = ""
    · rw [if_pos hservice, if_pos hservice]
      rfl
    rw [if_neg hservice, if_neg hservice]
    cases hpolicies : c.policies with
    | none => rfl
    | some store =>
      have hanswer : c.answers R w listed (.policyGet service) = store service := by
        dsimp only [ControlPlane.answers]
        rw [hpolicies]
        rfl
      dsimp only [Option.isSome, ask, Program.ask, Bind.bind, Program.bind]
      rw [if_pos rfl]
      dsimp only [pure, Program.bind, Program.eval]
      rw [hanswer]
      cases store service <;> rfl

/-- The programs of the unary methods are the handlers of a control plane. -/
theorem eval_respond (req : UnaryRequest) :
    ((c.services defaultLease).respond req).eval (c.answers R w (c.listedFor R defaultLease w req)) =
      c.handle R defaultLease w req := by
  cases req with
  | registerInstance req =>
    rw [Services.respond, Program.eval_bind, eval_registerInstance, ControlPlane.handle]
    cases registerInstance R defaultLease c.store w req <;> rfl
  | heartbeat req =>
    rw [Services.respond, Program.eval_bind, eval_heartbeat, ControlPlane.handle]
    cases heartbeat R defaultLease c.store w req <;> rfl
  | listInstances service =>
    rw [Services.respond, Program.eval_bind, eval_listInstances, ControlPlane.handle]
    cases listInstances R c w service <;> rfl
  | reportEndpointStats samples =>
    have hlisted : c.listedFor R defaultLease w (.reportEndpointStats samples) = c.listed R w := rfl
    rw [Services.respond, Program.eval_bind, eval_reportEndpointStats, ControlPlane.handle, hlisted]
    cases (reportEndpointStats (c.listed R w) c.health w.now w.wall samples).2 <;> rfl
  | listEndpointHealth service => rfl
  | getPolicy service =>
    rw [Services.respond, Program.eval_bind, eval_getPolicy, ControlPlane.handle]
    cases getPolicy c.policies service <;> rfl

end AegisMesh.Controller

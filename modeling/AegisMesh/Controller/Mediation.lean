import AegisMesh.Controller.HandlerRuns
import AegisMesh.Security.Interceptor

/-! # What the credential of a call lets its handler touch -/

open Lib

namespace AegisMesh.Controller

open Registry Fault Security Services

/-! ## Served calls -/

def handlerContext (a : TokenAuthenticator) (ctx : Context) (call : ControllerCall) : Except StatusError Context :=
  match call with
  | .unary _ => a.unaryServerInterceptor ctx call.request
  | .watchInstances _ _ => streamServerInterceptor a ctx call.request
  | .watchPolicy _ _ => streamServerInterceptor a ctx call.request

def GoesPastCheck (a : TokenAuthenticator) (ctx : Context) (call : ControllerCall) : Prop :=
  ∃ ctx', handlerContext a ctx call = .ok ctx' ∧ authorizeControllerPrincipal ctx'.principal call.request = none

def Services.serve (c : Services) (a : TokenAuthenticator) (ctx : Context) (call : ControllerCall) : Handler CallResult :=
  match handlerContext a ctx call with
  | .error err => .fail err
  | .ok ctx =>
    match authorizeControllerPrincipal ctx.principal call.request with
    | some err => .fail err
    | none => c.handle call

theorem handlerContext_eq (a : TokenAuthenticator) (ctx : Context) (call : ControllerCall) :
    handlerContext a ctx call = a.unaryServerInterceptor ctx call.request := by
  cases call with
  | unary req => rfl
  | watchInstances req wakes => exact TokenAuthenticator.streamServerInterceptor_eq a ctx _
  | watchPolicy service ticks => exact TokenAuthenticator.streamServerInterceptor_eq a ctx _

theorem serve_eq {a : TokenAuthenticator} {ctx : Context} {call : ControllerCall} (h : GoesPastCheck a ctx call)
    (c : Services) : c.serve a ctx call = c.handle call := by
  obtain ⟨ctx', hctx, hcheck⟩ := h
  simp only [Services.serve, hctx, hcheck]

/-! ## Handlers that stay with one service -/

def OnlyNames (service : String) (op : BackendCall) : Prop := ∀ name ∈ op.services, name = service

abbrev StaysWith {α : Type} (service : String) (x : Handler α) : Prop := x.Ensures (OnlyNames service) fun _ => True

variable {c : Services} {service : String} {op : BackendCall}

theorem staysWith_ask {α : Type} {next : op.Answer → Handler α} (hop : OnlyNames service op)
    (hnext : ∀ answer, StaysWith service (next answer)) : StaysWith service (ask op >>= next) := ⟨hop, hnext⟩

theorem StaysWith.bind {α β : Type} {x : Handler α} {f : α → Handler β} (hx : StaysWith service x)
    (hf : ∀ a, StaysWith service (f a)) : StaysWith service (x >>= f) :=
  Program.Ensures.bind hx fun a _ => hf a

theorem onlyNames_self (h : op.services = [service]) : OnlyNames service op := by
  intro name hname
  rw [h, List.mem_singleton] at hname
  exact hname

theorem onlyNames_none (h : op.services = []) : OnlyNames service op := by
  intro name hname
  rw [h] at hname
  cases hname

theorem registerInstance_staysWith (proto : ServiceInstance) (leaseTtlSeconds : ℤ) :
    StaysWith proto.service (c.registerInstance (some { inst := some proto, leaseTtlSeconds })) := by
  refine staysWith_ask (onlyNames_self rfl) fun err => ?_
  cases err with
  | some err => trivial
  | none =>
    refine staysWith_ask (onlyNames_self rfl) fun listed => ?_
    cases listed with
    | error err => trivial
    | ok instances =>
      dsimp only
      split <;> trivial

theorem heartbeat_staysWith (req : HeartbeatRequest) : StaysWith req.service (c.heartbeat (some req)) := by
  dsimp only [Services.heartbeat]
  split
  · trivial
  split
  · refine staysWith_ask (onlyNames_self rfl) fun err => ?_
    cases err with
    | some err => trivial
    | none =>
      refine staysWith_ask (onlyNames_self rfl) fun listed => ?_
      cases listed with
      | error err => trivial
      | ok instances =>
        dsimp only
        split <;> trivial
  · trivial

theorem registrySnapshot_staysWith : StaysWith service (c.registrySnapshot service) := by
  unfold Services.registrySnapshot
  split <;>
  · refine staysWith_ask (onlyNames_self rfl) fun answer => ?_
    cases answer <;> trivial

theorem overlayAll_staysWith (instances : List Instance) : StaysWith service (c.overlayAll instances) := by
  induction instances with
  | nil => trivial
  | cons inst rest ih =>
    refine StaysWith.bind ?_ fun first => StaysWith.bind ih fun others => trivial
    unfold Services.overlay
    split
    · trivial
    split
    · exact staysWith_ask (onlyNames_none rfl) fun found => trivial
    · refine staysWith_ask (onlyNames_none rfl) fun state => ?_
      cases state <;> trivial

theorem instancesView_staysWith : StaysWith service (c.instancesView service) := by
  refine registrySnapshot_staysWith.bind fun snapshot => StaysWith.bind ?_ fun version =>
    (overlayAll_staysWith snapshot.instances).bind fun instances => trivial
  unfold Services.healthVersion
  split
  · exact staysWith_ask (onlyNames_none rfl) fun version => trivial
  · trivial

theorem listInstances_staysWith : StaysWith service (c.listInstances (some service)) := by
  dsimp only [Services.listInstances]
  split
  · trivial
  · exact instancesView_staysWith.bind fun view => trivial

theorem sendInstancesIfChanged_staysWith (lastSentVersion : ℤ) :
    StaysWith service (c.sendInstancesIfChanged service lastSentVersion) := by
  refine instancesView_staysWith.bind fun view => ?_
  split
  · trivial
  · refine staysWith_ask (onlyNames_none rfl) fun err => ?_
    cases err <;> trivial

theorem watchRegistry_staysWith (afterVersion : ℕ) : StaysWith service (c.watchRegistry service afterVersion) := by
  unfold Services.watchRegistry
  split
  · exact staysWith_ask (onlyNames_self rfl) fun opened => trivial
  · trivial

theorem watchHealth_staysWith (afterVersion : ℕ) : StaysWith service (c.watchHealth service afterVersion) := by
  unfold Services.watchHealth
  split
  · exact staysWith_ask (onlyNames_none rfl) fun opened => trivial
  · trivial

theorem restartClosedWatches_staysWith (view : InstancesView) (l : WatchLocals) :
    StaysWith service (c.restartClosedWatches service view l) := by
  refine StaysWith.bind ?_ fun registryUpdates => StaysWith.bind ?_ fun healthUpdates => trivial
  · split
    · trivial
    · exact watchRegistry_staysWith view.registryVersion
  · split
    · exact watchHealth_staysWith view.healthVersion
    · trivial

theorem watchTurn_staysWith (l : WatchLocals) (wake : Wake) : StaysWith service (c.watchTurn service l wake) := by
  match wake with
  | .done => trivial
  | .registry false => trivial
  | .health false => trivial
  | .registry true => exact (sendInstancesIfChanged_staysWith l.lastSentVersion).bind fun sent => trivial
  | .health true => exact (sendInstancesIfChanged_staysWith l.lastSentVersion).bind fun sent => trivial
  | .tick =>
    exact (sendInstancesIfChanged_staysWith l.lastSentVersion).bind fun sent =>
      (restartClosedWatches_staysWith sent.1 _).bind fun l => trivial

theorem watchLoop_staysWith (l : WatchLocals) (wakes : List Wake) :
    StaysWith service (c.watchLoop service l wakes) := by
  induction wakes generalizing l with
  | nil => trivial
  | cons wake rest ih =>
    dsimp only [Services.watchLoop]
    split
    · refine (watchTurn_staysWith l wake).bind fun l => ?_
      cases l with
      | none => trivial
      | some l => exact ih l
    · exact ih l

theorem watchInstances_staysWith (wakes : List Wake) (req : WatchInstancesRequest) :
    StaysWith req.service (c.watchInstances wakes (some req)) := by
  dsimp only [Services.watchInstances]
  split
  · trivial
  · refine StaysWith.bind ?_ fun l => watchLoop_staysWith l wakes
    exact (sendInstancesIfChanged_staysWith req.lastSeenVersion).bind fun sent =>
      (watchRegistry_staysWith sent.1.registryVersion).bind fun registryUpdates =>
        (watchHealth_staysWith sent.1.healthVersion).bind fun healthUpdates => trivial

theorem samplesFromProto_ensures {protos : List (Option EndpointStatsSample)}
    (h : ∀ sample, some sample ∈ protos → sample.service ≠ "" → sample.service = service)
    (cache : Dict String (List Instance)) :
    (Services.samplesFromProto cache protos).Ensures (OnlyNames service)
      fun samples => ∀ sample ∈ samples, sample.service = service := by
  induction protos generalizing cache with
  | nil => exact fun sample hsample => absurd hsample List.not_mem_nil
  | cons first rest ih =>
    have hrest := ih fun sample hsample => h sample (List.mem_cons_of_mem _ hsample)
    cases first with
    | none => exact hrest cache
    | some sample =>
      dsimp only [Services.samplesFromProto]
      split
      · exact hrest cache
      rename_i hnamed
      have hservice : sample.service = service := h sample List.mem_cons_self hnamed
      have hlist : StaysWith service (Services.listOnce cache sample.service) := by
        unfold Services.listOnce
        rw [if_neg hnamed]
        split
        · trivial
        · refine staysWith_ask (onlyNames_self (by rw [← hservice]; rfl)) fun answer => ?_
          cases answer <;> trivial
      refine Program.Ensures.bind hlist fun found _ => ?_
      split
      · exact hrest found.2
      · split
        · exact hrest found.2
        · refine (hrest found.2).bind fun samples hsamples => ?_
          intro attributedSample hmem
          rcases List.mem_cons.mp hmem with rfl | hmem
          · exact hservice
          · exact hsamples attributedSample hmem

theorem recordHealth_staysWith (health : List EndpointHealth) : StaysWith service (Services.recordHealth health) := by
  induction health with
  | nil => trivial
  | cons endpoint rest ih => exact staysWith_ask (onlyNames_none rfl) fun answer => ih

theorem reportEndpointStats_staysWith {protos : List (Option EndpointStatsSample)}
    (h : ∀ sample, some sample ∈ protos → sample.service ≠ "" → sample.service = service) :
    StaysWith service (c.reportEndpointStats (some protos)) := by
  refine (samplesFromProto_ensures h ∅).bind fun samples hsamples => staysWith_ask ?_ fun health =>
    (recordHealth_staysWith _).bind fun recorded => StaysWith.bind ?_ fun saved => trivial
  · intro name hname
    obtain ⟨sample, hsample, rfl⟩ := List.mem_map.mp hname
    exact hsamples sample hsample
  · unfold Services.saveHealthSnapshot
    split
    · exact staysWith_ask (onlyNames_none rfl) fun answer => trivial
    · trivial

theorem policyService_ensures (allowed : BackendCall → Prop) :
    (c.policyService (some service)).Ensures allowed fun name => name = service := by
  dsimp only [Services.policyService]
  split
  · trivial
  split
  · exact rfl
  · trivial

theorem getPolicy_staysWith : StaysWith service (c.getPolicy (some service)) := by
  refine (policyService_ensures _).bind fun name hname => staysWith_ask (onlyNames_self (by rw [hname]; rfl)) fun found => ?_
  cases found <;> trivial

theorem sendPolicyIfChanged_staysWith (lastRevision : ℤ) :
    StaysWith service (Services.sendPolicyIfChanged service lastRevision) := by
  refine staysWith_ask (onlyNames_self rfl) fun found => ?_
  split
  · trivial
  · trivial
  · refine staysWith_ask (onlyNames_none rfl) fun err => ?_
    cases err <;> trivial

theorem policyLoop_staysWith (lastRevision : ℤ) (ticks : ℕ) :
    StaysWith service (c.policyLoop service lastRevision ticks) := by
  induction ticks generalizing lastRevision with
  | zero => trivial
  | succ ticks ih =>
    refine StaysWith.bind ?_ fun reloaded => (sendPolicyIfChanged_staysWith lastRevision).bind fun revision => ih revision
    unfold Services.reload
    split
    · refine staysWith_ask (onlyNames_none rfl) fun err => ?_
      cases err <;> trivial
    · trivial

theorem watchPolicy_staysWith (ticks : ℕ) : StaysWith service (c.watchPolicy ticks (some service)) := by
  refine (policyService_ensures _).bind fun name hname => ?_
  rw [hname]
  exact (sendPolicyIfChanged_staysWith 0).bind fun revision => policyLoop_staysWith revision ticks

/-! ## Calls of a scoped principal -/

theorem handle_staysWith {p : Principal} {call : ControllerCall} (hservices : p.services ≠ [])
    (h : authorizePrincipalScope p call.request = none) (c : Services) :
    ∃ service, service ≠ "" ∧ service ∈ p.services ∧ StaysWith service (c.handle call) := by
  match call with
  | .unary (.registerInstance req) =>
    obtain ⟨name, hname, hne, hmem⟩ := message_authorized hservices h rfl
    match req with
    | none => cases hname
    | some { inst := none, leaseTtlSeconds } => cases hname
    | some { inst := some proto, leaseTtlSeconds } =>
      cases hname
      exact ⟨_, hne, hmem, StaysWith.bind ((registerInstance_staysWith proto leaseTtlSeconds).bind fun response => trivial)
        fun response => trivial⟩
  | .unary (.heartbeat req) =>
    obtain ⟨name, hname, hne, hmem⟩ := message_authorized hservices h rfl
    cases req with
    | none => cases hname
    | some req =>
      cases hname
      exact ⟨_, hne, hmem, StaysWith.bind ((heartbeat_staysWith req).bind fun inst => trivial) fun response => trivial⟩
  | .unary (.listInstances service) =>
    obtain ⟨name, rfl, hne, hmem⟩ := message_authorized hservices h rfl
    exact ⟨name, hne, hmem, StaysWith.bind (listInstances_staysWith.bind fun response => trivial) fun response => trivial⟩
  | .unary (.reportEndpointStats samples) =>
    obtain ⟨protos, service, rfl, hne, hmem, -, hone⟩ := report_authorized hservices h
    exact ⟨service, hne, hmem, StaysWith.bind ((reportEndpointStats_staysWith hone).bind fun health => trivial)
      fun response => trivial⟩
  | .unary (.listEndpointHealth service) =>
    obtain ⟨name, rfl, hne, hmem⟩ := health_authorized hservices h
    exact ⟨name, hne, hmem, staysWith_ask (onlyNames_self rfl) fun health => trivial⟩
  | .unary (.getPolicy service) =>
    obtain ⟨name, rfl, hne, hmem⟩ := message_authorized hservices h rfl
    exact ⟨name, hne, hmem, StaysWith.bind (getPolicy_staysWith.bind fun snapshot => trivial) fun response => trivial⟩
  | .watchInstances req wakes =>
    obtain ⟨name, hname, hne, hmem⟩ := message_authorized hservices h rfl
    cases req with
    | none => cases hname
    | some req =>
      cases hname
      exact ⟨_, hne, hmem, (watchInstances_staysWith wakes req).bind fun result => trivial⟩
  | .watchPolicy service ticks =>
    obtain ⟨name, rfl, hne, hmem⟩ := message_authorized hservices h rfl
    exact ⟨name, hne, hmem, (watchPolicy_staysWith ticks).bind fun result => trivial⟩

/-- A handler goes past its check only for a principal with the admin role or a role listed for the method. Unless
that role is admin, a principal with services of its own has the handler name those alone. -/
theorem service_scope_is_mediated {a : TokenAuthenticator} (ha : a.enabled = true) {ctx : Context}
    {call : ControllerCall} (hpast : GoesPastCheck a ctx call) (c : Services) :
    ∃ p, a.principalFromContext ctx = .ok p ∧
      (p.role = .admin ∨ roleAllowed p.role (a.rules call.request.method) = true) ∧
      (p.role ≠ .admin → p.services ≠ [] → ∀ op, (c.serve a ctx call).MayCall op →
        ∀ service ∈ op.services, service ≠ "" ∧ service ∈ p.services) := by
  rw [serve_eq hpast]
  obtain ⟨ctx', hctx, hcheck⟩ := hpast
  rw [handlerContext_eq] at hctx
  obtain ⟨p, hauth, rfl⟩ := TokenAuthenticator.authorize_of_intercepted hctx
  obtain ⟨hprincipal, hallowed⟩ := TokenAuthenticator.authorize_ok ha hauth
  refine ⟨p, hprincipal, hallowed.imp_right And.left, fun hadmin hservices op hop service hservice => ?_⟩
  rcases hallowed with hrole | ⟨-, hscope⟩
  · exact absurd hrole hadmin
  obtain ⟨own, hne, hmem, hstays⟩ := handle_staysWith hservices hscope c
  rw [hstays.mayCall hop service hservice]
  exact ⟨hne, hmem⟩

def oneToken (p : Principal) : TokenAuthenticator where
  tokens := (∅ : Dict String Principal).insert "t" p
  rules := fun _ => [.reader]

def withToken : Context where
  metadata := some { token := ["t"] }

theorem reader_lists_own_service :
    (oneToken ⟨.reader, ["pay"]⟩).enabled = true ∧
    GoesPastCheck (oneToken ⟨.reader, ["pay"]⟩) withToken (.unary (.listInstances (some "pay"))) ∧
    ∃ p, (oneToken ⟨.reader, ["pay"]⟩).principalFromContext withToken = .ok p ∧
      (p.role = .admin ∨ roleAllowed p.role [.reader] = true) ∧
      (p.role ≠ .admin → p.services ≠ [] →
        ∀ op, (Services.serve { defaultLease := 30 } (oneToken ⟨.reader, ["pay"]⟩) withToken
          (.unary (.listInstances (some "pay")))).MayCall op →
          ∀ service ∈ op.services, service ≠ "" ∧ service ∈ p.services) := by
  have hpast : GoesPastCheck (oneToken ⟨.reader, ["pay"]⟩) withToken (.unary (.listInstances (some "pay"))) :=
    ⟨{ withToken with principal := some ⟨.reader, ["pay"]⟩ }, rfl, rfl⟩
  exact ⟨rfl, hpast, service_scope_is_mediated rfl hpast _⟩

theorem scoped_admin_lists_other_service :
    (oneToken ⟨.admin, ["pay"]⟩).enabled = true ∧
    GoesPastCheck (oneToken ⟨.admin, ["pay"]⟩) withToken (.unary (.listInstances (some "cart"))) ∧
    (oneToken ⟨.admin, ["pay"]⟩).principalFromContext withToken = .ok ⟨.admin, ["pay"]⟩ ∧
    (Services.serve { defaultLease := 30 } (oneToken ⟨.admin, ["pay"]⟩) withToken
      (.unary (.listInstances (some "cart")))).MayCall (.snapshot "cart") ∧
    "cart" ∈ (BackendCall.snapshot "cart").services ∧ "cart" ∉ (⟨.admin, ["pay"]⟩ : Principal).services := by
  have hpast : GoesPastCheck (oneToken ⟨.admin, ["pay"]⟩) withToken (.unary (.listInstances (some "cart"))) :=
    ⟨{ withToken with principal := some ⟨.admin, ["pay"]⟩ }, rfl, rfl⟩
  refine ⟨rfl, hpast, rfl, ?_, by decide, by decide⟩
  rw [serve_eq hpast]
  exact .here _ _

end AegisMesh.Controller

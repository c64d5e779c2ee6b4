import AegisMesh.Controller.Registration
import AegisMesh.Controller.Telemetry

/-!
# Authorization (`pkg/security/auth.go`)

What a handler checks of its caller before it does anything: the role against the
method, and the services that the request is about against the caller's own.
-/

namespace AegisMesh.Security

open Controller

/-- The roles that a token can carry. `unset` is the empty string of a call without a principal. -/
inductive Role
  | unset
  | admin
  | registry
  | telemetry
  | policy
  | reader
  | sdk
  /-- Any other name. The type of the source is a string. -/
  | other (name : String)
deriving DecidableEq, Repr

structure Principal where
  role : Role
  services : List String := []
deriving DecidableEq

def Principal.global (p : Principal) : Bool := p.services = []

def Principal.allowsService (p : Principal) (service : String) : Bool :=
  if p.global then true
  else if service = "" then false
  else p.services.any fun allowed => allowed = service

/-! ## Requests -/

structure HeartbeatRequest where
  service : String
  instanceId : String
  leaseTtlSeconds : ℤ := 0
  registrationEpoch : String := ""
  ownerToken : String := ""
deriving DecidableEq

/-- A method with its request message, which can be nil. A message with nothing but a service is
that service, and a report is its samples. -/
inductive Request
  | registerInstance (req : Option RegisterInstanceRequest)
  | heartbeat (req : Option HeartbeatRequest)
  | listInstances (service : Option String)
  | watchInstances (service : Option String)
  | reportEndpointStats (samples : Option (List (Option EndpointStatsSample)))
  | listEndpointHealth (service : Option String)
  | getPolicy (service : Option String)
  | watchPolicy (service : Option String)
  | other

def defaultControllerMethodRoles : Request → List Role
  | .registerInstance _ => [.registry]
  | .heartbeat _ => [.registry]
  | .listInstances _ => [.registry, .reader, .sdk]
  | .watchInstances _ => [.registry, .reader, .sdk]
  | .reportEndpointStats _ => [.telemetry, .sdk]
  | .listEndpointHealth _ => [.telemetry, .reader]
  | .getPolicy _ => [.policy, .reader, .sdk]
  | .watchPolicy _ => [.policy, .reader, .sdk]
  | .other => []

def roleAllowed (role : Role) (allowed : List Role) : Bool := allowed.any fun candidate => role = candidate

structure RequestScope where
  services : List String := []
  globalOnly : Bool := false
deriving DecidableEq

def singleServiceScope (service : String) : RequestScope := if service = "" then {} else { services := [service] }

def telemetryReportScopeFrom : List String → List (Option EndpointStatsSample) → RequestScope
  | [], [] => {}
  | service :: _, [] => singleServiceScope service
  | seen, none :: rest => telemetryReportScopeFrom seen rest
  | seen, some sample :: rest =>
    if sample.service = "" then telemetryReportScopeFrom seen rest
    else
      let seen := if sample.service ∈ seen then seen else sample.service :: seen
      if 1 < seen.length then { globalOnly := true } else telemetryReportScopeFrom seen rest

def telemetryReportScope (samples : List (Option EndpointStatsSample)) : RequestScope :=
  telemetryReportScopeFrom [] samples

def messageScope (service : Option String) : RequestScope :=
  match service with
  | none => {}
  | some service => singleServiceScope service

def requestServiceScopeFor : Request → Option RequestScope
  | .registerInstance req => some (messageScope (req.bind fun req => req.inst.map ServiceInstance.service))
  | .heartbeat req => some (messageScope (req.map HeartbeatRequest.service))
  | .listInstances service => some (messageScope service)
  | .watchInstances service => some (messageScope service)
  | .getPolicy service => some (messageScope service)
  | .watchPolicy service => some (messageScope service)
  | .reportEndpointStats none => some {}
  | .reportEndpointStats (some samples) => some (telemetryReportScope samples)
  | .listEndpointHealth none => some { globalOnly := true }
  | .listEndpointHealth (some service) =>
    some (if service = "" then { globalOnly := true } else singleServiceScope service)
  | .other => none

/-! ## The check -/

def permissionDenied (message : String) : StatusError where
  code := .permissionDenied
  message := message

def authorizePrincipalScope (principal : Principal) (req : Request) : Option StatusError :=
  if principal.global then none
  else
    match requestServiceScopeFor req with
    | none => some (permissionDenied "method does not expose service scope")
    | some scope =>
      if scope.globalOnly then
        some (permissionDenied "service-scoped principal cannot access cross-service request")
      else if scope.services = [] then
        some (permissionDenied "service-scoped principal requires service-bound request")
      else if scope.services.all principal.allowsService then none
      else some (permissionDenied "principal is not scoped to requested service")

def authorizeControllerPrincipal (principal : Option Principal) (req : Request) : Option StatusError :=
  match principal with
  | none => none
  | some principal =>
    if principal.role = .unset then none
    else if principal.role = .admin then none
    else if !roleAllowed principal.role (defaultControllerMethodRoles req) then
      some (permissionDenied "role is not allowed for method")
    else authorizePrincipalScope principal req

/-! ## Callers with services of their own -/

structure Principal.Scoped (p : Principal) : Prop where
  role : p.role ≠ .unset
  notAdmin : p.role ≠ .admin
  services : p.services ≠ []

variable {p : Principal}

theorem mem_of_allowsService {service : String} (hservices : p.services ≠ []) (h : p.allowsService service = true) :
    service ≠ "" ∧ service ∈ p.services := by
  simp only [Principal.allowsService, Principal.global, hservices, decide_false, Bool.false_eq_true, if_false] at h
  split at h
  · cases h
  · rename_i hservice
    simp only [List.any_eq_true, decide_eq_true_eq, exists_eq_right] at h
    exact ⟨hservice, h⟩

theorem scope_checked {req : Request} (hscoped : p.Scoped) (h : authorizeControllerPrincipal (some p) req = none) :
    authorizePrincipalScope p req = none := by
  simp only [authorizeControllerPrincipal, hscoped.role, hscoped.notAdmin, if_false] at h
  split at h
  · cases h
  · exact h

theorem scope_of_authorized {req : Request} (hservices : p.services ≠ []) (h : authorizePrincipalScope p req = none) :
    ∃ scope, requestServiceScopeFor req = some scope ∧ scope.globalOnly = false ∧ scope.services ≠ [] ∧
      ∀ service ∈ scope.services, service ≠ "" ∧ service ∈ p.services := by
  simp only [authorizePrincipalScope, Principal.global, hservices, decide_false, Bool.false_eq_true, if_false] at h
  split at h
  · cases h
  rename_i scope hscope
  split at h
  · cases h
  rename_i hlocal
  split at h
  · cases h
  rename_i hsome
  split at h
  · rename_i hall
    exact ⟨scope, hscope, by simpa using hlocal, hsome,
      fun service hservice => mem_of_allowsService hservices (List.all_eq_true.mp hall service hservice)⟩
  · cases h

variable {service : Option String}

theorem messageScope_services (h : (messageScope service).services ≠ []) :
    ∃ name, service = some name ∧ (messageScope service).services = [name] := by
  cases service with
  | none => exact absurd rfl h
  | some name =>
    simp only [messageScope, singleServiceScope] at h ⊢
    split at h
    · exact absurd rfl h
    · rename_i hname
      exact ⟨name, rfl, by rw [if_neg hname]⟩

theorem message_authorized {req : Request} (hservices : p.services ≠ []) (h : authorizePrincipalScope p req = none)
    (hreq : requestServiceScopeFor req = some (messageScope service)) :
    ∃ name, service = some name ∧ name ≠ "" ∧ name ∈ p.services := by
  obtain ⟨scope, hscope, -, hsome, hall⟩ := scope_of_authorized hservices h
  obtain rfl := Option.some.inj (hscope.symm.trans hreq)
  obtain ⟨name, hname, hservices⟩ := messageScope_services hsome
  exact ⟨name, hname, hall name (by rw [hservices]; exact List.mem_singleton_self name)⟩

theorem telemetryReportScopeFrom_skip (seen : List String) {sample : Option EndpointStatsSample}
    (h : ∀ p, sample = some p → p.service = "") (rest : List (Option EndpointStatsSample)) :
    telemetryReportScopeFrom seen (sample :: rest) = telemetryReportScopeFrom seen rest := by
  cases sample with
  | none => cases seen <;> rfl
  | some p => cases seen <;> simp [telemetryReportScopeFrom, h p rfl]

theorem telemetryReportScopeFrom_one {service : String} (hservice : service ≠ "")
    {samples : List (Option EndpointStatsSample)}
    (hlocal : (telemetryReportScopeFrom [service] samples).globalOnly = false) :
    (telemetryReportScopeFrom [service] samples).services = [service] ∧
      ∀ sample, some sample ∈ samples → sample.service ≠ "" → sample.service = service := by
  induction samples with
  | nil => simp [telemetryReportScopeFrom, singleServiceScope, hservice]
  | cons first rest ih =>
    by_cases hskip : ∀ p, first = some p → p.service = ""
    · rw [telemetryReportScopeFrom_skip _ hskip] at hlocal ⊢
      refine ⟨(ih hlocal).1, fun sample hsample hnamed => ?_⟩
      rcases List.mem_cons.mp hsample with heq | hsample
      · exact absurd (hskip sample heq.symm) hnamed
      · exact (ih hlocal).2 sample hsample hnamed
    · simp only [not_forall] at hskip
      obtain ⟨p, rfl, hnamed⟩ := hskip
      by_cases hsame : p.service = service
      · have hstep : telemetryReportScopeFrom [service] (some p :: rest) = telemetryReportScopeFrom [service] rest := by
          simp [telemetryReportScopeFrom, hsame, hservice]
        rw [hstep] at hlocal ⊢
        refine ⟨(ih hlocal).1, fun sample hsample => ?_⟩
        rcases List.mem_cons.mp hsample with heq | hsample
        · exact fun _ => Option.some.inj heq ▸ hsame
        · exact (ih hlocal).2 sample hsample
      · simp [telemetryReportScopeFrom, hnamed, hsame] at hlocal

theorem telemetryReportScope_spec {samples : List (Option EndpointStatsSample)}
    (hlocal : (telemetryReportScope samples).globalOnly = false) (hsome : (telemetryReportScope samples).services ≠ []) :
    ∃ service, (telemetryReportScope samples).services = [service] ∧ service ≠ "" ∧
      (∃ sample, some sample ∈ samples ∧ sample.service = service) ∧
      ∀ sample, some sample ∈ samples → sample.service ≠ "" → sample.service = service := by
  unfold telemetryReportScope at hlocal hsome ⊢
  induction samples with
  | nil => exact absurd rfl hsome
  | cons first rest ih =>
    by_cases hskip : ∀ p, first = some p → p.service = ""
    · rw [telemetryReportScopeFrom_skip _ hskip] at hlocal hsome ⊢
      obtain ⟨service, hservices, hservice, ⟨sample, hsample, hnamed⟩, hall⟩ := ih hlocal hsome
      refine ⟨service, hservices, hservice, ⟨sample, List.mem_cons_of_mem _ hsample, hnamed⟩, ?_⟩
      intro other hother hne
      rcases List.mem_cons.mp hother with heq | hother
      · exact absurd (hskip other heq.symm) hne
      · exact hall other hother hne
    · simp only [not_forall] at hskip
      obtain ⟨p, rfl, hnamed⟩ := hskip
      have hstep : telemetryReportScopeFrom [] (some p :: rest) = telemetryReportScopeFrom [p.service] rest := by
        simp [telemetryReportScopeFrom, hnamed]
      rw [hstep] at hlocal ⊢
      obtain ⟨hservices, hall⟩ := telemetryReportScopeFrom_one hnamed hlocal
      refine ⟨p.service, hservices, hnamed, ⟨p, List.mem_cons_self, rfl⟩, fun sample hsample hne => ?_⟩
      rcases List.mem_cons.mp hsample with heq | hsample
      · rw [Option.some.inj heq]
      · exact hall sample hsample hne

theorem report_authorized {samples : Option (List (Option EndpointStatsSample))} (hservices : p.services ≠ [])
    (h : authorizePrincipalScope p (.reportEndpointStats samples) = none) :
    ∃ protos service, samples = some protos ∧ service ≠ "" ∧ service ∈ p.services ∧
      (∃ sample, some sample ∈ protos ∧ sample.service = service) ∧
      ∀ sample, some sample ∈ protos → sample.service ≠ "" → sample.service = service := by
  obtain ⟨scope, hscope, hlocal, hsome, hall⟩ := scope_of_authorized hservices h
  cases samples with
  | none =>
    obtain rfl := Option.some.inj hscope
    exact absurd rfl hsome
  | some protos =>
    obtain rfl := Option.some.inj hscope
    obtain ⟨service, hservices, hservice, hsample, hone⟩ := telemetryReportScope_spec hlocal hsome
    have hscoped : service ∈ p.services := (hall service (by rw [hservices]; exact List.mem_singleton_self _)).2
    exact ⟨protos, service, rfl, hservice, hscoped, hsample, hone⟩

theorem health_authorized (hservices : p.services ≠ [])
    (h : authorizePrincipalScope p (.listEndpointHealth service) = none) :
    ∃ name, service = some name ∧ name ≠ "" ∧ name ∈ p.services := by
  obtain ⟨scope, hscope, hlocal, hsome, hall⟩ := scope_of_authorized hservices h
  cases service with
  | none =>
    obtain rfl := Option.some.inj hscope
    cases hlocal
  | some name =>
    obtain rfl := Option.some.inj hscope
    split at hlocal
    · cases hlocal
    · rename_i hname
      rw [if_neg hname, singleServiceScope, if_neg hname] at hall
      exact ⟨name, rfl, hname, (hall name (List.mem_singleton_self name)).2⟩

end AegisMesh.Security

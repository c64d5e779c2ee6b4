import AegisMesh.Security.Auth

/-!
# Authentication (`pkg/security/auth.go`)

The credential of a request is looked up, and the principal it maps to is checked against the method and the
request. A stream is checked on its first message.
-/

open Lib

namespace AegisMesh.Security

open Controller Telemetry

/-! ## What comes in -/

inductive Method
  | registerInstance
  | heartbeat
  | listInstances
  | watchInstances
  | reportEndpointStats
  | listEndpointHealth
  | getPolicy
  | watchPolicy
  | other
deriving DecidableEq, Repr

def Request.method : Request → Method
  | .registerInstance _ => .registerInstance
  | .heartbeat _ => .heartbeat
  | .listInstances _ => .listInstances
  | .watchInstances _ => .watchInstances
  | .reportEndpointStats _ => .reportEndpointStats
  | .listEndpointHealth _ => .listEndpointHealth
  | .getPolicy _ => .getPolicy
  | .watchPolicy _ => .watchPolicy
  | .other => .other

structure Metadata where
  authorization : List String := []
  token : List String := []
deriving DecidableEq

/-- The names in an `x509.Certificate`. A URI is its text, and can be nil. -/
structure Certificate where
  uris : List (Option String) := []
  dnsNames : List String := []
  commonName : String := ""
deriving DecidableEq

structure TLSInfo where
  peerCertificates : List (Option Certificate) := []
  verifiedChains : ℕ := 0
deriving DecidableEq

/-- The context of a call. No `tls` is a peer that is not there or has not come over TLS. -/
structure Context where
  metadata : Option Metadata := none
  tls : Option TLSInfo := none
  principal : Option Principal := none
deriving DecidableEq

/-! ## Credentials -/

/-- The scheme is compared without regard to case; only ASCII letters fold to its letters. -/
def bearerToken (value : String) : Option String :=
  let chars := (trimSpace value).toList
  if chars.length ≤ 7 ∨ (chars.take 7).map Char.toLower ≠ "bearer ".toList then none
  else
    let token := trimSpace (String.ofList (chars.drop 7))
    if token = "" then none else some token

/-- The token of a context. `some ""` is an attempt that brought none. -/
def tokenFromContext (ctx : Context) : Option String :=
  match ctx.metadata with
  | none => none
  | some md =>
    if md.authorization ≠ [] then some ((md.authorization.findSome? bearerToken).getD "")
    else if md.token ≠ [] then some (((md.token.map trimSpace).find? fun trimmed => trimmed ≠ "").getD "")
    else none

def addIdentity (out : List String) (identity : String) : List String :=
  let identity := trimSpace identity
  if identity = "" then out else if identity ∈ out then out else out ++ [identity]

/-- A DNS name in a certificate is ASCII. -/
def certificateIdentityCandidates (cert : Certificate) : List String :=
  let uris := cert.uris.reduceOption.map fun uri => "uri:" ++ uri
  let names := cert.dnsNames.map fun dns => "dns:" ++ dns.toLower
  let common := if cert.uris = [] ∧ cert.dnsNames = [] then ["cn:" ++ cert.commonName] else []
  (uris ++ names ++ common).foldl addIdentity []

def certificateIdentitiesFromContext (ctx : Context) : List String :=
  match ctx.tls with
  | some { peerCertificates := some cert :: _, verifiedChains := _ + 1 } => certificateIdentityCandidates cert
  | _ => []

/-! ## The authenticator -/

structure TokenAuthenticator where
  tokens : Dict String Principal := ∅
  mtls : Dict String Principal := ∅
  rules : Method → List Role

def unauthenticated (message : String) : StatusError where
  code := .unauthenticated
  message := message

namespace TokenAuthenticator

variable (a : TokenAuthenticator)

def enabled : Bool := a.tokens.entries ≠ [] || a.mtls.entries ≠ []

def mtlsPrincipalFromContext (ctx : Context) : Option Principal :=
  (certificateIdentitiesFromContext ctx).findSome? fun identity => a.mtls.lookup identity

def principalFromContext (ctx : Context) : Except StatusError Principal :=
  match tokenFromContext ctx with
  | some token =>
    if token = "" then .error (unauthenticated "invalid bearer token")
    else
      match a.tokens.lookup token with
      | none => .error (unauthenticated "invalid bearer token")
      | some principal => .ok principal
  | none =>
    match a.mtlsPrincipalFromContext ctx with
    | some principal => .ok principal
    | none => .error (unauthenticated "missing bearer token or authorized client certificate")

def authorize (ctx : Context) (req : Request) : Except StatusError Principal :=
  if !a.enabled then .ok { role := .unset }
  else
    match a.principalFromContext ctx with
    | .error err => .error err
    | .ok principal =>
      if principal.role = .admin then .ok principal
      else if !roleAllowed principal.role (a.rules req.method) then
        .error (permissionDenied "role is not allowed for method")
      else
        match authorizePrincipalScope principal req with
        | some err => .error err
        | none => .ok principal

def contextWithPrincipal (ctx : Context) (principal : Principal) : Context :=
  if principal.role ≠ .unset then { ctx with principal := some principal } else ctx

def unaryServerInterceptor (ctx : Context) (req : Request) : Except StatusError Context :=
  (a.authorize ctx req).map (contextWithPrincipal ctx)

end TokenAuthenticator

structure AuthorizingServerStream where
  serverStream : Context
  ctx : Option Context := none
  authorized : Bool := false

namespace AuthorizingServerStream

def context (s : AuthorizingServerStream) : Context := s.ctx.getD s.serverStream

def recvMsg (a : TokenAuthenticator) (s : AuthorizingServerStream) (m : Request) :
    Except StatusError AuthorizingServerStream :=
  if s.authorized then .ok s
  else
    match a.authorize s.serverStream m with
    | .error err => .error err
    | .ok principal =>
      .ok { s with
        authorized := true
        ctx :=
          if principal.role ≠ .unset then some { s.serverStream with principal := some principal } else s.ctx }

end AuthorizingServerStream

def streamServerInterceptor (a : TokenAuthenticator) (ctx : Context) (req : Request) : Except StatusError Context :=
  (AuthorizingServerStream.recvMsg a { serverStream := ctx } req).map AuthorizingServerStream.context

/-! ## What is let through -/

namespace TokenAuthenticator

variable {a : TokenAuthenticator} {ctx : Context} {req : Request} {p : Principal}

theorem authorize_ok (ha : a.enabled = true) (h : a.authorize ctx req = .ok p) :
    a.principalFromContext ctx = .ok p ∧
      (p.role = .admin ∨ roleAllowed p.role (a.rules req.method) = true ∧ authorizePrincipalScope p req = none) := by
  simp only [authorize, ha, Bool.not_true, Bool.false_eq_true, if_false] at h
  split at h
  · cases h
  rename_i principal hprincipal
  split at h
  · rename_i hadmin
    cases h
    exact ⟨hprincipal, .inl hadmin⟩
  split at h
  · cases h
  rename_i hrole
  split at h
  · cases h
  rename_i hscope
  cases h
  exact ⟨hprincipal, .inr ⟨by simpa using hrole, hscope⟩⟩

theorem streamServerInterceptor_eq (a : TokenAuthenticator) (ctx : Context) (req : Request) :
    streamServerInterceptor a ctx req = a.unaryServerInterceptor ctx req := by
  simp only [streamServerInterceptor, AuthorizingServerStream.recvMsg, unaryServerInterceptor, Bool.false_eq_true,
    if_false]
  cases a.authorize ctx req with
  | error err => rfl
  | ok principal =>
    simp only [Except.map, AuthorizingServerStream.context, contextWithPrincipal]
    split <;> rfl

theorem authorize_of_intercepted {ctx' : Context} (h : a.unaryServerInterceptor ctx req = .ok ctx') :
    ∃ p, a.authorize ctx req = .ok p ∧ ctx' = contextWithPrincipal ctx p := by
  unfold unaryServerInterceptor at h
  cases hauth : a.authorize ctx req with
  | error err => simp [hauth, Except.map] at h
  | ok p =>
    simp only [hauth, Except.map, Except.ok.injEq] at h
    exact ⟨p, rfl, h.symm⟩

end TokenAuthenticator

end AegisMesh.Security

import NetbirdHa.RestrictProofs
import NetbirdHa.TableProofs
import NetbirdHa.TransitionProofs

/-! # The authentication middleware of the reverse proxy

`Protect` looks the host of a request up among the protected domains.  A host that
is not there passes.  Otherwise the address of the client is checked, and if the
domain has authentication schemes, the request is forwarded for a session cookie
or for a header that authenticates it; all other requests are answered by the
middleware, which sets the cookie when a scheme hands it a token.

A token that comes with the query after an OIDC login is put to the session
validator, which knows whether the user may use the service.  The cookie is not:
that it is a session token of the domain is checked and nothing else.  Who has
a token that the validator refuses can send it as a cookie.  So a request is
forwarded for an accepted OIDC token exactly if the token of its cookie, where
it is one for the domain, has been accepted before (`Presented`). -/

namespace Middleware

open Netip Restrict Table Transition

/-! ## Session tokens -/

/-- `auth.Method`. -/
inductive Method where
  | password
  | pin
  | oidc
  | header
deriving DecidableEq

/-- The name of a method in tokens and on the login page. -/
def Method.text : Method → String
  | .password => "password"
  | .pin => "pin"
  | .oidc => "oidc"
  | .header => "header"

/-- `SessionJWTIssuer`. -/
def sessionJWTIssuer : String := "netbird-management"

/-- The claims that are read of a token; one that is not there or no text is empty. -/
structure Claims where
  sub : String
  method : String
deriving DecidableEq

/-- The library that parses tokens.  `parse now key audience issuer token` are the claims of a
    token that `jwt.Parse` takes at that time with these options; `key` gives the key to verify
    it with, once it is known whether its signing method is Ed25519. -/
structure Crypto where
  parse : Int → (Bool → Option (List UInt8)) → String → String → String → Option Claims

/-- `ValidateSessionJWT`: the user and the method. -/
def validateSessionJWT (crypto : Crypto) (now : Int) (token domain : String)
    (publicKey : Option (List UInt8)) : Option (String × String) :=
  match publicKey with
  | none => none
  | some key =>
    match crypto.parse now (fun ed25519 => if ed25519 then some key else none) domain
        sessionJWTIssuer token with
    | none => none
    | some claims => if claims.sub = "" then none else some (claims.sub, claims.method)

/-! ## Domains and requests -/

/-- The schemes, with the IDs of the service and the account that they were made for. -/
inductive Scheme where
  | password (id accountID : String)
  | pin (id accountID : String)
  | oidc (id accountID forwardedProto : String)
  | header (id accountID headerName : String)
deriving DecidableEq

/-- The method of a scheme. -/
def Scheme.type : Scheme → Method
  | .password _ _ => .password
  | .pin _ _ => .pin
  | .oidc _ _ _ => .oidc
  | .header _ _ _ => .header

/-- `DomainConfig`: what protects a domain. -/
structure DomainConfig where
  schemes : List Scheme := []
  sessionPublicKey : Option (List UInt8) := none
  sessionExpiration : Int := 0
  accountID : String := ""
  serviceID : String := ""
  ipRestrictions : Option Filter := none

/-- A request, with the values that the getters of Go return; empty where there is none. -/
structure Request where
  host : String
  path : String := "/"
  tls : Bool := true
  remoteAddr : String := ""
  /-- The client's address as captured before, if any. -/
  clientIP : Addr := .zero
  /-- The first value of a query parameter. -/
  query : String → String := fun _ => ""
  formValue : String → String := fun _ => ""
  header : String → String := fun _ => ""
  /-- The session cookie. -/
  cookie : Option String := none

/-- The host of the request without a port. -/
def hostOf (r : Request) : String :=
  match splitHostPort r.host with
  | some (host, _) => host
  | none => r.host

/-- What a credential is. -/
inductive Credential where
  | password (value : String)
  | pin (value : String)
  | header (name value : String)
deriving DecidableEq

/-- The answer of the management server to a credential. -/
structure AuthenticateResponse where
  success : Bool
  sessionToken : String
deriving DecidableEq

/-- The URL that an OIDC login comes back to. -/
structure RedirectURL where
  scheme : String
  host : String
  path : String
deriving DecidableEq

/-- The answer of the session validator. -/
structure ValidateSessionResponse where
  valid : Bool
  userID : String
  deniedReason : String
deriving DecidableEq

/-- The clock, the libraries and the answers of the management server while a request
    is handled; no answer is an error. -/
structure Env where
  now : Int
  crypto : Crypto
  geo : Option GeoResolver
  authenticate : String → String → Credential → Option AuthenticateResponse
  getOIDCURL : String → String → RedirectURL → Option String
  /-- The session validator, if there is one: domain and token. -/
  sessionValidator : Option (String → String → Option ValidateSessionResponse)

/-- What is said to the client instead of forwarding. -/
inductive Response where
  | forbidden
  | accessDenied (description : String)
  | unauthorized
  | badRequest (message : String)
  | badGateway (message : String)
  | redirect (url : String)
  /-- Back to the request's own URL without the token. -/
  | redirectStripped
  | loginPage (methods : GoMap String)

/-- Why a request is forwarded. -/
inductive Grounds where
  | unknownHost
  | noSchemes
  | cookie (token userID method : String)
  | header (token userID : String)
deriving DecidableEq

/-- The request goes on to the reverse proxy, or is answered. -/
inductive Outcome where
  | forward (grounds : Grounds)
  | respond (response : Response)

/-- A question to the session validator that was answered with yes. -/
structure Accepted where
  domain : String
  token : String
deriving DecidableEq

/-- What comes of a request: the outcome, the session cookie that is set with its
    time to live, and what the validator accepted on the way. -/
structure Handled where
  outcome : Outcome
  setCookie : Option (String × Int) := none
  accepted : List Accepted := []

/-! ## Schemes -/

/-- Why a scheme fails. -/
inductive AuthError where
  | unavailable
  | headerFailed
deriving DecidableEq

/-- The calls of `Authenticate` with a password, a PIN or a header: a credential that
    fails gives `failed`. -/
def authenticateCredential (env : Env) (id accountID : String) (credential : Credential)
    (failed : Except AuthError (String × String)) : Except AuthError (String × String) :=
  match env.authenticate id accountID credential with
  | none => .error .unavailable
  | some res => if res.success then .ok (res.sessionToken, "") else failed

/-- `auth.ResolveProto`: the scheme that the client used. -/
def resolveProto (forwardedProto : String) (tls : Bool) : String :=
  if forwardedProto = "http" ∨ forwardedProto = "https" then forwardedProto
  else if tls then "https" else "http"

/-- `Authenticate` of each scheme: a token, empty if there is none, and what the login
    page asks for. -/
def Scheme.authenticate (env : Env) (r : Request) : Scheme → Except AuthError (String × String)
  | .password id accountID =>
    if r.formValue "password" = "" then .ok ("", "password")
    else authenticateCredential env id accountID (.password (r.formValue "password"))
      (.ok ("", "password"))
  | .pin id accountID =>
    if r.formValue "pin" = "" then .ok ("", "pin")
    else authenticateCredential env id accountID (.pin (r.formValue "pin")) (.ok ("", "pin"))
  | .oidc id accountID forwardedProto =>
    if r.query "session_token" ≠ "" then .ok (r.query "session_token", "")
    else
      match env.getOIDCURL id accountID ⟨resolveProto forwardedProto r.tls, r.host, r.path⟩ with
      | none => .error .unavailable
      | some url => .ok ("", url)
  | .header id accountID headerName =>
    if r.header headerName = "" then .ok ("", "")
    else authenticateCredential env id accountID (.header headerName (r.header headerName))
      (.error .headerFailed)

/-- Who a token is for, and whether it opens the domain. -/
structure ValidationResult where
  userID : String
  valid : Bool

/-- Why a token cannot be judged. -/
inductive ValidationError where
  | unavailable
  | invalid
deriving DecidableEq

/-- `validateSessionToken`, with what the validator accepted. -/
def validateSessionToken (env : Env) (host token : String) (publicKey : Option (List UInt8))
    (method : Method) : Except ValidationError ValidationResult × List Accepted :=
  match method, env.sessionValidator with
  | .oidc, some validate =>
    match validate host token with
    | none => (.error .unavailable, [])
    | some resp => (.ok ⟨resp.userID, resp.valid⟩, if resp.valid then [⟨host, token⟩] else [])
  | _, _ =>
    match validateSessionJWT env.crypto env.now token host publicKey with
    | none => (.error .invalid, [])
    | some (userID, _) => (.ok ⟨userID, true⟩, [])

/-- A day, in nanoseconds. -/
def defaultSessionExpiry : Int := 24 * 60 * 60 * 1000000000

/-- `setSessionCookie`. -/
def sessionCookie (token : String) (expiration : Int) : String × Int :=
  (token, if expiration = 0 then defaultSessionExpiry else expiration)

/-- How an error of `validateSessionToken` is answered. -/
def ValidationError.response : ValidationError → Response
  | .invalid => .badRequest "invalid session token"
  | .unavailable => .badGateway "authentication service unavailable"

/-! ## `Protect` -/

section

variable (env : Env) (r : Request) (host : String) (config : DomainConfig)

/-- `resolveClientIP`: the captured address, or the one in `RemoteAddr`. -/
def resolveClientIP : Addr :=
  if r.clientIP.isValid then r.clientIP
  else
    let host := ((splitHostPort r.remoteAddr).map Prod.fst).getD ""
    match parseAddr (if host = "" then r.remoteAddr else host) with
    | some addr => addr.unmap
    | none => .zero

/-- `checkIPRestrictions`: the client may come in, or is only watched. -/
def checkIPRestrictions (r : Request) : Bool :=
  match config.ipRestrictions with
  | none => true
  | some f =>
    if !(resolveClientIP r).isValid then false
    else
      let verdict := check (some f) (resolveClientIP r) env.geo
      verdict = .allow || f.isObserveOnly verdict

/-- `html.EscapeString`. -/
def escapeString (s : String) : String :=
  String.join (s.toList.map (fun c =>
    match c with
    | '&' => "&amp;"
    | '\'' => "&#39;"
    | '<' => "&lt;"
    | '>' => "&gt;"
    | '"' => "&#34;"
    | c => c.toString))

/-- `handleOAuthCallbackError`: a login that failed. -/
def handleOAuthCallbackError : Option Handled :=
  if r.query "error" = "" then none
  else
    let errDesc := r.query "error_description"
    some ⟨.respond (.accessDenied (if errDesc = "" then "An error occurred during authentication"
      else escapeString errDesc)), none, []⟩

/-- `forwardWithSessionCookie`: the cookie holds a token of the domain. -/
def forwardWithSessionCookie : Option Handled :=
  match r.cookie with
  | none => none
  | some token =>
    match validateSessionJWT env.crypto env.now token host config.sessionPublicKey with
    | none => none
    | some (userID, method) => some ⟨.forward (.cookie token userID method), none, []⟩

/-- `tryHeaderScheme`: what comes of one header scheme, if anything. -/
def tryHeaderScheme (scheme : Scheme) : Option Handled :=
  match scheme.authenticate env r with
  | .error .headerFailed => some ⟨.respond .unauthorized, none, []⟩
  | .error .unavailable =>
    some ⟨.respond (.badGateway "authentication service unavailable"), none, []⟩
  | .ok (token, _) =>
    if token = "" then none
    else
      match validateSessionToken env host token config.sessionPublicKey .header with
      | (.error err, accepted) => some ⟨.respond err.response, none, accepted⟩
      | (.ok result, accepted) =>
        if result.valid then
          some ⟨.forward (.header token result.userID),
            some (sessionCookie token config.sessionExpiration), accepted⟩
        else some ⟨.respond .unauthorized, none, accepted⟩

/-- `forwardWithHeaderAuth`: the first header scheme that handles the request. -/
def forwardWithHeaderAuth : Option Handled :=
  config.schemes.findSome? (fun scheme =>
    if scheme.type = .header then tryHeaderScheme env r host config scheme else none)

/-- `handleAuthenticatedToken`: the token of a scheme becomes the cookie. -/
def handleAuthenticatedToken (host token : String) (config : DomainConfig) (scheme : Scheme) :
    Handled :=
  match validateSessionToken env host token config.sessionPublicKey scheme.type with
  | (.error err, accepted) => ⟨.respond err.response, none, accepted⟩
  | (.ok result, accepted) =>
    if result.valid then
      ⟨.respond .redirectStripped, some (sessionCookie token config.sessionExpiration), accepted⟩
    else
      ⟨.respond (.accessDenied "You are not authorized to access this service"), none, accepted⟩

/-- `authenticateWithSchemes`: the loop, with what the login page will ask for. -/
def authenticateWithSchemes (env : Env) (r : Request) (host : String) (config : DomainConfig) :
    List Scheme → GoMap String → Handled
  | [], methods =>
    match methods.lookup (Method.text .oidc) with
    | some url =>
      if methods.keys.length = 1 ∧ url ≠ "" then ⟨.respond (.redirect url), none, []⟩
      else ⟨.respond (.loginPage methods), none, []⟩
    | none => ⟨.respond (.loginPage methods), none, []⟩
  | scheme :: schemes, methods =>
    match scheme.authenticate env r with
    | .error _ => ⟨.respond (.badGateway "authentication service unavailable"), none, []⟩
    | .ok (token, promptData) =>
      if token ≠ "" then handleAuthenticatedToken env host token config scheme
      else authenticateWithSchemes env r host config schemes
        (methods.insert scheme.type.text promptData)

/-- What `Protect` does once the host is known. -/
def protectDomain : Handled :=
  if !checkIPRestrictions env config r then ⟨.respond .forbidden, none, []⟩
  else if config.schemes = [] then ⟨.forward .noSchemes, none, []⟩
  else
    (((handleOAuthCallbackError r).orElse fun _ =>
      forwardWithSessionCookie env r host config).orElse fun _ =>
        forwardWithHeaderAuth env r host config).getD
          (authenticateWithSchemes env r host config config.schemes ∅)

/-- `Protect`. -/
def protect (domains : String → Option DomainConfig) (r : Request) : Handled :=
  match domains (hostOf r) with
  | none => ⟨.forward .unknownHost, none, []⟩
  | some config => protectDomain env r (hostOf r) config

end

/-! ## What is forwarded -/

/-- The schemes of the login page never forward a request. -/
theorem authenticateWithSchemes_responds (env : Env) (r : Request) (host : String)
    (config : DomainConfig) : ∀ (schemes : List Scheme) (methods : GoMap String),
      ∃ response, (authenticateWithSchemes env r host config schemes methods).outcome =
        .respond response := by
  intro schemes
  induction schemes with
  | nil =>
    intro methods
    rw [authenticateWithSchemes]
    split
    · split
      · exact ⟨_, rfl⟩
      · exact ⟨_, rfl⟩
    · exact ⟨_, rfl⟩
  | cons scheme schemes ih =>
    intro methods
    rw [authenticateWithSchemes]
    split
    · exact ⟨_, rfl⟩
    split
    · rw [handleAuthenticatedToken]
      split
      · exact ⟨_, rfl⟩
      · split
        · exact ⟨_, rfl⟩
        · exact ⟨_, rfl⟩
    · exact ih _

variable {token userID method : String} {scheme : Scheme} {handled : Handled}

section

variable {env : Env} {r : Request} {host : String} {config : DomainConfig}

theorem forwardWithHeaderAuth_ne_cookie
    (h : forwardWithHeaderAuth env r host config = some handled) :
    handled.outcome ≠ .forward (.cookie token userID method) := by
  obtain ⟨scheme, -, hs⟩ := List.exists_of_findSome?_eq_some h
  split at hs
  · grind [tryHeaderScheme]
  · cases hs

/-- An error of the login provider is answered. -/
theorem handleOAuthCallbackError_eq_some (h : handleOAuthCallbackError r = some handled) :
    r.query "error" ≠ "" ∧ ∃ response, handled = ⟨.respond response, none, []⟩ := by
  rw [handleOAuthCallbackError] at h
  split at h
  · cases h
  · next he =>
    cases h
    exact ⟨he, _, rfl⟩

/-- A cookie forwards a request if it holds a session token for the domain. -/
theorem forwardWithSessionCookie_eq_some :
    forwardWithSessionCookie env r host config = some handled ↔
      ∃ token userID method, r.cookie = some token ∧
        validateSessionJWT env.crypto env.now token host config.sessionPublicKey =
          some (userID, method) ∧ handled = ⟨.forward (.cookie token userID method), none, []⟩ := by
  constructor
  · intro h
    rw [forwardWithSessionCookie] at h
    split at h
    · cases h
    rename_i token hto
    split at h
    · cases h
    · next userID method hv =>
      cases h
      exact ⟨token, userID, method, hto, hv, rfl⟩
  · rintro ⟨token, userID, method, hto, hv, rfl⟩
    rw [forwardWithSessionCookie, hto]
    dsimp only
    rw [hv]

/-- How the middleware comes to what it does with a request: the first check that handles
    it, and what the checks before it said. -/
inductive Handling (env : Env) (r : Request) (host : String) (config : DomainConfig) :
    Handled → Prop where
  | forbidden (hip : checkIPRestrictions env config r = false) :
      Handling env r host config ⟨.respond .forbidden, none, []⟩
  | noSchemes (hschemes : config.schemes = []) :
      Handling env r host config ⟨.forward .noSchemes, none, []⟩
  | callbackError {handled : Handled} (h : handleOAuthCallbackError r = some handled) :
      Handling env r host config handled
  | cookie {handled : Handled} (hip : checkIPRestrictions env config r = true)
      (hschemes : config.schemes ≠ []) (herror : handleOAuthCallbackError r = none)
      (h : forwardWithSessionCookie env r host config = some handled) :
      Handling env r host config handled
  | header {handled : Handled} (hcookie : forwardWithSessionCookie env r host config = none)
      (h : forwardWithHeaderAuth env r host config = some handled) :
      Handling env r host config handled
  | login (hcookie : forwardWithSessionCookie env r host config = none) :
      Handling env r host config (authenticateWithSchemes env r host config config.schemes ∅)

/-- Every way a protected request is handled. -/
theorem protectDomain_handling (env : Env) (r : Request) (host : String) (config : DomainConfig) :
    Handling env r host config (protectDomain env r host config) := by
  rw [protectDomain]
  split
  · next hi => exact .forbidden (by simpa using hi)
  rename_i hi
  split
  · next hs => exact .noSchemes hs
  rename_i hs
  cases he : handleOAuthCallbackError r with
  | some handled => exact .callbackError he
  | none =>
    cases hc : forwardWithSessionCookie env r host config with
    | some handled => exact .cookie (by simpa using hi) hs he hc
    | none =>
      cases hh : forwardWithHeaderAuth env r host config with
      | some handled => exact .header hc hh
      | none => exact .login hc

/-- **The cookie decides**: when a request is forwarded for its session cookie. -/
theorem protectDomain_cookie_iff :
    (protectDomain env r host config).outcome = .forward (.cookie token userID method) ↔
      checkIPRestrictions env config r = true ∧ config.schemes ≠ [] ∧ r.query "error" = "" ∧
        r.cookie = some token ∧
        validateSessionJWT env.crypto env.now token host config.sessionPublicKey =
          some (userID, method) := by
  have hp := protectDomain_handling env r host config
  generalize protectDomain env r host config = handled at hp ⊢
  -- the header and the login page come after a cookie that says nothing
  have hsi : forwardWithSessionCookie env r host config = none → r.cookie = some token →
      validateSessionJWT env.crypto env.now token host config.sessionPublicKey ≠
        some (userID, method) := by
    intro hc hto hv
    have hso := forwardWithSessionCookie_eq_some.mpr ⟨token, userID, method, hto, hv, rfl⟩
    cases hc.symm.trans hso
  cases hp with
  | forbidden hi =>
    constructor
    · exact nofun
    · exact fun h => absurd (hi.symm.trans h.1) Bool.false_ne_true
  | noSchemes hs =>
    constructor
    · exact nofun
    · exact fun h => absurd hs h.2.1
  | callbackError h =>
    obtain ⟨he, response, rfl⟩ := handleOAuthCallbackError_eq_some h
    constructor
    · exact nofun
    · exact fun h => absurd h.2.2.1 he
  | cookie hi hs he h => grind [forwardWithSessionCookie_eq_some, handleOAuthCallbackError]
  | header hc h => grind [forwardWithHeaderAuth_ne_cookie]
  | login hc =>
    obtain ⟨response, hr⟩ := authenticateWithSchemes_responds env r host config config.schemes ∅
    rw [hr]
    constructor
    · exact nofun
    · exact fun ⟨_, _, _, hto, hv⟩ => absurd hv (hsi hc hto)

end

/-! ## What the validator accepted -/

section

variable {env : Env} {r : Request} {host : String} {config : DomainConfig} {a : Accepted}

/-- The validator says yes to a token for a domain. -/
def Env.Accepts (env : Env) (a : Accepted) : Prop :=
  ∃ validate ∈ env.sessionValidator, ∃ resp ∈ validate a.domain a.token, resp.valid = true

theorem accepts_of_validateSessionToken {method : Method}
    (h : validateSessionToken env host token publicKey method = (result, accepted))
    (ha : a ∈ accepted) : env.Accepts a ∧ a.domain = host := by
  unfold validateSessionToken at h
  split at h
  · next validate hv =>
    split at h
    · cases h
      cases ha
    rename_i resp hr
    cases h
    split at ha
    · next hva =>
      cases List.mem_singleton.mp ha
      exact ⟨⟨validate, hv, resp, hr, hva⟩, rfl⟩
    · cases ha
  · split at h
    · cases h
      cases ha
    · cases h
      cases ha

/-- What the schemes accept was asked of them. -/
theorem accepts_of_authenticateWithSchemes : ∀ (schemes : List Scheme) (methods : GoMap String),
    a ∈ (authenticateWithSchemes env r host config schemes methods).accepted →
      env.Accepts a ∧ a.domain = host := by
  intro schemes
  induction schemes with
  | nil =>
    intro methods h
    rw [authenticateWithSchemes] at h
    split at h
    · split at h
      · cases h
      · cases h
    · cases h
  | cons scheme schemes ih =>
    grind [authenticateWithSchemes, handleAuthenticatedToken, accepts_of_validateSessionToken]

theorem accepts_of_tryHeaderScheme (h : tryHeaderScheme env r host config scheme = some handled)
    (ha : a ∈ handled.accepted) : env.Accepts a ∧ a.domain = host := by
  rw [tryHeaderScheme] at h
  split at h
  · cases h
    cases ha
  · cases h
    cases ha
  split at h
  · cases h
  split at h
  · next he =>
    cases h
    exact accepts_of_validateSessionToken he ha
  rename_i he
  split at h
  all_goals
    cases h
    exact accepts_of_validateSessionToken he ha

/-- What a request leaves in the log is what the validator said. -/
theorem accepts_of_handling (h : Handling env r host config handled) (ha : a ∈ handled.accepted) :
    env.Accepts a ∧ a.domain = host := by
  cases h with
  | forbidden hi | noSchemes hsc => cases ha
  | callbackError h =>
    obtain ⟨-, response, rfl⟩ := handleOAuthCallbackError_eq_some h
    cases ha
  | cookie hi hsc he h =>
    obtain ⟨token, userID, method, -, -, rfl⟩ := forwardWithSessionCookie_eq_some.mp h
    cases ha
  | header hc h =>
    obtain ⟨scheme, -, hs⟩ := List.exists_of_findSome?_eq_some h
    split at hs
    · exact accepts_of_tryHeaderScheme hs ha
    · cases hs
  | login hc => exact accepts_of_authenticateWithSchemes _ _ ha

/-- A request is accepted for its own host only. -/
theorem accepts_of_protect
    (h : a ∈ (protect env domains r).accepted) : env.Accepts a ∧ a.domain = hostOf r := by
  rw [protect] at h
  split at h
  · cases h
  · next config _ => exact accepts_of_handling (protectDomain_handling env r (hostOf r) config) h

end

/-! ## Histories -/

/-- A request, and the domains and the environment at its time. -/
structure Visit where
  env : Env
  domains : String → Option DomainConfig
  request : Request

/-- A request that was forwarded, and what the validator had accepted before. -/
structure Forwarded where
  domain : String
  grounds : Grounds
  accepted : List Accepted
deriving DecidableEq

/-- What the validator has accepted and what was forwarded. -/
structure State where
  accepted : List Accepted := []
  forwarded : List Forwarded := []

/-- The request is recorded if it was forwarded. -/
def Outcome.forwarded (domain : String) (accepted : List Accepted) : Outcome → List Forwarded
  | .forward grounds => [⟨domain, grounds, accepted⟩]
  | .respond _ => []

/-- One request. -/
def visit (s : State) (v : Visit) : Option State :=
  let handled := protect v.env v.domains v.request
  some
    { accepted := s.accepted ++ handled.accepted
      forwarded := s.forwarded ++ handled.outcome.forwarded (hostOf v.request) s.accepted }

/-- The OIDC session token that a request is forwarded for. -/
def Grounds.oidcToken : Grounds → Option String
  | .cookie token _ method => if method = Method.text .oidc then some token else none
  | _ => none

/-- What is forwarded to a domain on the strength of an OIDC token was accepted for it. -/
def Good (d : String) (s : State) : Prop :=
  ∀ f ∈ s.forwarded, f.domain = d → ∀ token ∈ f.grounds.oidcToken, ⟨d, token⟩ ∈ f.accepted
deriving Decidable

/-- The OIDC token of the domain that a request presents as its cookie, where the
    middleware looks at cookies. -/
def presented (v : Visit) : Option String :=
  match v.domains (hostOf v.request), v.request.cookie with
  | some config, some token =>
    if checkIPRestrictions v.env config v.request ∧ config.schemes ≠ [] ∧
        v.request.query "error" = "" ∧
        (validateSessionJWT v.env.crypto v.env.now token (hostOf v.request)
          config.sessionPublicKey).map Prod.snd = some (Method.text .oidc) then
      some token
    else none
  | _, _ => none

/-- An OIDC token that is presented as a cookie has been accepted before. -/
def Presented (d : String) (s : State) (v : Visit) : Prop :=
  hostOf v.request = d → ∀ token ∈ presented v, ⟨d, token⟩ ∈ s.accepted
deriving Decidable

section

variable {d : String} {s s' : State} {v : Visit}

theorem oidcToken_eq_some {grounds : Grounds} (h : grounds.oidcToken = some token) :
    ∃ userID, grounds = .cookie token userID (Method.text .oidc) := by
  cases grounds with
  | cookie token' userID method =>
    rw [Grounds.oidcToken, Option.ite_none_right_eq_some] at h
    obtain ⟨rfl, h⟩ := h
    cases h
    exact ⟨userID, rfl⟩
  | unknownHost | noSchemes | header token' userID => cases h

/-- When a visit presents a token. -/
theorem presented_iff :
    presented v = some token ↔ ∃ userID, (protect v.env v.domains v.request).outcome =
        .forward (.cookie token userID (Method.text .oidc)) := by
  rw [presented, protect]
  cases hd : v.domains (hostOf v.request) with
  | none => simp
  | some config =>
    simp only [protectDomain_cookie_iff]
    cases hc : v.request.cookie with
    | none => simp
    | some token' =>
      simp only [Option.ite_none_right_eq_some, Option.some.injEq, Option.map_eq_some_iff,
        Prod.exists, exists_and_left, exists_eq_right]
      grind

/-- **One request**: the property is kept exactly if the token of the cookie was accepted. -/
theorem good_visit_iff (h : visit s v = some s') : Good d s' ↔ Good d s ∧ Presented d s v := by
  cases h
  constructor
  · intro hg
    refine ⟨fun f hf => hg f (List.mem_append_left _ hf), ?_⟩
    intro hh token hto
    obtain ⟨userID, ho⟩ := presented_iff.mp hto
    refine hg ⟨hostOf v.request, .cookie token userID (Method.text .oidc), s.accepted⟩
      (List.mem_append_right _ ?_) hh token rfl
    rw [ho]
    exact List.mem_singleton.mpr rfl
  · rintro ⟨hg, hp⟩ f hf
    rcases List.mem_append.mp hf with hf | hf
    · exact hg f hf
    intro hd token hto
    obtain ⟨userID, hgr⟩ := oidcToken_eq_some hto
    cases ho : (protect v.env v.domains v.request).outcome with
    | respond response =>
      rw [ho] at hf
      cases hf
    | forward grounds =>
      rw [ho] at hf
      cases List.mem_singleton.mp hf
      cases hgr
      exact hp hd token (presented_iff.mpr ⟨userID, ho⟩)

/-- Over a run, every acceptance was made at some visit. -/
theorem accepts_of_run :
    ∀ (vs : List Visit) (s s' : State), run visit s vs = some s' → ∀ a ∈ s'.accepted,
      a ∈ s.accepted ∨ ∃ v ∈ vs, v.env.Accepts a ∧ a.domain = hostOf v.request := by
  intro vs
  induction vs with
  | nil =>
    intro s s' h a ha
    cases h
    exact Or.inl ha
  | cons v vs ih => grind [run_cons_eq_some, accepts_of_protect, visit]

end

/-- **OIDC tokens are accepted before they open a domain**, over any history of requests,
    exactly if each OIDC token that was presented as a cookie had been accepted. -/
theorem oidc_forward_accepted_iff (d : String) (vs : List Visit) (s : State)
    (h : run visit {} vs = some s) :
    (∀ a ∈ s.accepted, ∃ v ∈ vs, v.env.Accepts a ∧ a.domain = hostOf v.request) ∧
      (Good d s ↔ AllowedRun visit (Presented d) {} vs) := by
  refine ⟨fun a ha => (accepts_of_run vs {} s h a ha).resolve_left (List.not_mem_nil), ?_⟩
  have he : Good d s ↔ Good d {} ∧ AllowedRun visit (Presented d) {} vs :=
    run_good_iff (fun _ _ _ (_ : True) _ => trivial) (fun _ _ _ _ => good_visit_iff) vs {} s
      trivial h
  rw [he]
  exact and_iff_right nofun

/-- The shop asks for an OIDC login. -/
def shop : String → Option DomainConfig
  | "shop.example" => some
      { schemes := [.oidc "shop" "office" ""], sessionPublicKey := some [1], serviceID := "shop" }
  | _ => none

/-- Tokens are the names of users, all signed for the shop after a login; only members may
    use it. -/
def office : Env where
  now := 0
  crypto :=
    { parse := fun _ key audience _ user =>
        if key true = some [1] ∧ audience = "shop.example" then some ⟨user, "oidc"⟩ else none }
  geo := none
  authenticate := fun _ _ _ => none
  getOIDCURL := fun _ _ _ => some "https://login.example"
  sessionValidator := some (fun _ user =>
    if user = "member" then some ⟨true, user, ""⟩ else some ⟨false, user, "not_in_group"⟩)

/-- The login sends the member back with the token, which becomes the cookie. -/
theorem member_admitted :
    AllowedRun visit (Presented "shop.example") {}
        [⟨office, shop, { host := "shop.example", query := fun key =>
            if key = "session_token" then "member" else "" }⟩,
          ⟨office, shop, { host := "shop.example:443", cookie := some "member" }⟩] ∧
      ∀ s, run visit {}
        [⟨office, shop, { host := "shop.example", query := fun key =>
            if key = "session_token" then "member" else "" }⟩,
          ⟨office, shop, { host := "shop.example:443", cookie := some "member" }⟩] = some s →
        s.forwarded =
            [⟨"shop.example", .cookie "member" "member" "oidc", [⟨"shop.example", "member"⟩]⟩] ∧
          Good "shop.example" s :=
  ⟨by decide, fun s h => ⟨by cases h; decide,
    (oidc_forward_accepted_iff "shop.example" _ s h).2.mpr (by decide)⟩⟩

/-- **A refused token opens the domain**: the validator says no to the token in the query,
    and the same token as a cookie is forwarded. -/
theorem refused_token_forwarded :
    ((run visit {}
      [⟨office, shop, { host := "shop.example", query := fun key =>
          if key = "session_token" then "outsider" else "" }⟩,
        ⟨office, shop, { host := "shop.example", cookie := some "outsider" }⟩]).map
      (fun s => (s.forwarded, s.accepted, decide (Good "shop.example" s)))) =
        some ([⟨"shop.example", .cookie "outsider" "outsider" "oidc", []⟩], [], false) := by
  decide

end Middleware

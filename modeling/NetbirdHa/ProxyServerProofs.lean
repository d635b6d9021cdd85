import NetbirdHa.MiddlewareProofs
import NetbirdHa.PortRouterProofs

/-! # Services of the reverse proxy

A service is published by its mapping in up to five places: the SNI routes and the
fallback of a port, the UDP relays, the HTTP mappings and the protected domains.
`addMapping` sets the mapping up, `removeMapping` cleans it up, and `modifyMapping`
cleans up what was stored before it sets up the new one.  What each of them does
to the tables is said once, by `serves_cleanup` and `serves_setup`. -/

namespace ProxyServer

open Middleware Netip PortRouter Restrict Table Function

/-! ## Mappings -/

/-- `ServiceMode`; every other text is HTTP. -/
inductive ServiceMode where
  | http
  | tcp
  | udp
  | tls
deriving DecidableEq

/-- Every mode but HTTP is served below it. -/
def ServiceMode.isL4 : ServiceMode → Bool
  | .http => false
  | _ => true

/-- What becomes of the matched path. -/
inductive PathRewriteMode where
  | default
  | preserve
deriving DecidableEq

/-- A path of a mapping, with the options of its target. -/
structure PathMapping where
  path : String
  target : String
  skipTLSVerify : Bool := false
  requestTimeout : Option Int := none
  pathRewrite : PathRewriteMode := .default
  customHeaders : List (String × String) := []
  proxyProtocol : Bool := false
  sessionIdleTimeout : Option Int := none
deriving DecidableEq

/-- How a service asks for authentication. -/
structure Authentication where
  password : Bool := false
  pin : Bool := false
  oidc : Bool := false
  headerAuths : List String := []
  sessionKey : String := ""
  maxSessionAgeSeconds : Int := 0
deriving DecidableEq

/-- Who may reach a service. -/
structure AccessRestrictions where
  allowedCIDRs : List String := []
  blockedCIDRs : List String := []
  allowedCountries : List String := []
  blockedCountries : List String := []
  crowdSecMode : CrowdSecMode := .off
deriving DecidableEq

/-- `proto.ProxyMapping`. -/
structure ProxyMapping where
  id : String
  accountID : String := ""
  domain : String
  mode : ServiceMode
  listenPort : Int := 0
  path : List PathMapping := []
  auth : Authentication := {}
  accessRestrictions : Option AccessRestrictions := none
  passHostHeader : Bool := false
  rewriteRedirects : Bool := false
deriving DecidableEq

/-! ## Tables -/

/-- `proxy.PathTarget`. -/
structure PathTarget where
  url : String
  skipTLSVerify : Bool
  requestTimeout : Int
  pathRewrite : PathRewriteMode
  customHeaders : List (String × String)
deriving DecidableEq

/-- `proxy.Mapping`. -/
structure Mapping where
  id : String
  accountID : String
  host : String
  paths : GoMap PathTarget
  passHostHeader : Bool
  rewriteRedirects : Bool
  stripAuthHeaders : List String

/-- `udp.Relay`, as it is configured. -/
structure Relay where
  listenPort : Nat
  target : String
  domain : String
  accountID : String
  serviceID : String
  dialTimeout : Int
  sessionTTL : Int
  filter : Option Filter

/-- What a proxy is configured with, and the libraries that it uses. -/
structure Config where
  mainPort : Nat
  wireguardPort : Nat := 0
  maxDialTimeout : Int := 0
  maxSessionIdleTimeout : Int := 0
  forwardedProto : String := ""
  /-- What the registry of CrowdSec hands out. -/
  crowdSec : String → Option CrowdSecChecker := fun _ => none
  decodeBase64 : String → Option (List UInt8)
  parseURL : String → Option String
  toLower : String → String
  toLower_empty : toLower "" = ""
  toUpper : String → String

/-- The proxy server's tables. -/
structure Server where
  mainRouter : Router := {}
  portRouters : Nat → Option Router := fun _ => none
  svcPorts : String → List Nat := fun _ => []
  udpRelays : String → Option Relay := fun _ => none
  domains : String → Option DomainConfig := fun _ => none
  mappings : String → Option Mapping := fun _ => none
  lastMappings : GoMap ProxyMapping := ∅

/-- What the operating system and the tunnel say during a call. -/
structure Env where
  addPeer : Bool := true
  listenTCP : Nat → Bool := fun _ => true
  listenUDP : Nat → Bool := fun _ => true
  hasClient : String → Bool := fun _ => true

/-- Why a mapping is not set up. -/
inductive SetupError where
  | createPeer
  | invalidPort (port : Int)
  | emptyTarget
  | tunnelPort (port : Nat)
  | listen (port : Nat)
  | noClient (accountID : String)
  | decodeSessionKey
  | sessionKeySize (got : Nat)
deriving DecidableEq

section

variable (cfg : Config)

/-! ## What mappings are turned into -/

section

variable (d : Int) (m : ProxyMapping)

/-- `clampIdleTimeout`. -/
def clampIdleTimeout : Int :=
  if 0 < cfg.maxSessionIdleTimeout ∧ cfg.maxSessionIdleTimeout < d then cfg.maxSessionIdleTimeout
  else d

/-- `clampDialTimeout`. -/
def clampDialTimeout : Int :=
  if cfg.maxDialTimeout ≤ 0 then d
  else if d ≤ 0 ∨ cfg.maxDialTimeout < d then cfg.maxDialTimeout
  else d

/-- `parseRestrictions`: without restrictions there is no filter. -/
def parseRestrictions : Option Filter :=
  match m.accessRestrictions with
  | none => none
  | some r => parseFilter cfg.toUpper
      { allowedCIDRs := r.allowedCIDRs
        blockedCIDRs := r.blockedCIDRs
        allowedCountries := r.allowedCountries
        blockedCountries := r.blockedCountries
        crowdSec :=
          if r.crowdSecMode = .enforce ∨ r.crowdSecMode = .observe then cfg.crowdSec m.id else none
        crowdSecMode := r.crowdSecMode }

/-- `l4TargetAddress`: empty if there is none. -/
def l4TargetAddress : String :=
  match m.path with
  | [] => ""
  | path :: _ => if (splitHostPort path.target).isSome then path.target else ""

/-- Whether the first target wants the PROXY protocol. -/
def l4ProxyProtocol : Bool := (m.path.head?.map (·.proxyProtocol)).getD false

/-- The dial timeout of the first target, clamped. -/
def l4DialTimeout : Int :=
  clampDialTimeout cfg ((m.path.head?.bind (·.requestTimeout)).getD 0)

/-- The idle timeout of the first target. -/
def l4SessionIdleTimeout : Int :=
  (m.path.head?.bind (·.sessionIdleTimeout)).getD 0

/-- A port within 1 and 65535. -/
def validatePort (port : Int) : Option Nat :=
  if port ≤ 0 ∨ 65535 < port then none else some port.toNat

/-- The route of an HTTP service. -/
def httpRoute : Route where
  type := .http
  accountID := m.accountID
  serviceID := m.id
  domain := m.domain

/-- The route of a TCP or TLS service. -/
def l4Route (protocol : Protocol) (m : ProxyMapping) : Route where
  type := .tcp
  accountID := m.accountID
  serviceID := m.id
  domain := m.domain
  protocol := protocol
  target := l4TargetAddress m
  proxyProtocol := l4ProxyProtocol m
  dialTimeout := l4DialTimeout cfg m
  sessionIdleTimeout := clampIdleTimeout cfg (l4SessionIdleTimeout m)
  filter := parseRestrictions cfg m

/-- The relay a UDP mapping starts on its port. -/
def udpRelay (port : Nat) : Relay where
  listenPort := port
  target := l4TargetAddress m
  domain := m.domain
  accountID := m.accountID
  serviceID := m.id
  dialTimeout := l4DialTimeout cfg m
  sessionTTL := clampIdleTimeout cfg (l4SessionIdleTimeout m)
  filter := parseRestrictions cfg m

/-- The schemes that `updateMapping` makes, in its order. -/
def schemes : List Scheme :=
  (if m.auth.password then [.password m.id m.accountID] else []) ++
    (if m.auth.pin then [.pin m.id m.accountID] else []) ++
    (if m.auth.oidc then [.oidc m.id m.accountID cfg.forwardedProto] else []) ++
    m.auth.headerAuths.map (.header m.id m.accountID)

/-- The entry that `AddDomain` registers; a domain with schemes needs a key. -/
def domainConfig : Except SetupError DomainConfig :=
  if schemes cfg m = [] then
    .ok { accountID := m.accountID, serviceID := m.id, ipRestrictions := parseRestrictions cfg m }
  else
    match cfg.decodeBase64 m.auth.sessionKey with
    | none => .error .decodeSessionKey
    | some key =>
      if key.length ≠ 32 then .error (.sessionKeySize key.length)
      else .ok
        { schemes := schemes cfg m
          sessionPublicKey := some key
          sessionExpiration := m.auth.maxSessionAgeSeconds * 1000000000
          accountID := m.accountID
          serviceID := m.id
          ipRestrictions := parseRestrictions cfg m }

/-- `protoToMapping`: targets that do not parse are skipped. -/
def protoToMapping : Mapping where
  id := m.id
  accountID := m.accountID
  host := m.domain
  paths := m.path.foldl (fun paths p =>
    match cfg.parseURL p.target with
    | none => paths
    | some url => paths.insert p.path
        { url := url
          skipTLSVerify := p.skipTLSVerify
          requestTimeout := clampDialTimeout cfg (p.requestTimeout.getD 0)
          pathRewrite := p.pathRewrite
          customHeaders := p.customHeaders }) ∅
  passHostHeader := m.passHostHeader
  rewriteRedirects := m.rewriteRedirects
  stripAuthHeaders := m.auth.headerAuths

end

/-! ## Setting up -/

section

variable (env : Env) (s : Server) (m : ProxyMapping) (port : Nat)

/-- The router of a port is changed; `routerForPort` makes it if it is not there. -/
def Server.updateRouter (f : Router → Router) : Server :=
  if port = 0 ∨ port = cfg.mainPort then { s with mainRouter := f s.mainRouter }
  else { s with portRouters :=
    Function.update s.portRouters port (some (f ((s.portRouters port).getD {}))) }

/-- What `routerForPort` needs for a port. -/
def routerAvailable : Bool :=
  port = 0 || port = cfg.mainPort || (s.portRouters port).isSome || env.listenTCP port

/-- Stops the service's relay. -/
def Server.removeUDPRelay (svcID : String) : Server :=
  { s with udpRelays := update s.udpRelays svcID none }

/-- The checks that the setup of a TCP and of a TLS mapping begin with. -/
def l4Port : Except SetupError Nat :=
  match validatePort m.listenPort with
  | none => .error (.invalidPort m.listenPort)
  | some port =>
    if l4TargetAddress m = "" then .error .emptyTarget
    else if cfg.wireguardPort ≠ 0 ∧ port = cfg.wireguardPort then .error (.tunnelPort port)
    else if routerAvailable cfg env s port then .ok port
    else .error (.listen port)

/-- `setupHTTPMapping`, with `updateMapping`: the server afterwards, and the error. -/
def setupHTTPMapping : Server × Option SetupError :=
  if m.path = [] then (s, none)
  else
    let s := { s with mainRouter := s.mainRouter.addRoute cfg.toLower m.domain (httpRoute m) }
    match domainConfig cfg m with
    | .error err => (s, some err)
    | .ok config =>
      ({ s with
          domains := update s.domains m.domain (some config)
          mappings := update s.mappings m.domain (some (protoToMapping cfg m)) }, none)

/-- `setupTCPMapping`. -/
def setupTCPMapping : Server × Option SetupError :=
  match l4Port cfg env s m with
  | .error err => (s, some err)
  | .ok port =>
    let s := s.updateRouter cfg port (·.setFallback (l4Route cfg .tcp m))
    ({ s with svcPorts := Function.update s.svcPorts m.id [port] }, none)

/-- `setupTLSMapping`: the main port is not tracked. -/
def setupTLSMapping : Server × Option SetupError :=
  match l4Port cfg env s m with
  | .error err => (s, some err)
  | .ok port =>
    let s := s.updateRouter cfg port (·.addRoute cfg.toLower m.domain (l4Route cfg .tls m))
    (if port ≠ cfg.mainPort then { s with svcPorts := Function.update s.svcPorts m.id [port] }
      else s, none)

/-- `setupUDPMapping`, with `addUDPRelay`: the relay that is there is closed first. -/
def setupUDPMapping : Server × Option SetupError :=
  match validatePort m.listenPort with
  | none => (s, some (.invalidPort m.listenPort))
  | some port =>
    if l4TargetAddress m = "" then (s, some .emptyTarget)
    else if cfg.wireguardPort ≠ 0 ∧ port = cfg.wireguardPort then (s, some (.tunnelPort port))
    else
      let s := s.removeUDPRelay m.id
      if !env.listenUDP port then (s, some (.listen port))
      else if !env.hasClient m.accountID then (s, some (.noClient m.accountID))
      else
        ({ s with udpRelays := update s.udpRelays m.id (some (udpRelay cfg m port)) }, none)

/-- `setupMappingRoutes`: by mode. -/
def setupMappingRoutes : Server × Option SetupError :=
  match m.mode with
  | .tcp => setupTCPMapping cfg env s m
  | .udp => setupUDPMapping cfg env s m
  | .tls => setupTLSMapping cfg env s m
  | .http => setupHTTPMapping cfg s m

end

/-! ## Cleaning up -/

section

variable (s : Server) (host svcID : String) (port : Nat)

/-- `cleanupPortIfEmpty`: closes a port no route uses, the main port apart. -/
def Server.cleanupPortIfEmpty : Server :=
  if port = 0 ∨ port = cfg.mainPort then s
  else
    match s.portRouters port with
    | none => s
    | some router =>
      if router.isEmpty then { s with portRouters := update s.portRouters port none }
      else s

/-- What `cleanupMappingRoutes` does for a tracked port. -/
def Server.cleanupPort : Server :=
  let s :=
    if port = 0 ∨ port = cfg.mainPort ∨ (s.portRouters port).isSome then
      s.updateRouter cfg port (fun router =>
        if host ≠ "" then router.removeRoute cfg.toLower host svcID
        else router.removeFallback svcID)
    else s
  s.cleanupPortIfEmpty cfg port

/-- What `cleanupMappingRoutes` does for a domain. -/
def Server.cleanupHost : Server :=
  if host = "" then s
  else
    { s with
      domains := update s.domains host none
      mappings := update s.mappings host none
      mainRouter := s.mainRouter.removeRoute cfg.toLower host svcID }

/-- `cleanupMappingRoutes`: the host, the recorded ports and the relay of the service. -/
def cleanupMappingRoutes (m : ProxyMapping) : Server :=
  let s := s.cleanupHost cfg m.domain m.id
  let entries := s.svcPorts m.id
  let s := { s with svcPorts := update s.svcPorts m.id [] }
  let s := entries.foldl (fun s port => s.cleanupPort cfg m.domain m.id port) s
  s.removeUDPRelay m.id

end

/-! ## Calls -/

section

variable (env : Env) (s : Server) (m : ProxyMapping)

/-- `addMapping`: the peer first, then the routes. -/
def addMapping : Server × Option SetupError :=
  if !env.addPeer then (s, some .createPeer)
  else
    match setupMappingRoutes cfg env s m with
    | (s, some err) => (cleanupMappingRoutes cfg s m, some err)
    | (s, none) => ({ s with lastMappings := s.lastMappings.insert m.id m }, none)

/-- `modifyMapping`: what is cleaned up is what was stored, if anything was. -/
def modifyMapping : Server × Option SetupError :=
  let s := cleanupMappingRoutes cfg s ((s.lastMappings.lookup m.id).getD m)
  match setupMappingRoutes cfg env s m with
  | (s, some err) => (cleanupMappingRoutes cfg s m, some err)
  | (s, none) => ({ s with lastMappings := s.lastMappings.insert m.id m }, none)

/-- `removeMapping`; it does not fail. -/
def removeMapping : Server :=
  let old := s.lastMappings.lookup m.id
  cleanupMappingRoutes cfg { s with lastMappings := s.lastMappings.erase m.id } (old.getD m)

end

/-! ## What a server serves -/

/-- A place where a service is published. -/
inductive Entry where
  | sni (port : Nat) (host : String) (route : Route)
  | fallback (port : Nat) (route : Route)
  | udp (svcID : String) (relay : Relay)
  | http (host : String) (mapping : Mapping)
  | auth (host : String) (config : DomainConfig)

/-- The service that an entry belongs to. -/
def Entry.service : Entry → String
  | .sni _ _ route => route.serviceID
  | .fallback _ route => route.serviceID
  | .udp _ relay => relay.serviceID
  | .http _ mapping => mapping.id
  | .auth _ config => config.serviceID

/-- The router that listens on a port. -/
def Server.routerAt (s : Server) (port : Nat) : Router :=
  if port = cfg.mainPort then s.mainRouter else (s.portRouters port).getD {}

/-- The entry is in the server's tables. -/
def Server.Serves (s : Server) : Entry → Prop
  | .sni port host route => route ∈ (s.routerAt cfg port).routesFor host
  | .fallback port route => (s.routerAt cfg port).fallback = some route
  | .udp svcID relay => s.udpRelays svcID = some relay
  | .http host mapping => s.mappings host = some mapping
  | .auth host config => s.domains host = some config

/-- The mapping has an HTTP mapping and a protected domain. -/
def ProxyMapping.ServesHTTP (m : ProxyMapping) : Prop := m.mode = .http ∧ m.path ≠ []
deriving Decidable

/-- **What a mapping is to be served as.** -/
def Publishes (m : ProxyMapping) : Entry → Prop
  | .sni port host route =>
    (m.ServesHTTP ∧ port = cfg.mainPort ∧ route = httpRoute m ∨
      m.mode = .tls ∧ validatePort m.listenPort = some port ∧ route = l4Route cfg .tls m) ∧
    host = cfg.toLower m.domain ∧ host ≠ ""
  | .fallback port route =>
    m.mode = .tcp ∧ validatePort m.listenPort = some port ∧ route = l4Route cfg .tcp m
  | .udp svcID relay =>
    m.mode = .udp ∧ svcID = m.id ∧
      ∃ port, validatePort m.listenPort = some port ∧ relay = udpRelay cfg m port
  | .http host mapping => m.ServesHTTP ∧ host = m.domain ∧ mapping = protoToMapping cfg m
  | .auth host config => m.ServesHTTP ∧ host = m.domain ∧ domainConfig cfg m = .ok config

end

section

variable {cfg : Config} {env : Env} {s s' : Server} {m : ProxyMapping} {e : Entry}
  {host svcID : String} {port p : Nat}

open Server

/-- A valid port is the number itself. -/
theorem validatePort_eq_some (h : validatePort n = some port) : n = port ∧ 0 < port := by
  rw [validatePort] at h
  split at h
  · cases h
  · cases h
    omega

/-- A domain's configuration names its service. -/
theorem service_domainConfig (h : domainConfig cfg m = .ok config) : config.serviceID = m.id := by
  rw [domainConfig] at h
  split at h
  · cases h
    rfl
  split at h
  · cases h
  split at h
  · cases h
  · cases h
    rfl

/-- What a mapping publishes belongs to its service. -/
theorem service_of_publishes (h : Publishes cfg m e) : e.service = m.id := by
  cases e with
  | sni port host route =>
    obtain ⟨⟨-, -, rfl⟩ | ⟨-, -, rfl⟩, -⟩ := h
    · rfl
    · rfl
  | fallback port route =>
    obtain ⟨-, -, rfl⟩ := h
    rfl
  | udp svcID relay =>
    obtain ⟨-, -, port, -, rfl⟩ := h
    rfl
  | http host mapping =>
    obtain ⟨-, -, rfl⟩ := h
    rfl
  | auth host config => exact service_domainConfig h.2.2

/-! ## Routers -/

/-- What is seen of a router. -/
def contents (r : Router) : (String → List Route) × Option Route := (r.routesFor, r.fallback)

/-- The tables beside the routers. -/
def Server.tables (s : Server) :=
  (s.svcPorts, s.udpRelays, s.domains, s.mappings, s.lastMappings)

/-- The port that a tracked port stands for. -/
def Config.slot (cfg : Config) (port : Nat) : Nat := if port = 0 then cfg.mainPort else port

section

variable (f : Router → Router)

include f

/-- Updating one router leaves the other ports. -/
theorem routerAt_updateRouter : (s.updateRouter cfg port f).routerAt cfg p =
    if p = cfg.slot port then f (s.routerAt cfg p) else s.routerAt cfg p := by
  rw [updateRouter, Config.slot]
  split
  · next hm =>
    have hs : (if port = 0 then cfg.mainPort else port) = cfg.mainPort := by
      rcases hm with h | h <;> simp [h]
    rw [hs, routerAt, routerAt]
    by_cases hp : p = cfg.mainPort
    · simp [hp]
    · simp [hp]
  · next hm =>
    obtain ⟨hz, hpo⟩ := not_or.mp hm
    rw [if_neg hz, routerAt, routerAt]
    by_cases hp : p = port
    · subst hp
      simp [hpo]
    · simp [hp]

/-- Updating a router leaves the other tables. -/
theorem tables_updateRouter : (s.updateRouter cfg port f).tables = s.tables := by
  rw [updateRouter]
  split
  · rfl
  · rfl

@[simp] theorem svcPorts_updateRouter : (s.updateRouter cfg port f).svcPorts = s.svcPorts :=
  congrArg (·.1) (tables_updateRouter f)

@[simp] theorem udpRelays_updateRouter : (s.updateRouter cfg port f).udpRelays = s.udpRelays :=
  congrArg (·.2.1) (tables_updateRouter f)

@[simp] theorem domains_updateRouter : (s.updateRouter cfg port f).domains = s.domains :=
  congrArg (·.2.2.1) (tables_updateRouter f)

@[simp] theorem mappings_updateRouter : (s.updateRouter cfg port f).mappings = s.mappings :=
  congrArg (·.2.2.2.1) (tables_updateRouter f)

@[simp] theorem lastMappings_updateRouter :
    (s.updateRouter cfg port f).lastMappings = s.lastMappings :=
  congrArg (·.2.2.2.2) (tables_updateRouter f)

end

/-- Servers that look the same serve the same. -/
theorem serves_congr (hr : ∀ p, contents (s.routerAt cfg p) = contents (s'.routerAt cfg p))
    (hta : s.tables = s'.tables) : s.Serves cfg e ↔ s'.Serves cfg e := by
  simp only [contents, Prod.mk.injEq] at hr
  simp only [tables, Prod.mk.injEq] at hta
  obtain ⟨-, hu, hd, hm, -⟩ := hta
  cases e with
  | sni port host route => rw [Server.Serves, Server.Serves, (hr port).1]
  | fallback port route => rw [Server.Serves, Server.Serves, (hr port).2]
  | udp svcID relay => rw [Server.Serves, Server.Serves, hu]
  | http host mapping => rw [Server.Serves, Server.Serves, hm]
  | auth host config => rw [Server.Serves, Server.Serves, hd]

/-- Closing a router that is empty changes nothing that is seen. -/
theorem contents_cleanupPortIfEmpty :
    contents ((s.cleanupPortIfEmpty cfg port).routerAt cfg p) = contents (s.routerAt cfg p) := by
  rw [cleanupPortIfEmpty]
  split
  · rfl
  split
  · rfl
  rename_i router hr
  split
  · next he =>
    rw [routerAt, routerAt]
    dsimp only
    by_cases hp : p = port
    · subst hp
      rw [update_self, hr]
      split
      · rfl
      · refine Prod.ext (funext fun h => ?_) ?_
        · exact (routesFor_of_isEmpty he h).symm
        · exact (fallback_of_isEmpty he).symm
    · rw [update_of_ne hp]
  · rfl

theorem tables_cleanupPortIfEmpty : (s.cleanupPortIfEmpty cfg port).tables = s.tables := by
  rw [cleanupPortIfEmpty]
  split
  · rfl
  split
  · rfl
  · split
    · rfl
    · rfl

/-- What `cleanupMappingRoutes` does to the router of a tracked port. -/
def cleanupRouter (cfg : Config) (host svcID : String) (router : Router) : Router :=
  if host ≠ "" then router.removeRoute cfg.toLower host svcID else router.removeFallback svcID

/-- A router that is not there has nothing to lose. -/
theorem contents_cleanupRouter_empty :
    contents (cleanupRouter cfg host svcID {}) = contents {} := by
  rw [cleanupRouter]
  split
  · rw [contents, Prod.mk.injEq]
    refine ⟨funext fun h => ?_, fallback_removeRoute⟩
    rw [routesFor_removeRoute]
    split
    · rfl
    · rfl
  · rfl

theorem tables_cleanupPort : (s.cleanupPort cfg host svcID port).tables = s.tables := by
  rw [cleanupPort, tables_cleanupPortIfEmpty]
  split
  · exact tables_updateRouter _
  · rfl

/-- Closing an empty port takes no entry away. -/
theorem serves_cleanupPort : (s.cleanupPort cfg host svcID port).Serves cfg e ↔
    (s.updateRouter cfg port (cleanupRouter cfg host svcID)).Serves cfg e := by
  refine serves_congr (fun p => ?_) (tables_cleanupPort.trans (tables_updateRouter _).symm)
  rw [cleanupPort, contents_cleanupPortIfEmpty]
  split
  · rfl
  rename_i ha
  simp only [not_or, Option.not_isSome_iff_eq_none] at ha
  grind [routerAt_updateRouter, Config.slot, routerAt, contents_cleanupRouter_empty]

/-! ## What cleaning up removes -/

/-- What a tracked port loses. -/
def RemovedAt (cfg : Config) (host svcID : String) (port : Nat) : Entry → Prop
  | .sni p h route => p = cfg.slot port ∧ host ≠ "" ∧ h = cfg.toLower host ∧ route.serviceID = svcID
  | .fallback p _ => p = cfg.slot port ∧ host = ""
  | _ => False

/-- Cleaning a router takes away the service's routes there, and nothing else. -/
theorem serves_cleanupRouter :
    (s.updateRouter cfg port (cleanupRouter cfg host svcID)).Serves cfg e ↔
      s.Serves cfg e ∧ ¬ RemovedAt cfg host svcID port e := by
  cases e with
  | sni p h route | fallback p route =>
    rw [Server.Serves, Server.Serves, routerAt_updateRouter, RemovedAt]
    by_cases hp : p = cfg.slot port
    · by_cases hh : host = ""
      · simp [hp, hh, cleanupRouter, Router.removeFallback, Router.routesFor]
      · simp [hp, hh, cleanupRouter, mem_routesFor_removeRoute, fallback_removeRoute]
    · simp [hp]
  | udp id relay | http h mapping | auth h config => simp [Server.Serves, RemovedAt]

/-- What a domain loses. -/
def RemovedFor (cfg : Config) (host svcID : String) : Entry → Prop
  | .sni p h route => host ≠ "" ∧ p = cfg.mainPort ∧ h = cfg.toLower host ∧ route.serviceID = svcID
  | .http h _ => host ≠ "" ∧ h = host
  | .auth h _ => host ≠ "" ∧ h = host
  | _ => False

/-- Where a table holds a value after a key is removed. -/
theorem update_none_eq_some [DecidableEq α] {a b : α} :
    update f a none b = some x ↔ f b = some x ∧ b ≠ a := by
  by_cases h : b = a
  · simp [h]
  · simp [h]

/-- Where a table holds a value after a key is written. -/
theorem update_some_eq_some [DecidableEq α] {a b : α} :
    update f a (some y) b = some x ↔ (b = a ∧ x = y) ∨ (f b = some x ∧ b ≠ a) := by
  by_cases h : b = a
  · simp [h, eq_comm]
  · simp [h]

/-- Cleaning a host takes away what the service has there, and nothing else. -/
theorem serves_cleanupHost : (s.cleanupHost cfg host svcID).Serves cfg e ↔
    s.Serves cfg e ∧ ¬ RemovedFor cfg host svcID e := by
  rw [cleanupHost]
  by_cases hh : host = ""
  · cases e <;> simp [RemovedFor, hh]
  rw [if_neg hh]
  cases e with
  | sni p h route => grind [Server.Serves, RemovedFor, routerAt, mem_routesFor_removeRoute]
  | fallback p route => grind [Server.Serves, routerAt, RemovedFor, fallback_removeRoute]
  | udp id relay => simp [Server.Serves, RemovedFor]
  | http h mapping | auth h config => simp [Server.Serves, RemovedFor, hh, update_none_eq_some]

/-- What a mapping loses when it is cleaned up. -/
def Removed (cfg : Config) (s : Server) (m : ProxyMapping) : Entry → Prop
  | .sni port host route =>
    m.domain ≠ "" ∧ (port = cfg.mainPort ∨ ∃ p ∈ s.svcPorts m.id, port = cfg.slot p) ∧
      host = cfg.toLower m.domain ∧ route.serviceID = m.id
  | .fallback port _ => m.domain = "" ∧ ∃ p ∈ s.svcPorts m.id, port = cfg.slot p
  | .udp svcID _ => svcID = m.id
  | .http host _ => m.domain ≠ "" ∧ host = m.domain
  | .auth host _ => m.domain ≠ "" ∧ host = m.domain

/-- Cleaning several ports. -/
theorem serves_foldl_cleanupPort (ports : List Nat) :
    (ports.foldl (fun s port => s.cleanupPort cfg host svcID port) s).Serves cfg e ↔
      s.Serves cfg e ∧ ∀ port ∈ ports, ¬ RemovedAt cfg host svcID port e := by
  have hl := foldl_iff (f := fun (s : Server) port => s.cleanupPort cfg host svcID port)
    (P := fun s => ¬ s.Serves cfg e) (Q := fun port => RemovedAt cfg host svcID port e)
    (fun s port => by rw [serves_cleanupPort, serves_cleanupRouter]; tauto) ports s
  rw [← not_iff_not, hl, not_and_or]
  simp [not_not]

theorem tables_foldl_cleanupPort (cfg : Config) (host svcID : String) (ports : List Nat)
    (s : Server) :
    (ports.foldl (fun s port => s.cleanupPort cfg host svcID port) s).tables = s.tables :=
  foldl_const tables (fun _ _ => tables_cleanupPort) ports s

theorem svcPorts_cleanupHost : (s.cleanupHost cfg host svcID).svcPorts = s.svcPorts := by
  rw [cleanupHost]
  split
  · rfl
  · rfl

/-- The recorded ports are not served. -/
theorem serves_withPorts (ports : String → List Nat) :
    { s with svcPorts := ports }.Serves cfg e ↔ s.Serves cfg e := by
  cases e <;> exact Iff.rfl

/-- Stopping a relay takes away that relay. -/
theorem serves_removeUDPRelay :
    (s.removeUDPRelay svcID).Serves cfg e ↔ s.Serves cfg e ∧ ∀ relay, e ≠ .udp svcID relay := by
  cases e with
  | udp id relay =>
    rw [Server.Serves, removeUDPRelay, update_none_eq_some]
    refine and_congr_right fun _ => ⟨?_, ?_⟩
    · rintro hn _ he
      injection he with hid
      exact hn hid
    · rintro hn rfl
      exact hn relay rfl
  | sni p h route => exact (and_iff_left nofun).symm
  | fallback p route | http h mapping | auth h config => exact (and_iff_left nofun).symm

/-- **Cleaning up.**  Routes and relays go by the service, HTTP mappings and domains go by
    the host alone, and a fallback only goes where there is no host. -/
theorem serves_cleanup :
    (cleanupMappingRoutes cfg s m).Serves cfg e ↔ s.Serves cfg e ∧ ¬ Removed cfg s m e := by
  rw [cleanupMappingRoutes, serves_removeUDPRelay, serves_foldl_cleanupPort, serves_withPorts,
    serves_cleanupHost, svcPorts_cleanupHost, and_assoc, and_assoc]
  refine and_congr_right fun _ => ?_
  cases e with
  | sni p h route | fallback p route =>
    simp only [RemovedFor, RemovedAt, Removed]
    grind
  | udp id relay => grind [RemovedFor, RemovedAt, Removed]
  | http h mapping | auth h config => simp [RemovedFor, RemovedAt, Removed]

/-- The cleanup forgets the recorded ports. -/
theorem tables_cleanup (cfg : Config) (s : Server) (m : ProxyMapping) :
    (cleanupMappingRoutes cfg s m).svcPorts = update s.svcPorts m.id [] ∧
      (cleanupMappingRoutes cfg s m).lastMappings = s.lastMappings := by
  rw [cleanupMappingRoutes, svcPorts_cleanupHost]
  have hta := tables_foldl_cleanupPort cfg m.domain m.id (s.svcPorts m.id)
    { s.cleanupHost cfg m.domain m.id with svcPorts := update s.svcPorts m.id [] }
  refine ⟨congrArg Prod.fst hta, (congrArg (·.2.2.2.2) hta).trans ?_⟩
  rw [cleanupHost]
  split <;> rfl

/-! ## What setting up adds -/

/-- What a mapping puts its own entry in the place of. -/
def Replaced (m : ProxyMapping) : Entry → Prop
  | .sni _ _ _ => False
  | .fallback port _ => m.mode = .tcp ∧ validatePort m.listenPort = some port
  | .udp svcID _ => m.mode = .udp ∧ svcID = m.id
  | .http host _ => m.ServesHTTP ∧ host = m.domain
  | .auth host _ => m.ServesHTTP ∧ host = m.domain

/-- The service has no SNI routes but those that its mapping publishes. -/
def OwnRoutes (cfg : Config) (s : Server) (m : ProxyMapping) : Prop :=
  ∀ port host route, s.Serves cfg (.sni port host route) → route.serviceID = m.id →
    Publishes cfg m (.sni port host route)

theorem l4Port_eq_ok (h : l4Port cfg env s m = .ok port) :
    validatePort m.listenPort = some port := by
  grind [l4Port]

/-- A valid port is its own slot. -/
theorem slot_eq_self (h : validatePort m.listenPort = some port) : cfg.slot port = port := by
  have hp := (validatePort_eq_some h).2
  rw [Config.slot, if_neg (by omega)]

/-- An HTTP mapping adds its entries over those it replaces. -/
theorem serves_setupHTTP (hm : m.mode = .http) (h : setupHTTPMapping cfg s m = (s', none))
    (ho : OwnRoutes cfg s m) :
    s'.Serves cfg e ↔ Publishes cfg m e ∨ (s.Serves cfg e ∧ ¬ Replaced m e) := by
  rw [setupHTTPMapping] at h
  split at h
  · next hpa =>
    cases h
    cases e <;> simp [Publishes, Replaced, ProxyMapping.ServesHTTP, hm, hpa]
  rename_i hpa
  have hs : m.ServesHTTP := ⟨hm, hpa⟩
  split at h
  · cases h
  rename_i config hc
  cases h
  cases e with
  | sni p host route =>
    rw [Server.Serves, Server.Serves, Publishes, routerAt, routerAt]
    by_cases hp : p = cfg.mainPort
    · rw [if_pos hp]
      rw [mem_routesFor_addRoute]
      · simp [Replaced, hs, hp, hm, or_comm]
      · intro y hy hi
        have hpu := ho p (cfg.toLower m.domain) y
          (by rw [Server.Serves, routerAt, if_pos hp]; exact hy) hi
        rcases hpu.1 with ⟨-, -, hr⟩ | ⟨htl, -⟩
        · exact hr
        · rw [hm] at htl
          cases htl
    · simp [Replaced, hp, hm]
  | fallback p route =>
    grind [Server.Serves, routerAt, Publishes, Replaced, fallback_addRoute]
  | udp id relay => simp [Server.Serves, Publishes, Replaced, hm]
  | http host mapping =>
    rw [Server.Serves, Server.Serves, Publishes, Replaced, update_some_eq_some]
    simp [hs]
  | auth host config' =>
    rw [Server.Serves, Server.Serves, Publishes, Replaced, update_some_eq_some]
    simp [hs, hc, eq_comm]

/-- A TCP mapping adds its entries over those it replaces. -/
theorem serves_setupTCP (hm : m.mode = .tcp) (h : setupTCPMapping cfg env s m = (s', none)) :
    s'.Serves cfg e ↔ Publishes cfg m e ∨ (s.Serves cfg e ∧ ¬ Replaced m e) := by
  rw [setupTCPMapping] at h
  split at h
  · cases h
  rename_i port hpo
  cases h
  have hv := l4Port_eq_ok hpo
  rw [serves_withPorts]
  cases e with
  | sni p host route =>
    rw [Server.Serves, Server.Serves, routerAt_updateRouter]
    by_cases hp : p = cfg.slot port
    · simp [Publishes, Replaced, ProxyMapping.ServesHTTP, hm, hp, Router.setFallback,
        Router.routesFor]
    · simp [Publishes, Replaced, ProxyMapping.ServesHTTP, hm, hp]
  | fallback p route =>
    rw [Server.Serves, Server.Serves, routerAt_updateRouter, slot_eq_self hv]
    by_cases hp : p = port
    · simp [Publishes, Replaced, hm, hp, hv, Router.setFallback, eq_comm]
    · simp [Publishes, Replaced, hm, hp, hv, Ne.symm hp]
  | udp id relay | http host mapping | auth host config =>
    simp [Server.Serves, Publishes, Replaced, ProxyMapping.ServesHTTP, hm]

/-- A TLS mapping adds its entries over those it replaces. -/
theorem serves_setupTLS (hm : m.mode = .tls) (h : setupTLSMapping cfg env s m = (s', none))
    (ho : OwnRoutes cfg s m) :
    s'.Serves cfg e ↔ Publishes cfg m e ∨ (s.Serves cfg e ∧ ¬ Replaced m e) := by
  rw [setupTLSMapping] at h
  split at h
  · cases h
  rename_i port hpo
  have hv := l4Port_eq_ok hpo
  have hs' : s'.Serves cfg e ↔ (s.updateRouter cfg port
      (·.addRoute cfg.toLower m.domain (l4Route cfg .tls m))).Serves cfg e := by
    split at h
    · cases h
      exact serves_withPorts _
    · cases h
      exact Iff.rfl
  rw [hs']
  cases e with
  | sni p host route =>
    rw [Server.Serves, Server.Serves, routerAt_updateRouter, slot_eq_self hv]
    by_cases hp : p = port
    · rw [if_pos hp, mem_routesFor_addRoute]
      · simp [Publishes, Replaced, ProxyMapping.ServesHTTP, hm, hp, hv, or_comm]
      · intro y hy hi
        have hpu := ho p (cfg.toLower m.domain) y hy hi
        rcases hpu.1 with ⟨⟨hh, -⟩, -⟩ | ⟨-, -, hr⟩
        · rw [hm] at hh
          cases hh
        · exact hr
    · simp [Publishes, Replaced, ProxyMapping.ServesHTTP, hm, hp, hv, Ne.symm hp]
  | fallback p route =>
    rw [Server.Serves, Server.Serves, routerAt_updateRouter]
    by_cases hp : p = cfg.slot port
    · simp [Publishes, Replaced, hm, hp, fallback_addRoute]
    · simp [Publishes, Replaced, hm, hp]
  | udp id relay | http host mapping | auth host config =>
    simp [Server.Serves, Publishes, Replaced, ProxyMapping.ServesHTTP, hm]

/-- A UDP mapping adds its entries over those it replaces. -/
theorem serves_setupUDP (hm : m.mode = .udp) (h : setupUDPMapping cfg env s m = (s', none)) :
    s'.Serves cfg e ↔ Publishes cfg m e ∨ (s.Serves cfg e ∧ ¬ Replaced m e) := by
  rw [setupUDPMapping] at h
  split at h
  · cases h
  rename_i port hv
  split at h
  · cases h
  split at h
  · cases h
  split at h
  · cases h
  split at h
  · cases h
  cases h
  cases e with
  | udp id relay =>
    rw [Server.Serves, Publishes, Replaced, update_some_eq_some,
      removeUDPRelay, update_none_eq_some]
    simp only [hm, hv, true_and, Option.some.injEq, exists_eq_left']
    tauto
  | sni p host route | fallback p route =>
    rw [Server.Serves, Server.Serves, routerAt, routerAt]
    simp [Publishes, Replaced, ProxyMapping.ServesHTTP, hm, removeUDPRelay]
  | http host mapping | auth host config =>
    simp [Server.Serves, Publishes, Replaced, ProxyMapping.ServesHTTP, hm, removeUDPRelay]

/-- **Setting up.**  The entries of the mapping are added, in the place of what stood at
    their keys. -/
theorem serves_setup (h : setupMappingRoutes cfg env s m = (s', none)) (ho : OwnRoutes cfg s m) :
    s'.Serves cfg e ↔ Publishes cfg m e ∨ (s.Serves cfg e ∧ ¬ Replaced m e) := by
  grind [setupMappingRoutes, serves_setupTCP, serves_setupUDP, serves_setupTLS, serves_setupHTTP]

end

end ProxyServer

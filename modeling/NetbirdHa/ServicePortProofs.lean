import NetbirdHa.TransitionProofs
import Mathlib.Data.List.Nodup

/-! # The listen ports of services

A service of a layer 4 mode has a port of its cluster, given in the request or
assigned.  An update without a port keeps the one that is stored. -/

namespace ServicePort

open Transition List

/-- A service's protocol; `unset` is the empty text. -/
inductive Mode where
  | unset
  | http
  | tcp
  | udp
  | tls
deriving DecidableEq

/-- `IsL4Protocol`. -/
def Mode.isL4 (m : Mode) : Bool := m = .tcp ∨ m = .udp ∨ m = .tls

/-- `IsPortBasedProtocol`. -/
def Mode.isPortBased (m : Mode) : Bool := m = .tcp ∨ m = .udp

/-- The empty mode is HTTP. -/
def Mode.isHTTPFamily (m : Mode) : Bool := m = .unset ∨ m = .http

/-- One header that authenticates. -/
structure HeaderAuth where
  header : String
  enabled : Bool
  value : String

/-- What a request says; a listen port of 0 is none. -/
structure Request (T : Type) where
  id : String
  domain : String
  mode : Mode
  listenPort : Nat
  targets : List T
  headerAuths : List HeaderAuth

/-- A stored service. -/
structure Service (T : Type) extends Request T where
  proxyCluster : String
  portAutoAssigned : Bool := false
  terminated : Bool := false

/-- What is known of domains, clusters, targets and header names, and the range of ports. -/
structure Env (T : Type) where
  deriveCluster : String → Option String
  requireSubdomain : String → Option Bool
  customPorts : String → Option Bool
  validTarget : T → Bool
  canonicalHeaderKey : String → String
  autoAssignPortMin : Nat
  autoAssignPortMax : Nat

variable {T : Type} (env : Env T)

/-- The cluster's own domain is refused where a subdomain is required. -/
def subdomainOk (domain cluster : String) : Bool :=
  domain ≠ cluster ∨ env.requireSubdomain cluster ≠ some true

/-- Whether the cluster takes the ports services ask for. -/
def clusterCustomPorts (mode : Mode) (cluster : String) : Option Bool :=
  if mode.isL4 then env.customPorts cluster else none

/-- `assignPort`, where the draws and the search end with this port; the port 0 is never taken. -/
def assignPort (db : List (Service T)) (cluster : String) (port : Nat) : Option Nat :=
  if env.autoAssignPortMin ≤ port ∧ port ≤ env.autoAssignPortMax ∧
    ∀ s ∈ db, s.proxyCluster = cluster → 0 < s.listenPort → s.listenPort ≠ port then some port
  else none

/-- `ensureL4Port` of a service that is not ephemeral. -/
def ensureL4Port (db : List (Service T)) (s : Service T) (customPorts : Option Bool) (port : Nat) :
    Option (Service T) :=
  if !s.mode.isL4 then some s
  else if s.mode.isPortBased ∧ 0 < s.listenPort ∧ customPorts ≠ some true then none
  else if s.listenPort = 0 then (assignPort env db s.proxyCluster port).map fun p =>
    { s with listenPort := p, portAutoAssigned := true }
  else some s

/-- `checkPortConflict`: no other service of the cluster has the mode and the port, unless both are
    TLS for different domains. -/
def checkPortConflict (db : List (Service T)) (s : Service T) : Bool :=
  !s.mode.isL4 ∨ s.listenPort = 0 ∨ ∀ x ∈ db, x.proxyCluster = s.proxyCluster → x.mode = s.mode →
    x.listenPort = s.listenPort → x.id = s.id ∨ s.mode = .tls ∧ x.domain ≠ s.domain

/-- Every header in use has a value. -/
def validateHeaderAuthValues (headers : List HeaderAuth) : Bool :=
  headers.all fun h => !h.enabled || h.value ≠ ""

/-- `CreateService`; the ID is new. -/
def createService (db : List (Service T)) (x : Request T × Nat) : Option (List (Service T)) := do
  let cluster ← env.deriveCluster x.1.domain
  if subdomainOk env x.1.domain cluster ∧ validateHeaderAuthValues x.1.headerAuths ∧
    (∀ s ∈ db, s.id ≠ x.1.id) ∧ (x.1.domain = "" ∨ ∀ s ∈ db, s.domain ≠ x.1.domain) then
    let s ← ensureL4Port env db { x.1 with proxyCluster := cluster }
      (clusterCustomPorts env x.1.mode cluster) x.2
    if checkPortConflict db s ∧ s.targets.all env.validTarget then some (db ++ [s]) else none
  else none

/-- `validateProtocolChange`. -/
def validateProtocolChange (oldMode newMode : Mode) : Bool :=
  newMode = .unset ∨ newMode = oldMode ∨ oldMode.isHTTPFamily ∧ newMode.isHTTPFamily

/-- `resolveEffectiveCluster`: a new domain may lie in another cluster. -/
def resolveEffectiveCluster (existing : Service T) (r : Request T) : String :=
  if existing.domain = r.domain then existing.proxyCluster
  else (env.deriveCluster r.domain).getD existing.proxyCluster

/-- `preserveHeaderAuthHashes`: a header without a value keeps its old one. -/
def preserveHeaderAuthHashes (headers existing : List HeaderAuth) : List HeaderAuth :=
  headers.map fun h =>
    if h.enabled ∧ h.value = "" then
      { h with value := ((existing.reverse.find? fun e => e.value ≠ "" ∧
        env.canonicalHeaderKey e.header = env.canonicalHeaderKey h.header).map
          HeaderAuth.value).getD "" }
    else h

/-- `preserveListenPort`: no port asked for means the old port. -/
def preserveListenPort (s existing : Service T) : Service T :=
  if 0 < existing.listenPort ∧ s.listenPort = 0 then
    { s with listenPort := existing.listenPort, portAutoAssigned := existing.portAutoAssigned }
  else s

/-- `persistServiceUpdate`, over the services of the database. -/
def updateService (db : List (Service T)) (r : Request T) (port : Nat) :
    Option (List (Service T)) := do
  let existing ← db.find? (·.id = r.id)
  let proxyCluster := if existing.domain = r.domain then existing.proxyCluster
    else (env.deriveCluster r.domain).getD ""
  let headerAuths := preserveHeaderAuthHashes env r.headerAuths existing.headerAuths
  if !existing.terminated ∧ validateProtocolChange existing.mode r.mode ∧
    (existing.domain = r.domain ∨ ∀ s ∈ db, s.domain = r.domain → s.id = r.id) ∧
    subdomainOk env r.domain proxyCluster ∧ validateHeaderAuthValues headerAuths then
    let s ← ensureL4Port env db (preserveListenPort { r with headerAuths, proxyCluster } existing)
      (clusterCustomPorts env r.mode (resolveEffectiveCluster env existing r)) port
    if checkPortConflict db s ∧ s.targets.all env.validTarget then
      some (db.map fun x => if x.id = s.id then s else x)
    else none
  else none

/-- The request repeats the service, but for the port and, perhaps, values of headers. -/
structure Keeps (r : Request T) (s : Service T) : Prop where
  id : r.id = s.id
  domain : r.domain = s.domain
  mode : r.mode = s.mode
  listenPort : r.listenPort = 0
  targets : r.targets = s.targets
  headerAuths : ∀ h ∈ r.headerAuths, ∃ h' ∈ s.headerAuths, h = h' ∨ h = { h' with value := "" }

/-- What was checked when a service was created.  A service of a layer 4 mode has the port 0 only
    if it was assigned, from a range that starts there. -/
structure Sound (db : List (Service T)) (s : Service T) : Prop where
  live : s.terminated = false
  subdomain : subdomainOk env s.domain s.proxyCluster
  headers : validateHeaderAuthValues s.headerAuths
  targets : s.targets.all env.validTarget
  given : s.mode.isL4 = false → s.portAutoAssigned = false
  zero : s.mode.isL4 → s.listenPort = 0 → s.portAutoAssigned ∧ env.autoAssignPortMin = 0
  conflict : checkPortConflict db s

variable {env} {db db' : List (Service T)}

/-- The port that a service is stored with. -/
theorem ensureL4Port_spec {s s' : Service T} (h : ensureL4Port env db s c port = some s') :
    ∃ p a, s' = { s with listenPort := p, portAutoAssigned := a } ∧
      (s.mode.isL4 = false → a = s.portAutoAssigned) ∧
      (s.mode.isL4 → p = 0 → a = true ∧ env.autoAssignPortMin = 0) := by
  rw [ensureL4Port] at h
  split at h
  · cases h
    exact ⟨_, _, rfl, fun _ => rfl, by simp_all⟩
  · split at h
    · cases h
    · split at h
      · obtain ⟨p, hq, rfl⟩ := Option.map_eq_some_iff.mp h
        obtain ⟨hq, ⟨⟩⟩ := Option.ite_none_right_eq_some.mp hq
        exact ⟨_, _, rfl, by simp_all, fun _ hz => ⟨rfl, by omega⟩⟩
      · cases h
        exact ⟨_, _, rfl, by simp_all, fun _ hz => absurd hz ‹_›⟩

/-- Every service that was created is sound, and no two have the same ID. -/
theorem sound_createService {x : Request T × Nat}
    (h : (db.map (·.id)).Nodup ∧ ∀ s ∈ db, Sound env db s)
    (hs : createService env db x = some db') :
    (db'.map (·.id)).Nodup ∧ ∀ s ∈ db', Sound env db' s := by
  simp only [createService, Option.bind_eq_bind, Option.bind_eq_some_iff] at hs
  obtain ⟨cluster, hc, hs⟩ := hs
  obtain ⟨⟨hsub, hh, hid, hd⟩, hs⟩ := Option.ite_none_right_eq_some.mp hs
  obtain ⟨s, he, ⟨hcf, ht⟩, ⟨⟩⟩ := bind_ite_eq_some.mp hs
  obtain ⟨p, a, rfl, ha, hz⟩ := ensureL4Port_spec he
  constructor
  · grind
  · intro s' hm
    rcases mem_append.mp hm with hm | hm
    · have hs' := h.2 s' hm
      refine { hs' with conflict := ?_ }
      have := hs'.conflict
      grind [checkPortConflict]
    · rw [mem_singleton.mp hm]
      refine ⟨rfl, hsub, hh, ht, ha, hz, ?_⟩
      grind [checkPortConflict]

/-- Values that are left out are filled in. -/
theorem validate_preserved (env : Env T) {r : Request T} {s : Service T} (hk : Keeps r s)
    (hs : validateHeaderAuthValues s.headerAuths) :
    validateHeaderAuthValues (preserveHeaderAuthHashes env r.headerAuths s.headerAuths) := by
  simp only [validateHeaderAuthValues, preserveHeaderAuthHashes, all_eq_true, mem_map] at hs ⊢
  rintro _ ⟨h, hm, rfl⟩
  obtain ⟨h', hm', he⟩ := hk.headerAuths h hm
  split
  · cases hf : s.headerAuths.reverse.find? fun e => e.value ≠ "" ∧
        env.canonicalHeaderKey e.header = env.canonicalHeaderKey h.header with
    | none => grind
    | some e =>
      have := find?_some hf
      simp_all
  · grind

theorem Keeps.eq {r : Request T} {s : Service T} (hk : Keeps r s) :
    ∃ hs, r = { s.toRequest with listenPort := 0, headerAuths := hs } := by
  obtain ⟨⟩ := r
  obtain ⟨rfl, rfl, rfl, rfl, rfl, -⟩ := hk
  exact ⟨_, rfl⟩

/-- The service has a port, and one that its cluster still lets it have; or it has the port 0
    and is given that again. -/
def PortStays (env : Env T) (s : Service T) (port : Nat) : Prop :=
  s.mode.isL4 → 0 < s.listenPort ∧
      (s.mode.isPortBased → env.customPorts s.proxyCluster = some true) ∨
    s.listenPort = 0 ∧ port = 0

/-- The service that the update of `Keeps` is checked as. -/
def kept (s : Service T) (headerAuths : List HeaderAuth) : Service T := preserveListenPort
  { s with listenPort := 0, headerAuths, portAutoAssigned := false, terminated := false } s

/-- The port is that of the stored service. -/
theorem ensureL4Port_kept {s : Service T} (hs : Sound env db s) (headerAuths : List HeaderAuth)
    (port : Nat) (hst : PortStays env s port) :
    ensureL4Port env db (kept s headerAuths) (clusterCustomPorts env s.mode s.proxyCluster) port =
      some { s with headerAuths } := by
  have hl := hs.live
  have hg := hs.given
  have hz := hs.zero
  obtain ⟨⟨id, domain, mode, listenPort, targets, auths⟩, cluster, auto, terminated⟩ := s
  cases hl
  by_cases h0 : listenPort = 0
  · subst h0
    cases hm : mode.isL4 with
    | false =>
      cases hg hm
      simp [kept, preserveListenPort, ensureL4Port, hm]
    | true =>
      obtain ⟨hau, hmin⟩ := hz hm rfl
      have hp : port = 0 := by
        rcases hst hm with h | h
        · exact absurd h.1 (Nat.lt_irrefl 0)
        · exact h.2
      subst hp
      cases hau
      have ha : assignPort env db cluster 0 = some 0 :=
        if_pos ⟨Nat.le_of_eq hmin, Nat.zero_le _, fun x _ _ hx => Nat.ne_of_gt hx⟩
      simp [kept, preserveListenPort, ensureL4Port, hm, ha]
  · have hk : kept ⟨⟨id, domain, mode, listenPort, targets, auths⟩, cluster, auto, false⟩
        headerAuths = ⟨⟨id, domain, mode, listenPort, targets, headerAuths⟩, cluster, auto,
          false⟩ := by
      simp [kept, preserveListenPort, Nat.pos_of_ne_zero h0]
    rw [hk, ensureL4Port, clusterCustomPorts]
    grind [Mode.isL4, PortStays]

/-- … and only then. -/
theorem portStays_of_ensureL4Port {s s' : Service T} {headerAuths : List HeaderAuth} {port : Nat}
    (h : ensureL4Port env db (kept s headerAuths)
      (clusterCustomPorts env s.mode s.proxyCluster) port = some s')
    (hp : s'.listenPort = s.listenPort) : PortStays env s port := by
  intro hm
  by_cases h0 : s.listenPort = 0
  · -- a port is assigned, and it is 0 only if 0 was drawn
    have hk : kept s headerAuths =
        { s with listenPort := 0, headerAuths,
                 portAutoAssigned := false, terminated := false } := by
      simp [kept, preserveListenPort, h0]
    rw [hk] at h
    simp only [ensureL4Port, hm, Nat.lt_irrefl, Bool.not_true, Bool.false_eq_true, if_false,
      false_and, and_false, if_true] at h
    obtain ⟨p, hq, rfl⟩ := Option.map_eq_some_iff.mp h
    obtain ⟨-, ⟨⟩⟩ := Option.ite_none_right_eq_some.mp hq
    exact .inr ⟨h0, hp.trans h0⟩
  · refine .inl ⟨Nat.pos_of_ne_zero h0, fun hb => ?_⟩
    by_contra hc
    have hk : (kept s headerAuths).mode = s.mode ∧
        (kept s headerAuths).listenPort = s.listenPort := by
      simp [kept, preserveListenPort, Nat.pos_of_ne_zero h0]
    rw [ensureL4Port, hk.1, hk.2, clusterCustomPorts, if_pos hm, if_neg (by simp [hm]),
      if_pos ⟨hb, Nat.pos_of_ne_zero h0, hc⟩] at h
    cases h

/-- **An update that keeps a service.**  Whatever services were created, an update of one of them
    that repeats it without its port succeeds and leaves its cluster, its port and where the port
    came from, exactly if it is of no layer 4 mode, or it has a port and is no tcp or udp service
    of a cluster without custom ports; or it was given the port 0 and is given it again. -/
theorem update_keeps_iff (env : Env T) (reqs : List (Request T × Nat))
    {db : List (Service T)} (hr : run (createService env) [] reqs = some db) {s : Service T}
    (hs : s ∈ db) {r : Request T} (hk : Keeps r s) (port : Nat) :
    (∃ db', updateService env db r port = some db' ∧ ∃ s' ∈ db', s'.id = s.id ∧
      s'.proxyCluster = s.proxyCluster ∧ s'.listenPort = s.listenPort ∧
      s'.portAutoAssigned = s.portAutoAssigned) ↔ PortStays env s port := by
  have hok : AllowedRun (createService env) (fun _ _ => True) [] reqs :=
    allowedRun_of_forall _ _ fun _ _ _ => trivial
  obtain ⟨hn, hall⟩ := run_invariant (fun _ _ _ h _ hs => sound_createService h hs) reqs [] db
    ⟨nodup_nil, nofun⟩ hok hr
  have hso := hall s hs
  have hf : db.find? (·.id = s.id) = some s := by
    cases he : db.find? (·.id = s.id) with
    | none => simpa using find?_eq_none.mp he s hs
    | some e =>
      have hid : e.id = s.id := by simpa using find?_some he
      rw [inj_on_of_nodup_map hn (mem_of_find?_eq_some he) hs hid]
  have hv := validate_preserved env hk hso.headers
  obtain ⟨headers, rfl⟩ := hk.eq
  simp only [updateService, hf, Option.bind_eq_bind, Option.bind_some, if_true,
    resolveEffectiveCluster]
  rw [if_pos ⟨by simp [hso.live], by simp [validateProtocolChange], .inl trivial,
    hso.subdomain, hv⟩]
  constructor
  · rintro ⟨db', h, s', hs', hid, -, hp, -⟩
    obtain ⟨x, hx, -, ⟨⟩⟩ := bind_ite_eq_some.mp h
    refine portStays_of_ensureL4Port hx ?_
    -- the service with this ID is the updated one
    have hxid : x.id = s.id := by
      obtain ⟨p, a, rfl, -⟩ := ensureL4Port_spec hx
      rw [preserveListenPort]
      split <;> rfl
    obtain ⟨y, hy, rfl⟩ := mem_map.mp hs'
    rw [hxid] at hid hp
    grind
  · intro hst
    have he := ensureL4Port_kept hso (preserveHeaderAuthHashes env headers s.headerAuths) port hst
    rw [kept] at he
    rw [he, Option.bind_some, if_pos ⟨hso.conflict, hso.targets⟩]
    exact ⟨_, rfl, _, mem_map.mpr ⟨s, hs, if_pos rfl⟩, rfl, rfl, rfl, rfl⟩

/-- Domains are their own clusters, with or without custom ports. -/
def cluster (customPorts : Option Bool) : Env Unit where
  deriveCluster d := some d
  requireSubdomain _ := none
  customPorts _ := customPorts
  validTarget _ := true
  canonicalHeaderKey h := h
  autoAssignPortMin := 10000
  autoAssignPortMax := 49151

/-- A request that names no port. -/
def request (mode : Mode) : Request Unit := ⟨"s", "a.c", mode, 0, [()], []⟩

/-- What is stored for the request: a service with an assigned port. -/
def assigned (mode : Mode) : Service Unit :=
  { request mode with listenPort := 10000, proxyCluster := "a.c", portAutoAssigned := true }

/-- A service of mode tls keeps its port. -/
theorem tls_keeps : ∃ db', updateService (cluster none) [assigned .tls] (request .tls) 10001 =
    some db' ∧ ∃ s' ∈ db', s'.listenPort = 10000 := by
  obtain ⟨db', h, s', hs, -, -, hp, -⟩ := (update_keeps_iff (cluster none) [(request .tls, 10000)]
    (show run (createService (cluster none)) [] _ = some [assigned .tls] from rfl)
    (mem_singleton_self _)
    (r := request .tls) ⟨rfl, rfl, rfl, rfl, rfl, nofun⟩ 10001).mpr
      fun _ => .inl ⟨by decide, nofun⟩
  exact ⟨db', h, s', hs, hp⟩

/-- A service of mode tcp got a port from its cluster; no update of it succeeds. -/
theorem tcp_refused :
    createService (cluster none) [] (request .tcp, 10000) = some [assigned .tcp] ∧
      ∀ port, updateService (cluster none) [assigned .tcp] (request .tcp) port = none :=
  ⟨rfl, fun _ => rfl⟩

end ServicePort

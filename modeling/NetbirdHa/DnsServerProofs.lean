import NetbirdHa.HandlerChainProofs
import NetbirdHa.LocalResolverProofs
import NetbirdHa.HmacSha256Proofs
import NetbirdHa.TableProofs

/-! # The DNS server and its configurations

A configuration from the management service becomes a list of handlers, each with a
domain and a priority: the local resolver for every custom zone, and an upstream
resolver for every domain and nameserver group.  `updateMux` takes the handlers of
the last configuration out of the chain and puts the new ones in.

This module is the server itself.  What the host does, and the order in which Go walks
over a map, is given to it.  The chain that a loop of registrations leaves is described
by its members (`mem_deregisterAll`, `mem_registerAll`). -/

namespace DnsServer

open DnsName HandlerChain List

/-! ## Configurations -/

/-- One upstream server. -/
structure NameServer where
  ip : Netip.Addr
  nsType : Nat
  port : Int
deriving DecidableEq

/-- The only type of server that is used. -/
def udpNameServerType : Nat := 1

/-- `netip.AddrPort`. -/
abbrev AddrPort := Netip.Addr × Nat

/-- A server's address, its port cut to sixteen bits. -/
def NameServer.addrPort (ns : NameServer) : AddrPort := (ns.ip, (ns.port % 65536).toNat)

/-- What the client reads of a nameserver group. -/
structure NameServerGroup where
  id : String
  nameServers : List NameServer
  primary : Bool
  domains : List Name
  searchDomainsEnabled : Bool
deriving DecidableEq

/-- A zone of the local resolver, and whether it is searched. -/
structure CustomZone extends LocalResolver.CustomZone where
  searchDomainDisabled : Bool

/-- `nbdns.Config`. -/
structure Config where
  serviceEnable : Bool
  nameServerGroups : List NameServerGroup
  customZones : List CustomZone

/-! ## Handlers -/

/-- An upstream resolver, with the group and the priority that its callbacks hold on to. -/
structure Upstream where
  domain : Name
  servers : List AddrPort
  group : NameServerGroup
  priority : Int
  above : priorityFallback < priority
deriving DecidableEq

/-- The handlers in the chain: those of `updateMux`, the resolver for the host's own
    servers, the one for the servers that the host had before, and those of others. -/
inductive Handler where
  | localResolver
  | upstream (u : Upstream)
  | hostRoot
  | fallback
  | other (name : String) (matchSubdomains : Option Bool)
deriving DecidableEq

/-- `MatchSubdomains`, where a handler has it. -/
def Handler.matcher : Handler → Option Bool
  | .other _ m => m
  | _ => some true

/-- The handler comes from a configuration. -/
def Handler.ofConfig : Handler → Bool
  | .localResolver => true
  | .upstream _ => true
  | _ => false

/-- A handler to be registered, as the build functions make it: it is one of a
    configuration, and its priority lies above the fallback and not above the local one. -/
structure Wrapper where
  domain : Name
  handler : Handler
  priority : Int
  fromConfig : handler.ofConfig
  above : priorityFallback < priority
  below : priority ≤ priorityLocal
deriving DecidableEq

/-- `String` of an `AddrPort`. -/
def addrPortText : AddrPort → String
  | (.zero, _) => "invalid AddrPort"
  | (.v4 a, port) => (Netip.Addr.v4 a).text ++ ":" ++ toString port
  | (.v6 a zone, port) => "[" ++ (Netip.Addr.v6 a zone).text ++ "]:" ++ toString port

/-- `Compare` of two `AddrPort`s is not greater. -/
def addrPortLe (a b : AddrPort) : Bool :=
  match a.1.compare b.1 with
  | .lt => true
  | .gt => false
  | .eq => decide (a.2 ≤ b.2)

/-- The bytes of a text. -/
def bytesOf (s : String) : List UInt8 := s.toUTF8.toList

/-- `ID` of an upstream resolver. -/
def upstreamID (domain : Name) (servers : List AddrPort) : String :=
  let servers := servers.insertionSort fun a b => addrPortLe a b
  let text := bytesOf (String.ofList domain ++ ":") ++
    servers.flatMap fun s => bytesOf (addrPortText s ++ "|")
  "upstream-" ++ HmacSha256.hexText ((HmacSha256.sha256 text).take 8)

/-- `ID`; only handlers of a configuration are asked. -/
def Handler.id : Handler → String
  | .localResolver => "local-resolver"
  | .upstream u => upstreamID u.domain u.servers
  | _ => ""

/-! ## Building the handlers -/

/-- `buildLocalHandlerUpdate`: zones without records are skipped. -/
def buildLocalHandlerUpdate (customZones : List CustomZone) : List Wrapper × List CustomZone :=
  let zones := customZones.filter (!·.records.isEmpty)
  (zones.map (fun zone =>
      ⟨zone.domain, .localResolver, priorityLocal, rfl, by decide, Int.le_refl _⟩),
    zones.map (fun zone =>
      { zone with records := zone.records.filter (·.cls = "IN".toList) }))

/-- The groups that serve one domain. -/
structure NsGroupsByDomain where
  domain : Name
  groups : List NameServerGroup
deriving DecidableEq

/-- `groupNSGroupsByDomain`, in some order. -/
def groupNSGroupsByDomain (nsGroups : List NameServerGroup) : List NsGroupsByDomain :=
  let add (m : AList (fun _ : Name => List NameServerGroup)) (domain : Name)
      (group : NameServerGroup) := m.insert domain ((m.lookup domain).getD [] ++ [group])
  let domainMap := nsGroups.foldl (fun m group =>
    if group.primary then add m root group
    else (group.domains.filter (fun d => d ≠ [])).foldl (fun m domain => add m domain group) m) ∅
  domainMap.entries.map fun e => ⟨e.1, e.2⟩

/-- The root's resolvers come last. -/
def basePriority (domain : Name) : Int :=
  if domain = root then priorityDefault else priorityUpstream

/-- `leaksPriority`: the next tier is reached. -/
def leaksPriority (base priority : Int) : Bool :=
  (decide (base = priorityUpstream) && decide (priority ≤ priorityDefault)) ||
    (decide (base = priorityDefault) && decide (priority ≤ priorityFallback))

variable {priority : Int} {u : Wrapper} {e f : HandlerEntry Handler}

/-- Without a leak every priority is above the fallback's. -/
theorem above_of_not_leaks
    (h : ¬ leaksPriority (basePriority domain) priority) : priorityFallback < priority := by
  grind [leaksPriority, basePriority, priorityFallback, priorityDefault]

/-- No group comes before the local resolver. -/
theorem basePriority_sub_le (domain : Name) (i : Nat) :
    basePriority domain - i ≤ priorityLocal := by
  rw [basePriority, priorityDefault, priorityUpstream, priorityLocal]
  split <;> omega

section

variable (runtimeIP : Netip.Addr) (group : NameServerGroup)

/-- The servers of a group that can be asked. -/
def upstreamServers : List AddrPort :=
  (group.nameServers.filter
    (fun ns => ns.nsType = udpNameServerType ∧ ns.ip ≠ runtimeIP)).map NameServer.addrPort

/-- The loop of `createHandlersForDomainGroup` from the `i`-th group on.  A group without
    servers is skipped, and counts. -/
def createHandlers (runtimeIP : Netip.Addr) (domain : Name) : Nat → List NameServerGroup →
    List Wrapper
  | _, [] => []
  | i, group :: rest =>
    let priority := basePriority domain - i
    if h : leaksPriority (basePriority domain) priority then []
    else
      match upstreamServers runtimeIP group with
      | [] => createHandlers runtimeIP domain (i + 1) rest
      | s :: servers =>
        ⟨domain, .upstream ⟨domain, s :: servers, group, priority, above_of_not_leaks h⟩,
          priority, rfl, above_of_not_leaks h, basePriority_sub_le domain i⟩ ::
            createHandlers runtimeIP domain (i + 1) rest

/-- `createHandlersForDomainGroup`. -/
def createHandlersForDomainGroup (g : NsGroupsByDomain) : List Wrapper :=
  createHandlers runtimeIP g.domain 0 g.groups

/-- A group that `buildUpstreamHandlerUpdate` refuses. -/
def invalidGroup : Bool :=
  !group.nameServers.isEmpty &&
    ((!group.primary && group.domains.isEmpty) || group.domains.any (fun d => d = []))

/-- `buildUpstreamHandlerUpdate`, for the groups in the order of the map. -/
def buildUpstreamHandlerUpdate (nameServerGroups : List NameServerGroup)
    (grouped : List NsGroupsByDomain) : Option (List Wrapper) :=
  if nameServerGroups.any invalidGroup then none
  else some (grouped.flatMap (createHandlersForDomainGroup runtimeIP))

end

/-! ## The server -/

/-- What the host is told of one domain. -/
structure DomainConfig where
  disabled : Bool
  domain : Name
  matchOnly : Bool
deriving DecidableEq

/-- What the host is told. -/
structure HostDNSConfig where
  domains : List DomainConfig := []
  routeAll : Bool := false

/-- `dnsConfigToHostDNSConfig`; the address of the server is left out. -/
def dnsConfigToHostDNSConfig (lib : Library) (config : Config) : HostDNSConfig :=
  let groups := config.nameServerGroups.filter (!·.nameServers.isEmpty)
  { routeAll := groups.any NameServerGroup.primary
    domains := groups.flatMap (fun g => g.domains.map (fun d =>
        ⟨false, lib.toLower (lib.fqdn d), !g.searchDomainsEnabled⟩)) ++
      config.customZones.map (fun z =>
        ⟨false, lib.toLower (lib.fqdn z.domain), z.searchDomainDisabled⟩) }

/-- The fields of `DefaultServer` that an update touches, and, for the statements, the
    handlers built from the configuration that was accepted last. -/
structure Server where
  chain : List (HandlerEntry Handler)
  dnsMuxMap : Table.GoMap Wrapper := ∅
  hosts : Bool := false
  closed : Bool := false
  updateSerial : Nat := 0
  previousConfigHash : Nat := 0
  currentConfig : HostDNSConfig := {}
  localZones : List CustomZone := []
  latest : List Wrapper := []

/-- What `registerFallback` does to the handler for the original servers. -/
inductive HostEffect where
  | keep
  | register
  | deregister
deriving DecidableEq

/-- What the host decides while an update is applied: whether disabling the service takes
    the fallback out, whether another port cannot be served, and what applying the host
    configuration does. -/
structure Surroundings where
  disables : Bool
  portUnsupported : Bool
  fallback : HostEffect

section

variable (lib : Library) (runtimeIP : Netip.Addr) (hash : Config → Nat)

section

variable (env : Surroundings) (s : Server) (config : Config) (updates : List Wrapper)
  (c : List (HandlerEntry Handler))

/-- `registerHandler`: one entry per nonempty domain. -/
def registerHandler (domains : List Name) (handler : Handler) (priority : Int) :
    List (HandlerEntry Handler) :=
  domains.foldl (fun c domain =>
    if domain = [] then c else addHandler lib Handler.matcher c domain handler priority) c

/-- `deregisterHandler`. -/
def deregisterHandler (domains : List Name) (priority : Int) : List (HandlerEntry Handler) :=
  domains.foldl (fun c domain => if domain = [] then c else removeHandler lib c domain priority) c

/-- `addHostRootZone`: the host's own servers answer for the root. -/
def addHostRootZone (hosts : Bool) (c : List (HandlerEntry Handler)) :
    List (HandlerEntry Handler) :=
  if hosts then registerHandler lib c [root] .hostRoot priorityDefault else c

/-- `registerFallback`, after the host configuration has been applied. -/
def registerFallback (effect : HostEffect) (c : List (HandlerEntry Handler)) :
    List (HandlerEntry Handler) :=
  match effect with
  | .keep => c
  | .register => registerHandler lib c [root] .fallback priorityFallback
  | .deregister => deregisterHandler lib c [root] priorityFallback

/-- The handlers of the last configuration go. -/
def deregisterAll (existing : List Wrapper) (c : List (HandlerEntry Handler)) :
    List (HandlerEntry Handler) :=
  existing.foldl (fun c w => deregisterHandler lib c [w.domain] w.priority) c

/-- Registers the handlers of an update in their order. -/
def registerAll : List (HandlerEntry Handler) :=
  updates.foldl (fun c u => registerHandler lib c [u.domain] u.handler u.priority) c

/-- What is remembered of the updates. -/
def remember : Table.GoMap Wrapper :=
  updates.foldl (fun m u => m.insert u.handler.id u) ∅

/-- The handlers of the last update. -/
def existingOf (m : Table.GoMap Wrapper) : List Wrapper := m.entries.map Sigma.snd

/-- A root handler goes and none comes. -/
def restoresHost (existing updates : List Wrapper) : Bool :=
  !updates.any (·.domain = root) && existing.any (·.domain = root)

/-- `updateMux`: the old handlers go before the new ones come. -/
def updateMux : Server :=
  let existing := existingOf s.dnsMuxMap
  let chain := registerAll lib updates (deregisterAll lib existing s.chain)
  { s with
    chain := if restoresHost existing updates then addHostRootZone lib s.hosts chain else chain
    dnsMuxMap := remember updates
    latest := updates }

/-- The handlers of a configuration. -/
def buildHandlers (grouped : List NsGroupsByDomain) : Option (List Wrapper) :=
  (buildUpstreamHandlerUpdate runtimeIP config.nameServerGroups grouped).map
    ((buildLocalHandlerUpdate config.customZones).1 ++ ·)

/-- `applyConfiguration`; none for an error, which comes before anything but the fallback is
    touched. -/
def applyConfiguration (grouped : List NsGroupsByDomain) : Option Server :=
  (buildHandlers runtimeIP config grouped).map (fun updates =>
    let s := updateMux lib s updates
    let current := dnsConfigToHostDNSConfig lib config
    { s with
      localZones := (buildLocalHandlerUpdate config.customZones).2
      currentConfig := if env.portUnsupported then { current with routeAll := false } else current
      chain := registerFallback lib env.fallback s.chain })

/-- `disableDNS`, where `deregisters` says whether original servers were registered. -/
def disableDNS (deregisters : Bool) (s : Server) : Server :=
  if deregisters then { s with chain := deregisterHandler lib s.chain [root] priorityFallback }
  else s

/-- `UpdateDNSServer`.  A configuration with the hash of the last one is accepted as it
    is, so it becomes the latest one and nothing is done. -/
def updateDNSServer (serial : Nat) (config : Config) (grouped : List NsGroupsByDomain) : Server :=
  if s.closed then s
  else if serial < s.updateSerial then s
  else if s.previousConfigHash = hash config then
    { s with
      updateSerial := serial
      latest := (buildHandlers runtimeIP config grouped).getD s.latest }
  else
    let s := disableDNS lib (!config.serviceEnable && env.disables) s
    match applyConfiguration lib runtimeIP env s config grouped with
    | none => s
    | some s => { s with updateSerial := serial, previousConfigHash := hash config }

/-- `OnUpdatedHostDNSServer`: nothing to do while a group serves the root. -/
def onUpdatedHostDNSServer (hosts : Bool) : Server :=
  if (existingOf s.dnsMuxMap).any (·.domain = root) then { s with hosts }
  else { s with hosts, chain := addHostRootZone lib hosts s.chain }

end

end

/-! ## What the loops leave in the chain -/

section

variable {lib : Library} {c : Chain Handler}

/-- The entry has the domain and the priority of the handler. -/
def Carries (lib : Library) (u : Wrapper) (e : HandlerEntry Handler) : Prop :=
  u.domain ≠ [] ∧ isEntry lib (lib.toLower (lib.fqdn u.domain)) u.priority e
deriving Decidable

/-- Deregistering the handler takes the entry out. -/
def Removes (lib : Library) (w : Wrapper) (e : HandlerEntry Handler) : Prop :=
  w.domain ≠ [] ∧ isEntry lib (lib.fqdn w.domain) w.priority e
deriving Decidable

/-- The entry that registering the handler makes. -/
def entryOf (lib : Library) (u : Wrapper) : HandlerEntry Handler :=
  newEntry lib Handler.matcher u.domain u.handler u.priority

/-- A handler sits where it is registered. -/
theorem isEntry_newEntry (pattern : Name) (handler : Handler) (priority : Int) :
    isEntry lib (lib.toLower (lib.fqdn pattern)) priority
      (newEntry lib Handler.matcher pattern handler priority) = true :=
  isEntry_iff.mpr ⟨lib.equalFold_refl _, rfl⟩

theorem carries_entryOf (hu : u.domain ≠ []) : Carries lib u (entryOf lib u) :=
  ⟨hu, isEntry_newEntry _ _ _⟩

/-- Entries with one pattern and priority are found by the same calls. -/
theorem isEntry_congr (he : isEntry lib p i e) (hf : isEntry lib p i f) :
    isEntry lib q j e ↔ isEntry lib q j f := by
  rw [isEntry_iff] at he hf ⊢
  rw [isEntry_iff]
  have hef : lib.equalFold e.origPattern f.origPattern :=
    lib.equalFold_trans he.1 (lib.equalFold_symm hf.1)
  rw [he.2, hf.2]
  refine and_congr_left fun _ => ⟨fun h => ?_, fun h => lib.equalFold_trans hef h⟩
  exact lib.equalFold_trans (lib.equalFold_symm hef) h

/-- Entries of one update are alike to every other. -/
theorem carries_congr (he : Carries lib u e) (hf : Carries lib u f) :
    Carries lib v e ↔ Carries lib v f :=
  and_congr_right fun _ => isEntry_congr he.2 hf.2

/-- And are removed together. -/
theorem removes_congr (he : Carries lib u e) (hf : Carries lib u f) :
    Removes lib w e ↔ Removes lib w f :=
  and_congr_right fun _ => isEntry_congr he.2 hf.2

section

variable (hc : WellFormed lib c)

include hc

/-- Registering keeps the chain well formed. -/
theorem wellFormed_registerHandler (domains : List Name) (handler : Handler) (priority : Int) :
    WellFormed lib (registerHandler lib c domains handler priority) := by
  refine Table.foldl_invariant domains c (fun c d _ hc => ?_) hc
  split
  · exact hc
  · exact hc.addHandler _ _ _

/-- Deregistering keeps the chain well formed. -/
theorem wellFormed_deregisterHandler (domains : List Name)
    (priority : Int) : WellFormed lib (deregisterHandler lib c domains priority) := by
  refine Table.foldl_invariant domains c (fun c d _ hc => ?_) hc
  split
  · exact hc
  · exact hc.removeEntry _ _

/-- What deregistering leaves. -/
theorem mem_deregisterHandler : e ∈ deregisterHandler lib c domains priority ↔
    e ∈ c ∧ ∀ d ∈ domains, d ≠ [] → ¬ isEntry lib (lib.fqdn d) priority e := by
  induction domains generalizing c with
  | nil => simp [deregisterHandler]
  | cons d domains ih =>
    have hs : deregisterHandler lib c (d :: domains) priority =
        deregisterHandler lib (deregisterHandler lib c [d] priority) domains priority := rfl
    grind [deregisterHandler, removeHandler, mem_removeEntry, wellFormed_deregisterHandler]

/-- What registering for one domain leaves. -/
theorem mem_registerHandler_single : e ∈ registerHandler lib c [d] handler priority ↔
    d ≠ [] ∧ e = newEntry lib Handler.matcher d handler priority ∨
      e ∈ c ∧ (d ≠ [] → ¬ isEntry lib (lib.toLower (lib.fqdn d)) priority e) := by
  grind [registerHandler, mem_addHandler]

theorem wellFormed_deregisterAll (ws : List Wrapper) : WellFormed lib (deregisterAll lib ws c) :=
  Table.foldl_invariant ws c (fun _ w _ hc => wellFormed_deregisterHandler hc [w.domain] w.priority)
    hc

/-- What deregistering several handlers leaves. -/
theorem mem_deregisterAll : e ∈ deregisterAll lib ws c ↔ e ∈ c ∧ ∀ w ∈ ws, ¬ Removes lib w e := by
  induction ws generalizing c with
  | nil => simp [deregisterAll]
  | cons w ws ih =>
    have ho : e ∈ deregisterHandler lib c [w.domain] w.priority ↔ e ∈ c ∧ ¬ Removes lib w e := by
      rw [mem_deregisterHandler hc, forall_mem_singleton, Removes, not_and]
    grind [deregisterAll, wellFormed_deregisterHandler]

end

/-! ### Loops that register

Whether the handlers differ or one handler gets several domains, an entry that the loop
makes stays unless a later turn makes one with the same domain and priority. -/

section

variable {α : Type} (domain : α → Name) (handler : α → Handler) (priority : α → Int)

/-- Registers one handler for each element of a list. -/
def registerEach (lib : Library) (l : List α) (c : List (HandlerEntry Handler)) :
    List (HandlerEntry Handler) :=
  l.foldl (fun c a => registerHandler lib c [domain a] (handler a) (priority a)) c

/-- The entry of one turn, and what it takes the place of. -/
def entryAt (lib : Library) (a : α) : HandlerEntry Handler :=
  newEntry lib Handler.matcher (domain a) (handler a) (priority a)

/-- Registering `a` replaces the entry. -/
def Takes (lib : Library) (a : α) (e : HandlerEntry Handler) : Prop :=
  domain a ≠ [] ∧ isEntry lib (lib.toLower (lib.fqdn (domain a))) (priority a) e

variable {domain handler priority}

variable (hc : WellFormed lib c)

include hc

/-- Registering each of a list keeps the chain well formed. -/
theorem wellFormed_registerEach (l : List α) :
    WellFormed lib (registerEach domain handler priority lib l c) :=
  Table.foldl_invariant l c
    (fun _ a _ hc => wellFormed_registerHandler hc [domain a] (handler a) (priority a)) hc

/-- One registration adds its entry over the one it takes. -/
theorem mem_registerOne : e ∈ registerHandler lib c [domain a] (handler a) (priority a) ↔
    domain a ≠ [] ∧ e = entryAt domain handler priority lib a ∨
      e ∈ c ∧ ¬ Takes domain priority lib a e := by
  rw [mem_registerHandler_single hc, Takes, not_and]
  rfl

/-- What was there and no turn takes the place of stays, and nothing else of it. -/
theorem mem_registerEach : (e ∈ registerEach domain handler priority lib l c →
      (∃ a ∈ l, domain a ≠ [] ∧ e = entryAt domain handler priority lib a) ∨
        e ∈ c ∧ ∀ a ∈ l, ¬ Takes domain priority lib a e) ∧
    (e ∈ c → (∀ a ∈ l, ¬ Takes domain priority lib a e) →
      e ∈ registerEach domain handler priority lib l c) := by
  induction l generalizing c with
  | nil => exact ⟨fun he => .inr ⟨he, fun a ha => absurd ha not_mem_nil⟩, fun he _ => he⟩
  | cons a l ih =>
    have hc' := wellFormed_registerHandler hc [domain a] (handler a) (priority a)
    refine ⟨fun he => ?_, fun he hn => ?_⟩
    · grind [mem_registerOne, registerEach]
    · obtain ⟨ha, hn⟩ := forall_mem_cons.mp hn
      exact (ih hc').2 ((mem_registerOne hc).mpr (.inr ⟨he, ha⟩)) hn

/-- Every domain and priority is there, from the last turn that has them. -/
theorem exists_mem_registerEach {l : List α} {a : α} (ha : a ∈ l) (hn : domain a ≠ []) :
    ∃ b ∈ l, domain b ≠ [] ∧ Takes domain priority lib a (entryAt domain handler priority lib b) ∧
      entryAt domain handler priority lib b ∈ registerEach domain handler priority lib l c := by
  induction l generalizing c a with
  | nil => cases ha
  | cons x l ih =>
    have hc' := wellFormed_registerHandler hc [domain x] (handler x) (priority x)
    rcases mem_cons.mp ha with rfl | ha
    · have hs : Takes domain priority lib a (entryAt domain handler priority lib a) :=
        ⟨hn, isEntry_newEntry _ _ _⟩
      by_cases hl : ∃ b ∈ l, Takes domain priority lib b (entryAt domain handler priority lib a)
      · grind [isEntry_congr, Takes, registerEach]
      · refine ⟨a, mem_cons_self, hn, hs, (mem_registerEach hc').2 ?_ ?_⟩
        · exact (mem_registerOne hc).mpr (.inl ⟨hn, rfl⟩)
        · exact fun b hb hta => hl ⟨b, hb, hta⟩
    · obtain ⟨y, hy, hyn, hta, hm⟩ := ih hc' ha hn
      exact ⟨y, mem_cons_of_mem x hy, hyn, hta, hm⟩

end

section

variable (hc : WellFormed lib c)

include hc

theorem wellFormed_registerAll (us : List Wrapper) : WellFormed lib (registerAll lib us c) :=
  wellFormed_registerEach hc us

/-- What was there and has another domain or priority than all new handlers stays, and
    nothing else of it. -/
theorem mem_registerAll :
    (e ∈ registerAll lib us c → (∃ u ∈ us, u.domain ≠ [] ∧ e = entryOf lib u) ∨
      e ∈ c ∧ ∀ u ∈ us, ¬ Carries lib u e) ∧
    (e ∈ c → (∀ u ∈ us, ¬ Carries lib u e) → e ∈ registerAll lib us c) :=
  mem_registerEach hc

/-! ### The root -/

/-- The fallback keeps the chain well formed. -/
theorem wellFormed_registerFallback (effect : HostEffect) :
    WellFormed lib (registerFallback lib effect c) := by
  cases effect with
  | keep => exact hc
  | register => exact wellFormed_registerHandler hc _ _ _
  | deregister => exact wellFormed_deregisterHandler hc _ _

/-- The host's root zone keeps the chain well formed. -/
theorem wellFormed_addHostRootZone (hosts : Bool) :
    WellFormed lib (addHostRootZone lib hosts c) := by
  rw [addHostRootZone]
  split
  · exact wellFormed_registerHandler hc _ _ _
  · exact hc

end

/-- Only the root itself is taken for the root. -/
theorem eq_root_of_isEntry (hd : d ≠ [])
    (h : lib.equalFold (lib.toLower (lib.fqdn d)) root) : d = root := by
  have hl := lib.length_of_equalFold h
  rw [Library.toLower, length_map, root] at hl
  rcases lib.fqdn_spec d with ⟨hf, hdo⟩ | hf
  · rw [hf] at hl
    exact (hdo.eq_of_length hl.symm).symm
  · rw [hf, length_append, length_singleton] at hl
    exact absurd (length_eq_zero_iff.mp (by omega)) hd

theorem pattern_root : lib.toLower (lib.fqdn root) = root := by
  rw [root, lib.fqdn_root, Library.toLower_dot, Library.toLower_nil]

end

end DnsServer

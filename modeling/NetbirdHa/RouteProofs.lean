import NetbirdHa.GroupPeersProofs
import NetbirdHa.FirewallRuleProofs

/-! # Routes, route firewall rules and network resources

What the account and the components compute from routes and network
resources.  Again both run the same loops over different tables, so the
loops take the lookups as parameters: `getGroup`, `getPeer`, `valid` (the
peer may be a source under these posture checks), `unique` (the walk over
groups). -/

namespace Routes

open Table AccountModel FirewallRules GroupPeers List

/-! ## Routes -/

/-- Keep the first element of every key. -/
def firstByKey {α : Type} (key : α → String) : List String → List α → List α
  | _, [] => []
  | seen, x :: xs =>
    if key x ∈ seen then firstByKey key seen xs else x :: firstByKey key (key x :: seen) xs

variable {α : Type} {env : Env} {res : NetworkResource} {p : Peer} {router : NetworkRouter}
  {r : Route}

/-- Leaving out repeated keys adds nothing. -/
theorem mem_of_mem_firstByKey :
    ∀ {l : List α} {seen : List String}, x ∈ firstByKey key seen l → x ∈ l := by
  intro l
  induction l with
  | nil => intro seen h; exact h
  | cons y l ih => grind [firstByKey]

/-- Nothing is left out where the key tells the elements apart. -/
theorem mem_firstByKey
    (hi : ∀ x ∈ l, ∀ y ∈ l, key x = key y → x = y) {x : α} : x ∈ firstByKey key [] l ↔ x ∈ l := by
  have hk : ∀ (l : List α) (seen : List String),
      (∀ x ∈ l, ∀ y ∈ l, key x = key y → x = y) → x ∈ l → key x ∉ seen →
        x ∈ firstByKey key seen l := by
    intro l
    induction l with
    | nil => intro seen _ h; cases h
    | cons y l ih => grind [firstByKey]
  exact ⟨mem_of_mem_firstByKey, fun hx => hk l [] hi hx not_mem_nil⟩

section

variable (env : Env) (r : Route) (getGroup : String → Option Group) (routes : List Route)

/-- `IsDynamic`: a route by domain. -/
def isDynamic : Bool := r.networkType = .domain

/-- `NetString`: the domains of a dynamic route, the network of any other. -/
def netString : String :=
  match r.domains with
  | some ds => if isDynamic r then env.domainSafeString ds else r.network.text
  | none => r.network.text

/-- `GetHAUniqueID`: routes of one network with one name back each other up. -/
def getHAUniqueID : String := r.netID ++ "|" ++ netString env r

/-- `GetResourceID`: the part of the ID before the first colon. -/
def getResourceID : String := String.ofList (r.id.toList.takeWhile (· ≠ ':'))

/-- The routes that one route of the table gives a routing peer: one for each peer group that holds
    it, under an ID of its own, and the route itself if it names the peer. -/
def routeCandidates (peerID : String) (r : Route) : List Route :=
  r.peerGroups.filterMap (fun gid =>
    match getGroup gid with
    | none => none
    | some g =>
      if peerID ∈ g.peers then
        some { r with peer := peerID, peerGroups := [], id := r.id ++ ":" ++ peerID }
      else none)
  ++ if r.peer = peerID then [r] else []

/-- `getRoutingPeerRoutes` for the peer with key `key`: its enabled routes, with
    the key as routing peer, and its disabled ones. -/
def routingPeerRoutes (stampDisabled : Bool) (peerID key : String) : List Route × List Route :=
  let taken := firstByKey Route.id [] (routes.flatMap (routeCandidates getGroup peerID))
  ((taken.filter (·.enabled)).map (fun r => { r with peer := key }),
   (taken.filter (!·.enabled)).map (fun r => if stampDisabled then { r with peer := key } else r))

/-- `filterRoutesByGroups`: the routes distributed to one of the groups. -/
def filterRoutesByGroups (groups : List String) : List Route :=
  routes.filter fun r => r.groups.any (· ∈ groups)

/-- `filterRoutesFromPeersOfSameHAGroup`: a router does not use its own backups. -/
def filterRoutesFromPeersOfSameHAGroup (memberships : List String) : List Route :=
  routes.filter (getHAUniqueID env · ∉ memberships)

/-- `GetRoutesToSync`: the peer's own routes, and those of the peers it connects
    to that are distributed to its groups and that it does not serve itself. -/
def routesToSync (routesOf : String → List Route × List Route) (peerID : String)
    (aclPeers : List Peer) (peerGroups : List String) : List Route :=
  let own := routesOf peerID
  let memberships := (own.1 ++ own.2).map (getHAUniqueID env)
  own.1 ++ aclPeers.flatMap (fun p => filterRoutesFromPeersOfSameHAGroup env
      (filterRoutesByGroups (routesOf p.id).1 peerGroups) memberships)

end

/-! ## Route firewall rules -/

/-- `RouteFirewallRule`. -/
structure RouteFirewallRule where
  policyID : String := ""
  routeID : String
  sourceRanges : List String
  action : String
  destination : String
  protocol : String
  port : UInt16 := 0
  portRange : PortRange := {}
  domains : Option (List String)
  isDynamic : Bool
deriving DecidableEq

section

variable (r : Route) (base : RouteFirewallRule) (rule : PolicyRule) (peers : List Peer)

/-- `getDefaultPermit`: without access control groups all traffic is accepted. -/
def getDefaultPermit : List RouteFirewallRule :=
  let rule : RouteFirewallRule :=
    { routeID := r.id
      sourceRanges := if r.network.is6 then ["::/0"] else ["0.0.0.0/0"]
      action := TrafficAction.accept.text
      destination := r.network.text
      protocol := Protocol.all.text
      domains := r.domains
      isDynamic := isDynamic r }
  if isDynamic r then [rule, { rule with sourceRanges := ["::/0"] }] else [rule]

/-- `strconv.ParseUint(port, 10, 16)`. -/
def parsePort (port : String) : Option UInt16 :=
  let ds := port.toList
  let n := ds.foldl (fun n c => n * 10 + (c.toNat - '0'.toNat)) 0
  if ds ≠ [] ∧ ds.all Char.isDigit ∧ n < 65536 then some (UInt16.ofNat n) else none

/-- The rule of a route for a policy rule and its peers, before ports. -/
def routeBaseRule : RouteFirewallRule where
  policyID := rule.policyID
  routeID := r.id
  sourceRanges := peers.map (·.ip ++ "/32")
  action := rule.action.text
  destination := r.network.text
  protocol := rule.protocol.text
  domains := r.domains
  isDynamic := isDynamic r

/-- `generateRuleIDBase`: what tells two rules apart, the ports left out. -/
def generateRuleIDBase (base : RouteFirewallRule) : String :=
  rule.id ++ ",".intercalate base.sourceRanges ++ Direction.IN.text ++ base.protocol ++ base.action

/-- `generateRulesWithPortRanges`: one rule per range, the repeated ones left out. -/
def generateRulesWithPortRanges : List RouteFirewallRule :=
  if rule.portRanges = [] then [base]
  else
    (firstByKey (fun pr => generateRuleIDBase rule base ++ toString pr.start.toNat ++ "-"
        ++ toString pr.stop.toNat) [] rule.portRanges).map
      (fun pr => { base with portRange := pr })

/-- `generateRulesWithPorts`: a port that does not parse is skipped. -/
def generateRulesWithPorts : List RouteFirewallRule :=
  (firstByKey (generateRuleIDBase rule base ++ ·) [] rule.ports).filterMap
    (fun port => (parsePort port).map (fun p => { base with port := p }))

/-- `generateRouteFirewallRules`. -/
def generateRouteFirewallRules : List RouteFirewallRule :=
  if rule.ports = [] then generateRulesWithPortRanges (routeBaseRule r rule peers) rule
  else generateRulesWithPorts (routeBaseRule r rule peers) rule

/-- What the ports of a policy rule make of one route rule: a port and a port range for each. -/
def portVariants : List (UInt16 × PortRange) :=
  if rule.ports = [] then
    if rule.portRanges = [] then [(0, {})]
    else (firstByKey (fun pr => toString pr.start.toNat ++ "-" ++ toString pr.stop.toNat) []
      rule.portRanges).map (fun pr => (0, pr))
  else (firstByKey id [] rule.ports).filterMap fun port => (parsePort port).map (fun p => (p, {}))

/-- The route rule with a port and a port range. -/
def RouteFirewallRule.withPorts (v : UInt16 × PortRange) : RouteFirewallRule :=
  { base with port := v.1, portRange := v.2 }

end

/-- What comes first by a key comes first by the key with a text in front. -/
theorem firstByKey_append (s : String) (f : α → String) : ∀ (l : List α) (seen : List String),
    firstByKey (s ++ f ·) (seen.map (s ++ ·)) l = firstByKey f seen l := by
  intro l
  induction l with
  | nil => intro seen; rfl
  | cons x l ih =>
    intro seen
    have hm : s ++ f x ∈ seen.map (s ++ ·) ↔ f x ∈ seen := by
      rw [mem_map]
      constructor
      · rintro ⟨y, hy, h⟩
        rw [← (String.append_right_inj s).mp h]
        exact hy
      · exact fun h => ⟨f x, h, rfl⟩
    rw [firstByKey, firstByKey]
    simp only [hm]
    split
    · exact ih seen
    · rw [← ih (f x :: seen), map_cons]

/-- The rules of a policy rule for one route: the base rule in all its port variants. -/
theorem generateRouteFirewallRules_eq (r : Route) (rule : PolicyRule) (peers : List Peer) :
    generateRouteFirewallRules r rule peers =
      (portVariants rule).map (routeBaseRule r rule peers).withPorts := by
  rw [generateRouteFirewallRules, portVariants]
  split
  · rw [generateRulesWithPortRanges]
    split
    · rfl
    have := firstByKey_append (generateRuleIDBase rule (routeBaseRule r rule peers))
      (fun pr : PortRange => toString pr.start.toNat ++ "-" ++ toString pr.stop.toNat)
      rule.portRanges []
    simp only [map_nil, ← String.append_assoc] at this
    rw [this, map_map]
    rfl
  · have :=
      firstByKey_append (generateRuleIDBase rule (routeBaseRule r rule peers)) id rule.ports []
    rw [generateRulesWithPorts]
    simp only [map_nil, id_eq] at this
    rw [map_filterMap]
    congr 1
    funext port
    cases parsePort port <;> rfl

/-- The same rule with its sources in some order: they come out of a Go map. -/
def RouteFirewallRule.Equiv (x y : RouteFirewallRule) : Prop :=
  y = { x with sourceRanges := y.sourceRanges } ∧ x.sourceRanges.Perm y.sourceRanges

/-- Both lists have the same rules, up to the order of sources. -/
structure SameRules (l l' : List RouteFirewallRule) : Prop where
  left : ∀ x ∈ l, ∃ y ∈ l', x.Equiv y
  right : ∀ y ∈ l', ∃ x ∈ l, x.Equiv y

section

variable {l l' m m' : List RouteFirewallRule}

theorem SameRules.refl (l : List RouteFirewallRule) : SameRules l l where
  left := fun x hx => ⟨x, hx, rfl, List.Perm.refl _⟩
  right := fun x hx => ⟨x, hx, rfl, List.Perm.refl _⟩

/-- Same rules, part by part. -/
theorem SameRules.append (h : SameRules l l') (h' : SameRules m m') :
    SameRules (l ++ m) (l' ++ m') where
  left := by
    intro x hx
    rcases mem_append.mp hx with hx | hx
    · obtain ⟨y, hy, he⟩ := h.left x hx
      exact ⟨y, mem_append_left _ hy, he⟩
    · obtain ⟨y, hy, he⟩ := h'.left x hx
      exact ⟨y, mem_append_right _ hy, he⟩
  right := by
    intro y hy
    rcases mem_append.mp hy with hy | hy
    · obtain ⟨x, hx, he⟩ := h.right y hy
      exact ⟨x, mem_append_left _ hx, he⟩
    · obtain ⟨x, hx, he⟩ := h'.right y hy
      exact ⟨x, mem_append_right _ hx, he⟩

/-- The order of the parts does not matter. -/
theorem SameRules.append_swap (h : SameRules l l') (h' : SameRules m m') :
    SameRules (l ++ m) (m' ++ l') where
  left := by
    intro x hx
    obtain ⟨y, hy, he⟩ := (h.append h').left x hx
    exact ⟨y, mem_append.mpr (mem_append.mp hy).symm, he⟩
  right := by
    intro y hy
    exact (h.append h').right y (mem_append.mpr (mem_append.mp hy).symm)

/-- Element by element, over lists that have the same elements. -/
theorem SameRules.flatMap (hset : SameSet xs ys) (h : ∀ x ∈ xs, SameRules (f x) (g x)) :
    SameRules (xs.flatMap f) (ys.flatMap g) where
  left := by
    intro x hx
    obtain ⟨e, he, hx⟩ := mem_flatMap.mp hx
    obtain ⟨y, hy, hxy⟩ := (h e he).left x hx
    exact ⟨y, mem_flatMap.mpr ⟨e, (hset e).mp he, hy⟩, hxy⟩
  right := by
    intro y hy
    obtain ⟨e, he, hy⟩ := mem_flatMap.mp hy
    have he' := (hset e).mpr he
    obtain ⟨x, hx, hxy⟩ := (h e he').right y hy
    exact ⟨x, mem_flatMap.mpr ⟨e, he', hx⟩, hxy⟩

/-- Leaving out the rules without a source. -/
theorem SameRules.withSources (h : SameRules l l') :
    SameRules (l.filter (·.sourceRanges ≠ [])) (l'.filter (·.sourceRanges ≠ [])) where
  left := by
    intro x hx
    obtain ⟨hx, hn⟩ := mem_filter.mp hx
    obtain ⟨y, hy, he⟩ := h.left x hx
    refine ⟨y, mem_filter.mpr ⟨hy, ?_⟩, he⟩
    simpa [← length_eq_zero_iff, he.2.length_eq] using hn
  right := by
    intro y hy
    obtain ⟨hy, hn⟩ := mem_filter.mp hy
    obtain ⟨x, hx, he⟩ := h.right y hy
    refine ⟨x, mem_filter.mpr ⟨hx, ?_⟩, he⟩
    simpa [← length_eq_zero_iff, he.2.length_eq] using hn

/-- The same peers in another order give the same rules. -/
theorem sameRules_generate (r : Route) (rule : PolicyRule) (h : peers.Perm peers') :
    SameRules (generateRouteFirewallRules r rule peers)
      (generateRouteFirewallRules r rule peers') := by
  have he : ∀ v, ((routeBaseRule r rule peers).withPorts v).Equiv
      ((routeBaseRule r rule peers').withPorts v) :=
    fun v => ⟨rfl, h.map _⟩
  rw [generateRouteFirewallRules_eq, generateRouteFirewallRules_eq]
  constructor
  all_goals grind

end

section

variable (getGroup : String → Option Group)

/-- The members of the listed groups (`getDistributionGroupsPeers`). -/
def groupMembers (groups : List String) : List String :=
  groups.flatMap fun gid => ((getGroup gid).map Group.peers).getD []

/-- The sources of a rule that are distribution peers and valid: first the
    members of its groups, the routing peer apart, then its source resource. -/
def rulePeerIDs (valid : List String → String → Bool) (rule : PolicyRule) (checks : List String)
    (peerID : String) (dist : List String) : List String :=
  ((groupMembers getGroup rule.sources).filter (fun p => p ≠ peerID && p ∈ dist && valid checks p)
    ++ if rule.sourceResource.IsPeer then
        [rule.sourceResource.id].filter fun p => p ∈ dist && valid checks p
      else []).dedup

/-- `getRulePeers`: the sources of a rule that pass the policy's checks. -/
def getRulePeers (getPeer : String → Option Peer) (valid : List String → String → Bool)
    (rule : PolicyRule) (checks : List String) (peerID : String) (dist : List String) : List Peer :=
  (rulePeerIDs getGroup valid rule checks peerID dist).filterMap getPeer

/-- The rule has `q` as a source of a route: as a member of its groups, which the
    routing peer is not, or as the peer it names. -/
def IsSource (t : String) (rule : PolicyRule) (q : String) : Prop :=
  (q ≠ t ∧ InGroups getGroup rule.sources q) ∨
    (rule.sourceResource.IsPeer ∧ q = rule.sourceResource.id)

end

section

variable {getGroup : String → Option Group} {valid : List String → String → Bool}
  {rule : PolicyRule} {checks dist groups : List String} {t q : String}

/-- The members of the groups. -/
theorem mem_groupMembers : q ∈ groupMembers getGroup groups ↔ InGroups getGroup groups q := by
  rw [groupMembers, mem_flatMap]
  refine exists_congr fun gid => and_congr_right fun _ => ?_
  cases getGroup gid <;> simp

instance InGroups.decidable (getGroup : String → Option Group) (groups : List String)
    (q : String) : Decidable (InGroups getGroup groups q) :=
  decidable_of_iff _ mem_groupMembers

/-- The peers a route's rule lets in. -/
theorem mem_rulePeerIDs : q ∈ rulePeerIDs getGroup valid rule checks t dist ↔
    IsSource getGroup t rule q ∧ q ∈ dist ∧ valid checks q := by
  rw [rulePeerIDs, mem_dedup, mem_append, mem_filter, mem_groupMembers,
    mem_ite_nil_right, mem_filter, mem_singleton, IsSource]
  simp only [Bool.and_eq_true, decide_eq_true_eq]
  tauto

/-- Two computations with the same sources have the same peers, in some order. -/
theorem perm_getRulePeers (hi : ∀ q p, getPeer q = some p → p.id = q)
    (hi' : ∀ q p, getPeer' q = some p → p.id = q)
    (h : ∀ q p, (q ∈ rulePeerIDs getGroup valid rule checks t dist ∧ getPeer q = some p) ↔
      (q ∈ rulePeerIDs getGroup' valid' rule checks t dist' ∧ getPeer' q = some p)) :
    (getRulePeers getGroup getPeer valid rule checks t dist).Perm
      (getRulePeers getGroup' getPeer' valid' rule checks t dist') := by
  have hn : ∀ {getPeer : String → Option Peer} {l : List String},
      (∀ q p, getPeer q = some p → p.id = q) → l.Nodup → (l.filterMap getPeer).Nodup :=
    fun hi hl => List.Nodup.filterMap (fun q q' p hq hq' => (hi q p hq).symm.trans (hi q' p hq')) hl
  refine (perm_ext_iff_of_nodup (hn hi (nodup_dedup _)) (hn hi' (nodup_dedup _))).mpr fun p => ?_
  rw [mem_filterMap, mem_filterMap]
  exact exists_congr fun q => h q p

end

section

variable (getGroup : String → Option Group) (getPeer : String → Option Peer)
  (valid : List String → String → Bool)

/-- `getRouteFirewallRules`: all enabled rules of the enabled policies. -/
def getRouteFirewallRules (peerID : String) (policies : List Policy) (r : Route)
    (dist : List String) : List RouteFirewallRule :=
  (policies.filter (·.enabled)).flatMap (fun pol =>
    (pol.rules.filter (·.enabled)).flatMap (fun rule => generateRouteFirewallRules r rule
        (getRulePeers getGroup getPeer valid rule pol.sourcePostureChecks peerID dist)))

/-- `GetPeerRoutesFirewallRules` over the enabled routes of the routing peer;
    `policiesFor` finds the policies of an access control group. -/
def peerRoutesFirewallRules (policiesFor : String → List Policy) (peerID : String)
    (enabledRoutes : List Route) : List RouteFirewallRule :=
  enabledRoutes.flatMap (fun r =>
    if r.accessControlGroups = [] then getDefaultPermit r
    else r.accessControlGroups.flatMap (fun gid =>
      getRouteFirewallRules getGroup getPeer valid peerID (policiesFor gid) r
        (groupMembers getGroup r.groups)))

end

/-! ## Network resources -/

section

variable (env : Env) (res : NetworkResource) (peer : Peer) (router : NetworkRouter)

/-- The route to a resource through a router, before the network is filled in. -/
def resourceBaseRoute : Route where
  id := res.id ++ ":" ++ peer.id
  keepRoute := true
  netID := res.name
  description := res.description
  peer := peer.key
  peerID := peer.id
  masquerade := router.masquerade
  metric := router.metric
  enabled := res.enabled

/-- The placeholder network of a domain route. -/
def domainPlaceholder : NetPrefix := { text := "192.0.2.0/32" }

/-- `NetworkResource.ToRoute`; a domain that does not parse gives nil. -/
def toRoute : Option Route :=
  let r := resourceBaseRoute res peer router
  match res.type with
  | .host | .subnet =>
    some { r with
      network := res.netPrefix
      networkType := if res.netPrefix.is6 then .ipv6 else .ipv4 }
  | .domain =>
    (env.domainFromStringList [res.domain]).map (fun ds =>
      { r with domains := some ds, networkType := .domain, network := domainPlaceholder })

/-- `networkResourceToRoute`; a domain that does not parse leaves the route without a network. -/
def networkResourceToRoute : Route :=
  (toRoute env res peer router).getD (resourceBaseRoute res peer router)

end

/-- A resource has a route unless its domain cannot be read. -/
theorem toRoute_isSome (p : Peer) (router : NetworkRouter)
    (h : res.type = .domain → (env.domainFromStringList [res.domain]).isSome) :
    ∃ r, toRoute env res p router = some r := by
  rw [toRoute]
  cases ht : res.type with
  | host | subnet => exact ⟨_, rfl⟩
  | domain =>
    obtain ⟨ds, hd⟩ := Option.isSome_iff_exists.mp (h ht)
    exact ⟨_, by simp only [hd, Option.map_some]; rfl⟩

/-- The route belongs to its router. -/
theorem toRoute_peerID (h : toRoute env res p router = some r) : r.peerID = p.id := by
  rw [toRoute] at h
  cases ht : res.type with
  | host | subnet => simp only [ht] at h; cases h; rfl
  | domain =>
    simp only [ht] at h
    obtain ⟨ds, -, rfl⟩ := Option.map_eq_some_iff.mp h
    rfl

/-- The route is named after the resource and its router. -/
theorem toRoute_id (h : toRoute env res p router = some r) :
    r.id = res.id ++ ":" ++ p.id ∧ r.peer = p.key := by
  rw [toRoute] at h
  cases ht : res.type with
  | host | subnet => simp only [ht] at h; cases h; exact ⟨rfl, rfl⟩
  | domain =>
    simp only [ht] at h
    obtain ⟨ds, -, rfl⟩ := Option.map_eq_some_iff.mp h
    exact ⟨rfl, rfl⟩

/-- The resource of a route, if the ID of the resource has no colon. -/
theorem getResourceID_of_id (h : r.id = rid ++ ":" ++ pid)
    (hc : ':' ∉ rid.toList) : getResourceID r = rid := by
  have hta : (rid.toList ++ ':' :: pid.toList).takeWhile (· ≠ ':') = rid.toList := by
    rw [takeWhile_append_of_pos]
    · simp
    · intro x hx
      have hn : x ≠ ':' := fun h => hc (h ▸ hx)
      simpa using hn
  rw [getResourceID, h]
  simp only [String.toList_append]
  have hco : ":".toList = [':'] := rfl
  rw [hco, append_assoc, singleton_append, hta, String.ofList_toList]

theorem networkResourceToRoute_peerID :
    (networkResourceToRoute env res p router).peerID = p.id := by
  rw [networkResourceToRoute]
  cases h : toRoute env res p router with
  | none => rfl
  | some r => exact toRoute_peerID h

/-- `SourceGroups`: the groups of the only rule as they stand, or those of all
    rules without repetition. -/
def sourceGroups (pol : Policy) : List String :=
  match pol.rules with
  | [rule] => rule.sources
  | rules => (rules.flatMap PolicyRule.sources).dedup

/-- A policy's source groups come from its rules. -/
theorem exists_source (h : gid ∈ sourceGroups pol) : ∃ rule ∈ pol.rules, gid ∈ rule.sources := by
  rw [sourceGroups] at h
  split at h
  · next rule hr => exact ⟨rule, hr ▸ mem_singleton_self rule, h⟩
  · exact mem_flatMap.mp (mem_dedup.mp h)

/-- `policy.Rules[0]`, which panics if there is none.  A policy is listed for a resource because a
    rule of it has the resource, so the default is never taken. -/
def firstRule (pol : Policy) : PolicyRule := pol.rules.headD { id := "" }

/-- The source peers of a policy of a resource: the peer that its first rule
    names, or the peers of its source groups. -/
def policySourcePeers (unique : List String → List String) (pol : Policy) : List String :=
  if (firstRule pol).sourceResource.IsPeer then [(firstRule pol).sourceResource.id]
  else unique (sourceGroups pol)

/-- What the network resources give a peer. -/
structure ResourceSync (ρ : Type) where
  isRouter : Bool := false
  routes : List ρ := []
  sourcePeers : List String := []

section

variable {ρ : Type} (routers : Routers)
  (policiesOf : String → List Policy) (unique : List String → List String)
  (valid : List String → String → Bool) (mk : NetworkResource → String → NetworkRouter → List ρ)
  (peerID : String)

/-- One enabled resource: a router of its network gets its own route and the
    sources of the policies, a source gets the routes of all routers. -/
def syncResource (res : NetworkResource) : ResourceSync ρ :=
  let routing := routers.lookup res.networkID
  match routing.bind (·.lookup peerID) with
  | some router =>
    { isRouter := true
      routes := mk res peerID router
      sourcePeers := (policiesOf res.id).flatMap (fun pol =>
        (policySourcePeers unique pol).filter (valid pol.sourcePostureChecks)) }
  | none =>
    if (policiesOf res.id).any (fun pol =>
        peerID ∈ policySourcePeers unique pol && valid pol.sourcePostureChecks peerID) then
      { routes := ((routing.map AList.entries).getD []).flatMap (fun e => mk res e.1 e.2) }
    else {}

/-- `GetNetworkResourcesRoutesToSync`. -/
def networkResourcesRoutesToSync (resources : List NetworkResource) : ResourceSync ρ :=
  let parts := (resources.filter (·.enabled)).map
    (syncResource routers policiesOf unique valid mk peerID)
  { isRouter := parts.any (·.isRouter)
    routes := parts.flatMap (·.routes)
    sourcePeers := (parts.flatMap (·.sourcePeers)).dedup }

/-- The routing peers of the network of a resource. -/
def routingPeers (res : NetworkResource) : GoMap NetworkRouter :=
  (routers.lookup res.networkID).getD ∅

/-- The peer is a client of the resource: it is no router of it, and some policy
    has it as a valid source. -/
def IsClient (res : NetworkResource) : Prop :=
  (routingPeers routers res).lookup peerID = none ∧
    ∃ pol ∈ policiesOf res.id,
      peerID ∈ policySourcePeers unique pol ∧ valid pol.sourcePostureChecks peerID
deriving Decidable

variable {routers policiesOf unique valid mk peerID}

theorem bind_lookup_routers (res : NetworkResource) :
    ((routers.lookup res.networkID).bind fun m => m.lookup peerID) =
      (routingPeers routers res).lookup peerID := by
  rw [routingPeers]
  cases routers.lookup res.networkID <;> rfl

theorem entries_routers (res : NetworkResource) :
    ((routers.lookup res.networkID).map AList.entries).getD [] =
      (routingPeers routers res).entries := by
  rw [routingPeers]
  cases routers.lookup res.networkID <;> rfl

/-- A router gets its own route and lets the sources in. -/
theorem syncResource_router (h : (routingPeers routers res).lookup peerID = some router) :
    syncResource routers policiesOf unique valid mk peerID res =
      { isRouter := true
        routes := mk res peerID router
        sourcePeers := (policiesOf res.id).flatMap (fun pol =>
          (policySourcePeers unique pol).filter (valid pol.sourcePostureChecks)) } := by
  simp only [syncResource, bind_lookup_routers, h]

/-- A client gets the routes of all routers. -/
theorem syncResource_client (h : IsClient routers policiesOf unique valid peerID res) :
    syncResource routers policiesOf unique valid mk peerID res =
      { routes := (routingPeers routers res).entries.flatMap (fun e => mk res e.1 e.2) } := by
  obtain ⟨hn, pol, hp, hq, hv⟩ := h
  have ha : (policiesOf res.id).any (fun pol =>
      peerID ∈ policySourcePeers unique pol && valid pol.sourcePostureChecks peerID) = true :=
    any_eq_true.mpr ⟨pol, hp, by simp [hq, hv]⟩
  simp only [syncResource, bind_lookup_routers, entries_routers, hn, ha, if_true]

/-- Anyone else gets nothing. -/
theorem syncResource_neither (hn : (routingPeers routers res).lookup peerID = none)
    (h : ¬ IsClient routers policiesOf unique valid peerID res) :
    syncResource routers policiesOf unique valid mk peerID res = {} := by
  have ha : ¬ (policiesOf res.id).any (fun pol =>
      peerID ∈ policySourcePeers unique pol && valid pol.sourcePostureChecks peerID) = true := by
    intro ha
    obtain ⟨pol, hp, hv⟩ := any_eq_true.mp ha
    rw [Bool.and_eq_true, decide_eq_true_eq] at hv
    exact h ⟨hn, pol, hp, hv.1, hv.2⟩
  simp only [syncResource, bind_lookup_routers, hn, ha]
  rfl

variable {resources : List NetworkResource}

/-- The peer routes some resource. -/
theorem sync_isRouter :
    (networkResourcesRoutesToSync routers policiesOf unique valid mk peerID resources).isRouter =
        true ↔
      ∃ res ∈ resources, res.enabled ∧ ((routingPeers routers res).lookup peerID).isSome := by
  simp only [networkResourcesRoutesToSync, any_map, any_eq_true, Function.comp,
    mem_filter, and_assoc]
  refine exists_congr fun res => and_congr_right fun _ => and_congr_right fun _ => ?_
  cases h : (routingPeers routers res).lookup peerID with
  | some router => simp [syncResource_router h]
  | none =>
    by_cases hc : IsClient routers policiesOf unique valid peerID res
    · simp [syncResource_client hc]
    · simp [syncResource_neither h hc]

/-- The routes to the resources: a router has its own, a client those of all routers. -/
theorem mem_sync_routes {r : ρ} :
    r ∈ (networkResourcesRoutesToSync routers policiesOf unique valid mk peerID resources).routes ↔
      ∃ res ∈ resources, res.enabled ∧
        ((∃ router, (routingPeers routers res).lookup peerID = some router ∧
            r ∈ mk res peerID router) ∨ (IsClient routers policiesOf unique valid peerID res ∧
            ∃ q router, (routingPeers routers res).lookup q = some router ∧
              r ∈ mk res q router)) := by
  simp only [networkResourcesRoutesToSync, flatMap_map, mem_flatMap, mem_filter, and_assoc]
  refine exists_congr fun res => and_congr_right fun _ => and_congr_right fun _ => ?_
  cases h : (routingPeers routers res).lookup peerID with
  | some router =>
    have hc : ¬ IsClient routers policiesOf unique valid peerID res :=
      fun hc => nomatch h.symm.trans hc.1
    simp [syncResource_router h, hc]
  | none =>
    by_cases hc : IsClient routers policiesOf unique valid peerID res
    · simp [syncResource_client hc, hc, ← AList.mem_lookup_iff]
    · simp [syncResource_neither h hc, hc]

/-- The source peers: the valid sources of the policies of the resources that the peer routes. -/
theorem mem_sync_sourcePeers :
    q ∈ (networkResourcesRoutesToSync routers policiesOf unique valid mk peerID
        resources).sourcePeers ↔ ∃ res ∈ resources, res.enabled ∧
        ((routingPeers routers res).lookup peerID).isSome ∧ ∃ pol ∈ policiesOf res.id,
            q ∈ policySourcePeers unique pol ∧ valid pol.sourcePostureChecks q := by
  simp only [networkResourcesRoutesToSync, mem_dedup, flatMap_map, mem_flatMap, mem_filter,
    and_assoc]
  refine exists_congr fun res => and_congr_right fun _ => and_congr_right fun _ => ?_
  cases h : (routingPeers routers res).lookup peerID with
  | some router => simp [syncResource_router h]
  | none =>
    by_cases hc : IsClient routers policiesOf unique valid peerID res
    · simp [syncResource_client hc]
    · simp [syncResource_neither h hc]

end

/-- `addNetworksRoutingPeers`: routing peers of the resources and, for a router,
    source peers of the policies, unless they are there. -/
def addNetworksRoutingPeers (getPeer : String → Option Peer) (routePeers : List String)
    (peerID : String) (peersToConnect expiredPeers : List Peer) (isRouter : Bool)
    (sourcePeers : List String) : List Peer :=
  let known := peerID :: (peersToConnect ++ expiredPeers).map Peer.id
  let missing := (((if isRouter then sourcePeers else []) ++ routePeers).filter (· ∉ known)).dedup
  peersToConnect ++ missing.filterMap getPeer

/-- The peers to connect to, with routers or sources added. -/
theorem mem_addNetworksRoutingPeers :
    p ∈ addNetworksRoutingPeers getPeer routePeers peerID peersToConnect expiredPeers isRouter
        sourcePeers ↔ p ∈ peersToConnect ∨ ∃ q, ((isRouter ∧ q ∈ sourcePeers) ∨ q ∈ routePeers) ∧
        q ≠ peerID ∧ (∀ x ∈ peersToConnect ++ expiredPeers, x.id ≠ q) ∧ getPeer q = some p := by
  simp only [addNetworksRoutingPeers, mem_append, mem_filterMap, mem_dedup,
    mem_filter, mem_ite_nil_right, mem_cons, mem_map, decide_eq_true_eq,
    not_or, not_exists, not_and, ne_eq, and_assoc]

/-- `getPoliciesSourcePeers`: the sources of all rules. -/
def getPoliciesSourcePeers (getGroup : String → Option Group) (policies : List Policy) :
    List String :=
  policies.flatMap (fun pol => pol.rules.flatMap (fun rule => groupMembers getGroup rule.sources
      ++ if rule.sourceResource.IsPeer then [rule.sourceResource.id] else []))

/-- `GetPeerNetworkResourceFirewallRules`: the rules of the routes that the peer
    serves, those without a source left out. -/
def networkResourceFirewallRules (getGroup : String → Option Group)
    (getPeer : String → Option Peer) (valid : List String → String → Bool)
    (policiesOf : String → List Policy) (peer : Peer) (routes : List Route) :
    List RouteFirewallRule :=
  (routes.filter (·.peer = peer.key)).flatMap (fun r =>
    let policies := policiesOf (getResourceID r)
    (getRouteFirewallRules getGroup getPeer valid peer.id policies r
      (getPoliciesSourcePeers getGroup policies)).filter (·.sourceRanges ≠ []))

/-! ## Policies and routers of a resource -/

section

variable (a : Account) (resourceID : String)

/-- `getNetworkResourceGroups`: the groups that list the resource. -/
def getNetworkResourceGroups : List Group :=
  a.groups.entries.filter fun g => g.resources.any (·.id = resourceID)

/-- The rule leads to the resource through one of its groups. -/
def reachesByGroup (rule : PolicyRule) : Bool :=
  (getNetworkResourceGroups a resourceID).any (·.id ∈ rule.destinations)

/-- How often a policy is listed for a resource: a rule that names the resource
    ends the walk, one that reaches it through a group does not. -/
def timesListed (a : Account) (resourceID : String) : List PolicyRule → Nat
  | [] => 0
  | rule :: rules =>
    if !rule.enabled then timesListed a resourceID rules
    else if rule.destinationResource.id = resourceID then 1
    else if reachesByGroup a resourceID rule then timesListed a resourceID rules + 1
    else timesListed a resourceID rules

/-- `GetPoliciesForNetworkResource`: every enabled policy, as often as it is listed. -/
def getPoliciesForNetworkResource : List Policy :=
  (a.policies.filter (·.enabled)).flatMap (fun pol =>
    List.replicate (timesListed a resourceID pol.rules) pol)

/-- `GetResourcePoliciesMap`. -/
def getResourcePoliciesMap : GoMap (List Policy) :=
  insertAll (getPoliciesForNetworkResource a)
    ((a.networkResources.filter (·.enabled)).map NetworkResource.id) ∅

end

/-- The map depends only on policies, resources and what rules reach. -/
theorem getResourcePoliciesMap_congr (hp : a'.policies = a.policies)
    (hre : a'.networkResources = a.networkResources) (hr : reachesByGroup a' = reachesByGroup a) :
    getResourcePoliciesMap a' = getResourcePoliciesMap a := by
  have hti : ∀ rid rules, timesListed a' rid rules = timesListed a rid rules := by
    intro rid rules
    induction rules with
    | nil => rfl
    | cons rule rules ih => rw [timesListed, timesListed, ih, hr]
  have hf : getPoliciesForNetworkResource a' = getPoliciesForNetworkResource a := by
    funext rid
    simp only [getPoliciesForNetworkResource, hp, hti]
  rw [getResourcePoliciesMap, getResourcePoliciesMap, hf, hre]

/-- The policies of a resource are enabled ones of the account. -/
theorem policy_of_resource
    (h : pol ∈ ((getResourcePoliciesMap a).lookup rid).getD []) :
      pol ∈ a.policies ∧ pol.enabled := by
  rw [getResourcePoliciesMap, lookup_insertAll] at h
  split at h
  · obtain ⟨pol', hp', h⟩ := mem_flatMap.mp h
    rw [(mem_replicate.mp h).2]
    exact mem_filter.mp hp'
  · cases h

/-- The peers a router entry stands for. -/
def routerPeerIDs (a : Account) (router : NetworkRouter) : List String :=
  if router.peer ≠ "" then [router.peer] else groupMembers a.getGroup router.peerGroups

/-- One enabled router entry; the peers of a later entry replace those of an earlier one. -/
def addRouter (a : Account) (m : GoMap (GoMap NetworkRouter)) (router : NetworkRouter) :
    GoMap (GoMap NetworkRouter) :=
  m.insert router.networkID
    (insertAll (fun _ => router) (routerPeerIDs a router) ((m.lookup router.networkID).getD ∅))

/-- `GetResourceRoutersMap`. -/
def getResourceRoutersMap (a : Account) : GoMap (GoMap NetworkRouter) :=
  (a.networkRouters.filter (·.enabled)).foldl (addRouter a) ∅

end Routes

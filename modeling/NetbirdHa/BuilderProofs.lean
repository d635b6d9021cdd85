import NetbirdHa.LegacyMapProofs
import NetbirdHa.IndexProofs

/-! # The network map builder

`NetworkMapBuilder` computes the maps of all peers of an account ahead of
time.  It builds indexes over the account, then for every peer a view of
what the peer is connected to; views hold the IDs of rules and routes, the
rules and routes themselves are kept once for all peers.  A map is assembled
from the views when it is asked for.

The DNS views are not part of this model; they are built for the same peers
as the others. -/

namespace Builder

open Table Index AccountModel FirewallRules Connection Routes LegacyMap

/-! ## The cache -/

/-- What a peer may connect to: peers and rules by their names. -/
structure PeerACLView where
  connectedPeerIDs : List String
  firewallRuleIDs : List String

/-- The routes of a peer, by where they come from. -/
structure PeerRoutesView where
  ownRouteIDs : List String
  networkResourceIDs : List String
  inheritedRouteIDs : List String
  routeFirewallRuleIDs : List String

/-- Whether a peer runs an SSH server, and who may log in. -/
structure PeerSSHView where
  enableSSH : Bool
  authorizedUsers : GoMap (List String)

/-- A route with the peer that serves it. -/
structure RouteOwnerInfo where
  peerID : String
  routeID : String
deriving DecidableEq

/-- `NetworkMapCache`: the indexes and the views. -/
structure NetworkMapCache where
  globalRoutes : GoMap Route := ∅
  globalRules : GoMap FirewallRule := ∅
  globalRouteRules : GoMap RouteFirewallRule := ∅
  globalPeers : GoMap Peer
  groupToPeers : GoMap (List String)
  peerToGroups : GoMap (List String)
  policyToRules : GoMap (List PolicyRule)
  groupToPolicies : GoMap (List Policy)
  groupToRoutes : GoMap (List Route)
  peerToRoutes : GoMap (List Route)
  peerACLs : GoMap PeerACLView := ∅
  peerRoutes : GoMap PeerRoutesView := ∅
  peerSSH : GoMap PeerSSHView := ∅
  groupIDToUserIDs : GoMap (List String)
  allowedUserIDs : List String
  resourceRouters : GoMap (GoMap NetworkRouter)
  resourcePolicies : GoMap (List Policy)
  globalResources : GoMap NetworkResource
  acgToRoutes : GoMap (GoMap RouteOwnerInfo) := ∅
  noACGRoutes : GoMap RouteOwnerInfo := ∅

/-- `NetworkMapBuilder`, with the account its cache was built from. -/
structure NetworkMapBuilder where
  account : Account
  cache : NetworkMapCache
  validatedPeers : Validated

/-! ## Indexes -/

/-- The peers that a rule names, each a group of its own to the indexes. -/
def namedPeers (rule : PolicyRule) : List String :=
  (if rule.sourceResource.IsPeer then [rule.sourceResource.id] else []) ++
    if rule.destinationResource.IsPeer then [rule.destinationResource.id] else []

/-- The groups that the enabled rules of a policy mention. -/
def affectedGroups (pol : Policy) : List String :=
  ((pol.rules.filter (·.enabled)).flatMap (fun rule =>
    rule.sources ++ rule.destinations ++ namedPeers rule)).dedup

section

variable (a : Account)

/-- What `peerToGroups` is built from: memberships, and the peers that rules name. -/
def peerGroupPairs : List (String × String) :=
  a.groups.entries.flatMap (fun g => g.peers.map (fun q => (q, g.id))) ++
    (activeRules a.policies).flatMap fun pr => (namedPeers pr.2).map (fun q => (q, q))

/-- What `groupToPolicies` is built from. -/
def groupPolicyPairs : List (String × Policy) :=
  (a.policies.filter (·.enabled)).flatMap (fun pol =>
    (affectedGroups pol).map (fun gid => (gid, pol)))

/-- What `groupToRoutes` is built from. -/
def groupRoutePairs : List (String × Route) :=
  (a.routes.entries.filter (·.enabled)).flatMap fun r => r.peerGroups.map (fun gid => (gid, r))

/-- What `peerToRoutes` is built from. -/
def peerRoutePairs : List (String × Route) :=
  (a.routes.entries.filter (·.enabled)).flatMap (fun r =>
    if r.peer ≠ "" then ((a.getPeer r.peer).map (fun p => (p.id, r))).toList else [])

/-- `buildGlobalIndexes`, with the router and policy maps of `initialBuild`. -/
def buildGlobalIndexes (groupIDToUserIDs : GoMap (List String)) : NetworkMapCache where
  globalPeers := setAll Peer.id id a.peers.entries ∅
  groupToPeers := setAll Group.id Group.peers a.groups.entries ∅
  peerToGroups := groupBy (peerGroupPairs a)
  policyToRules := setAll Policy.id Policy.rules (a.policies.filter (·.enabled)) ∅
  groupToPolicies := groupBy (groupPolicyPairs a)
  groupToRoutes := groupBy (groupRoutePairs a)
  peerToRoutes := groupBy (peerRoutePairs a)
  groupIDToUserIDs := groupIDToUserIDs
  allowedUserIDs := a.getAllowedUserIDs
  resourceRouters := getResourceRoutersMap a
  resourcePolicies := getResourcePoliciesMap a
  globalResources := setAll NetworkResource.id id (a.networkResources.filter (·.enabled)) ∅

/-- The indexes of an account. -/
@[inherit_doc buildGlobalIndexes]
abbrev idx (g : GoMap (List String)) : NetworkMapCache := buildGlobalIndexes a g

end

/-! ## IDs of rules -/

/-- `generateFirewallRuleID`: the rule's fields, one after the other. -/
def generateFirewallRuleID (r : FirewallRule) : String :=
  "fw:" ++ r.policyID ++ ":" ++ r.peerIP ++ ":" ++ r.direction.text ++ ":" ++ r.protocol ++ ":"
    ++ r.action ++ ":" ++ r.port ++ ":" ++ toString r.portRange.start.toNat ++ "-"
    ++ toString r.portRange.stop.toNat

/-- `generateRouteFirewallRuleID`; policy, port range and domains are not part of it. -/
def generateRouteFirewallRuleID (r : RouteFirewallRule) : String :=
  "route-fw:" ++ r.routeID ++ ":" ++ r.destination ++ ":" ++ r.action ++ ":"
    ++ ",".intercalate r.sourceRanges ++ ":" ++ r.protocol ++ ":" ++ toString r.port.toNat

/-! ## What a peer is connected to -/

section

variable (env : Env) (c : NetworkMapCache) (a : Account) (validated : Validated)

/-- `isPeerInGroupscached`. -/
def isPeerInGroupscached (groups peerGroups : List String) : Bool :=
  groups.any (· ∈ peerGroups)

/-- `getPeersFromGroupscached`: the validated members that pass the checks, the peer itself left
    out. -/
def getPeersFromGroupscached (groups : List String) (excludePeerID : String)
    (checks : List String) : List Peer :=
  ((groups.flatMap (listAt c.groupToPeers)).filter (fun q => q ≠ excludePeerID && q ∈ validated &&
      (checks = [] || a.validatePostureChecksOnPeer checks q))).dedup.filterMap c.globalPeers.lookup

section

variable (peer : Peer) (res : NetworkResource) (peerID : String) (pol : Policy)

/-- One side of a rule.  A peer that the rule names is listed even if it is the target. -/
def side (res : Resource) (groups checks : List String) : List Peer × Bool :=
  if res.IsPeer then ((a.getPeer res.id).toList, res.id = peerID)
  else (getPeersFromGroupscached c a validated groups peerID checks,
    isPeerInGroupscached groups (listAt c.peerToGroups peerID))

/-- Both sides of a rule. -/
def sides (rule : PolicyRule) : Sides :=
  let src := side c a validated peerID rule.sourceResource rule.sources pol.sourcePostureChecks
  let dst := side c a validated peerID rule.destinationResource rule.destinations []
  { sourcePeers := src.1
    peerInSources := src.2
    destinationPeers := dst.1
    peerInDestinations := dst.2 }

/-- The rules that the loops over the groups of the peer come to: all rules of the
    policies whose posture checks the peer passes, disabled ones included. -/
def visitedRules : List (Policy × PolicyRule) :=
  (listAt c.peerToGroups peerID).flatMap (fun gid =>
    ((listAt c.groupToPolicies gid).filter (fun pol =>
        a.validatePostureChecksOnPeer pol.sourcePostureChecks peerID)).flatMap (fun pol =>
      (listAt c.policyToRules pol.id).map (fun rule => (pol, rule))))

/-- `getPeerConnectionResources`, over the policies that the indexes list for the peer. -/
def getPeerConnectionResources : Conn :=
  (visitedRules c a peer.id).foldl
    (connectRule env peer c.groupIDToUserIDs.lookup c.allowedUserIDs (sides c a validated peer.id))
    {}

/-- `createNetworkResourceRoutes`: a resource without a policy has no route. -/
def createNetworkResourceRoutes (routerPeerID : String) (router : NetworkRouter)
    (policies : List Policy) : Option Route :=
  if policies = [] then none
  else (c.globalPeers.lookup routerPeerID).bind (toRoute env res · router)

/-- The sources of a policy of a resource that the peer routes.  A policy that
    names its source gives the routing peer itself. -/
def policySources : List String :=
  if (firstRule pol).sourceResource.IsPeer then [peer.id]
  else (getPeersFromGroupscached c a validated (sourceGroups pol) ""
    pol.sourcePostureChecks).map Peer.id

/-- A policy of a resource lets the peer in; whom it names does not matter. -/
def letsIn : Bool :=
  isPeerInGroupscached (sourceGroups pol) (listAt c.peerToGroups peer.id) &&
    a.validatePostureChecksOnPeer pol.sourcePostureChecks peer.id

/-- One resource of `getNetworkResourcesForPeer`. -/
def resourceForPeer : ResourceSync Route :=
  let routing := c.resourceRouters.lookup res.networkID
  let policies := listAt c.resourcePolicies res.id
  if policies = [] then {}
  else
    match (routing.bind (·.lookup peer.id)).filter (·.enabled) with
    | some router =>
      { isRouter := true
        routes := (createNetworkResourceRoutes env c res peer.id router policies).toList
        sourcePeers := policies.flatMap (policySources c a validated peer) }
    | none =>
      if policies.any (letsIn c a peer) then
        { routes := (((routing.map AList.entries).getD []).filter (·.2.enabled)).flatMap
            (fun e => (createNetworkResourceRoutes env c res e.1 e.2 policies).toList) }
      else {}

/-- `getNetworkResourcesForPeer`. -/
def getNetworkResourcesForPeer : ResourceSync Route :=
  let parts := c.globalResources.entries.map fun e => resourceForPeer env c a validated peer e.2
  { isRouter := parts.any (·.isRouter)
    routes := parts.flatMap (·.routes)
    sourcePeers := (parts.flatMap (·.sourcePeers)).dedup }

/-- The peers of the ACL view: those that rules connect to, and what resources add. -/
def connectedPeers : List Peer :=
  let sync := getNetworkResourcesForPeer env c a validated peer
  addNetworksRoutingPeers c.globalPeers.lookup (sync.routes.map Route.peerID) peer.id
    (getPeerConnectionResources env c a validated peer).gen.peers [] sync.isRouter sync.sourcePeers

/-- `buildPeerACLView`. -/
def buildPeerACLView : NetworkMapCache :=
  match a.getPeer peerID with
  | none => c
  | some peer =>
    let conn := getPeerConnectionResources env c a validated peer
    { c with
      peerACLs := c.peerACLs.insert peerID
        { connectedPeerIDs := (connectedPeers env c a validated peer).map Peer.id
          firewallRuleIDs := conn.gen.rules.map generateFirewallRuleID }
      globalRules := intern generateFirewallRuleID conn.gen.rules c.globalRules
      peerSSH := c.peerSSH.insert peerID
        { enableSSH := conn.sshEnabled, authorizedUsers := conn.authorizedUsers } }

end

/-! ## What a peer routes -/

section

variable (gid : String) (peerID : String)

/-- The routes of a routing peer before copies of one route are left out. -/
def routeCandidatesOf : List Route :=
  (listAt c.peerToGroups peerID).flatMap (fun gid => (listAt c.groupToRoutes gid).map (fun r =>
      { r with peer := peerID, peerGroups := [], id := r.id ++ ":" ++ peerID }))
    ++ listAt c.peerToRoutes peerID

/-- `getRoutingPeerRoutes`. -/
def getRoutingPeerRoutes : List Route × List Route :=
  match c.globalPeers.lookup peerID with
  | none => ([], [])
  | some p =>
    let taken := firstByKey Route.id [] (routeCandidatesOf c peerID)
    ((taken.filter (·.enabled)).map (fun r => { r with peer := p.key }), taken.filter (!·.enabled))

/-- A group as the cache has it. -/
def cachedGroup : Option Group :=
  (c.groupToPeers.lookup gid).map fun peers => { id := gid, peers := peers }

/-- `getAllRoutePoliciesFromGroups` for one access control group. -/
def getAllRoutePoliciesFromGroups : List Policy :=
  firstByKey Policy.id [] ((listAt c.groupToPolicies gid).filter (fun pol =>
    (listAt c.policyToRules pol.id).any (gid ∈ ·.destinations)))

/-- `getPeerRoutesFirewallRules`. -/
def getPeerRoutesFirewallRules : List RouteFirewallRule :=
  peerRoutesFirewallRules (cachedGroup c) c.globalPeers.lookup (validSource a validated)
    (getAllRoutePoliciesFromGroups c) peerID (getRoutingPeerRoutes c peerID).1

/-- The routes of the connected peers that are distributed to the peer and that
    it does not serve itself. -/
def inheritedRoutes (connected : List String) : List Route :=
  let own := getRoutingPeerRoutes c peerID
  let memberships := (own.1 ++ own.2).map (getHAUniqueID env)
  (connected.filter (· ≠ peerID)).flatMap (fun q => filterRoutesFromPeersOfSameHAGroup env
      (filterRoutesByGroups (getRoutingPeerRoutes c q).1 (listAt c.peerToGroups peerID))
        memberships)

/-- The own routes of the view. -/
def ownRoutes : List Route :=
  (getRoutingPeerRoutes c peerID).1.filter (fun r =>
    r.peerID = "" || r.peerID = peerID || r.peerID ∈ c.globalPeers)

end

/-- The route firewall rules of the view: for the routes of the peer, then for the
    resources it routes. -/
def routeRules (peer : Peer) : List RouteFirewallRule :=
  let routes := (getNetworkResourcesForPeer env c a validated peer).routes
  getPeerRoutesFirewallRules c a validated peer.id ++
    if routes = [] then []
    else networkResourceFirewallRules a.getGroup a.getPeer (validSource a validated)
      (listAt c.resourcePolicies) peer routes

end

/-- Forget the routes that a peer owns. -/
def forgetOwner (peerID : String) (m : GoMap RouteOwnerInfo) : GoMap RouteOwnerInfo :=
  m.entries.foldl (fun m e => if e.2.peerID = peerID then m.erase e.1 else m) m

/-- The owner leaves the routes of all access control groups; a group without routes goes. -/
def forgetOwnerOfGroups (peerID : String) (acgs : GoMap (GoMap RouteOwnerInfo)) :
    GoMap (GoMap RouteOwnerInfo) :=
  acgs.entries.foldl (fun acgs e =>
    let left := forgetOwner peerID e.2
    if left.entries = [] then acgs.erase e.1 else acgs.insert e.1 left) acgs

/-- The enabled routes of a view are recorded anew, with the peer as their owner. -/
def updateACGIndexForPeer (c : NetworkMapCache) (peerID : String) (routes : List Route) :
    NetworkMapCache :=
  let c := { c with
    acgToRoutes := forgetOwnerOfGroups peerID c.acgToRoutes
    noACGRoutes := forgetOwner peerID c.noACGRoutes }
  (routes.filter (·.enabled)).foldl (fun c r =>
    let info : RouteOwnerInfo := { peerID := peerID, routeID := r.id }
    if r.accessControlGroups = [] then
      { c with noACGRoutes := c.noACGRoutes.insert r.id info }
    else
      { c with acgToRoutes := r.accessControlGroups.foldl (fun acgs gid =>
          acgs.insert gid (((acgs.lookup gid).getD ∅).insert r.id info)) c.acgToRoutes }) c

/-- `buildPeerRoutesView`. -/
def buildPeerRoutesView (env : Env) (c : NetworkMapCache) (a : Account) (validated : Validated)
    (peerID : String) : NetworkMapCache :=
  match a.getPeer peerID with
  | none => c
  | some peer =>
    let own := ownRoutes c peerID
    let inherited := match c.peerACLs.lookup peerID with
      | none => []
      | some view => inheritedRoutes env c peerID view.connectedPeerIDs
    let resources := (getNetworkResourcesForPeer env c a validated peer).routes
    let rules := routeRules env c a validated peer
    let c' := updateACGIndexForPeer c peerID ((getRoutingPeerRoutes c peerID).1 ++ resources)
    { c' with
      globalRoutes := intern Route.id (own ++ inherited ++ resources) c.globalRoutes
      globalRouteRules := intern generateRouteFirewallRuleID rules c.globalRouteRules
      peerRoutes := c.peerRoutes.insert peerID
        { ownRouteIDs := own.map Route.id
          networkResourceIDs := resources.map Route.id
          inheritedRouteIDs := inherited.map Route.id
          routeFirewallRuleIDs := rules.map generateRouteFirewallRuleID } }

/-! ## Building and reading -/

section

variable (env : Env) (b : NetworkMapBuilder) (a : Account) (validated : Validated)
  (groupIDToUserIDs : GoMap (List String))

/-- The views of one peer. -/
def buildPeerViews (c : NetworkMapCache) (peerID : String) : NetworkMapCache :=
  buildPeerRoutesView env (buildPeerACLView env c a validated peerID) a validated peerID

/-- `initialBuild`: the indexes, then each peer's views. -/
def initialBuild : NetworkMapCache :=
  (a.peers.entries.map Peer.id).foldl (buildPeerViews env a validated)
    (buildGlobalIndexes a groupIDToUserIDs)

/-- `NewNetworkMapBuilder`. -/
def newNetworkMapBuilder : NetworkMapBuilder where
  account := a
  cache := initialBuild env a validated groupIDToUserIDs
  validatedPeers := validated

/-- `assembleNetworkMap`: the views' names, looked up in the cache. -/
def assembleNetworkMap (c : NetworkMapCache) (a : Account) (validated : Validated)
    (aclView : PeerACLView) (routesView : PeerRoutesView) (sshView : Option PeerSSHView) :
    NetworkMap :=
  let connected := (aclView.connectedPeerIDs.filter (· ∈ validated)).filterMap c.globalPeers.lookup
  { network := a.network
    peers := connected.filter (!a.settings.peerExpired env ·)
    offlinePeers := connected.filter (a.settings.peerExpired env ·)
    routes := (routesView.ownRouteIDs ++ routesView.networkResourceIDs ++
      routesView.inheritedRouteIDs).filterMap c.globalRoutes.lookup
    firewallRules := aclView.firewallRuleIDs.filterMap c.globalRules.lookup
    routesFirewallRules := routesView.routeFirewallRuleIDs.filterMap c.globalRouteRules.lookup
    authorizedUsers := (sshView.map PeerSSHView.authorizedUsers).getD ∅
    enableSSH := (sshView.map PeerSSHView.enableSSH).getD false }

/-- `GetPeerNetworkMap` of the builder. -/
def getPeerNetworkMap (peerID : String) (validated : Validated) : NetworkMap :=
  match b.account.getPeer peerID, b.cache.peerACLs.lookup peerID,
      b.cache.peerRoutes.lookup peerID with
  | some _, some aclView, some routesView =>
    assembleNetworkMap env b.cache b.account validated aclView routesView
      (b.cache.peerSSH.lookup peerID)
  | _, _, _ => { network := b.account.network }

end

end Builder

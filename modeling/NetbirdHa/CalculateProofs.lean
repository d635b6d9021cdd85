import NetbirdHa.ComponentsProofs

/-! # The network map of the components

`NetworkMapComponents.Calculate`: the same loops as over the account, with
the lookups of the components. -/

namespace Calculate

open Table AccountModel GroupPeers Connection Routes LegacyMap Components

variable (env : Env) (c : NetworkMapComponents)

section

variable (checks : List String) (q : String) (peerID : String) (res : Resource)

/-- `GetPeerInfo`: a nil entry and a missing one look alike. -/
def getPeerInfo : Option Peer := (c.peers.lookup peerID).join

/-- `GetGroupInfo`. -/
def getGroupInfo (groupID : String) : Option Group := (c.groups.lookup groupID).join

/-- `GetPeerInfo`, then `GetRouterPeerInfo`. -/
def getPeerOrRouter : Option Peer :=
  (getPeerInfo c peerID).or (c.routerPeers.lookup peerID)

/-- `GetPeerGroups`; no group of finished components is nil. -/
def getPeerGroups : List String :=
  c.groups.keys.filter (fun gid =>
    match getGroupInfo c gid with
    | none => false
    | some g => peerID ∈ g.peers)

/-- `ValidatePostureChecksOnPeer`, from the failures the server has listed. -/
def validatePostureChecksOnPeer : Bool :=
  peerID ∈ c.peers && checks.all fun check => (check, peerID) ∉ c.postureFailedPeers

/-- A member of a group counts if it is known and no failure is recorded. -/
def keepPeer : Option Peer :=
  (getPeerInfo c q).filter fun _ => validatePostureChecksOnPeer c checks q

/-- `getPeerFromResource`. -/
def getPeerFromResource (peerID : String) : List Peer × Bool :=
  if res.id = peerID then ([], true)
  else
    match getPeerInfo c res.id with
    | none => ([], false)
    | some p => ([p], false)

/-- One side of a rule. -/
def side (groups checks : List String) : List Peer × Bool :=
  if res.IsPeer then getPeerFromResource c res peerID
  else getAllPeersFromGroups (getGroupInfo c) (keepPeer c checks) groups peerID

/-- Both sides of a rule. -/
def sides (pol : Policy) (rule : PolicyRule) : Sides :=
  let src := side c peerID rule.sourceResource rule.sources pol.sourcePostureChecks
  let dst := side c peerID rule.destinationResource rule.destinations []
  { sourcePeers := src.1
    peerInSources := src.2
    destinationPeers := dst.1
    peerInDestinations := dst.2 }

/-- `getPeerConnectionResources`, on the components. -/
def getPeerConnectionResources (targetPeerID : String) : Conn :=
  match getPeerInfo c targetPeerID with
  | none => {}
  | some target =>
    connectionResources env target c.groupIDToUserIDs.lookup c.allowedUserIDs c.policies
      (sides c targetPeerID)

/-- `getRoutingPeerRoutes`, on the components. -/
def getRoutingPeerRoutes : List Route × List Route :=
  match getPeerOrRouter c peerID with
  | none => ([], [])
  | some p => routingPeerRoutes (getGroupInfo c) c.routes true peerID p.key

/-- `getRoutesToSync`, on the components. -/
def getRoutesToSync (aclPeers : List Peer) (peerGroups : List String) : List Route :=
  routesToSync env (getRoutingPeerRoutes c) peerID aclPeers peerGroups

/-- A source of a route rule. -/
def validSource : Bool :=
  q ∈ c.peers && validatePostureChecksOnPeer c checks q

/-- `getPeerRoutesFirewallRules`; the groups of `getAllRoutePoliciesFromGroups` need not exist. -/
def getPeerRoutesFirewallRules : List RouteFirewallRule :=
  peerRoutesFirewallRules (getGroupInfo c) (getPeerInfo c) (validSource c)
    (policiesWithDestination c.policies) peerID (getRoutingPeerRoutes c peerID).1

/-- The policies kept for a resource. -/
def policiesOf (resourceID : String) : List Policy :=
  (c.resourcePoliciesMap.lookup resourceID).getD []

/-- `getNetworkResourcesRoutes`: a resource without a policy has no route. -/
def getNetworkResourcesRoutes (res : NetworkResource) (peerID : String) (router : NetworkRouter) :
    List Route :=
  if policiesOf c res.id = [] then []
  else
    match getPeerInfo c peerID with
    | none => []
    | some p => [networkResourceToRoute env res p router]

/-- `getNetworkResourcesRoutesToSync`, on the components. -/
def getNetworkResourcesRoutesToSync : ResourceSync Route :=
  networkResourcesRoutesToSync c.routersMap (policiesOf c)
    (getUniquePeerIDsFromGroupsIDs (getGroupInfo c)) (validatePostureChecksOnPeer c)
    (getNetworkResourcesRoutes env c) peerID c.networkResources

/-- `getPeerNetworkResourceFirewallRules`. -/
def getPeerNetworkResourceFirewallRules (routes : List Route) : List RouteFirewallRule :=
  match getPeerInfo c peerID with
  | none => []
  | some p =>
    networkResourceFirewallRules (getGroupInfo c) (getPeerInfo c) (validSource c)
      (policiesOf c) p routes

end

/-- `Calculate`: the map of the components' peer. -/
def calculate : NetworkMap :=
  let conn := getPeerConnectionResources env c c.peerID
  let aclPeers := conn.gen.peers
  let peersToConnect := aclPeers.filter (!c.settings.peerExpired env ·)
  let expiredPeers := aclPeers.filter (c.settings.peerExpired env ·)
  let sync := getNetworkResourcesRoutesToSync env c c.peerID
  { network := c.network
    peers := addNetworksRoutingPeers (getPeerOrRouter c) (sync.routes.map Route.peerID)
      c.peerID peersToConnect expiredPeers sync.isRouter sync.sourcePeers
    routes := sync.routes ++
      getRoutesToSync env c c.peerID peersToConnect (getPeerGroups c c.peerID)
    offlinePeers := expiredPeers
    firewallRules := conn.gen.rules
    routesFirewallRules :=
      (if sync.isRouter then getPeerNetworkResourceFirewallRules c c.peerID sync.routes
      else []) ++ getPeerRoutesFirewallRules c c.peerID
    authorizedUsers := conn.authorizedUsers
    enableSSH := conn.sshEnabled }

/-- `GetPeerNetworkMapFromComponents`: the empty map where there are no components. -/
def getPeerNetworkMapFromComponents (env : Env) (a : Account) (peerID : String)
    (validated : Validated) (resourcePolicies : GoMap (List Policy))
    (routers : GoMap (GoMap NetworkRouter)) (groupIDToUserIDs : GoMap (List String)) :
    Except GoPanic NetworkMap :=
  (getPeerNetworkMapComponents a peerID validated resourcePolicies routers groupIDToUserIDs).map
    (fun
      | none => { network := a.network }
      | some c => calculate env c)

end Calculate

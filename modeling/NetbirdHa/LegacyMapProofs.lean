import NetbirdHa.ConnectionProofs
import NetbirdHa.RouteProofs

/-! # The network map of the account

`Account.GetPeerNetworkMap` and what it calls: the map of one peer computed
over the whole account.  The DNS configuration of the map is not part of
this model. -/

namespace LegacyMap

open Table AccountModel GroupPeers FirewallRules Connection Routes Account

/-- `NetworkMap`. -/
structure NetworkMap where
  network : Network
  peers : List Peer := []
  routes : List Route := []
  offlinePeers : List Peer := []
  firewallRules : List FirewallRule := []
  routesFirewallRules : List RouteFirewallRule := []
  authorizedUsers : GoMap (List String) := ∅
  enableSSH : Bool := false

/-- The policies listed for an access control group, once for every rule that
    has the group as a destination. -/
def policiesWithDestination (policies : List Policy) (gid : String) : List Policy :=
  policies.flatMap fun pol => List.replicate (pol.rules.countP (gid ∈ ·.destinations)) pol

/-! ## The account's part -/

section

variable (env : Env) (a : Account) (validated : Validated) (checks : List String) (peerID : String)

/-- A member of a group counts if it exists, is not embedded, passes the posture
    checks and is validated. -/
def keepPeer (q : String) : Option Peer :=
  (a.getPeer q).filter (fun p =>
    !p.embedded && a.validatePostureChecksOnPeer checks p.id && p.id ∈ validated)

/-- `getPeerFromResource`. -/
def getPeerFromResource (res : Resource) (peerID : String) : List Peer × Bool :=
  match a.getPeer res.id with
  | none => ([], false)
  | some p => if p.id = peerID then ([], true) else ([p], false)

/-- One side of a rule: the peer its resource names, or the peers of its groups. -/
def side (res : Resource) (groups checks : List String) : List Peer × Bool :=
  if res.IsPeer then getPeerFromResource a res peerID
  else getAllPeersFromGroups a.getGroup (keepPeer a validated checks) groups peerID

/-- Both sides of a rule; posture checks are for sources. -/
def sides (pol : Policy) (rule : PolicyRule) : Sides :=
  let src := side a validated peerID rule.sourceResource rule.sources pol.sourcePostureChecks
  let dst := side a validated peerID rule.destinationResource rule.destinations []
  { sourcePeers := src.1
    peerInSources := src.2
    destinationPeers := dst.1
    peerInDestinations := dst.2 }

/-- `GetPeerConnectionResources`. -/
def getPeerConnectionResources (groupIDToUserIDs : GoMap (List String)) (peer : Peer) : Conn :=
  connectionResources env peer groupIDToUserIDs.lookup a.getAllowedUserIDs a.policies
    (sides a validated peer.id)

/-- `getRoutingPeerRoutes`. -/
def getRoutingPeerRoutes : List Route × List Route :=
  match a.getPeer peerID with
  | none => ([], [])
  | some p => routingPeerRoutes a.getGroup a.routes.entries false peerID p.key

/-- `GetRoutesToSync`. -/
def getRoutesToSync (aclPeers : List Peer) (peerGroups : List String) : List Route :=
  routesToSync env (getRoutingPeerRoutes a) peerID aclPeers peerGroups

/-- A source of a route rule: validated, and passing the posture checks. -/
def validSource (q : String) : Bool :=
  q ∈ validated && a.validatePostureChecksOnPeer checks q

/-- `GetAllRoutePoliciesFromGroups` for one access control group. -/
def getAllRoutePoliciesFromGroups (gid : String) : List Policy :=
  match a.getGroup gid with
  | none => []
  | some g => policiesWithDestination a.policies g.id

/-- `GetPeerRoutesFirewallRules`. -/
def getPeerRoutesFirewallRules : List RouteFirewallRule :=
  peerRoutesFirewallRules a.getGroup a.getPeer (validSource a validated)
    (getAllRoutePoliciesFromGroups a) peerID (getRoutingPeerRoutes a peerID).1

/-- `getNetworkResourcesRoutes`: a route only if a policy applies to the
    resource.  The route may be nil. -/
def getNetworkResourcesRoutes (policiesOf : String → List Policy) (res : NetworkResource)
    (peerID : String) (router : NetworkRouter) : List (Option Route) :=
  if policiesOf res.id = [] then []
  else
    match a.getPeer peerID with
    | none => []
    | some p => [toRoute env res p router]

/-- `GetNetworkResourcesRoutesToSync`. -/
def getNetworkResourcesRoutesToSync (resourcePolicies : GoMap (List Policy))
    (routers : GoMap (GoMap NetworkRouter)) : ResourceSync (Option Route) :=
  let policiesOf := fun id => (resourcePolicies.lookup id).getD []
  networkResourcesRoutesToSync routers policiesOf (getUniquePeerIDsFromGroupsIDs a.getGroup)
    a.validatePostureChecksOnPeer (getNetworkResourcesRoutes env a policiesOf) peerID
    a.networkResources

/-- `GetPeerNetworkMap`.  The loops over the network resource routes read every
    route, so a nil one among them is a panic. -/
def getPeerNetworkMap (validated : Validated) (resourcePolicies : GoMap (List Policy))
    (routers : GoMap (GoMap NetworkRouter)) (groupIDToUserIDs : GoMap (List String)) :
    Except GoPanic NetworkMap :=
  match a.getPeer peerID with
  | none => .ok { network := a.network }
  | some peer =>
    if peerID ∉ validated then .ok { network := a.network }
    else
      let conn := getPeerConnectionResources env a validated groupIDToUserIDs peer
      let aclPeers := conn.gen.peers
      let peersToConnect := aclPeers.filter (!a.settings.peerExpired env ·)
      let expiredPeers := aclPeers.filter (a.settings.peerExpired env ·)
      let sync := getNetworkResourcesRoutesToSync env a peerID resourcePolicies routers
      match sync.routes.mapM id with
      | none => .error .nilDereference
      | some resourceRoutes =>
        .ok
          { network := a.network
            peers := addNetworksRoutingPeers a.getPeer (resourceRoutes.map Route.peerID)
              peerID peersToConnect expiredPeers sync.isRouter sync.sourcePeers
            routes := resourceRoutes ++
              getRoutesToSync env a peerID peersToConnect (a.getPeerGroups peerID)
            offlinePeers := expiredPeers
            firewallRules := conn.gen.rules
            routesFirewallRules :=
              (if sync.isRouter then
                networkResourceFirewallRules a.getGroup a.getPeer (validSource a validated)
                  (fun id => (resourcePolicies.lookup id).getD []) peer resourceRoutes
              else []) ++ getPeerRoutesFirewallRules a validated peerID
            authorizedUsers := conn.authorizedUsers
            enableSSH := conn.sshEnabled }

end

section

variable {env : Env} {a : Account} {t : String} {vp : Validated}
  {resourcePolicies : GoMap (List Policy)} {routers : GoMap (GoMap NetworkRouter)}
  {groupIDToUserIDs : GoMap (List String)}

/-- The map of a peer that is missing or not validated is empty. -/
theorem map_of_absent (h : ¬ (t ∈ vp ∧ (a.getPeer t).isSome)) :
    getPeerNetworkMap env a t vp resourcePolicies routers groupIDToUserIDs =
      .ok { network := a.network } := by
  rw [getPeerNetworkMap]
  grind

/-- The map of a validated peer, once every route to a resource is there. -/
theorem map_of_routes {routes : List Route} (ht : a.getPeer t = some target) (hv : t ∈ vp)
    (hr : (getNetworkResourcesRoutesToSync env a t resourcePolicies routers).routes.mapM id =
      some routes) : getPeerNetworkMap env a t vp resourcePolicies routers groupIDToUserIDs =
      let conn := getPeerConnectionResources env a vp groupIDToUserIDs target
      let peersToConnect := conn.gen.peers.filter (!a.settings.peerExpired env ·)
      let expiredPeers := conn.gen.peers.filter (a.settings.peerExpired env ·)
      let sync := getNetworkResourcesRoutesToSync env a t resourcePolicies routers
      .ok
        { network := a.network
          peers := addNetworksRoutingPeers a.getPeer (routes.map Route.peerID) t peersToConnect
            expiredPeers sync.isRouter sync.sourcePeers
          routes := routes ++ getRoutesToSync env a t peersToConnect (a.getPeerGroups t)
          offlinePeers := expiredPeers
          firewallRules := conn.gen.rules
          routesFirewallRules :=
            (if sync.isRouter then
              networkResourceFirewallRules a.getGroup a.getPeer (validSource a vp)
                (fun id => (resourcePolicies.lookup id).getD []) target routes
            else []) ++ getPeerRoutesFirewallRules a vp t
          authorizedUsers := conn.authorizedUsers
          enableSSH := conn.sshEnabled } := by
  simp [getPeerNetworkMap, ht, hv, hr]

end

/-! ## The sides of a rule -/

section

variable {a : Account} {vp : Validated} {t : String} {res : Resource}
  {groups checks : List String} {p : Peer}

theorem keepPeer_eq_some : keepPeer a vp checks q = some p ↔
    a.getPeer q = some p ∧ p.embedded = false ∧ Usable a vp checks q := by
  rw [keepPeer, Option.filter_eq_some_iff]
  grind [id_of_getPeer, Usable]

theorem mem_side_direct (h : res.IsPeer) :
    p ∈ (side a vp t res groups checks).1 ↔ res.id ≠ t ∧ a.getPeer res.id = some p := by
  grind [side, getPeerFromResource, id_of_getPeer]

theorem side_direct_found (h : res.IsPeer) (ht : (a.getPeer t).isSome) :
    (side a vp t res groups checks).2 ↔ res.id = t := by
  grind [side, getPeerFromResource, id_of_getPeer]

theorem mem_side_groups (h : ¬ res.IsPeer) : p ∈ (side a vp t res groups checks).1 ↔
    p.id ∈ getUniquePeerIDsFromGroupsIDs a.getGroup groups ∧ a.getPeer p.id = some p ∧
      p.embedded = false ∧ Usable a vp checks p.id ∧ p.id ≠ t := by
  grind [side, mem_getAllPeersFromGroups, keepPeer_eq_some, id_of_getPeer]

theorem side_groups_found (h : ¬ res.IsPeer) (hp : a.getPeer t = some p) :
    (side a vp t res groups checks).2 ↔
      t ∈ getUniquePeerIDsFromGroupsIDs a.getGroup groups ∧ p.embedded = false ∧
        Usable a vp checks t := by
  rw [side, if_neg h, getAllPeersFromGroups_found]
  constructor
  · rintro ⟨q, hq, p', hk, hi⟩
    obtain ⟨hp', he, hu⟩ := keepPeer_eq_some.mp hk
    obtain rfl : q = t := (id_of_getPeer hp').symm.trans hi
    cases hp.symm.trans hp'
    exact ⟨hq, he, hu⟩
  · rintro ⟨hq, he, hu⟩
    exact ⟨t, hq, p, keepPeer_eq_some.mpr ⟨hp, he, hu⟩, id_of_getPeer hp⟩

end

end LegacyMap

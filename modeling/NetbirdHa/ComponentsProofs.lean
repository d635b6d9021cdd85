import NetbirdHa.LegacyMapProofs

/-! # The components of a network map

`GetPeerNetworkMapComponents` picks what one peer's map can depend on: the
peers, groups, policies, routes and resources that are relevant to it.
Peers and groups are Go maps of pointers; a nil pointer under a key is
`none`.

This file is the code; `RelevanceProofs` says which keys each part of the
result has. -/

namespace Components

open Table AccountModel GroupPeers Connection Routes

/-- `NetworkMapComponents`, the DNS parts apart.  A failed posture check is a
    pair of the check's ID and the peer's. -/
structure NetworkMapComponents where
  peerID : String
  network : Network
  settings : Settings
  peers : GoMap (Option Peer)
  groups : GoMap (Option Group)
  policies : List Policy
  routes : List Route
  resourcePoliciesMap : GoMap (List Policy)
  routersMap : GoMap (GoMap NetworkRouter)
  networkResources : List NetworkResource
  groupIDToUserIDs : GoMap (List String)
  allowedUserIDs : List String
  postureFailedPeers : List (String × String)
  routerPeers : GoMap Peer

/-! ## `getPeersGroupsPoliciesRoutes` -/

section

variable (a : Account) (validated : Validated) (peerID : String) (pol : Policy) (rule : PolicyRule)

/-- One side of a rule as the first pass reads it. -/
def firstSide (res : Resource) (groups checks : List String) : Scan :=
  if res.IsPeer then { filtered := [res.id], found := res.id = peerID }
  else getPeersFromGroups a validated checks groups peerID

/-- The source side. -/
def firstSources : Scan :=
  firstSide a validated peerID rule.sourceResource rule.sources pol.sourcePostureChecks

/-- The destination side. -/
def firstDestinations : Scan :=
  firstSide a validated peerID rule.destinationResource rule.destinations []

/-- The access control groups of the enabled routes. -/
def routeAccessControlGroups : List String :=
  (a.routes.entries.filter (·.enabled)).flatMap Route.accessControlGroups

/-- The groups a route makes relevant. -/
def routeGroupIDs (r : Route) : List String :=
  r.groups ++ r.peerGroups ++ if r.enabled then r.accessControlGroups else []

/-- The rule has an access control group of a route among its destinations. -/
def listsAccessGroup : Bool :=
  rule.destinations.any (· ∈ routeAccessControlGroups a)

/-- The rule makes its policy relevant. -/
def ruleRelevant : Bool :=
  listsAccessGroup a rule || (firstSources a validated peerID pol rule).found ||
    (firstDestinations a validated peerID rule).found

/-- The policy is relevant: an enabled rule of it is. -/
def policyRelevant : Bool :=
  pol.enabled && pol.rules.any fun rule => rule.enabled && ruleRelevant a validated peerID pol rule

/-- The peers a rule makes relevant. -/
def rulePeerKeys : List String :=
  let src := firstSources a validated peerID pol rule
  let dst := firstDestinations a validated peerID rule
  (if src.found then dst.filtered else []) ++ (if dst.found then src.filtered else [])

/-- The groups a rule makes relevant. -/
def ruleGroupKeys : List String :=
  (if listsAccessGroup a rule then rule.sources ++ rule.destinations else []) ++
  (if (firstSources a validated peerID pol rule).found then rule.destinations else []) ++
  (if (firstDestinations a validated peerID rule).found then rule.sources else [])

/-- The posture check failures a rule makes known. -/
def ruleFailures : List (String × String) :=
  (firstSources a validated peerID pol rule).failed ++
    (firstDestinations a validated peerID rule).failed

/-- What the SSH rules need of the account. -/
structure SSHRequirements where
  neededGroupIDs : List String := []
  needAllowedUserIDs : Bool := false

/-- What SSH access needs for a rule that has the peer as a destination. -/
def sshRequirement (peerSSHEnabled : Bool) (reqs : SSHRequirements) (rule : PolicyRule) :
    SSHRequirements :=
  if rule.protocol = .netbirdSSH then
    if rule.authorizedGroups ≠ [] then
      { reqs with neededGroupIDs := reqs.neededGroupIDs ++ rule.authorizedGroups.map Prod.fst }
    else if rule.authorizedUser ≠ "" then reqs
    else { reqs with needAllowedUserIDs := true }
  else if policyRuleImpliesLegacySSH rule && peerSSHEnabled then
    { reqs with needAllowedUserIDs := true }
  else reqs

/-- What the first pass returns; the relevant routes are all routes. -/
structure Relevant where
  peers : GoMap (Option Peer)
  groups : GoMap (Option Group)
  policies : List Policy
  failed : List (String × String)
  sshReqs : SSHRequirements

/-- `getPeersGroupsPoliciesRoutes`: what of the account a peer's map depends on. -/
def getPeersGroupsPoliciesRoutes (peerSSHEnabled : Bool) : Relevant :=
  let active := activeRules a.policies
  { peers := insertAll a.getPeer
      (peerID :: active.flatMap (fun pr => rulePeerKeys a validated peerID pr.1 pr.2)) ∅
    groups := insertAll a.getGroup
      (a.getPeerGroups peerID ++ a.routes.entries.flatMap routeGroupIDs ++
        active.flatMap (fun pr => ruleGroupKeys a validated peerID pr.1 pr.2)) ∅
    policies := a.policies.filter (policyRelevant a validated peerID)
    failed := active.flatMap fun pr => ruleFailures a validated peerID pr.1 pr.2
    sshReqs := (active.filter (fun pr => (firstDestinations a validated peerID pr.2).found)).foldl
      (fun reqs pr => sshRequirement peerSSHEnabled reqs pr.2) {} }

end

/-! ## The network resources -/

/-- What the loop over the resources adds to. -/
structure Building where
  peers : GoMap (Option Peer)
  groups : GoMap (Option Group)
  failed : List (String × String)
  resourcePoliciesMap : GoMap (List Policy) := ∅
  routersMap : GoMap (GoMap NetworkRouter) := ∅
  networkResources : List NetworkResource := []
  routerPeers : GoMap Peer := ∅

section

variable (a : Account) (validated : Validated) (resourceID : String) (policies : List Policy)
  (peerID : String)

/-- `getPostureValidPeersSaveFailed`: the validated peers that pass, and the
    failures of the others. -/
def getPostureValidPeersSaveFailed (checks : List String) (peerIDs : List String) : List String ×
    List (String × String) :=
  let answers := (peerIDs.filter (· ∈ validated)).map (fun p =>
    (p, a.validatePostureChecksOnPeerGetFailed checks p))
  ((answers.filter (·.2.1)).map Prod.fst, (answers.filter (!·.2.1)).map (fun e => (e.2.2, e.1)))

/-- The peer is a source of the policy: its first rule names it, or a source group holds it. -/
def peerInPolicySources (pol : Policy) : Bool :=
  if (firstRule pol).sourceResource.IsPeer then (firstRule pol).sourceResource.id = peerID
  else (sourceGroups pol).any (fun gid =>
    match a.getGroup gid with
    | none => false
    | some g => peerID ∈ g.peers)

/-- The groups of all rules of a policy. -/
def policyGroupIDs (pol : Policy) : List String :=
  pol.rules.flatMap fun rule => rule.sources ++ rule.destinations

/-- Keep the groups of a policy that applies, and all policies of its resource. -/
def keepPolicy (b : Building) (pol : Policy) : Building :=
  { b with
    groups := insertNew (fun gid => (a.getGroup gid).map some) (policyGroupIDs pol) b.groups
    resourcePoliciesMap := b.resourcePoliciesMap.insert resourceID policies }

/-- A policy of a resource that is open to the peer: its sources become known. -/
def openPolicy (b : Building) (pol : Policy) : Building :=
  let answer := getPostureValidPeersSaveFailed a validated pol.sourcePostureChecks
    (policySourcePeers (getUniquePeerIDsFromGroupsIDs a.getGroup) pol)
  keepPolicy a resourceID policies
    { b with
      peers := insertNew (fun p => some (a.getPeer p)) answer.1 b.peers
      failed := b.failed ++ answer.2 } pol

/-- One policy of a resource.  The flag is `addSourcePeers`: the peer routes the
    resource, or an earlier policy lets it in. -/
def buildPolicy (peerID resourceID : String) (policies : List Policy) (s : Building × Bool)
    (pol : Policy) : Building × Bool :=
  if s.2 then (openPolicy a validated resourceID policies s.1 pol, true)
  else if !peerInPolicySources a peerID pol then s
  else
    let answer := a.validatePostureChecksOnPeerGetFailed pol.sourcePostureChecks peerID
    if !answer.1 && answer.2 ≠ "" then
      ({ s.1 with failed := s.1.failed ++ [(answer.2, peerID)] }, false)
    else (keepPolicy a resourceID policies s.1 pol, true)

/-- One resource. -/
def buildResource (resourcePolicies : GoMap (List Policy)) (routers : GoMap (GoMap NetworkRouter))
    (b : Building) (res : NetworkResource) : Building :=
  match resourcePolicies.lookup res.id with
  | none => b
  | some policies =>
    let routing := (routers.lookup res.networkID).getD ∅
    let s := policies.foldl (buildPolicy a validated peerID res.id policies)
      (b, (routing.lookup peerID).isSome)
    { s.1 with
      routersMap := s.1.routersMap.insert res.networkID routing
      routerPeers := insertNew a.getPeer routing.keys s.1.routerPeers
      peers := insertNew
        (fun p => if p ∈ validated then (a.getPeer p).map some else none) routing.keys s.1.peers
      networkResources := s.1.networkResources ++ if s.2 then [res] else [] }

end

/-! ## Filters -/

/-- One group of `filterGroupPeers`. -/
def filterGroup (peers : GoMap (Option Peer)) (groups : GoMap (Option Group)) (gid : String) :
    Except GoPanic (GoMap (Option Group)) :=
  match groups.lookup gid with
  | none => .ok groups
  | some none => .error .nilDereference
  | some (some g) =>
    let filtered := g.peers.filter (· ∈ peers)
    .ok (if filtered = [] then groups.erase gid
      else if filtered.length ≠ g.peers.length then
        groups.insert gid (some { g with peers := filtered })
      else groups)

/-- `filterGroupPeers`: cut the groups down to the known peers. -/
def filterGroupPeers (groups : GoMap (Option Group)) (peers : GoMap (Option Peer)) :
    Except GoPanic (GoMap (Option Group)) :=
  groups.keys.foldlM (filterGroup peers) groups

/-- The posture checks that some kept policy asks for. -/
def referencedChecks (policies : List Policy) (resourcePolicies : GoMap (List Policy)) :
    List String :=
  policies.flatMap Policy.sourcePostureChecks ++
    resourcePolicies.entries.flatMap (·.2.flatMap Policy.sourcePostureChecks)

/-- `filterPostureFailedPeers`: the failures of known peers that some kept policy asks about. -/
def filterPostureFailedPeers (failed : List (String × String)) (policies : List Policy)
    (resourcePolicies : GoMap (List Policy)) (peers : GoMap (Option Peer)) :
    List (String × String) :=
  failed.filter fun e => e.1 ∈ referencedChecks policies resourcePolicies && e.2 ∈ peers

/-- `filterGroupIDToUserIDs`. -/
def filterGroupIDToUserIDs (fullMap : GoMap (List String)) (needed : List String) :
    GoMap (List String) :=
  insertNew fullMap.lookup needed ∅

/-! ## `GetPeerNetworkMapComponents` -/

/-- What the loops over policies and resources leave. -/
def build (a : Account) (validated : Validated) (peerID : String)
    (resourcePolicies : GoMap (List Policy)) (routers : GoMap (GoMap NetworkRouter))
    (rel : Relevant) : Building :=
  (a.networkResources.filter (·.enabled)).foldl
    (buildResource a validated peerID resourcePolicies routers)
    { peers := rel.peers, groups := rel.groups, failed := rel.failed }

/-- `GetPeerNetworkMapComponents`; `none` is nil. -/
def getPeerNetworkMapComponents (a : Account) (peerID : String) (validated : Validated)
    (resourcePolicies : GoMap (List Policy)) (routers : GoMap (GoMap NetworkRouter))
    (groupIDToUserIDs : GoMap (List String)) : Except GoPanic (Option NetworkMapComponents) :=
  match a.getPeer peerID with
  | none => .ok none
  | some peer =>
    if peerID ∉ validated then .ok none
    else
      let rel := getPeersGroupsPoliciesRoutes a validated peerID peer.sshEnabled
      let b := build a validated peerID resourcePolicies routers rel
      (filterGroupPeers b.groups b.peers).map (fun groups => some
          { peerID := peerID
            network := a.network
            settings := a.settings
            peers := b.peers
            groups := groups
            policies := rel.policies
            routes := a.routes.entries
            resourcePoliciesMap := b.resourcePoliciesMap
            routersMap := b.routersMap
            networkResources := b.networkResources
            groupIDToUserIDs := filterGroupIDToUserIDs groupIDToUserIDs rel.sshReqs.neededGroupIDs
            allowedUserIDs := if rel.sshReqs.needAllowedUserIDs then a.getAllowedUserIDs else []
            postureFailedPeers := filterPostureFailedPeers b.failed rel.policies
              b.resourcePoliciesMap b.peers
            routerPeers := b.routerPeers })

end Components

import NetbirdHa.MapDnsProofs
import NetbirdHa.RouteRuleAgreementProofs

/-! # What refers to a group

Before a group is deleted, and before its members change without the peers being told,
the tables that refer to groups are searched for it.  A search whose read fails has
found nothing.  The zones, the authorized groups of a rule and the groups that may
expose peers are never searched.

`deleted_referenced_iff` says what may still refer to a deleted group, and
`map_unchanged_iff` that a group no search finds is not read for any network map, its DNS
configuration apart. -/

namespace GroupLink

open AccountModel MapDns List Table

/-- The reads of the store that may fail. -/
inductive Read where
  | group
  | user
  | routes
  | nameServerGroups
  | policies
  | setupKeys
  | users
  | networkRouters
  | dnsSettings
  | settings
deriving DecidableEq

/-- An account with the rest of what refers to groups; a setup key or a user is the list of
    its auto groups. -/
structure Store extends DnsAccount where
  setupKeys : List (List String) := []
  userAutoGroups : List (List String) := []
  flowGroups : List String := []
  integratedValidatorGroups : List String := []
  peerExposeGroups : List String := []
  /-- The groups issued by an integration. -/
  issuedIntegration : List String := []

/-- A row that the read returns refers to the group. -/
def mentions (s : Store) (gid : String) : Read → Bool
  | .routes => s.routes.entries.any fun r =>
    gid ∈ r.groups || gid ∈ r.peerGroups || gid ∈ r.accessControlGroups
  | .nameServerGroups => s.nameServerGroups.any (gid ∈ ·.groups)
  | .policies => s.policies.any fun pol => pol.rules.any fun rule =>
    gid ∈ rule.sources || gid ∈ rule.destinations
  | .setupKeys => s.setupKeys.any (gid ∈ ·)
  | .users => s.userAutoGroups.any (gid ∈ ·)
  | .networkRouters => s.networkRouters.any (gid ∈ ·.peerGroups)
  | .dnsSettings => gid ∈ s.disabledManagementGroups
  | .settings => gid ∈ s.integratedValidatorGroups
  | .group | .user => false

variable (s : Store) (fails : Read → Bool) (gid : String)

/-- A search through one table: a failed read is logged, and nothing is found. -/
def isGroupLinked (table : Read) : Bool := !fails table && mentions s gid table

/-- `isGroupLinkedToRoute`. -/
def isGroupLinkedToRoute : Bool := isGroupLinked s fails gid .routes
/-- `isGroupLinkedToDns`. -/
def isGroupLinkedToDns : Bool := isGroupLinked s fails gid .nameServerGroups
/-- `isGroupLinkedToPolicy`. -/
def isGroupLinkedToPolicy : Bool := isGroupLinked s fails gid .policies
/-- `isGroupLinkedToSetupKey`. -/
def isGroupLinkedToSetupKey : Bool := isGroupLinked s fails gid .setupKeys
/-- `isGroupLinkedToUser`. -/
def isGroupLinkedToUser : Bool := isGroupLinked s fails gid .users
/-- `isGroupLinkedToNetworkRouter`. -/
def isGroupLinkedToNetworkRouter : Bool := isGroupLinked s fails gid .networkRouters

/-- Why a group is not deleted. -/
inductive DeleteError where
  | notFound
  | internal (message : String)
  | permissionDenied
  | groupAll
  /-- `GroupLinkError`, by the kind of what refers to the group. -/
  | linked (resource : String)
deriving DecidableEq

/-- `checkGroupLinkedToSettings`; here a failed read is an error. -/
def checkGroupLinkedToSettings : Option DeleteError :=
  if fails .dnsSettings then some (.internal "failed to get DNS settings")
  else if mentions s gid .dnsSettings then some (.linked "disabled DNS management groups")
  else if fails .settings then some (.internal "failed to get account settings")
  else if mentions s gid .settings then some (.linked "integrated validator")
  else none

/-- `validateDeleteGroup`; `power` says that the caller is an admin service user. -/
def validateDeleteGroup (power : Bool) (g : Group) : Option DeleteError :=
  if g.id ∈ s.issuedIntegration ∧ fails .user then some (.internal "failed to get user")
  else if g.id ∈ s.issuedIntegration ∧ !power then some .permissionDenied
  else if g.isGroupAll then some .groupAll
  else if g.resources ≠ [] then some (.linked "network resource")
  else if g.id ∈ s.flowGroups then some (.linked "settings")
  else if isGroupLinkedToRoute s fails g.id then some (.linked "route")
  else if isGroupLinkedToDns s fails g.id then some (.linked "name server groups")
  else if isGroupLinkedToPolicy s fails g.id then some (.linked "policy")
  else if isGroupLinkedToSetupKey s fails g.id then some (.linked "setup key")
  else if isGroupLinkedToUser s fails g.id then some (.linked "user")
  else if isGroupLinkedToNetworkRouter s fails g.id then some (.linked "network router")
  else checkGroupLinkedToSettings s fails g.id

/-- Why a listed group is skipped. -/
def skipped (power : Bool) : Option DeleteError :=
  match if fails .group then none else s.getGroup gid with
  | none => some .notFound
  | some g => validateDeleteGroup s fails power g

/-- `DeleteGroups`: the store afterwards and the errors.  Each listed group comes with the
    reads that fail while it is looked at. -/
def deleteGroups (power : Bool) (calls : List (String × (Read → Bool))) :
    Store × List DeleteError :=
  let deleted := (calls.filter fun c => (skipped s c.2 c.1 power).isNone).map Prod.fst
  ({ s with
      groups := s.groups.filterMap (fun g => if g.id ∈ deleted then none else some g)
        (by simp +contextual) },
    calls.filterMap fun c => skipped s c.2 c.1 power)

/-- No search looks here. -/
def Unsearched : Prop :=
  (∃ z ∈ s.zones, gid ∈ z.distributionGroups) ∨ gid ∈ s.peerExposeGroups ∨
    ∃ pol ∈ s.policies, ∃ rule ∈ pol.rules, gid ∈ rule.authorizedGroups.map Prod.fst

/-- Something refers to the group. -/
def Referenced : Prop :=
  (∃ table, mentions s gid table) ∨ gid ∈ s.flowGroups ∨ Unsearched s gid

variable {s fails gid} {power : Bool} {calls : List (String × (Read → Bool))}

/-- What is not skipped was not found. -/
theorem of_not_skipped (h : skipped s fails gid power = none) :
    (∀ table, fails table = false → mentions s gid table = false) ∧ gid ∉ s.flowGroups := by
  rw [skipped] at h
  split at h
  · cases h
  rename_i g hg
  obtain rfl : g.id = gid := by
    split at hg
    · cases hg
    · exact Account.id_of_getGroup hg
  simp only [validateDeleteGroup, checkGroupLinkedToSettings, isGroupLinkedToRoute,
    isGroupLinkedToDns, isGroupLinkedToPolicy, isGroupLinkedToSetupKey, isGroupLinkedToUser,
    isGroupLinkedToNetworkRouter, isGroupLinked, ite_eq_iff, reduceCtorEq, and_false, false_or,
    and_true, Bool.and_eq_true, Bool.not_eq_true', not_and, Bool.not_eq_true] at h
  obtain ⟨-, -, -, -, hf, hrt, hd, hp, hk, hu, hro, -, hd', -, hset⟩ := h
  refine ⟨fun table hr => ?_, hf⟩
  cases table with
  | routes => exact hrt hr
  | nameServerGroups => exact hd hr
  | policies => exact hp hr
  | setupKeys => exact hk hr
  | users => exact hu hr
  | networkRouters => exact hro hr
  | dnsSettings => exact hd'
  | settings => exact hset
  | group | user => rfl

/-- **Deleting groups.**  A group that is deleted is gone, and what still refers to it is
    what was not searched or could not be read. -/
theorem deleted_referenced_iff (hc : (gid, fails) ∈ calls) (h : skipped s fails gid power = none) :
    (deleteGroups s power calls).1.getGroup gid = none ∧
    (Referenced (deleteGroups s power calls).1 gid ↔
      (∃ table, fails table ∧ mentions s gid table) ∨ Unsearched s gid) := by
  obtain ⟨hs, hfl⟩ := of_not_skipped h
  constructor
  · refine Option.eq_none_iff_forall_ne_some.mpr fun g hg => ?_
    obtain ⟨hm, rfl⟩ := Keyed.get_eq_some.mp hg
    obtain ⟨g', -, hg'⟩ := mem_filterMap.mp hm
    split at hg'
    · cases hg'
    · rename_i hn
      cases hg'
      exact hn (mem_map.mpr ⟨_, mem_filter.mpr ⟨hc, by simp [h]⟩, rfl⟩)
  · have hsa : Referenced (deleteGroups s power calls).1 gid ↔ Referenced s gid := by
      refine or_congr (exists_congr fun table => ?_) Iff.rfl
      cases table <;> exact Iff.rfl
    rw [hsa, Referenced, or_iff_right hfl]
    refine or_congr_left (exists_congr fun table => ?_)
    cases hf : fails table <;> simp [hs table, hf]

/-- A store with one group. -/
def oneGroup (policies : List Policy) (zones : List Zone) : Store where
  peers := ⟨[{ id := "p", ip := "100.64.0.1" }], by decide⟩
  groups := ⟨[{ id := "g" }], by decide⟩
  routes := ⟨[], nodup_nil⟩
  policies
  zones

/-- A store with two groups; the policies, routes, zones and all else go by the second, which
    has a member. -/
def twoGroups (zones : List Zone) : Store where
  peers := ⟨[{ id := "p", ip := "100.64.0.1" }, { id := "q", ip := "100.64.0.2" }], by decide⟩
  groups := ⟨[{ id := "g" }, { id := "h", peers := ["p"] }], by decide⟩
  routes := ⟨[{ id := "r", peer := "q", groups := ["h"], accessControlGroups := ["h"] }],
    by decide⟩
  policies := [{ id := "pol", rules := [{ id := "rule", sources := ["h"], destinations := ["h"]
                                          authorizedGroups := [("h", ["root"])] }] }]
  zones
  nameServerGroups := [{ name := "ns", groups := ["h"] }]
  setupKeys := [["h"]]
  userAutoGroups := [["h"]]
  flowGroups := ["h"]
  peerExposeGroups := ["h"]

/-- While the policies cannot be read, the first group is deleted and the second is kept;
    nothing refers to the first. -/
theorem first_not_referenced :
    let s := (deleteGroups (twoGroups [{ domain := "zone", distributionGroups := ["h"] }]) false
      [("g", (· = .policies)), ("h", fun _ => false)]).1
    s.getGroup "g" = none ∧ ¬ Referenced s "g" ∧ (s.getGroup "h").isSome := by
  have h := @deleted_referenced_iff (twoGroups [{ domain := "zone", distributionGroups := ["h"] }])
    (· = .policies) "g" false [("g", (· = .policies)), ("h", fun _ => false)] mem_cons_self
    (by decide)
  refine ⟨h.1, ?_, by decide⟩
  rw [h.2]
  rintro (⟨table, hf, hm⟩ | hu)
  · obtain rfl := of_decide_eq_true hf
    exact absurd hm (by decide)
  · revert hu
    unfold Unsearched
    decide

/-- A zone keeps its distribution group, and a rule its source that could not be read. -/
theorem zone_and_rule_left :
    (let s := (deleteGroups (oneGroup [] [{ domain := "zone", distributionGroups := ["g"] }]) false
      [("g", fun _ => false)]).1
    s.getGroup "g" = none ∧ s.zones.map (·.distributionGroups) = [["g"]]) ∧
    (let s := (deleteGroups
      (oneGroup [{ id := "pol", rules := [{ id := "r", sources := ["g"] }] }] [])
      false [("g", (· = .policies))]).1
    s.getGroup "g" = none ∧ mentions s "g" .policies) := by
  decide

/-! ## Changing the members of a group -/

/-- `areGroupChangesAffectPeers`. -/
def areGroupChangesAffectPeers (s : Store) (fails : Read → Bool) (gids : List String) :
    Except DeleteError Bool :=
  if gids = [] then .ok false
  else if fails .dnsSettings then .error (.internal "failed to get DNS settings")
  else .ok (gids.any fun gid => mentions s gid .dnsSettings || isGroupLinkedToDns s fails gid ||
    isGroupLinkedToPolicy s fails gid || isGroupLinkedToRoute s fails gid ||
    isGroupLinkedToNetworkRouter s fails gid)

/-- The account with other members in a group. -/
def change (a : Account) (gid : String) (f : List String → List String) : Account :=
  { a with
    groups := a.groups.filterMap
      (fun g => some (if g.id = gid then { g with peers := f g.peers } else g))
      (by intro x y h; cases h; split <;> rfl) }

/-- The rules, routes and routers do not name the group. -/
structure Apart (a : Account) (gid : String) : Prop where
  rules : ∀ pol ∈ a.policies, ∀ rule ∈ pol.rules, gid ∉ rule.sources ∧ gid ∉ rule.destinations
  routes : ∀ r ∈ a.routes.entries, gid ∉ r.groups ∧ gid ∉ r.peerGroups ∧ gid ∉ r.accessControlGroups
  routers : ∀ router ∈ a.networkRouters, gid ∉ router.peerGroups

open GroupPeers Routes Connection LegacyMap

section

variable {a : Account} {f : List String → List String} {l : List String} {env : Env}
  {vp : Validated}
  {t q : String} {pol : Policy} {rule : PolicyRule} {r : Route} {gu : UserMap}

/-- Changing a group leaves the others. -/
theorem getGroup_change (h : gid ∉ l) (hk : k ∈ l) :
    (change a gid f).getGroup k = a.getGroup k := by
  refine Option.ext fun g => ?_
  grind [Account.getGroup, Keyed.get_eq_some, change, Keyed.filterMap]

theorem groupMembers_change (h : gid ∉ l) :
    groupMembers (change a gid f).getGroup l = groupMembers a.getGroup l :=
  flatMap_congr fun k hk => by rw [getGroup_change h hk]

/-- Groups that are not changed have the same members. -/
theorem unique_change (h : gid ∉ l) : getUniquePeerIDsFromGroupsIDs (change a gid f).getGroup l =
    getUniquePeerIDsFromGroupsIDs a.getGroup l := by
  have hl : ∀ single (l acc : List String), gid ∉ l →
      uniqueLoop (change a gid f).getGroup single l acc = uniqueLoop a.getGroup single l acc := by
    intro single l
    induction l with
    | nil => intro acc _; rfl
    | cons k l ih =>
      intro acc h
      rw [uniqueLoop, uniqueLoop, getGroup_change h mem_cons_self]
      simp only [ih _ (not_mem_of_not_mem_cons h)]
  exact hl _ l [] h

/-- A peer is in the same unchanged groups. -/
theorem any_getPeerGroups_change (h : gid ∉ l) :
    l.any (· ∈ (change a gid f).getPeerGroups t) = l.any (· ∈ a.getPeerGroups t) := by
  grind [Account.mem_getPeerGroups, getGroup_change]

/-- Posture checks read no groups. -/
theorem valid_change :
    (change a gid f).validatePostureChecksOnPeer = a.validatePostureChecksOnPeer :=
  funext₂ fun _ _ => Account.checksOnPeer_congr rfl rfl

theorem validSource_change : validSource (change a gid f) vp = validSource a vp := by
  funext cs q
  rw [validSource, validSource, valid_change]

/-- Nor do the policies of the resources read the group's peers. -/
theorem resourcePolicies_change :
    getResourcePoliciesMap (change a gid f) = getResourcePoliciesMap a := by
  refine getResourcePoliciesMap_congr rfl rfl (funext₂ fun rid rule => ?_)
  simp only [reachesByGroup, getNetworkResourceGroups, change, Keyed.filterMap, any_filter,
    filterMap_eq_map', any_map]
  congr 1
  funext g
  by_cases hg : g.id = gid <;> simp [hg]

/-- A resource's routes depend on its policies' sources only. -/
theorem syncResource_congr
    (h : ∀ pol ∈ policiesOf res.id, policySourcePeers unique pol = policySourcePeers unique' pol) :
    syncResource rr policiesOf unique valid mk t res =
      syncResource rr policiesOf unique' valid mk t res := by
  have hp : (policiesOf res.id).flatMap (fun pol => (policySourcePeers unique pol).filter
      (valid pol.sourcePostureChecks)) = (policiesOf res.id).flatMap
        fun pol => (policySourcePeers unique' pol).filter (valid pol.sourcePostureChecks) :=
    flatMap_congr fun pol hpo => by rw [h pol hpo]
  have hc : ((policiesOf res.id).any fun pol => t ∈ policySourcePeers unique pol &&
      valid pol.sourcePostureChecks t) = (policiesOf res.id).any
        fun pol => t ∈ policySourcePeers unique' pol && valid pol.sourcePostureChecks t := by
    rw [Bool.eq_iff_iff, any_eq_true, any_eq_true]
    exact exists_congr fun pol => and_congr_right fun hpo => by rw [h pol hpo]
  rw [syncResource, syncResource, hp, hc]

variable (h : Apart a gid)

include h

/-- A group apart from all others changes no connection. -/
theorem Apart.getPeerConnectionResources (p : Peer) :
    getPeerConnectionResources env (change a gid f) vp gu p =
      getPeerConnectionResources env a vp gu p := by
  refine foldl_ext _ _ _ fun s pr hpr => ?_
  obtain ⟨hp, -, hr, -⟩ := mem_activeRules.mp hpr
  obtain ⟨hs, hd⟩ := h.rules pr.1 hp pr.2 hr
  have hk : ∀ checks, keepPeer (change a gid f) vp checks = keepPeer a vp checks := by
    intro checks
    funext q
    rw [keepPeer, keepPeer, valid_change]
    rfl
  simp only [connectRule, LegacyMap.sides, side, getAllPeersFromGroups, unique_change hs,
    unique_change hd, hk]
  rfl

/-- Nor who routes. -/
theorem Apart.getRoutingPeerRoutes :
    LegacyMap.getRoutingPeerRoutes (change a gid f) = LegacyMap.getRoutingPeerRoutes a := by
  funext q
  have hc : a.routes.entries.flatMap (routeCandidates (change a gid f).getGroup q) =
      a.routes.entries.flatMap (routeCandidates a.getGroup q) := by
    refine flatMap_congr fun r hr => Agreement.routeCandidates_congr fun k hk => ?_
    rw [getGroup_change (h.routes r hr).2.1 hk]
  rw [LegacyMap.getRoutingPeerRoutes, LegacyMap.getRoutingPeerRoutes,
    show (change a gid f).getPeer q = a.getPeer q from rfl]
  cases a.getPeer q with
  | none => rfl
  | some p => simp only [routingPeerRoutes, ← hc]; rfl

/-- Nor the routes. -/
theorem Apart.getRoutesToSync (conn : List Peer) :
    getRoutesToSync env (change a gid f) t conn ((change a gid f).getPeerGroups t) =
      getRoutesToSync env a t conn (a.getPeerGroups t) := by
  simp only [LegacyMap.getRoutesToSync, routesToSync, h.getRoutingPeerRoutes, filterRoutesByGroups]
  congr 1
  refine flatMap_congr fun p _ => congrArg (filterRoutesFromPeersOfSameHAGroup env · _) ?_
  refine filter_congr fun r hr => ?_
  obtain ⟨r', hr', -, -, hg, -⟩ := Agreement.served_of_mem_routes hr
  rw [hg, any_getPeerGroups_change (h.routes r' hr').1]

/-- Nor the rules of a route. -/
theorem Apart.getRouteFirewallRules (hs : ∀ pol ∈ policies, pol ∈ a.policies)
    (valid : List String → String → Bool) (dist : List String) :
    getRouteFirewallRules (change a gid f).getGroup a.getPeer valid t policies r dist =
      getRouteFirewallRules a.getGroup a.getPeer valid t policies r dist := by
  refine flatMap_congr fun pol hp => flatMap_congr fun rule hr => ?_
  rw [getRulePeers, getRulePeers, rulePeerIDs, rulePeerIDs, groupMembers_change
    (h.rules pol (hs pol (mem_filter.mp hp).1) rule (mem_filter.mp hr).1).1]

/-- Nor the rules of all routes. -/
theorem Apart.getPeerRoutesFirewallRules :
    getPeerRoutesFirewallRules (change a gid f) vp t = getPeerRoutesFirewallRules a vp t := by
  rw [LegacyMap.getPeerRoutesFirewallRules, LegacyMap.getPeerRoutesFirewallRules,
    h.getRoutingPeerRoutes]
  refine flatMap_congr fun r hr => ?_
  obtain ⟨r', hr', -, -, hg, hac⟩ := Agreement.served_of_mem_routes hr
  obtain ⟨hd, -, ha⟩ := h.routes r' hr'
  rw [← hg] at hd
  rw [← hac] at ha
  refine if_congr Iff.rfl rfl (flatMap_congr fun k hk => ?_)
  have hp : getAllRoutePoliciesFromGroups (change a gid f) k =
      getAllRoutePoliciesFromGroups a k := by
    rw [getAllRoutePoliciesFromGroups, getGroup_change ha hk]
    rfl
  rw [hp, groupMembers_change hd, validSource_change]
  refine h.getRouteFirewallRules (fun pol hpo => ?_) _ _
  rw [getAllRoutePoliciesFromGroups] at hpo
  split at hpo
  · cases hpo
  · exact (Agreement.mem_policiesWithDestination.mp hpo).1

/-- Nor the routers of the resources. -/
theorem Apart.getResourceRoutersMap :
    getResourceRoutersMap (change a gid f) = getResourceRoutersMap a := by
  refine foldl_ext _ _ _ fun m router hr => ?_
  rw [addRouter, addRouter, routerPeerIDs, routerPeerIDs,
    groupMembers_change (h.routers router (mem_filter.mp hr).1)]

/-- Nor the resources' routes. -/
theorem Apart.getNetworkResourcesRoutesToSync :
    getNetworkResourcesRoutesToSync env (change a gid f) t (getResourcePoliciesMap a) rr =
      getNetworkResourcesRoutesToSync env a t (getResourcePoliciesMap a) rr := by
  rw [LegacyMap.getNetworkResourcesRoutesToSync, valid_change, networkResourcesRoutesToSync,
    map_congr_left fun res _ => syncResource_congr fun pol hp => ?_]
  · rfl
  rw [policySourcePeers, policySourcePeers, unique_change]
  intro hg
  obtain ⟨rule, hr, hg⟩ := exists_source hg
  exact (h.rules pol (policy_of_resource hp).1 rule hr).1 hg

/-- Nor the resources' rules. -/
theorem Apart.networkResourceFirewallRules
    (hsu : ∀ rid, ∀ pol ∈ policiesOf rid, pol ∈ a.policies) (p : Peer) (routes : List Route) :
    networkResourceFirewallRules (change a gid f).getGroup a.getPeer (validSource a vp) policiesOf p
        routes =
      networkResourceFirewallRules a.getGroup a.getPeer (validSource a vp) policiesOf p routes := by
  refine flatMap_congr fun r _ => congrArg (filter _) ?_
  have hs : ∀ rid, getPoliciesSourcePeers (change a gid f).getGroup (policiesOf rid) =
      getPoliciesSourcePeers a.getGroup (policiesOf rid) := fun rid =>
    flatMap_congr fun pol hp => flatMap_congr fun rule hr => by
      rw [groupMembers_change (h.rules pol (hsu rid pol hp) rule hr).1]
  rw [hs, h.getRouteFirewallRules (hsu _)]

/-- So it changes no map. -/
theorem Apart.getPeerNetworkMap :
    getPeerNetworkMap env (change a gid f) t vp (getResourcePoliciesMap (change a gid f))
        (Routes.getResourceRoutersMap (change a gid f)) gu =
      getPeerNetworkMap env a t vp (getResourcePoliciesMap a) (Routes.getResourceRoutersMap a)
        gu := by
  have hp : (change a gid f).getPeer = a.getPeer := rfl
  rw [LegacyMap.getPeerNetworkMap, LegacyMap.getPeerNetworkMap, resourcePolicies_change,
    h.getResourceRoutersMap, h.getNetworkResourcesRoutesToSync]
  simp only [h.getPeerConnectionResources, h.getRoutesToSync, validSource_change,
    h.getPeerRoutesFirewallRules, hp,
    h.networkResourceFirewallRules fun _ _ hpo => (policy_of_resource hpo).1]
  rfl

omit h in
/-- Longer lists of zones are other lists. -/
theorem map_filter_eq_iff {α β : Type} {P Q : α → Bool} {xs : List α} (g : α → β)
    (hi : ∀ x ∈ xs, P x → Q x) :
    (xs.filter P).map g = (xs.filter Q).map g ↔ ∀ x ∈ xs, Q x → P x := by
  refine ⟨fun he x hx hq => ?_, fun he => ?_⟩
  · have hs : xs.filter P = (xs.filter Q).filter P := by
      rw [filter_filter]
      refine filter_congr fun y hy => ?_
      have hy' := hi y hy
      cases hp : P y <;> simp_all
    have hl : (xs.filter P).length = (xs.filter Q).length := by
      simpa only [length_map] using congrArg length he
    have hf : xs.filter P = xs.filter Q := by
      rw [hs] at hl
      exact hs.trans (filter_sublist.eq_of_length hl)
    exact (mem_filter.mp (hf ▸ mem_filter.mpr ⟨hx, hq⟩)).2
  · rw [filter_congr fun x hx => Bool.eq_iff_iff.mpr ⟨hi x hx, he x hx⟩]

/-- Every zone that is distributed to the group is distributed to another group of the peer. -/
def ZonesElsewhere (s : DnsAccount) (gid t : String) : Prop :=
  ∀ z ∈ s.zones, z.enabled → z.records ≠ [] → gid ∈ z.distributionGroups →
    ∃ k ∈ z.distributionGroups, k ≠ gid ∧ k ∈ s.getPeerGroups t

omit h in
/-- Other groups keep their members. -/
theorem mem_getPeerGroups_change (hk : k ≠ gid) :
    k ∈ (change a gid f).getPeerGroups t ↔ k ∈ a.getPeerGroups t := by
  have hn : gid ∉ [k] := fun hm => hk (mem_singleton.mp hm).symm
  rw [Account.mem_getPeerGroups, Account.mem_getPeerGroups,
    getGroup_change hn (mem_singleton_self k)]

omit h in
/-- The zones of a peer stay exactly if it stays in or out of the group, or has them from another
    group. -/
theorem zones_change_iff {s : DnsAccount} {fqdn : String → String} :
    filterPeerAppliedZones fqdn s.zones ((change s.toAccount gid f).getPeerGroups t) =
        filterPeerAppliedZones fqdn s.zones (s.getPeerGroups t) ↔
      (gid ∈ (change s.toAccount gid f).getPeerGroups t ↔ gid ∈ s.getPeerGroups t) ∨
        ZonesElsewhere s gid t := by
  have hk : ∀ k, k ≠ gid → (k ∈ (change s.toAccount gid f).getPeerGroups t ↔
      k ∈ s.getPeerGroups t) := fun k => mem_getPeerGroups_change
  rw [filterPeerAppliedZones, filterPeerAppliedZones, ZonesElsewhere]
  generalize (change s.toAccount gid f).getPeerGroups t = after at hk ⊢
  -- one that joins has its zones and perhaps more, and one that leaves has some of them
  by_cases ha : gid ∈ after
  · rw [eq_comm, map_filter_eq_iff _ fun z _ => by grind]
    grind
  · rw [map_filter_eq_iff _ fun z _ => by grind]
    simp only [Bool.and_eq_true, any_eq_true, decide_eq_true_eq]
    by_cases hb : gid ∈ s.getPeerGroups t
    · have hi : ¬ (gid ∈ after ↔ gid ∈ s.getPeerGroups t) := fun hi => ha (hi.mpr hb)
      rw [or_iff_right hi]
      refine forall₂_congr fun z _ => ⟨fun hz he hr hg => ?_, fun hz => ?_⟩
      · obtain ⟨-, k, hk', hka⟩ := hz ⟨⟨he, hr⟩, gid, hg, hb⟩
        have hne : k ≠ gid := fun he => ha (he ▸ hka)
        exact ⟨k, hk', hne, (hk k hne).mp hka⟩
      · grind
    · grind

omit h in
/-- **Members that make no difference.**  If no search finds the group, changing its members
    changes no map, and changes the DNS configuration of a peer exactly if the peer joins or
    leaves the group and a zone that is distributed to the group does not come with another. -/
theorem map_unchanged_iff {s : Store} {fqdn : String → String} {zone : CustomZone}
    (hunused : areGroupChangesAffectPeers s (fun _ => false) [gid] = .ok false) :
    let s' : DnsAccount := { s.toDnsAccount with toAccount := change s.toAccount gid f }
    let rp := getResourcePoliciesMap s.toAccount
    let rr := getResourceRoutersMap s.toAccount
    let rp' := getResourcePoliciesMap s'.toAccount
    let rr' := getResourceRoutersMap s'.toAccount
    LegacyMap.getPeerNetworkMap env s'.toAccount t vp rp' rr' gu =
        LegacyMap.getPeerNetworkMap env s.toAccount t vp rp rr gu ∧
      ∀ nm, LegacyMap.getPeerNetworkMap env s.toAccount t vp rp rr gu = .ok nm →
        (accountDns fqdn s' zone vp env t rp' rr' gu =
            accountDns fqdn s.toDnsAccount zone vp env t rp rr gu ↔
          ((s.getPeer t).isSome → t ∈ vp →
            s.disabledManagementGroups.any (· ∈ s.getPeerGroups t) = false →
            (gid ∈ s'.getPeerGroups t ↔ gid ∈ s.getPeerGroups t) ∨
              ZonesElsewhere s.toDnsAccount gid t)) := by
  simp only [areGroupChangesAffectPeers, isGroupLinkedToDns, isGroupLinkedToPolicy,
    isGroupLinkedToRoute, isGroupLinkedToNetworkRouter, isGroupLinked, mentions, cons_ne_nil,
    Bool.false_eq_true, if_false, any_cons, any_nil, Bool.or_false, Bool.not_false, Bool.true_and,
    Except.ok.injEq, Bool.or_eq_false_iff, any_eq_false, decide_eq_false_iff_not,
    Bool.not_eq_true] at hunused
  obtain ⟨⟨⟨⟨hd, hns⟩, hru⟩, hro⟩, hrt⟩ := hunused
  have ha : Apart s.toAccount gid :=
    ⟨hru, fun r hr => ⟨(hro r hr).1.1, (hro r hr).1.2, (hro r hr).2⟩, hrt⟩
  refine ⟨ha.getPeerNetworkMap, fun nm hnm => ?_⟩
  have hn : ∀ peer, getPeerNSGroups { s.toDnsAccount with
      toAccount := change s.toAccount gid f } peer = getPeerNSGroups s.toDnsAccount peer :=
    fun peer => filter_congr fun g hg => by rw [any_getPeerGroups_change (hns g hg)]
  rw [accountDns, ha.getPeerNetworkMap, accountDns, hnm]
  simp only [Except.map, Except.ok.injEq]
  rw [← @zones_change_iff gid f t s.toDnsAccount fqdn, accountConfig, accountConfig]
  have hgp : (change s.toAccount gid f).getPeer t = s.getPeer t := rfl
  rw [hgp]
  cases hp : s.getPeer t with
  | none => simp
  | some peer =>
    by_cases hv : t ∈ vp
    · simp only [hv, not_true_eq_false, if_false, config, hn, any_getPeerGroups_change hd]
      cases s.disabledManagementGroups.any (· ∈ s.getPeerGroups t) with
      | true => simp
      | false => simp
    · simp [hv]

end

/-- The store with the first peer in its first group. -/
def withMember (s : Store) : DnsAccount :=
  { s.toDnsAccount with toAccount := change s.toAccount "g" (· ++ ["p"]) }

/-- A zone with a record. -/
def hostZone (distributionGroups : List String) : Zone where
  domain := "zone"
  distributionGroups
  records := [{ name := "host", type := .a, content := "10.0.0.1" }]

/-- The new member has the zone from its other group already. -/
theorem zone_from_other_group :
    let s := twoGroups [hostZone ["g", "h"]]
    let s' := withMember s
    accountDns id s' {} ["p", "q"] plainEnv "p" (getResourcePoliciesMap s'.toAccount)
        (getResourceRoutersMap s'.toAccount) ∅ =
      accountDns id s.toDnsAccount {} ["p", "q"] plainEnv "p" (getResourcePoliciesMap s.toAccount)
        (getResourceRoutersMap s.toAccount) ∅ := by
  refine ((map_unchanged_iff rfl).2 _ rfl).mpr fun _ _ _ => .inr fun z hz _ _ _ => ?_
  obtain rfl := mem_singleton.mp hz
  exact ⟨"h", by decide, by decide, by decide⟩

/-- A zone that comes with the group comes with the new member, whom nobody tells. -/
theorem zone_not_sent :
    let s := oneGroup [] [hostZone ["g"]]
    areGroupChangesAffectPeers s (fun _ => false) ["g"] = .ok false ∧
    (accountDns id s.toDnsAccount {} ["p"] plainEnv "p" ∅ ∅ ∅).toOption.map
      (·.accountZones.map (·.domain)) = some [] ∧
    (accountDns id (withMember s) {} ["p"] plainEnv "p" ∅ ∅ ∅).toOption.map
      (·.accountZones.map (·.domain)) = some ["zone"] :=
  ⟨rfl, by decide +kernel, by decide +kernel⟩

end GroupLink

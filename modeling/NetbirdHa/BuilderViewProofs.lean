import NetbirdHa.BuilderRouteProofs

/-! # What the views of the builder hold

The lookups of the builder in terms of the account: the sides of a rule, the
rules that are looked at, the routes and source peers of network resources.
The functions are those of `Account.GetPeerNetworkMap` written a second time,
and these lemmas show where the second writing differs:

* sides are unions of groups, a group named "All" does not end the walk, and
  embedded peers count;
* a peer that a rule names is on its side even if it is the target;
* posture checks of a policy are asked of the target first, on whichever side
  it stands, and disabled rules of the policy are looked at, too;
* a source that a policy names does not make a client of a resource, nor a
  source peer of a router. -/

namespace Builder

open Table Index AccountModel GroupPeers Connection Routes List Option Account

variable {a : IndexedAccount} {g : UserMap} {pol : Policy} {q : String}

/-! ## Sides -/

section

variable {vp : Validated} {t : String} {target x : Peer} {res : Resource}
  {groups checks : List String} {rule : PolicyRule}

/-- The members of groups that count. -/
theorem mem_getPeersFromGroupscached :
    x ∈ getPeersFromGroupscached (idx a g) a vp groups excl checks ↔
      InGroups a.getGroup groups x.id ∧ a.getPeer x.id = some x ∧ x.id ≠ excl ∧
        Usable a vp checks x.id := by
  have hnil : ∀ {q : String} {p : Peer}, a.getPeer q = some p →
      ((checks = [] || a.validatePostureChecksOnPeer checks q) = true ↔
        a.validatePostureChecksOnPeer checks q) := by
    intro q p hq
    rw [Bool.or_eq_true, decide_eq_true_eq]
    refine or_iff_right_of_imp ?_
    rintro rfl
    exact checksOnPeer_eq_true.mpr ⟨p, hq, rfl⟩
  simp only [getPeersFromGroupscached, mem_filterMap, mem_dedup, mem_filter,
    mem_cachedMembers, lookup_globalPeers, Bool.and_eq_true, decide_eq_true_eq, Usable]
  grind [id_of_getPeer]

/-- A side that names one peer. -/
theorem mem_side_direct (h : res.IsPeer) :
    x ∈ (side (idx a g) a vp t res groups checks).1 ↔ a.getPeer res.id = some x := by
  rw [side, if_pos h, mem_toList]

/-- A side that names groups. -/
theorem mem_side_groups (h : ¬ res.IsPeer) : x ∈ (side (idx a g) a vp t res groups checks).1 ↔
    InGroups a.getGroup groups x.id ∧ a.getPeer x.id = some x ∧ x.id ≠ t ∧
      Usable a vp checks x.id := by
  rw [side, if_neg h]
  exact mem_getPeersFromGroupscached

/-- Such a side finds the target among the members. -/
theorem side_groups_found (h : ¬ res.IsPeer) (hg : t ∉ groups) :
    (side (idx a g) a vp t res groups checks).2 ↔ InGroups a.getGroup groups t := by
  rw [side, if_neg h]
  exact isPeerInGroupscached_iff hg

/-- Every listed peer is one of the account. -/
theorem getPeer_of_mem_side (h : x ∈ (side (idx a g) a vp t res groups checks).1) :
    a.getPeer x.id = some x := by
  by_cases hr : res.IsPeer
  · have hx := (mem_side_direct hr).mp h
    rwa [id_of_getPeer hx]
  · exact ((mem_side_groups hr).mp h).2.1

/-- The peers a rule faces are the account's. -/
theorem getPeer_of_mem_facing (h : x ∈ (sides (idx a g) a vp t pol rule).facing) :
    a.getPeer x.id = some x := by
  rcases mem_facing.mp h with ⟨-, h⟩ | ⟨-, h⟩ <;> exact getPeer_of_mem_side h

end

/-! ## Rules -/

/-- The loop over the groups of the peer comes to the policy: an enabled rule of it
    mentions a group of the peer, or names the peer. -/
def Visits (a : Account) (t : String) (pol : Policy) : Prop :=
  ∃ gid ∈ affectedGroups pol, gid ∈ a.getPeerGroups t ∨ (gid = t ∧ Named a t)
deriving Decidable

section

variable {t : String} {rule : PolicyRule}

/-- The rules the builder visits for a peer. -/
theorem mem_visitedRules : (pol, rule) ∈ visitedRules (idx a g) a t ↔
    pol ∈ a.policies ∧ pol.enabled ∧ rule ∈ pol.rules ∧
      a.validatePostureChecksOnPeer pol.sourcePostureChecks t ∧ Visits a t pol := by
  simp only [visitedRules, mem_flatMap, mem_filter, List.mem_map, mem_peerToGroups,
    mem_groupToPolicies, Prod.mk.injEq, Visits]
  grind [listAt_policyToRules]

/-- An active rule that the peer stands in is come to. -/
theorem visits_of_active (hp : (pol, rule) ∈ activeRules a.policies)
    (h : InGroups a.getGroup rule.sources t ∨ InGroups a.getGroup rule.destinations t ∨
      t ∈ namedPeers rule) : Visits a t pol := by
  obtain ⟨-, -, hr, he⟩ := mem_activeRules.mp hp
  rcases h with ⟨gid, hgi, hg⟩ | ⟨gid, hgi, hg⟩ | hn
  · exact ⟨gid, mem_affectedGroups.mpr ⟨rule, hr, he, .inl hgi⟩, .inl (mem_getPeerGroups.mpr hg)⟩
  · exact ⟨gid, mem_affectedGroups.mpr ⟨rule, hr, he, .inr (.inl hgi)⟩,
      .inl (mem_getPeerGroups.mpr hg)⟩
  · exact ⟨t, mem_affectedGroups.mpr ⟨rule, hr, he, .inr (.inr hn)⟩,
      .inr ⟨rfl, (pol, rule), hp, hn⟩⟩

end

/-! ## Network resources -/

/-- The policies of a resource. -/
abbrev policiesOf (a : Account) (rid : String) : List Policy :=
  listAt (getResourcePoliciesMap a) rid

/-- The routers of a resource. -/
abbrev routersOf (a : Account) (res : NetworkResource) : GoMap NetworkRouter :=
  routingPeers (getResourceRoutersMap a) res

section

variable {env : Env} {vp : Validated} {p : Peer} {res : NetworkResource}

/-- The routers are indexed as they are. -/
theorem indexed_routers : (idx a g).resourceRouters = getResourceRoutersMap a := rfl

/-- So are the policies of the resources. -/
theorem indexed_policies : (idx a g).resourcePolicies = getResourcePoliciesMap a := rfl

/-- A router gets its own route and lets the sources in. -/
theorem resourceForPeer_router (hn : policiesOf a res.id ≠ [])
    (h : (routersOf a res).lookup p.id = some router) : resourceForPeer env (idx a g) a vp p res =
      { isRouter := true
        routes := (createNetworkResourceRoutes env (idx a g) res p.id
          router (policiesOf a res.id)).toList
        sourcePeers := (policiesOf a res.id).flatMap (policySources (idx a g) a vp p) } := by
  simp only [resourceForPeer, indexed_routers, indexed_policies, filter_enabled, h, hn, if_false]

/-- The policies let the peer in that does not route the resource. -/
def BuilderClient (a : Account) (g : GoMap (List String)) (p : Peer) (res : NetworkResource) :
    Prop :=
  (routersOf a res).lookup p.id = none ∧
    ∃ pol ∈ policiesOf a res.id, letsIn (buildGlobalIndexes a g) a p pol

/-- A client gets the routes of all routers. -/
theorem resourceForPeer_client (h : BuilderClient a g p res) :
    resourceForPeer env (idx a g) a vp p res =
      { routes := (routersOf a res).entries.flatMap (fun e =>
          (createNetworkResourceRoutes env (idx a g) res e.1 e.2
            (policiesOf a res.id)).toList) } := by
  obtain ⟨hn, pol, hp, hi⟩ := h
  have hne : policiesOf a res.id ≠ [] := ne_nil_of_mem hp
  have ha : (policiesOf a res.id).any (letsIn (idx a g) a p) = true :=
    any_eq_true.mpr ⟨pol, hp, hi⟩
  have hen : (routersOf a res).entries.filter (·.2.enabled) = (routersOf a res).entries :=
    filter_eq_self.mpr fun e he => enabled_of_lookup (AList.mem_lookup_iff.mpr he)
  have hr : ((Option.map AList.entries ((getResourceRoutersMap a).lookup
      res.networkID)).getD []).filter (·.2.enabled) = (routersOf a res).entries :=
    (congrArg _ (entries_routers res)).trans hen
  simp only [resourceForPeer, indexed_routers, indexed_policies, filter_enabled, hn, hne,
    if_false, hr, ha, if_true]

/-- Anyone else gets nothing. -/
theorem resourceForPeer_neither (hn : (routersOf a res).lookup p.id = none)
    (h : ¬ BuilderClient a g p res) : resourceForPeer env (idx a g) a vp p res = {} := by
  have ha : ¬ (policiesOf a res.id).any (letsIn (idx a g) a p) = true := by
    intro ha
    obtain ⟨pol, hp, hi⟩ := any_eq_true.mp ha
    exact h ⟨hn, pol, hp, hi⟩
  simp only [resourceForPeer, indexed_routers, indexed_policies, filter_enabled, hn, ha,
    Bool.false_eq_true, if_false, ite_self]

/-- A resource without a policy has no routes. -/
theorem resourceForPeer_nil (h : policiesOf a res.id = []) :
    resourceForPeer env (idx a g) a vp p res = {} := by
  exact if_pos h

/-- The route of a resource at one router. -/
theorem mem_createRoutes :
    r ∈ (createNetworkResourceRoutes env (idx a g) res q router (policiesOf a res.id)).toList ↔
      policiesOf a res.id ≠ [] ∧
        ∃ pq, a.getPeer q = some pq ∧ toRoute env res pq router = some r := by
  rw [mem_toList, createNetworkResourceRoutes]
  by_cases hn : policiesOf a res.id = []
  · simp [hn]
  · rw [if_neg hn, lookup_globalPeers, bind_eq_some_iff]
    exact (and_iff_right hn).symm

theorem exists_globalResources {P : NetworkResource → Prop} :
    (∃ e ∈ (idx a g).globalResources.entries, P e.2) ↔
      ∃ res ∈ a.networkResources, res.enabled ∧ P res := by
  constructor
  · rintro ⟨e, he, hp⟩
    obtain ⟨hr, hen⟩ := mem_globalResources.mp ⟨e, he, rfl⟩
    exact ⟨e.2, hr, hen, hp⟩
  · rintro ⟨res, hr, hen, hp⟩
    obtain ⟨e, he, rfl⟩ := mem_globalResources.mpr ⟨hr, hen⟩
    exact ⟨e, he, hp⟩

/-- The routes to resources that the builder gives a peer. -/
theorem mem_resourceRoutes : r ∈ resourceRoutes env (idx a g) a vp p ↔
    ∃ res ∈ a.networkResources, res.enabled ∧ policiesOf a res.id ≠ [] ∧
      ∃ q router pq, (routersOf a res).lookup q = some router ∧
        a.getPeer q = some pq ∧ toRoute env res pq router = some r ∧
          (q = p.id ∨ BuilderClient a g p res) := by
  simp only [resourceRoutes, getNetworkResourcesForPeer, flatMap_map, mem_flatMap]
  refine (exists_globalResources
    (P := fun res => r ∈ (resourceForPeer env _ a vp p res).routes)).trans ?_
  refine exists_congr fun res => and_congr_right fun _ => and_congr_right fun _ => ?_
  by_cases hn : policiesOf a res.id = []
  · simp [resourceForPeer_nil hn, hn]
  rw [and_iff_right hn]
  cases hl : (routersOf a res).lookup p.id with
  | some router =>
    rw [resourceForPeer_router hn hl, mem_createRoutes, and_iff_right hn]
    constructor
    · rintro ⟨pq, hp, htr⟩
      exact ⟨p.id, router, pq, hl, hp, htr, .inl rfl⟩
    · rintro ⟨q, router', pq, hl', hp, htr, rfl | hc⟩
      · cases hl.symm.trans hl'
        exact ⟨pq, hp, htr⟩
      · cases hl.symm.trans hc.1
  | none =>
    by_cases hc : BuilderClient a g p res
    · simp [-mem_toList, resourceForPeer_client hc, mem_createRoutes, hn, hc,
        ← AList.mem_lookup_iff]
    · simp only [resourceForPeer_neither hl hc, not_mem_nil, hc, or_false, false_iff]
      rintro ⟨q, router, pq, hl', -, -, rfl⟩
      cases hl.symm.trans hl'

/-- The peers that the builder takes for sources of a policy of a resource. -/
theorem mem_policySources : q ∈ policySources (idx a g) a vp p pol ↔
    ((firstRule pol).sourceResource.IsPeer ∧ q = p.id) ∨ (¬ (firstRule pol).sourceResource.IsPeer ∧
        InGroups a.getGroup (sourceGroups pol) q ∧ Usable a vp pol.sourcePostureChecks q) := by
  rw [policySources]
  by_cases hd : (firstRule pol).sourceResource.IsPeer
  · simp [hd]
  simp only [hd, if_false, List.mem_map, mem_getPeersFromGroupscached, false_and, false_or,
    not_false_eq_true, true_and]
  constructor
  · rintro ⟨x, ⟨hi, -, -, hu⟩, rfl⟩
    exact ⟨hi, hu⟩
  · rintro ⟨hi, hu⟩
    obtain ⟨x, hx, -⟩ := checksOnPeer_eq_true.mp hu.2
    obtain rfl := id_of_getPeer hx
    exact ⟨x, ⟨hi, hx, a.peerIDs_ne x (Keyed.mem_of_get hx), hu⟩, rfl⟩

/-- The source peers that the builder gives a router. -/
theorem mem_builder_sourcePeers :
    q ∈ (getNetworkResourcesForPeer env (idx a g) a vp p).sourcePeers ↔
      ∃ res ∈ a.networkResources, res.enabled ∧
        ((routersOf a res).lookup p.id).isSome ∧ ∃ pol ∈ policiesOf a res.id,
          q ∈ policySources (idx a g) a vp p pol := by
  simp only [getNetworkResourcesForPeer, mem_dedup, flatMap_map, mem_flatMap]
  refine (exists_globalResources
    (P := fun res => q ∈ (resourceForPeer env _ a vp p res).sourcePeers)).trans ?_
  refine exists_congr fun res => and_congr_right fun _ => and_congr_right fun _ => ?_
  by_cases hn : policiesOf a res.id = []
  · simp [resourceForPeer_nil hn, hn]
  cases hl : (routersOf a res).lookup p.id with
  | some router => simp [resourceForPeer_router hn hl]
  | none =>
    by_cases hc : BuilderClient a g p res
    · simp [resourceForPeer_client hc]
    · simp [resourceForPeer_neither hl hc]

/-- A peer with source peers is a router. -/
theorem builder_isRouter (h : q ∈ (getNetworkResourcesForPeer env (idx a g) a vp p).sourcePeers) :
    (getNetworkResourcesForPeer env (idx a g) a vp p).isRouter := by
  obtain ⟨res, hr, hen, hs, pol, hp, -⟩ := mem_builder_sourcePeers.mp h
  obtain ⟨e, he, rfl⟩ := mem_globalResources.mpr ⟨hr, hen⟩
  obtain ⟨router, hl⟩ := isSome_iff_exists.mp hs
  refine any_eq_true.mpr ⟨_, mem_map.mpr ⟨e, he, rfl⟩, ?_⟩
  rw [resourceForPeer_router (ne_nil_of_mem hp) hl]

end

end Builder

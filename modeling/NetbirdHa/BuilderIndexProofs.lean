import NetbirdHa.BuildProofs

/-! # The indexes of the builder

What the indexes say about the account they were built from.  Peers, groups
and routes are found as in the account; a peer that a rule names counts as a
group of its own, under its own ID.

Much of the cache goes by IDs alone, so the account has to tell its objects
apart by them (`IndexedAccount`). -/

namespace Builder

open Table Index AccountModel GroupPeers FirewallRules Connection Routes List Account

/-- The IDs that rules and routes use for groups, and those of the groups. -/
def usedGroupIDs (a : Account) : List String :=
  a.groups.entries.map Group.id ++
    (a.policies.flatMap Policy.rules).flatMap (fun rule => rule.sources ++ rule.destinations) ++
    a.routes.entries.flatMap fun r => r.peerGroups ++ r.groups

/-- Where two rules give an address the same key of the generator, they give it the same
    firewall rules. -/
def KeysApart (rules : List PolicyRule) (peers : List Peer) : Prop :=
  ∀ rule ∈ rules, ∀ rule' ∈ rules, ∀ p ∈ peers, ∀ p' ∈ peers, ∀ dir dir',
    ruleKey rule p.ip dir = ruleKey rule' p'.ip dir' →
      ∀ env target, peerRules env target rule p.ip dir = peerRules env target rule' p'.ip dir'

/-- An account whose index keys do not collide.  Policies and resources are told by their IDs, and
    rules by the keys of the generator; so policies that are injected for proxies count, whatever
    the form of their IDs.  IDs of peers and routes are xids: without colons, and not shared by
    objects of different kinds.  Peers have IPv4 addresses, ports are numbers.  `Route.PeerID` is
    not stored, and a route has a peer or peer groups, never both (`validateRoute`). -/
structure IndexedAccount extends StoredAccount where
  policyIDs_nodup : (policies.map Policy.id).Nodup
  ruleKeys : KeysApart (policies.flatMap Policy.rules) peers.entries
  resourceIDs_nodup : (networkResources.map NetworkResource.id).Nodup
  ports_colon : ∀ rule ∈ policies.flatMap Policy.rules, ∀ port ∈ rule.ports, ':' ∉ port.toList
  peerIDs_colon : ∀ p ∈ peers.entries, ':' ∉ p.id.toList
  routeIDs_colon : ∀ r ∈ routes.entries, ':' ∉ r.id.toList
  ips_plain : ∀ p ∈ peers.entries, ':' ∉ p.ip.toList ∧ ',' ∉ p.ip.toList
  peerIDs_kind : ∀ p ∈ peers.entries, p.id ∉ usedGroupIDs toAccount
  routeIDs_kind : ∀ r ∈ routes.entries, ∀ res ∈ networkResources, r.id ≠ res.id
  peerIDs_ne : ∀ p ∈ peers.entries, p.id ≠ ""
  routes_peerID : ∀ r ∈ routes.entries, r.peerID = ""
  routes_served : ∀ r ∈ routes.entries, r.peer = "" ∨ r.peerGroups = []

instance : Coe IndexedAccount StoredAccount := ⟨IndexedAccount.toStoredAccount⟩

/-- Some active rule names the peer. -/
def Named (a : Account) (q : String) : Prop :=
  ∃ pr ∈ activeRules a.policies, q ∈ namedPeers pr.2
deriving Decidable

variable {groups : List String} {rule : PolicyRule} {pol : Policy} {p : Peer}

section

variable {a : Account} {g : UserMap} {q gid : String}

/-- The peers are indexed as they are. -/
theorem lookup_globalPeers : (idx a g).globalPeers.lookup q = a.getPeer q := by
  refine Option.ext fun p => ?_
  refine (lookup_setAll_empty a.peers.nodup).trans ?_
  grind [Account.getPeer, Keyed.get_eq_some]

/-- The groups are indexed with their peers. -/
theorem lookup_groupToPeers :
    (idx a g).groupToPeers.lookup gid = (a.getGroup gid).map Group.peers := by
  refine Option.ext fun peers => ?_
  refine (lookup_setAll_empty a.groups.nodup).trans ?_
  simp [Account.getGroup, Keyed.get_eq_some, and_assoc]

/-- The members of groups, as cached. -/
theorem mem_cachedMembers :
    q ∈ groups.flatMap (listAt (idx a g).groupToPeers) ↔ InGroups a.getGroup groups q := by
  rw [mem_flatMap]
  refine exists_congr fun gid => and_congr_right fun _ => ?_
  rw [listAt, lookup_groupToPeers]
  cases a.getGroup gid <;> simp

theorem groupMembers_cached :
    groupMembers (cachedGroup (idx a g)) groups = groupMembers a.getGroup groups := by
  refine flatMap_congr fun gid _ => ?_
  rw [cachedGroup, lookup_groupToPeers]
  cases a.getGroup gid <;> rfl

theorem mem_namedPeers : q ∈ namedPeers rule ↔
    (rule.sourceResource.IsPeer ∧ q = rule.sourceResource.id) ∨
      (rule.destinationResource.IsPeer ∧ q = rule.destinationResource.id) := by
  rw [namedPeers, mem_append, mem_ite_nil_right, mem_ite_nil_right, mem_singleton, mem_singleton]

/-- The groups of a peer, and the peer itself if a rule names it. -/
theorem mem_peerToGroups :
    gid ∈ listAt (idx a g).peerToGroups q ↔ gid ∈ a.getPeerGroups q ∨ (gid = q ∧ Named a q) := by
  refine mem_listAt_groupBy.trans ?_
  grind [peerGroupPairs, Account.getPeerGroups, Named]

/-- The groups a policy is about. -/
theorem mem_affectedGroups : gid ∈ affectedGroups pol ↔ ∃ rule ∈ pol.rules, rule.enabled ∧
    (gid ∈ rule.sources ∨ gid ∈ rule.destinations ∨ gid ∈ namedPeers rule) := by
  simp [affectedGroups, mem_dedup, and_assoc]

/-- A group is indexed with the enabled policies about it. -/
theorem mem_groupToPolicies : pol ∈ listAt (idx a g).groupToPolicies gid ↔
    pol ∈ a.policies ∧ pol.enabled ∧ gid ∈ affectedGroups pol := by
  refine mem_listAt_groupBy.trans ?_
  grind [groupPolicyPairs]

/-- A group is indexed with the enabled routes it serves. -/
theorem mem_groupToRoutes : r ∈ listAt (idx a g).groupToRoutes gid ↔
    r ∈ a.routes.entries ∧ r.enabled ∧ gid ∈ r.peerGroups := by
  refine mem_listAt_groupBy.trans ?_
  grind [groupRoutePairs]

/-- The routes that name a peer of the account. -/
theorem mem_peerToRoutes (hp : a.getPeer q = some p) (hq : q ≠ "") :
    r ∈ listAt (idx a g).peerToRoutes q ↔ r ∈ a.routes.entries ∧ r.enabled ∧ r.peer = q := by
  refine mem_listAt_groupBy.trans ?_
  simp only [peerRoutePairs, mem_flatMap, mem_filter, mem_ite_nil_right,
    Option.mem_toList, Option.map_eq_some_iff, Prod.mk.injEq]
  grind [id_of_getPeer]

end

section

variable {a : IndexedAccount} {g : UserMap} {q : String}

/-- An enabled policy is indexed with its rules. -/
theorem listAt_policyToRules (hp : pol ∈ a.policies) (he : pol.enabled) :
    listAt (idx a g).policyToRules pol.id = pol.rules := by
  have hn : ((a.policies.filter (·.enabled)).map Policy.id).Nodup :=
    a.policyIDs_nodup.sublist (filter_sublist.map _)
  have hl : (idx a g).policyToRules.lookup pol.id = some pol.rules :=
    (lookup_setAll_empty hn).mpr ⟨pol, mem_filter.mpr ⟨hp, he⟩, rfl, rfl⟩
  rw [listAt, hl]
  rfl

/-- The resources that are kept are the enabled ones. -/
theorem mem_globalResources : (∃ e ∈ (idx a g).globalResources.entries, e.2 = res) ↔
    res ∈ a.networkResources ∧ res.enabled := by
  have hn : ((a.networkResources.filter (·.enabled)).map NetworkResource.id).Nodup :=
    a.resourceIDs_nodup.sublist (filter_sublist.map _)
  have hl : ∀ rid, (idx a g).globalResources.lookup rid = some res ↔
      res ∈ a.networkResources.filter (·.enabled) ∧ res.id = rid := by
    intro rid
    refine (lookup_setAll_empty hn).trans ?_
    grind
  rw [← mem_filter]
  constructor
  · rintro ⟨⟨rid, x⟩, he, rfl⟩
    exact ((hl rid).mp (AList.mem_lookup_iff.mpr he)).1
  · intro hr
    exact ⟨⟨res.id, res⟩, AList.mem_lookup_iff.mp ((hl res.id).mpr ⟨hr, rfl⟩), rfl⟩

/-- No peer is named like a group. -/
theorem IndexedAccount.notMem_usedGroupIDs (a : IndexedAccount) (hp : a.getPeer q = some p) :
    q ∉ usedGroupIDs a := by
  have hi := id_of_getPeer hp
  rw [← hi]
  exact a.peerIDs_kind p (Keyed.mem_of_get hp)

theorem notMem_sources (hp : a.getPeer q = some p) (hpo : pol ∈ a.policies)
    (hr : rule ∈ pol.rules) : q ∉ rule.sources ∧ q ∉ rule.destinations := by
  have hn := a.notMem_usedGroupIDs hp
  grind [usedGroupIDs]

/-- A peer is in groups for the cache if it is a member. -/
theorem isPeerInGroupscached_iff (hg : q ∉ groups) :
    isPeerInGroupscached groups (listAt (idx a g).peerToGroups q) ↔
      InGroups a.getGroup groups q := by
  grind [isPeerInGroupscached, mem_peerToGroups, mem_getPeerGroups, InGroups]

end

end Builder

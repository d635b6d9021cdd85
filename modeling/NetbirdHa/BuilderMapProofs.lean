import NetbirdHa.BuilderViewProofs

/-! # The maps of a new builder

A map is read back from IDs.  For a new builder of an account this loses
nothing: connected peers, firewall rules and routes of a map are those of the
peer's view (`map_peers`, `map_firewallRules`, `map_routes`).  The IDs of route
firewall rules do not tell as much, so none of the peer's may be shared
(`NoSharedID`). -/

namespace Builder

open Table AccountModel Connection Routes LegacyMap List Account

section

variable {env : Env} {a : IndexedAccount} {g : UserMap} {vp : Validated} {p : Peer}

/-- The peers that policies connect the target to, for the builder. -/
theorem mem_builder_aclPeers : x ∈ (getPeerConnectionResources env (idx a g) a vp p).gen.peers ↔
    ∃ pr ∈ visitedRules (idx a g) a p.id, x ∈ (sides (idx a g) a vp p.id pr.1 pr.2).facing := by
  rw [getPeerConnectionResources, foldl_connectRule_gen, mem_foldl_generateRule_peers
    (U := fun q => a.getPeer q.id = some q) (fun _ _ => eq_of_getPeer) _ _
    (fun _ _ _ hq => getPeer_of_mem_facing hq) (fun _ h => absurd h not_mem_nil)]
  exact or_iff_right not_mem_nil

/-- **The connected peers of a view**: those that policies give, and what resources add. -/
theorem mem_connectedPeers : x ∈ connectedPeers env (idx a g) a vp p ↔
    x ∈ (getPeerConnectionResources env (idx a g) a vp p).gen.peers ∨
      (a.getPeer x.id = some x ∧ x.id ≠ p.id ∧
        (x.id ∈ (getNetworkResourcesForPeer env (idx a g) a vp p).sourcePeers ∨
          x.id ∈ (resourceRoutes env (idx a g) a vp p).map Route.peerID)) := by
  rw [connectedPeers, mem_addNetworksRoutingPeers]
  simp only [lookup_globalPeers]
  constructor
  · rintro (hx | ⟨q, hq, hn, -, hx⟩)
    · exact .inl hx
    · obtain rfl := id_of_getPeer hx
      exact .inr ⟨hx, hn, hq.imp_left fun hq => hq.2⟩
  · rintro (hx | ⟨hx, hn, hq⟩)
    · exact .inl hx
    · by_cases ha : x ∈ (getPeerConnectionResources env (idx a g) a vp p).gen.peers
      · exact .inl ha
      refine .inr ⟨x.id, hq.imp_left fun hq => ⟨builder_isRouter hq, hq⟩, hn, ?_, hx⟩
      intro y hy hi
      rw [append_nil] at hy
      obtain ⟨pr, -, hf⟩ := mem_builder_aclPeers.mp hy
      rw [eq_of_getPeer (getPeer_of_mem_facing hf) hx hi] at hy
      exact ha hy

theorem getPeer_of_mem_connectedPeers (hx : x ∈ connectedPeers env (idx a g) a vp p) :
    a.getPeer x.id = some x := by
  rcases mem_connectedPeers.mp hx with hx | ⟨hx, -⟩
  · obtain ⟨pr, -, hx⟩ := mem_builder_aclPeers.mp hx
    exact getPeer_of_mem_facing hx
  · exact hx

/-- The rule of every firewall rule is one of the account, and its address that of a peer. -/
theorem separable_viewRules (hr : r ∈ viewRules env (idx a g) a vp p) : Separable r := by
  rw [viewRules, getPeerConnectionResources, foldl_connectRule_gen,
    foldl_generateRule_eq_steps] at hr
  rcases rules_foldl_imp _ _ hr with hr | ⟨x, hx, hr⟩
  · cases hr
  obtain ⟨⟨pol, rule⟩, hv, hx⟩ := mem_flatMap.mp hx
  obtain ⟨hpo, -, hru, -⟩ := mem_visitedRules.mp hv
  obtain ⟨hx1, hx⟩ := mem_genSteps.mp hx
  have hm : rule ∈ a.policies.flatMap Policy.rules := mem_flatMap.mpr ⟨pol, hpo, hru⟩
  have hp : a.getPeer x.2.2.id = some x.2.2 := by
    rcases hx with ⟨hx, -⟩ | ⟨hx, -⟩
    · exact getPeer_of_mem_facing (mem_append_left _ hx)
    · exact getPeer_of_mem_facing (mem_append_right _ hx)
  refine separable_of_mem hr (a.ips_plain x.2.2 (Keyed.mem_of_get hp)).1 ?_
  rw [hx1]
  exact a.ports_colon rule hm

/-- Only a peer of the account has routes. -/
theorem origin_of_mem_routing (hr : r ∈ (getRoutingPeerRoutes (idx a g) q).1) : Origin env a r := by
  grind [getRoutingPeerRoutes, lookup_globalPeers, id_of_getPeer, mem_getRoutingPeerRoutes, Origin]

/-- Every route of a view has an origin. -/
theorem origin_of_mem_viewRoutes (hr : r ∈ viewRoutes env (idx a g) a vp p) : Origin env a r := by
  rcases mem_append.mp hr with hr | hr
  · rcases mem_append.mp hr with hr | hr
    · exact origin_of_mem_routing (mem_filter.mp hr).1
    · obtain ⟨q, -, hr⟩ := mem_flatMap.mp hr
      exact origin_of_mem_routing (mem_filter.mp (mem_filter.mp hr).1).1
  grind [mem_resourceRoutes, id_of_getPeer, Origin]

end

/-- No route firewall rule of the account shares its ID with one of the target. -/
def NoSharedID (env : Env) (a : Account) (g : GoMap (List String)) (vp : Validated)
    (tp : Peer) : Prop :=
  ∀ x ∈ routeRules env (buildGlobalIndexes a g) a vp tp,
    ∀ p, a.getPeer p.id = some p → ∀ y ∈ routeRules env (buildGlobalIndexes a g) a vp p,
      generateRouteFirewallRuleID x = generateRouteFirewallRuleID y → x = y

section

variable {env : Env} {a : IndexedAccount} {g : UserMap} {vp vp' : Validated}
  {t : String} {tp : Peer}

/-- The map of a peer of the account is assembled from its views. -/
theorem map_eq_assemble (ht : a.getPeer t = some tp) : ∃ c ssh, indexes c = indexes (idx a g) ∧
    (∃ done, Built env a vp (idx a g) done c ∧ tp.id ∈ done) ∧
    getPeerNetworkMap env (newNetworkMapBuilder env a vp g) t vp' = assembleNetworkMap env c a vp'
        (aclViewOf env (idx a g) a vp tp) (routesViewOf env (idx a g) a vp tp) ssh := by
  obtain rfl := id_of_getPeer ht
  obtain ⟨done, hd, hb⟩ := built_initialBuild env a vp g
  refine ⟨initialBuild env a vp g, (initialBuild env a vp g).peerSSH.lookup tp.id, hb.indexes,
    ⟨done, hb, hd tp ht⟩, ?_⟩
  rw [getPeerNetworkMap]
  simp only [newNetworkMapBuilder, ht, hb.acl tp ht (hd tp ht), hb.views tp ht (hd tp ht)]

/-- A peer that the account does not have gets an empty map. -/
theorem map_of_missing (ht : a.getPeer t = none) :
    getPeerNetworkMap env (newNetworkMapBuilder env a vp g) t vp' = { network := a.network } := by
  simp only [getPeerNetworkMap, newNetworkMapBuilder, ht]

section

variable (ht : a.getPeer t = some tp)

include ht

/-- **The peers of a map**: the connected ones that are validated. -/
theorem map_peers : (getPeerNetworkMap env (newNetworkMapBuilder env a vp g) t vp').peers =
      ((connectedPeers env (idx a g) a vp tp).filter
        (·.id ∈ vp')).filter (!a.settings.peerExpired env ·) ∧
    (getPeerNetworkMap env (newNetworkMapBuilder env a vp g) t vp').offlinePeers =
      ((connectedPeers env (idx a g) a vp tp).filter
        (·.id ∈ vp')).filter (a.settings.peerExpired env ·) := by
  obtain ⟨c, ssh, hi, -, he⟩ := @map_eq_assemble env a g vp vp' t tp ht
  have hp : c.globalPeers = (idx a g).globalPeers := by
    show (indexes c).globalPeers = _
    rw [hi]
    rfl
  have hli : ∀ l : List Peer, (∀ x ∈ l, a.getPeer x.id = some x) →
      ((l.map Peer.id).filter (· ∈ vp')).filterMap c.globalPeers.lookup =
        l.filter (·.id ∈ vp') := by
    intro l hl
    rw [filter_map, filterMap_map]
    conv_rhs => rw [← filterMap_some (l := l.filter (·.id ∈ vp'))]
    refine filterMap_congr fun x hx => ?_
    rw [Function.comp_apply, hp, lookup_globalPeers]
    exact hl x (mem_filter.mp hx).1
  rw [he]
  simp only [assembleNetworkMap, aclViewOf, hli _ fun x hx => getPeer_of_mem_connectedPeers hx,
    and_self]

/-- **The firewall rules of a map** are those of the view. -/
theorem map_firewallRules :
    (getPeerNetworkMap env (newNetworkMapBuilder env a vp g) t vp').firewallRules =
      viewRules env (idx a g) a vp tp := by
  obtain ⟨c, ssh, -, ⟨done, hb, hd⟩, he⟩ := @map_eq_assemble env a g vp vp' t tp ht
  obtain rfl := id_of_getPeer ht
  rw [he]
  refine hb.rules.resolve ?_ (fun r hr => hr) (hb.stored tp ht hd).1
  rintro r r' hr ⟨p, -, hr'⟩ hi
  exact generateFirewallRuleID_inj (separable_viewRules hr) (separable_viewRules hr') hi

/-- **The routes of a map** are those of the view. -/
theorem map_routes : (getPeerNetworkMap env (newNetworkMapBuilder env a vp g) t vp').routes =
    ownRoutes (idx a g) tp.id ++
      resourceRoutes env (idx a g) a vp tp ++ viewInherited env (idx a g) a vp tp := by
  obtain ⟨c, ssh, -, ⟨done, hb, hd⟩, he⟩ := @map_eq_assemble env a g vp vp' t tp ht
  obtain rfl := id_of_getPeer ht
  have hm : ∀ r, r ∈ ownRoutes (idx a g) tp.id ++
        resourceRoutes env (idx a g) a vp tp ++ viewInherited env (idx a g) a vp tp →
      r ∈ viewRoutes env (idx a g) a vp tp := by
    intro r hr
    rcases mem_append.mp hr with hr | hr
    · rcases mem_append.mp hr with hr | hr
      · exact mem_append_left _ (mem_append_left _ hr)
      · exact mem_append_right _ hr
    · exact mem_append_left _ (mem_append_right _ hr)
  have hi : ∀ r r', r ∈ viewRoutes env (idx a g) a vp
      tp → (∃ p, a.getPeer p.id = some p ∧ r' ∈ viewRoutes env (idx a g) a vp p) →
      r.id = r'.id → r = r' := by
    rintro r r' hr ⟨p, -, hr'⟩ hid
    exact origin_inj (origin_of_mem_viewRoutes hr) (origin_of_mem_viewRoutes hr') hid
  have hre := hb.routes.resolve hi hm fun r hr => (hb.stored tp ht hd).2.1 r (hm r hr)
  rw [he, ← hre]
  simp [assembleNetworkMap, routesViewOf]

end

/-- **The route firewall rules of a map** are those of the view, if no IDs are shared. -/
theorem map_routesFirewallRules (hs : NoSharedID env a g vp tp) (ht : a.getPeer t = some tp) :
    (getPeerNetworkMap env (newNetworkMapBuilder env a vp g) t vp').routesFirewallRules =
      routeRules env (idx a g) a vp tp := by
  obtain ⟨c, ssh, -, ⟨done, hb, hd⟩, he⟩ := @map_eq_assemble env a g vp vp' t tp ht
  obtain rfl := id_of_getPeer ht
  rw [he]
  refine hb.routeRules.resolve ?_ (fun r hr => hr) (hb.stored tp ht hd).2.2
  rintro r r' hr ⟨p, hp, hr'⟩ hi
  exact hs r hr p hp r' hr' hi

end

end Builder

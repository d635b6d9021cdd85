import NetbirdHa.ResourceAgreementProofs

/-! # Routes: the components and the account agree

Routes come from the target itself, from the peers it connects to, and from
network resources.  The components know all routes and the groups they list,
so they find the account's routes as soon as they connect to the account's
peers (`same_routes`).

Route firewall rules are another matter: the components keep the groups of the
policies that lead to an access control group, but not the peers in them. -/

namespace Agreement

open Table AccountModel Connection Routes Components Calculate List

/-! ## Routes of a routing peer -/

/-- The routes of a peer depend on which of the routes' peer groups hold it. -/
theorem routeCandidates_congr (h : ∀ gid ∈ r.peerGroups,
      (∃ g, getGroup gid = some g ∧ q ∈ g.peers) ↔ ∃ g, getGroup' gid = some g ∧ q ∈ g.peers) :
    routeCandidates getGroup q r = routeCandidates getGroup' q r := by
  rw [routeCandidates]
  congr 1
  refine filterMap_congr fun gid hgi => ?_
  grind

section

variable {env : Env} {a : Account} {vp : Validated} {rp : PolicyMap} {rr : Routers} {t q : String}
  {c : NetworkMapComponents} {p : Peer} (k : Knows a vp rp rr t c)

include k

/-- The members of a group for the components: the known ones, if the group is known. -/
theorem mem_groupInfo : (∃ g', getGroupInfo c gid = some g' ∧ q ∈ g'.peers) ↔
    KnownGroup a vp rp rr t gid ∧
      (∃ g, a.getGroup gid = some g ∧ q ∈ g.peers) ∧ Known a vp rp rr t q := by
  constructor
  · rintro ⟨g', hg', hq⟩
    obtain ⟨hgi, g, hg, -, rfl⟩ := (k.groups gid g').mp hg'
    obtain ⟨hq, hk⟩ := (mem_cutGroup k).mp hq
    exact ⟨hgi, ⟨g, hg, hq⟩, hk⟩
  · rintro ⟨hgi, ⟨g, hg, hq⟩, hk⟩
    have hc := (mem_cutGroup k).mpr ⟨hq, hk⟩
    exact ⟨_, (k.groups gid _).mpr ⟨hgi, g, hg, ne_nil_of_mem hc, rfl⟩, hc⟩

/-- Both find the same routes for a known peer; the disabled ones may carry another key. -/
theorem routingPeerRoutes_known (env : Env) (hp : a.getPeer q = some p)
    (hq : Known a vp rp rr t q) :
    (Calculate.getRoutingPeerRoutes c q).1 = (LegacyMap.getRoutingPeerRoutes a q).1 ∧
      (Calculate.getRoutingPeerRoutes c q).2.map (getHAUniqueID env) =
        (LegacyMap.getRoutingPeerRoutes a q).2.map (getHAUniqueID env) := by
  have hi : getPeerOrRouter c q = some p := by
    rw [getPeerOrRouter, (getPeerInfo_eq_some k).mpr ⟨hq, hp⟩]
    rfl
  have hc : c.routes.flatMap (routeCandidates (getGroupInfo c) q) =
      a.routes.entries.flatMap (routeCandidates a.getGroup q) := by
    rw [k.routes]
    refine flatMap_congr fun r hr => routeCandidates_congr fun gid hg => ?_
    have hk : KnownGroup a vp rp rr t gid :=
      .inl (.inr (.inl ⟨r, hr, mem_append_left _ (mem_append_right _ hg)⟩))
    rw [mem_groupInfo k]
    exact ⟨fun h => h.2.1, fun h => ⟨hk, h, hq⟩⟩
  simp only [Calculate.getRoutingPeerRoutes, hi, LegacyMap.getRoutingPeerRoutes, hp,
    routingPeerRoutes, hc, map_map, true_and]
  refine map_congr_left fun r _ => ?_
  rfl

theorem mem_getPeerGroups : gid ∈ Calculate.getPeerGroups c t ↔ gid ∈ a.getPeerGroups t := by
  rw [Account.mem_getPeerGroups, Calculate.getPeerGroups, mem_filter]
  constructor
  · rintro ⟨-, h⟩
    cases hg' : getGroupInfo c gid with
    | none => simp [hg'] at h
    | some g' =>
      simp only [hg', decide_eq_true_eq] at h
      obtain ⟨-, g, hg, -, rfl⟩ := (k.groups gid g').mp hg'
      exact ⟨g, hg, ((mem_cutGroup k).mp h).1⟩
  · rintro ⟨g, hg, ht⟩
    obtain ⟨g', hg', ht'⟩ := (keeps_target k).kept gid g hg ht
    refine ⟨?_, by simp [hg', ht']⟩
    have hl := Option.join_eq_some_iff.mp hg'
    exact AList.mem_keys.mp (mem_of_lookup hl)

/-- The routes of the target and of the peers it connects to. -/
theorem same_routesToSync (ht : a.getPeer t = some p) (hc : SameSet conn conn')
    (hkn : ∀ q ∈ conn', a.getPeer q.id = some q ∧ Known a vp rp rr t q.id) :
    SameSet (LegacyMap.getRoutesToSync env a t conn (a.getPeerGroups t))
      (Calculate.getRoutesToSync env c t conn' (Calculate.getPeerGroups c t)) := by
  obtain ⟨ho, hd⟩ := routingPeerRoutes_known k env ht (.inl rfl)
  have hg : ∀ l : List String, l.any (· ∈ Calculate.getPeerGroups c t) =
      l.any (· ∈ a.getPeerGroups t) := fun l => by simp only [mem_getPeerGroups k]
  intro r
  simp only [LegacyMap.getRoutesToSync, Calculate.getRoutesToSync, routesToSync, mem_append,
    mem_flatMap, filterRoutesFromPeersOfSameHAGroup, filterRoutesByGroups, mem_filter,
    ho, hd, map_append, hg, hc _]
  refine or_congr_right (exists_congr fun q => and_congr_right fun hq => ?_)
  obtain ⟨hge, hk⟩ := hkn q hq
  rw [(routingPeerRoutes_known k env hge hk).1]

end

/-! ## Peers that policies connect to -/

section

variable {env : Env} {a : Account} {vp : Validated} {rp : PolicyMap} {rr : Routers} {t : String}
  {gu : UserMap} {c : NetworkMapComponents} {tp : Peer}

/-- A peer named opposite the target is one that the account connects it to. -/
theorem legacy_facing_of_direct (ht : a.getPeer t = some tp) (hv : PolicyViews a vp t tp)
    (hp : a.getPeer p.id = some p) (hn : p.id ≠ t) (h : FacesDirectly a vp t p.id) :
    ∃ pr ∈ activeRules a.policies, p ∈ (LegacyMap.sides a vp t pr.1 pr.2).facing := by
  obtain ⟨⟨pol, rule⟩, hpr, h⟩ := h
  refine ⟨(pol, rule), hpr, mem_facing.mpr (h.imp ?_ ?_)⟩
  · rintro ⟨hin, hr, hi⟩
    exact ⟨(legacy_peerInSources ht hv hpr).mpr hin,
      (LegacyMap.mem_side_direct hr).mpr ⟨hi ▸ hn, hi ▸ hp⟩⟩
  · rintro ⟨hin, hr, hi⟩
    exact ⟨(legacy_peerInDestinations ht hv hpr).mpr hin,
      (LegacyMap.mem_side_direct hr).mpr ⟨hi ▸ hn, hi ▸ hp⟩⟩

variable (k : Knows a vp rp rr t c)

include k

/-- Policies connect the target to the same peers: an unvalidated peer that only
    the components count as a member of a group is named opposite the target, and
    that rule connects the target to it for both. -/
theorem same_aclPeers (ht : a.getPeer t = some tp) (hv : PolicyViews a vp t tp) :
    SameSet (legacyGen env a vp gu tp).peers (componentGen env c t).peers := by
  intro p
  rw [mem_legacy_aclPeers ht, mem_aclPeers k]
  constructor
  · rintro ⟨⟨pol, rule⟩, hpr, hp⟩
    rcases mem_facing.mp hp with ⟨hf, hp⟩ | ⟨hf, hp⟩
    · have hi := (legacy_peerInSources ht hv hpr).mp hf
      have hre := relevant_of_sides hpr (.inl hi)
      exact ⟨(pol, rule), hpr, hre, mem_facing.mpr
        (.inl ⟨(component_peerInSources k ht hv hpr hre).mpr hi,
          mem_side_of_legacy k (readable_destinations hv hpr hi) hp⟩)⟩
    · have hi := (legacy_peerInDestinations ht hv hpr).mp hf
      have hre := relevant_of_sides hpr (.inr hi)
      exact ⟨(pol, rule), hpr, hre, mem_facing.mpr
        (.inr ⟨(component_peerInDestinations k ht hv hpr hre).mpr hi,
          mem_side_of_legacy k (readable_sources k hv hpr hre hi) hp⟩)⟩
  · rintro ⟨⟨pol, rule⟩, hpr, hre, hp⟩
    obtain ⟨-, hg, hn⟩ := known_of_mem_facing k hp
    rcases mem_facing.mp hp with ⟨hf, hp⟩ | ⟨hf, hp⟩
    · have hi := (component_peerInSources k ht hv hpr hre).mp hf
      rcases mem_legacy_of_side k (readable_destinations hv hpr hi) hp with hp | ⟨-, -, -, hface⟩
      · exact ⟨(pol, rule), hpr, mem_facing.mpr
          (.inl ⟨(legacy_peerInSources ht hv hpr).mpr hi, hp⟩)⟩
      · exact legacy_facing_of_direct ht hv hg hn hface
    · have hi := (component_peerInDestinations k ht hv hpr hre).mp hf
      rcases mem_legacy_of_side k (readable_sources k hv hpr hre hi) hp with hp | ⟨-, -, -, hface⟩
      · exact ⟨(pol, rule), hpr, mem_facing.mpr
          (.inr ⟨(legacy_peerInDestinations ht hv hpr).mpr hi, hp⟩)⟩
      · exact legacy_facing_of_direct ht hv hg hn hface

/-! ## Routes to resources -/

/-- For a resource that they keep, the components have the routes of a known peer. -/
theorem componentRoute_of_legacy (hk : res ∈ c.networkResources) (hq : Known a vp rp rr t q)
    (hx : some r ∈ LegacyMap.getNetworkResourcesRoutes env a (policiesIn rp) res q router) :
    r ∈ Calculate.getNetworkResourcesRoutes env c res q router := by
  obtain ⟨hn, p, hp, hr⟩ := mem_legacyRoutes.mp hx
  refine mem_componentRoutes.mpr ⟨by rwa [policiesOf_components k hk], p,
    (getPeerInfo_eq_some k).mpr ⟨hq, hp⟩, ?_⟩
  rw [networkResourceToRoute, ← hr]
  rfl

/-- … and every route of theirs is one of the account's, if that is there. -/
theorem legacyRoute_of_component (hk : res ∈ c.networkResources)
    (hx : r ∈ Calculate.getNetworkResourcesRoutes env c res q router) :
    ∃ x ∈ LegacyMap.getNetworkResourcesRoutes env a (policiesIn rp) res q router,
      x.isSome → x = some r := by
  obtain ⟨hn, p, hi, rfl⟩ := mem_componentRoutes.mp hx
  rw [policiesOf_components k hk] at hn
  refine ⟨_, mem_legacyRoutes.mpr ⟨hn, p, ((getPeerInfo_eq_some k).mp hi).2, rfl⟩, fun hs => ?_⟩
  obtain ⟨r, hr⟩ := Option.isSome_iff_exists.mp hs
  rw [networkResourceToRoute, hr]
  rfl

/-- Both have the same routes to resources. -/
theorem same_resourceRoutes (hv : ClientViews a vp t env rp rr)
    (hrt : ∀ r, r ∈ routes ↔ some r ∈ (legacySync env a t rp rr).routes) :
    SameSet routes (componentSync env c t).routes := by
  intro r
  rw [hrt]
  constructor
  · intro hr
    obtain ⟨res, hre, he, h⟩ := mem_sync_routes.mp hr
    rcases h with ⟨router, hlo, hx⟩ | ⟨hc, q, router, hlo, hx⟩
    · have hro : isRouterOf rr t res := by rw [isRouterOf, hlo]; rfl
      have hk := routed_kept k hre he hro (lookup_of_policiesIn (mem_legacyRoutes.mp hx).1)
      refine mem_sync_routes.mpr ⟨res, hk, he, .inl ⟨router, ?_,
        componentRoute_of_legacy k hk (.inl rfl) hx⟩⟩
      rwa [routingPeers_components k hk]
    · obtain ⟨-, p, hp, -⟩ := mem_legacyRoutes.mp hx
      obtain ⟨hk, hc'⟩ := componentClient_of_legacy k hre he hc
      obtain ⟨-, p', hi⟩ := (router_iff k hv hp).mp ⟨res, hre, he, hc, mem_of_lookup hlo⟩
      refine mem_sync_routes.mpr ⟨res, hk, he, .inr ⟨hc', q, router, ?_,
        componentRoute_of_legacy k hk ((getPeerInfo_eq_some k).mp hi).1 hx⟩⟩
      rwa [routingPeers_components k hk]
  · intro hr
    obtain ⟨res, hk, he, h⟩ := mem_sync_routes.mp hr
    obtain ⟨hre, -, -⟩ := (mem_networkResources k).mp hk
    simp only [routingPeers_components k hk] at h
    have hm : ∀ {x}, (x.isSome → x = some r) →
        x ∈ (legacySync env a t rp rr).routes → some r ∈ (legacySync env a t rp rr).routes :=
      fun hr hx => hr (legacyRoutes_isSome hv.domains _ hx) ▸ hx
    rcases h with ⟨router, hlo, hx⟩ | ⟨hc, q, router, hlo, hx⟩
    · obtain ⟨x, hx, hr⟩ := legacyRoute_of_component k hk hx
      exact hm hr (mem_sync_routes.mpr ⟨res, hre, he, .inl ⟨router, hlo, hx⟩⟩)
    · obtain ⟨x, hx, hr⟩ := legacyRoute_of_component k hk hx
      exact hm hr (mem_sync_routes.mpr
        ⟨res, hre, he, .inr ⟨legacyClient_of_views k hv hk hc, q, router, hlo, hx⟩⟩)

end

end Agreement

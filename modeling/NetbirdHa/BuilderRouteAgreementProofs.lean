import NetbirdHa.BuilderAgreementProofs

/-! # A new builder and the account agree on peers and routes

Network resources add routers and sources to the peers that policies give, and
the connected peers bring their routes.  The builder finds the same ones away
from these blind spots:

* a source that the first rule of a policy names counts neither as a client of
  the resource nor as a source of its routers (`ResourcesClear`);
* a router or source that is not validated is left out of the map, and one
  whose login has expired is offline;
* a domain that does not parse stops the account, while the builder leaves the
  route out;
* routes are taken over from peers that are offline, and from routers and
  sources that no policy faces the target with (`RoutesClear`);
* a disabled route of the target does not keep out those of its HA group. -/

namespace Builder

open Table Index AccountModel GroupPeers Routes LegacyMap Components List Account Keyed Agreement

section

variable (env : Env) (a : Account) (vp : Validated) (t : String)

/-- What the account finds for network resources. -/
abbrev accountSync :=
  legacySync env a t (getResourcePoliciesMap a) (getResourceRoutersMap a)

/-- A resource makes the account connect the target to the peer. -/
def Extra (q : String) : Prop :=
  LegacySource a (getResourcePoliciesMap a) (getResourceRoutersMap a) t q ∨
    LegacyRouter a (getResourcePoliciesMap a) (getResourceRoutersMap a) t q
deriving Decidable

/-- Resources are read alike. -/
structure ResourcesClear : Prop where
  client : ∀ res ∈ a.networkResources, res.enabled →
    isRouterOf (getResourceRoutersMap a) t res = false →
      (∃ q ∈ (routersOf a res).keys, (a.getPeer q).isSome) →
        ((∃ pol ∈ policiesOf a res.id, t ∈ accountSources a pol ∧
            a.validatePostureChecksOnPeer pol.sourcePostureChecks t) ↔
          ∃ pol ∈ policiesOf a res.id, InGroups a.getGroup (sourceGroups pol) t ∧
            a.validatePostureChecksOnPeer pol.sourcePostureChecks t)
  sources : ∀ res ∈ a.networkResources, res.enabled →
    isRouterOf (getResourceRoutersMap a) t res → ∀ pol ∈ policiesOf a res.id,
      ∀ p ∈ a.peers.entries, p.id ≠ t → ¬ Faced a vp t p →
        Usable a vp pol.sourcePostureChecks p.id →
          (p.id ∈ accountSources a pol ↔
            ¬ (firstRule pol).sourceResource.IsPeer ∧ InGroups a.getGroup (sourceGroups pol) p.id)
  online : ∀ p ∈ a.peers.entries, p.id ≠ t → ¬ Faced a vp t p →
    Extra a t p.id → p.id ∈ vp ∧ a.settings.peerExpired env p = false
  domains : ∀ res ∈ a.networkResources, res.enabled →
    NeedsRoute a t (getResourcePoliciesMap a) (getResourceRoutersMap a) res →
      res.type = .domain → (env.domainFromStringList [res.domain]).isSome

/-- A route of the target stands for the same network as `r`. -/
def OwnRoute (r : Route) : Prop :=
  ∃ r' ∈ a.routes.entries, Serves a t r' ∧ getHAUniqueID env r' = getHAUniqueID env r
deriving Decidable

/-- Routes are taken over alike: where a connected peer has a route for the target
    that no enabled route of the target stands for, no disabled one does, and a
    policy faces the target with the peer, which is online. -/
def RoutesClear : Prop :=
  ∀ p ∈ a.peers.entries, p.id ≠ t → (Faced a vp t p ∨ Extra a t p.id) →
    ∀ r ∈ a.routes.entries, r.enabled → Serves a p.id r →
      (∃ gid ∈ r.groups, gid ∈ a.getPeerGroups t) →
        (∀ r' ∈ a.routes.entries, r'.enabled → Serves a t r' →
          getHAUniqueID env r' ≠ getHAUniqueID env r) →
          Faced a vp t p ∧ a.settings.peerExpired env p = false ∧ ¬ OwnRoute env a t r

end

variable {env : Env} {a : IndexedAccount} {g : UserMap} {vp : Validated} {t : String} {tp : Peer}

/-! ## Resources -/

section

variable {p : Peer}

variable (ht : a.getPeer t = some tp)

include ht

/-- A peer is no group that a policy lists. -/
theorem notMem_sourceGroups (h : pol ∈ policiesOf a rid) : t ∉ sourceGroups pol := by
  intro hm
  obtain ⟨rule, hr, hm⟩ := exists_source hm
  exact (notMem_sources ht (policy_of_resource h).1 hr).1 hm

/-- The target as a client of a resource, for the builder. -/
theorem builderClient_iff : BuilderClient a g tp res ↔
    isRouterOf (getResourceRoutersMap a) t res = false ∧
      ∃ pol ∈ policiesOf a res.id, InGroups a.getGroup (sourceGroups pol) t ∧
        a.validatePostureChecksOnPeer pol.sourcePostureChecks t := by
  obtain rfl := id_of_getPeer ht
  rw [BuilderClient, ← lookup_eq_none_iff]
  grind [letsIn, isPeerInGroupscached_iff, notMem_sourceGroups]

/-- **The target is a client of the same resources**, as far as they have routers. -/
theorem client_iff (hc : ResourcesClear env a vp t) (hre : res ∈ a.networkResources)
    (he : res.enabled) (hr : ∃ q ∈ (routersOf a res).keys, (a.getPeer q).isSome) :
    LegacyClient a (getResourcePoliciesMap a)
        (getResourceRoutersMap a) t res ↔ BuilderClient a g tp res := by
  rw [builderClient_iff ht, LegacyClient, IsClient, lookup_eq_none_iff]
  exact and_congr_right fun hn => hc.client res hre he hn hr

/-- **Both have the same routes to resources.** -/
theorem same_resourceRoutes (hcl : ResourcesClear env a vp t) :
    some r ∈ (accountSync env a t).routes ↔ r ∈ resourceRoutes env (idx a g) a vp tp := by
  obtain rfl := id_of_getPeer ht
  rw [mem_resourceRoutes]
  constructor
  · intro hr
    obtain ⟨res, hre, he, ⟨router, hl, hx⟩ | ⟨hc, q, router, hl, hx⟩⟩ := mem_sync_routes.mp hr
    · obtain ⟨hn, pq, hp, hx⟩ := mem_legacyRoutes.mp hx
      exact ⟨res, hre, he, hn, tp.id, router, pq, hl, hp, hx.symm, .inl rfl⟩
    · obtain ⟨hn, pq, hp, hx⟩ := mem_legacyRoutes.mp hx
      refine ⟨res, hre, he, hn, q, router, pq, hl, hp, hx.symm, .inr ?_⟩
      exact (client_iff ht hcl hre he ⟨q, mem_of_lookup hl, by simp [hp]⟩).mp hc
  · rintro ⟨res, hre, he, hn, q, router, pq, hl, hp, hx, hq⟩
    have hm : some r ∈ LegacyMap.getNetworkResourcesRoutes env a
        (policiesIn (getResourcePoliciesMap a)) res q router :=
      mem_legacyRoutes.mpr ⟨hn, pq, hp, hx.symm⟩
    refine mem_sync_routes.mpr ⟨res, hre, he, ?_⟩
    rcases hq with rfl | hc
    · exact .inl ⟨router, hl, hm⟩
    · refine .inr ⟨?_, q, router, hl, hm⟩
      exact (client_iff ht hcl hre he ⟨q, mem_of_lookup hl, by simp [hp]⟩).mpr hc

/-- The sources that the builder gives a router, those apart that face it anyway. -/
theorem legacySource_iff (hc : ResourcesClear env a vp t) (hp : a.getPeer p.id = some p)
    (hne : p.id ≠ t) (hno : ¬ Faced a vp t p) :
    LegacySource a (getResourcePoliciesMap a) (getResourceRoutersMap a) t p.id ↔
      p.id ∈ (getNetworkResourcesForPeer env (idx a g) a vp tp).sourcePeers := by
  obtain rfl := id_of_getPeer ht
  rw [mem_builder_sourcePeers]
  constructor
  · intro hs
    have hv := (hc.online p (mem_of_get hp) hne hno (.inl hs)).1
    obtain ⟨res, hre, he, hr, pol, hpo, hsr, hpa⟩ := hs
    refine ⟨res, hre, he, hr, pol, hpo, mem_policySources.mpr (.inr ?_)⟩
    obtain ⟨hn, hi⟩ := (hc.sources res hre he hr pol hpo p (mem_of_get hp) hne hno ⟨hv, hpa⟩).mp hsr
    exact ⟨hn, hi, hv, hpa⟩
  · rintro ⟨res, hre, he, hr, pol, hpo, hsr⟩
    rcases mem_policySources.mp hsr with ⟨-, hid⟩ | ⟨hn, hi, hu⟩
    · exact absurd hid hne
    · refine ⟨res, hre, he, hr, pol, hpo, ?_, hu.2⟩
      exact (hc.sources res hre he hr pol hpo p (mem_of_get hp) hne hno hu).mpr ⟨hn, hi⟩

end

/-! ## Peers -/

section

variable {x : Peer}

theorem getPeer_of_faced (h : Faced a vp t x) : a.getPeer x.id = some x := by
  obtain ⟨pr, -, s, -, -, hl⟩ := h
  exact getPeer_of_lists hl

variable (ht : a.getPeer t = some tp)

include ht

/-- The peers that the builder connects the target to. -/
theorem mem_connectedPeers_iff (hr : RulesClear a vp t tp) (hc : ResourcesClear env a vp t) :
    x ∈ connectedPeers env (idx a g) a vp tp ↔ Faced a vp t x ∨
        (a.getPeer x.id = some x ∧ x.id ≠ t ∧ ¬ Faced a vp t x ∧ Extra a t x.id) := by
  have hs := legacyRoutes_isSome hc.domains
  have he : a.getPeer x.id = some x → x.id ≠ t → ¬ Faced a vp t x →
      ((x.id ∈ (getNetworkResourcesForPeer env (idx a g) a vp tp).sourcePeers ∨
        x.id ∈ (resourceRoutes env (idx a g) a vp tp).map Route.peerID) ↔ Extra a t x.id) := by
    intro hx hn hf
    rw [legacyRouter_iff (fun r => (same_resourceRoutes ht hc).symm) hs hx hn, Extra,
      @legacySource_iff env a g vp t tp x ht hc hx hn hf]
  grind [mem_connectedPeers, builder_peers_iff, id_of_getPeer]

/-- What the map of the builder has of its connected peers. -/
theorem connected_validated_iff (hr : RulesClear a vp t tp) (hc : ResourcesClear env a vp t) :
    x ∈ (connectedPeers env (idx a g) a vp tp).filter (·.id ∈ vp) ↔ Faced a vp t x ∨
        (a.getPeer x.id = some x ∧ x.id ≠ t ∧ ¬ Faced a vp t x ∧ Extra a t x.id) := by
  rw [mem_filter, mem_connectedPeers_iff ht hr hc, decide_eq_true_eq]
  refine and_iff_left_of_imp ?_
  rintro (⟨pr, hp, s, hs, hst, hl⟩ | ⟨hx, hn, hf, he⟩)
  · exact (hr.facedClear hp hs hst hl).validated
  · exact (hc.online x (mem_of_get hx) hn hf he).1

/-- **Both have the same peers.** -/
theorem same_peers (hv : t ∈ vp) (hru : RulesClear a vp t tp)
    (hc : ResourcesClear env a vp t) {routes : List Route}
    (hr : ∀ r, r ∈ routes ↔ some r ∈ (accountSync env a t).routes) :
    SameSet (addNetworksRoutingPeers a.getPeer (routes.map Route.peerID) t
        ((legacyGen env a vp g tp).peers.filter (!a.settings.peerExpired env ·))
        ((legacyGen env a vp g tp).peers.filter
          (a.settings.peerExpired env ·)) (accountSync env a t).isRouter
        (accountSync env a t).sourcePeers) (((connectedPeers env (idx a g) a vp tp).filter
        (·.id ∈ vp)).filter (!a.settings.peerExpired env ·)) := by
  intro x
  have hs := legacyRoutes_isSome hc.domains
  have ha : ∀ y, y ∈ (legacyGen env a vp g tp).peers ↔ Faced a vp t y :=
    fun y => legacy_peers_iff ht hv hru
  -- a policy's peer is on one of the two lists
  have hn : ∀ {q : String}, a.getPeer q = some x →
      ((∀ y ∈ (legacyGen env a vp g tp).peers.filter (!a.settings.peerExpired env ·) ++
          (legacyGen env a vp g tp).peers.filter (a.settings.peerExpired env ·), y.id ≠ q) ↔
        ¬ Faced a vp t x) := by
    intro q hx
    simp only [mem_append, mem_filter, ← and_or_left, ha]
    grind [id_of_getPeer, getPeer_of_faced]
  rw [mem_addNetworksRoutingPeers, mem_filter, mem_filter, ha,
    connected_validated_iff ht hru hc, or_and_right]
  refine or_congr_right ?_
  constructor
  · rintro ⟨q, hq, hne, ho, hx⟩
    obtain rfl := id_of_getPeer hx
    have hf := (hn hx).mp ho
    have he : Extra a t x.id := (legacyExtra_iff hr hs hx hne).mp hq
    exact ⟨⟨hx, hne, hf, he⟩, by simp [(hc.online x (mem_of_get hx) hne hf he).2]⟩
  · rintro ⟨⟨hx, hne, hf, he⟩, -⟩
    exact ⟨x.id, (legacyExtra_iff hr hs hx hne).mpr he, hne, (hn hx).mpr hf, hx⟩

/-- **Both have the same offline peers.** -/
theorem same_offlinePeers (hv : t ∈ vp)
    (hr : RulesClear a vp t tp) (hc : ResourcesClear env a vp t) :
    SameSet ((legacyGen env a vp g tp).peers.filter (a.settings.peerExpired env ·))
      (((connectedPeers env (idx a g) a vp tp).filter
        (·.id ∈ vp)).filter (a.settings.peerExpired env ·)) := by
  intro x
  rw [mem_filter, mem_filter, connected_validated_iff ht hr hc, legacy_peers_iff ht hv hr]
  refine and_congr_left fun hex => (or_iff_left ?_).symm
  rintro ⟨hx, hn, hf, he⟩
  cases hex.symm.trans (hc.online x (mem_of_get hx) hn hf he).2

end

/-! ## Routes -/

section

variable {p : Peer} {r x : Route}

theorem ServedAs.getHAUniqueID (h : ServedAs a p r x) (env : Env) :
    getHAUniqueID env x = getHAUniqueID env r := by
  rcases h with ⟨-, rfl⟩ | ⟨-, rfl⟩ <;> rfl

theorem ServedAs.groups (h : ServedAs a p r x) : x.groups = r.groups := by
  rcases h with ⟨-, rfl⟩ | ⟨-, rfl⟩ <;> rfl

theorem ServedAs.accessControlGroups (h : ServedAs a p r x) :
    x.accessControlGroups = r.accessControlGroups := by
  rcases h with ⟨-, rfl⟩ | ⟨-, rfl⟩ <;> rfl

theorem ServedAs.serves (h : ServedAs a p r x) : Serves a p.id r := by
  rcases h with ⟨hi, -⟩ | ⟨hp, -⟩
  · exact .inr hi
  · exact .inl hp

theorem exists_servedAs (h : Serves a p.id r) : ∃ x, ServedAs a p r x := by
  rcases h with hp | hi
  · exact ⟨_, .inr ⟨hp, rfl⟩⟩
  · exact ⟨_, .inl ⟨hi, rfl⟩⟩

variable (ht : a.getPeer t = some tp)

include ht

/-- The HA groups of the target, for the builder: those of its enabled routes … -/
theorem mem_memberships : h ∈ ((getRoutingPeerRoutes (idx a g) t).1 ++
      (getRoutingPeerRoutes (idx a g) t).2).map (getHAUniqueID env) ↔
    ∃ r ∈ a.routes.entries, r.enabled ∧ Serves a t r ∧ getHAUniqueID env r = h := by
  obtain rfl := id_of_getPeer ht
  rw [disabled_nil ht, append_nil, mem_map]
  constructor
  · rintro ⟨x, hx, rfl⟩
    obtain ⟨r, hr, he, hs⟩ := (mem_getRoutingPeerRoutes ht).mp hx
    exact ⟨r, hr, he, hs.serves, (hs.getHAUniqueID env).symm⟩
  · rintro ⟨r, hr, he, hse, rfl⟩
    obtain ⟨x, hs⟩ := exists_servedAs hse
    exact ⟨x, (mem_getRoutingPeerRoutes ht).mpr ⟨r, hr, he, hs⟩, hs.getHAUniqueID env⟩

/-- … and for the account: those of all its routes. -/
theorem mem_legacy_memberships : h ∈ ((LegacyMap.getRoutingPeerRoutes a t).1 ++
      (LegacyMap.getRoutingPeerRoutes a t).2).map (getHAUniqueID env) ↔
    ∃ r ∈ a.routes.entries, Serves a t r ∧ getHAUniqueID env r = h := by
  obtain rfl := id_of_getPeer ht
  simp only [mem_map, mem_append, mem_legacy_getRoutingPeerRoutes ht, mem_legacy_disabled ht]
  constructor
  · rintro ⟨x, ⟨r, hr, -, hs⟩ | ⟨r, hr, -, ⟨hi, rfl⟩ | ⟨hp, rfl⟩⟩, rfl⟩
    · exact ⟨r, hr, hs.serves, (hs.getHAUniqueID env).symm⟩
    · exact ⟨r, hr, .inr hi, rfl⟩
    · exact ⟨x, hr, .inl hp, rfl⟩
  · rintro ⟨r, hr, hse, rfl⟩
    cases he : r.enabled with
    | true =>
      obtain ⟨x, hs⟩ := exists_servedAs hse
      exact ⟨x, .inl ⟨r, hr, he, hs⟩, hs.getHAUniqueID env⟩
    | false =>
      rcases hse with hp | hi
      · exact ⟨r, .inr ⟨r, hr, he, .inr ⟨hp, rfl⟩⟩, rfl⟩
      · exact ⟨_, .inr ⟨r, hr, he, .inl ⟨hi, rfl⟩⟩, rfl⟩

/-- The routes that the account takes over. -/
theorem mem_legacy_inherited {peers : List Peer} (hpe : ∀ p ∈ peers, a.getPeer p.id = some p) :
    x ∈ peers.flatMap (fun p => filterRoutesFromPeersOfSameHAGroup env
        (filterRoutesByGroups (LegacyMap.getRoutingPeerRoutes a p.id).1 (a.getPeerGroups t))
        (((LegacyMap.getRoutingPeerRoutes a t).1 ++
          (LegacyMap.getRoutingPeerRoutes a t).2).map (getHAUniqueID env))) ↔
      ∃ p ∈ peers, ∃ r ∈ a.routes.entries, r.enabled ∧ ServedAs a p r x ∧
        (∃ gid ∈ r.groups, gid ∈ a.getPeerGroups t) ∧ ¬ OwnRoute env a t r := by
  simp only [mem_flatMap, filterRoutesFromPeersOfSameHAGroup, filterRoutesByGroups,
    mem_filter, any_eq_true, decide_eq_true_eq, mem_legacy_memberships ht]
  refine exists_congr fun p => and_congr_right fun hp => ?_
  rw [mem_legacy_getRoutingPeerRoutes (hpe p hp)]
  constructor
  · rintro ⟨⟨⟨r, hr, he, hs⟩, hg⟩, ho⟩
    rw [hs.groups] at hg
    rw [hs.getHAUniqueID] at ho
    exact ⟨r, hr, he, hs, hg, ho⟩
  · rintro ⟨r, hr, he, hs, hg, ho⟩
    rw [← hs.groups] at hg
    rw [OwnRoute, ← hs.getHAUniqueID] at ho
    exact ⟨⟨⟨r, hr, he, hs⟩, hg⟩, ho⟩

/-- A route is distributed to groups, never to a peer that a rule names. -/
theorem distributed_iff (hr : r ∈ a.routes.entries) :
    (∃ gid ∈ r.groups, gid ∈ listAt (idx a g).peerToGroups t) ↔
      ∃ gid ∈ r.groups, gid ∈ a.getPeerGroups t := by
  refine exists_congr fun gid => and_congr_right fun hg => ?_
  rw [mem_peerToGroups]
  refine or_iff_left ?_
  rintro ⟨rfl, -⟩
  refine a.notMem_usedGroupIDs ht (mem_append_right _ ?_)
  exact mem_flatMap.mpr ⟨r, hr, mem_append_right _ hg⟩

/-- The routes that the builder takes over. -/
theorem mem_viewInherited : x ∈ viewInherited env (idx a g) a vp tp ↔
    ∃ p ∈ connectedPeers env (idx a g) a vp tp,
      p.id ≠ t ∧ ∃ r ∈ a.routes.entries, r.enabled ∧ ServedAs a p r x ∧
        (∃ gid ∈ r.groups, gid ∈ a.getPeerGroups t) ∧
          ∀ r' ∈ a.routes.entries, r'.enabled → Serves a t r' →
            getHAUniqueID env r' ≠ getHAUniqueID env r := by
  obtain rfl := id_of_getPeer ht
  -- what the two filters ask of a route that a peer serves
  have hf : ∀ {p : Peer} {r : Route}, r ∈ a.routes.entries → ServedAs a p r x →
      ((x.groups.any (· ∈ listAt (idx a g).peerToGroups tp.id) ∧ getHAUniqueID env x ∉
            ((getRoutingPeerRoutes (idx a g) tp.id).1 ++
              (getRoutingPeerRoutes (idx a g) tp.id).2).map (getHAUniqueID env)) ↔
        (∃ gid ∈ r.groups, gid ∈ a.getPeerGroups tp.id) ∧
          ∀ r' ∈ a.routes.entries, r'.enabled → Serves a tp.id r' →
            getHAUniqueID env r' ≠ getHAUniqueID env r) := by
    intro p r hr hs
    rw [mem_memberships ht, hs.groups, hs.getHAUniqueID env]
    simp [distributed_iff ht hr, not_and, ne_eq]
  constructor
  · intro hx
    obtain ⟨q, hq, hx⟩ := mem_flatMap.mp hx
    obtain ⟨hq, hn⟩ := mem_filter.mp hq
    obtain ⟨p, hp, rfl⟩ := mem_map.mp hq
    obtain ⟨hx, ho⟩ := mem_filter.mp hx
    obtain ⟨hx, hg⟩ := mem_filter.mp hx
    grind [mem_getRoutingPeerRoutes, getPeer_of_mem_connectedPeers]
  · rintro ⟨p, hp, hn, r, hr, he, hs, hg, ho⟩
    obtain ⟨hg, ho⟩ := (hf hr hs).mpr ⟨hg, ho⟩
    refine mem_flatMap.mpr ⟨p.id, mem_filter.mpr ⟨mem_map_of_mem hp,
      decide_eq_true hn⟩, mem_filter.mpr ⟨mem_filter.mpr ⟨?_, hg⟩, decide_eq_true ho⟩⟩
    exact (mem_getRoutingPeerRoutes (getPeer_of_mem_connectedPeers hp)).mpr ⟨r, hr, he, hs⟩

/-- **Both have the same routes.** -/
theorem same_routes (hv : t ∈ vp) (hru : RulesClear a vp t tp) (hc : ResourcesClear env a vp t)
    (hih : RoutesClear env a vp t) {routes : List Route}
    (hro : ∀ r, r ∈ routes ↔ some r ∈ (accountSync env a t).routes) :
    SameSet (routes ++ LegacyMap.getRoutesToSync env a t ((legacyGen env a vp g tp).peers.filter
          (!a.settings.peerExpired env ·)) (a.getPeerGroups t))
      (ownRoutes (idx a g) tp.id ++ resourceRoutes env (idx a g) a vp tp ++
          viewInherited env (idx a g) a vp tp) := by
  intro x
  have hpe : ∀ p ∈ (legacyGen env a vp g tp).peers.filter (!a.settings.peerExpired env ·),
      a.getPeer p.id = some p :=
    fun p hp => getPeer_of_faced ((legacy_peers_iff ht hv hru).mp (mem_filter.mp hp).1)
  have hre : x ∈ routes ↔ x ∈ resourceRoutes env (idx a g) a vp tp :=
    (hro x).trans (same_resourceRoutes ht hc)
  have ho : x ∈ (LegacyMap.getRoutingPeerRoutes a t).1 ↔ x ∈ ownRoutes (idx a g) tp.id := by
    obtain rfl := id_of_getPeer ht
    rw [mem_legacy_getRoutingPeerRoutes ht, mem_ownRoutes ht]
  have hi : (∃ p ∈ (legacyGen env a vp g tp).peers.filter (!a.settings.peerExpired env ·),
      ∃ r ∈ a.routes.entries, r.enabled ∧ ServedAs a p r x ∧
        (∃ gid ∈ r.groups, gid ∈ a.getPeerGroups t) ∧ ¬ OwnRoute env a t r) ↔
      x ∈ viewInherited env (idx a g) a vp tp := by
    rw [mem_viewInherited ht]
    simp only [mem_filter, legacy_peers_iff ht hv hru, mem_connectedPeers_iff ht hru hc]
    constructor
    · rintro ⟨p, ⟨hf, -⟩, r, hr, hen, hse, hg, ho⟩
      have hn : p.id ≠ t := by
        obtain ⟨pr, hpr, s, hs, hst, hl⟩ := hf
        exact (hru.facedClear hpr hs hst hl).ne
      exact ⟨p, .inl hf, hn, r, hr, hen, hse, hg, fun r' hr' _ hsr hid => ho ⟨r', hr', hsr, hid⟩⟩
    · rintro ⟨p, hp, hn, r, hr, hen, hse, hg, ho⟩
      have hge : a.getPeer p.id = some p := by
        rcases hp with hf | ⟨hge, -⟩
        · exact getPeer_of_faced hf
        · exact hge
      obtain ⟨hf, he, hno⟩ := hih p (mem_of_get hge) hn (hp.imp_right fun h => h.2.2.2) r hr hen
        hse.serves hg ho
      exact ⟨p, ⟨hf, by simp [he]⟩, r, hr, hen, hse, hg, hno⟩
  rw [LegacyMap.getRoutesToSync, routesToSync, mem_append, mem_append, mem_append,
    mem_append, hre, ho, mem_legacy_inherited ht hpe, hi]
  exact or_left_comm.trans or_assoc.symm

end

end Builder

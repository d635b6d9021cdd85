import NetbirdHa.RouteAgreementProofs

/-! # Route firewall rules: the components and the account agree

A route firewall rule lists the addresses of the sources of a policy rule.
For the account these are validated peers that pass the posture checks; for
the components they are peers that the components know, in groups that they
know, without a failure that they wrote down (`SourceSeen`).  The components
keep the groups of the rules that list an access control group but none of
their peers, so a source counts only if something else brings it in. -/

namespace Agreement

open Table AccountModel GroupPeers Connection Routes LegacyMap Components Calculate List Option
  Account SameRules

/-! ## Sources -/

section

variable (a : Account) (vp : Validated) (rp : PolicyMap) (rr : Routers) (t : String)

/-- The components see the source `q` of a rule as the account does: a usable
    source is known, in a known group unless the rule names it, an unvalidated one
    is not named opposite the target, and a failed check has been written down. -/
structure SourceSeen (pol : Policy) (rule : PolicyRule) (q : String) : Prop where
  known : Usable a vp pol.sourcePostureChecks q → Known a vp rp rr t q
  listed : Usable a vp pol.sourcePostureChecks q →
    ¬ (rule.sourceResource.IsPeer ∧ q = rule.sourceResource.id) →
      ∃ gid ∈ rule.sources, KnownGroup a vp rp rr t gid ∧ ∃ g, a.getGroup gid = some g ∧ q ∈ g.peers
  direct : FacesDirectly a vp t q → q ∈ vp
  posture : q ∈ vp → Known a vp rp rr t q →
    a.validatePostureChecksOnPeer pol.sourcePostureChecks q = false →
      ∃ check ∈ pol.sourcePostureChecks, Failure a vp rp rr t check q

/-- The target serves the route. -/
def Serves (r : Route) : Prop := r.peer = t ∨ InGroups a.getGroup r.peerGroups t
deriving Decidable

/-- An active rule that the account applies to a route of the target for one of
    its access control groups: some rule of its policy lists the group. -/
def RouteRule (r : Route) (pr : Policy × PolicyRule) : Prop :=
  pr ∈ activeRules a.policies ∧
    ∃ gid ∈ r.accessControlGroups, ∃ rule ∈ pr.1.rules, gid ∈ rule.destinations
deriving Decidable

/-- An active rule of a policy of a resource that the target routes. -/
def ResourceRule (res : NetworkResource) (pr : Policy × PolicyRule) : Prop :=
  res.enabled = true ∧ isRouterOf rr t res ∧
    ∃ policies, rp.lookup res.id = some policies ∧ pr ∈ activeRules policies

/-- Neither computation of routes and route firewall rules runs into a blind spot. -/
structure RouteViews (env : Env) (tp : Peer) : Prop
    extends PolicyViews a vp t tp, ClientViews a vp t env rp rr where
  relevant : ∀ r ∈ a.routes.entries, r.enabled → Serves a t r →
    ∀ pr, RouteRule a r pr → ∃ rule ∈ pr.1.rules, rule.enabled ∧
      (listsAccessGroup a rule ∨ InSources a vp t pr.1 rule ∨ InDestinations a vp t rule)
  routeSources : ∀ r ∈ a.routes.entries, r.enabled → Serves a t r →
    ∀ pr, RouteRule a r pr → ∀ q, (a.getPeer q).isSome → InGroups a.getGroup r.groups q →
      IsSource a.getGroup t pr.2 q → SourceSeen a vp rp rr t pr.1 pr.2 q
  resourceSources : ∀ res ∈ a.networkResources, ∀ pr, ResourceRule rp rr t res pr →
    ∀ q, (a.getPeer q).isSome → IsSource a.getGroup t pr.2 q → SourceSeen a vp rp rr t pr.1 pr.2 q

end

variable {a : Account} {vp : Validated} {rp : PolicyMap}
  {rr : Routers} {t q : String} {c : NetworkMapComponents} {pol : Policy}
  {getGroup : String → Option Group} {policies : List Policy} {r : Route}

section

variable {rule : PolicyRule} (k : Knows a vp rp rr t c)

include k

/-- A source for the components is one for the account. -/
theorem isSource_of_component (h : IsSource (getGroupInfo c) t rule q) :
    IsSource a.getGroup t rule q := by
  rcases h with ⟨hn, gid, hgi, hg⟩ | h
  · exact .inl ⟨hn, gid, hgi, ((mem_groupInfo k).mp hg).2.1⟩
  · exact .inr h

theorem isSource_component (hs : SourceSeen a vp rp rr t pol rule q)
    (hu : Usable a vp pol.sourcePostureChecks q) (h : IsSource a.getGroup t rule q) :
    IsSource (getGroupInfo c) t rule q := by
  by_cases hd : rule.sourceResource.IsPeer ∧ q = rule.sourceResource.id
  · exact .inr hd
  · obtain ⟨gid, hgi, hk, hg⟩ := hs.listed hu hd
    exact .inl ⟨(h.resolve_right hd).1, gid, hgi, (mem_groupInfo k).mpr ⟨hk, hg, hs.known hu⟩⟩

/-- A rule has the same sources for both, where the components see them. -/
theorem perm_rulePeers (hr : ∀ check ∈ pol.sourcePostureChecks,
      check ∈ referencedChecks c.policies c.resourcePoliciesMap)
    (hse : ∀ q, (a.getPeer q).isSome → q ∈ dists → IsSource a.getGroup t rule q →
      SourceSeen a vp rp rr t pol rule q) (hto : ∀ q, Known a vp rp rr t q →
      IsSource (getGroupInfo c) t rule q → q ∈ dists → q ∈ dists')
    (hfr : ∀ q, IsSource a.getGroup t rule q → q ∈ dists' → q ∈ dists) :
    (getRulePeers a.getGroup a.getPeer (LegacyMap.validSource a vp) rule
        pol.sourcePostureChecks t dists).Perm
      (getRulePeers (getGroupInfo c) (getPeerInfo c) (Calculate.validSource c) rule
        pol.sourcePostureChecks t dists') := by
  refine perm_getRulePeers (fun q p hp => id_of_getPeer hp)
    (fun q p hp => id_of_getPeer ((getPeerInfo_eq_some k).mp hp).2) fun q p => ?_
  rw [mem_rulePeerIDs, mem_rulePeerIDs]
  constructor
  · rintro ⟨⟨hsr, hd, hva⟩, hp⟩
    rw [LegacyMap.validSource, Bool.and_eq_true, decide_eq_true_eq] at hva
    have hs := hse q (by simp [hp]) hd hsr
    have hk := hs.known hva
    have hs' := isSource_component k hs hva hsr
    refine ⟨⟨hs', hto q hk hs' hd, ?_⟩, (getPeerInfo_eq_some k).mpr ⟨hk, hp⟩⟩
    rw [Calculate.validSource, Bool.and_eq_true, decide_eq_true_eq, k.peers]
    exact ⟨hk, validate_of_passes k hk hva.2⟩
  · rintro ⟨⟨hsr, hd, hva⟩, hi⟩
    obtain ⟨hk, hp⟩ := (getPeerInfo_eq_some k).mp hi
    rw [Calculate.validSource, Bool.and_eq_true] at hva
    have hs' := isSource_of_component k hsr
    have hd' := hfr q hs' hd
    have hs := hse q (by simp [hp]) hd' hs'
    have hv := (validated_of_known k.isValidated hk).elim id hs.direct
    refine ⟨⟨hs', hd', ?_⟩, hp⟩
    rw [LegacyMap.validSource, Bool.and_eq_true, decide_eq_true_eq]
    refine ⟨hv, ?_⟩
    cases hpa : a.validatePostureChecksOnPeer pol.sourcePostureChecks q with
    | true => rfl
    | false =>
      obtain ⟨check, hm, hf⟩ := hs.posture hv hk hpa
      cases hva.2.symm.trans (validate_eq_false k hm hf (hr check hm))

end

/-! ## Rules of routes -/

section

theorem getRouteFirewallRules_eq {getPeer : String → Option Peer} :
    getRouteFirewallRules getGroup getPeer valid t policies r dists =
      (activeRules policies).flatMap (fun pr => generateRouteFirewallRules r pr.2
        (getRulePeers getGroup getPeer valid pr.2 pr.1.sourcePostureChecks t dists)) := by
  simp only [getRouteFirewallRules, activeRules, flatMap_assoc, flatMap_map]

theorem mem_policiesWithDestination : pol ∈ policiesWithDestination policies gid ↔
    pol ∈ policies ∧ ∃ rule ∈ pol.rules, gid ∈ rule.destinations := by
  grind [policiesWithDestination]

variable {env : Env} {tp : Peer}

/-- An enabled route of the target comes from one that it serves. -/
theorem served_of_mem_routes (h : r ∈ (LegacyMap.getRoutingPeerRoutes a t).1) :
    ∃ r₀ ∈ a.routes.entries, r₀.enabled ∧ Serves a t r₀ ∧ r.groups = r₀.groups ∧
      r.accessControlGroups = r₀.accessControlGroups := by
  rw [LegacyMap.getRoutingPeerRoutes] at h
  cases hp : a.getPeer t with
  | none => rw [hp] at h; cases h
  | some p =>
    rw [hp] at h
    obtain ⟨r', hr', rfl⟩ := mem_map.mp h
    obtain ⟨hr', he⟩ := mem_filter.mp hr'
    obtain ⟨r₀, hr₀, hc⟩ := mem_flatMap.mp (mem_of_mem_firstByKey hr')
    refine ⟨r₀, hr₀, ?_⟩
    rcases mem_append.mp hc with hc | hc
    · obtain ⟨gid, hgi, hs⟩ := mem_filterMap.mp hc
      cases hg : a.getGroup gid with
      | none => simp [hg] at hs
      | some g =>
        by_cases ht : t ∈ g.peers
        · simp only [hg, ht, if_true, some.injEq] at hs
          subst hs
          exact ⟨he, .inr ⟨gid, hgi, g, hg, ht⟩, rfl, rfl⟩
        · simp [hg, ht] at hs
    · obtain ⟨hpe, hc⟩ := mem_ite_nil_right.mp hc
      obtain rfl := mem_singleton.mp hc
      exact ⟨he, .inl hpe, rfl, rfl⟩

variable (k : Knows a vp rp rr t c)

include k

/-- The active rules for an access control group are the same. -/
theorem same_routeRules
    (hrl : ∀ pr ∈ activeRules a.policies, (∃ rule ∈ pr.1.rules, gid ∈ rule.destinations) →
      policyRelevant a vp t pr.1) : SameSet (activeRules (policiesWithDestination a.policies gid))
      (activeRules (policiesWithDestination c.policies gid)) := by
  rintro ⟨pol, rule⟩
  rw [mem_activeRules, mem_activeRules, mem_policiesWithDestination, mem_policiesWithDestination,
    k.policies, mem_filter]
  constructor
  · rintro ⟨⟨hp, hd⟩, he, hr, hre⟩
    have hpr : (pol, rule) ∈ activeRules a.policies := mem_activeRules.mpr ⟨hp, he, hr, hre⟩
    exact ⟨⟨⟨hp, hrl _ hpr hd⟩, hd⟩, he, hr, hre⟩
  · rintro ⟨⟨⟨hp, -⟩, hd⟩, h⟩
    exact ⟨⟨hp, hd⟩, h⟩

/-- **The rules of the target's routes are the same.** -/
theorem same_routesFirewallRules (ht : a.getPeer t = some tp)
    (hv : RouteViews a vp rp rr t env tp) : SameRules (LegacyMap.getPeerRoutesFirewallRules a vp t)
      (Calculate.getPeerRoutesFirewallRules c t) := by
  rw [Calculate.getPeerRoutesFirewallRules, (routingPeerRoutes_known k env ht (.inl rfl)).1]
  refine flatMap (SameSet.refl _) fun r hr => ?_
  obtain ⟨r₀, hr₀, he, hs, hgr, ha⟩ := served_of_mem_routes hr
  split
  · exact refl _
  refine flatMap (SameSet.refl _) fun gid hgi => ?_
  have hg' : gid ∈ r₀.accessControlGroups := ha ▸ hgi
  have hro : ∀ {gid : String}, gid ∈ routeGroupIDs r₀ →
      RelevantGroup a vp t gid := fun h => .inr (.inl ⟨r₀, hr₀, h⟩)
  obtain ⟨g, hg⟩ := isSome_iff_exists.mp
    (hv.groups gid (hro (mem_append_right _ (by rw [if_pos he]; exact hg'))))
  rw [getAllRoutePoliciesFromGroups, hg]
  simp only [id_of_getGroup hg]
  rw [getRouteFirewallRules_eq, getRouteFirewallRules_eq]
  have hre : ∀ pr ∈ activeRules a.policies, (∃ rule ∈ pr.1.rules, gid ∈ rule.destinations) →
      policyRelevant a vp t pr.1 := by
    rintro pr hpr ⟨rule, hru, hde⟩
    exact policyRelevant_iff.mpr ⟨(mem_activeRules.mp hpr).2.1,
      hv.relevant r₀ hr₀ he hs pr ⟨hpr, gid, hg', rule, hru, hde⟩⟩
  refine flatMap (same_routeRules k hre) ?_
  rintro ⟨pol, rule⟩ hpr
  obtain ⟨hp, hpe, hru, hrn⟩ := mem_activeRules.mp hpr
  obtain ⟨hp, rule', hr', hde⟩ := mem_policiesWithDestination.mp hp
  have hp' : (pol, rule) ∈ activeRules a.policies := mem_activeRules.mpr ⟨hp, hpe, hru, hrn⟩
  refine sameRules_generate r rule (perm_rulePeers k ?_ ?_ ?_ ?_)
  · intro check hc
    refine mem_append_left _ (mem_flatMap.mpr ⟨pol, ?_, hc⟩)
    rw [k.policies]
    exact mem_filter.mpr ⟨hp, hre _ hp' ⟨rule', hr', hde⟩⟩
  · intro q hq hd hsr
    rw [mem_groupMembers, hgr] at hd
    exact hv.routeSources r₀ hr₀ he hs (pol, rule) ⟨hp', gid, hg', rule', hr', hde⟩ q hq hd hsr
  · intro q hk _ hd
    obtain ⟨gid, hgi, hg⟩ := mem_groupMembers.mp hd
    exact mem_groupMembers.mpr ⟨gid, hgi, (mem_groupInfo k).mpr ⟨.inl (hro
      (mem_append_left _ (mem_append_left _ (hgr ▸ hgi)))), hg, hk⟩⟩
  · intro q _ hd
    obtain ⟨gid, hgi, hg⟩ := mem_groupMembers.mp hd
    exact mem_groupMembers.mpr ⟨gid, hgi, ((mem_groupInfo k).mp hg).2.1⟩

end

/-! ## Rules of network resources -/

section

variable {a : StoredAccount} {env : Env} {tp : Peer}

/-- A route to a resource that has the target's key is one that the target routes. -/
theorem routed_of_key (ht : a.getPeer t = some tp) (hk : r.peer = tp.key)
    (hr : some r ∈ (legacySync env a t rp rr).routes) :
    ∃ res ∈ a.networkResources, res.enabled ∧ isRouterOf rr t res ∧
      getResourceID r = res.id ∧ policiesIn rp res.id ≠ [] := by
  obtain ⟨res, hre, he, ⟨router, hl, hx⟩ | ⟨hc, q, router, hl, hx⟩⟩ := mem_sync_routes.mp hr
  · obtain ⟨hn, p, -, hr⟩ := mem_legacyRoutes.mp hx
    refine ⟨res, hre, he, by rw [isRouterOf, hl]; rfl, ?_, hn⟩
    exact getResourceID_of_id (toRoute_id hr.symm).1 (a.resourceIDs res hre)
  · -- a client gets the routes of routers, and keys are unique
    obtain ⟨-, p, hp, hr⟩ := mem_legacyRoutes.mp hx
    obtain rfl := a.eq_of_key (Keyed.mem_of_get hp) (Keyed.mem_of_get ht)
      ((toRoute_id hr.symm).2.symm.trans hk)
    obtain rfl : q = t := (id_of_getPeer hp).symm.trans (id_of_getPeer ht)
    cases hc.1.symm.trans hl

theorem mem_getPoliciesSourcePeers (hpr : pr ∈ activeRules policies)
    (h : IsSource getGroup t pr.2 q) : q ∈ getPoliciesSourcePeers getGroup policies := by
  grind [mem_activeRules, mem_groupMembers, IsSource, getPoliciesSourcePeers]

variable (k : Knows a vp rp rr t c)

include k

/-- **The rules of the resources that the target routes are the same.** -/
theorem same_resourceFirewallRules (ht : a.getPeer t = some tp)
    (hv : RouteViews a vp rp rr t env tp) {routes : List Route}
    (hro : ∀ r, r ∈ routes ↔ some r ∈ (legacySync env a t rp rr).routes) :
    SameRules (networkResourceFirewallRules a.getGroup a.getPeer
        (LegacyMap.validSource a vp) (policiesIn rp) tp routes)
      (networkResourceFirewallRules (getGroupInfo c) (getPeerInfo c) (Calculate.validSource c)
        (policiesOf c) tp (componentSync env c t).routes) := by
  refine flatMap ((same_resourceRoutes k hv.toClientViews hro).filter _)
    (fun r hr => withSources ?_)
  obtain ⟨hr, hke⟩ := mem_filter.mp hr
  obtain ⟨res, hre, he, hrt, hi, hn⟩ := routed_of_key ht (of_decide_eq_true hke) ((hro r).mp hr)
  have hlo := lookup_of_policiesIn hn
  have hk := routed_kept k hre he hrt hlo
  have hp := policiesOf_components k hk
  rw [hi, hp, getRouteFirewallRules_eq, getRouteFirewallRules_eq, id_of_getPeer ht]
  refine flatMap (SameSet.refl _) fun pr hpr => ?_
  refine sameRules_generate r pr.2 (perm_rulePeers k ?_ ?_ ?_ ?_)
  · intro check hc
    exact referenced_of_policiesOf (hp ▸ (mem_activeRules.mp hpr).1) hc
  · intro q hq _ hs
    exact hv.resourceSources res hre pr ⟨he, hrt, _, hlo, hpr⟩ q hq hs
  · intro q _ hs _
    exact mem_getPoliciesSourcePeers hpr hs
  · intro q hs _
    exact mem_getPoliciesSourcePeers hpr hs

end

/-! ## The maps -/

section

variable {a : StoredAccount} {vp : Validated} {env : Env}
  {rp : PolicyMap} {rr : Routers} {t : String} {gu : UserMap} {c : NetworkMapComponents} {tp : Peer}

/-- Without a route of its own the target has no rules for resources, router or not. -/
theorem ite_networkResourceFirewallRules {getPeer : String → Option Peer}
    {policiesOf : String → List Policy} {routes : List Route}
    {isRouter : Bool} (h : ∀ r ∈ routes, r.peer = tp.key → isRouter) :
    (if isRouter then networkResourceFirewallRules getGroup getPeer valid policiesOf tp routes
      else []) = networkResourceFirewallRules getGroup getPeer valid policiesOf tp routes := by
  cases isRouter with
  | true => rfl
  | false =>
    have hn : routes.filter (·.peer = tp.key) = [] :=
      filter_eq_nil_iff.mpr fun r hr hk => nomatch h r hr (of_decide_eq_true hk)
    rw [networkResourceFirewallRules, hn]
    rfl

/-- With such a route both have the target as a router. -/
theorem isRouter_of_key (k : Knows a vp rp rr t c)
    (ht : a.getPeer t = some tp) (hke : r.peer = tp.key)
    (hr : some r ∈ (legacySync env a t rp rr).routes) :
    (legacySync env a t rp rr).isRouter ∧ (componentSync env c t).isRouter := by
  obtain ⟨res, hre, he, hro, -, hn⟩ := routed_of_key ht hke hr
  obtain ⟨pol, hp⟩ := exists_mem_of_ne_nil _ hn
  obtain ⟨policies, hl, -⟩ := mem_policiesIn.mp hp
  have hk := routed_kept k hre he hro hl
  refine ⟨sync_isRouter.mpr ⟨res, hre, he, hro⟩, sync_isRouter.mpr ⟨res, hk, he, ?_⟩⟩
  rw [routingPeers_components k hk]
  exact hro

/-- **The account and the components agree** on routes and route firewall rules,
    away from the blind spots. -/
theorem routes_agree
    (hviews : ∀ tp, a.getPeer t = some tp → t ∈ vp → RouteViews a.toAccount vp rp rr t env tp) :
    ∃ nm nm', LegacyMap.getPeerNetworkMap env a.toAccount t vp rp rr
        gu = .ok nm ∧
      getPeerNetworkMapFromComponents env a.toAccount t vp rp rr gu = .ok nm' ∧
      SameSet nm.routes nm'.routes ∧
      SameRules nm.routesFirewallRules nm'.routesFirewallRules := by
  by_cases hi : t ∈ vp ∧ (a.getPeer t).isSome
  · obtain ⟨hv, hso⟩ := hi
    obtain ⟨tp, ht⟩ := isSome_iff_exists.mp hso
    have hviews := hviews tp ht hv
    obtain ⟨c, hc⟩ : ∃ c, getPeerNetworkMapComponents a t vp rp
        rr gu = .ok (some c) := hviews.exists_components ht hv
    have k := knows_of_ok hc
    obtain ⟨routes, hm, hro⟩ := exists_mapM_id (legacyRoutes_isSome hviews.domains)
    have hs := same_resourceRoutes k hviews.toClientViews hro
    have ha : SameSet (legacyGen env a vp gu tp).peers (componentGen env c t).peers :=
      same_aclPeers k ht hviews.toPolicyViews
    refine ⟨_, calculate env c, LegacyMap.map_of_routes ht hv hm, ?_, ?_, ?_⟩
    · rw [getPeerNetworkMapFromComponents, hc]
      rfl
    · simp only [calculate, k.peerID, k.settings]
      refine hs.append (same_routesToSync k ht (ha.filter _) (fun q hq => ?_))
      grind [mem_aclPeers, known_of_mem_facing]
    · simp only [calculate, k.peerID]
      refine append ?_ (same_routesFirewallRules k ht hviews)
      rw [ite_networkResourceFirewallRules (fun r hr hke =>
        (isRouter_of_key k ht hke ((hro r).mp hr)).1), getPeerNetworkResourceFirewallRules,
        (getPeerInfo_eq_some k).mpr ⟨.inl rfl, ht⟩]
      rw [ite_networkResourceFirewallRules (fun r hr hke =>
        (isRouter_of_key k ht hke ((hro r).mp ((hs r).mpr hr))).2)]
      exact same_resourceFirewallRules k ht hviews hro
  · refine ⟨_, _, LegacyMap.map_of_absent hi, ?_, SameSet.refl _, refl _⟩
    rw [getPeerNetworkMapFromComponents, components_none hi]
    rfl

end

/-! ## A routing peer among the destinations -/

section

variable {rule : PolicyRule}

/-- A rule with the routing peer among its destinations brings its sources in. -/
theorem sourceSeen_of_destination (h : Plain a vp) (hpr : (pol, rule) ∈ activeRules a.policies)
    (hi : InDestinations a vp t rule) (hr : ¬ rule.sourceResource.IsPeer)
    (hq : (a.getPeer q).isSome) (hs : IsSource a.getGroup t rule q) :
    SourceSeen a vp rp rr t pol rule q := by
  obtain ⟨hn, hgr⟩ := hs.resolve_right (hr ·.1)
  have hun : q ∈ getUniquePeerIDsFromGroupsIDs a.getGroup rule.sources :=
    (mem_uniquePeerIDs (fun _ _ _ hg ha => h.mem_all hg ha hgr)).mpr hgr
  refine ⟨fun hu => ?_, fun _ _ => ?_, fun _ => h.mem_validated hq, fun hv _ hfl => ?_⟩
  · refine .inr (.inl ⟨(pol, rule), hpr, .inr ⟨hi, ?_⟩⟩)
    rw [OnSide, if_neg hr]
    exact ⟨hun, hu, hn⟩
  · obtain ⟨gid, hgi, hg⟩ := hgr
    exact ⟨gid, hgi, .inl (.inr (.inr ⟨(pol, rule), hpr, .inr (.inr ⟨hi, hgi⟩)⟩)), hg⟩
  · obtain ⟨p, hp⟩ := isSome_iff_exists.mp hq
    rcases usable_or_failsAt pol.sourcePostureChecks hp hv with ⟨-, -, hu⟩ | ⟨check, hf, hfa⟩
    · cases hfl.symm.trans hu
    · refine ⟨check, (firstFailed_eq_some hf).1, .inl ⟨(pol, rule), hpr, ?_⟩⟩
      exact mem_append_left _
        (mem_firstSide_failed.mpr ⟨hr, mem_seenLoop_of_mem_uniqueLoop hun, hfa⟩)

end

/-- A route of `p1` that is open to group "d", if a policy leads to group "acg"; the
    policy has "d" as its source. -/
def routeAccount (members : List String) : StoredAccount where
  peers := directAccount.peers
  groups := ⟨[{ id := "d", peers := ["p2"] }, { id := "acg", peers := members }], by
    simp only [map_cons, map_nil]; decide⟩
  policies :=
    [{ id := "pol", rules := [{ id := "rule", sources := ["d"], destinations := ["acg"] }] }]
  routes := ⟨[{ id := "r", peer := "p1", groups := ["d"], accessControlGroups := ["acg"] }],
    by decide⟩
  ips_nodup := directAccount.ips_nodup
  keys_nodup := directAccount.keys_nodup
  resourceIDs := colon_nil

/-- The two maps of `p1`, with both peers validated. -/
def routeMaps (a : Account) : Except GoPanic NetworkMap × Except GoPanic NetworkMap :=
  (LegacyMap.getPeerNetworkMap plainEnv a "p1" ["p1", "p2"] ∅ ∅ ∅,
   getPeerNetworkMapFromComponents plainEnv a "p1" ["p1", "p2"] ∅ ∅ ∅)

/-- With `p1` in "acg" both let `p2` through. -/
theorem routes_agree_member :
    ∃ nm nm', routeMaps (routeAccount ["p1"]).toAccount = (.ok nm, .ok nm') ∧
      SameSet nm.routes nm'.routes ∧ SameRules nm.routesFirewallRules nm'.routesFirewallRules := by
  have hp : Plain (routeAccount ["p1"]).toAccount ["p1", "p2"] :=
    ⟨by decide, by decide, by decide, by decide, by decide⟩
  have hi : InDestinations (routeAccount ["p1"]).toAccount ["p1", "p2"] "p1"
      { id := "rule", sources := ["d"], destinations := ["acg"] } := by
    exact ⟨by decide, by decide, by decide⟩
  have hv : ∀ tp, (routeAccount ["p1"]).getPeer "p1" = some tp →
      ViewsAgree (routeAccount ["p1"]).toAccount ["p1", "p2"] "p1" plainEnv ∅ ∅ tp :=
    fun tp ht => hp.viewsAgree ht fun _ _ _ => rfl
  obtain ⟨nm, nm', h, h', hs⟩ := @routes_agree (routeAccount ["p1"]) ["p1", "p2"] plainEnv ∅ ∅
    "p1" ∅ (fun tp ht _ =>
      { toPolicyViews := (hv tp ht).toPolicyViews
        toClientViews := (hv tp ht).toClientViews
        relevant := by
          rintro r - - - pr ⟨hpr, -⟩
          obtain rfl := mem_singleton.mp hpr
          exact ⟨_, mem_singleton_self _, rfl, .inl (by decide)⟩
        routeSources := by
          rintro r - - - pr ⟨hpr, -⟩ q hq - hsr
          have hp' := mem_singleton.mp hpr
          subst hp'
          exact sourceSeen_of_destination hp hpr hi (by decide) hq hsr
        resourceSources := nofun })
  exact ⟨nm, nm', Prod.ext h h', hs⟩

/-- With nobody in "acg" the components have forgotten `p2`. -/
theorem routes_differ_no_member :
    ∃ nm nm', routeMaps (routeAccount []).toAccount = (.ok nm, .ok nm') ∧
      ¬ SameRules nm.routesFirewallRules nm'.routesFirewallRules := by
  obtain ⟨nm, hn, hru⟩ := exists_ok_of_map (x := (routeMaps (routeAccount []).toAccount).1)
    (f := fun nm => nm.routesFirewallRules.map RouteFirewallRule.sourceRanges)
    (b := [["100.64.0.2/32"]]) (by decide +kernel)
  obtain ⟨nm', hn', hr'⟩ := exists_ok_of_map (x := (routeMaps (routeAccount []).toAccount).2)
    (f := fun nm => nm.routesFirewallRules.map RouteFirewallRule.sourceRanges)
    (b := [[]]) (by decide +kernel)
  refine ⟨nm, nm', Prod.ext hn hn', fun h => ?_⟩
  obtain ⟨x, hx, hr⟩ := mem_map.mp (hru ▸ mem_singleton_self ["100.64.0.2/32"])
  obtain ⟨y, hy, -, hp⟩ := h.left x hx
  have he : y.sourceRanges ∈ [([] : List String)] := hr' ▸ mem_map_of_mem hy
  rw [hr, mem_singleton.mp he] at hp
  exact absurd hp.length_eq (by decide)

end Agreement

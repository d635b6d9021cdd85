import NetbirdHa.BuilderRouteAgreementProofs

/-! # A new builder and the account agree on route firewall rules

The rules of a route come from the policies that lead to its access control
groups, those of a resource from its policies.  The builder has the same rules
away from two blind spots (`RouteRulesClear`):

* it finds a policy through the groups that the policy's enabled rules mention,
  whether the access control group exists or not;
* the ID that a rule is kept under leaves out the policy and the port range, so
  of two rules that differ in nothing else the last one written is returned
  for both.

With the conditions on policies, resources and routes this gives the maps
(`builder_agrees`). -/

namespace Builder

open Table AccountModel FirewallRules Connection Routes LegacyMap Components List Account Keyed
  SameRules
  Agreement Text

section

variable (a : Account) (vp : Validated) (t : String)

/-- The sources of a rule on a route of the target. -/
def ruleSources (dist : List String) (pr : Policy × PolicyRule) : List Peer :=
  getRulePeers a.getGroup a.getPeer (validSource a vp) pr.2 pr.1.sourcePostureChecks t dist

/-- The rules of the resources among the routes. -/
abbrev resourceRules (tp : Peer) (routes : List Route) : List RouteFirewallRule :=
  networkResourceFirewallRules a.getGroup a.getPeer (validSource a vp) (policiesOf a) tp routes

/-- Two rules with the same action, protocol, source addresses and port are of one
    policy and for one port range. -/
def NoRivals (dist : List String) (pr pr' : Policy × PolicyRule) : Prop :=
  pr.2.action = pr'.2.action → pr.2.protocol = pr'.2.protocol →
    ((ruleSources a vp t dist pr).map Peer.ip).Perm
        ((ruleSources a vp t dist pr').map Peer.ip) →
      ∀ v ∈ portVariants pr.2, ∀ v' ∈ portVariants pr'.2, v.1 = v'.1 →
        pr.2.policyID = pr'.2.policyID ∧ v.2 = v'.2
deriving Decidable

/-- Route firewall rules are found alike and told apart. -/
structure RouteRulesClear : Prop where
  policies : ∀ r ∈ a.routes.entries, r.enabled → Serves a t r →
    ∀ gid ∈ r.accessControlGroups, ∀ pol ∈ a.policies, pol.enabled →
      (∃ rule ∈ pol.rules, gid ∈ rule.destinations) →
        ((a.getGroup gid).isSome ↔ gid ∈ affectedGroups pol)
  routes : ∀ r ∈ a.routes.entries, r.enabled → Serves a t r →
    ∀ pr ∈ activeRules a.policies, ∀ pr' ∈ activeRules a.policies, RouteRule a r pr →
      RouteRule a r pr' → NoRivals a vp t (groupMembers a.getGroup r.groups) pr pr'
  resources : ∀ res ∈ a.networkResources, res.enabled →
    isRouterOf (getResourceRoutersMap a) t res →
      ∀ pr ∈ activeRules (policiesOf a res.id), ∀ pr' ∈ activeRules (policiesOf a res.id),
        NoRivals a vp t (getPoliciesSourcePeers a.getGroup (policiesOf a res.id)) pr pr'

end

variable {dist : List String} {pr : Policy × PolicyRule}

/-! ## The rules of routes -/

section

variable {env : Env} {a : IndexedAccount} {g : UserMap} {vp : Validated}
  {t : String} {tp : Peer} {r : Route} {x : RouteFirewallRule}

/-- The cache has the account's sources. -/
theorem getRulePeers_cached : getRulePeers (cachedGroup (idx a g))
      (idx a g).globalPeers.lookup (validSource a vp)
      pr.2 pr.1.sourcePostureChecks t dist = ruleSources a vp t dist pr := by
  rw [ruleSources, getRulePeers, getRulePeers, rulePeerIDs, groupMembers_cached]
  exact filterMap_congr fun q _ => lookup_globalPeers

/-- The policies that the builder has for an access control group. -/
theorem mem_routePolicies : pol ∈ getAllRoutePoliciesFromGroups (idx a g) gid ↔
    pol ∈ a.policies ∧ pol.enabled ∧ gid ∈ affectedGroups pol ∧
      ∃ rule ∈ pol.rules, gid ∈ rule.destinations := by
  rw [getAllRoutePoliciesFromGroups, mem_firstByKey, mem_filter, mem_groupToPolicies,
    and_assoc, and_assoc]
  · refine and_congr_right fun hp => and_congr_right fun he => and_congr_right fun _ => ?_
    rw [listAt_policyToRules hp he]
    simp
  · intro pol hp pol' hp' hi
    have hm := (mem_groupToPolicies.mp (mem_filter.mp hp).1).1
    have hm' := (mem_groupToPolicies.mp (mem_filter.mp hp').1).1
    exact inj_on_of_nodup_map a.policyIDs_nodup hm hm' hi

/-- … and those that the account has. -/
theorem mem_legacy_routePolicies : pol ∈ LegacyMap.getAllRoutePoliciesFromGroups a gid ↔
    (a.getGroup gid).isSome ∧ pol ∈ a.policies ∧ ∃ rule ∈ pol.rules, gid ∈ rule.destinations := by
  grind [LegacyMap.getAllRoutePoliciesFromGroups, id_of_getGroup, mem_policiesWithDestination]

/-- **The rules of the target's routes are the same.** -/
theorem same_peerRouteRules (ht : a.getPeer t = some tp) (hc : RouteRulesClear a vp t) :
    SameRules (LegacyMap.getPeerRoutesFirewallRules a vp t)
      (getPeerRoutesFirewallRules (idx a g) a vp t) := by
  obtain rfl := id_of_getPeer ht
  have ho : SameSet (LegacyMap.getRoutingPeerRoutes a tp.id).1
      (getRoutingPeerRoutes (idx a g) tp.id).1 := by
    intro x
    rw [mem_legacy_getRoutingPeerRoutes ht, mem_getRoutingPeerRoutes ht]
  refine flatMap ho fun r hr => ?_
  obtain ⟨r₀, hr₀, he, hs⟩ := (mem_legacy_getRoutingPeerRoutes ht).mp hr
  have ha := hs.accessControlGroups
  split
  · exact refl _
  refine flatMap (SameSet.refl _) fun gid hg => ?_
  rw [getRouteFirewallRules_eq, getRouteFirewallRules_eq, groupMembers_cached]
  refine flatMap ?_ fun pr _ => ?_
  · rintro ⟨pol, rule⟩
    rw [mem_activeRules, mem_activeRules, mem_legacy_routePolicies, mem_routePolicies]
    have hi := hc.policies r₀ hr₀ he hs.serves gid (ha ▸ hg) pol
    grind
  · rw [getRulePeers_cached]
    exact refl _

/-- A route to a resource that has the target's key leads through the target, which
    routes the resource then. -/
theorem routed_of_key (ht : a.getPeer t = some tp) (hk : r.peer = tp.key)
    (hr : r ∈ resourceRoutes env (idx a g) a vp tp) :
    ∃ res ∈ a.networkResources, res.enabled ∧ policiesOf a res.id ≠ [] ∧
      getResourceID r = res.id ∧ ∃ router, (routersOf a res).lookup t = some router ∧
        toRoute env res tp router = some r := by
  obtain ⟨res, hre, he, hn, q, router, pq, hl, hpq, hx, -⟩ := mem_resourceRoutes.mp hr
  obtain ⟨hi, hp⟩ := toRoute_id hx
  obtain rfl := a.eq_of_key (mem_of_get hpq) (mem_of_get ht) (hp.symm.trans hk)
  obtain rfl : q = t := (id_of_getPeer hpq).symm.trans (id_of_getPeer ht)
  exact ⟨res, hre, he, hn, getResourceID_of_id hi (a.resourceIDs res hre), router, hl, hx⟩

/-- **The rules of resources are the same.** -/
theorem same_resourceRules (ht : a.getPeer t = some tp) {routes : List Route}
    (hro : SameSet routes (resourceRoutes env (idx a g) a vp tp)) :
    SameRules (if (accountSync env a t).isRouter then resourceRules a vp tp routes else [])
      (if resourceRoutes env (idx a g) a vp tp = [] then []
      else resourceRules a vp tp (resourceRoutes env (idx a g) a vp tp)) := by
  generalize hR : resourceRoutes env (idx a g) a vp tp = R at hro ⊢
  have hs : SameRules (resourceRules a vp tp routes) (resourceRules a vp tp R) :=
    flatMap (hro.filter _) fun r _ => refl _
  have hri : (if R = [] then [] else resourceRules a vp tp R) = resourceRules a vp tp R := by
    split
    · next hnil => rw [hnil]; rfl
    · rfl
  rw [hri]
  split
  · exact hs
  rename_i hrt
  -- a target that routes nothing has no route under its key
  have hnil : routes.filter (·.peer = tp.key) = [] := by
    refine filter_eq_nil_iff.mpr fun r hr hk => hrt ?_
    obtain ⟨res, hre, he, -, -, router, hlo, -⟩ :=
      routed_of_key ht (of_decide_eq_true hk) (hR ▸ (hro r).mp hr)
    refine sync_isRouter.mpr ⟨res, hre, he, ?_⟩
    rw [hlo]
    rfl
  have hl : resourceRules a vp tp routes = [] := by
    rw [resourceRules, networkResourceFirewallRules, hnil]
    rfl
  rwa [hl] at hs

end

/-! ## The IDs of route firewall rules -/

section

variable {env : Env} {a : IndexedAccount} {g : UserMap} {vp : Validated}
  {t : String} {tp p : Peer} {r r' : Route} {x y : RouteFirewallRule}

/-- The route with this ID names its routing peer. -/
def NamesPeer (a : Account) (h : String) : Prop :=
  ∃ r ∈ a.routes.entries, r.id = h ∧ r.peer ≠ ""

/-- The ID of a route is one of the account's, and the ID of a peer follows unless
    the route names its routing peer. -/
theorem origin_id (hr : Origin env a r) : ∃ h, ':' ∉ h.toList ∧ ((r.id = h ∧ NamesPeer a h) ∨
    ∃ p, a.getPeer p.id = some p ∧ r.id = h ++ ":" ++ p.id ∧ ¬ NamesPeer a h) := by
  obtain ⟨p, hp, ⟨r₀, hr₀, -, ⟨hin, rfl⟩ | ⟨hpe, rfl⟩⟩ | ⟨res, hre, router, -, hx⟩⟩ := hr
  · refine ⟨r₀.id, a.routeIDs_colon r₀ hr₀, .inr ⟨p, hp, rfl, ?_⟩⟩
    rintro ⟨r', hr', hi, hn⟩
    obtain rfl := eq_of_key hr' hr₀ hi
    obtain ⟨gid, hg, -⟩ := hin
    exact ne_nil_of_mem hg ((a.routes_served r' hr').resolve_left hn)
  · refine ⟨r₀.id, a.routeIDs_colon r₀ hr₀, .inl ⟨rfl, r₀, hr₀, rfl, ?_⟩⟩
    rw [hpe]
    exact a.peerIDs_ne p (mem_of_get hp)
  · refine ⟨res.id, a.resourceIDs res hre, .inr ⟨p, hp, (toRoute_id hx).1, ?_⟩⟩
    rintro ⟨r', hr', hi, -⟩
    exact a.routeIDs_kind r' hr' res hre hi

/-- So the ID of a route can be read off a text that it starts. -/
theorem origin_append_inj (hr : Origin env a r) (hr' : Origin env a r')
    (h : r.id ++ (":" ++ s) = r'.id ++ (":" ++ s')) : r = r' ∧ s = s' := by
  suffices hpa : r.id = r'.id ∧ s = s' from ⟨origin_inj hr hr' hpa.1, hpa.2⟩
  have ha : ∀ i p s : String, i ++ ":" ++ p ++ (":" ++ s) = i ++ (":" ++ (p ++ (":" ++ s))) :=
    fun i p s => by simp only [String.append_assoc]
  obtain ⟨i, hi, ⟨hid, hn⟩ | ⟨p, hp, hid, hn⟩⟩ := origin_id hr
  · obtain ⟨i', hi', ⟨hid', -⟩ | ⟨p', -, hid', hn'⟩⟩ := origin_id hr'
    · rw [hid, hid'] at h
      obtain ⟨rfl, hre⟩ := append_sep_inj colon_toList hi hi' h
      exact ⟨hid.trans hid'.symm, hre⟩
    · rw [hid, hid', ha] at h
      obtain ⟨rfl, -⟩ := append_sep_inj colon_toList hi hi' h
      exact absurd hn hn'
  · obtain ⟨i', hi', ⟨hid', hn'⟩ | ⟨p', hp', hid', -⟩⟩ := origin_id hr'
    · rw [hid, hid', ha] at h
      obtain ⟨rfl, -⟩ := append_sep_inj colon_toList hi hi' h
      exact absurd hn' hn
    · rw [hid, hid', ha, ha] at h
      obtain ⟨rfl, hre⟩ := append_sep_inj colon_toList hi hi' h
      obtain ⟨hpi, hre⟩ := append_sep_inj colon_toList
        (a.peerIDs_colon p (mem_of_get hp)) (a.peerIDs_colon p' (mem_of_get hp')) hre
      exact ⟨by rw [hid, hid', hpi], hre⟩

/-- A rule of a route. -/
structure RuleOf (r : Route) (x : RouteFirewallRule) : Prop where
  routeID : x.routeID = r.id
  destination : x.destination = r.network.text
  action : ':' ∉ x.action.toList
  protocol : ':' ∉ x.protocol.toList
  sources : ∀ s ∈ x.sourceRanges, ',' ∉ s.toList ∧ s ≠ ""

/-- **The ID of a route firewall rule tells all but the policy and the port range.** -/
theorem generateRouteFirewallRuleID_inj (hr : Origin env a r)
    (hr' : Origin env a r') (hx : RuleOf r x) (hy : RuleOf r' y)
    (h : generateRouteFirewallRuleID x = generateRouteFirewallRuleID y) :
    r = r' ∧ x.action = y.action ∧ x.sourceRanges = y.sourceRanges ∧ x.protocol = y.protocol ∧
      x.port = y.port := by
  unfold generateRouteFirewallRuleID at h
  simp only [String.append_assoc, hx.routeID, hy.routeID, hx.destination, hy.destination] at h
  obtain ⟨rfl, h⟩ := origin_append_inj hr hr' ((String.append_right_inj _).mp h)
  have h := (String.append_right_inj _).mp ((String.append_right_inj _).mp h)
  obtain ⟨ha, h⟩ := append_sep_inj colon_toList hx.action hy.action h
  -- sources may be IPv6 ranges, so the rest is read from its end
  have he : ∀ s p n : String, s ++ (":" ++ (p ++ (":" ++ n))) = s ++ (":" ++ p) ++ (":" ++ n) :=
    fun s p n => by simp only [String.append_assoc]
  rw [he, he] at h
  obtain ⟨h, hpo⟩ := sep_append_inj colon_toList (notMem_nat rfl _) (notMem_nat rfl _) h
  obtain ⟨h, hp⟩ := sep_append_inj colon_toList hx.protocol hy.protocol h
  exact ⟨rfl, ha, intercalate_inj rfl hx.sources hy.sources h, hp,
    UInt16.toNat_inj.mp (nat_inj hpo)⟩

/-- The rule comes from a policy rule, for one of its ports. -/
def FromRule (a : Account) (vp : Validated) (t : String) (r : Route) (dist : List String)
    (pr : Policy × PolicyRule) (x : RouteFirewallRule) : Prop :=
  ∃ v ∈ portVariants pr.2, (routeBaseRule r pr.2 (ruleSources a vp t dist pr)).withPorts v = x

theorem fromRule_of_mem (h : x ∈ generateRouteFirewallRules r pr.2 (ruleSources a vp t dist pr)) :
    FromRule a vp t r dist pr x := by
  rw [generateRouteFirewallRules_eq] at h
  exact mem_map.mp h

theorem FromRule.ruleOf (h : FromRule a vp t r dist pr x) : RuleOf r x := by
  obtain ⟨v, -, rfl⟩ := h
  refine ⟨rfl, rfl, colon_notMem_action _, colon_notMem_protocol _, fun s hs => ?_⟩
  obtain ⟨q, hq, rfl⟩ := mem_map.mp hs
  obtain ⟨id, -, hg⟩ := mem_filterMap.mp hq
  have hp := (a.ips_plain q (mem_of_get hg)).2
  constructor
  · rw [String.toList_append, mem_append]
    rintro (h | h)
    · exact hp h
    · exact absurd h (by decide)
  · intro he
    have hl := congrArg String.length he
    simp at hl

theorem ruleOf_defaultPermit (h : x ∈ getDefaultPermit r) : RuleOf r x := by
  have hs : ∀ s ∈ (if r.network.is6 then ["::/0"] else ["0.0.0.0/0"]), ',' ∉ s.toList ∧ s ≠ "" := by
    cases r.network.is6 <;> decide
  have hso : ∀ s ∈ ["::/0"], ',' ∉ s.toList ∧ s ≠ "" := by decide
  rw [getDefaultPermit] at h
  split at h
  · rcases mem_pair.mp h with rfl | rfl
    · exact ⟨rfl, rfl, colon_notMem_action .accept, colon_notMem_protocol .all, hs⟩
    · exact ⟨rfl, rfl, colon_notMem_action .accept, colon_notMem_protocol .all, hso⟩
  · rw [mem_singleton.mp h]
    exact ⟨rfl, rfl, colon_notMem_action .accept, colon_notMem_protocol .all, hs⟩

/-- A route of the peer gives the rule, with or without access control groups, or
    the route to a resource that the peer routes. -/
def Yields (env : Env) (a : Account) (vp : Validated) (p : Peer) (r : Route)
    (x : RouteFirewallRule) : Prop :=
  (∃ r₀ ∈ a.routes.entries, r₀.enabled ∧ ServedAs a p r₀ r ∧
    ((r₀.accessControlGroups = [] ∧ x ∈ getDefaultPermit r) ∨
      (r₀.accessControlGroups ≠ [] ∧ ∃ pr, RouteRule a r₀ pr ∧
        FromRule a vp p.id r (groupMembers a.getGroup r₀.groups) pr x))) ∨
  ∃ res ∈ a.networkResources, res.enabled ∧ ∃ router,
    (routersOf a res).lookup p.id = some router ∧ toRoute env res p router = some r ∧
      ∃ pr ∈ activeRules (policiesOf a res.id),
        FromRule a vp p.id r (getPoliciesSourcePeers a.getGroup (policiesOf a res.id)) pr x

/-- Every route firewall rule of a view comes from a route. -/
theorem yields_of_mem (hp : a.getPeer p.id = some p) (hx : x ∈ routeRules env (idx a g) a vp p) :
    ∃ r, Yields env a vp p r x := by
  rcases mem_append.mp hx with hx | hx
  · obtain ⟨r, hr, hx⟩ := mem_flatMap.mp hx
    obtain ⟨r₀, hr₀, he, hs⟩ := (mem_getRoutingPeerRoutes hp).mp hr
    refine ⟨r, .inl ⟨r₀, hr₀, he, hs, ?_⟩⟩
    rw [hs.accessControlGroups] at hx
    split at hx
    · next hnil => exact .inl ⟨hnil, hx⟩
    rename_i hn
    obtain ⟨gid, hg, hx⟩ := mem_flatMap.mp hx
    rw [getRouteFirewallRules_eq, groupMembers_cached, hs.groups] at hx
    obtain ⟨pr, hpr, hx⟩ := mem_flatMap.mp hx
    rw [getRulePeers_cached] at hx
    obtain ⟨hpo, hpe, hru⟩ := mem_activeRules.mp hpr
    obtain ⟨hpo, -, -, hd⟩ := mem_routePolicies.mp hpo
    exact .inr ⟨hn, pr, ⟨mem_activeRules.mpr ⟨hpo, hpe, hru⟩, gid, hg, hd⟩, fromRule_of_mem hx⟩
  · obtain ⟨-, hx⟩ := mem_ite_nil_left.mp hx
    obtain ⟨r, hr, hx⟩ := mem_flatMap.mp hx
    obtain ⟨hr, hk⟩ := mem_filter.mp hr
    obtain ⟨res, hre, he, -, hi, router, hl, htr⟩ := routed_of_key hp (of_decide_eq_true hk) hr
    have hx := (mem_filter.mp hx).1
    rw [hi, getRouteFirewallRules_eq] at hx
    obtain ⟨pr, hpr, hx⟩ := mem_flatMap.mp hx
    exact ⟨r, .inr ⟨res, hre, he, router, hl, htr, pr, hpr, fromRule_of_mem hx⟩⟩

theorem Yields.origin (h : Yields env a vp p r x) (hp : a.getPeer p.id = some p) :
    Origin env a r := by
  grind [Yields, Origin]

theorem Yields.ruleOf (h : Yields env a vp p r x) : RuleOf r x := by
  rcases h with ⟨r₀, -, -, -, ⟨-, hx⟩ | ⟨-, pr, -, hx⟩⟩ | ⟨res, -, -, router, -, -, pr, -, hx⟩
  · exact ruleOf_defaultPermit hx
  · exact hx.ruleOf
  · exact hx.ruleOf

/-- Rules of rivals that share an ID do not differ. -/
theorem FromRule.eq_of_noRivals (hx : FromRule a vp t r dist pr x)
    (hy : FromRule a vp t r dist pr' y) (hr : NoRivals a vp t dist pr pr')
    (ha : x.action = y.action) (hs : x.sourceRanges = y.sourceRanges)
    (hp : x.protocol = y.protocol) (hpo : x.port = y.port) : x = y := by
  obtain ⟨v, hv, rfl⟩ := hx
  obtain ⟨v', hv', rfl⟩ := hy
  have hi : (ruleSources a vp t dist pr).map Peer.ip =
      (ruleSources a vp t dist pr').map Peer.ip := by
    refine map_injective_iff.mpr (fun _ _ => (String.append_left_inj "/32").mp) ?_
    rw [map_map, map_map]
    exact hs
  obtain ⟨hpl, hra⟩ := hr (action_text_inj ha) (protocol_text_inj hp)
    (List.Perm.of_eq hi) v hv v' hv' hpo
  grind [RouteFirewallRule.withPorts, routeBaseRule]

/-- The default rules of a route differ in their sources. -/
theorem eq_of_mem_defaultPermit (hx : x ∈ getDefaultPermit r) (hy : y ∈ getDefaultPermit r)
    (hs : x.sourceRanges = y.sourceRanges) : x = y := by
  have hf : ∀ {z : RouteFirewallRule}, z ∈ getDefaultPermit r → z = { z with
        policyID := "", routeID := r.id, action := TrafficAction.accept.text
        destination := r.network.text, protocol := Protocol.all.text, port := 0, portRange := {}
        domains := r.domains, isDynamic := isDynamic r } := by
    grind [getDefaultPermit]
  rw [hf hx, hf hy, hs]

/-- What one route gives is told by sources, action, protocol and port. -/
theorem Yields.eq (ht : a.getPeer tp.id = some tp) (hp : a.getPeer p.id = some p)
    (hc : RouteRulesClear a vp tp.id) (hx : Yields env a vp tp r x) (hy : Yields env a vp p r y)
    (ha : x.action = y.action) (hs : x.sourceRanges = y.sourceRanges)
    (hpt : x.protocol = y.protocol) (hpo : x.port = y.port) : x = y := by
  rcases hx with ⟨r₀, hr₀, he, hse, hx⟩ | ⟨res, hre, he, router, hl, htr, pr, hpr, hx⟩ <;>
    rcases hy with ⟨r₀', hr₀', -, hs', hy⟩ | ⟨res', hr', -, router', -, ht', pr', hp', hy⟩
  · obtain ⟨rfl, rfl, -⟩ := servedAs_inj ht hp hr₀ hr₀' hse hs' rfl
    rcases hx with ⟨hnil, hx⟩ | ⟨hn, pr, hpr, hx⟩ <;>
      rcases hy with ⟨hn', hy⟩ | ⟨hne', pr', hp', hy⟩
    · exact eq_of_mem_defaultPermit hx hy hs
    · exact absurd hnil hne'
    · exact absurd hn' hn
    · exact hx.eq_of_noRivals hy (hc.routes r₀ hr₀ he hse.serves pr hpr.1 pr' hp'.1 hpr hp') ha
        hs hpt hpo
  · exact absurd rfl (servedAs_ne_resource hr₀ hr' hse ht')
  · exact absurd rfl (servedAs_ne_resource hr₀' hre hs' htr)
  · obtain ⟨rfl, rfl⟩ := resource_inj ht hp hre hr' htr ht' rfl
    have hr : isRouterOf (getResourceRoutersMap a) tp.id res := by
      rw [isRouterOf, hl]
      rfl
    exact hx.eq_of_noRivals hy (hc.resources res hre he hr pr hpr pr' hp') ha hs hpt hpo

/-- **No ID of the target's rules is shared.** -/
theorem noSharedID_of_clear (ht : a.getPeer tp.id = some tp) (hc : RouteRulesClear a vp tp.id) :
    NoSharedID env a g vp tp := by
  intro x hx p hp y hy hi
  obtain ⟨r, hx⟩ := yields_of_mem ht hx
  obtain ⟨r', hy⟩ := yields_of_mem hp hy
  obtain ⟨rfl, ha, hs, hpr, hpo⟩ :=
    generateRouteFirewallRuleID_inj (hx.origin ht) (hy.origin hp) hx.ruleOf hy.ruleOf hi
  exact hx.eq ht hp hc hy ha hs hpr hpo

end

/-! ## The maps -/

/-- Neither computation runs into a blind spot of the builder. -/
structure BuilderViews (env : Env) (a : Account) (vp : Validated) (t : String)
    (tp : Peer) : Prop where
  isValidated : t ∈ vp
  rules : RulesClear a vp t tp
  resources : ResourcesClear env a vp t
  routes : RoutesClear env a vp t
  routeRules : RouteRulesClear a vp t

section

variable {env : Env} {a : IndexedAccount} {g : UserMap} {vp : Validated} {t : String}

/-- **A new builder returns the map of the account**, away from the blind spots. -/
theorem builder_agrees
    (hviews : ∀ tp, a.getPeer t = some tp → BuilderViews env a.toAccount vp t tp) :
    ∃ nm, LegacyMap.getPeerNetworkMap env a.toAccount t vp
        (getResourcePoliciesMap a.toAccount) (getResourceRoutersMap a.toAccount) g = .ok nm ∧
      let nm' := getPeerNetworkMap env (newNetworkMapBuilder env a.toAccount vp g) t vp
      SameSet nm.peers nm'.peers ∧ SameSet nm.offlinePeers nm'.offlinePeers ∧
        SameSet nm.firewallRules nm'.firewallRules ∧ SameSet nm.routes nm'.routes ∧
        SameRules nm.routesFirewallRules nm'.routesFirewallRules := by
  cases ht : a.getPeer t with
  | none =>
    refine ⟨_, LegacyMap.map_of_absent (fun h => by simp [ht] at h), ?_⟩
    rw [map_of_missing ht]
    exact ⟨SameSet.refl _, SameSet.refl _, SameSet.refl _, SameSet.refl _, refl _⟩
  | some tp =>
    have h := hviews tp ht
    obtain ⟨routes, hm, hr⟩ := exists_mapM_id (legacyRoutes_isSome h.resources.domains)
    have hre : SameSet routes (resourceRoutes env (buildGlobalIndexes a g) a vp tp) :=
      fun r => (hr r).trans (same_resourceRoutes ht h.resources)
    refine ⟨_, LegacyMap.map_of_routes ht h.isValidated hm, ?_⟩
    obtain ⟨hp, ho⟩ := @map_peers env a g vp vp t tp ht
    refine ⟨?_, ?_, ?_, ?_, ?_⟩
    · rw [hp]
      exact same_peers ht h.isValidated h.rules h.resources hr
    · rw [ho]
      exact same_offlinePeers ht h.isValidated h.rules h.resources
    · rw [map_firewallRules ht]
      exact same_firewallRules ht h.isValidated h.rules
    · rw [map_routes ht]
      exact same_routes ht h.isValidated h.rules h.resources h.routes hr
    · obtain rfl := id_of_getPeer ht
      rw [map_routesFirewallRules (noSharedID_of_clear ht h.routeRules) ht]
      exact (same_resourceRules ht hre).append_swap (same_peerRouteRules ht h.routeRules)

end

/-- A laptop and a gateway.  A policy lets the laptop reach the gateway over HTTPS
    and SSH, the network behind the gateway and a resource in it. -/
def officeAccount (ssh : Bool) : IndexedAccount where
  peers := ⟨[{ id := "laptop", key := "key1", ip := "100.64.0.1" },
    { id := "gateway", key := "key2", ip := "100.64.0.2" }], by decide⟩
  groups :=
    ⟨[{ id := "clients", peers := ["laptop"] },
      { id := "servers", peers := ["gateway"],
        resources := [{ id := "resource", type := .host }] }],
      by simp only [map_cons, map_nil]; decide⟩
  policies :=
    [{ id := "policy"
       rules := [
        { id := "rule1", policyID := "policy", sources := ["clients"], destinations := ["servers"]
          protocol := .tcp, ports := ["443"] },
        { id := "rule2", policyID := "policy", sources := ["clients"], destinations := ["servers"]
          protocol := .tcp, ports := ["22"], enabled := ssh }] }]
  routes :=
    ⟨[{ id := "route", network := { text := "192.168.1.0/24" }, peer := "gateway"
        groups := ["clients"], accessControlGroups := ["servers"] }], by decide⟩
  networkRouters := [{ networkID := "network", peer := "gateway" }]
  networkResources := [{ id := "resource", networkID := "network" }]
  ips_nodup := by simp only [map_cons, map_nil]; decide
  keys_nodup := by simp only [map_cons, map_nil]; decide
  resourceIDs := by decide
  policyIDs_nodup := by cases ssh <;> decide
  ruleKeys := keysApart_of_xids _ (by cases ssh <;> decide) (by cases ssh <;> decide)
  resourceIDs_nodup := by decide
  ports_colon := by cases ssh <;> decide
  peerIDs_colon := by decide
  routeIDs_colon := by decide
  ips_plain := by decide
  peerIDs_kind := by cases ssh <;> decide
  routeIDs_kind := by decide
  peerIDs_ne := by decide
  routes_peerID := by decide
  routes_served := by decide

/-- What the account and a new builder return for a peer of the office. -/
def officeMaps (ssh : Bool) (t : String) : Except GoPanic NetworkMap × NetworkMap :=
  (LegacyMap.getPeerNetworkMap plainEnv (officeAccount ssh).toAccount t ["laptop", "gateway"]
      (getResourcePoliciesMap (officeAccount ssh).toAccount)
      (getResourceRoutersMap (officeAccount ssh).toAccount) ∅,
   getPeerNetworkMap plainEnv
      (newNetworkMapBuilder plainEnv (officeAccount ssh).toAccount ["laptop", "gateway"] ∅) t
      ["laptop", "gateway"])

set_option synthInstance.maxSize 400 in
/-- With both rules enabled there is no blind spot, and the maps agree. -/
theorem office_agrees :
    (∃ nm, (officeMaps true "laptop").1 = .ok nm ∧
      SameSet nm.routes (officeMaps true "laptop").2.routes) ∧
    ∃ nm, (officeMaps true "gateway").1 = .ok nm ∧
      SameSet nm.firewallRules (officeMaps true "gateway").2.firewallRules ∧
      SameRules nm.routesFirewallRules (officeMaps true "gateway").2.routesFirewallRules := by
  have hd : ∀ t, ∀ res ∈ (officeAccount true).networkResources, res.enabled →
      NeedsRoute (officeAccount true).toAccount t
        (getResourcePoliciesMap (officeAccount true).toAccount)
        (getResourceRoutersMap (officeAccount true).toAccount) res →
        res.type = .domain → (plainEnv.domainFromStringList [res.domain]).isSome := by
    intro t res hre
    rw [mem_singleton.mp hre]
    exact nofun
  have hv : ∀ t ∈ ["laptop", "gateway"], ∀ tp, (officeAccount true).getPeer t = some tp →
      BuilderViews plainEnv (officeAccount true).toAccount ["laptop", "gateway"] t tp := by
    intro t ht tp htp
    rcases mem_pair.mp ht with rfl | rfl
    all_goals
      obtain rfl := Option.some.inj htp
      exact ⟨by decide, ⟨by decide, by decide⟩, ⟨by decide, by decide, by decide, hd _⟩,
        by unfold RoutesClear; decide, ⟨by decide, by decide, by decide⟩⟩
  obtain ⟨nm, hn, -, -, -, hro, -⟩ := @builder_agrees plainEnv (officeAccount true) ∅
    ["laptop", "gateway"] "laptop" (hv _ mem_cons_self)
  obtain ⟨nm', hn', -, -, hru, -, hr⟩ := @builder_agrees plainEnv (officeAccount true) ∅
    ["laptop", "gateway"] "gateway" (hv _ (mem_cons_of_mem _ mem_cons_self))
  exact ⟨⟨nm, hn, hro⟩, nm', hn', hru, hr⟩

/-- With the SSH rule disabled the builder still opens the port. -/
theorem office_differs :
    (officeMaps false "gateway").1.map (·.firewallRules.map FirewallRule.port) =
        .ok ["443"] ∧
      (officeMaps false "gateway").2.firewallRules.map FirewallRule.port = ["443", "22"] := by
  decide

end Builder

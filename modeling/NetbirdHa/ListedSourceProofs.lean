import NetbirdHa.RouteRuleAgreementProofs

/-! # Sources of a route with access control groups

A route with access control groups is open to the sources of the rules that
lead to one of the groups.  The code picks *policies*: those with a rule, even
a disabled one, that lists a group; and then takes every enabled rule of such
a policy.  So the sources of the other rules get in, too
(`route_sources_listed_iff`). -/

namespace Agreement

open Table AccountModel GroupPeers Connection Routes LegacyMap Components Calculate List Account

/-- An enabled rule of an enabled policy lists an access control group of the
    route and has the peer as a source. -/
def ListedSource (a : Account) (r : Route) (q : String) : Prop :=
  ∃ pr ∈ activeRules a.policies, (∃ gid ∈ r.accessControlGroups, gid ∈ pr.2.destinations) ∧
    (InGroups a.getGroup pr.2.sources q ∨ (pr.2.sourceResource.IsPeer ∧ q = pr.2.sourceResource.id))

/-- Every accept rule for a route with access control groups has listed sources only. -/
def OnlyListedSources (a : Account) (routes : List Route) (rules : List RouteFirewallRule) : Prop :=
  ∀ r ∈ routes, r.accessControlGroups ≠ [] → ∀ fr ∈ rules, fr.routeID = r.id →
    fr.action = TrafficAction.accept.text → ∀ p ∈ a.peers.entries,
      p.ip ++ "/32" ∈ fr.sourceRanges → ListedSource a r p.id

/-! ## The rules of one route -/

section

variable {getGroup : String → Option Group} {getPeer : String → Option Peer}
  {valid : List String → String → Bool} {policiesFor : String → List Policy} {t : String}
  {routes : List Route} {r : Route}

theorem firstByKey_inj : ∀ {l : List α} {seen : List String} {x y : α}, x ∈ firstByKey key seen l →
    y ∈ firstByKey key seen l → key x = key y → x = y := by
  have hs : ∀ {l : List α} {seen : List String} {x : α}, x ∈ firstByKey key seen l →
      key x ∉ seen := by
    intro l
    induction l with
    | nil => intro seen x h; cases h
    | cons z l ih => grind [firstByKey]
  intro l
  induction l with
  | nil => intro seen x y h; cases h
  | cons z l ih => grind [firstByKey]

/-- The enabled routes of a routing peer have different IDs. -/
theorem routingPeerRoutes_inj (hr : r ∈ (routingPeerRoutes getGroup routes stamp t key).1)
    (hr' : r' ∈ (routingPeerRoutes getGroup routes stamp t key).1) (h : r.id = r'.id) : r = r' := by
  obtain ⟨x, hx, rfl⟩ := mem_map.mp hr
  obtain ⟨y, hy, rfl⟩ := mem_map.mp hr'
  rw [firstByKey_inj (mem_filter.mp hx).1 (mem_filter.mp hy).1 h]

variable (policiesFor) in
/-- The rule is applied to the route: it is an active rule of a policy found for
    one of the access control groups. -/
def Applied (r : Route) (pr : Policy × PolicyRule) : Prop :=
  ∃ gid ∈ r.accessControlGroups, pr ∈ activeRules (policiesFor gid)

variable (getGroup getPeer valid t) in
/-- The rule opens the route to the peer `p`: a source that the route is
    distributed to, and valid. -/
def Opens (r : Route) (pr : Policy × PolicyRule) (p : Peer) : Prop :=
  ∃ q, getPeer q = some p ∧ IsSource getGroup t pr.2 q ∧ InGroups getGroup r.groups q ∧
    valid pr.1.sourcePostureChecks q

theorem mem_getRulePeers_iff :
    p ∈ getRulePeers getGroup getPeer valid pr.2 pr.1.sourcePostureChecks t
        (groupMembers getGroup r.groups) ↔ Opens getGroup getPeer valid t r pr p := by
  rw [getRulePeers, mem_filterMap]
  refine exists_congr fun q => ?_
  rw [mem_rulePeerIDs, mem_groupMembers]
  tauto

/-- The rules of a route with access control groups. -/
theorem mem_rules_of_route (ha : ∀ r ∈ routes, ∀ r' ∈ routes, r.id = r'.id → r = r')
    (hr : r ∈ routes) (hn : r.accessControlGroups ≠ []) :
    (fr ∈ peerRoutesFirewallRules getGroup getPeer valid policiesFor t routes ∧ fr.routeID = r.id) ↔
      ∃ pr, Applied policiesFor r pr ∧ ∃ v ∈ portVariants pr.2,
        fr = (routeBaseRule r pr.2 (getRulePeers getGroup getPeer valid pr.2
          pr.1.sourcePostureChecks t (groupMembers getGroup r.groups))).withPorts v := by
  have hm : ∀ r', fr ∈ r'.accessControlGroups.flatMap (fun gid =>
      getRouteFirewallRules getGroup getPeer valid t (policiesFor gid) r'
        (groupMembers getGroup r'.groups)) ↔
      ∃ pr, Applied policiesFor r' pr ∧ ∃ v ∈ portVariants pr.2,
        fr = (routeBaseRule r' pr.2 (getRulePeers getGroup getPeer valid pr.2
          pr.1.sourcePostureChecks t (groupMembers getGroup r'.groups))).withPorts v := by
    intro r'
    simp only [mem_flatMap, getRouteFirewallRules_eq, generateRouteFirewallRules_eq,
      mem_map, Applied]
    constructor
    · rintro ⟨gid, hg, pr, hp, v, hv, rfl⟩
      exact ⟨pr, ⟨gid, hg, hp⟩, v, hv, rfl⟩
    · rintro ⟨pr, ⟨gid, hg, hp⟩, v, hv, rfl⟩
      exact ⟨gid, hg, pr, hp, v, hv, rfl⟩
  rw [peerRoutesFirewallRules, mem_flatMap]
  constructor
  · rintro ⟨⟨r', hr', hf⟩, hi⟩
    have hi' : fr.routeID = r'.id := by
      split at hf
      · grind [getDefaultPermit]
      · obtain ⟨pr, -, v, -, rfl⟩ := (hm r').mp hf
        rfl
    obtain rfl := ha r' hr' r hr (hi'.symm.trans hi)
    rw [if_neg hn] at hf
    exact (hm r').mp hf
  · intro h
    refine ⟨⟨r, hr, ?_⟩, ?_⟩
    · rw [if_neg hn]
      exact (hm r).mpr h
    · obtain ⟨pr, -, v, -, rfl⟩ := h
      rfl

variable (getGroup getPeer valid policiesFor t routes) in
/-- Rules that come along with their policy only open a route to peers that are
    listed sources anyway. -/
def OthersListed (a : Account) : Prop :=
  ∀ r ∈ routes, r.accessControlGroups ≠ [] → ∀ pr, Applied policiesFor r pr →
    (∀ gid ∈ r.accessControlGroups, gid ∉ pr.2.destinations) → pr.2.action = .accept →
      portVariants pr.2 ≠ [] → ∀ p, Opens getGroup getPeer valid t r pr p → ListedSource a r p.id

/-- The sources are listed, exactly when those of the rules that come along are. -/
theorem onlyListedSources_iff {a : StoredAccount}
    (hi : ∀ r ∈ routes, ∀ r' ∈ routes, r.id = r'.id → r = r')
    (hpe : ∀ q p, getPeer q = some p → a.getPeer q = some p)
    (hac : ∀ r pr, Applied policiesFor r pr → pr ∈ activeRules a.policies)
    (hs : ∀ rule q, IsSource getGroup t rule q → IsSource a.getGroup t rule q) :
    OnlyListedSources a routes
        (peerRoutesFirewallRules getGroup getPeer valid policiesFor t routes) ↔
      OthersListed getGroup getPeer valid policiesFor t routes a := by
  constructor
  · intro h r hr hn pr hpr _ ha hpo p ho
    obtain ⟨v, hv⟩ := exists_mem_of_ne_nil _ hpo
    obtain ⟨hf, hid⟩ := (mem_rules_of_route hi hr hn).mpr ⟨pr, hpr, v, hv, rfl⟩
    obtain ⟨q, hq, -⟩ := id ho
    refine h r hr hn _ hf hid (congrArg TrafficAction.text ha) p (Keyed.mem_of_get (hpe q p hq)) ?_
    exact mem_map.mpr ⟨p, mem_getRulePeers_iff.mpr ho, rfl⟩
  · intro h r hr hn fr hf hid ha p hp hra
    obtain ⟨pr, hpr, v, hv, rfl⟩ := (mem_rules_of_route hi hr hn).mp ⟨hf, hid⟩
    obtain ⟨p', hp', hip⟩ := mem_map.mp hra
    have ho := mem_getRulePeers_iff.mp hp'
    obtain ⟨q, hq, hsr, -⟩ := id ho
    have hg := hpe q p' hq
    obtain rfl : p' = p := a.eq_of_ip (Keyed.mem_of_get hg) hp ((String.append_left_inj _).mp hip)
    by_cases hl : ∃ gid ∈ r.accessControlGroups, gid ∈ pr.2.destinations
    · -- a rule that lists a group itself has its own sources
      refine ⟨pr, hac r pr hpr, hl, ?_⟩
      rw [id_of_getPeer hg]
      exact (hs pr.2 q hsr).imp And.right id
    · exact h r hr hn pr hpr (fun gid hgi hd => hl ⟨gid, hgi, hd⟩)
        (action_text_inj ha) (ne_nil_of_mem hv) p' ho

end

/-! ## The account and the components -/

section

variable {a : StoredAccount} {vp : Validated} {t : String}

theorem active_of_applied
    (h : Applied (getAllRoutePoliciesFromGroups a) r pr) : pr ∈ activeRules a.policies := by
  grind [mem_activeRules, getAllRoutePoliciesFromGroups, mem_policiesWithDestination, Applied]

/-- **Sources of routes with access control groups.**  For the account and for the
    components: an accept rule has listed sources only, exactly when the enabled
    accept rules that come along with a policy bring no others in. -/
theorem route_sources_listed_iff {rp : GoMap (List Policy)}
    {rr : GoMap (GoMap NetworkRouter)} {gu : GoMap (List String)} :
    (OnlyListedSources a.toAccount (LegacyMap.getRoutingPeerRoutes a.toAccount t).1
        (LegacyMap.getPeerRoutesFirewallRules a.toAccount vp t) ↔
      OthersListed a.getGroup a.getPeer (LegacyMap.validSource a.toAccount vp)
        (getAllRoutePoliciesFromGroups a.toAccount) t
        (LegacyMap.getRoutingPeerRoutes a.toAccount t).1 a.toAccount) ∧
    ∀ c, getPeerNetworkMapComponents a.toAccount t vp rp rr
        gu = .ok (some c) →
      (OnlyListedSources a.toAccount (Calculate.getRoutingPeerRoutes c t).1
          (Calculate.getPeerRoutesFirewallRules c t) ↔
        OthersListed (getGroupInfo c) (getPeerInfo c) (Calculate.validSource c)
          (policiesWithDestination c.policies) t (Calculate.getRoutingPeerRoutes c t).1
          a.toAccount) := by
  refine ⟨onlyListedSources_iff ?_ (fun _ _ h => h) (fun _ _ => active_of_applied)
    (fun _ _ h => h), fun c hc => ?_⟩
  · intro r hr r' hr' hi
    rw [LegacyMap.getRoutingPeerRoutes] at hr hr'
    cases hp : a.getPeer t with
    | none => rw [hp] at hr; cases hr
    | some p =>
      rw [hp] at hr hr'
      exact routingPeerRoutes_inj hr hr' hi
  · have k := knows_of_ok hc
    refine onlyListedSources_iff ?_ (fun q p h => ((getPeerInfo_eq_some k).mp h).2) ?_
      (fun _ _ => isSource_of_component k)
    · intro r hr r' hr' hi
      rw [Calculate.getRoutingPeerRoutes] at hr hr'
      cases hp : getPeerOrRouter c t with
      | none => rw [hp] at hr; cases hr
      | some p =>
        rw [hp] at hr hr'
        exact routingPeerRoutes_inj hr hr' hi
    · rintro r pr ⟨gid, -, hpr⟩
      obtain ⟨hpo, hre⟩ := mem_activeRules.mp hpr
      have hp' := (mem_policiesWithDestination.mp hpo).1
      rw [k.policies] at hp'
      exact mem_activeRules.mpr ⟨(mem_filter.mp hp').1, hre⟩

end

/-- A policy with a rule from "d" to the access control group "acg" of a route of
    `p1`, and one from "e" to the group of `p1`. -/
def twoRules (members : List String) : StoredAccount where
  peers := ⟨[{ id := "p1", key := "k1", ip := "100.64.0.1" },
    { id := "p2", key := "k2", ip := "100.64.0.2" },
    { id := "p3", key := "k3", ip := "100.64.0.3" }], by decide⟩
  groups :=
    ⟨[{ id := "d", peers := ["p2"] }, { id := "e", peers := members }, { id := "acg" },
      { id := "o", peers := ["p1"] }], by simp only [map_cons, map_nil]; decide⟩
  policies :=
    [{ id := "pol"
       rules := [{ id := "rule1", sources := ["d"], destinations := ["acg"] },
         { id := "rule2", sources := ["e"], destinations := ["o"] }] }]
  routes :=
    ⟨[{ id := "r", peer := "p1", groups := ["d", "e"], accessControlGroups := ["acg"] }], by decide⟩
  ips_nodup := by simp only [map_cons, map_nil]; decide
  keys_nodup := by simp only [map_cons, map_nil]; decide
  resourceIDs := colon_nil

/-- The components of `p1`, with all peers validated. -/
def twoRulesComponents (members : List String) : Except GoPanic (Option NetworkMapComponents) :=
  getPeerNetworkMapComponents (twoRules members).toAccount "p1" ["p1", "p2", "p3"] ∅ ∅ ∅

theorem twoRules_acg
    (h : r ∈ (LegacyMap.getRoutingPeerRoutes (twoRules members).toAccount "p1").1) :
    r.accessControlGroups = ["acg"] := by
  obtain ⟨r₀, hr₀, -, -, -, ha⟩ := served_of_mem_routes h
  rw [ha, mem_singleton.mp hr₀]

/-- With `p2` in both source groups every source is listed. -/
theorem route_sources_listed_same_member :
    OnlyListedSources (twoRules ["p2"]).toAccount
        (LegacyMap.getRoutingPeerRoutes (twoRules ["p2"]).toAccount "p1").1
        (LegacyMap.getPeerRoutesFirewallRules (twoRules ["p2"]).toAccount ["p1", "p2", "p3"] "p1") ∧
      ∃ c, twoRulesComponents ["p2"] = .ok (some c) ∧
        OnlyListedSources (twoRules ["p2"]).toAccount (Calculate.getRoutingPeerRoutes c "p1").1
          (Calculate.getPeerRoutesFirewallRules c "p1") := by
  have hl : ∀ {r : Route} {pr : Policy × PolicyRule} {q : String},
      r.accessControlGroups = ["acg"] → pr ∈ activeRules (twoRules ["p2"]).policies →
        IsSource (twoRules ["p2"]).getGroup "p1" pr.2 q →
          ListedSource (twoRules ["p2"]).toAccount r q := by
    intro r pr q ha hpr hsr
    have hru : ∀ pr ∈ activeRules (twoRules ["p2"]).policies,
        groupMembers (twoRules ["p2"]).getGroup pr.2.sources = ["p2"] ∧
          ¬ pr.2.sourceResource.IsPeer := by decide
    simp only [IsSource, ← mem_groupMembers, (hru pr hpr).1, (hru pr hpr).2, false_and,
      or_false, mem_singleton] at hsr
    rw [hsr.2]
    simp only [ListedSource, ← mem_groupMembers, ha]
    decide
  have hi := @route_sources_listed_iff (twoRules ["p2"]) ["p1", "p2", "p3"] "p1" ∅ ∅ ∅
  refine ⟨hi.1.mpr ?_, ?_⟩
  · rintro r hr - pr hpr - - - p ⟨q, hq, hsr, -⟩
    rw [id_of_getPeer hq]
    exact hl (twoRules_acg hr) (active_of_applied hpr) hsr
  · obtain ⟨oc, ho, hs⟩ := exists_ok_of_map (x := twoRulesComponents ["p2"])
      (f := Option.isSome) (b := true) (by decide +kernel)
    obtain ⟨c, rfl⟩ := Option.isSome_iff_exists.mp hs
    have k := knows_of_ok ho
    obtain ⟨pt, hpt⟩ := k.target
    refine ⟨c, ho, (hi.2 c ho).mpr ?_⟩
    rintro r hr - pr ⟨gid, -, hpr⟩ - - - p ⟨q, hq, hsr, -⟩
    rw [(routingPeerRoutes_known k plainEnv hpt (.inl rfl)).1] at hr
    rw [id_of_getPeer ((getPeerInfo_eq_some k).mp hq).2]
    refine hl (twoRules_acg hr) ?_ (isSource_of_component k hsr)
    obtain ⟨hp, hre⟩ := mem_activeRules.mp hpr
    have hp' := (mem_policiesWithDestination.mp hp).1
    rw [k.policies] at hp'
    exact mem_activeRules.mpr ⟨(mem_filter.mp hp').1, hre⟩

/-- The rule from "e" lets `p3` into the route, for the account and for the
    components, though it does not list "acg". -/
theorem route_source_not_listed :
    ¬ OnlyListedSources (twoRules ["p3"]).toAccount
        (LegacyMap.getRoutingPeerRoutes (twoRules ["p3"]).toAccount "p1").1
        (LegacyMap.getPeerRoutesFirewallRules (twoRules ["p3"]).toAccount ["p1", "p2", "p3"] "p1") ∧
      ∃ c, twoRulesComponents ["p3"] = .ok (some c) ∧
        ¬ OnlyListedSources (twoRules ["p3"]).toAccount (Calculate.getRoutingPeerRoutes c "p1").1
          (Calculate.getPeerRoutesFirewallRules c "p1") := by
  have hn : ∀ {routes : List Route} {rules : List RouteFirewallRule},
      (∃ r ∈ routes, r.accessControlGroups = ["acg"] ∧ ∃ fr ∈ rules, fr.routeID = r.id ∧
        fr.action = TrafficAction.accept.text ∧ "100.64.0.3/32" ∈ fr.sourceRanges) →
      ¬ OnlyListedSources (twoRules ["p3"]).toAccount routes rules := by
    rintro routes rules ⟨r, hr, hac, fr, hf, hi, ha, hra⟩ h
    have hl := h r hr (by rw [hac]; decide) fr hf hi ha
      { id := "p3", key := "k3", ip := "100.64.0.3" } (by decide) hra
    simp only [ListedSource, ← mem_groupMembers, hac] at hl
    revert hl
    decide
  refine ⟨hn (by decide +kernel), ?_⟩
  obtain ⟨oc, ho, han⟩ := exists_ok_of_map (x := twoRulesComponents ["p3"])
    (f := fun oc => oc.any (fun c => decide (∃ r ∈ (Calculate.getRoutingPeerRoutes c "p1").1,
      r.accessControlGroups = ["acg"] ∧ ∃ fr ∈ Calculate.getPeerRoutesFirewallRules c "p1",
        fr.routeID = r.id ∧ fr.action = TrafficAction.accept.text ∧
          "100.64.0.3/32" ∈ fr.sourceRanges))) (b := true) (by decide +kernel)
  cases oc with
  | none => cases han
  | some c => exact ⟨c, ho, hn (of_decide_eq_true han)⟩

end Agreement

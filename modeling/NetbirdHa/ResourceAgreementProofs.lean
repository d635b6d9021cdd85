import NetbirdHa.AgreementProofs

/-! # Network resources: the components and the account agree

A network resource adds to the peers of a map: a client gets the routers, a
router gets the sources of the resource's policies.  Both computations find
the same ones, up to peers that a policy connects the target to anyway. -/

namespace Agreement

open Table AccountModel GroupPeers Connection Routes LegacyMap Components Calculate List
  Account Keyed

/-- The policies of a resource. -/
def policiesIn (rp : GoMap (List Policy)) (rid : String) : List Policy :=
  (rp.lookup rid).getD []

/-- The account has the target as a client of the resource. -/
abbrev LegacyClient (a : Account) (rp : GoMap (List Policy))
    (rr : GoMap (GoMap NetworkRouter)) (t : String) (res : NetworkResource) : Prop :=
  IsClient rr (policiesIn rp) (getUniquePeerIDsFromGroupsIDs a.getGroup)
    a.validatePostureChecksOnPeer t res

/-- The components have the target as a client of the resource. -/
abbrev ComponentClient (c : NetworkMapComponents) (t : String) (res : NetworkResource) : Prop :=
  IsClient c.routersMap (policiesOf c) (getUniquePeerIDsFromGroupsIDs (getGroupInfo c))
    (validatePostureChecksOnPeer c) t res

/-- What the account and the components find for network resources. -/
abbrev legacySync (env : Env) (a : Account) (t : String) (rp : PolicyMap) (rr : Routers) :=
  LegacyMap.getNetworkResourcesRoutesToSync env a t rp rr

/-- The resource routes of the components' peer. -/
abbrev componentSync (env : Env) (c : NetworkMapComponents) (t : String) :=
  Calculate.getNetworkResourcesRoutesToSync env c t

variable {a : Account} {t q gid : String} {env : Env} {vp : Validated}
  {rp : PolicyMap} {rr : Routers} {c : NetworkMapComponents} {res : NetworkResource} {tp p : Peer}

section

variable {pol : Policy}

/-- The sources of a policy: the peer it names, or the members of its groups. -/
theorem mem_policySourcePeers : q ∈ policySourcePeers unique pol ↔
    ((firstRule pol).sourceResource.IsPeer ∧ q = (firstRule pol).sourceResource.id) ∨
      (¬ (firstRule pol).sourceResource.IsPeer ∧ q ∈ unique (sourceGroups pol)) := by
  rw [policySourcePeers]
  by_cases h : (firstRule pol).sourceResource.IsPeer <;> simp [h]

/-- The server's own test reads the same sources. -/
theorem peerInPolicySources_iff : peerInPolicySources a t pol ↔
    ((firstRule pol).sourceResource.IsPeer ∧ t = (firstRule pol).sourceResource.id) ∨
      (¬ (firstRule pol).sourceResource.IsPeer ∧ InGroups a.getGroup (sourceGroups pol) t) := by
  rw [peerInPolicySources]
  by_cases h : (firstRule pol).sourceResource.IsPeer
  · simp [h, eq_comm]
  · simp only [h, if_false, any_eq_true, InGroups, false_and, not_false_eq_true, true_and, false_or]
    refine exists_congr fun gid => and_congr_right fun _ => ?_
    cases a.getGroup gid <;> simp

/-- Where no listed "All" misses the target, a policy lets it in if the account
    has it as a valid source. -/
theorem source_of_admits (h : ClientClear a t pol) (ha : admits a t pol) :
    t ∈ accountSources a pol ∧ a.validatePostureChecksOnPeer pol.sourcePostureChecks t := by
  rw [admits, Bool.and_eq_true, peerInPolicySources_iff] at ha
  rw [accountSources, mem_policySourcePeers]
  refine ha.imp_left (Or.imp_right fun hr => ⟨hr.1, ?_⟩)
  exact (mem_uniquePeerIDs (h hr.1 hr.2)).mpr hr.2

/-- A valid source is let in, "All" or not. -/
theorem admits_of_source (hs : t ∈ accountSources a pol)
    (hv : a.validatePostureChecksOnPeer pol.sourcePostureChecks t) : admits a t pol := by
  rw [admits, Bool.and_eq_true, peerInPolicySources_iff]
  refine ⟨?_, hv⟩
  rcases mem_policySourcePeers.mp hs with h | ⟨hr, h⟩
  · exact .inl h
  · exact .inr ⟨hr, inGroups_of_mem_unique h⟩

theorem sourceGroups_subset (h : gid ∈ sourceGroups pol) : gid ∈ policyGroupIDs pol := by
  obtain ⟨rule, hr, hg⟩ := exists_source h
  exact mem_flatMap.mpr ⟨rule, hr, mem_append_left _ hg⟩

end

section

theorem lookup_eq_none_iff :
    (routingPeers rr res).lookup t = none ↔ isRouterOf rr t res = false := by
  rw [isRouterOf]
  cases (routingPeers rr res).lookup t <;> simp

/-- A resource's policies are those of its entry. -/
theorem mem_policiesIn :
    pol ∈ policiesIn rp rid ↔ ∃ policies, rp.lookup rid = some policies ∧ pol ∈ policies := by
  rw [policiesIn]
  cases rp.lookup rid <;> simp

theorem lookup_of_policiesIn (h : policiesIn rp rid ≠ []) :
    rp.lookup rid = some (policiesIn rp rid) := by
  rw [policiesIn] at h ⊢
  cases hl : rp.lookup rid with
  | none => exact absurd (by rw [hl]; rfl) h
  | some policies => rfl

variable {pol : Policy} (k : Knows a vp rp rr t c)

include k

/-- The resources of the components are the enabled ones it keeps. -/
theorem mem_networkResources : res ∈ c.networkResources ↔
    res ∈ a.networkResources ∧ res.enabled ∧ keepsResource a rp rr t res := by
  rw [k.resources, mem_filter, mem_filter, and_assoc]

/-- A resource with policies that the target routes is kept. -/
theorem routed_kept {policies : List Policy} (hre : res ∈ a.networkResources) (he : res.enabled)
    (hr : isRouterOf rr t res) (hl : rp.lookup res.id = some policies) : res ∈ c.networkResources :=
  (mem_networkResources k).mpr ⟨hre, he, keepsResource_eq_true.mpr ⟨policies, hl, .inl hr⟩⟩

/-- A kept resource has the account's routers. -/
theorem routingPeers_components (h : res ∈ c.networkResources) :
    routingPeers c.routersMap res = routingPeers rr res := by
  rw [routingPeers, k.routersMap res h]
  rfl

/-- And the account's policies. -/
theorem policiesOf_components (h : res ∈ c.networkResources) :
    policiesOf c res.id = policiesIn rp res.id := k.policiesOf res h

/-- The sources that the components find for a resource that the target routes. -/
theorem mem_componentSources (hre : res ∈ c.networkResources)
    (hr : isRouterOf rr t res) (hpo : pol ∈ policiesOf c res.id)
    (ha : ¬ (firstRule pol).sourceResource.IsPeer →
      AllSurvives a vp t pol.sourcePostureChecks (sourceGroups pol)) :
    q ∈ policySourcePeers (getUniquePeerIDsFromGroupsIDs (getGroupInfo c)) pol ∧
        Known a vp rp rr t q ↔ q ∈ accountSources a pol ∧ Known a vp rp rr t q := by
  refine and_congr_left fun hk => ?_
  rw [accountSources, mem_policySourcePeers, mem_policySourcePeers]
  refine or_congr_right (and_congr_right fun hd => ?_)
  obtain ⟨hme, hen, hke⟩ := (mem_networkResources k).mp hre
  obtain ⟨policies, hl, -⟩ := keepsResource_eq_true.mp hke
  have hp : pol ∈ policies := by
    rw [policiesOf_components k hre, policiesIn, hl] at hpo
    exact hpo
  have he : res ∈ a.networkResources.filter (·.enabled) := mem_filter.mpr ⟨hme, hen⟩
  have hg : ∀ gid ∈ sourceGroups pol, (a.getGroup gid).isSome → KnownGroup a vp rp rr t gid := by
    intro gid hgi hso
    refine .inr ⟨res, he, policies, hl, pol, ?_, sourceGroups_subset hgi, hso⟩
    rw [keptPolicies, if_pos hr]
    exact hp
  have hs : ∀ m ∈ getUniquePeerIDsFromGroupsIDs a.getGroup (sourceGroups pol),
      Usable a vp pol.sourcePostureChecks m → Known a vp rp rr t m := by
    intro m hm hu
    refine .inr (.inr ⟨res, he, policies, hl, .inr ⟨pol, ?_, ?_, hu⟩⟩)
    · rw [openedPolicies, if_pos hr]
      exact hp
    · exact mem_policySourcePeers.mpr (.inr ⟨hd, hm⟩)
  rw [mem_unique_restricts (restricts_known k hg) (allKept_of_survives (ha hd) hs)]
  exact and_iff_left hk

/-- The components have the target as a client where the account has. -/
theorem componentClient_of_legacy (hr : res ∈ a.networkResources) (he : res.enabled)
    (h : LegacyClient a rp rr t res) : res ∈ c.networkResources ∧ ComponentClient c t res := by
  obtain ⟨hn, pol, hp, hs, hv⟩ := h
  obtain ⟨policies, hl, hm⟩ := mem_policiesIn.mp hp
  have hk : res ∈ c.networkResources := (mem_networkResources k).mpr ⟨hr, he,
    keepsResource_eq_true.mpr ⟨policies, hl, .inr ⟨pol, hm, admits_of_source hs hv⟩⟩⟩
  refine ⟨hk, ?_, pol, ?_, ?_, validate_of_passes k (.inl rfl) hv⟩
  · rw [routingPeers_components k hk]
    exact hn
  · rw [policiesOf_components k hk]
    exact hp
  · rcases mem_policySourcePeers.mp hs with hd | ⟨hd, hs⟩
    · exact mem_policySourcePeers.mpr (.inl hd)
    · exact mem_policySourcePeers.mpr (.inr ⟨hd, (keeps_target k).mem_unique hs⟩)

/-- … and nowhere else, unless a listed "All" misses it. -/
theorem legacyClient_of_component (hre : res ∈ c.networkResources)
    (hc : ∀ pol ∈ policiesIn rp res.id, ClientClear a t pol)
    (h : ComponentClient c t res) : LegacyClient a rp rr t res := by
  obtain ⟨hn, -⟩ := h
  rw [routingPeers_components k hre] at hn
  obtain ⟨-, -, hk⟩ := (mem_networkResources k).mp hre
  obtain ⟨policies, hl, hr | ⟨pol, hm, ha⟩⟩ := keepsResource_eq_true.mp hk
  · rw [lookup_eq_none_iff.mp hn] at hr
    cases hr
  · have hp : pol ∈ policiesIn rp res.id := mem_policiesIn.mpr ⟨policies, hl, hm⟩
    exact ⟨hn, pol, hp, source_of_admits (hc pol hp) ha⟩

end

/-! ## The peers a resource adds -/

section

variable (a : Account) (rp : PolicyMap) (rr : Routers) (t q : String)

/-- The account adds `q` as a source of a resource that the target routes. -/
def LegacySource : Prop :=
  ∃ res ∈ a.networkResources, res.enabled ∧ isRouterOf rr t res ∧
    ∃ pol ∈ policiesIn rp res.id,
      q ∈ accountSources a pol ∧ a.validatePostureChecksOnPeer pol.sourcePostureChecks q
deriving Decidable

/-- The account adds `q` as a router of a resource that the target is a client of. -/
def LegacyRouter : Prop :=
  ∃ res ∈ a.networkResources, res.enabled ∧ LegacyClient a rp rr t res ∧ q ∈ routingPeers rr res
deriving Decidable

/-- The components add `q` as a source. -/
def ComponentSource (c : NetworkMapComponents) : Prop :=
  ∃ res ∈ c.networkResources, isRouterOf rr t res ∧
    ∃ pol ∈ policiesOf c res.id,
      q ∈ policySourcePeers (getUniquePeerIDsFromGroupsIDs (getGroupInfo c)) pol ∧
        validatePostureChecksOnPeer c pol.sourcePostureChecks q

/-- The components add `q` as a router. -/
def ComponentRouter (c : NetworkMapComponents) : Prop :=
  ∃ res ∈ c.networkResources, ComponentClient c t res ∧ q ∈ routingPeers rr res

end

/-- The routes the server makes of a resource. -/
theorem mem_legacyRoutes :
    x ∈ LegacyMap.getNetworkResourcesRoutes env a (policiesIn rp) res q router ↔
      policiesIn rp res.id ≠ [] ∧ ∃ p, a.getPeer q = some p ∧ x = toRoute env res p router := by
  grind [LegacyMap.getNetworkResourcesRoutes]

/-- Every route to a resource is there, if the domains parse. -/
theorem legacyRoutes_isSome (hd : ∀ res ∈ a.networkResources, res.enabled →
      NeedsRoute a t rp rr res → res.type = .domain →
        (env.domainFromStringList [res.domain]).isSome) :
    ∀ x ∈ (legacySync env a t rp rr).routes, x.isSome := by
  intro x hx
  obtain ⟨res, hre, he, h⟩ := mem_sync_routes.mp hx
  rcases h with ⟨router, hl, hx⟩ | ⟨hc, q, router, hl, hx⟩
  · obtain ⟨hne, p, -, rfl⟩ := mem_legacyRoutes.mp hx
    have hn : NeedsRoute a t rp rr res :=
      ⟨_, lookup_of_policiesIn hne, .inl ⟨by rw [isRouterOf, hl]; rfl, hne⟩⟩
    obtain ⟨r, hr⟩ := toRoute_isSome p router (hd res hre he hn)
    simp [hr]
  · obtain ⟨-, p, hp, rfl⟩ := mem_legacyRoutes.mp hx
    obtain ⟨-, pol, hpl, hs, hv⟩ := hc
    obtain ⟨policies, hpl, hm⟩ := mem_policiesIn.mp hpl
    have hn : NeedsRoute a t rp rr res :=
      ⟨policies, hpl, .inr ⟨⟨pol, hm, admits_of_source hs hv⟩, q, mem_of_lookup hl, by simp [hp]⟩⟩
    obtain ⟨r, hr⟩ := toRoute_isSome p router (hd res hre he hn)
    simp [hr]

section

variable {routes : List Route} (hr : ∀ r, r ∈ routes ↔ some r ∈ (legacySync env a t rp rr).routes)
  (hs : ∀ x ∈ (legacySync env a t rp rr).routes, x.isSome) (hp : a.getPeer q = some p) (hq : q ≠ t)

include hr hs hp hq

/-- The routers that the account adds, as the routes to resources have them. -/
theorem legacyRouter_iff : q ∈ routes.map Route.peerID ↔ LegacyRouter a rp rr t q := by
  simp only [mem_map, hr]
  constructor
  · rintro ⟨r, hr, rfl⟩
    obtain ⟨res, hre, he, ⟨router, -, hx⟩ | ⟨hc, q, router, hl, hx⟩⟩ := mem_sync_routes.mp hr
    · obtain ⟨-, pt, hpt, hrt⟩ := mem_legacyRoutes.mp hx
      exact absurd ((toRoute_peerID hrt.symm).trans (id_of_getPeer hpt)) hq
    · obtain ⟨-, pq, hpq, hrq⟩ := mem_legacyRoutes.mp hx
      rw [(toRoute_peerID hrq.symm).trans (id_of_getPeer hpq)]
      exact ⟨res, hre, he, hc, mem_of_lookup hl⟩
  · rintro ⟨res, hre, he, hc, hm⟩
    obtain ⟨router, hl⟩ := exists_lookup_of_mem hm
    have hn : policiesIn rp res.id ≠ [] := by
      obtain ⟨-, pol, hpo, -⟩ := hc
      exact ne_nil_of_mem hpo
    have hx : toRoute env res p router ∈ (legacySync env a t rp rr).routes :=
      mem_sync_routes.mpr ⟨res, hre, he,
        .inr ⟨hc, q, router, hl, mem_legacyRoutes.mpr ⟨hn, p, hp, rfl⟩⟩⟩
    obtain ⟨r, hr⟩ := Option.isSome_iff_exists.mp (hs _ hx)
    exact ⟨r, hr ▸ hx, (toRoute_peerID hr).trans (id_of_getPeer hp)⟩

/-- What the account adds for resources, the target apart. -/
theorem legacyExtra_iff : ((legacySync env a t rp rr).isRouter ∧
      q ∈ (legacySync env a t rp rr).sourcePeers) ∨ q ∈ routes.map Route.peerID ↔
    LegacySource a rp rr t q ∨ LegacyRouter a rp rr t q := by
  refine or_congr ?_ (legacyRouter_iff hr hs hp hq)
  constructor
  · rintro ⟨-, hsr⟩
    exact mem_sync_sourcePeers.mp hsr
  · intro hsr
    refine ⟨sync_isRouter.mpr ?_, mem_sync_sourcePeers.mpr hsr⟩
    obtain ⟨res, hre, he, hro, -⟩ := hsr
    exact ⟨res, hre, he, hro⟩

end

section

/-- The routes the client makes of a resource. -/
theorem mem_componentRoutes : r ∈ Calculate.getNetworkResourcesRoutes env c res q router ↔
    policiesOf c res.id ≠ [] ∧
      ∃ p, getPeerInfo c q = some p ∧ r = networkResourceToRoute env res p router := by
  grind [Calculate.getNetworkResourcesRoutes]

variable (k : Knows a vp rp rr t c)

include k

theorem enabled_of_mem_resources (h : res ∈ c.networkResources) : res.enabled :=
    ((mem_networkResources k).mp h).2.1

/-- What the components add for resources, the target apart. -/
theorem componentExtra_iff (hq : q ≠ t) :
    ((componentSync env c t).isRouter ∧ q ∈ (componentSync env c t).sourcePeers) ∨
      q ∈ (componentSync env c t).routes.map Route.peerID ↔
      ComponentSource rr t q c ∨ (ComponentRouter rr t q c ∧ ∃ p, getPeerInfo c q = some p) := by
  refine or_congr ?_ ?_
  · constructor
    · rintro ⟨-, hs⟩
      obtain ⟨res, hre, -, hro, hpo⟩ := mem_sync_sourcePeers.mp hs
      rw [routingPeers_components k hre] at hro
      exact ⟨res, hre, hro, hpo⟩
    · rintro ⟨res, hre, hro, hpo⟩
      have hr' : ((routingPeers c.routersMap res).lookup t).isSome := by
        rw [routingPeers_components k hre]
        exact hro
      have he := enabled_of_mem_resources k hre
      exact ⟨sync_isRouter.mpr ⟨res, hre, he, hr'⟩,
        mem_sync_sourcePeers.mpr ⟨res, hre, he, hr', hpo⟩⟩
  · rw [mem_map]
    constructor
    · rintro ⟨r, hr, rfl⟩
      obtain ⟨res, hre, -, ⟨router, -, hx⟩ | ⟨hc, q, router, hl, hx⟩⟩ := mem_sync_routes.mp hr
      · obtain ⟨-, pt, hpt, rfl⟩ := mem_componentRoutes.mp hx
        have hi := id_of_getPeer ((getPeerInfo_eq_some k).mp hpt).2
        exact absurd (networkResourceToRoute_peerID.trans hi) hq
      · obtain ⟨-, pq, hpq, rfl⟩ := mem_componentRoutes.mp hx
        have hi := id_of_getPeer ((getPeerInfo_eq_some k).mp hpq).2
        rw [networkResourceToRoute_peerID, hi]
        rw [routingPeers_components k hre] at hl
        exact ⟨⟨res, hre, hc, mem_of_lookup hl⟩, pq, hpq⟩
    · rintro ⟨⟨res, hre, hc, hm⟩, p, hp⟩
      rw [← routingPeers_components k hre] at hm
      obtain ⟨router, hl⟩ := exists_lookup_of_mem hm
      have hn : policiesOf c res.id ≠ [] := by
        obtain ⟨-, pol, hpo, -⟩ := hc
        exact ne_nil_of_mem hpo
      refine ⟨networkResourceToRoute env res p router, mem_sync_routes.mpr
        ⟨res, hre, enabled_of_mem_resources k hre, .inr ⟨hc, q, router, hl,
          mem_componentRoutes.mpr ⟨hn, p, hp, rfl⟩⟩⟩, ?_⟩
      exact networkResourceToRoute_peerID.trans (id_of_getPeer ((getPeerInfo_eq_some k).mp hp).2)

/-- The peers a resource adds are among the components. -/
theorem known_of_extra
    (he : ComponentSource rr t q c ∨ (ComponentRouter rr t q c ∧ ∃ p, getPeerInfo c q = some p)) :
    Known a vp rp rr t q := by
  rcases he with ⟨res, -, -, pol, -, -, hv⟩ | ⟨-, p', hi⟩
  · exact ((validate_eq_true k).mp hv).1
  · exact ((getPeerInfo_eq_some k).mp hi).1

/-- A peer of the components is found among them. -/
theorem getPeerOrRouter_of_known (hk : Known a vp rp rr t q) (hp : a.getPeer q = some p) :
    getPeerOrRouter c q = some p := by
  rw [getPeerOrRouter, (getPeerInfo_eq_some k).mpr ⟨hk, hp⟩]
  rfl

/-- The peers that the components add for resources. -/
theorem componentAdded_iff :
    ((((componentSync env c t).isRouter ∧ q ∈ (componentSync env c t).sourcePeers) ∨
        q ∈ (componentSync env c t).routes.map Route.peerID) ∧
      q ≠ t ∧ N ∧ getPeerOrRouter c q = some p) ↔
    (ComponentSource rr t q c ∨ (ComponentRouter rr t q c ∧ ∃ p, getPeerInfo c q = some p)) ∧
      q ≠ t ∧ N ∧ a.getPeer q = some p := by
  constructor
  · rintro ⟨he, hq, hn, hp⟩
    exact ⟨(componentExtra_iff k hq).mp he, hq, hn, getPeerOrRouter_eq_some k hp⟩
  · rintro ⟨he, hq, hn, hp⟩
    exact ⟨(componentExtra_iff k hq).mpr he, hq, hn,
      getPeerOrRouter_of_known k (known_of_extra k he) hp⟩

end

section

variable (k : Knows a vp rp rr t c)

include k

/-- Both add the same sources, those apart that policies name opposite the target. -/
theorem source_iff (hvi : ViewsAgree a vp t env rp rr tp) (hp : a.getPeer q = some p)
    (hq : ¬ FacesDirectly a vp t q) : LegacySource a rp rr t q ↔ ComponentSource rr t q c := by
  constructor
  · rintro ⟨res, hre, he, hr, pol, hpo, hs, hva⟩
    obtain ⟨policies, hl, hm⟩ := mem_policiesIn.mp hpo
    have hc := hvi.routed res hre he hr policies hl pol hm
    have hv := (hc.sources q hs hva).resolve_right hq
    have hk := routed_kept k hre he hr hl
    have hp' : pol ∈ policiesOf c res.id := by
      rw [policiesOf_components k hk]
      exact hpo
    have hkn : Known a vp rp rr t q := by
      refine .inr (.inr ⟨res, mem_filter.mpr ⟨hre, he⟩, policies, hl, .inr ⟨pol, ?_, hs, hv, hva⟩⟩)
      rw [openedPolicies, if_pos hr]
      exact hm
    exact ⟨res, hk, hr, pol, hp', ((mem_componentSources k hk hr hp' hc.all).mpr ⟨hs, hkn⟩).1,
      validate_of_passes k hkn hva⟩
  · rintro ⟨res, hk, hr, pol, hpo, hs, hva⟩
    obtain ⟨hre, he, -⟩ := (mem_networkResources k).mp hk
    have hp' := hpo
    rw [policiesOf_components k hk] at hp'
    obtain ⟨policies, hl, hm⟩ := mem_policiesIn.mp hp'
    have hc := hvi.routed res hre he hr policies hl pol hm
    have hkn := ((validate_eq_true k).mp hva).1
    have hv := (validated_of_known k.isValidated hkn).resolve_right hq
    have hs' := ((mem_componentSources k hk hr hpo hc.all).mp ⟨hs, hkn⟩).1
    exact ⟨res, hre, he, hr, pol, hp', hs', ((validate_iff_routed k hk hr hpo hs' hp hv).mp hva).2⟩

/-- A client by the components is one by the account. -/
theorem legacyClient_of_views (hv : ClientViews a vp t env rp rr) (hk : res ∈ c.networkResources)
    (h : ComponentClient c t res) : LegacyClient a rp rr t res := by
  obtain ⟨hr, he, -⟩ := (mem_networkResources k).mp hk
  have hn := h.1
  rw [routingPeers_components k hk] at hn
  refine legacyClient_of_component k hk (fun pol hpo => ?_) h
  obtain ⟨policies, hl, hp⟩ := mem_policiesIn.mp hpo
  exact (hv.client res hr he (lookup_eq_none_iff.mp hn) policies hl).1 pol hp

/-- Both add the same routers. -/
theorem router_iff (hvi : ClientViews a vp t env rp rr) (hp : a.getPeer q = some p) :
    LegacyRouter a rp rr t q ↔ ComponentRouter rr t q c ∧ ∃ p, getPeerInfo c q = some p := by
  constructor
  · rintro ⟨res, hr, he, hc, hm⟩
    obtain ⟨hk, hc'⟩ := componentClient_of_legacy k hr he hc
    refine ⟨⟨res, hk, hc', hm⟩, p, (getPeerInfo_eq_some k).mpr ⟨?_, hp⟩⟩
    obtain ⟨hn, pol, hpl, hs, hva⟩ := hc
    obtain ⟨policies, hl, hpo⟩ := mem_policiesIn.mp hpl
    rcases (hvi.client res hr he (lookup_eq_none_iff.mp hn) policies hl).2
      ⟨pol, hpo, admits_of_source hs hva⟩ q hm (by simp [hp]) with hv | hd
    · exact .inr (.inr ⟨res, mem_filter.mpr ⟨hr, he⟩, policies, hl, .inl ⟨hm, hv, by simp [hp]⟩⟩)
    · exact known_of_facesDirectly hd
  · rintro ⟨⟨res, hk, hc, hm⟩, -⟩
    obtain ⟨hr, he, -⟩ := (mem_networkResources k).mp hk
    exact ⟨res, hr, he, legacyClient_of_views k hvi hk hc, hm⟩

end

/-! ## The maps -/

section

variable {env : Env} {a : Account} {vp : Validated} {rp : PolicyMap} {rr : Routers} {t : String}
  {gu : UserMap} {c : NetworkMapComponents} {tp : Peer}

/-- Online peers: those that policies connect to, and what resources add. -/
theorem same_peers (k : Knows a vp rp rr t c)
    (hv : ViewsAgree a vp t env rp rr tp) {routes : List Route} (hr : ∀ r, r ∈ routes ↔ some r ∈
      (legacySync env a t rp rr).routes) (hc : SameSet conn conn') (hex : SameSet exp exp')
    (ha : ∀ p, p ∈ conn' ∨ p ∈ exp' ↔ p ∈ (componentGen env c t).peers) :
    SameSet (addNetworksRoutingPeers a.getPeer (routes.map Route.peerID) t conn exp
        (legacySync env a t rp rr).isRouter (legacySync env a t rp rr).sourcePeers)
      (addNetworksRoutingPeers (getPeerOrRouter c)
        ((componentSync env c t).routes.map Route.peerID) t conn' exp'
        (componentSync env c t).isRouter (componentSync env c t).sourcePeers) := by
  have hs := legacyRoutes_isSome hv.domains
  have ho : ∀ q, (∀ x ∈ conn ++ exp, x.id ≠ q) ↔ ∀ x ∈ conn' ++ exp', x.id ≠ q :=
    fun q => forall_congr' fun x => by rw [hc.append hex x]
  have hd : ∀ {q : String} {p : Peer}, a.getPeer q = some p → q ≠ t →
      (∀ x ∈ conn' ++ exp', x.id ≠ q) → ¬ FacesDirectly a vp t q := by
    intro q p hp hq hn hdi
    have hm : p ∈ (componentGen env c t).peers := mem_aclPeers_of_direct k hp hq hdi
    exact hn p (mem_append.mpr ((ha p).mpr hm)) (id_of_getPeer hp)
  intro p
  rw [mem_addNetworksRoutingPeers, mem_addNetworksRoutingPeers, hc p]
  refine or_congr_right (exists_congr fun q => ?_)
  rw [componentAdded_iff k, ho q]
  refine and_congr_left fun ⟨hq, hn, hp⟩ => ?_
  rw [legacyExtra_iff hr hs hp hq, source_iff k hv hp (hd hp hq hn),
    router_iff k hv.toClientViews hp]

/-- **The account and the components agree** on peers, offline peers and firewall
    rules, away from the blind spots. -/
theorem maps_agree
    (hviews : ∀ tp, a.getPeer t = some tp → t ∈ vp → ViewsAgree a vp t env rp rr tp) :
    ∃ nm nm', LegacyMap.getPeerNetworkMap env a t vp rp rr
        gu = .ok nm ∧
      getPeerNetworkMapFromComponents env a t vp rp rr gu = .ok nm' ∧
      SameSet nm.peers nm'.peers ∧ SameSet nm.offlinePeers nm'.offlinePeers ∧
      SameSet nm.firewallRules nm'.firewallRules := by
  by_cases hi : t ∈ vp ∧ (a.getPeer t).isSome
  · obtain ⟨hv, hso⟩ := hi
    obtain ⟨tp, ht⟩ := Option.isSome_iff_exists.mp hso
    have hviews := hviews tp ht hv
    obtain ⟨c, hc⟩ : ∃ c, getPeerNetworkMapComponents a t vp rp rr
        gu = .ok (some c) := hviews.exists_components ht hv
    have k := knows_of_ok hc
    obtain ⟨routes, hm, hr⟩ := exists_mapM_id (legacyRoutes_isSome hviews.domains)
    have hs : (legacyGen env a vp gu tp).Same (componentGen env c t) := same_connection ht k hviews
    refine ⟨_, calculate env c, LegacyMap.map_of_routes ht hv hm, ?_, ?_, ?_, ?_⟩
    · rw [getPeerNetworkMapFromComponents, hc]
      rfl
    · simp only [calculate, k.peerID, k.settings]
      refine same_peers k hviews hr (hs.peers.filter _) (hs.peers.filter _) fun p => ?_
      rw [mem_filter, mem_filter]
      cases a.settings.peerExpired env p <;> simp
    · simp only [calculate, k.peerID, k.settings]
      exact hs.peers.filter _
    · simp only [calculate, k.peerID]
      exact hs.rules
  · refine ⟨_, _, LegacyMap.map_of_absent hi, ?_, SameSet.refl _, SameSet.refl _, SameSet.refl _⟩
    rw [getPeerNetworkMapFromComponents, components_none hi]
    rfl

end

/-! ## Plain accounts -/

/-- An account without blind spots: every peer is validated and none embedded, the groups that
    policies and routes list exist, and a group named "All" holds the members of all groups. -/
structure Plain (a : Account) (vp : Validated) : Prop where
  validated : ∀ p ∈ a.peers.entries, p.id ∈ vp
  embedded : ∀ p ∈ a.peers.entries, p.embedded = false
  all : ∀ g ∈ a.groups.entries, g.isGroupAll → ∀ g' ∈ a.groups.entries, ∀ q ∈ g'.peers, q ∈ g.peers
  policies : ∀ pol ∈ a.policies, ∀ rule ∈ pol.rules, ∀ gid ∈ rule.sources ++ rule.destinations,
    (a.getGroup gid).isSome
  routes : ∀ r ∈ a.routes.entries, ∀ gid ∈ routeGroupIDs r, (a.getGroup gid).isSome

/-- In a plain account every peer is validated. -/
theorem Plain.mem_validated (h : Plain a vp) (hq : (a.getPeer q).isSome) : q ∈ vp := by
  obtain ⟨p, hp⟩ := Option.isSome_iff_exists.mp hq
  rw [← id_of_getPeer hp]
  exact h.validated p (mem_of_get hp)

/-- The group of all peers has every member of every group. -/
theorem Plain.mem_all (h : Plain a vp) {groups : List String} (hg : a.getGroup gid = some g)
    (ha : g.isGroupAll) (hq : InGroups a.getGroup groups q) : q ∈ g.peers := by
  obtain ⟨gid', -, g', hg', hq⟩ := hq
  exact h.all g (mem_of_get hg) ha g' (mem_of_get hg') q hq

/-- Every group that matters exists. -/
theorem Plain.relevantGroup (h : Plain a vp) (hgi : RelevantGroup a vp t gid) :
    (a.getGroup gid).isSome := by
  rcases hgi with hgi | ⟨r, hr, hgi⟩ | ⟨pr, hpr, hgi⟩
  · obtain ⟨g, hg, -⟩ := mem_getPeerGroups.mp hgi
    simp [hg]
  · exact h.routes r hr gid hgi
  obtain ⟨hp, -, hru, -⟩ := mem_activeRules.mp hpr
  refine h.policies pr.1 hp pr.2 hru gid (mem_append.mpr ?_)
  rcases hgi with ⟨-, hgi⟩ | ⟨-, hgi⟩ | ⟨-, hgi⟩
  · exact hgi
  · exact .inr hgi
  · exact .inl hgi

/-- In a plain account the two views agree. -/
theorem Plain.viewsAgree (h : Plain a vp) (ht : a.getPeer t = some tp)
    (hd : ∀ res ∈ a.networkResources, res.type = .domain →
      (env.domainFromStringList [res.domain]).isSome) : ViewsAgree a vp t env rp rr tp := by
  have ho : ∀ groups checks, OwnClear a vp t tp groups checks := fun groups checks =>
    ⟨fun hi _ _ _ hg ha => h.mem_all hg ha hi, fun _ _ => h.embedded tp (mem_of_get ht)⟩
  have hs : ∀ groups checks, AllSurvives a vp t checks groups :=
    fun _ _ _ _ _ hg ha => .inr fun _ hi => h.mem_all hg ha hi
  have hf : ∀ groups checks, FacingClear a vp t groups checks := fun groups checks =>
    ⟨hs groups checks, fun p hp _ _ _ => h.embedded p (mem_of_get hp)⟩
  exact
    { groups := fun _ => h.relevantGroup
      own := fun _ _ _ => ⟨fun _ => ho _ _, fun _ => ho _ _⟩
      facing := fun _ _ => ⟨fun _ _ => hf _ _, fun _ _ => hf _ _⟩
      direct := fun _ _ => ⟨fun _ _ _ _ hq _ => h.mem_validated hq,
        fun _ _ _ _ hq _ => h.mem_validated hq⟩
      routed := fun _ _ _ _ _ _ _ _ =>
        ⟨fun _ => hs _ _, fun _ _ hv => by
          obtain ⟨p, hp, -⟩ := checksOnPeer_eq_true.mp hv
          exact .inl (h.mem_validated (by simp [hp]))⟩
      client := fun _ _ _ _ _ _ =>
        ⟨fun _ _ _ hi _ _ _ hg ha => h.mem_all hg ha hi, fun _ _ _ hq => .inl (h.mem_validated hq)⟩
      domains := fun res hr _ _ => hd res hr }

/-- Two peers, each in a group of its own; a policy connects the groups, another
    lets the first reach a resource behind the second. -/
def pairAccount (embedded : Bool) (resources : List NetworkResource) : Account where
  peers := ⟨[{ id := "p1", ip := "100.64.0.1" },
    { id := "p2", ip := "100.64.0.2", embedded := embedded }], by cases embedded <;> decide⟩
  groups := ⟨[{ id := "g", peers := ["p1"] }, { id := "h", peers := ["p2"] }], by decide⟩
  policies :=
    [{ id := "pol1", rules := [{ id := "r1", sources := ["g"], destinations := ["h"] }] },
     { id := "pol2"
       rules := [{ id := "r2", sources := ["g"], destinationResource := { id := "res" } }] }]
  routes := ⟨[], nodup_nil⟩
  networkRouters := [{ networkID := "n", peer := "p2" }]
  networkResources := resources

/-- The two maps of `p1`, with both peers validated. -/
def pairMaps (a : Account) : Except GoPanic NetworkMap × Except GoPanic NetworkMap :=
  (LegacyMap.getPeerNetworkMap plainEnv a "p1" ["p1", "p2"] (getResourcePoliciesMap a)
      (getResourceRoutersMap a) ∅,
   getPeerNetworkMapFromComponents plainEnv a "p1" ["p1", "p2"] (getResourcePoliciesMap a)
      (getResourceRoutersMap a) ∅)

/-- Without embedded peers the two maps agree. -/
theorem maps_agree_pair :
    ∃ nm nm', pairMaps (pairAccount false [{ id := "res", networkID := "n" }]) =
        (.ok nm, .ok nm') ∧
      SameSet nm.peers nm'.peers ∧ SameSet nm.offlinePeers nm'.offlinePeers ∧
      SameSet nm.firewallRules nm'.firewallRules := by
  generalize ha : pairAccount false [{ id := "res", networkID := "n" }] = a
  have hp : Plain a ["p1", "p2"] := by
    subst ha
    exact ⟨by decide, by decide, by decide, by decide, by decide⟩
  have hd : ∀ res ∈ a.networkResources, res.type = .domain →
      (plainEnv.domainFromStringList [res.domain]).isSome := fun _ _ _ => rfl
  obtain ⟨nm, nm', h, h', hs⟩ := @maps_agree plainEnv a ["p1", "p2"] (getResourcePoliciesMap a)
    (getResourceRoutersMap a) "p1" ∅ (fun tp ht _ => hp.viewsAgree ht hd)
  exact ⟨nm, nm', Prod.ext h h', hs⟩

/-- The components connect to an embedded peer, the account does not. -/
theorem maps_differ_embedded :
    ∃ nm nm', pairMaps (pairAccount true []) = (.ok nm, .ok nm') ∧
      ¬ SameSet nm.peers nm'.peers := by
  obtain ⟨nm, hn, hp⟩ := exists_ok_of_map (x := (pairMaps (pairAccount true [])).1)
    (f := fun nm => nm.peers) (b := []) (by decide +kernel)
  obtain ⟨nm', hn', hp'⟩ := exists_ok_of_map (x := (pairMaps (pairAccount true [])).2)
    (f := fun nm => nm.peers) (b := [{ id := "p2", ip := "100.64.0.2", embedded := true }])
    (by decide +kernel)
  refine ⟨nm, nm', Prod.ext hn hn', fun h => ?_⟩
  rw [hp, hp'] at h
  exact not_mem_nil ((h _).mpr mem_cons_self)

end Agreement

import NetbirdHa.RouteAgreementProofs

/-! # Who has whom as a peer

Two peers can talk only if each has the other in its map.  For policies, and for
a client and a router of a network resource, this is so: the maps are computed
one by one, but over the same account they say the same (`mem_peers_iff`).

The exception are two routers of one network.  A router does not get the other
routers of its networks, but it gets every source of their resources, other
routers among them. -/

namespace Symmetry

open Table AccountModel GroupPeers Connection Routes LegacyMap Components Calculate List
open Agreement

/-! ## Links in the account -/

section

variable (a : Account) (vp : Validated) (rp : PolicyMap) (rr : Routers) (t q : String)

/-- A rule has the two peers on different sides. -/
def Faces : Prop :=
  ∃ pr ∈ activeRules a.policies,
    (InSources a vp t pr.1 pr.2 ∧ InDestinations a vp q pr.2) ∨
      (InDestinations a vp t pr.2 ∧ InSources a vp q pr.1 pr.2)

/-- The two route the network of a resource that the second is a source of. -/
def BothRoute : Prop :=
  ∃ res ∈ a.networkResources, res.enabled ∧ isRouterOf rr t res ∧
    isRouterOf rr q res ∧ ∃ pol ∈ policiesIn rp res.id,
      q ∈ accountSources a pol ∧ a.validatePostureChecksOnPeer pol.sourcePostureChecks q

/-- A rule connects the two, or a resource that one is a client of and the other routes. -/
def Linked : Prop :=
  Faces a vp t q ∨ LegacyRouter a rp rr t q ∨ LegacyRouter a rp rr q t

/-- No group named "All" misses the peer where a group that holds it is listed. -/
structure AllClear (x : String) : Prop where
  rules : ∀ pr ∈ activeRules a.policies,
    (¬ pr.2.sourceResource.IsPeer → InGroups a.getGroup pr.2.sources x →
      AllHas a.getGroup pr.2.sources x) ∧
    (¬ pr.2.destinationResource.IsPeer → InGroups a.getGroup pr.2.destinations x →
      AllHas a.getGroup pr.2.destinations x)
  resources : ∀ res ∈ a.networkResources, res.enabled →
    ∀ pol ∈ policiesIn rp res.id, ClientClear a x pol

end

section

variable {a : Account} {vp : Validated} {rp : PolicyMap} {rr : Routers} {t q : String}

theorem faces_comm : Faces a vp t q ↔ Faces a vp q t := by grind [Faces]

theorem linked_comm : Linked a vp rp rr t q ↔ Linked a vp rp rr q t := by
  rw [Linked, Linked, faces_comm, or_comm (a := LegacyRouter a rp rr t q)]

/-- A source of a resource that `t` routes is a client of it, or routes it, too. -/
theorem legacySource_iff :
    LegacySource a rp rr t q ↔ LegacyRouter a rp rr q t ∨ BothRoute a rp rr t q := by
  constructor
  · rintro ⟨res, hre, he, hr, pol, hp, hs⟩
    cases hq : isRouterOf rr q res with
    | true => exact .inr ⟨res, hre, he, hr, hq, pol, hp, hs⟩
    | false =>
      obtain ⟨router, hl⟩ := Option.isSome_iff_exists.mp hr
      exact .inl ⟨res, hre, he, ⟨lookup_eq_none_iff.mpr hq, pol, hp, hs⟩, mem_of_lookup hl⟩
  · rintro (⟨res, hre, he, ⟨-, pol, hp, hs⟩, hm⟩ | ⟨res, hre, he, hr, -, hs⟩)
    · obtain ⟨router, hl⟩ := exists_lookup_of_mem hm
      exact ⟨res, hre, he, by rw [isRouterOf, hl]; rfl, pol, hp, hs⟩
    · exact ⟨res, hre, he, hr, hs⟩

end

/-! ## One map -/

section

variable {env : Env} {a : Account} {vp : Validated} {rp : PolicyMap}
  {rr : Routers} {t : String} {c : NetworkMapComponents} {q : Peer}
  (k : Knows a vp rp rr t c) (hget : a.getPeer q.id = some q) (hv : q.id ∈ vp) (hne : q.id ≠ t)

include k

/-- A known peer is found in known groups as in the account, if no "All" misses it. -/
theorem mem_unique_known (hk : Known a vp rp rr t x)
    (hgr : ∀ gid ∈ groups, (a.getGroup gid).isSome → KnownGroup a vp rp rr t gid)
    (ha : InGroups a.getGroup groups x → AllHas a.getGroup groups x) :
    x ∈ getUniquePeerIDsFromGroupsIDs (getGroupInfo c) groups ↔
      x ∈ getUniquePeerIDsFromGroupsIDs a.getGroup groups := by
  have hin : InGroups (getGroupInfo c) groups x ↔ InGroups a.getGroup groups x := by
    refine exists_congr fun gid => and_congr_right fun hgi => ?_
    rw [mem_groupInfo k]
    refine ⟨fun h => h.2.1, fun h => ⟨hgr gid hgi ?_, h, hk⟩⟩
    obtain ⟨g, hg, -⟩ := h
    simp [hg]
  constructor
  · intro hx
    have hx' := hin.mp (inGroups_of_mem_unique hx)
    exact (mem_uniquePeerIDs (ha hx')).mpr hx'
  · intro hx
    have hx' := inGroups_of_mem_unique hx
    refine (mem_uniquePeerIDs ?_).mpr (hin.mpr hx')
    intro gid hgi g' hg' hi
    obtain ⟨-, g, hg, -, rfl⟩ := (k.groups gid g').mp hg'
    exact (mem_cutGroup k).mpr ⟨ha hx' gid hgi g hg hi, hk⟩

/-- The peer that faces the target on a side of a rule is one that stands there. -/
theorem mem_side_iff (hget : a.getPeer q.id = some q) (hv : q.id ∈ vp) (hne : q.id ≠ t)
    (hs : OnSide a vp t res groups checks q.id → Known a vp rp rr t q.id)
    (hg : ∀ gid ∈ groups, KnownGroup a vp rp rr t gid)
    (ha : ¬ res.IsPeer → InGroups a.getGroup groups q.id → AllHas a.getGroup groups q.id)
    (hp : ¬ res.IsPeer → q.id ∈ getUniquePeerIDsFromGroupsIDs a.getGroup groups →
      validatePostureChecksOnPeer c checks q.id → a.validatePostureChecksOnPeer checks q.id) :
    q ∈ (Calculate.side c t res groups checks).1 ↔ Stands a vp q.id res groups checks := by
  rw [OnSide] at hs
  rw [Stands]
  by_cases hr : res.IsPeer
  · rw [if_pos hr] at hs ⊢
    rw [Calculate.mem_side_direct hr]
    constructor
    · rintro ⟨-, hi⟩
      exact (Account.id_of_getPeer ((getPeerInfo_eq_some k).mp hi).2).symm
    · intro hid
      rw [hid]
      exact ⟨hne, (getPeerInfo_eq_some k).mpr ⟨hs hid.symm, hget⟩⟩
  · rw [if_neg hr] at hs ⊢
    rw [Calculate.mem_side_groups k hr]
    constructor
    · rintro ⟨hq, -, hva, -⟩
      have hk := ((validate_eq_true k).mp hva).1
      have hq' := (mem_unique_known k hk (fun gid hgi _ => hg gid hgi) (ha hr)).mp hq
      exact ⟨hq', hv, hp hr hq' hva⟩
    · rintro ⟨hq, hu⟩
      have hk := hs ⟨hq, hu, hne⟩
      exact ⟨(mem_unique_known k hk (fun gid hgi _ => hg gid hgi) (ha hr)).mpr hq,
        hget, validate_of_passes k hk hu.2, hne⟩

include hget hv hne

/-- Policies connect the target to the peers it faces. -/
theorem mem_aclPeers_iff (ht : AllClear a rp t) (hq : AllClear a rp q.id) :
    q ∈ (componentGen env c t).peers ↔ Faces a vp t q.id := by
  obtain ⟨target, htg⟩ := k.target
  -- one rule of a relevant policy
  have hr : ∀ pr ∈ activeRules a.policies, policyRelevant a vp t pr.1 →
      (q ∈ (Calculate.sides c t pr.1 pr.2).facing ↔
        (InSources a vp t pr.1 pr.2 ∧ InDestinations a vp q.id pr.2) ∨
          (InDestinations a vp t pr.2 ∧ InSources a vp q.id pr.1 pr.2)) := by
    intro pr hpr hrl
    have hS : (Calculate.sides c t pr.1 pr.2).peerInSources ↔ InSources a vp t pr.1 pr.2 :=
      components_found_iff k (ht.rules pr hpr).1 (fun hrs hm =>
        posture_sources k hpr hrl hrs t hm target htg k.isValidated)
    have hD : (Calculate.sides c t pr.1 pr.2).peerInDestinations ↔ InDestinations a vp t pr.2 :=
      components_found_iff k (ht.rules pr hpr).2 fun _ _ _ => checksOnPeer_nil htg
    rw [mem_facing, hS, hD]
    refine or_congr (and_congr_right fun hi => ?_) (and_congr_right fun hi => ?_)
    · exact mem_side_iff k hget hv hne (fun ho => .inr (.inl ⟨pr, hpr, .inl ⟨hi, ho⟩⟩))
        (fun gid hg => .inl (.inr (.inr ⟨pr, hpr, .inr (.inl ⟨hi, hg⟩)⟩)))
        (hq.rules pr hpr).2 fun _ _ _ => checksOnPeer_nil hget
    · exact mem_side_iff k hget hv hne (fun ho => .inr (.inl ⟨pr, hpr, .inr ⟨hi, ho⟩⟩))
        (fun gid hg => .inl (.inr (.inr ⟨pr, hpr, .inr (.inr ⟨hi, hg⟩)⟩)))
        (hq.rules pr hpr).1
        (fun hrs hm => posture_sources k hpr hrl hrs q.id hm q hget hv)
  rw [mem_aclPeers k]
  refine exists_congr fun pr => and_congr_right fun hpr => ?_
  constructor
  · rintro ⟨hrl, hf⟩
    exact (hr pr hpr hrl).mp hf
  · intro hsi
    have hrl := relevant_of_sides hpr (hsi.imp And.left And.left)
    exact ⟨hrl, (hr pr hpr hrl).mpr hsi⟩

omit hne in
/-- The sources that the components find for the resources the target routes. -/
theorem source_iff_account (hq : AllClear a rp q.id) :
    ComponentSource rr t q.id c ↔ LegacySource a rp rr t q.id := by
  -- a source is known, and so are the groups it is looked up in
  have hs : ∀ {res pol}, res ∈ c.networkResources → isRouterOf rr t res →
      pol ∈ policiesOf c res.id → Known a vp rp rr t q.id →
        (q.id ∈ policySourcePeers (getUniquePeerIDsFromGroupsIDs (getGroupInfo c)) pol ↔
          q.id ∈ accountSources a pol) := by
    intro res pol hk hr hp hkn
    obtain ⟨hre, he, -⟩ := (mem_networkResources k).mp hk
    rw [policiesOf_components k hk] at hp
    obtain ⟨policies, hl, hm⟩ := mem_policiesIn.mp hp
    rw [accountSources, mem_policySourcePeers, mem_policySourcePeers]
    refine or_congr_right (and_congr_right fun hd => mem_unique_known k hkn
      (fun gid hg hso => .inr ⟨res, mem_filter.mpr ⟨hre, he⟩, policies, hl, pol,
        ?_, sourceGroups_subset hg, hso⟩) (hq.resources res hre he pol hp hd))
    rw [keptPolicies, if_pos hr]
    exact hm
  constructor
  · rintro ⟨res, hk, hr, pol, hp, hsr, hva⟩
    obtain ⟨hre, he, -⟩ := (mem_networkResources k).mp hk
    grind [validate_eq_true, validate_iff_routed, policiesOf_components, LegacySource]
  · rintro ⟨res, hre, he, hr, pol, hp, hsr, hva⟩
    obtain ⟨policies, hl, hm⟩ := mem_policiesIn.mp hp
    have hk := routed_kept k hre he hr hl
    have hkn : Known a vp rp rr t q.id := by
      refine .inr (.inr ⟨res, mem_filter.mpr ⟨hre, he⟩, policies, hl, .inr ⟨pol, ?_, hsr, hv, hva⟩⟩)
      rw [openedPolicies, if_pos hr]
      exact hm
    grind [policiesOf_components, validate_of_passes, ComponentSource]

omit hne in
/-- The routers that the components find for the resources the target is a client of. -/
theorem router_iff_account (ht : AllClear a rp t) :
    (ComponentRouter rr t q.id c ∧ ∃ p, getPeerInfo c q.id = some p) ↔
      LegacyRouter a rp rr t q.id := by
  constructor
  · rintro ⟨⟨res, hk, hc, hm⟩, -⟩
    obtain ⟨hr, he, -⟩ := (mem_networkResources k).mp hk
    exact ⟨res, hr, he, legacyClient_of_component k hk (ht.resources res hr he) hc, hm⟩
  · rintro ⟨res, hr, he, hc, hm⟩
    obtain ⟨hk, hc'⟩ := componentClient_of_legacy k hr he hc
    obtain ⟨-, pol, hp, -⟩ := hc
    obtain ⟨policies, hl, -⟩ := mem_policiesIn.mp hp
    refine ⟨⟨res, hk, hc', hm⟩, q, (getPeerInfo_eq_some k).mpr ⟨?_, hget⟩⟩
    exact .inr (.inr ⟨res, mem_filter.mpr ⟨hr, he⟩, policies, hl, .inl ⟨hm, hv, by simp [hget]⟩⟩)

/-- The online peers of a map are those linked to its owner, and the sources that
    route along with it. -/
theorem mem_peers_iff (hex : a.settings.peerExpired env q = false) (ht : AllClear a rp t)
    (hq : AllClear a rp q.id) :
    q ∈ (calculate env c).peers ↔ Linked a vp rp rr t q.id ∨ BothRoute a rp rr t q.id := by
  have hac : q ∈ (componentGen env c t).peers ↔
      Faces a vp t q.id := mem_aclPeers_iff k hget hv hne ht hq
  have he : ComponentSource rr t q.id c ∨
      (ComponentRouter rr t q.id c ∧ ∃ p, getPeerInfo c q.id = some p) ↔
      (LegacyRouter a rp rr t q.id ∨ LegacyRouter a rp rr q.id t) ∨ BothRoute a rp rr t q.id := by
    rw [source_iff_account k hget hv hq, router_iff_account k hget hv ht, legacySource_iff,
      or_comm, or_assoc]
  simp only [calculate, k.peerID, k.settings]
  rw [mem_addNetworksRoutingPeers, Linked, or_assoc, ← hac, ← he, mem_filter]
  constructor
  · rintro (⟨hm, -⟩ | ⟨x, ha, hx, -, hp⟩)
    · exact .inl hm
    · rw [← Account.id_of_getPeer (getPeerOrRouter_eq_some k hp)] at ha hx
      exact .inr ((componentExtra_iff k hx).mp ha)
  · intro h
    by_cases hm : q ∈ (componentGen env c t).peers
    · exact .inl ⟨hm, by simp [hex]⟩
    have ha := h.resolve_left hm
    refine .inr ⟨q.id, (componentExtra_iff k hne).mpr ha, hne, fun x hx hi => hm ?_,
      getPeerOrRouter_of_known k (known_of_extra k ha) hget⟩
    -- a peer of that ID is this one
    have hx' : x ∈ (componentGen env c t).peers := by
      rcases mem_append.mp hx with hx | hx <;> exact (mem_filter.mp hx).1
    obtain ⟨pr, -, -, hf⟩ := (mem_aclPeers k).mp hx'
    rwa [← eq_of_getPeer (known_of_mem_facing k hf).2.1 hget hi]

end

/-! ## Two maps -/

section

variable {env : Env} {a : Account} {vp : Validated} {rp : PolicyMap} {rr : Routers} {gu : UserMap}
  {p q : Peer} {nm nm' : NetworkMap}

/-- The map of a validated peer comes from components. -/
theorem exists_components (hp : a.getPeer p.id = some p) (hv : p.id ∈ vp)
    (h : getPeerNetworkMapFromComponents env a p.id vp rp rr gu = .ok nm) :
    ∃ c, Knows a vp rp rr p.id c ∧ nm = calculate env c := by
  rcases map_cases h with ⟨ha, -⟩ | ⟨c, -, k, hn⟩
  · exact absurd ⟨hv, by simp [hp]⟩ ha
  · exact ⟨c, k, hn⟩

/-- **Two peers have each other or neither has the other**, where the only thing
    between them is not a network that both route and one is a source for. -/
theorem peers_symmetric_iff (hp : a.getPeer p.id = some p) (hq : a.getPeer q.id = some q)
    (hne : p.id ≠ q.id) (hvp : p.id ∈ vp) (hvq : q.id ∈ vp)
    (hexp : a.settings.peerExpired env p = false) (hexq : a.settings.peerExpired env q = false)
    (hallp : AllClear a rp p.id) (hallq : AllClear a rp q.id)
    (hnm : getPeerNetworkMapFromComponents env a p.id vp rp rr gu = .ok nm)
    (hnm' : getPeerNetworkMapFromComponents env a q.id vp rp rr gu = .ok nm') :
    (q ∈ nm.peers ↔ p ∈ nm'.peers) ↔
      (Linked a vp rp rr p.id q.id ∨
        (BothRoute a rp rr p.id q.id ↔ BothRoute a rp rr q.id p.id)) := by
  obtain ⟨c, k, rfl⟩ := exists_components hp hvp hnm
  obtain ⟨c', k', rfl⟩ := exists_components hq hvq hnm'
  rw [mem_peers_iff k hq hvq hne.symm hexq hallp hallq,
    mem_peers_iff k' hp hvp hne hexp hallq hallp, linked_comm (t := q.id)]
  tauto

end

/-- A network that `p1` and `p2` route, with a resource for the members of "g". -/
def routersAccount (members : List String) : Account where
  peers := ⟨[{ id := "p1", ip := "100.64.0.1" }, { id := "p2", ip := "100.64.0.2" }], by decide⟩
  groups := ⟨[{ id := "g", peers := members }], by simp⟩
  policies :=
    [{ id := "pol"
       rules := [{ id := "rule", sources := ["g"], destinationResource := { id := "res" } }] }]
  routes := ⟨[], nodup_nil⟩
  networkRouters := [{ networkID := "n", peer := "p1" }, { networkID := "n", peer := "p2" }]
  networkResources := [{ id := "res", networkID := "n" }]

/-- The map of a peer, with both validated. -/
def routersMap (members : List String) (peerID : String) : Except GoPanic NetworkMap :=
  getPeerNetworkMapFromComponents plainEnv (routersAccount members) peerID ["p1", "p2"]
    (getResourcePoliciesMap (routersAccount members))
      (getResourceRoutersMap (routersAccount members))
    ∅

/-- No group of the account is named "All". -/
theorem routersAccount_clear (x : String) : AllClear (routersAccount members) rp x := by
  have hn : ∀ gid g, (routersAccount members).getGroup gid = some g → g.isGroupAll = false := by
    intro gid g hg
    obtain rfl := mem_singleton.mp (Keyed.mem_of_get hg)
    rfl
  have hh : ∀ groups, AllHas (routersAccount members).getGroup groups x := by
    intro groups gid _ g hg ha
    rw [hn gid g hg] at ha
    cases ha
  exact ⟨fun _ _ => ⟨fun _ _ => hh _, fun _ _ => hh _⟩, fun _ _ _ _ _ _ _ => hh _⟩

/-- Two routers that are both sources have each other. -/
theorem peers_symmetric_sources :
    ∃ nm nm', routersMap ["p1", "p2"] "p1" = .ok nm ∧ routersMap ["p1", "p2"] "p2" = .ok nm' ∧
      (({ id := "p2", ip := "100.64.0.2" } : Peer) ∈ nm.peers ↔
        ({ id := "p1", ip := "100.64.0.1" } : Peer) ∈ nm'.peers) := by
  obtain ⟨nm, hn, -⟩ := exists_ok_of_map (x := routersMap ["p1", "p2"] "p1")
    (f := fun nm => nm.offlinePeers) (b := []) (by decide +kernel)
  obtain ⟨nm', hn', -⟩ := exists_ok_of_map (x := routersMap ["p1", "p2"] "p2")
    (f := fun nm => nm.offlinePeers) (b := []) (by decide +kernel)
  have hi := @peers_symmetric_iff plainEnv (routersAccount ["p1", "p2"]) ["p1", "p2"]
    (getResourcePoliciesMap (routersAccount ["p1", "p2"]))
    (getResourceRoutersMap (routersAccount ["p1", "p2"])) ∅ { id := "p1", ip := "100.64.0.1" }
    { id := "p2", ip := "100.64.0.2" } nm nm' rfl rfl (by decide) (by decide) (by decide)
    (by decide) (by decide) (routersAccount_clear _) (routersAccount_clear _) hn hn'
  refine ⟨nm, nm', hn, hn', hi.mpr (.inr (iff_of_true ?_ ?_))⟩
  all_goals
    refine ⟨_, mem_singleton_self _, rfl, by decide +kernel, by decide +kernel, ?_⟩
    decide +kernel

/-- Of two routers only one is a source: only the other has a peer. -/
theorem peers_not_symmetric :
    ∃ nm nm', routersMap ["p2"] "p1" = .ok nm ∧ routersMap ["p2"] "p2" = .ok nm' ∧
      nm.peers = [{ id := "p2", ip := "100.64.0.2" }] ∧ nm'.peers = [] := by
  obtain ⟨nm, hn, hp⟩ := exists_ok_of_map (x := routersMap ["p2"] "p1")
    (f := fun nm => nm.peers) (b := [{ id := "p2", ip := "100.64.0.2" }]) (by decide +kernel)
  obtain ⟨nm', hn', hp'⟩ := exists_ok_of_map (x := routersMap ["p2"] "p2")
    (f := fun nm => nm.peers) (b := []) (by decide +kernel)
  exact ⟨nm, nm', hn, hn', hp, hp'⟩

end Symmetry

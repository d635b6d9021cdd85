import NetbirdHa.ValidatedProofs

/-! # The components and the account agree

`GetPeerNetworkMapFromComponents` is meant to compute what
`Account.GetPeerNetworkMap` computes.  It does so away from a few blind
spots (`ViewsAgree`):

* a group that a rule or route names has to exist, or the components panic;
* only the account leaves embedded peers out of groups;
* a peer that some rule names directly is known to the components whether it
  is validated or not, and then counts as a member of groups, too;
* a group named "All" ends the walk over groups; the components may have
  dropped it;
* only the components ask whether the routers and sources of network
  resources are validated;
* only the account gives up on a domain that does not parse.

The heart is one rule: both sides of it are read alike (`agree_sides`). -/

namespace Agreement

open Table AccountModel GroupPeers FirewallRules Connection Routes Components Calculate Account

/-- What policies give the target for the account. -/
abbrev legacyGen (env : Env) (a : Account) (vp : Validated) (gu : UserMap) (tp : Peer) : Gen :=
  (LegacyMap.getPeerConnectionResources env a vp gu tp).gen

/-! ## Blind spots -/

section

variable (a : Account) (vp : Validated) (t : String)

/-- A listed "All" keeps a member the components know, or covers the groups listed with it. -/
def AllSurvives (checks groups : List String) : Prop :=
  ∀ gid ∈ groups, ∀ g, a.getGroup gid = some g → g.isGroupAll →
    (∃ m ∈ g.peers, m = t ∨
      (m ∈ getUniquePeerIDsFromGroupsIDs a.getGroup groups ∧ Usable a vp checks m)) ∨
    ∀ q, InGroups a.getGroup groups q → q ∈ g.peers

/-- The target's own side, given by groups: no listed "All" misses the target,
    and the target is not embedded if it counts. -/
structure OwnClear (tp : Peer) (groups checks : List String) : Prop where
  all : InGroups a.getGroup groups t → AllHas a.getGroup groups t
  embedded : t ∈ getUniquePeerIDsFromGroupsIDs a.getGroup groups →
    Usable a vp checks t → tp.embedded = false

/-- The side opposite the target, given by groups: its members that count are not embedded. -/
structure FacingClear (groups checks : List String) : Prop where
  all : AllSurvives a vp t checks groups
  embedded : ∀ p : Peer, a.getPeer p.id = some p →
    p.id ∈ getUniquePeerIDsFromGroupsIDs a.getGroup groups → Usable a vp checks p.id →
      p.id ≠ t → p.embedded = false

/-- Its unvalidated members are not named opposite the target. -/
def DirectClear (groups : List String) : Prop :=
  ∀ q ∈ getUniquePeerIDsFromGroupsIDs a.getGroup groups, (a.getPeer q).isSome →
    FacesDirectly a vp t q → q ∈ vp

/-- A policy of a resource that the target routes. -/
structure RoutedClear (pol : Policy) : Prop where
  all : ¬ (firstRule pol).sourceResource.IsPeer →
    AllSurvives a vp t pol.sourcePostureChecks (sourceGroups pol)
  sources : ∀ q ∈ accountSources a pol,
    a.validatePostureChecksOnPeer pol.sourcePostureChecks q → q ∈ vp ∨ FacesDirectly a vp t q

/-- A policy of a resource that the target does not route. -/
def ClientClear (pol : Policy) : Prop :=
  ¬ (firstRule pol).sourceResource.IsPeer →
    InGroups a.getGroup (sourceGroups pol) t → AllHas a.getGroup (sourceGroups pol) t

/-- The resource has a route to parse for the target. -/
def NeedsRoute (rp : GoMap (List Policy)) (rr : GoMap (GoMap NetworkRouter))
    (res : NetworkResource) : Prop :=
  ∃ policies, rp.lookup res.id = some policies ∧
    ((isRouterOf rr t res ∧ policies ≠ []) ∨ ((∃ pol ∈ policies, admits a t pol) ∧
        ∃ q ∈ routingPeers rr res, (a.getPeer q).isSome))

/-- The groups of policies and routes: they exist, and count alike. -/
structure PolicyViews (tp : Peer) : Prop where
  groups : ∀ gid, RelevantGroup a vp t gid → (a.getGroup gid).isSome
  own : ∀ pr ∈ activeRules a.policies, policyRelevant a vp t pr.1 →
    (¬ pr.2.sourceResource.IsPeer → OwnClear a vp t tp pr.2.sources pr.1.sourcePostureChecks) ∧
    (¬ pr.2.destinationResource.IsPeer → OwnClear a vp t tp pr.2.destinations [])
  facing : ∀ pr ∈ activeRules a.policies,
    (InSources a vp t pr.1 pr.2 → ¬ pr.2.destinationResource.IsPeer →
      FacingClear a vp t pr.2.destinations []) ∧
    (InDestinations a vp t pr.2 → ¬ pr.2.sourceResource.IsPeer →
      FacingClear a vp t pr.2.sources pr.1.sourcePostureChecks)

/-- The resources that the target is a client of: their routers are validated, or
    named opposite the target, and their routes parse. -/
structure ClientViews (env : Env) (rp : GoMap (List Policy))
    (rr : GoMap (GoMap NetworkRouter)) : Prop where
  client : ∀ res ∈ a.networkResources, res.enabled → isRouterOf rr t res = false →
    ∀ policies, rp.lookup res.id = some policies →
      (∀ pol ∈ policies, ClientClear a t pol) ∧
      ((∃ pol ∈ policies, admits a t pol) → ∀ q ∈ routingPeers rr res, (a.getPeer q).isSome →
          q ∈ vp ∨ FacesDirectly a vp t q)
  domains : ∀ res ∈ a.networkResources, res.enabled →
    NeedsRoute a t rp rr res → res.type = .domain → (env.domainFromStringList [res.domain]).isSome

/-- Neither computation runs into a blind spot. -/
structure ViewsAgree (env : Env) (rp : GoMap (List Policy))
    (rr : GoMap (GoMap NetworkRouter)) (tp : Peer) : Prop
    extends PolicyViews a vp t tp, ClientViews a vp t env rp rr where
  direct : ∀ pr ∈ activeRules a.policies,
    (InSources a vp t pr.1 pr.2 → ¬ pr.2.destinationResource.IsPeer →
      DirectClear a vp t pr.2.destinations) ∧
    (InDestinations a vp t pr.2 → ¬ pr.2.sourceResource.IsPeer → DirectClear a vp t pr.2.sources)
  routed : ∀ res ∈ a.networkResources, res.enabled → isRouterOf rr t res →
    ∀ policies, rp.lookup res.id = some policies → ∀ pol ∈ policies, RoutedClear a vp t pol

end

variable {env : Env} {a : Account} {vp : Validated} {rp : PolicyMap}
  {rr : Routers} {t : String} {c : NetworkMapComponents} {tp p : Peer}

/-! ## One rule -/

section

variable {res : Resource} {groups checks : List String}

/-- The components do not panic where the groups that are named exist. -/
theorem PolicyViews.exists_components (h : PolicyViews a vp t tp) (ht : a.getPeer t = some tp)
    (hv : t ∈ vp) : ∃ c, getPeerNetworkMapComponents a t vp rp rr gu = .ok (some c) := by
  refine components_isOk ht hv fun gid hg => ?_
  rcases hg with hg | ⟨res, -, policies, -, pol, -, -, hs⟩
  · exact Option.isSome_iff_exists.mp (h.groups gid hg)
  · exact Option.isSome_iff_exists.mp hs

/-- The account finds the target where it stands. -/
theorem legacy_found_iff (ht : a.getPeer t = some tp)
    (ho : Stands a vp t res groups checks → ¬ res.IsPeer → OwnClear a vp t tp groups checks) :
    (LegacyMap.side a vp t res groups checks).2 ↔ Stands a vp t res groups checks := by
  by_cases hr : res.IsPeer
  · rw [Stands, if_pos hr, LegacyMap.side_direct_found hr (by simp [ht])]
  rw [LegacyMap.side_groups_found hr ht]
  constructor
  · rintro ⟨hq, -, hu⟩
    rw [Stands, if_neg hr]
    exact ⟨hq, hu⟩
  · intro hst
    have hoc := ho hst hr
    rw [Stands, if_neg hr] at hst
    obtain ⟨hq, hu⟩ := hst
    exact ⟨hq, hoc.embedded hq hu, hu⟩

/-- A listed "All" that survives keeps a known peer. -/
theorem allKept_of_survives (h : AllSurvives a vp t checks groups)
    (hk : ∀ m ∈ getUniquePeerIDsFromGroupsIDs a.getGroup groups, Usable a vp checks m →
      Known a vp rp rr t m) : AllKept (Known a vp rp rr t) a.getGroup groups := by
  intro gid hgi g hg ha
  rcases h gid hgi g hg ha with ⟨m, hm, rfl | ⟨hme, hu⟩⟩ | hc
  · exact .inl ⟨m, hm, .inl rfl⟩
  · exact .inl ⟨m, hm, hk m hme hu⟩
  · exact .inr fun q _ hi => hc q hi

variable (a vp rp rr t c res groups checks) in
/-- A side opposite the target that both can read: the components know the peer it
    names, or its groups and the members that count, with their posture. -/
structure SideReadable : Prop where
  named : res.IsPeer → FacesDirectly a vp t res.id
  usable : ¬ res.IsPeer → ∀ q ∈ getUniquePeerIDsFromGroupsIDs a.getGroup groups,
    Usable a vp checks q → Known a vp rp rr t q
  known : ∀ gid ∈ groups, KnownGroup a vp rp rr t gid
  clear : ¬ res.IsPeer → FacingClear a vp t groups checks
  posture : ¬ res.IsPeer → ∀ q ∈ getUniquePeerIDsFromGroupsIDs a.getGroup groups, ∀ p,
    a.getPeer q = some p → q ∈ vp → validatePostureChecksOnPeer c checks q →
      a.validatePostureChecksOnPeer checks q

variable (k : Knows a vp rp rr t c)

include k

/-- So do the components, if they give the account's answer on posture. -/
theorem components_found_iff
    (ha : ¬ res.IsPeer → InGroups a.getGroup groups t → AllHas a.getGroup groups t)
    (hp : ¬ res.IsPeer → t ∈ getUniquePeerIDsFromGroupsIDs a.getGroup groups →
      validatePostureChecksOnPeer c checks t → a.validatePostureChecksOnPeer checks t) :
    (Calculate.side c t res groups checks).2 ↔ Stands a vp t res groups checks := by
  refine ⟨fun h => ?_, side_found_of_stands k⟩
  rw [Stands]
  by_cases hr : res.IsPeer
  · rw [if_pos hr]
    exact (Calculate.side_direct_found hr).mp h
  rw [if_neg hr]
  obtain ⟨hq, hv⟩ := (Calculate.side_groups_found k hr).mp h
  have hm := ((keeps_target k).mem_unique_iff (ha hr)).mp hq
  exact ⟨hm, k.isValidated, hp hr hm hv⟩

variable (h : SideReadable a vp rp rr t c res groups checks)

include h

/-- The components read the members of a group as the account does. -/
theorem mem_unique_readable (hr : ¬ res.IsPeer) :
    q ∈ getUniquePeerIDsFromGroupsIDs (getGroupInfo c) groups ↔
      q ∈ getUniquePeerIDsFromGroupsIDs a.getGroup groups ∧ Known a vp rp rr t q :=
  mem_unique_restricts (restricts_known k (fun gid hg _ => h.known gid hg))
    (allKept_of_survives (h.clear hr).all (h.usable hr))

/-- The components find what the account finds. -/
theorem mem_side_of_legacy (hp : p ∈ (LegacyMap.side a vp t res groups checks).1) :
    p ∈ (Calculate.side c t res groups checks).1 := by
  by_cases hr : res.IsPeer
  · obtain ⟨hn, hp⟩ := (LegacyMap.mem_side_direct hr).mp hp
    exact (Calculate.mem_side_direct hr).mpr
      ⟨hn, (getPeerInfo_eq_some k).mpr ⟨known_of_facesDirectly (h.named hr), hp⟩⟩
  obtain ⟨hq, hp, -, hu, hn⟩ := (LegacyMap.mem_side_groups hr).mp hp
  have hk := h.usable hr p.id hq hu
  exact (Calculate.mem_side_groups k hr).mpr ⟨(mem_unique_readable k h hr).mpr ⟨hq, hk⟩,
    hp, validate_of_passes k hk hu.2, hn⟩

/-- What else the components find is an unvalidated peer named opposite the target. -/
theorem mem_legacy_of_side (hp : p ∈ (Calculate.side c t res groups checks).1) :
    p ∈ (LegacyMap.side a vp t res groups checks).1 ∨
      (¬ res.IsPeer ∧ p.id ∈ getUniquePeerIDsFromGroupsIDs a.getGroup groups ∧
        p.id ∉ vp ∧ FacesDirectly a vp t p.id) := by
  by_cases hr : res.IsPeer
  · obtain ⟨hn, hi⟩ := (Calculate.mem_side_direct hr).mp hp
    exact .inl ((LegacyMap.mem_side_direct hr).mpr ⟨hn, ((getPeerInfo_eq_some k).mp hi).2⟩)
  obtain ⟨hq, hg, hva, hn⟩ := (Calculate.mem_side_groups k hr).mp hp
  obtain ⟨hq, hk⟩ := (mem_unique_readable k h hr).mp hq
  by_cases hv : p.id ∈ vp
  · have hu : Usable a vp checks p.id := ⟨hv, h.posture hr p.id hq p hg hv hva⟩
    exact .inl ((LegacyMap.mem_side_groups hr).mpr
      ⟨hq, hg, (h.clear hr).embedded p hg hq hu hn, hu, hn⟩)
  · exact .inr ⟨hr, hq, hv, (validated_of_known k.isValidated hk).resolve_left hv⟩

/-- A readable side has the same peers for both, if unvalidated members are not
    named opposite the target. -/
theorem sameSet_side (hd : ¬ res.IsPeer → DirectClear a vp t groups) :
    SameSet (LegacyMap.side a vp t res groups checks).1
      (Calculate.side c t res groups checks).1 := by
  intro p
  refine ⟨mem_side_of_legacy k h, fun hp => ?_⟩
  rcases mem_legacy_of_side k h hp with hp' | ⟨hr, hq, hv, hf⟩
  · exact hp'
  · have hg := (known_of_mem_side k hp).2.1
    exact absurd (hd hr p.id hq (by simp [hg]) hf) hv

end

/-! ## All rules -/

section

variable {pol : Policy} {rule : PolicyRule}

theorem checksOnPeer_nil (hp : a.getPeer q = some p) : a.validatePostureChecksOnPeer [] q :=
  checksOnPeer_eq_true.mpr ⟨p, hp, rfl⟩

theorem facing_of_not_found {sd : Sides} (hs : sd.peerInSources = false)
    (hd : sd.peerInDestinations = false) : sd.Agree {} where
  destinations := by rw [Sides.facingDestinations, hs]; exact SameSet.refl _
  sources := by rw [Sides.facingSources, hd]; exact SameSet.refl _

section

variable (ht : a.getPeer t = some tp) (hviews : PolicyViews a vp t tp)
  (hpr : (pol, rule) ∈ activeRules a.policies)

include ht hviews hpr

/-- The server finds the target in the sources. -/
theorem legacy_peerInSources :
    (LegacyMap.sides a vp t pol rule).peerInSources ↔ InSources a vp t pol rule :=
  legacy_found_iff ht fun hi => (hviews.own _ hpr (relevant_of_sides hpr (.inl hi))).1

/-- The server finds the target in the destinations. -/
theorem legacy_peerInDestinations :
    (LegacyMap.sides a vp t pol rule).peerInDestinations ↔ InDestinations a vp t rule :=
  legacy_found_iff ht fun hi => (hviews.own _ hpr (relevant_of_sides hpr (.inr hi))).2

/-- In a policy that is not relevant the account does not find the target. -/
theorem agree_irrelevant (hrel : policyRelevant a vp t pol = false) :
    (LegacyMap.sides a vp t pol rule).Agree {} := by
  obtain ⟨-, he, hr, hre⟩ := mem_activeRules.mp hpr
  apply facing_of_not_found
  all_goals grind [policyRelevant_iff, legacy_peerInSources, legacy_peerInDestinations]

end

variable (k : Knows a vp rp rr t c) (ht : a.getPeer t = some tp) (hviews : PolicyViews a vp t tp)
  (hpr : (pol, rule) ∈ activeRules a.policies) (hrel : policyRelevant a vp t pol)

include k

/-- Posture of a validated source: the components give the account's answer. -/
theorem posture_sources (hpr : (pol, rule) ∈ activeRules a.policies)
    (hrel : policyRelevant a vp t pol) (hr : ¬ rule.sourceResource.IsPeer) :
    ∀ q ∈ getUniquePeerIDsFromGroupsIDs a.getGroup rule.sources, ∀ p, a.getPeer q = some p →
      q ∈ vp → validatePostureChecksOnPeer c pol.sourcePostureChecks q →
        a.validatePostureChecksOnPeer pol.sourcePostureChecks q :=
  fun _ hq _ hp hv => passes_of_validate k hpr hrel hr hq hp hv

include ht hviews hpr

include hrel in
/-- The client finds the target in the sources. -/
theorem component_peerInSources :
    (Calculate.sides c t pol rule).peerInSources ↔ InSources a vp t pol rule :=
  components_found_iff k (fun hr => ((hviews.own _ hpr hrel).1 hr).all) (fun hr hm =>
    posture_sources k hpr hrel hr t hm tp ht k.isValidated)

include hrel in
/-- The client finds the target in the destinations. -/
theorem component_peerInDestinations :
    (Calculate.sides c t pol rule).peerInDestinations ↔ InDestinations a vp t rule :=
  components_found_iff k (fun hr => ((hviews.own _ hpr hrel).2 hr).all) fun _ _ _ =>
    checksOnPeer_nil ht

omit k ht in
/-- The other side of a source is readable. -/
theorem readable_destinations (hi : InSources a vp t pol rule) :
    SideReadable a vp rp rr t c rule.destinationResource rule.destinations [] where
  named := fun hr => ⟨(pol, rule), hpr, .inl ⟨hi, hr, rfl⟩⟩
  usable := fun hr _ => known_of_usable hr fun ho => ⟨_, hpr, .inl ⟨hi, ho⟩⟩
  known := fun _ hg => .inl (.inr (.inr ⟨(pol, rule), hpr, .inr (.inl ⟨hi, hg⟩)⟩))
  clear := (hviews.facing _ hpr).1 hi
  posture := fun _ _ _ _ hp _ _ => checksOnPeer_nil hp

omit ht in
include hrel in
/-- The other side of a destination is readable. -/
theorem readable_sources (hi : InDestinations a vp t rule) :
    SideReadable a vp rp rr t c rule.sourceResource rule.sources pol.sourcePostureChecks where
  named := fun hr => ⟨(pol, rule), hpr, .inr ⟨hi, hr, rfl⟩⟩
  usable := fun hr _ => known_of_usable hr fun ho => ⟨_, hpr, .inr ⟨hi, ho⟩⟩
  known := fun _ hg => .inl (.inr (.inr ⟨(pol, rule), hpr, .inr (.inr ⟨hi, hg⟩)⟩))
  clear := (hviews.facing _ hpr).2 hi
  posture := fun hr => posture_sources k hpr hrel hr

include hrel in
/-- The sides of an active rule of a relevant policy are read alike. -/
theorem agree_sides (hd : (InSources a vp t pol rule → ¬ rule.destinationResource.IsPeer →
        DirectClear a vp t rule.destinations) ∧
      (InDestinations a vp t rule → ¬ rule.sourceResource.IsPeer →
        DirectClear a vp t rule.sources)) :
    (LegacyMap.sides a vp t pol rule).Agree (Calculate.sides c t pol rule) := by
  have hS := component_peerInSources k ht hviews hpr hrel
  have hD := component_peerInDestinations k ht hviews hpr hrel
  rw [← legacy_peerInSources ht hviews hpr, ← Bool.eq_iff_iff] at hS
  rw [← legacy_peerInDestinations ht hviews hpr, ← Bool.eq_iff_iff] at hD
  constructor
  · rw [Sides.facingDestinations, Sides.facingDestinations, hS]
    split
    · next hf =>
      have hi := (legacy_peerInSources ht hviews hpr).mp hf
      exact sameSet_side k (readable_destinations hviews hpr hi) (hd.1 hi)
    · exact SameSet.refl _
  · rw [Sides.facingSources, Sides.facingSources, hD]
    split
    · next hf =>
      have hi := (legacy_peerInDestinations ht hviews hpr).mp hf
      exact sameSet_side k (readable_sources k hviews hpr hrel hi) (hd.2 hi)
    · exact SameSet.refl _

end

section

variable {gu : UserMap}

/-- The peers the server's rule faces are the account's. -/
theorem legacy_getPeer_of_facing
    (hq : q ∈ (LegacyMap.sides a vp t pol rule).facing) : a.getPeer q.id = some q := by
  have hs : ∀ {res : Resource} {groups checks : List String},
      q ∈ (LegacyMap.side a vp t res groups checks).1 → a.getPeer q.id = some q := by
    intro res groups checks hq
    by_cases hr : res.IsPeer
    · have hp := ((LegacyMap.mem_side_direct hr).mp hq).2
      rw [id_of_getPeer hp]
      exact hp
    · exact ((LegacyMap.mem_side_groups hr).mp hq).2.1
  rcases mem_facing.mp hq with ⟨-, hq⟩ | ⟨-, hq⟩ <;> exact hs hq

variable (ht : a.getPeer t = some tp)

include ht

/-- The server's rules, as one fold over the active ones. -/
theorem legacy_connection_gen : legacyGen env a vp gu tp = (activeRules a.policies).foldl
      (fun s pr => generateRule env tp s pr.2 (LegacyMap.sides a vp t pr.1 pr.2)) {} := by
  rw [legacyGen, LegacyMap.getPeerConnectionResources, connectionResources,
    foldl_connectRule_gen, id_of_getPeer ht]

/-- The peers that policies connect the target to, for the account. -/
theorem mem_legacy_aclPeers : p ∈ (legacyGen env a vp gu tp).peers ↔
    ∃ pr ∈ activeRules a.policies, p ∈ (LegacyMap.sides a vp t pr.1 pr.2).facing := by
  rw [legacy_connection_gen ht, mem_foldl_generateRule_peers
    (U := fun p => a.getPeer p.id = some p) (fun p q hp hq h => eq_of_getPeer hp hq h)]
  · simp
  · intro pr _ q hq
    exact legacy_getPeer_of_facing hq
  · simp

variable (k : Knows a vp rp rr t c)

include k

/-- **Policies give the same peers and firewall rules.** -/
theorem same_connection (hviews : ViewsAgree a vp t env rp rr tp) :
    (legacyGen env a vp gu tp).Same (componentGen env c t) := by
  rw [connection_gen k ht, k.policies, foldl_generateRule_filter, legacy_connection_gen ht]
  refine foldl_generateRule_same (U := fun p => a.getPeer p.id = some p)
    (fun p q hp hq h => eq_of_getPeer hp hq h) _ _ _ (Gen.Same.refl _) ?_
    (fun pr _ q hq => legacy_getPeer_of_facing hq) (by simp)
  rintro ⟨pol, rule⟩ hpr
  refine ⟨rfl, rfl, ?_⟩
  cases hrel : policyRelevant a vp t pol with
  | true => exact agree_sides k ht hviews.toPolicyViews hpr hrel (hviews.direct _ hpr)
  | false => exact agree_irrelevant ht hviews.toPolicyViews hpr hrel

end

end Agreement

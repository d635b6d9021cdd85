import NetbirdHa.RouteAgreementProofs
import NetbirdHa.RemovalProofs

/-! # Posture checks exclude a source

A peer that fails the posture checks of a policy should get the map that it
would get if it were no source of the policy at all.  So it does, unless a rule
names it: a named source is not asked for its posture
(`map_without_failed_source`).

The two maps are compared through their components: both know the same peers
and the same failures of others, and read every side that faces the target
alike. -/

namespace Removal

open Table AccountModel GroupPeers FirewallRules Connection Routes LegacyMap Components Calculate
  List SameSet
open Agreement

/-- A listed "All" keeps a usable member apart from the target, or covers the groups
    listed with it. -/
def AllSurvivesWithout (a : Account) (vp : Validated) (t : String)
    (checks groups : List String) : Prop :=
  ∀ gid ∈ groups, ∀ g, a.getGroup gid = some g → g.isGroupAll →
    (∃ m ∈ g.peers, m ≠ t ∧ m ∈ getUniquePeerIDsFromGroupsIDs a.getGroup groups ∧
      Usable a vp checks m) ∨
    ∀ q, q ≠ t → InGroups a.getGroup groups q → q ∈ g.peers

/-- Groups named "All" do not make a difference: none that is listed together with a
    group of the target misses the target, and none of the sources of the policy
    loses its last member to the removal. -/
structure RemovalViews (a : Account) (vp : Validated) (rp : GoMap (List Policy))
    (rr : GoMap (GoMap NetworkRouter)) (t pid : String) : Prop where
  own : ∀ pr ∈ activeRules a.policies, policyRelevant a vp t pr.1 →
    (¬ pr.2.sourceResource.IsPeer → InGroups a.getGroup pr.2.sources t →
      AllHas a.getGroup pr.2.sources t) ∧
    (¬ pr.2.destinationResource.IsPeer → InGroups a.getGroup pr.2.destinations t →
      AllHas a.getGroup pr.2.destinations t)
  facing : ∀ pr ∈ activeRules a.policies, pr.1.id = pid → InDestinations a vp t pr.2 →
    ¬ pr.2.sourceResource.IsPeer → AllSurvivesWithout a vp t pr.1.sourcePostureChecks pr.2.sources
  client : ∀ res ∈ a.networkResources, res.enabled → isRouterOf rr t res = false →
    ∀ pol ∈ policiesIn rp res.id, ClientClear a t pol
  routed : ∀ res ∈ a.networkResources, res.enabled → isRouterOf rr t res →
    ∀ pol ∈ policiesIn rp res.id, pol.id = pid → ¬ (firstRule pol).sourceResource.IsPeer →
      AllSurvivesWithout a vp t pol.sourcePostureChecks (sourceGroups pol)

variable {a : Account} {tag t pid : String} {pol : Policy} {vp : Validated}
  {rp rp' : PolicyMap} {rr : Routers} {c c' : NetworkMapComponents} {h : Fresh a tag}

/-- If no listed "All" misses the target, none does without the source. -/
theorem allHas_removed (hl : ∀ gid ∈ groups, gid.length < tag.length)
    (ha : InGroups a.getGroup groups t → AllHas a.getGroup groups t)
    (hin : InGroups (h.without t pid).getGroup (groups.map (sourceID tag pid pol)) t) :
    AllHas (h.without t pid).getGroup (groups.map (sourceID tag pid pol)) t := by
  rw [inGroups_map, inGroups_copies (copies_sources pol hl)] at hin
  obtain ⟨hin, hs⟩ := hin
  intro gid' hgi' g' hg' hi
  obtain ⟨gid, hgi, rfl⟩ := mem_map.mp hgi'
  obtain ⟨hc, hn⟩ := copies_sources (h := h) pol hl gid hgi
  cases hg : a.getGroup gid with
  | none => cases (hn hg).symm.trans hg'
  | some g =>
    obtain ⟨g₁, hg₁, hsa, hp⟩ := hc g hg
    cases hg'.symm.trans hg₁
    exact (hp t).mpr ⟨ha hin gid hgi g hg (hsa ▸ hi), hs⟩

section

variable (hex : Excluded a t pid) (hrp : SamePolicies a tag t pid rp rp') (k : Knows a vp rp rr t c)
  (k' : Knows (h.without t pid) vp rp' rr t c') {pol : Policy} {groups : List String} {q : String}

include hex hrp k k'

/-- The components know the same peers. -/
theorem getPeerInfo_removed : getPeerInfo c' q = getPeerInfo c q := by
  refine Option.ext fun p => ?_
  rw [getPeerInfo_eq_some k, getPeerInfo_eq_some k', known_removed hex hrp]
  exact Iff.rfl

/-- The components give the same answer on the posture of others. -/
theorem validate_removed (hq : q ≠ t) (hp : (a.getPeer q).isSome)
    (hr : ∀ check ∈ checks, check ∈ referencedChecks c.policies c.resourcePoliciesMap)
    (hr' : ∀ check ∈ checks, check ∈ referencedChecks c'.policies c'.resourcePoliciesMap) :
    validatePostureChecksOnPeer c' checks q ↔ validatePostureChecksOnPeer c checks q := by
  rw [validate_iff_failure k hr, validate_iff_failure k' hr', known_removed hex hrp]
  refine and_congr_right fun _ => forall_congr' fun check => forall_congr' fun _ => not_congr ?_
  exact failure_removed hex hrp hq hp

/-- Where both know the groups, those without the source are cut down once more. -/
theorem restricts_removed (hl : ∀ gid ∈ groups, gid.length < tag.length)
    (hgr : ∀ gid ∈ groups, (a.getGroup gid).isSome → KnownGroup a vp rp rr t gid)
    (hgr' : ∀ gid ∈ groups, (a.getGroup gid).isSome →
      KnownGroup (h.without t pid) vp rp' rr t (sourceID tag pid pol gid)) :
    Restricts (Stays t pid pol) (getGroupInfo c)
      (fun gid => getGroupInfo c' (sourceID tag pid pol gid)) groups := by
  intro gid hgi
  obtain ⟨hc, hn⟩ := @copies_sources a tag t pid h groups pol hl gid hgi
  -- a group known without the source has a member, which the components know with it
  have hm : ∀ g', getGroupInfo c' (sourceID tag pid pol gid) = some g' →
      ∃ x gc, getGroupInfo c gid = some gc ∧ x ∈ gc.peers ∧ Stays t pid pol x := by
    intro g' hg'
    obtain ⟨-, g₁, hg₁, hne, rfl⟩ := (k'.groups _ g').mp hg'
    obtain ⟨x, hx⟩ := exists_mem_of_ne_nil _ hne
    obtain ⟨hx₁, hk⟩ := (mem_cutGroup k').mp hx
    cases hg : a.getGroup gid with
    | none => cases (hn hg).symm.trans hg₁
    | some g =>
      obtain ⟨g₂, hg₂, -, hp⟩ := hc g hg
      cases hg₁.symm.trans hg₂
      obtain ⟨hx, hs⟩ := (hp x).mp hx₁
      obtain ⟨gc, hgc, hxc⟩ := (mem_groupInfo k).mpr ⟨hgr gid hgi (by simp [hg]), ⟨g, hg, hx⟩,
        (known_removed hex hrp).mp hk⟩
      exact ⟨x, gc, hgc, hxc, hs⟩
  refine ⟨?_, ?_, ?_⟩
  · rintro gc hgc ⟨x, hx, hs⟩
    obtain ⟨-, g, hg, -, rfl⟩ := (k.groups gid gc).mp hgc
    obtain ⟨g₁, hg₁, ha, hp⟩ := hc g hg
    have hi : ∀ y, y ∈ (cutGroup c'.peers g₁).peers ↔
        y ∈ (cutGroup c.peers g).peers ∧ Stays t pid pol y := by
      intro y
      rw [mem_cutGroup k', mem_cutGroup k, hp, known_removed hex hrp]
      tauto
    refine ⟨cutGroup c'.peers g₁, (k'.groups _ _).mpr ⟨hgr' gid hgi (by simp [hg]), g₁, hg₁,
      ne_nil_of_mem ((hi x).mpr ⟨hx, hs⟩), rfl⟩, ha, hi⟩
  · intro gc hgc hno
    refine Option.eq_none_iff_forall_ne_some.mpr fun g' hg' => ?_
    obtain ⟨x, gc', hgc', hx, hs⟩ := hm g' hg'
    cases hgc.symm.trans hgc'
    exact hno ⟨x, hx, hs⟩
  · intro hgc
    refine Option.eq_none_iff_forall_ne_some.mpr fun g' hg' => ?_
    obtain ⟨x, gc, hgc', -⟩ := hm g' hg'
    cases hgc.symm.trans hgc'

variable (pol) in
/-- The walk over the source groups of a policy finds the same peers, those apart
    that are removed. -/
theorem mem_unique_removed (checks : List String) (hl : ∀ gid ∈ groups, gid.length < tag.length)
    (hgr : ∀ gid ∈ groups, (a.getGroup gid).isSome → KnownGroup a vp rp rr t gid)
    (hgr' : ∀ gid ∈ groups, (a.getGroup gid).isSome →
      KnownGroup (h.without t pid) vp rp' rr t (sourceID tag pid pol gid))
    (ha : pol.id = pid → AllSurvivesWithout a vp t checks groups)
    (hus : ∀ m ∈ getUniquePeerIDsFromGroupsIDs a.getGroup groups, Usable a vp checks m →
      Known a vp rp rr t m) :
    q ∈ getUniquePeerIDsFromGroupsIDs (getGroupInfo c') (groups.map (sourceID tag pid pol)) ↔
      q ∈ getUniquePeerIDsFromGroupsIDs (getGroupInfo c) groups ∧ Stays t pid pol q := by
  rw [getUniquePeerIDsFromGroupsIDs, uniqueLoop_map, length_map]
  refine mem_unique_restricts (restricts_removed hex hrp k k' hl hgr hgr') ?_
  intro gid hgi gc hgc hi
  obtain ⟨-, g, hg, hn, rfl⟩ := (k.groups gid gc).mp hgc
  by_cases hp : pol.id = pid
  · rcases ha hp gid hgi g hg hi with ⟨m, hm, hmt, hme, hu⟩ | hc
    · exact .inl ⟨m, (mem_cutGroup k).mpr ⟨hm, hus m hme hu⟩, fun _ => hmt⟩
    refine .inr fun x hs hx => ?_
    obtain ⟨gid', hgi', hg'⟩ := hx
    obtain ⟨-, hg', hk⟩ := (mem_groupInfo k).mp hg'
    exact (mem_cutGroup k).mpr ⟨hc x (hs hp) ⟨gid', hgi', hg'⟩, hk⟩
  · obtain ⟨m, hm⟩ := exists_mem_of_ne_nil _ hn
    exact .inl ⟨m, hm, fun hid => absurd hid hp⟩

end

/-! ## One rule -/

section

variable (hex : Excluded a t pid) (hrp : SamePolicies a tag t pid rp rp')
  (hviews : RemovalViews a vp rp rr t pid) (k : Knows a vp rp rr t c)
  (k' : Knows (h.without t pid) vp rp' rr t c') {pr : Policy × PolicyRule}
  (hpr : pr ∈ activeRules a.policies) (hrel : policyRelevant a vp t pr.1)

/-- The rule as the account without the source has it. -/
abbrev removedPair (tag t pid : String) (pr : Policy × PolicyRule) : Policy × PolicyRule :=
  (removeFromPolicy tag t pid pr.1, removedRule tag t pid pr.1 pr.2)

/-- The sides of that rule. -/
abbrev removedSides (tag pid : String) (c' : NetworkMapComponents) (t : String)
    (pr : Policy × PolicyRule) : Sides :=
  Calculate.sides c' t (removedPair tag t pid pr).1 (removedPair tag t pid pr).2

include hpr

/-- A changed rule is active where the old one was. -/
theorem removedPair_active : removedPair tag t pid pr ∈ activeRules (h.without t pid).policies :=
  mem_active_removed.mpr ⟨pr, hpr, rfl⟩

include hex hviews k hrel

omit hex in
/-- The target is found in the sources, in the account's terms. -/
theorem sources_found :
    (Calculate.sides c t pr.1 pr.2).peerInSources ↔ InSources a vp t pr.1 pr.2 := by
  obtain ⟨tp, ht⟩ := k.target
  exact components_found_iff k (hviews.own pr hpr hrel).1 (fun hr hm =>
    posture_sources k hpr hrel hr t hm tp ht k.isValidated)

omit hex in
/-- The target is found in the destinations, in the account's terms. -/
theorem destinations_found :
    (Calculate.sides c t pr.1 pr.2).peerInDestinations ↔ InDestinations a vp t pr.2 := by
  obtain ⟨tp, ht⟩ := k.target
  exact components_found_iff k (hviews.own pr hpr hrel).2 fun _ _ _ => checksOnPeer_nil ht

omit k in
include k' in
/-- The changed rule finds the target in its sources where the old one did. -/
theorem sources_found_removed :
    (removedSides tag pid c' t pr).peerInSources = true ↔ InSources a vp t pr.1 pr.2 := by
  obtain ⟨tp, ht⟩ := k'.target
  obtain ⟨hp, -, hr, -⟩ := mem_activeRules.mp hpr
  rw [← inSources_removed (h := h) hex hpr]
  refine components_found_iff k' (fun hre hi => ?_) (fun hre hm =>
    posture_sources k' (removedPair_active hpr)
      ((policyRelevant_removed hex hp).trans hrel) hre t hm tp ht k'.isValidated)
  rw [removedRule_sourceResource (hex.direct pr hpr)] at hre
  simp only [removedRule_sources] at hi ⊢
  exact allHas_removed (length_sides h hp hr).1 ((hviews.own pr hpr hrel).1 hre) hi

omit hex k in
include k' in
/-- The changed rule finds the target in its destinations where the old one did. -/
theorem destinations_found_removed :
    (removedSides tag pid c' t pr).peerInDestinations = true ↔ InDestinations a vp t pr.2 := by
  obtain ⟨tp, ht⟩ := k'.target
  obtain ⟨hp, -, hr, -⟩ := mem_activeRules.mp hpr
  rw [← inDestinations_removed (h := h) hpr]
  refine components_found_iff k' (fun hre hin => ?_) fun _ _ _ => checksOnPeer_nil ht
  rw [removedRule_destinationResource] at hre
  rw [removedRule_destinations] at hin ⊢
  have hl := (length_sides h hp hr).2
  rw [inGroups_copies (copies_old hl)] at hin
  intro gid hgi g hg hi
  rw [getGroup_old (hl gid hgi)] at hg
  exact (hviews.own pr hpr hrel).2 hre hin.1 gid hgi g hg hi

omit hviews k hrel in
/-- The policy that loses the peer did not have it as a source. -/
theorem id_ne_of_inSources (hi : InSources a vp t pr.1 pr.2) : pr.1.id ≠ pid := by
  intro hp
  rw [InSources, Stands] at hi
  split at hi
  · next hr => exact hex.direct pr hpr hp ⟨hr, hi⟩
  · cases (hex.fails pr.1 (mem_activeRules.mp hpr).1 hp).symm.trans hi.2.2

omit hviews hrel in
include hrp k' in
/-- The peers the target faces as a source are the same. -/
theorem destinationPeers_removed (hi : InSources a vp t pr.1 pr.2) :
    SameSet (Calculate.sides c t pr.1 pr.2).destinationPeers
      (removedSides tag pid c' t pr).destinationPeers := by
  obtain ⟨hpo, -, hr, -⟩ := mem_activeRules.mp hpr
  have hid : sourceID tag pid pr.1 = id := by
    funext gid
    exact if_neg (id_ne_of_inSources hex hpr hi)
  intro p
  simp only [Calculate.sides, removedRule_destinations, removedRule_destinationResource]
  by_cases hre : pr.2.destinationResource.IsPeer
  · rw [Calculate.mem_side_direct hre, Calculate.mem_side_direct hre,
      getPeerInfo_removed hex hrp k k']
  have hun := mem_unique_removed (q := p.id) hex hrp k k' pr.1 []
    (length_sides h hpo hr).2
    (fun gid hg _ => .inl (.inr (.inr ⟨pr, hpr, .inr (.inl ⟨hi, hg⟩)⟩)))
    (fun gid hg _ => .inl (.inr (.inr ⟨_, removedPair_active hpr, .inr (.inl
      ⟨(inSources_removed hex hpr).mpr hi, by rw [removedRule_destinations, hid]; exact hg⟩)⟩)))
    (fun hp => absurd hp (id_ne_of_inSources hex hpr hi))
    (fun _ => known_of_usable hre fun ho => ⟨pr, hpr, .inl ⟨hi, ho⟩⟩)
  rw [hid, map_id] at hun
  rw [Calculate.mem_side_groups k hre, Calculate.mem_side_groups k' hre, hun,
    validate_nil k, validate_nil k', known_removed hex hrp]
  constructor
  · rintro ⟨hq, hge, hk, hn⟩
    exact ⟨⟨hq, fun _ => hn⟩, hge, hk, hn⟩
  · rintro ⟨⟨hq, -⟩, hge, hk, hn⟩
    exact ⟨hq, hge, hk, hn⟩

include hrp k' in
/-- The peers the target faces as a destination are the same. -/
theorem sourcePeers_removed (hi : InDestinations a vp t pr.2) :
    SameSet (Calculate.sides c t pr.1 pr.2).sourcePeers
      (removedSides tag pid c' t pr).sourcePeers := by
  obtain ⟨hpo, -, hr, -⟩ := mem_activeRules.mp hpr
  have hk : pr.1 ∈ c.policies := by
    rw [k.policies]
    exact mem_filter.mpr ⟨hpo, hrel⟩
  have hk' : removeFromPolicy tag t pid pr.1 ∈ c'.policies := by
    rw [k'.policies]
    exact mem_filter.mpr ⟨mem_map_of_mem hpo, (policyRelevant_removed hex hpo).trans hrel⟩
  have hrf := referenced_of_policies hk
  have hr' := referenced_of_policies hk'
  rw [removeFromPolicy_checks] at hr'
  intro p
  simp only [Calculate.sides, removedRule_sources, removeFromPolicy_checks,
    removedRule_sourceResource (hex.direct pr hpr)]
  by_cases hre : pr.2.sourceResource.IsPeer
  · rw [Calculate.mem_side_direct hre, Calculate.mem_side_direct hre,
      getPeerInfo_removed hex hrp k k']
  have hun := mem_unique_removed (q := p.id) hex hrp k k' pr.1 pr.1.sourcePostureChecks
    (length_sides h hpo hr).1
    (fun gid hgi _ => .inl (.inr (.inr ⟨pr, hpr, .inr (.inr ⟨hi, hgi⟩)⟩)))
    (fun gid hgi _ => .inl (.inr (.inr ⟨_, removedPair_active hpr, .inr (.inr
      ⟨(inDestinations_removed hpr).mpr hi, by
        rw [removedRule_sources]; exact mem_map_of_mem hgi⟩)⟩)))
    (hviews.facing pr hpr · hi hre)
    (fun _ => known_of_usable hre fun ho => ⟨pr, hpr, .inr ⟨hi, ho⟩⟩)
  rw [Calculate.mem_side_groups k hre, Calculate.mem_side_groups k' hre, hun]
  constructor
  · rintro ⟨hq, hg, hv, hn⟩
    exact ⟨⟨hq, fun _ => hn⟩, hg,
      (validate_removed hex hrp k k' hn (by simp [hg]) hrf hr').mpr hv, hn⟩
  · rintro ⟨⟨hq, -⟩, hg, hv, hn⟩
    have hg' : a.getPeer p.id = some p := hg
    exact ⟨hq, hg, (validate_removed hex hrp k k' hn (by simp [hg']) hrf hr').mp hv, hn⟩

include hrp k' in
/-- The rule is read alike. -/
theorem agree_removed : (Calculate.sides c t pr.1 pr.2).Agree (removedSides tag pid c' t pr) := by
  have hS := sources_found_removed hex hviews k' hpr hrel
  have hD := destinations_found_removed hviews k' hpr hrel
  rw [← sources_found hviews k hpr hrel, ← Bool.eq_iff_iff] at hS
  rw [← destinations_found hviews k hpr hrel, ← Bool.eq_iff_iff] at hD
  constructor
  · rw [Sides.facingDestinations, Sides.facingDestinations, hS]
    split
    · next hf =>
      exact destinationPeers_removed hex hrp k k' hpr ((sources_found hviews k hpr hrel).mp hf)
    · exact refl _
  · rw [Sides.facingSources, Sides.facingSources, hD]
    split
    · next hf =>
      exact sourcePeers_removed hex hrp hviews k k' hpr hrel
        ((destinations_found hviews k hpr hrel).mp hf)
    · exact refl _

end

/-! ## Policies and resources -/

section

variable {env : Env} {res : NetworkResource} {q : String} {p : Peer}
  (hex : Excluded a t pid) (hrp : SamePolicies a tag t pid rp rp')
  (hviews : RemovalViews a vp rp rr t pid) (k : Knows a vp rp rr t c)
  (k' : Knows (h.without t pid) vp rp' rr t c')

include hex hrp hviews k k'

/-- Policies give the same peers and firewall rules. -/
theorem same_connection_removed : (componentGen env c t).Same (componentGen env c' t) := by
  obtain ⟨tp, ht⟩ := k.target
  have ht' : (h.without t pid).getPeer t = some tp := ht
  rw [connection_gen k ht, connection_gen k' ht', k.policies, k'.policies,
    foldl_generateRule_filter, foldl_generateRule_filter, Fresh.without, withoutSource,
    activeRules_removed, foldl_map]
  refine foldl_generateRule_same (U := fun p => a.getPeer p.id = some p)
    (fun p q hp hq h => eq_of_getPeer hp hq h) _ _ _ (Gen.Same.refl _) ?_ ?_ (by simp)
  · intro pr hpr
    refine ⟨by rw [removedRule]; split <;> rfl, removedRule_bidirectional.symm, ?_⟩
    have hr : policyRelevant (h.without t pid) vp t
        (removeFromPolicy tag t pid pr.1) = policyRelevant a vp t pr.1 :=
      policyRelevant_removed hex (mem_activeRules.mp hpr).1
    rw [Fresh.without, withoutSource] at hr
    rw [hr]
    split
    · next hrel => exact agree_removed hex hrp hviews k k' hpr hrel
    · exact ⟨refl _, refl _⟩
  · intro pr _ q hq
    split at hq
    · exact (known_of_mem_facing k hq).2.1
    · cases hq

omit hviews in
theorem resources_removed : c'.networkResources = c.networkResources := by
  rw [k.resources, k'.resources]
  refine filter_congr fun res _ => ?_
  exact keepsResource_removed hex hrp

omit hex hviews k k' in
/-- A resource's policies are the old ones, changed. -/
theorem policiesIn_removed :
    policiesIn rp' res.id = (policiesIn rp res.id).map (removeFromPolicy tag t pid) := by
  rw [policiesIn, policiesIn, hrp.lookup]
  cases rp.lookup res.id <;> rfl

omit hex hviews k k' in
theorem mem_policies_of_mem (hp : pol ∈ policiesIn rp res.id) : pol ∈ a.policies := by
  obtain ⟨policies, hl, hm⟩ := mem_policiesIn.mp hp
  exact hrp.own _ _ hl pol hm

omit hviews k k' in
/-- The account has the target as a client of the same resources. -/
theorem legacyClient_removed (ht : (a.getPeer t).isSome) :
    LegacyClient (h.without t pid) rp' rr t res ↔ LegacyClient a rp rr t res := by
  refine and_congr_right fun _ => ?_
  rw [policiesIn_removed hrp, validatePosture_removed]
  simp only [mem_map, exists_exists_and_eq_and, removeFromPolicy_checks]
  refine exists_congr fun pol => and_congr_right fun hp => and_congr_left fun hv => ?_
  have hp' := mem_policies_of_mem hrp hp
  rw [← accountSources, mem_accountSources_removed hp' ht]
  refine and_iff_left fun hi => ?_
  cases (hex.fails pol hp' hi).symm.trans hv

/-- The target is a client of the same resources. -/
theorem componentClient_removed (hr : res ∈ c.networkResources) :
    ComponentClient c' t res ↔ ComponentClient c t res := by
  obtain ⟨tp, ht⟩ := k.target
  have hs : (a.getPeer t).isSome := by simp [ht]
  obtain ⟨hm, he, -⟩ := (mem_networkResources k).mp hr
  have hr' : res ∈ c'.networkResources := by
    rw [resources_removed hex hrp k k']
    exact hr
  constructor
  · intro hc
    have hn := hc.1
    rw [routingPeers_components k' hr'] at hn
    have hl := legacyClient_of_component k' hr' (fun pol' hp' => ?_) hc
    · exact (componentClient_of_legacy k hm he ((legacyClient_removed hex hrp hs).mp hl)).2
    · rw [policiesIn_removed hrp] at hp'
      obtain ⟨pol, hp, rfl⟩ := mem_map.mp hp'
      have hcl := hviews.client res hm he (lookup_eq_none_iff.mp hn) pol hp
      intro hd hi
      rw [firstRule_removed, isPeer_removedRule] at hd
      rw [sourceGroups_removed] at hi ⊢
      exact allHas_removed (length_sourceGroups h (mem_policies_of_mem hrp hp)) (hcl hd) hi
  · intro hc
    have hn := hc.1
    rw [routingPeers_components k hr] at hn
    have hl := legacyClient_of_component k hr (fun pol hp =>
      hviews.client res hm he (lookup_eq_none_iff.mp hn) pol hp) hc
    exact (componentClient_of_legacy k' hm he ((legacyClient_removed hex hrp hs).mpr hl)).2

/-- The same routers are added … -/
theorem componentRouter_removed : ComponentRouter rr t q c' ↔ ComponentRouter rr t q c := by
  grind [ComponentRouter, resources_removed, componentClient_removed]

/-- … and the same sources. -/
theorem componentSource_removed (hq : q ≠ t) (hp : a.getPeer q = some p) :
    ComponentSource rr t q c' ↔ ComponentSource rr t q c := by
  have hs : (a.getPeer q).isSome := by simp [hp]
  rw [ComponentSource, resources_removed hex hrp k k']
  refine exists_congr fun res => and_congr_right fun hre => and_congr_right fun hr => ?_
  obtain ⟨hme, hen, hk⟩ := (mem_networkResources k).mp hre
  obtain ⟨policies, hl, -⟩ := keepsResource_eq_true.mp hk
  have hl' : rp'.lookup res.id = some (policies.map (removeFromPolicy tag t pid)) := by
    rw [hrp.lookup, hl]
    rfl
  have hpo : policiesIn rp res.id = policies := by rw [policiesIn, hl]; rfl
  have he : res ∈ a.networkResources.filter (·.enabled) := mem_filter.mpr ⟨hme, hen⟩
  have hr' : res ∈ c'.networkResources := by
    rw [resources_removed hex hrp k k']
    exact hre
  have ho : policiesOf c' res.id = policies.map (removeFromPolicy tag t pid) := by
    rw [policiesOf_components k' hr', policiesIn_removed hrp, hpo]
  have ho' : policiesOf c res.id = policies := (policiesOf_components k hre).trans hpo
  rw [ho, ho']
  simp only [mem_map, exists_exists_and_eq_and, removeFromPolicy_checks]
  refine exists_congr fun pol => and_congr_right fun hpl => ?_
  have hp' : pol ∈ a.policies := hrp.own _ _ hl pol hpl
  have hk' : removeFromPolicy tag t pid pol ∈ policiesOf c' res.id := ho ▸ mem_map_of_mem hpl
  have hso : q ∈ policySourcePeers (getUniquePeerIDsFromGroupsIDs (getGroupInfo c'))
        (removeFromPolicy tag t pid pol) ↔
      q ∈ policySourcePeers (getUniquePeerIDsFromGroupsIDs (getGroupInfo c)) pol := by
    rw [mem_policySourcePeers_removed h hs (fun hd =>
      mem_unique_removed hex hrp k k' pol pol.sourcePostureChecks (length_sourceGroups h hp')
        (fun gid hgi hg => .inr ⟨res, he, policies, hl, pol, by
          rw [keptPolicies, if_pos hr]; exact hpl, sourceGroups_subset hgi, hg⟩)
        (fun gid hgi hg => .inr ⟨res, he, _, hl', _, by
          rw [keptPolicies, if_pos hr]; exact mem_map_of_mem hpl,
          sourceGroups_subset (by rw [sourceGroups_removed]; exact mem_map_of_mem hgi), by
            obtain ⟨g, hg⟩ := Option.isSome_iff_exists.mp hg
            obtain ⟨g', hg', -⟩ := (copies_sources (h := h) pol (length_sourceGroups h hp')
              gid hgi).1 g hg
            exact Option.isSome_iff_exists.mpr ⟨g', hg'⟩⟩)
        (fun hi => hviews.routed res hme hen hr pol (hpo.symm ▸ hpl) hi hd)
        (fun m hm hu => .inr (.inr ⟨res, he, policies, hl, .inr ⟨pol, by
          rw [openedPolicies, if_pos hr]; exact hpl,
          mem_policySourcePeers.mpr (.inr ⟨hd, hm⟩), hu⟩⟩)))]
    exact and_iff_left fun _ => hq
  rw [hso]
  refine and_congr_right fun _ => validate_removed hex hrp k k' hq hs
    (fun check hc => referenced_of_policiesOf (ho' ▸ hpl) hc)
    (fun check hc => referenced_of_policiesOf hk' ?_)
  rw [removeFromPolicy_checks]
  exact hc

/-- The same peers, online and offline, and the same firewall rules. -/
theorem same_map_removed : SameSet (calculate env c).peers (calculate env c').peers ∧
    SameSet (calculate env c).offlinePeers (calculate env c').offlinePeers ∧
    SameSet (calculate env c).firewallRules (calculate env c').firewallRules := by
  have hs : (componentGen env c t).Same (componentGen env c' t) :=
    same_connection_removed hex hrp hviews k k'
  have hse : c'.settings = c.settings := k'.settings.trans k.settings.symm
  simp only [calculate, k.peerID, k'.peerID, hse]
  refine ⟨fun p => ?_, hs.peers.filter _, hs.rules⟩
  rw [mem_addNetworksRoutingPeers, mem_addNetworksRoutingPeers]
  refine or_congr (hs.peers.filter _ p) (exists_congr fun q => ?_)
  have ho : (∀ x ∈ (componentGen env c t).peers.filter (!c.settings.peerExpired env ·) ++
        (componentGen env c t).peers.filter (c.settings.peerExpired env ·), x.id ≠ q) ↔
      ∀ x ∈ (componentGen env c' t).peers.filter (!c.settings.peerExpired env ·) ++
        (componentGen env c' t).peers.filter (c.settings.peerExpired env ·), x.id ≠ q :=
    forall_congr' fun x => by rw [(hs.peers.filter _).append (hs.peers.filter _) x]
  rw [ho, componentAdded_iff k, componentAdded_iff k']
  refine and_congr_left fun hq => ?_
  rw [componentSource_removed hex hrp hviews k k' hq.1 hq.2.2,
    componentRouter_removed hex hrp hviews k k', getPeerInfo_removed hex hrp k k']

omit hrp hviews k' in
/-- The groups that the components without the source ask for exist. -/
theorem groupsExist_removed (hgi : KnownGroup (h.without t pid) vp rp' rr t gid) :
    ∃ g, (h.without t pid).getGroup gid = some g := by
  have hold : ∀ {gid : String}, gid.length < tag.length → RelevantGroup a vp t gid →
      ∃ g, (h.without t pid).getGroup gid = some g := by
    intro gid hle hrel
    rw [getGroup_old hle]
    exact k.groupsExist gid (.inl hrel)
  rcases hgi with (hgi | ⟨r, hr, hgi⟩ | ⟨pr', hp', hgi⟩) | ⟨res, -, policies, -, pol, -, -, hso⟩
  · obtain ⟨g, hg, -⟩ := Account.mem_getPeerGroups.mp hgi
    exact ⟨g, hg⟩
  · refine hold (h gid ?_) (.inr (.inl ⟨r, hr, hgi⟩))
    simp only [usedIDs, mem_append]
    refine .inl (.inr (mem_flatMap.mpr ⟨r, hr, ?_⟩))
    grind [routeGroupIDs]
  · obtain ⟨pr, hpr, rfl⟩ := mem_active_removed.mp hp'
    obtain ⟨hp, -, hru, -⟩ := mem_activeRules.mp hpr
    have hs : ∀ {gid : String}, (∀ gid₀ ∈ pr.2.sources, RelevantGroup a vp t gid₀) →
        gid ∈ (removedRule tag t pid pr.1 pr.2).sources →
          ∃ g, (h.without t pid).getGroup gid = some g := by
      intro gid hrel hgi
      rw [removedRule_sources] at hgi
      obtain ⟨gid₀, hg₀, rfl⟩ := mem_map.mp hgi
      obtain ⟨g, hg⟩ := k.groupsExist gid₀ (.inl (hrel gid₀ hg₀))
      obtain ⟨g', hg', -⟩ := (copies_sources (h := h) pr.1 (length_sides h hp hru).1
        gid₀ hg₀).1 g hg
      exact ⟨g', hg'⟩
    have hd : ∀ {gid : String}, gid ∈ pr.2.destinations → RelevantGroup a vp t gid →
        ∃ g, (h.without t pid).getGroup gid = some g :=
      fun hgi => hold ((length_sides h hp hru).2 _ hgi)
    simp only [listsAccessGroup_removed, removedRule_destinations, inSources_removed hex hpr,
      inDestinations_removed hpr] at hgi
    rcases hgi with ⟨hl, hgi | hgi⟩ | ⟨hi, hgi⟩ | ⟨hi, hgi⟩
    · exact hs (fun gid₀ h₀ => .inr (.inr ⟨pr, hpr, .inl ⟨hl, .inl h₀⟩⟩)) hgi
    · exact hd hgi (.inr (.inr ⟨pr, hpr, .inl ⟨hl, .inr hgi⟩⟩))
    · exact hd hgi (.inr (.inr ⟨pr, hpr, .inr (.inl ⟨hi, hgi⟩)⟩))
    · exact hs (fun gid₀ h₀ => .inr (.inr ⟨pr, hpr, .inr (.inr ⟨hi, h₀⟩)⟩)) hgi
  · exact Option.isSome_iff_exists.mp hso

end

/-! ## The policies and routers of resources -/

section

variable {a : Account} {tag t pid : String} {h : Fresh a tag}

/-- A changed rule reaches the same resources. -/
theorem reachesByGroup_removed (hp : pol ∈ a.policies) (hr : rule ∈ pol.rules) :
    reachesByGroup (h.without t pid) rid (removedRule tag t pid pol rule) =
      reachesByGroup a rid rule := by
  rw [reachesByGroup, reachesByGroup, removedRule_destinations, getNetworkResourceGroups,
    getNetworkResourceGroups, Fresh.without, withoutSource]
  simp only [filter_append, any_append]
  -- no rule has a copy among its destinations
  have hn : ((a.groups.entries.map (copyGroup tag t)).filter
      (fun g => g.resources.any (·.id = rid))).any (·.id ∈ rule.destinations) = false := by
    rw [any_eq_false]
    intro g hg hm
    obtain ⟨g', -, rfl⟩ := mem_map.mp (mem_filter.mp hg).1
    exact ne_tagged ((length_sides h hp hr).2 _ (of_decide_eq_true hm)) g'.id rfl
  rw [hn, Bool.or_false]

/-- A policy is listed as often as before. -/
theorem timesListed_removed (hp : pol ∈ a.policies) : ∀ rules, (∀ rule ∈ rules, rule ∈ pol.rules) →
    timesListed (h.without t pid) rid (rules.map (removedRule tag t pid pol)) =
      timesListed a rid rules := by
  intro rules
  induction rules with
  | nil => intro _; rfl
  | cons rule rules ih =>
    intro hru
    have ih := ih fun r hr => hru r (mem_cons_of_mem _ hr)
    rw [map_cons, timesListed, timesListed, ih, removedRule_enabled,
      removedRule_destinationResource, reachesByGroup_removed hp (hru rule mem_cons_self)]

/-- The policies of a resource, changed one by one. -/
theorem policiesForResource_removed (rid : String) :
    getPoliciesForNetworkResource (h.without t pid) rid =
      (getPoliciesForNetworkResource a rid).map (removeFromPolicy tag t pid) := by
  have hc : (fun pol : Policy => pol.enabled) ∘ removeFromPolicy tag t pid =
      fun pol => pol.enabled := by
    funext pol
    exact removeFromPolicy_enabled
  rw [getPoliciesForNetworkResource, getPoliciesForNetworkResource, map_flatMap]
  have hf : (h.without t pid).policies.filter (·.enabled) =
      (a.policies.filter (·.enabled)).map (removeFromPolicy tag t pid) := by
    rw [Fresh.without, withoutSource, filter_map, hc]
  rw [hf, flatMap_map]
  refine flatMap_congr fun pol hp => ?_
  have hp' := (mem_filter.mp hp).1
  rw [map_replicate, removeFromPolicy_rules, timesListed_removed hp' _ (fun _ hr => hr)]

/-- Both accounts have corresponding policies for every resource. -/
theorem samePolicies_removed : SamePolicies a tag t pid (getResourcePoliciesMap a)
    (getResourcePoliciesMap (h.without t pid)) where
  lookup := by
    intro id
    rw [getResourcePoliciesMap, getResourcePoliciesMap, lookup_insertAll, lookup_insertAll]
    have hk : (h.without t pid).networkResources = a.networkResources := rfl
    rw [hk, policiesForResource_removed]
    split <;> rfl
  own := by
    intro id policies hl pol hp
    rw [getResourcePoliciesMap, lookup_insertAll] at hl
    split at hl
    · cases hl
      obtain ⟨pol', hp', hr⟩ := mem_flatMap.mp hp
      rw [eq_of_mem_replicate hr]
      exact (mem_filter.mp hp').1
    · cases hl

theorem routers_removed : getResourceRoutersMap (h.without t pid) = getResourceRoutersMap a := by
  have hg : ∀ router ∈ a.networkRouters,
      routerPeerIDs (h.without t pid) router = routerPeerIDs a router := by
    intro router hr
    rw [routerPeerIDs, routerPeerIDs, groupMembers]
    congr 1
    refine flatMap_congr fun gid hgi => ?_
    rw [getGroup_old (h gid ?_)]
    simp only [usedIDs, mem_append]
    exact .inr (mem_flatMap.mpr ⟨router, hr, hgi⟩)
  refine foldl_ext _ _ _ fun m router hr => ?_
  rw [addRouter, addRouter, hg router (mem_filter.mp hr).1]

/-- **A peer that fails the posture checks of a policy gets the map that it would get if it were no
    source of the policy**, unless an active rule of the policy names it as the source. -/
theorem map_without_failed_source {env : Env} {vp : Validated}
    {gu : GoMap (List String)} {nm : NetworkMap} (hfails : ∀ pol ∈ a.policies, pol.id = pid →
      a.validatePostureChecksOnPeer pol.sourcePostureChecks t = false)
    (hdirect : ∀ pr ∈ activeRules a.policies, pr.1.id = pid →
      ¬ (pr.2.sourceResource.IsPeer ∧ pr.2.sourceResource.id = t))
    (hviews : RemovalViews a vp (getResourcePoliciesMap a) (getResourceRoutersMap a) t pid)
    (hnm : getPeerNetworkMapFromComponents env a t vp (getResourcePoliciesMap a)
      (getResourceRoutersMap a) gu = .ok nm) :
    ∃ nm', getPeerNetworkMapFromComponents env (withoutSource a tag t pid h) t vp
        (getResourcePoliciesMap (withoutSource a tag t pid h))
        (getResourceRoutersMap (withoutSource a tag t pid h)) gu = .ok nm' ∧
      SameSet nm.peers nm'.peers ∧ SameSet nm.offlinePeers nm'.offlinePeers ∧
      SameSet nm.firewallRules nm'.firewallRules := by
  rw [routers_removed]
  rcases map_cases hnm with ⟨ha, rfl⟩ | ⟨c, -, k, rfl⟩
  · have ha' : ¬ (t ∈ vp ∧ ((h.without t pid).getPeer t).isSome) := ha
    refine ⟨{ network := a.network }, ?_, refl _, refl _, refl _⟩
    rw [getPeerNetworkMapFromComponents, components_none ha']
    rfl
  · have hex : Excluded a t pid := ⟨hfails, hdirect⟩
    obtain ⟨tp, ht⟩ := k.target
    have ht' : (h.without t pid).getPeer t = some tp := ht
    obtain ⟨c', hc'⟩ : ∃ c', getPeerNetworkMapComponents (h.without t pid) t vp
        (getResourcePoliciesMap (h.without t pid)) (getResourceRoutersMap a)
        gu = .ok (some c') :=
      components_isOk ht' k.isValidated fun gid hg => groupsExist_removed hex k hg
    refine ⟨calculate env c', ?_,
      same_map_removed hex samePolicies_removed hviews k (knows_of_ok hc')⟩
    rw [getPeerNetworkMapFromComponents, hc']
    rfl

end

/-- The group of `p1` as a source. -/
def groupRule : PolicyRule := { id := "r1", sources := ["g"] }

/-- `p1` itself as a source. -/
def namedRule : PolicyRule := { id := "r1", sourceResource := { id := "p1", type := .peer } }

/-- A policy with a posture check that nobody passes: its source is the group of
    `p1`, or `p1` by name.  Another policy connects `p1` to `p3`. -/
def postureAccount (source : PolicyRule) : Account where
  peers :=
    ⟨[{ id := "p1", ip := "100.64.0.1" }, { id := "p2", ip := "100.64.0.2" },
      { id := "p3", ip := "100.64.0.3" }], by decide⟩
  groups :=
    ⟨[{ id := "g", peers := ["p1"] }, { id := "h", peers := ["p2"] },
      { id := "k", peers := ["p3"] }], by decide⟩
  policies :=
    [{ id := "checked"
       rules := [{ source with destinations := ["h"] }]
       sourcePostureChecks := ["chk"] },
     { id := "open", rules := [{ id := "r2", sources := ["g"], destinations := ["k"] }] }]
  routes := ⟨[], nodup_nil⟩
  postureChecks := [{ id := "chk", checks := [fun _ => false], id_ne := by decide }]

/-- The map of `p1` from an account, with all peers validated. -/
def postureMap (a : Account) : Except GoPanic NetworkMap :=
  getPeerNetworkMapFromComponents plainEnv a "p1" ["p1", "p2", "p3"] (getResourcePoliciesMap a)
    (getResourceRoutersMap a) ∅

/-- The tag is new to the first account. -/
theorem fresh_groupRule : Fresh (postureAccount groupRule) "removed" := by
  rw [Fresh]
  decide +kernel

/-- And to the second. -/
theorem fresh_namedRule : Fresh (postureAccount namedRule) "removed" := by
  rw [Fresh]
  decide +kernel

/-- As a member of a source group `p1` is excluded. -/
theorem map_without_group_source :
    ∃ nm nm', postureMap (postureAccount groupRule) = .ok nm ∧
      postureMap (withoutSource (postureAccount groupRule) "removed" "p1" "checked"
        fresh_groupRule) = .ok nm' ∧
      nm.peers.map Peer.id = ["p3"] ∧ SameSet nm.peers nm'.peers ∧
      SameSet nm.offlinePeers nm'.offlinePeers ∧ SameSet nm.firewallRules nm'.firewallRules := by
  obtain ⟨nm, hnm, hp⟩ := exists_ok_of_map (x := postureMap (postureAccount groupRule))
    (f := fun nm => nm.peers.map Peer.id) (b := ["p3"]) (by decide +kernel)
  have hn : ∀ (groups : List String) (q : String),
      AllHas (postureAccount groupRule).getGroup groups q := by
    intro groups q gid _ g hg ha
    have hna : ∀ g ∈ (postureAccount groupRule).groups.entries, g.isGroupAll = false := by decide
    cases ha.symm.trans (hna g (Keyed.mem_of_get hg))
  obtain ⟨nm', hn', hs⟩ := @map_without_failed_source (postureAccount groupRule)
    "removed" "p1" "checked" fresh_groupRule plainEnv ["p1", "p2", "p3"] ∅ nm (by decide)
    (by decide)
    ⟨fun _ _ _ => ⟨fun _ _ => hn _ _, fun _ _ => hn _ _⟩,
      fun _ _ _ _ _ gid hgi g hg ha => .inr (fun q _ _ => hn _ q gid hgi g hg ha),
      nofun, nofun⟩ hnm
  exact ⟨nm, nm', hnm, hn', hp, hs⟩

/-- By name `p1` is connected to `p2`, though it fails the check. -/
theorem named_source_not_excluded :
    (postureAccount namedRule).validatePostureChecksOnPeer ["chk"] "p1" = false ∧
      ∃ nm nm', postureMap (postureAccount namedRule) = .ok nm ∧
        postureMap (withoutSource (postureAccount namedRule) "removed" "p1" "checked"
          fresh_namedRule) = .ok nm' ∧
        ¬ SameSet nm.peers nm'.peers := by
  obtain ⟨nm, hn, hp⟩ := exists_ok_of_map (x := postureMap (postureAccount namedRule))
    (f := fun nm => nm.peers) (b := [{ id := "p2", ip := "100.64.0.2" },
      { id := "p3", ip := "100.64.0.3" }]) (by decide +kernel)
  obtain ⟨nm', hn', hp'⟩ := exists_ok_of_map
    (x := postureMap (withoutSource (postureAccount namedRule) "removed" "p1" "checked"
      fresh_namedRule))
    (f := fun nm => nm.peers) (b := [{ id := "p3", ip := "100.64.0.3" }]) (by decide +kernel)
  refine ⟨by decide, nm, nm', hn, hn', fun hs => ?_⟩
  rw [hp, hp'] at hs
  exact absurd ((hs { id := "p2", ip := "100.64.0.2" }).mp mem_cons_self) (by decide)

end Removal

import NetbirdHa.ResourceAgreementProofs

/-! # Removing a peer from the sources of a policy

Groups are shared, so a peer cannot leave the sources of one policy by leaving
its groups.  `withoutSource` gives the policy groups of its own: copies of the
account's groups, under new IDs, that lack the peer.  A rule that names the
peer gets the name of a peer that does not exist. -/

namespace Removal

open Table AccountModel GroupPeers Connection Routes Components List
open Agreement

/-! ## The account without the source -/

/-- The IDs of groups and peers that the account has or mentions. -/
def usedIDs (a : Account) : List String :=
  a.groups.entries.map Group.id ++ a.peers.entries.map Peer.id ++
    a.policies.flatMap policyGroupIDs ++
    a.routes.entries.flatMap (fun r => r.groups ++ r.peerGroups ++ r.accessControlGroups) ++
    a.networkRouters.flatMap NetworkRouter.peerGroups

/-- The tag is longer than any ID of the account, so IDs that begin with it are new. -/
def Fresh (a : Account) (tag : String) : Prop := ∀ id ∈ usedIDs a, id.length < tag.length

/-- The copy of a group that lacks the peer. -/
def copyGroup (tag t : String) (g : Group) : Group :=
  { g with id := tag ++ g.id, peers := g.peers.filter (· ≠ t) }

/-- The rule with the copies as sources. -/
def removeFromRule (tag t : String) (rule : PolicyRule) : PolicyRule :=
  { rule with
    sources := rule.sources.map (tag ++ ·)
    sourceResource :=
      if rule.sourceResource.IsPeer ∧ rule.sourceResource.id = t then
        { rule.sourceResource with id := tag ++ t }
      else rule.sourceResource }

/-- The policy `pid` with the copies as sources; other policies stay. -/
def removeFromPolicy (tag t pid : String) (pol : Policy) : Policy :=
  if pol.id = pid then { pol with rules := pol.rules.map (removeFromRule tag t) } else pol

variable {a : Account} {tag t pid q check : String} {pol : Policy} {rule : PolicyRule}
  {vp : Validated} {router : Bool} {policies : List Policy}

/-- The tag is longer than the name of any group. -/
theorem length_lt_of_mem (h : Fresh a tag) (hg : g ∈ a.groups.entries) :
    g.id.length < tag.length := by
  refine h g.id ?_
  simp only [usedIDs, mem_append]
  exact .inl (.inl (.inl (.inl (mem_map_of_mem hg))))

/-- So no short name is a tagged one. -/
theorem ne_tagged {id : String} (h : id.length < tag.length) (s : String) : id ≠ tag ++ s := by
  intro he
  rw [he, String.length_append] at h
  omega

/-- The account in which the policy `pid` does not have the peer as a source. -/
def withoutSource (a : Account) (tag t pid : String) (h : Fresh a tag) : Account :=
  { a with
    groups :=
      { entries := a.groups.entries ++ a.groups.entries.map (copyGroup tag t)
        nodup := by
          rw [map_append, map_map, nodup_append]
          refine ⟨a.groups.nodup, ?_, ?_⟩
          · have hcomp : Group.id ∘ copyGroup tag t = (tag ++ ·) ∘ Group.id := rfl
            rw [hcomp, ← map_map]
            exact a.groups.nodup.map fun x y hxy => (String.append_right_inj tag).mp hxy
          · rintro x hx y hy rfl
            obtain ⟨g, hg, rfl⟩ := mem_map.mp hx
            obtain ⟨g', -, he⟩ := mem_map.mp hy
            exact ne_tagged (length_lt_of_mem h hg) g'.id he.symm }
    policies := a.policies.map (removeFromPolicy tag t pid) }

/-- The same account, from the tag. -/
abbrev Fresh.without (h : Fresh a tag) (t pid : String) : Account := withoutSource a tag t pid h

variable {h : Fresh a tag}

section

variable {gid : String}

/-- The account's own groups are untouched. -/
theorem getGroup_old (hgi : gid.length < tag.length) :
    (h.without t pid).getGroup gid = a.getGroup gid := by
  grind [copyGroup, ne_tagged, Account.getGroup, withoutSource, Keyed.get]

/-- A tagged name leads to the copy of the group, without the peer. -/
theorem getGroup_copy :
    (h.without t pid).getGroup (tag ++ gid) = (a.getGroup gid).map (copyGroup tag t) := by
  have hn : a.groups.entries.find? (·.id = tag ++ gid) = none := by
    rw [List.find?_eq_none]
    intro g hg
    simpa using ne_tagged (length_lt_of_mem h hg) gid
  have hc : (fun g : Group => decide (g.id = tag ++ gid)) ∘ copyGroup tag t =
      fun g => decide (g.id = gid) := by
    funext g
    simp [copyGroup]
  show (a.groups.entries ++ a.groups.entries.map (copyGroup tag t)).find? (·.id = tag ++ gid) =
    (a.groups.entries.find? (·.id = gid)).map (copyGroup tag t)
  rw [List.find?_append, hn, Option.none_or, List.find?_map, hc]

end

/-- The IDs under which a policy finds its source groups. -/
def sourceID (tag pid : String) (pol : Policy) (gid : String) : String :=
  if pol.id = pid then tag ++ gid else gid

/-- The peer stays a source of the policy. -/
def Stays (t pid : String) (pol : Policy) (q : String) : Prop := pol.id = pid → q ≠ t

/-- The rule of a policy, with the copies as sources if the policy is `pid`. -/
def removedRule (tag t pid : String) (pol : Policy) (rule : PolicyRule) : PolicyRule :=
  if pol.id = pid then removeFromRule tag t rule else rule

theorem removeFromPolicy_rules :
    (removeFromPolicy tag t pid pol).rules = pol.rules.map (removedRule tag t pid pol) := by
  rw [removeFromPolicy]
  by_cases hp : pol.id = pid
  · simp only [hp, if_true]
    refine map_congr_left fun rule _ => ?_
    rw [removedRule, if_pos hp]
  have hi : removedRule tag t pid pol = id := by
    funext rule
    rw [removedRule, if_neg hp]
    rfl
  rw [if_neg hp, hi, map_id]

@[simp] theorem removeFromPolicy_enabled :
    (removeFromPolicy tag t pid pol).enabled = pol.enabled := by
  rw [removeFromPolicy]
  split <;> rfl

@[simp] theorem removeFromPolicy_checks :
    (removeFromPolicy tag t pid pol).sourcePostureChecks = pol.sourcePostureChecks := by
  rw [removeFromPolicy]
  split <;> rfl

/-- The rule's sources are the copies. -/
theorem removedRule_sources :
    (removedRule tag t pid pol rule).sources = rule.sources.map (sourceID tag pid pol) := by
  rw [removedRule]
  by_cases hp : pol.id = pid
  · rw [if_pos hp]
    refine map_congr_left fun gid _ => ?_
    rw [sourceID, if_pos hp]
  have hi : sourceID tag pid pol = id := by
    funext gid
    rw [sourceID, if_neg hp]
    rfl
  rw [if_neg hp, hi, map_id]

/-- A source resource that is not the peer stays. -/
theorem removedRule_sourceResource
    (h : pol.id = pid → ¬ (rule.sourceResource.IsPeer ∧ rule.sourceResource.id = t)) :
    (removedRule tag t pid pol rule).sourceResource = rule.sourceResource := by
  rw [removedRule]
  split
  · next hp => exact if_neg (h hp)
  · rfl

@[simp] theorem removedRule_enabled : (removedRule tag t pid pol rule).enabled = rule.enabled := by
  rw [removedRule]
  split <;> rfl

@[simp] theorem removedRule_destinations :
    (removedRule tag t pid pol rule).destinations = rule.destinations := by
  rw [removedRule]
  split <;> rfl

@[simp] theorem removedRule_destinationResource :
    (removedRule tag t pid pol rule).destinationResource = rule.destinationResource := by
  rw [removedRule]
  split <;> rfl

@[simp] theorem removedRule_bidirectional :
    (removedRule tag t pid pol rule).bidirectional = rule.bidirectional := by
  rw [removedRule]
  split <;> rfl

/-- The active rules without the source. -/
theorem activeRules_removed (policies : List Policy) :
    activeRules (policies.map (removeFromPolicy tag t pid)) = (activeRules policies).map
        (fun pr => (removeFromPolicy tag t pid pr.1, removedRule tag t pid pr.1 pr.2)) := by
  induction policies with
  | nil => rfl
  | cons pol policies ih =>
    have hr : ((removeFromPolicy tag t pid pol).rules.filter (·.enabled)).map
        (fun rule => (removeFromPolicy tag t pid pol, rule)) =
        ((pol.rules.filter (·.enabled)).map (fun rule => (pol, rule))).map (fun pr =>
          (removeFromPolicy tag t pid pr.1, removedRule tag t pid pr.1 pr.2)) := by
      have hc : (fun rule : PolicyRule => rule.enabled) ∘ removedRule tag t pid pol =
          fun rule => rule.enabled := by
        funext rule
        exact removedRule_enabled
      rw [removeFromPolicy_rules, filter_map, hc, map_map, map_map]
      rfl
    grind [activeRules, removeFromPolicy_enabled]

/-! ## What the first pass sees -/

/-- Posture is a matter of the peers alone. -/
theorem firstFailed_removed (p : Peer) :
    ∀ cs, (h.without t pid).firstFailed p cs = a.firstFailed p cs := by
  intro cs
  induction cs with
  | nil => rfl
  | cons c cs ih =>
    rw [Account.firstFailed, ih]
    rfl

/-- Posture checks do not see the removal. -/
theorem validatePosture_removed :
    (h.without t pid).validatePostureChecksOnPeer = a.validatePostureChecksOnPeer := by
  funext cs q
  rw [Account.validatePostureChecksOnPeer]
  simp only [firstFailed_removed]
  rfl

theorem getFailed_removed : (h.without t pid).validatePostureChecksOnPeerGetFailed =
    a.validatePostureChecksOnPeerGetFailed := by
  funext cs q
  rw [Account.validatePostureChecksOnPeerGetFailed]
  simp only [firstFailed_removed]
  rfl

theorem usable_removed : Usable (h.without t pid) vp = Usable a vp := by
  funext checks q
  rw [Usable, Usable, validatePosture_removed]

theorem failsAt_removed : FailsAt (h.without t pid) vp = FailsAt a vp := by
  funext checks q c
  rw [FailsAt]
  simp only [firstFailed_removed]
  rfl

section

variable {groups : List String}

/-- The names on a rule's sides are shorter than the tag. -/
theorem length_sides (h : Fresh a tag) (hp : pol ∈ a.policies) (hr : rule ∈ pol.rules) :
    (∀ gid ∈ rule.sources, gid.length < tag.length) ∧
      ∀ gid ∈ rule.destinations, gid.length < tag.length := by
  refine forall_mem_append.mp fun gid hg => h gid ?_
  simp only [usedIDs, mem_append]
  exact .inl (.inl (.inr (mem_flatMap.mpr ⟨pol, hp, mem_flatMap.mpr ⟨rule, hr, hg⟩⟩)))

/-- Groups that are not copies stay. -/
theorem copies_old (hlen : ∀ gid ∈ groups, gid.length < tag.length) :
    Copies (fun _ => True) a.getGroup (h.without t pid).getGroup groups := by
  intro gid hgi
  rw [getGroup_old (hlen gid hgi)]
  exact ⟨fun g hg => ⟨g, hg, rfl, fun q => (and_true _).symm.to_iff⟩, fun hg => hg⟩

/-- The groups that a policy finds as sources lack the peer, if the policy is `pid`. -/
theorem copies_sources (pol : Policy) (hlen : ∀ gid ∈ groups, gid.length < tag.length) :
    Copies (Stays t pid pol) a.getGroup
      (fun gid => (h.without t pid).getGroup (sourceID tag pid pol gid)) groups := by
  intro gid hgi
  by_cases hp : pol.id = pid
  · simp only [sourceID, if_pos hp, getGroup_copy]
    refine ⟨fun g hg => ⟨copyGroup tag t g, by rw [hg]; rfl, rfl, fun q => ?_⟩,
      fun hg => by rw [hg]; rfl⟩
    simp [copyGroup, Stays, hp]
  grind [sourceID, getGroup_old, Stays]

variable (hlen : ∀ gid ∈ groups, gid.length < tag.length)

include hlen

/-- The copies' members are the groups' members without the peer. -/
theorem mem_unique_sources : q ∈ getUniquePeerIDsFromGroupsIDs (h.without t pid).getGroup
      (groups.map (sourceID tag pid pol)) ↔
    q ∈ getUniquePeerIDsFromGroupsIDs a.getGroup groups ∧ Stays t pid pol q := by
  rw [getUniquePeerIDsFromGroupsIDs, uniqueLoop_map, length_map]
  exact mem_unique_copies (copies_sources pol hlen)

/-- Names that are not copies have the members they had. -/
theorem mem_unique_old : q ∈ getUniquePeerIDsFromGroupsIDs (h.without t pid).getGroup groups ↔
    q ∈ getUniquePeerIDsFromGroupsIDs a.getGroup groups := by
  rw [mem_unique_copies (copies_old hlen), and_true]

/-- Other peers are met where they were. -/
theorem mem_seen_sources (hq : q ≠ t) : q ∈ seenLoop (h.without t pid).getGroup
      ((groups.map (sourceID tag pid pol)).length = 1) (groups.map (sourceID tag pid pol)) [] ↔
    q ∈ seenLoop a.getGroup (groups.length = 1) groups [] := by
  rw [seenLoop_map, length_map]
  rw [(mem_loops_copies (copies_sources pol hlen)).2]
  exact and_iff_left fun _ => hq

end

/-- The peer fails the checks of the policy `pid`, and no active rule of the policy
    names it as the source. -/
structure Excluded (a : Account) (t pid : String) : Prop where
  fails : ∀ pol ∈ a.policies, pol.id = pid →
    a.validatePostureChecksOnPeer pol.sourcePostureChecks t = false
  direct : ∀ pr ∈ activeRules a.policies, pr.1.id = pid →
    ¬ (pr.2.sourceResource.IsPeer ∧ pr.2.sourceResource.id = t)

section

/-- The active rules are the old ones, changed one by one. -/
theorem mem_active_removed : pr' ∈ activeRules (h.without t pid).policies ↔
    ∃ pr ∈ activeRules a.policies,
      (removeFromPolicy tag t pid pr.1, removedRule tag t pid pr.1 pr.2) = pr' := by
  rw [Fresh.without, withoutSource, activeRules_removed, mem_map]

theorem listsAccessGroup_removed :
    listsAccessGroup (h.without t pid) (removedRule tag t pid pol rule) =
      listsAccessGroup a rule := by
  rw [listsAccessGroup, removedRule_destinations]
  rfl

variable {pr : Policy × PolicyRule} (hex : Excluded a t pid) (hpr : pr ∈ activeRules a.policies)

include hex hpr

/-- The target stands in the sources as before. -/
theorem inSources_removed : InSources (h.without t pid) vp t (removeFromPolicy tag t pid pr.1)
      (removedRule tag t pid pr.1 pr.2) ↔ InSources a vp t pr.1 pr.2 := by
  obtain ⟨hpo, -, hr, -⟩ := mem_activeRules.mp hpr
  rw [InSources, InSources, Stands, Stands, removedRule_sourceResource (hex.direct pr hpr),
    removedRule_sources, removeFromPolicy_checks, usable_removed]
  split
  · exact Iff.rfl
  rw [mem_unique_sources (length_sides h hpo hr).1, and_assoc]
  refine and_congr_right fun _ => ?_
  constructor
  · rintro ⟨-, hu⟩
    exact hu
  · intro hu
    refine ⟨fun hp _ => ?_, hu⟩
    cases (hex.fails pr.1 hpo hp).symm.trans hu.2

/-- Peers on the source side are where they were. -/
theorem onSources_removed : OnSide (h.without t pid) vp t
      (removedRule tag t pid pr.1 pr.2).sourceResource (removedRule tag t pid pr.1 pr.2).sources
      pr.1.sourcePostureChecks q ↔
    OnSide a vp t pr.2.sourceResource pr.2.sources pr.1.sourcePostureChecks q := by
  obtain ⟨hp, -, hr, -⟩ := mem_activeRules.mp hpr
  rw [OnSide, OnSide, removedRule_sourceResource (hex.direct pr hpr), removedRule_sources,
    usable_removed]
  split
  · exact Iff.rfl
  rw [mem_unique_sources (length_sides h hp hr).1, and_assoc]
  refine and_congr_right fun _ => ?_
  constructor
  · rintro ⟨-, hu⟩
    exact hu
  · intro hu
    exact ⟨fun _ => hu.2, hu⟩

omit hex in
/-- The target stands in the destinations as before. -/
theorem inDestinations_removed :
    InDestinations (h.without t pid) vp t (removedRule tag t pid pr.1 pr.2) ↔
      InDestinations a vp t pr.2 := by
  obtain ⟨hp, -, hr, -⟩ := mem_activeRules.mp hpr
  rw [InDestinations, InDestinations, Stands, Stands, removedRule_destinationResource,
    removedRule_destinations, mem_unique_old (length_sides h hp hr).2, usable_removed]

omit hex in
/-- Peers on the destination side are where they were. -/
theorem onDestinations_removed :
    OnSide (h.without t pid) vp t pr.2.destinationResource pr.2.destinations [] q ↔
      OnSide a vp t pr.2.destinationResource pr.2.destinations [] q := by
  obtain ⟨hp, -, hr, -⟩ := mem_activeRules.mp hpr
  rw [OnSide, OnSide, mem_unique_old (length_sides h hp hr).2, usable_removed]

/-- Other peers fail the same checks. -/
theorem ruleFailures_removed (hq : q ≠ t) : (check, q) ∈ ruleFailures (h.without t pid) vp t
      (removeFromPolicy tag t pid pr.1) (removedRule tag t pid pr.1 pr.2) ↔
    (check, q) ∈ ruleFailures a vp t pr.1 pr.2 := by
  obtain ⟨hp, -, hr, -⟩ := mem_activeRules.mp hpr
  rw [ruleFailures, ruleFailures, mem_append, mem_append, firstSources, firstSources,
    firstDestinations, firstDestinations, mem_firstSide_failed, mem_firstSide_failed,
    mem_firstSide_failed, mem_firstSide_failed, removedRule_sourceResource (hex.direct pr hpr),
    removedRule_sources, removedRule_destinations, removedRule_destinationResource,
    removeFromPolicy_checks, mem_seen_sources (length_sides h hp hr).1 hq,
    (mem_loops_copies (copies_old (length_sides h hp hr).2)).2, and_true, failsAt_removed]

omit hpr in
/-- Rules connect the target with the same peers. -/
theorem rulePeer_removed : RulePeer (h.without t pid) vp t q ↔ RulePeer a vp t q := by
  simp only [RulePeer, mem_active_removed, exists_exists_and_eq_and]
  refine exists_congr fun pr => and_congr_right fun hpr => ?_
  rw [inSources_removed hex hpr, inDestinations_removed hpr, removeFromPolicy_checks,
    onSources_removed hex hpr, removedRule_destinations, removedRule_destinationResource,
    onDestinations_removed hpr]

omit hpr in
/-- The same policies are kept. -/
theorem policyRelevant_removed (hp : pol ∈ a.policies) :
    policyRelevant (h.without t pid) vp t (removeFromPolicy tag t pid pol) =
      policyRelevant a vp t pol := by
  rw [Bool.eq_iff_iff, policyRelevant_iff, policyRelevant_iff, removeFromPolicy_enabled,
    removeFromPolicy_rules]
  refine and_congr_right fun he => ?_
  simp only [mem_map, exists_exists_and_eq_and, removedRule_enabled]
  refine exists_congr fun rule => and_congr_right fun hr => and_congr_right fun hre => ?_
  have hpr : (pol, rule) ∈ activeRules a.policies := mem_activeRules.mpr ⟨hp, he, hr, hre⟩
  rw [listsAccessGroup_removed, inSources_removed hex hpr, inDestinations_removed hpr]

end

/-! ## Network resources -/

section

theorem isPeer_removedRule :
    (removedRule tag t pid pol rule).sourceResource.IsPeer ↔ rule.sourceResource.IsPeer := by
  rw [removedRule]
  split
  · rw [removeFromRule]
    split
    · next hd =>
      refine ⟨fun _ => hd.1, fun _ => ⟨hd.1.1, ?_⟩⟩
      have hn : t ≠ "" := hd.2 ▸ hd.1.2
      simp [hn]
    · exact Iff.rfl
  · exact Iff.rfl

/-- The first rule is the old first rule, changed. -/
theorem firstRule_removed :
    firstRule (removeFromPolicy tag t pid pol) = removedRule tag t pid pol (firstRule pol) := by
  rw [firstRule, firstRule, removeFromPolicy_rules]
  cases pol.rules with
  | nil =>
    rw [removedRule]
    split
    · rfl
    · rfl
  | cons rule rules => rfl

theorem sourceGroups_removed : sourceGroups (removeFromPolicy tag t pid pol) =
    (sourceGroups pol).map (sourceID tag pid pol) := by
  have hi : Function.Injective (sourceID tag pid pol) := by
    intro x y hx
    rw [sourceID, sourceID] at hx
    split at hx
    · exact (String.append_right_inj tag).mp hx
    · exact hx
  have hf : ∀ rules : List PolicyRule,
      ((rules.map (removedRule tag t pid pol)).flatMap PolicyRule.sources).dedup =
        (rules.flatMap PolicyRule.sources).dedup.map (sourceID tag pid pol) := by
    intro rules
    rw [← dedup_map_of_injective hi, flatMap_map, map_flatMap]
    simp only [removedRule_sources]
  rw [sourceGroups, sourceGroups, removeFromPolicy_rules]
  cases hr : pol.rules with
  | nil => exact hf []
  | cons rule rules =>
    cases rules with
    | nil => exact removedRule_sources
    | cons rule' rules => exact hf (rule :: rule' :: rules)

theorem length_sourceGroups (h : Fresh a tag) (hp : pol ∈ a.policies) :
    ∀ gid ∈ sourceGroups pol, gid.length < tag.length := by
  grind [usedIDs, sourceGroups_subset, Fresh, sourceGroups]

theorem length_peer (h : Fresh a tag) (hq : (a.getPeer q).isSome) : q.length < tag.length := by
  obtain ⟨p, hp⟩ := Option.isSome_iff_exists.mp hq
  refine h q ?_
  simp only [usedIDs, mem_append, ← Account.id_of_getPeer hp]
  exact .inl (.inl (.inl (.inr (mem_map_of_mem (Keyed.mem_of_get hp)))))

/-- The sources of a policy of a resource, for any way to walk over groups. -/
theorem mem_policySourcePeers_removed (h : Fresh a tag) (hq : (a.getPeer q).isSome)
    (hg : ¬ (firstRule pol).sourceResource.IsPeer →
      (q ∈ unique' ((sourceGroups pol).map (sourceID tag pid pol)) ↔
        q ∈ unique (sourceGroups pol) ∧ Stays t pid pol q)) :
    q ∈ policySourcePeers unique' (removeFromPolicy tag t pid pol) ↔
      q ∈ policySourcePeers unique pol ∧ Stays t pid pol q := by
  rw [mem_policySourcePeers, mem_policySourcePeers, firstRule_removed, isPeer_removedRule,
    sourceGroups_removed]
  by_cases hr : (firstRule pol).sourceResource.IsPeer
  · simp only [hr, true_and, not_true_eq_false, false_and, or_false]
    by_cases hdi : pol.id = pid ∧ (firstRule pol).sourceResource.id = t
    · -- the new name is that of nobody
      have hn : (removedRule tag t pid pol (firstRule pol)).sourceResource.id = tag ++ t := by
        rw [removedRule, if_pos hdi.1, removeFromRule, if_pos ⟨hr, hdi.2⟩]
      rw [hn, hdi.2]
      constructor
      · intro he
        exact absurd he (ne_tagged (length_peer h hq) t)
      · rintro ⟨he, hs⟩
        exact absurd he (hs hdi.1)
    · rw [removedRule_sourceResource (fun hp hd => hdi ⟨hp, hd.2⟩)]
      refine ⟨fun he => ⟨he, fun hp ht => hdi ⟨hp, he ▸ ht⟩⟩, And.left⟩
  · simp only [hr, false_and, not_false_eq_true, true_and, false_or]
    exact hg hr

/-- A resource's sources lose the peer, and no one else. -/
theorem mem_accountSources_removed (hp : pol ∈ a.policies) (hq : (a.getPeer q).isSome) :
    q ∈ accountSources (h.without t pid) (removeFromPolicy tag t pid pol) ↔
      q ∈ accountSources a pol ∧ Stays t pid pol q :=
  mem_policySourcePeers_removed h hq fun _ => mem_unique_sources (length_sourceGroups h hp)

/-- Dropping from a mapped list, where the test does not see the map. -/
theorem dropWhile_map_of :
    ∀ {l : List α}, (∀ x ∈ l, p' (f x) = p x) → (l.map f).dropWhile p' = (l.dropWhile p).map f := by
  intro l
  induction l with
  | nil => intro _; rfl
  | cons x l ih =>
    intro hl
    rw [map_cons, dropWhile_cons, dropWhile_cons, hl x mem_cons_self]
    split
    · exact ih fun y hy => hl y (mem_cons_of_mem _ hy)
    · rfl

theorem mem_of_mem_opened (hp : pol ∈ openedPolicies a t router policies) : pol ∈ policies := by
  rw [openedPolicies] at hp
  split at hp
  · exact hp
  · exact (dropWhile_sublist _).subset (mem_of_mem_tail hp)

variable (hex : Excluded a t pid)

include hex

/-- The policy that loses the peer did not let it in before. -/
theorem admits_removed (hpo : pol ∈ a.policies) :
    admits (h.without t pid) t (removeFromPolicy tag t pid pol) = admits a t pol := by
  rw [admits, admits, removeFromPolicy_checks, validatePosture_removed]
  by_cases hp : pol.id = pid
  · rw [hex.fails pol hpo hp, Bool.and_false, Bool.and_false]
  congr 1
  rw [Bool.eq_iff_iff, peerInPolicySources_iff, peerInPolicySources_iff, firstRule_removed,
    removedRule_sourceResource (absurd · hp),
    sourceGroups_removed, inGroups_map, inGroups_copies (copies_sources pol
      (length_sourceGroups h hpo))]
  simp [Stays, hp]

/-- The policies met from the opening one on are the old ones, changed. -/
theorem openedPolicies_removed (hp : ∀ pol ∈ policies, pol ∈ a.policies) :
    openedPolicies (h.without t pid) t router (policies.map (removeFromPolicy tag t pid)) =
      (openedPolicies a t router policies).map (removeFromPolicy tag t pid) := by
  rw [openedPolicies, openedPolicies, dropWhile_map_of (fun pol hpo => by
    rw [admits_removed hex (hp pol hpo)])]
  split
  · rfl
  · rw [map_tail]

end

/-- The policies of the resources, in the account and without the source. -/
structure SamePolicies (a : Account) (tag t pid : String) (rp rp' : GoMap (List Policy)) :
    Prop where
  lookup : ∀ id, rp'.lookup id = (rp.lookup id).map (List.map (removeFromPolicy tag t pid))
  own : ∀ id policies, rp.lookup id = some policies → ∀ pol ∈ policies, pol ∈ a.policies

section

/-- The failures of others that a resource writes down. -/
theorem mem_resourceFailures (hq : q ≠ t) : (check, q) ∈ resourceFailures a vp rp rr t res ↔
    ∃ pol ∈ openedPolicies a t (isRouterOf rr t res) ((rp.lookup res.id).getD []),
      q ∈ accountSources a pol ∧ q ∈ vp ∧
        a.validatePostureChecksOnPeerGetFailed pol.sourcePostureChecks q = (false, check) := by
  have hs : ∀ pol, (check, q) ∉ policyFailure a t pol := by
    intro pol hm
    obtain ⟨-, hm⟩ := mem_ite_nil_right.mp hm
    exact hq (Prod.mk.inj (mem_singleton.mp hm)).2
  simp [resourceFailures, hs, and_false, false_or, mem_postureFailed]

variable {rp rp' : PolicyMap} {rr : Routers}
  (hex : Excluded a t pid) (hrp : SamePolicies a tag t pid rp rp') {res : NetworkResource}

include hex hrp

/-- The same resources are kept. -/
theorem keepsResource_removed :
    keepsResource (h.without t pid) rp' rr t res = keepsResource a rp rr t res := by
  rw [keepsResource, keepsResource, hrp.lookup]
  cases hl : rp.lookup res.id with
  | none => rfl
  | some policies =>
    simp only [Option.map_some, any_map]
    congr 1
    rw [Bool.eq_iff_iff, any_eq_true, any_eq_true]
    refine exists_congr fun pol => and_congr_right fun hp => ?_
    rw [Function.comp, admits_removed hex (hrp.own _ _ hl pol hp)]

/-- A usable source of an opened policy, before and after. -/
theorem usable_source_removed (hpo : ∀ pol ∈ policies, pol ∈ a.policies) :
    (∃ pol ∈ openedPolicies (h.without t pid) t router (policies.map (removeFromPolicy tag t pid)),
      q ∈ accountSources (h.without t pid) pol ∧
        Usable (h.without t pid) vp pol.sourcePostureChecks q) ↔
      ∃ pol ∈ openedPolicies a t router policies,
        q ∈ accountSources a pol ∧ Usable a vp pol.sourcePostureChecks q := by
  rw [openedPolicies_removed hex hpo, usable_removed]
  simp only [mem_map, exists_exists_and_eq_and, removeFromPolicy_checks]
  refine exists_congr fun pol => and_congr_right fun hpl => ?_
  have hp' := hpo pol (mem_of_mem_opened hpl)
  rw [and_congr_left_iff]
  intro hu
  obtain ⟨p, hp, -⟩ := Account.checksOnPeer_eq_true.mp hu.2
  rw [mem_accountSources_removed hp' (by simp [hp])]
  refine and_iff_left fun hi ht => ?_
  subst ht
  cases (hex.fails pol hp' hi).symm.trans hu.2

/-- Resources contribute the same peers. -/
theorem resourcePeer_removed :
    ResourcePeer (h.without t pid) vp rp' rr t res q ↔ ResourcePeer a vp rp rr t res q := by
  rw [ResourcePeer, ResourcePeer]
  simp only [hrp.lookup]
  cases hl : rp.lookup res.id with
  | none => simp
  | some policies =>
    simp only [Option.map_some, Option.some.injEq, exists_eq_left']
    exact or_congr Iff.rfl (usable_source_removed hex hrp (hrp.own _ _ hl))

/-- The components know the same peers. -/
theorem known_removed : Known (h.without t pid) vp rp' rr t q ↔ Known a vp rp rr t q := by
  grind [Known, rulePeer_removed, resourcePeer_removed, withoutSource]

/-- Resources record the same failures of other peers. -/
theorem resourceFailures_removed (hq : q ≠ t) (hp : (a.getPeer q).isSome) :
    (check, q) ∈ resourceFailures (h.without t pid) vp rp' rr t res ↔
      (check, q) ∈ resourceFailures a vp rp rr t res := by
  have hpo : ∀ pol ∈ (rp.lookup res.id).getD [], pol ∈ a.policies := by
    cases hl : rp.lookup res.id with
    | none => exact fun pol hpl => absurd hpl not_mem_nil
    | some policies => exact hrp.own _ _ hl
  have hm : (rp'.lookup res.id).getD [] =
      ((rp.lookup res.id).getD []).map (removeFromPolicy tag t pid) := by
    rw [hrp.lookup]
    cases rp.lookup res.id <;> rfl
  rw [mem_resourceFailures hq, mem_resourceFailures hq, hm,
    openedPolicies_removed hex hpo, getFailed_removed]
  simp only [mem_map, exists_exists_and_eq_and, removeFromPolicy_checks]
  refine exists_congr fun pol => and_congr_right fun hpl => and_congr_left fun _ => ?_
  rw [mem_accountSources_removed (hpo pol (mem_of_mem_opened hpl)) hp]
  exact and_iff_left fun _ => hq

/-- The same failures of other peers are written down. -/
theorem failure_removed (hq : q ≠ t) (hp : (a.getPeer q).isSome) :
    Failure (h.without t pid) vp rp' rr t check q ↔ Failure a vp rp rr t check q := by
  refine or_congr ?_ (exists_congr fun res => and_congr_right fun _ =>
    resourceFailures_removed hex hrp hq hp)
  simp only [mem_active_removed, exists_exists_and_eq_and]
  exact exists_congr fun pr => and_congr_right fun hpr => ruleFailures_removed hex hpr hq

end

end Removal

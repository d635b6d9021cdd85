import NetbirdHa.RelevanceProofs

/-! # The sides of a rule, seen by the components

The components look peers, groups and posture failures up in what they know.
A known peer is the account's; a known group is the account's cut down to
known peers; a failure written down is a real one (`validate_of_passes`),
and the failures of the members of a rule's source groups are all written
down (`passes_of_validate`). -/

namespace Calculate

open Table AccountModel GroupPeers Connection LegacyMap Components List Account

variable {a : Account} {vp : Validated} {rp : PolicyMap}
  {rr : Routers} {t q check : String} {c : NetworkMapComponents} {p : Peer}
  {checks : List String} {pol : Policy} {rule : PolicyRule}

section

variable (k : Knows a vp rp rr t c)

include k

/-- The components know a peer of the account. -/
theorem getPeerInfo_eq_some :
    getPeerInfo c q = some p ↔ Known a vp rp rr t q ∧ a.getPeer q = some p := by
  rw [getPeerInfo, ← k.peers]
  constructor
  · intro h
    have hv := Option.join_eq_some_iff.mp h
    exact ⟨mem_of_lookup hv, (k.peersValue q _ hv).symm⟩
  · rintro ⟨hq, hp⟩
    obtain ⟨v, hv⟩ := exists_lookup_of_mem hq
    rw [hv, k.peersValue q v hv, hp]
    rfl

/-- The target is always among them. -/
theorem getPeerInfo_target : ∃ p, a.getPeer t = some p ∧ getPeerInfo c t = some p := by
  obtain ⟨p, hp⟩ := k.target
  exact ⟨p, hp, (getPeerInfo_eq_some k).mpr ⟨.inl rfl, hp⟩⟩

/-- A cut group keeps the members the components know. -/
theorem mem_cutGroup : q ∈ (cutGroup c.peers g).peers ↔ q ∈ g.peers ∧ Known a vp rp rr t q := by
  rw [cutGroup, mem_filter, decide_eq_true_eq, k.peers]

/-- The groups that hold the target are known. -/
theorem keeps_target : Keeps t a.getGroup (getGroupInfo c) where
  cut := by
    intro gid g' hg'
    obtain ⟨-, g, hg, -, rfl⟩ := (k.groups gid g').mp hg'
    exact ⟨g, hg, rfl, fun q hq => ((mem_cutGroup k).mp hq).1⟩
  kept := by
    intro gid g hg ht
    have hc : t ∈ (cutGroup c.peers g).peers := (mem_cutGroup k).mpr ⟨ht, .inl rfl⟩
    refine ⟨cutGroup c.peers g, (k.groups gid _).mpr ⟨.inl (.inl ?_), g, hg,
      ne_nil_of_mem hc, rfl⟩, hc⟩
    exact mem_getPeerGroups.mpr ⟨g, hg, ht⟩

/-- Known groups are cut down to the known peers. -/
theorem restricts_known {groups : List String}
    (h : ∀ gid ∈ groups, (a.getGroup gid).isSome → KnownGroup a vp rp rr t gid) :
    Restricts (Known a vp rp rr t) a.getGroup (getGroupInfo c) groups := by
  intro gid hgi
  refine ⟨?_, ?_, ?_⟩
  · rintro g hg ⟨q, hq, hk⟩
    exact ⟨cutGroup c.peers g, (k.groups gid _).mpr ⟨h gid hgi (by simp [hg]), g, hg,
      ne_nil_of_mem ((mem_cutGroup k).mpr ⟨hq, hk⟩), rfl⟩, rfl, fun q => mem_cutGroup k⟩
  · intro g hg hno
    cases hg' : getGroupInfo c gid with
    | none => rfl
    | some g' =>
      obtain ⟨-, g'', hg'', hn, -⟩ := (k.groups gid g').mp hg'
      cases hg.symm.trans hg''
      obtain ⟨q, hq⟩ := exists_mem_of_ne_nil _ hn
      exact absurd ⟨q, (mem_cutGroup k).mp hq⟩ hno
  · intro hg
    cases hg' : getGroupInfo c gid with
    | none => rfl
    | some g' =>
      obtain ⟨-, g, hg'', -⟩ := (k.groups gid g').mp hg'
      cases hg.symm.trans hg''

end

/-! ## Posture -/

section

theorem getFailed_of_failsAt (h : FailsAt a vp checks q check) :
    a.validatePostureChecksOnPeerGetFailed checks q = (false, check) := by
  obtain ⟨-, p, hp, hf⟩ := h
  rw [Account.validatePostureChecksOnPeerGetFailed, hp]
  simp only [hf]

/-- A failure written down is the failure of some list of checks. -/
theorem getFailed_of_failure (h : Failure a vp rp rr t check q) :
    ∃ checks, a.validatePostureChecksOnPeerGetFailed checks q = (false, check) := by
  rcases h with ⟨pr, -, h⟩ | ⟨res, -, h⟩
  · rcases mem_append.mp h with h | h
    all_goals exact ⟨_, getFailed_of_failsAt (mem_firstSide_failed.mp h).2.2⟩
  rcases mem_append.mp h with h | h
  all_goals grind [policyFailure, mem_postureFailed]

/-- A validated peer of the account passes, or some check of the list fails. -/
theorem passes_or_getFailed (hp : a.getPeer q = some p) : a.validatePostureChecksOnPeer checks q ∨
    ∃ check ∈ checks, a.validatePostureChecksOnPeerGetFailed checks q = (false, check) := by
  cases hf : a.firstFailed p checks with
  | none => exact .inl (checksOnPeer_eq_true.mpr ⟨p, hp, hf⟩)
  | some check =>
    refine .inr ⟨check, (firstFailed_eq_some hf).1, ?_⟩
    rw [Account.validatePostureChecksOnPeerGetFailed, hp]
    simp only [hf]

/-- The checks of a kept policy are asked for. -/
theorem referenced_of_policies (hp : pol ∈ c.policies) :
    ∀ check ∈ pol.sourcePostureChecks, check ∈ referencedChecks c.policies c.resourcePoliciesMap :=
  fun _ hc => mem_append_left _ (mem_flatMap.mpr ⟨pol, hp, hc⟩)

/-- The checks of a policy of a resource are asked for. -/
theorem referenced_of_policiesOf (hp : pol ∈ policiesOf c rid)
    (hc : check ∈ pol.sourcePostureChecks) :
    check ∈ referencedChecks c.policies c.resourcePoliciesMap := by
  rw [policiesOf] at hp
  cases hl : c.resourcePoliciesMap.lookup rid with
  | none => rw [hl] at hp; cases hp
  | some policies =>
    rw [hl] at hp
    refine mem_append_right _ (mem_flatMap.mpr ⟨⟨rid, policies⟩, AList.mem_lookup_iff.mp hl, ?_⟩)
    exact mem_flatMap.mpr ⟨pol, hp, hc⟩

variable (k : Knows a vp rp rr t c)

include k

/-- The client's check of a peer's posture. -/
theorem validate_eq_true : validatePostureChecksOnPeer c checks q ↔
    Known a vp rp rr t q ∧ ∀ check ∈ checks, (check, q) ∉ c.postureFailedPeers := by
  simp only [validatePostureChecksOnPeer, Bool.and_eq_true, decide_eq_true_eq, all_eq_true, k.peers]

/-- What passes the account's checks passes the components'. -/
theorem validate_of_passes (hq : Known a vp rp rr t q)
    (h : a.validatePostureChecksOnPeer checks q) : validatePostureChecksOnPeer c checks q := by
  refine (validate_eq_true k).mpr ⟨hq, fun check hm hf => ?_⟩
  obtain ⟨checks', hf'⟩ := getFailed_of_failure ((k.failed check q).mp hf).1
  cases h.symm.trans (validatePostureChecksOnPeer_eq_false hf' hm)

/-- A failure written down for a list of checks that a kept policy asks for counts. -/
theorem validate_eq_false (hm : check ∈ checks) (hf : Failure a vp rp rr t check q)
    (hr : check ∈ referencedChecks c.policies c.resourcePoliciesMap) :
    validatePostureChecksOnPeer c checks q = false := by
  rw [Bool.eq_false_iff, ne_eq, validate_eq_true k]
  rintro ⟨hq, h⟩
  exact h check hm ((k.failed check q).mpr ⟨hf, hr, hq⟩)

/-- Where all checks are asked for, the answer is about the failures. -/
theorem validate_iff_failure
    (hr : ∀ check ∈ checks, check ∈ referencedChecks c.policies c.resourcePoliciesMap) :
    validatePostureChecksOnPeer c checks q ↔
      Known a vp rp rr t q ∧ ∀ check ∈ checks, ¬ Failure a vp rp rr t check q := by
  rw [validate_eq_true k]
  refine and_congr_right fun hq => forall_congr' fun check => forall_congr' fun hm => ?_
  rw [k.failed]
  exact not_congr ⟨And.left, fun hf => ⟨hf, hr check hm, hq⟩⟩

theorem validate_nil : validatePostureChecksOnPeer c [] q ↔ Known a vp rp rr t q := by
  rw [validate_eq_true k]
  simp

/-- For a validated member of a rule's source groups the components give the account's answer. -/
theorem passes_of_validate (hpr : (pol, rule) ∈ activeRules a.policies)
    (hre : policyRelevant a vp t pol) (hr : ¬ rule.sourceResource.IsPeer)
    (hs : q ∈ getUniquePeerIDsFromGroupsIDs a.getGroup rule.sources) (hp : a.getPeer q = some p)
    (hv : q ∈ vp) (h : validatePostureChecksOnPeer c pol.sourcePostureChecks q) :
    a.validatePostureChecksOnPeer pol.sourcePostureChecks q := by
  rcases usable_or_failsAt pol.sourcePostureChecks hp hv with ⟨-, -, hu⟩ | ⟨check, hf, hfa⟩
  · exact hu
  -- the scan of the sources has written the failure down
  have hm := (firstFailed_eq_some hf).1
  have hfl : Failure a vp rp rr t check q := by
    refine .inl ⟨(pol, rule), hpr, mem_append_left _ ?_⟩
    exact mem_firstSide_failed.mpr ⟨hr, mem_seenLoop_of_mem_uniqueLoop hs, hfa⟩
  have hrf : check ∈ referencedChecks c.policies c.resourcePoliciesMap := by
    refine @referenced_of_policies _ pol ?_ check hm
    rw [k.policies]
    exact mem_filter.mpr ⟨(mem_activeRules.mp hpr).1, hre⟩
  cases h.symm.trans (validate_eq_false k hm hfl hrf)

/-- For a validated source of a policy of a resource that the target routes the
    components give the account's answer. -/
theorem validate_iff_routed (hre : res ∈ c.networkResources)
    (hr : isRouterOf rr t res) (hpo : pol ∈ policiesOf c res.id)
    (hs : q ∈ accountSources a pol) (hp : a.getPeer q = some p) (hv : q ∈ vp) :
    validatePostureChecksOnPeer c pol.sourcePostureChecks q ↔
      Known a vp rp rr t q ∧ a.validatePostureChecksOnPeer pol.sourcePostureChecks q := by
  constructor
  · intro h
    refine ⟨((validate_eq_true k).mp h).1, ?_⟩
    rcases passes_or_getFailed hp with hpa | ⟨check, hm, hf⟩
    · exact hpa
    have hfa : Failure a vp rp rr t check q := by
      have hr' := hre
      rw [k.resources] at hr'
      refine .inr ⟨res, (mem_filter.mp hr').1, mem_append_right _ ?_⟩
      rw [openedPolicies, if_pos hr, ← k.policiesOf res hre]
      exact mem_flatMap.mpr ⟨pol, hpo, mem_postureFailed.mpr ⟨hs, hv, hf⟩⟩
    cases h.symm.trans (validate_eq_false k hm hfa (referenced_of_policiesOf hpo hm))
  · rintro ⟨hq, h⟩
    exact validate_of_passes k hq h

end

/-! ## Sides -/

section

variable {res : Resource} {groups : List String}

theorem side_direct (h : res.IsPeer) :
    side c t res groups checks = getPeerFromResource c res t := if_pos h

theorem side_groups (h : ¬ res.IsPeer) : side c t res groups checks =
    getAllPeersFromGroups (getGroupInfo c) (keepPeer c checks) groups t := if_neg h

/-- The peers the client keeps of a group. -/
theorem keepPeer_eq_some : keepPeer c checks q = some p ↔
    getPeerInfo c q = some p ∧ validatePostureChecksOnPeer c checks q := by
  rw [keepPeer, Option.filter_eq_some_iff]

/-- A side that names one peer. -/
theorem mem_side_direct (h : res.IsPeer) :
    p ∈ (side c t res groups checks).1 ↔ res.id ≠ t ∧ getPeerInfo c res.id = some p := by
  rw [side_direct h, getPeerFromResource]
  grind

/-- Such a side finds the target when it is that peer. -/
theorem side_direct_found (h : res.IsPeer) : (side c t res groups checks).2 ↔ res.id = t := by
  rw [side_direct h, getPeerFromResource]
  by_cases ht : res.id = t
  · simp [ht]
  · cases hp : getPeerInfo c res.id <;> simp [ht]

variable (k : Knows a vp rp rr t c)

include k

/-- A side that names groups. -/
theorem mem_side_groups (h : ¬ res.IsPeer) : p ∈ (side c t res groups checks).1 ↔
    p.id ∈ getUniquePeerIDsFromGroupsIDs (getGroupInfo c) groups ∧
      a.getPeer p.id = some p ∧ validatePostureChecksOnPeer c checks p.id ∧ p.id ≠ t := by
  rw [side_groups h, mem_getAllPeersFromGroups]
  constructor
  · rintro ⟨⟨q, hq, hk⟩, hn⟩
    obtain ⟨hi, hv⟩ := keepPeer_eq_some.mp hk
    obtain ⟨-, hp⟩ := (getPeerInfo_eq_some k).mp hi
    obtain rfl := id_of_getPeer hp
    exact ⟨hq, hp, hv, hn⟩
  · rintro ⟨hq, hp, hv, hn⟩
    have hkn := ((validate_eq_true k).mp hv).1
    exact ⟨⟨p.id, hq, keepPeer_eq_some.mpr ⟨(getPeerInfo_eq_some k).mpr ⟨hkn, hp⟩, hv⟩⟩, hn⟩

/-- Such a side finds the target among the members that pass. -/
theorem side_groups_found (h : ¬ res.IsPeer) : (side c t res groups checks).2 ↔
    t ∈ getUniquePeerIDsFromGroupsIDs (getGroupInfo c) groups ∧
      validatePostureChecksOnPeer c checks t := by
  rw [side_groups h, getAllPeersFromGroups_found]
  obtain ⟨pt, hpt, hi⟩ := getPeerInfo_target k
  constructor
  · rintro ⟨q, hq, p, hk, hid⟩
    obtain ⟨hi, hv⟩ := keepPeer_eq_some.mp hk
    obtain ⟨-, hp⟩ := (getPeerInfo_eq_some k).mp hi
    obtain rfl : q = t := (id_of_getPeer hp).symm.trans hid
    exact ⟨hq, hv⟩
  · rintro ⟨hq, hv⟩
    exact ⟨t, hq, pt, keepPeer_eq_some.mpr ⟨hi, hv⟩, id_of_getPeer hpt⟩

/-- Where the target stands it is found. -/
theorem side_found_of_stands (h : Stands a vp t res groups checks) :
    (side c t res groups checks).2 := by
  rw [Stands] at h
  split at h
  · next hr => exact (side_direct_found hr).mpr h
  · next hr =>
    exact (side_groups_found k hr).mpr
      ⟨(keeps_target k).mem_unique h.1, validate_of_passes k (.inl rfl) h.2.2⟩

/-- The peers of a side are known peers of the account, the target apart. -/
theorem known_of_mem_side (h : p ∈ (side c t res groups checks).1) :
    Known a vp rp rr t p.id ∧ a.getPeer p.id = some p ∧ p.id ≠ t := by
  by_cases hr : res.IsPeer
  · obtain ⟨hn, hi⟩ := (mem_side_direct hr).mp h
    obtain ⟨hk, hp⟩ := (getPeerInfo_eq_some k).mp hi
    have hid := id_of_getPeer hp
    rw [hid]
    exact ⟨hk, hp, hn⟩
  · obtain ⟨-, hp, hv, hn⟩ := (mem_side_groups k hr).mp h
    exact ⟨((validate_eq_true k).mp hv).1, hp, hn⟩

/-- The peers a rule faces are among the components. -/
theorem known_of_mem_facing (h : p ∈ (sides c t pol rule).facing) :
    Known a vp rp rr t p.id ∧ a.getPeer p.id = some p ∧ p.id ≠ t := by
  rcases mem_facing.mp h with ⟨-, h⟩ | ⟨-, h⟩ <;> exact known_of_mem_side k h

/-- A peer named opposite the target faces it. -/
theorem mem_facing_of_direct (hp : a.getPeer q = some p) (hq : q ≠ t) (hk : Known a vp rp rr t q)
    (h : (InSources a vp t pol rule ∧ rule.destinationResource.IsPeer ∧
        rule.destinationResource.id = q) ∨
      (InDestinations a vp t rule ∧ rule.sourceResource.IsPeer ∧ rule.sourceResource.id = q)) :
    p ∈ (sides c t pol rule).facing := by
  have hi := (getPeerInfo_eq_some k).mpr ⟨hk, hp⟩
  rw [mem_facing]
  refine h.imp ?_ ?_ <;>
  · rintro ⟨hin, hr, rfl⟩
    exact ⟨side_found_of_stands k hin, (mem_side_direct hr).mpr ⟨hq, hi⟩⟩

end

/-! ## Results -/

section

variable {env : Env} {gu : UserMap}

/-- A target that is not validated gets no components. -/
theorem components_none (h : ¬ (t ∈ vp ∧ (a.getPeer t).isSome)) :
    getPeerNetworkMapComponents a t vp rp rr gu = .ok none := by
  grind [getPeerNetworkMapComponents]

/-- A map is computed from components for a validated peer of the account, and is
    empty for any other. -/
theorem map_cases (h : getPeerNetworkMapFromComponents env a t vp rp rr gu = .ok nm) :
    (¬ (t ∈ vp ∧ (a.getPeer t).isSome) ∧ nm = { network := a.network }) ∨
      ∃ c, getPeerNetworkMapComponents a t vp rp rr gu =
        .ok (some c) ∧ Knows a vp rp rr t c ∧ nm = calculate env c := by
  rw [getPeerNetworkMapFromComponents] at h
  by_cases hv : t ∈ vp ∧ (a.getPeer t).isSome
  · right
    cases hc : getPeerNetworkMapComponents a t vp rp rr gu with
    | error e => rw [hc] at h; cases h
    | ok oc =>
      rw [hc] at h
      cases oc with
      | some c => exact ⟨c, rfl, knows_of_ok hc, (Except.ok.inj h).symm⟩
      | none =>
        obtain ⟨hv, hp⟩ := hv
        obtain ⟨p, hp⟩ := Option.isSome_iff_exists.mp hp
        rw [getPeerNetworkMapComponents, hp] at hc
        simp only [hv, not_true_eq_false, if_false] at hc
        cases hg : filterGroupPeers
          (picked a vp rp rr t p.sshEnabled).groups
          (picked a vp rp rr t p.sshEnabled).peers <;>
          rw [hg] at hc <;> cases hc
  · rw [components_none hv] at h
    exact .inl ⟨hv, (Except.ok.inj h).symm⟩

end

/-! ## Peers of the map -/

/-- What policies give the target. -/
abbrev componentGen (env : Env) (c : NetworkMapComponents) (t : String) : FirewallRules.Gen :=
  (getPeerConnectionResources env c t).gen

section

variable {env : Env} (k : Knows a vp rp rr t c)

include k

/-- The rules of the components, as one fold over the active ones. -/
theorem connection_gen (ht : a.getPeer t = some tp) :
    componentGen env c t = (activeRules c.policies).foldl
        (fun s pr => generateRule env tp s pr.2 (sides c t pr.1 pr.2)) {} := by
  have hi : getPeerInfo c t = some tp := (getPeerInfo_eq_some k).mpr ⟨.inl rfl, ht⟩
  simp only [componentGen, getPeerConnectionResources, hi]
  exact foldl_connectRule_gen _ _

/-- The active rules of the components are those of the relevant policies. -/
theorem mem_activeRules_known :
    pr ∈ activeRules c.policies ↔ pr ∈ activeRules a.policies ∧ policyRelevant a vp t pr.1 := by
  rw [k.policies, mem_activeRules, mem_activeRules, mem_filter, and_right_comm]

/-- **The peers that policies connect the target to**: those facing it in some
    active rule of a relevant policy. -/
theorem mem_aclPeers : p ∈ (componentGen env c t).peers ↔
    ∃ pr ∈ activeRules a.policies, policyRelevant a vp t pr.1 ∧
      p ∈ (sides c t pr.1 pr.2).facing := by
  obtain ⟨tp, ht⟩ := k.target
  rw [connection_gen k ht, mem_foldl_generateRule_peers
    (U := fun p => a.getPeer p.id = some p) (fun p q hp hq h => eq_of_getPeer hp hq h)]
  · simp [mem_activeRules_known k, and_assoc]
  · intro pr _ q hq
    exact (known_of_mem_facing k hq).2.1
  · simp

/-- The address of every firewall rule is that of such a peer. -/
theorem origin_of_mem_firewallRules (h : fr ∈ (componentGen env c t).rules) :
    ∃ p ∈ (componentGen env c t).peers, fr.peerIP = p.ip := by
  obtain ⟨tp, ht⟩ := k.target
  rw [connection_gen k ht] at h
  rcases origin_of_mem_foldl_generateRule _ _ h with h | ⟨pr, hpr, p, hp, hi⟩
  · cases h
  · obtain ⟨hpr, hre⟩ := (mem_activeRules_known k).mp hpr
    exact ⟨p, (mem_aclPeers k).mpr ⟨pr, hpr, hre, hp⟩, hi⟩

end

end Calculate

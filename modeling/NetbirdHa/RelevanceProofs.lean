import NetbirdHa.CalculateProofs
import Mathlib.Data.List.TakeWhile

/-! # What the components know

Which peers, groups, policies and posture failures end up in the components
of a peer, in terms of the account.

The peer *stands* on a side of a rule if it is the peer that the side names,
or a usable member of the side's groups.  The components know the peer, the
peers on the side it does not stand on (`RulePeer`), and those that the
network resources bring in (`ResourcePeer`). -/

namespace Components

open Table AccountModel GroupPeers Connection Routes List Account AList

/-! ## Sides of a rule -/

section

variable (a : Account) (vp : Validated) (t : String) (res : Resource) (groups checks : List String)

/-- The peer stands on this side. -/
def Stands : Prop :=
  if res.IsPeer then res.id = t
  else t ∈ getUniquePeerIDsFromGroupsIDs a.getGroup groups ∧ Usable a vp checks t

/-- The peer is a source of the rule. -/
def InSources (pol : Policy) (rule : PolicyRule) : Prop :=
  Stands a vp t rule.sourceResource rule.sources pol.sourcePostureChecks

/-- The peer is a destination of the rule. -/
def InDestinations (rule : PolicyRule) : Prop :=
  Stands a vp t rule.destinationResource rule.destinations []

/-- The first pass finds `q` on this side. -/
def OnSide (q : String) : Prop :=
  if res.IsPeer then q = res.id
  else q ∈ getUniquePeerIDsFromGroupsIDs a.getGroup groups ∧ Usable a vp checks q ∧ q ≠ t

/-- A rule has the peer on one side and `q` on the other. -/
def RulePeer (t q : String) : Prop :=
  ∃ pr ∈ activeRules a.policies,
    (InSources a vp t pr.1 pr.2 ∧ OnSide a vp t pr.2.destinationResource pr.2.destinations [] q) ∨
    (InDestinations a vp t pr.2 ∧
      OnSide a vp t pr.2.sourceResource pr.2.sources pr.1.sourcePostureChecks q)

/-- A rule has the peer on one side and names `q` on the other. -/
def FacesDirectly (t q : String) : Prop :=
  ∃ pr ∈ activeRules a.policies,
    (InSources a vp t pr.1 pr.2 ∧
      pr.2.destinationResource.IsPeer ∧ pr.2.destinationResource.id = q) ∨
    (InDestinations a vp t pr.2 ∧ pr.2.sourceResource.IsPeer ∧ pr.2.sourceResource.id = q)

end

variable {a : Account} {vp : Validated} {rp : PolicyMap}
  {rr : Routers} {t q gid k : String} {groups checks : List String}
  {pol : Policy} {rule : PolicyRule} {p : Peer} {ssh : Bool} {policies : List Policy}
  {m : GoMap (Option Group)} {res : NetworkResource}

/-- The first scan finds the target exactly where it stands on the side. -/
theorem firstSide_found {res : Resource} :
    (firstSide a vp t res groups checks).found ↔ Stands a vp t res groups checks := by
  rw [firstSide, Stands]
  by_cases h : res.IsPeer
  · simp [h]
  · simp only [h, if_false]
    exact (tracks_getPeersFromGroups groups).found

/-- The peers a side contributes. -/
theorem mem_firstSide_filtered {res : Resource} :
    q ∈ (firstSide a vp t res groups checks).filtered ↔ OnSide a vp t res groups checks q := by
  rw [firstSide, OnSide]
  by_cases h : res.IsPeer
  · simp [h]
  · simp only [h, if_false]
    exact (tracks_getPeersFromGroups groups).filtered q

/-- The failures a scan records, each with the check that failed. -/
theorem mem_firstSide_failed {res : Resource} {c : String} :
    (c, q) ∈ (firstSide a vp t res groups checks).failed ↔
      ¬ res.IsPeer ∧ q ∈ seenLoop a.getGroup (groups.length = 1) groups [] ∧
        FailsAt a vp checks q c := by
  rw [firstSide]
  by_cases h : res.IsPeer
  · simp [h]
  · simp only [h, if_false, not_false_eq_true, true_and]
    exact (tracks_getPeersFromGroups groups).failed c q

theorem firstSources_found : (firstSources a vp t pol rule).found ↔ InSources a vp t pol rule :=
  firstSide_found

theorem firstDestinations_found :
    (firstDestinations a vp t rule).found ↔ InDestinations a vp t rule :=
  firstSide_found

/-- A rule contributes the peers on the side the target is not on. -/
theorem mem_rulePeerKeys : q ∈ rulePeerKeys a vp t pol rule ↔
    (InSources a vp t pol rule ∧ OnSide a vp t rule.destinationResource rule.destinations [] q) ∨
    (InDestinations a vp t rule ∧
      OnSide a vp t rule.sourceResource rule.sources pol.sourcePostureChecks q) := by
  rw [rulePeerKeys, mem_append, mem_ite_nil_right, mem_ite_nil_right,
    firstSources_found, firstDestinations_found]
  simp only [firstSources, firstDestinations, mem_firstSide_filtered]

/-- The peers of the first pass: the target, and whom some rule connects it with. -/
theorem mem_relevant_peers :
    q ∈ (getPeersGroupsPoliciesRoutes a vp t ssh).peers ↔ q = t ∨ RulePeer a vp t q := by
  simp [getPeersGroupsPoliciesRoutes, mem_insertAll, mem_rulePeerKeys, or_false, RulePeer]

/-- When a policy is kept for the target. -/
theorem policyRelevant_iff : policyRelevant a vp t pol ↔
    pol.enabled ∧ ∃ rule ∈ pol.rules, rule.enabled ∧
      (listsAccessGroup a rule ∨ InSources a vp t pol rule ∨ InDestinations a vp t rule) := by
  simp [policyRelevant, ruleRelevant, firstSources_found, firstDestinations_found, or_assoc]

/-- A rule the target stands on keeps its policy. -/
theorem relevant_of_sides (hpr : pr ∈ activeRules a.policies)
    (h : InSources a vp t pr.1 pr.2 ∨ InDestinations a vp t pr.2) : policyRelevant a vp t pr.1 := by
  obtain ⟨-, he, hr, hen⟩ := mem_activeRules.mp hpr
  exact policyRelevant_iff.mpr ⟨he, pr.2, hr, hen, .inr h⟩

/-- The group is one that the first pass looks up. -/
def RelevantGroup (a : Account) (vp : Validated) (t gid : String) : Prop :=
  gid ∈ a.getPeerGroups t ∨ (∃ r ∈ a.routes.entries, gid ∈ routeGroupIDs r) ∨
    ∃ pr ∈ activeRules a.policies,
      (listsAccessGroup a pr.2 ∧ (gid ∈ pr.2.sources ∨ gid ∈ pr.2.destinations)) ∨
      (InSources a vp t pr.1 pr.2 ∧ gid ∈ pr.2.destinations) ∨
      (InDestinations a vp t pr.2 ∧ gid ∈ pr.2.sources)

/-- The groups of the first pass. -/
theorem mem_relevant_groups :
    gid ∈ (getPeersGroupsPoliciesRoutes a vp t ssh).groups ↔ RelevantGroup a vp t gid := by
  simp only [getPeersGroupsPoliciesRoutes, mem_insertAll, mem_append, mem_flatMap,
    ruleGroupKeys, mem_ite_nil_right, firstSources_found, firstDestinations_found,
    notMem_empty, or_false, or_assoc, RelevantGroup]

/-! ## Network resources -/

section

variable (a : Account) (t : String) (router : Bool) (policies : List Policy)

/-- The policy of a resource lets the peer in as a client. -/
def admits (pol : Policy) : Bool :=
  peerInPolicySources a t pol && a.validatePostureChecksOnPeer pol.sourcePostureChecks t

/-- The failure written down when a policy does not let the peer in. -/
def policyFailure (pol : Policy) : List (String × String) :=
  let answer := a.validatePostureChecksOnPeerGetFailed pol.sourcePostureChecks t
  if peerInPolicySources a t pol && !answer.1 then [(answer.2, t)] else []

/-- The policies of a resource that apply to the peer: all for a router; for a
    client those from the first one on that lets it in. -/
def keptPolicies : List Policy :=
  if router then policies else policies.dropWhile (!admits a t ·)

/-- The policies whose sources become known. -/
def openedPolicies : List Policy :=
  if router then policies else (policies.dropWhile (!admits a t ·)).tail

/-- The policies before the first one that lets the peer in. -/
def closedPolicies : List Policy :=
  if router then [] else policies.takeWhile (!admits a t ·)

end

section

variable {rid : String}

/-- The first policy that admits the target opens the resource. -/
theorem buildPolicy_admits (b : Building) (h : admits a t pol) :
    buildPolicy a vp t rid policies (b, false) pol = (keepPolicy a rid policies b pol, true) := by
  rw [admits, Bool.and_eq_true] at h
  obtain ⟨p', hp', hf⟩ := checksOnPeer_eq_true.mp h.2
  simp [buildPolicy, h.1, Account.validatePostureChecksOnPeerGetFailed, hp', hf]

/-- A policy that does not admit the target leaves only its failure. -/
theorem buildPolicy_not_admits (hp : a.getPeer t = some p) (b : Building)
    (h : admits a t pol = false) : buildPolicy a vp t rid policies (b, false) pol =
      ({ b with failed := b.failed ++ policyFailure a t pol }, false) := by
  by_cases hs : peerInPolicySources a t pol
  · cases hf : a.firstFailed p pol.sourcePostureChecks with
    | none =>
      rw [admits, hs, checksOnPeer_eq_true.mpr ⟨p, hp, hf⟩] at h
      cases h
    | some c =>
      have hn := ne_empty_of_firstFailed hf
      simp [buildPolicy, policyFailure, hs, Account.validatePostureChecksOnPeerGetFailed, hp,
        hf, hn]
  · simp [buildPolicy, policyFailure, hs]

/-- Once the resource is open, every further policy is kept. -/
theorem foldl_buildPolicy_open (l : List Policy) (b : Building) :
    l.foldl (buildPolicy a vp t rid policies) (b, true) =
      (l.foldl (openPolicy a vp rid policies) b, true) := by
  induction l generalizing b with
  | nil => rfl
  | cons pol l ih => exact ih (openPolicy a vp rid policies b pol)

/-- The loop over the policies for a client: failures up to the policy that lets
    it in, then open policies. -/
theorem foldl_buildPolicy_client (hp : a.getPeer t = some p) (l : List Policy) :
    ∀ b : Building, l.foldl (buildPolicy a vp t rid policies) (b, false) =
      match l.dropWhile (!admits a t ·) with
      | [] => ({ b with failed := b.failed ++
          (l.takeWhile (!admits a t ·)).flatMap (policyFailure a t) }, false)
      | pol :: rest => (rest.foldl (openPolicy a vp rid policies)
          (keepPolicy a rid policies { b with failed := b.failed ++
            (l.takeWhile (!admits a t ·)).flatMap (policyFailure a t) } pol), true) := by
  induction l with
  | nil => intro b; simp
  | cons pol l ih =>
    intro b
    cases h : admits a t pol with
    | true =>
      rw [foldl_cons, buildPolicy_admits b h, foldl_buildPolicy_open]
      simp [h]
    | false =>
      rw [foldl_cons, buildPolicy_not_admits hp b h, ih]
      simp [h]

/-- The peers that pass the checks. -/
theorem mem_postureValid {l : List String} :
    q ∈ (getPostureValidPeersSaveFailed a vp checks l).1 ↔ q ∈ l ∧ Usable a vp checks q := by
  simp only [getPostureValidPeersSaveFailed, mem_map, mem_filter, Usable, decide_eq_true_eq]
  constructor
  · rintro ⟨e, ⟨⟨p, ⟨hp, hv⟩, rfl⟩, h⟩, rfl⟩
    rw [checksGetFailed_fst] at h
    exact ⟨hp, hv, h⟩
  · rintro ⟨hq, hv, h⟩
    exact ⟨_, ⟨⟨q, ⟨hq, hv⟩, rfl⟩, by rw [checksGetFailed_fst]; exact h⟩, rfl⟩

/-- The failures, each with the first check that failed. -/
theorem mem_postureFailed {l : List String} {c : String} :
    (c, q) ∈ (getPostureValidPeersSaveFailed a vp checks l).2 ↔
      q ∈ l ∧ q ∈ vp ∧ a.validatePostureChecksOnPeerGetFailed checks q = (false, c) := by
  simp only [getPostureValidPeersSaveFailed, mem_map, mem_filter, decide_eq_true_eq]
  grind

/-- The sources of a policy of a resource, over the account. -/
def accountSources (a : Account) (pol : Policy) : List String :=
  policySourcePeers (getUniquePeerIDsFromGroupsIDs a.getGroup) pol

section

variable (hp : a.getPeer t = some p) (b : Building) (router : Bool) (l : List Policy)

/-- The loop over the policies of one resource. -/
def buildPolicies (a : Account) (vp : Validated) (t rid : String) (policies : List Policy)
    (b : Building) (router : Bool) (l : List Policy) : Building × Bool :=
  l.foldl (buildPolicy a vp t rid policies) (b, router)

include hp

/-- The resource is open for its router, and for whom a policy admits. -/
theorem buildPolicies_flag :
    (buildPolicies a vp t rid policies b router l).2 = (router || l.any (admits a t)) := by
  rw [buildPolicies]
  cases router with
  | true => rw [foldl_buildPolicy_open]; rfl
  | false =>
    induction l generalizing b with
    | nil => rfl
    | cons pol l ih =>
      grind [admits, buildPolicy_admits, foldl_buildPolicy_open, buildPolicy_not_admits]

/-- A fact about the loop from what open policies, an admitting one and failures do. -/
theorem buildPolicies_iff (P : Building → Prop) (Open Keep : Policy → Prop)
    (ho : ∀ b pol, P (openPolicy a vp rid policies b pol) ↔ P b ∨ Open pol ∨ Keep pol)
    (hk : ∀ b pol, P (keepPolicy a rid policies b pol) ↔ P b ∨ Keep pol)
    (hf : ∀ b l, P { b with failed := b.failed ++ l } ↔ P b) :
    P (buildPolicies a vp t rid policies b router l).1 ↔
      P b ∨ (∃ pol ∈ openedPolicies a t router l, Open pol) ∨
        ∃ pol ∈ keptPolicies a t router l, Keep pol := by
  have hfo : ∀ (l : List Policy) (b : Building), P (l.foldl (openPolicy a vp rid policies) b) ↔
        P b ∨ (∃ pol ∈ l, Open pol) ∨ ∃ pol ∈ l, Keep pol := by
    intro l b
    rw [foldl_iff (Q := fun pol => Open pol ∨ Keep pol) ho]
    simp only [and_or_left, exists_or]
  rw [buildPolicies, openedPolicies, keptPolicies]
  cases router with
  | true =>
    rw [foldl_buildPolicy_open]
    exact hfo l b
  | false =>
    rw [foldl_buildPolicy_client hp]
    grind

/-- The sources of the policies met from the opening one on. -/
theorem mem_buildPolicies_peers : q ∈ (buildPolicies a vp t rid policies b router l).1.peers ↔
    q ∈ b.peers ∨ ∃ pol ∈ openedPolicies a t router l,
      q ∈ accountSources a pol ∧ Usable a vp pol.sourcePostureChecks q := by
  rw [buildPolicies_iff hp b router l (q ∈ ·.peers)
    (fun pol => q ∈ accountSources a pol ∧ Usable a vp pol.sourcePostureChecks q)
    (fun _ => False)]
  all_goals grind [openPolicy, keepPolicy, mem_insertNew, mem_postureValid, accountSources]

/-- The groups of the kept policies. -/
theorem mem_buildPolicies_groups : gid ∈ (buildPolicies a vp t rid policies b router l).1.groups ↔
    gid ∈ b.groups ∨ ∃ pol ∈ keptPolicies a t router l,
      gid ∈ policyGroupIDs pol ∧ (a.getGroup gid).isSome := by
  rw [buildPolicies_iff hp b router l (gid ∈ ·.groups) (fun _ => False)
    (fun pol => gid ∈ policyGroupIDs pol ∧ (a.getGroup gid).isSome)]
  all_goals grind [openPolicy, keepPolicy, mem_insertNew]

/-- The resource is entered when one of its policies is kept. -/
theorem mem_buildPolicies_resourcePoliciesMap :
    k ∈ (buildPolicies a vp t rid policies b router l).1.resourcePoliciesMap ↔
      k ∈ b.resourcePoliciesMap ∨ (keptPolicies a t router l ≠ [] ∧ k = rid) := by
  rw [buildPolicies_iff hp b router l (k ∈ ·.resourcePoliciesMap)
    (fun _ => False) (fun _ => k = rid)]
  · have he : (∃ pol, pol ∈ keptPolicies a t router l) ↔ keptPolicies a t router l ≠ [] :=
      ⟨fun ⟨_, h⟩ => ne_nil_of_mem h, exists_mem_of_ne_nil _⟩
    simp [exists_and_right, he]
  · intro b pol
    simp [openPolicy, keepPolicy, mem_insert, or_comm]
  · intro b pol
    simp [keepPolicy, mem_insert, or_comm]
  · intro b l
    rfl

omit hp in
/-- The loop does not touch the resources and the routers. -/
theorem buildPolicies_kept :
    (buildPolicies a vp t rid policies b router l).1.networkResources = b.networkResources ∧
      (buildPolicies a vp t rid policies b router l).1.routersMap = b.routersMap := by
  refine Prod.mk.inj (foldl_const (fun s : Building × Bool =>
    (s.1.networkResources, s.1.routersMap)) (fun s pol => ?_) l _)
  simp only [buildPolicy]
  repeat' split
  all_goals rfl

/-- The failures written down by the loop. -/
theorem buildPolicies_failed : (buildPolicies a vp t rid policies b router l).1.failed =
    b.failed ++ (closedPolicies a t router l).flatMap (policyFailure a t) ++
      (openedPolicies a t router l).flatMap (fun pol =>
        (getPostureValidPeersSaveFailed a vp pol.sourcePostureChecks
          (accountSources a pol)).2) := by
  have ho : ∀ (l : List Policy) (b : Building),
      (l.foldl (openPolicy a vp rid policies) b).failed = b.failed ++ l.flatMap (fun pol =>
        (getPostureValidPeersSaveFailed a vp pol.sourcePostureChecks (accountSources a pol)).2) :=
    foldl_append Building.failed fun b pol => rfl
  rw [buildPolicies, closedPolicies, openedPolicies]
  cases router with
  | true =>
    rw [foldl_buildPolicy_open]
    simp [ho]
  | false =>
    rw [foldl_buildPolicy_client hp]
    cases l.dropWhile (!admits a t ·) with
    | nil => simp
    | cons pol rest => simp [ho, keepPolicy]

end

end

/-! ## One resource -/

section

variable (a : Account) (vp : Validated) (rp : GoMap (List Policy))
  (rr : GoMap (GoMap NetworkRouter)) (t : String)

section

variable (res : NetworkResource)

/-- The peer routes the network of the resource. -/
def isRouterOf : Bool :=
  ((routingPeers rr res).lookup t).isSome

/-- The components keep the resource: the peer routes it, or some policy lets it in. -/
def keepsResource : Bool :=
  match rp.lookup res.id with
  | none => false
  | some policies => isRouterOf rr t res || policies.any (admits a t)

/-- The resource brings `q` in: as a validated routing peer, or as a usable source of a policy. -/
def ResourcePeer (q : String) : Prop :=
  ∃ policies, rp.lookup res.id = some policies ∧
    ((q ∈ routingPeers rr res ∧ q ∈ vp ∧ (a.getPeer q).isSome) ∨
      ∃ pol ∈ openedPolicies a t (isRouterOf rr t res) policies,
        q ∈ accountSources a pol ∧ Usable a vp pol.sourcePostureChecks q)

/-- The resource makes the group known. -/
def ResourceGroup (gid : String) : Prop :=
  ∃ policies, rp.lookup res.id = some policies ∧
    ∃ pol ∈ keptPolicies a t (isRouterOf rr t res) policies,
      gid ∈ policyGroupIDs pol ∧ (a.getGroup gid).isSome

/-- The failures that the resource writes down. -/
def resourceFailures : List (String × String) :=
  let policies := (rp.lookup res.id).getD []
  (closedPolicies a t (isRouterOf rr t res) policies).flatMap (policyFailure a t) ++
    (openedPolicies a t (isRouterOf rr t res) policies).flatMap (fun pol =>
      (getPostureValidPeersSaveFailed a vp pol.sourcePostureChecks (accountSources a pol)).2)

end

end

section

variable (b : Building) (res : NetworkResource)

/-- A resource without an entry is passed over. -/
theorem buildResource_none (h : rp.lookup res.id = none) :
    buildResource a vp t rp rr b res = b := by
  rw [buildResource, h]

/-- A resource with an entry is built from its policies. -/
theorem buildResource_some (h : rp.lookup res.id = some policies) :
    buildResource a vp t rp rr b res =
      let s := buildPolicies a vp t res.id policies b (isRouterOf rr t res) policies
      { s.1 with
        routersMap := s.1.routersMap.insert res.networkID (routingPeers rr res)
        routerPeers := insertNew a.getPeer (routingPeers rr res).keys s.1.routerPeers
        peers := insertNew
          (fun p => if p ∈ vp then (a.getPeer p).map some else none)
          (routingPeers rr res).keys s.1.peers
        networkResources := s.1.networkResources ++ if s.2 then [res] else [] } := by
  rw [buildResource, h]
  rfl

section

variable (hp : a.getPeer t = some p)

include hp

/-- A resource adds its peers. -/
theorem mem_buildResource_peers : q ∈ (buildResource a vp t rp rr b res).peers ↔
    q ∈ b.peers ∨ ResourcePeer a vp rp rr t res q := by
  cases h : rp.lookup res.id with
  | none => simp [buildResource_none b res h, ResourcePeer, h]
  | some policies =>
    rw [buildResource_some b res h]
    have hr : (if q ∈ vp then (a.getPeer q).map some else none).isSome ↔
        q ∈ vp ∧ (a.getPeer q).isSome := by
      split <;> simp_all
    simp only [mem_insertNew, mem_buildPolicies_peers hp, ResourcePeer, h, Option.some.injEq,
      exists_eq_left', hr, ← AList.mem_keys]
    rw [or_assoc, or_comm (a := ∃ pol, _)]

/-- A resource adds its groups. -/
theorem mem_buildResource_groups : gid ∈ (buildResource a vp t rp rr b res).groups ↔
    gid ∈ b.groups ∨ ResourceGroup a rp rr t res gid := by
  cases h : rp.lookup res.id with
  | none => simp [buildResource_none b res h, ResourceGroup, h]
  | some policies =>
    rw [buildResource_some b res h]
    simp [mem_buildPolicies_groups hp, ResourceGroup, h]

/-- A resource appends its failures. -/
theorem buildResource_failed :
    (buildResource a vp t rp rr b res).failed = b.failed ++ resourceFailures a vp rp rr t res := by
  cases h : rp.lookup res.id with
  | none => simp [buildResource_none b res h, resourceFailures, h, closedPolicies, openedPolicies]
  | some policies =>
    rw [buildResource_some b res h]
    simp [buildPolicies_failed hp, resourceFailures, h]

/-- A resource adds its own entry to the policies. -/
theorem mem_buildResource_resourcePoliciesMap :
    k ∈ (buildResource a vp t rp rr b res).resourcePoliciesMap ↔
      k ∈ b.resourcePoliciesMap ∨ (k = res.id ∧ ∃ policies, rp.lookup res.id = some policies ∧
          keptPolicies a t (isRouterOf rr t res) policies ≠ []) := by
  cases h : rp.lookup res.id with
  | none => simp [buildResource_none b res h]
  | some policies =>
    rw [buildResource_some b res h]
    simp [mem_buildPolicies_resourcePoliciesMap hp, and_comm]

/-- A resource is kept or left out. -/
theorem buildResource_networkResources : (buildResource a vp t rp rr b res).networkResources =
    b.networkResources ++ if keepsResource a rp rr t res then [res] else [] := by
  cases h : rp.lookup res.id with
  | none => simp [buildResource_none b res h, keepsResource, h]
  | some policies =>
    rw [buildResource_some b res h]
    simp only [buildPolicies_kept, buildPolicies_flag hp, keepsResource, h]

end

/-- A resource with policies adds its network's routers. -/
theorem mem_buildResource_routersMap : k ∈ (buildResource a vp t rp rr b res).routersMap ↔
    k ∈ b.routersMap ∨ (k = res.networkID ∧ (rp.lookup res.id).isSome) := by
  cases h : rp.lookup res.id with
  | none => simp [buildResource_none b res h]
  | some policies =>
    rw [buildResource_some b res h]
    simp [buildPolicies_kept, or_comm]

end

/-! ## Values

Under its keys a map of the components holds what the account holds. -/

/-- Every value is the account's. -/
structure Values (a : Account) (rp : GoMap (List Policy))
    (rr : GoMap (GoMap NetworkRouter)) (b : Building) : Prop where
  peers : ∀ q v, b.peers.lookup q = some v → v = a.getPeer q
  groups : ∀ gid v, b.groups.lookup gid = some v → v = a.getGroup gid
  policies : ∀ k v, b.resourcePoliciesMap.lookup k = some v → rp.lookup k = some v
  routersMap : ∀ k v, b.routersMap.lookup k = some v → v = (rr.lookup k).getD ∅
  routerPeers : ∀ q v, b.routerPeers.lookup q = some v → a.getPeer q = some v

section

variable {rid : String} {b : Building}

/-- A value of `insertNew` is an old one or the one of its key. -/
theorem of_lookup_insertNew {β : Type} {f : String → Option β} {ks : List String} {m : GoMap β}
    {v : β} (h : (insertNew f ks m).lookup k = some v) : m.lookup k = some v ∨ f k = some v := by
  rw [lookup_insertNew] at h
  rcases Option.or_eq_some_iff.mp h with h | ⟨-, h⟩
  · exact .inl h
  · exact .inr (Option.ite_none_right_eq_some.mp h).2

/-- Keeping a policy writes the account's own values. -/
theorem Values.keepPolicy (h : Values a rp rr b)
    (hr : rp.lookup rid = some policies) (pol : Policy) :
    Values a rp rr (keepPolicy a rid policies b pol) where
  peers := h.peers
  groups := by
    intro gid v hv
    rcases of_lookup_insertNew hv with hv | hv
    · exact h.groups gid v hv
    · obtain ⟨g, hg, rfl⟩ := Option.map_eq_some_iff.mp hv
      exact hg.symm
  policies := by
    intro k v hv
    rcases of_lookup_insert hv with ⟨rfl, rfl⟩ | ⟨-, hv⟩
    · exact hr
    · exact h.policies k v hv
  routersMap := h.routersMap
  routerPeers := h.routerPeers

/-- So does a policy of an open resource. -/
theorem Values.openPolicy (h : Values a rp rr b) (hr : rp.lookup rid = some policies)
    (pol : Policy) : Values a rp rr (openPolicy a vp rid policies b pol) := by
  rw [Components.openPolicy]
  refine Values.keepPolicy ?_ hr pol
  refine ⟨?_, h.groups, h.policies, h.routersMap, h.routerPeers⟩
  intro q v hv
  rcases of_lookup_insertNew hv with hv | hv
  · exact h.peers q v hv
  · exact (Option.some.inj hv).symm

/-- And a policy of a resource that may not be open yet. -/
theorem Values.buildPolicy {s : Building × Bool} (h : Values a rp rr s.1)
    (hr : rp.lookup rid = some policies) (pol : Policy) :
    Values a rp rr (buildPolicy a vp t rid policies s pol).1 := by
  simp only [Components.buildPolicy]
  split
  · exact h.openPolicy hr pol
  split
  · exact h
  · split
    · exact ⟨h.peers, h.groups, h.policies, h.routersMap, h.routerPeers⟩
    · exact h.keepPolicy hr pol

/-- A resource writes the account's own values. -/
theorem Values.buildResource (h : Values a rp rr b) (res : NetworkResource) :
    Values a rp rr (buildResource a vp t rp rr b res) := by
  cases hr : rp.lookup res.id with
  | none => rwa [buildResource_none b res hr]
  | some policies =>
    rw [buildResource_some b res hr]
    have hs : Values a rp rr
        (buildPolicies a vp t res.id policies b (isRouterOf rr t res) policies).1 :=
      foldl_invariant policies (b, isRouterOf rr t res)
        (P := fun s => Values a rp rr s.1)
        (fun s pol _ hs => hs.buildPolicy hr pol) h
    refine ⟨?_, hs.groups, hs.policies, ?_, ?_⟩
    · intro q v hv
      rcases of_lookup_insertNew hv with hv | hv
      · exact hs.peers q v hv
      · obtain ⟨-, hv⟩ := Option.ite_none_right_eq_some.mp hv
        obtain ⟨p, hp, rfl⟩ := Option.map_eq_some_iff.mp hv
        exact hp.symm
    · intro k v hv
      rcases of_lookup_insert hv with ⟨rfl, rfl⟩ | ⟨-, hv⟩
      · rfl
      · exact hs.routersMap k v hv
    · intro q v hv
      rcases of_lookup_insertNew hv with hv | hv
      · exact hs.routerPeers q v hv
      · exact hv

end

/-! ## Groups cut down to the known peers -/

/-- A group without the peers that are not known. -/
def cutGroup (peers : GoMap (Option Peer)) (g : Group) : Group :=
  { g with peers := g.peers.filter (· ∈ peers) }

/-- What `filterGroupPeers` leaves of an entry. -/
def cutEntry (peers : GoMap (Option Peer)) : Option (Option Group) → Option (Option Group)
  | some (some g) => if (cutGroup peers g).peers = [] then none else some (some (cutGroup peers g))
  | _ => none

section

variable {peers : GoMap (Option Peer)}

/-- Cutting one group leaves the others as they were. -/
theorem filterGroup_ok {m' : GoMap (Option Group)} (h : filterGroup peers m gid = .ok m') :
    m.lookup gid ≠ some none ∧ m'.lookup gid = cutEntry peers (m.lookup gid) ∧
      ∀ k, k ≠ gid → m'.lookup k = m.lookup k := by
  rw [filterGroup] at h
  cases hm : m.lookup gid with
  | none =>
    simp only [hm] at h
    cases h
    exact ⟨nofun, hm, fun _ _ => rfl⟩
  | some og =>
    cases og with
    | none =>
      simp only [hm] at h
      cases h
    | some g =>
      simp only [hm] at h
      refine ⟨nofun, ?_⟩
      simp only [cutEntry, cutGroup]
      split at h
      · next hnil =>
        cases h
        simp only [hnil, if_true]
        exact ⟨lookup_erase _ _, fun k hk => lookup_erase_ne hk⟩
      · next hnil =>
        simp only [hnil, if_false]
        split at h
        · cases h
          exact ⟨lookup_insert _, fun k hk => lookup_insert_ne hk⟩
        rename_i hl
        cases h
        refine ⟨?_, fun _ _ => rfl⟩
        rw [hm, filter_eq_self.mpr (length_filter_eq_length_iff.mp (not_not.mp hl))]

/-- Cutting several groups, by induction on their names. -/
theorem foldlM_filterGroup_ok : ∀ (ks : List String) (m m' : GoMap (Option Group)), ks.Nodup →
    ks.foldlM (filterGroup peers) m = .ok m' → (∀ k ∈ ks, m.lookup k ≠ some none) ∧
      ∀ k, m'.lookup k = if k ∈ ks then cutEntry peers (m.lookup k) else m.lookup k := by
  intro ks
  induction ks with
  | nil =>
    intro m m' _ h
    cases h
    exact ⟨nofun, fun k => rfl⟩
  | cons x ks ih =>
    intro m m' hn h
    rw [foldlM_cons] at h
    obtain ⟨hx, hn⟩ := nodup_cons.mp hn
    cases hs : filterGroup peers m x with
    | error e => rw [hs] at h; cases h
    | ok m1 =>
      rw [hs] at h
      obtain ⟨hne, hl, ho⟩ := filterGroup_ok hs
      obtain ⟨hks, hm'⟩ := ih m1 m' hn h
      refine ⟨?_, fun k => ?_⟩
      · rintro k (_ | ⟨_, hk⟩)
        · exact hne
        · rw [← ho k (fun he => hx (he ▸ hk))]
          exact hks k hk
      · rw [hm' k]
        by_cases hkx : k = x
        · subst hkx
          rw [if_neg hx, if_pos mem_cons_self, hl]
        · rw [ho k hkx]
          simp [hkx]

/-- `filterGroupPeers` fails on a nil group only; otherwise it cuts every group. -/
theorem filterGroupPeers_ok {m' : GoMap (Option Group)} (h : filterGroupPeers m peers = .ok m') :
    (∀ k, m.lookup k ≠ some none) ∧ ∀ k, m'.lookup k = cutEntry peers (m.lookup k) := by
  obtain ⟨hne, hl⟩ := foldlM_filterGroup_ok m.keys m m' m.nodupKeys h
  constructor
  · intro k hk
    exact hne k (mem_keys.mp (lookup_isSome.mp (by simp [hk]))) hk
  · intro k
    rw [hl k]
    split
    · rfl
    rename_i hk
    have hn : m.lookup k = none := lookup_eq_none.mpr fun h => hk (mem_keys.mp h)
    rw [hn]
    rfl

/-- Only an empty entry makes the cut fail. -/
theorem filterGroup_isOk (h : m.lookup gid ≠ some none) :
    ∃ m', filterGroup peers m gid = .ok m' := by
  rw [filterGroup]
  cases hm : m.lookup gid with
  | none => exact ⟨_, rfl⟩
  | some og =>
    cases og with
    | none => exact absurd hm h
    | some g => exact ⟨_, rfl⟩

theorem foldlM_filterGroup_isOk : ∀ (ks : List String) (m : GoMap (Option Group)), ks.Nodup →
    (∀ k ∈ ks, m.lookup k ≠ some none) → ∃ m', ks.foldlM (filterGroup peers) m = .ok m' := by
  intro ks
  induction ks with
  | nil => intro m _ _; exact ⟨m, rfl⟩
  | cons x ks ih =>
    intro m hn hks
    obtain ⟨hx, hn⟩ := nodup_cons.mp hn
    obtain ⟨m1, hm⟩ := @filterGroup_isOk x m peers (hks x mem_cons_self)
    obtain ⟨-, -, ho⟩ := filterGroup_ok hm
    obtain ⟨m', hm'⟩ := ih m1 hn (fun k hk => by
      rw [ho k (fun he => hx (he ▸ hk))]
      exact hks k (mem_cons_of_mem x hk))
    exact ⟨m', by rw [foldlM_cons, hm]; exact hm'⟩

theorem filterGroupPeers_isOk (h : ∀ k, m.lookup k ≠ some none) :
    ∃ m', filterGroupPeers m peers = .ok m' :=
  foldlM_filterGroup_isOk m.keys m m.nodupKeys fun k _ => h k

end

/-! ## The components -/

section

variable (a : Account) (vp : Validated) (rp : PolicyMap) (rr : Routers) (t : String)

/-- The components of `t` know the peer `q`. -/
def Known (q : String) : Prop :=
  q = t ∨ RulePeer a vp t q ∨
    ∃ res ∈ a.networkResources.filter (·.enabled), ResourcePeer a vp rp rr t res q

/-- The components of `t` know the group, if it has a known peer. -/
def KnownGroup (gid : String) : Prop :=
  RelevantGroup a vp t gid ∨
    ∃ res ∈ a.networkResources.filter (·.enabled), ResourceGroup a rp rr t res gid

/-- The failure is written down while the components are picked. -/
def Failure (check q : String) : Prop :=
  (∃ pr ∈ activeRules a.policies, (check, q) ∈ ruleFailures a vp t pr.1 pr.2) ∨
    ∃ res ∈ a.networkResources.filter (·.enabled), (check, q) ∈ resourceFailures a vp rp rr t res

/-- What is to be known about the components of `t`. -/
structure Knows (c : NetworkMapComponents) : Prop where
  target : ∃ p, a.getPeer t = some p
  isValidated : t ∈ vp
  peerID : c.peerID = t
  network : c.network = a.network
  settings : c.settings = a.settings
  routes : c.routes = a.routes.entries
  policies : c.policies = a.policies.filter (policyRelevant a vp t)
  peers : ∀ q, q ∈ c.peers ↔ Known a vp rp rr t q
  peersValue : ∀ q v, c.peers.lookup q = some v → v = a.getPeer q
  routerPeers : ∀ q v, c.routerPeers.lookup q = some v → a.getPeer q = some v
  groupsExist : ∀ gid, KnownGroup a vp rp rr t gid → ∃ g, a.getGroup gid = some g
  groups : ∀ gid g', Calculate.getGroupInfo c gid = some g' ↔
    KnownGroup a vp rp rr t gid ∧ ∃ g, a.getGroup gid = some g ∧
      (cutGroup c.peers g).peers ≠ [] ∧ g' = cutGroup c.peers g
  resources : c.networkResources = (a.networkResources.filter (·.enabled)).filter
    (keepsResource a rp rr t)
  policiesOf : ∀ res ∈ c.networkResources,
    Calculate.policiesOf c res.id = (rp.lookup res.id).getD []
  routersMap : ∀ res ∈ c.networkResources,
    c.routersMap.lookup res.networkID = some (routingPeers rr res)
  failed : ∀ check q, (check, q) ∈ c.postureFailedPeers ↔
    Failure a vp rp rr t check q ∧
      check ∈ referencedChecks c.policies c.resourcePoliciesMap ∧ Known a vp rp rr t q

end

/-- The peers that a rule connects the target with are known. -/
theorem known_of_usable {r : Resource} (hr : ¬ r.IsPeer)
    (hs : OnSide a vp t r groups checks q → RulePeer a vp t q)
    (hq : q ∈ getUniquePeerIDsFromGroupsIDs a.getGroup groups) (hu : Usable a vp checks q) :
    Known a vp rp rr t q := by
  by_cases hqt : q = t
  · exact .inl hqt
  · refine .inr (.inl (hs ?_))
    rw [OnSide, if_neg hr]
    exact ⟨hq, hu, hqt⟩

variable (a vp rp rr t ssh) in
/-- What is picked for the target before the groups are cut down. -/
abbrev picked : Building :=
  build a vp t rp rr (getPeersGroupsPoliciesRoutes a vp t ssh)

/-- What is picked has the account's own values. -/
theorem values_build : Values a rp rr (picked a vp rp rr t ssh) := by
  refine foldl_invariant _ _ (fun b res _ hb => hb.buildResource res) ?_
  refine ⟨?_, ?_, nofun, nofun, nofun⟩
  all_goals
    intro k v hv
    simp only [getPeersGroupsPoliciesRoutes, lookup_insertAll] at hv
    split at hv
    · exact (Option.some.inj hv).symm
    · cases hv

/-- When a resource is kept. -/
theorem keepsResource_eq_true : keepsResource a rp rr t res ↔
    ∃ policies, rp.lookup res.id = some policies ∧
      (isRouterOf rr t res ∨ ∃ pol ∈ policies, admits a t pol) := by
  rw [keepsResource]
  cases rp.lookup res.id <;> simp

/-- A resource that is kept has kept policies, if it has policies at all. -/
theorem keptPolicies_ne_nil (hn : policies ≠ [])
    (h : isRouterOf rr t res ∨ ∃ pol ∈ policies, admits a t pol) :
    keptPolicies a t (isRouterOf rr t res) policies ≠ [] := by
  rw [keptPolicies]
  rcases h with h | ⟨pol, hpo, ha⟩
  · rw [if_pos h]
    exact hn
  split
  · exact hn
  · intro hnil
    have := dropWhile_eq_nil_iff.mp hnil pol hpo
    simp [ha] at this

/-- A kept resource's routers are the account's. -/
theorem build_routersMap (hr : res ∈ a.networkResources.filter (·.enabled))
    (h : keepsResource a rp rr t res) :
    (picked a vp rp rr t ssh).routersMap.lookup res.networkID = some (routingPeers rr res) := by
  obtain ⟨policies, hpo, -⟩ := keepsResource_eq_true.mp h
  have hm : res.networkID ∈ (picked a vp rp rr t ssh).routersMap := by
    rw [picked, build, foldl_iff (P := fun b => res.networkID ∈ Building.routersMap b)
      (fun b res => mem_buildResource_routersMap b res)]
    exact .inr ⟨res, hr, rfl, by simp [hpo]⟩
  obtain ⟨v, hv⟩ := exists_lookup_of_mem hm
  rw [hv, values_build.routersMap res.networkID v hv]
  rfl

variable (hp : a.getPeer t = some p)

include hp

/-- The peers of the components, in the account's terms. -/
theorem mem_build_peers : q ∈ (picked a vp rp rr t ssh).peers ↔ Known a vp rp rr t q := by
  rw [picked, build, foldl_iff (P := fun b => q ∈ Building.peers b)
    (fun b res => mem_buildResource_peers b res hp)]
  show q ∈ (getPeersGroupsPoliciesRoutes a vp t ssh).peers ∨ _ ↔ _
  rw [mem_relevant_peers, or_assoc]
  rfl

/-- The groups of the components, in the account's terms. -/
theorem mem_build_groups :
    gid ∈ (picked a vp rp rr t ssh).groups ↔ KnownGroup a vp rp rr t gid := by
  rw [picked, build, foldl_iff (P := fun b => gid ∈ Building.groups b)
    (fun b res => mem_buildResource_groups b res hp)]
  show gid ∈ (getPeersGroupsPoliciesRoutes a vp t ssh).groups ∨ _ ↔ _
  rw [mem_relevant_groups]
  rfl

/-- The failures of the components, in the account's terms. -/
theorem mem_build_failed {check : String} :
    (check, q) ∈ (picked a vp rp rr t ssh).failed ↔ Failure a vp rp rr t check q := by
  rw [picked, build, foldl_append Building.failed (fun b res => buildResource_failed b res hp)]
  simp [getPeersGroupsPoliciesRoutes, Failure]

/-- The resources of the components, in the account's terms. -/
theorem build_networkResources : (picked a vp rp rr t ssh).networkResources =
    (a.networkResources.filter (·.enabled)).filter (keepsResource a rp rr t) := by
  rw [picked, build, foldl_append Building.networkResources
    (fun b res => buildResource_networkResources b res hp)]
  simp only [nil_append]
  induction a.networkResources.filter (·.enabled) with
  | nil => rfl
  | cons res l ih =>
    rw [flatMap_cons, filter_cons, ih]
    split <;> rfl

/-- A kept resource's policies are the account's. -/
theorem build_policiesOf
    (hr : res ∈ a.networkResources.filter (·.enabled)) (h : keepsResource a rp rr t res) :
    ((picked a vp rp rr t ssh).resourcePoliciesMap.lookup res.id).getD [] =
      (rp.lookup res.id).getD [] := by
  obtain ⟨policies, hpo, hk⟩ := keepsResource_eq_true.mp h
  cases hb : (picked a vp rp rr t ssh).resourcePoliciesMap.lookup res.id with
  | some v => rw [values_build.policies res.id v hb]
  | none =>
    rw [hpo]
    by_contra hne
    have hm : res.id ∈ (picked a vp rp rr t ssh).resourcePoliciesMap := by
      rw [picked, build, foldl_iff (P := fun b => res.id ∈ Building.resourcePoliciesMap b)
        (fun b res => mem_buildResource_resourcePoliciesMap b res hp)]
      exact .inr ⟨res, hr, rfl, policies, hpo,
        keptPolicies_ne_nil (fun hnil => hne (by rw [hnil]; rfl)) hk⟩
    exact lookup_eq_none.mp hb hm

/-- A known group, and whether something of it is left. -/
theorem build_group {groups : GoMap (Option Group)}
    (h : filterGroupPeers (picked a vp rp rr t ssh).groups
        (picked a vp rp rr t ssh).peers = .ok groups) (gid : String) (g' : Group) :
    (groups.lookup gid).join = some g' ↔
      KnownGroup a vp rp rr t gid ∧ ∃ g, a.getGroup gid = some g ∧
        (cutGroup (picked a vp rp rr t ssh).peers g).peers ≠ [] ∧
        g' = cutGroup (picked a vp rp rr t ssh).peers g := by
  obtain ⟨hn, hl⟩ := filterGroupPeers_ok h
  have hk := @mem_build_groups a vp rp rr t gid p ssh hp
  rw [hl, ← hk]
  cases hb : (picked a vp rp rr t ssh).groups.lookup gid with
  | none => simp [cutEntry, lookup_eq_none.mp hb]
  | some v =>
    have hm := mem_of_lookup hb
    cases v with
    | none => exact absurd hb (hn gid)
    | some g =>
      rw [← values_build.groups gid _ hb, cutEntry]
      split
      · simp_all
      · next hc => simp [hm, hc, eq_comm]

omit hp in
/-- **What the components know.** -/
theorem knows_of_ok {gu : UserMap} {c : NetworkMapComponents}
    (h : getPeerNetworkMapComponents a t vp rp rr gu = .ok (some c)) : Knows a vp rp rr t c := by
  rw [getPeerNetworkMapComponents] at h
  cases hp : a.getPeer t with
  | none => rw [hp] at h; cases h
  | some p =>
    rw [hp] at h
    by_cases hv : t ∈ vp
    · simp only [hv, not_true_eq_false, if_false] at h
      cases hg : filterGroupPeers
        (picked a vp rp rr t p.sshEnabled).groups (picked a vp rp rr t p.sshEnabled).peers with
      | error e => rw [hg] at h; cases h
      | ok groups =>
        rw [hg] at h
        obtain rfl := Option.some.inj (Except.ok.inj h)
        have hre := @build_networkResources a vp rp rr t p p.sshEnabled hp
        exact
          { target := ⟨p, hp⟩
            isValidated := hv
            peerID := rfl
            network := rfl
            settings := rfl
            routes := rfl
            policies := rfl
            peers := fun q => mem_build_peers hp
            peersValue := values_build.peers
            routerPeers := values_build.routerPeers
            groupsExist := fun gid hk => by
              obtain ⟨v, hv⟩ := exists_lookup_of_mem ((mem_build_groups hp).mpr hk)
              cases v with
              | none => exact absurd hv ((filterGroupPeers_ok hg).1 gid)
              | some g => exact ⟨g, (values_build.groups gid _ hv).symm⟩
            groups := build_group hp hg
            resources := hre
            policiesOf := fun res hr => by
              obtain ⟨h1, h2⟩ := mem_filter.mp (hre ▸ hr)
              exact build_policiesOf hp h1 h2
            routersMap := fun res hr => by
              obtain ⟨h1, h2⟩ := mem_filter.mp (hre ▸ hr)
              exact build_routersMap h1 h2
            failed := fun check q => by
              simp only [filterPostureFailedPeers, mem_filter, Bool.and_eq_true,
                decide_eq_true_eq, mem_build_failed hp, mem_build_peers hp] }
    · simp only [hv, not_false_eq_true, if_true] at h
      cases h

/-- The components are there for a validated peer, unless a known group is missing. -/
theorem components_isOk {gu : UserMap}
    (hv : t ∈ vp) (hgr : ∀ gid, KnownGroup a vp rp rr t gid → ∃ g, a.getGroup gid = some g) :
    ∃ c, getPeerNetworkMapComponents a t vp rp rr gu = .ok (some c) := by
  have hn : ∀ gid, (picked a vp rp rr t p.sshEnabled).groups.lookup gid ≠ some none := by
    intro gid hgi
    have hm := mem_of_lookup hgi
    obtain ⟨g, hg⟩ := hgr gid ((mem_build_groups hp).mp hm)
    cases (values_build.groups gid _ hgi).trans hg
  obtain ⟨groups, ho⟩ := filterGroupPeers_isOk hn
  rw [getPeerNetworkMapComponents, hp]
  simp only [hv, not_true_eq_false, if_false]
  exact ⟨_, by rw [ho]; rfl⟩

end Components

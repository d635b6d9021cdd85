import NetbirdHa.BuilderMapProofs
import NetbirdHa.RouteRuleAgreementProofs

/-! # A new builder and the account agree on policies

The builder is meant to return what `Account.GetPeerNetworkMap` returns.  For
the peers and firewall rules that policies give, it does so away from these
blind spots (`RulesClear`):

* the posture checks of a policy are asked of the target on whichever side it
  stands, and even if a rule names it;
* a group named "All" does not end the walk over groups;
* embedded peers count;
* a rule that names the target opposite itself connects it to itself;
* disabled rules of enabled policies count;
* a named peer that is not validated is left out of the map at the end.

Both computations face the target with the same peers then (`same_steps`). -/

namespace Builder

open Table AccountModel GroupPeers FirewallRules Connection Routes LegacyMap List Account Agreement

/-- One side of a rule, with the posture checks that its members have to pass. -/
structure RuleSide where
  res : Resource
  groups : List String
  checks : List String

/-- The source of a rule, with the policy's checks. -/
def sourceSide (pol : Policy) (rule : PolicyRule) : RuleSide :=
  ⟨rule.sourceResource, rule.sources, pol.sourcePostureChecks⟩

/-- The destination of a rule, which is not checked. -/
def destinationSide (rule : PolicyRule) : RuleSide :=
  ⟨rule.destinationResource, rule.destinations, []⟩

/-- The sides of a rule, as a peer on the first faces those on the second. -/
def orientations (pol : Policy) (rule : PolicyRule) : List (RuleSide × RuleSide) :=
  [(sourceSide pol rule, destinationSide rule), (destinationSide rule, sourceSide pol rule)]

section

variable (a : Account) (vp : Validated) (t : String)

/-- The side names the target, or has it as a member that passes the checks. -/
def Stood (s : RuleSide) : Prop :=
  if s.res.IsPeer then s.res.id = t
  else InGroups a.getGroup s.groups t ∧ a.validatePostureChecksOnPeer s.checks t
deriving Decidable

/-- The side has the target among its members, or names it. -/
def Reaches (s : RuleSide) : Prop :=
  InGroups a.getGroup s.groups t ∨ (s.res.IsPeer ∧ s.res.id = t)
deriving Decidable

/-- The side names the peer, or has it as a member that counts. -/
def Lists (s : RuleSide) (x : Peer) : Prop :=
  if s.res.IsPeer then a.getPeer s.res.id = some x
  else InGroups a.getGroup s.groups x.id ∧ a.getPeer x.id = some x ∧ x.id ≠ t ∧
    Usable a vp s.checks x.id
deriving Decidable

/-- An active rule has the target on one side and the peer on the other. -/
def Faced (x : Peer) : Prop :=
  ∃ pr ∈ activeRules a.policies, ∃ s ∈ orientations pr.1 pr.2, Stood a t s.1 ∧ Lists a vp t s.2 x
deriving Decidable

/-- The target on its own side and a peer opposite count for both computations. -/
@[mk_iff]
structure FacedClear (tp : Peer) (pol : Policy) (own other : RuleSide) (x : Peer) : Prop where
  posture : a.validatePostureChecksOnPeer pol.sourcePostureChecks t
  own : ¬ own.res.IsPeer → t ∈ getUniquePeerIDsFromGroupsIDs a.getGroup own.groups ∧
    tp.embedded = false
  other : ¬ other.res.IsPeer → x.id ∈ getUniquePeerIDsFromGroupsIDs a.getGroup other.groups ∧
    x.embedded = false
  ne : x.id ≠ t
  validated : x.id ∈ vp

instance FacedClear.decidable (tp : Peer) (pol : Policy) (own other : RuleSide) (x : Peer) :
    Decidable (FacedClear a vp t tp pol own other x) :=
  decidable_of_iff _ (facedClear_iff ..).symm

/-- Policies are read alike: whoever faces the target counts for both, and nobody
    faces it in a disabled rule that the builder comes to. -/
structure RulesClear (tp : Peer) : Prop where
  faced : ∀ pr ∈ activeRules a.policies, ∀ s ∈ orientations pr.1 pr.2, Stood a t s.1 →
    ∀ x ∈ a.peers.entries, Lists a vp t s.2 x → FacedClear a vp t tp pr.1 s.1 s.2 x
  disabled : ∀ pol ∈ a.policies, pol.enabled → Visits a t pol →
    a.validatePostureChecksOnPeer pol.sourcePostureChecks t →
      ∀ rule ∈ pol.rules, rule.enabled = false → ∀ s ∈ orientations pol rule, Stood a t s.1 →
        ∀ x ∈ a.peers.entries, ¬ Lists a vp t s.2 x

end

/-! ## One rule -/

section

variable {a : IndexedAccount} {g : UserMap} {vp : Validated} {t : String}
  {tp x : Peer} {pol : Policy} {rule : PolicyRule}

theorem getPeer_of_lists (h : Lists a vp t s x) : a.getPeer x.id = some x := by
  rw [Lists] at h
  split at h
  · rwa [id_of_getPeer h]
  · exact h.2.1

theorem RulesClear.facedClear (h : RulesClear a vp t tp) (hp : (pol, rule) ∈ activeRules a.policies)
    (hs : s ∈ orientations pol rule) (hst : Stood a t s.1) (hl : Lists a vp t s.2 x) :
    FacedClear a vp t tp pol s.1 s.2 x :=
  h.faced _ hp s hs hst x (Keyed.mem_of_get (getPeer_of_lists hl)) hl

/-- What the account finds on two sides. -/
theorem legacy_sides_iff (own other : RuleSide) (ht : a.getPeer t = some tp) (hv : t ∈ vp)
    (hc : Stood a t own → Lists a vp t other x → FacedClear a vp t tp pol own other x) :
    (LegacyMap.side a vp t own.res own.groups own.checks).2 ∧
        x ∈ (LegacyMap.side a vp t other.res other.groups other.checks).1 ↔
      Stood a t own ∧ Lists a vp t other x := by
  constructor
  · rintro ⟨hf, hx⟩
    constructor
    · rw [Stood]
      split
      · next hr => exact (LegacyMap.side_direct_found hr (by simp [ht])).mp hf
      · next hr =>
        obtain ⟨hm, -, hu⟩ := (LegacyMap.side_groups_found hr ht).mp hf
        exact ⟨inGroups_of_mem_unique hm, hu.2⟩
    · rw [Lists]
      split
      · next hr => exact ((LegacyMap.mem_side_direct hr).mp hx).2
      grind [LegacyMap.mem_side_groups, inGroups_of_mem_unique]
  · rintro ⟨hs, hl⟩
    have h := hc hs hl
    rw [Stood] at hs
    rw [Lists] at hl
    constructor
    · split at hs
      · next hr => exact (LegacyMap.side_direct_found hr (by simp [ht])).mpr hs
      · next hr =>
        obtain ⟨hm, he⟩ := h.own hr
        exact (LegacyMap.side_groups_found hr ht).mpr ⟨hm, he, hv, hs.2⟩
    · split at hl
      · next hr =>
        refine (LegacyMap.mem_side_direct hr).mpr ⟨?_, hl⟩
        rw [← id_of_getPeer hl]
        exact h.ne
      · next hr =>
        obtain ⟨-, hp, hn, hu⟩ := hl
        obtain ⟨hm, he⟩ := h.other hr
        exact (LegacyMap.mem_side_groups hr).mpr ⟨hm, hp, he, hu, hn⟩

/-- What the builder finds there, for a target that passes the checks. -/
theorem builder_sides_iff (own other : RuleSide) (hg : t ∉ own.groups)
    (hp : a.validatePostureChecksOnPeer own.checks t) :
    (side (idx a g) a vp t own.res own.groups own.checks).2 ∧
        x ∈ (side (idx a g) a vp t other.res other.groups other.checks).1 ↔
      Stood a t own ∧ Lists a vp t other x := by
  grind [Stood, side_groups_found, Lists, mem_side_groups, side]

theorem source_mem_orientations :
    (sourceSide pol rule, destinationSide rule) ∈ orientations pol rule := mem_cons_self

theorem destination_mem_orientations :
    (destinationSide rule, sourceSide pol rule) ∈ orientations pol rule :=
  mem_cons_of_mem _ mem_cons_self

theorem mem_orientations : s ∈ orientations pol rule ↔
    s = (sourceSide pol rule, destinationSide rule) ∨
      s = (destinationSide rule, sourceSide pol rule) := by
  rw [orientations, mem_pair]

theorem reaches_of_stood (hs : Stood a t s) : Reaches a t s := by
  rw [Stood] at hs
  split at hs
  · next hr => exact .inr ⟨hr, hs⟩
  · exact .inl hs.1

/-- A target that stands in an active rule comes to it. -/
theorem visits_of_stood (hp : (pol, rule) ∈ activeRules a.policies)
    (hs : s ∈ orientations pol rule) (hst : Stood a t s.1) : Visits a t pol := by
  refine visits_of_active hp ?_
  rcases mem_orientations.mp hs with rfl | rfl
  · rcases reaches_of_stood hst with hin | ⟨hr, hi⟩
    · exact .inl hin
    · exact .inr (.inr (mem_namedPeers.mpr (.inl ⟨hr, hi.symm⟩)))
  · rcases reaches_of_stood hst with hin | ⟨hr, hi⟩
    · exact .inr (.inl hin)
    · exact .inr (.inr (mem_namedPeers.mpr (.inr ⟨hr, hi.symm⟩)))

/-- If it faces somebody there, it passes the checks, too. -/
theorem visited_of_faced (hc : RulesClear a vp t tp) (hpr : (pol, rule) ∈ activeRules a.policies)
    {s : RuleSide × RuleSide} (hs : s ∈ orientations pol rule) (hst : Stood a t s.1)
    (hl : Lists a vp t s.2 x) : (pol, rule) ∈ visitedRules (idx a g) a t := by
  obtain ⟨hp, he, hr, -⟩ := mem_activeRules.mp hpr
  exact mem_visitedRules.mpr ⟨hp, he, hr, (hc.facedClear hpr hs hst hl).posture,
    visits_of_stood hpr hs hst⟩

/-- Nobody faces the target in a disabled rule that the builder comes to. -/
theorem active_of_faced (hc : RulesClear a vp t tp)
    (hvi : (pol, rule) ∈ visitedRules (idx a g) a t) (hs : s ∈ orientations pol rule)
    (hst : Stood a t s.1) (hl : Lists a vp t s.2 x) : (pol, rule) ∈ activeRules a.policies := by
  obtain ⟨hpo, he, hr, hp, hv⟩ := mem_visitedRules.mp hvi
  refine mem_activeRules.mpr ⟨hpo, he, hr, ?_⟩
  cases hre : rule.enabled with
  | true => rfl
  | false =>
    exact absurd hl (hc.disabled pol hpo he hv hp rule hr hre s hs hst x
      (Keyed.mem_of_get (getPeer_of_lists hl)))

/-- What the builder finds in a rule that it comes to. -/
theorem builder_facing (ht : a.getPeer t = some tp)
    (hv : (pol, rule) ∈ visitedRules (idx a g) a t) :
    (x ∈ (sides (idx a g) a vp t pol rule).facingDestinations ↔ Stood a t (sourceSide pol rule) ∧
        Lists a vp t (destinationSide rule) x) ∧
    (x ∈ (sides (idx a g) a vp t pol rule).facingSources ↔
      Stood a t (destinationSide rule) ∧ Lists a vp t (sourceSide pol rule) x) := by
  obtain ⟨hpo, -, hr, hp, -⟩ := mem_visitedRules.mp hv
  obtain ⟨hs, hd⟩ := notMem_sources ht hpo hr
  rw [mem_facingDestinations, mem_facingSources]
  exact ⟨builder_sides_iff (sourceSide pol rule) (destinationSide rule) hs hp,
    builder_sides_iff (destinationSide rule) (sourceSide pol rule) hd (checksOnPeer_nil ht)⟩

/-- What the account finds in an active rule. -/
theorem legacy_facing (ht : a.getPeer t = some tp) (hv : t ∈ vp)
    (hc : RulesClear a vp t tp) (hp : (pol, rule) ∈ activeRules a.policies) :
    (x ∈ (LegacyMap.sides a vp t pol rule).facingDestinations ↔ Stood a t (sourceSide pol rule) ∧
        Lists a vp t (destinationSide rule) x) ∧
    (x ∈ (LegacyMap.sides a vp t pol rule).facingSources ↔
      Stood a t (destinationSide rule) ∧ Lists a vp t (sourceSide pol rule) x) := by
  rw [mem_facingDestinations, mem_facingSources]
  exact ⟨legacy_sides_iff (sourceSide pol rule) (destinationSide rule) ht hv
      fun hs hl => hc.facedClear hp source_mem_orientations hs hl,
    legacy_sides_iff (destinationSide rule) (sourceSide pol rule) ht hv
      fun hs hl => hc.facedClear hp destination_mem_orientations hs hl⟩

end

/-! ## All rules -/

section

variable {env : Env} {a : IndexedAccount} {g : UserMap} {vp : Validated} {t : String} {tp x : Peer}

/-- The steps of the account. -/
abbrev legacySteps (a : Account) (vp : Validated) (t : String) :
    List (PolicyRule × Direction × Peer) :=
  (activeRules a.policies).flatMap fun pr => genSteps pr.2 (LegacyMap.sides a vp t pr.1 pr.2)

/-- The steps of the builder. -/
abbrev builderSteps (a : Account) (g : GoMap (List String)) (vp : Validated) (t : String) :
    List (PolicyRule × Direction × Peer) :=
  (visitedRules (buildGlobalIndexes a g) a t).flatMap fun pr =>
    genSteps pr.2 (sides (buildGlobalIndexes a g) a vp t pr.1 pr.2)

/-- The rule and the peer of a step are of the account. -/
theorem known_of_builderStep (hs : s ∈ builderSteps a g vp t) :
    s.1 ∈ a.policies.flatMap Policy.rules ∧ a.getPeer s.2.2.id = some s.2.2 := by
  obtain ⟨⟨pol, rule⟩, hv, hs⟩ := mem_flatMap.mp hs
  obtain ⟨hpo, -, hru, -⟩ := mem_visitedRules.mp hv
  obtain ⟨hr, hx⟩ := mem_genSteps.mp hs
  rw [hr]
  refine ⟨mem_flatMap.mpr ⟨pol, hpo, hru⟩, ?_⟩
  rcases hx with ⟨hx, -⟩ | ⟨hx, -⟩
  · exact getPeer_of_mem_facing (mem_append_left _ hx)
  · exact getPeer_of_mem_facing (mem_append_right _ hx)

variable (ht : a.getPeer t = some tp)

include ht

/-- **Both run the same steps.** -/
theorem same_steps (hv : t ∈ vp) (hc : RulesClear a vp t tp) :
    SameSet (legacySteps a vp t) (builderSteps a g vp t) := by
  intro x
  simp only [legacySteps, builderSteps, mem_flatMap, mem_genSteps]
  constructor
  · rintro ⟨⟨pol, rule⟩, hp, hx, h⟩
    obtain ⟨hd, hsr⟩ := @legacy_facing a vp t tp x.2.2 pol rule ht hv hc hp
    rw [hd, hsr] at h
    have hvi : (pol, rule) ∈ visitedRules (idx a g) a t := by
      rcases h with ⟨⟨hs, hl⟩, -⟩ | ⟨⟨hs, hl⟩, -⟩
      · exact visited_of_faced hc hp source_mem_orientations hs hl
      · exact visited_of_faced hc hp destination_mem_orientations hs hl
    grind [builder_facing]
  · rintro ⟨⟨pol, rule⟩, hvi, hx, h⟩
    obtain ⟨hd', hs'⟩ := @builder_facing a g vp t tp x.2.2 pol rule ht hvi
    rw [hd', hs'] at h
    have hp : (pol, rule) ∈ activeRules a.policies := by
      rcases h with ⟨⟨hs, hl⟩, -⟩ | ⟨⟨hs, hl⟩, -⟩
      · exact active_of_faced hc hvi source_mem_orientations hs hl
      · exact active_of_faced hc hvi destination_mem_orientations hs hl
    grind [legacy_facing]

theorem builder_gen_eq : (getPeerConnectionResources env (idx a g) a vp tp).gen =
    (builderSteps a g vp t).foldl (runStep env tp) {} := by
  obtain rfl := id_of_getPeer ht
  exact (foldl_connectRule_gen _ _).trans (foldl_generateRule_eq_steps _ _)

/-- **Policies give the same firewall rules.** -/
theorem same_firewallRules (hv : t ∈ vp) (hc : RulesClear a vp t tp) :
    SameSet (legacyGen env a vp g tp).rules (viewRules env (idx a g) a vp tp) := by
  intro fr
  have hst := @same_steps a g vp t tp ht hv hc
  rw [viewRules, legacy_connection_gen ht, foldl_generateRule_eq_steps, builder_gen_eq ht,
    mem_rules_foldl (keysTell fun s hs => known_of_builderStep ((hst s).mp hs)),
    mem_rules_foldl (keysTell fun s hs => known_of_builderStep hs)]
  exact exists_congr fun s => and_congr_left' (hst s)

/-- The peers that policies connect the target to, for the account … -/
theorem legacy_peers_iff (hv : t ∈ vp) (hc : RulesClear a vp t tp) :
    x ∈ (legacyGen env a vp g tp).peers ↔ Faced a vp t x := by
  rw [mem_legacy_aclPeers ht]
  refine exists_congr fun pr => and_congr_right fun hp => ?_
  obtain ⟨hd, hs⟩ := @legacy_facing a vp t tp x pr.1 pr.2 ht hv hc hp
  rw [Sides.facing, mem_append, hd, hs]
  simp [mem_orientations]

/-- … and for the builder. -/
theorem builder_peers_iff (hc : RulesClear a vp t tp) :
    x ∈ (getPeerConnectionResources env (idx a g) a vp tp).gen.peers ↔ Faced a vp t x := by
  have hf : ∀ pr ∈ visitedRules (idx a g) a t,
      (x ∈ (sides (idx a g) a vp t pr.1 pr.2).facing ↔ ∃ s ∈ orientations pr.1 pr.2, Stood a t s.1 ∧
          Lists a vp t s.2 x) := by
    intro pr hv
    obtain ⟨hd, hsr⟩ := @builder_facing a g vp t tp x pr.1 pr.2 ht hv
    rw [Sides.facing, mem_append, hd, hsr]
    simp [mem_orientations]
  rw [mem_builder_aclPeers, id_of_getPeer ht]
  constructor
  · rintro ⟨pr, hv, hx⟩
    obtain ⟨s, hs, hst, hl⟩ := (hf pr hv).mp hx
    exact ⟨pr, active_of_faced hc hv hs hst hl, s, hs, hst, hl⟩
  · rintro ⟨pr, hp, s, hs, hst, hl⟩
    have hv := @visited_of_faced a g vp t tp x pr.1 pr.2 hc hp s hs hst hl
    exact ⟨pr, hv, (hf pr hv).mpr ⟨s, hs, hst, hl⟩⟩

end

/-! ## The firewall rules of a map -/

/-- A rule that the builder comes to has the target on one side and something on
    the other, and gives firewall rules of this direction. -/
def Facing (a : Account) (t : String) (on : RuleSide → Prop) (rule : PolicyRule)
    (dir : Direction) : Prop :=
  ∃ pol ∈ a.policies, pol.enabled ∧ rule ∈ pol.rules ∧
    a.validatePostureChecksOnPeer pol.sourcePostureChecks t ∧ Visits a t pol ∧
      ((Stood a t (sourceSide pol rule) ∧ on (destinationSide rule) ∧
          (dir = .OUT ∨ rule.bidirectional)) ∨
        (Stood a t (destinationSide rule) ∧ on (sourceSide pol rule) ∧
          (dir = .IN ∨ rule.bidirectional)))

section

variable {env : Env} {a : IndexedAccount} {g : UserMap} {vp : Validated} {t : String} {tp : Peer}
  {s : PolicyRule × Direction × Peer}

/-- The steps of the builder. -/
theorem mem_builderSteps (ht : a.getPeer t = some tp) :
    s ∈ builderSteps a g vp t ↔ Facing a t (Lists a vp t · s.2.2) s.1 s.2.1 := by
  simp only [builderSteps, mem_flatMap, mem_genSteps, Facing]
  constructor
  · grind [builder_facing, mem_visitedRules]
  · rintro ⟨pol, hpo, he, hm, hp, hv, h⟩
    have hvi : (pol, s.1) ∈ visitedRules (idx a g) a t := mem_visitedRules.mpr ⟨hpo, he, hm, hp, hv⟩
    grind [builder_facing]

/-- **The firewall rules of a view.** -/
theorem mem_viewRules (ht : a.getPeer t = some tp) : fr ∈ viewRules env (idx a g) a vp tp ↔
    ∃ s ∈ builderSteps a g vp t, fr ∈ stepRules env tp s := by
  rw [viewRules, builder_gen_eq ht,
    mem_rules_foldl (keysTell fun s hs => known_of_builderStep hs)]

/-- **The firewall rules of a map** from a new builder: for every peer that faces the target in a
    rule of a policy that the builder visits, the rules of that direction.  Disabled rules of
    enabled policies count, and so does the target itself where a rule names it opposite. -/
theorem map_rule_iff (env : Env) (a : IndexedAccount) (g : UserMap) (vp vp' : Validated)
    (t : String) (fr : FirewallRule) :
    fr ∈ (getPeerNetworkMap env (newNetworkMapBuilder env a vp g) t vp').firewallRules ↔
      ∃ tp rule dir x, a.getPeer t = some tp ∧ Facing a t (Lists a vp t · x) rule dir ∧
        fr ∈ peerRules env tp rule x.ip dir := by
  cases ht : a.getPeer t with
  | none => simp [map_of_missing ht]
  | some tp =>
    rw [map_firewallRules ht, mem_viewRules ht]
    simp [mem_builderSteps ht, stepRules]

end

end Builder

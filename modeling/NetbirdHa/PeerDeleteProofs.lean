import NetbirdHa.AccountProofs

/-! # Deleting peers

`deletePeers` runs inside a transaction.  For each peer it takes the peer out of the
groups, fetches the rules that name the peer as a resource, deletes the policy of
each of these rules, and deletes the peer.  The policy is fetched before it is
deleted, and a policy that is not there is an error.

A policy has all its rules deleted with it, so a second rule of the same policy finds
the policy gone and the whole deletion fails.  `deletePeers_spec` says which lists of
peers can be deleted, and that nothing names them afterwards. -/

namespace PeerDelete

open AccountModel List

/-- What the store does not find. -/
inductive StoreError where
  | policyNotFound (id : String)
  | peerNotFound (id : String)
deriving DecidableEq

/-- The rows of an account that are read or changed, and the policies of the other accounts. -/
structure Store where
  peers : List String
  groups : List Group
  policies : List Policy
  foreign : List Policy := []
deriving DecidableEq

section

variable (s : Store) (p : String)

/-- The rule has the peer as its source or destination resource. -/
def names (rule : PolicyRule) : Bool :=
  rule.sourceResource.id = p || rule.destinationResource.id = p

/-- `GetPolicyRulesByResourceID`, each rule by its policy; the query does not ask for
    the account. -/
def Store.getPolicyRulesByResourceID : List String :=
  (s.policies ++ s.foreign).flatMap fun pol => (pol.rules.filter (names p)).map fun _ => pol.id

/-- The loop over the rules: `GetPolicyByID`, then `DeletePolicy`. -/
def deletePolicies (policies : List Policy) : List String → Except StoreError (List Policy)
  | [] => .ok policies
  | id :: ids =>
    if id ∈ policies.map Policy.id then deletePolicies (policies.filter (·.id ≠ id)) ids
    else .error (.policyNotFound id)

/-- One turn of `deletePeers`. -/
def deletePeer : Except StoreError Store :=
  -- `RemovePeerFromAllGroups`
  let groups := s.groups.map fun g => { g with peers := g.peers.filter (· ≠ p) }
  (deletePolicies s.policies (s.getPolicyRulesByResourceID p)).bind fun policies =>
    if p ∈ s.peers then .ok { s with groups, policies, peers := s.peers.filter (· ≠ p) }
    else .error (.peerNotFound p)

/-- `deletePeers`: the first failure ends it. -/
def deletePeers : Store → List String → Except StoreError Store
  | s, [] => .ok s
  | s, p :: ps => (deletePeer s p).bind (deletePeers · ps)

/-- The store without a peer and without the policies that name it. -/
def Store.without : Store :=
  { s with
    peers := s.peers.filter (· ≠ p)
    groups := s.groups.map fun g => { g with peers := g.peers.filter (· ≠ p) }
    policies := s.policies.filter (·.id ∉ s.getPolicyRulesByResourceID p) }

/-- The peer is there, no policy has two rules that name it, and no policy of another
    account does. -/
def Deletable : Prop :=
  p ∈ s.peers ∧ (s.getPolicyRulesByResourceID p).Nodup ∧
    ∀ id ∈ s.getPolicyRulesByResourceID p, id ∈ s.policies.map Policy.id

/-- Each peer is deletable once those before it are gone. -/
def AllDeletable : Store → List String → Prop
  | _, [] => True
  | s, p :: ps => Deletable s p ∧ AllDeletable (s.without p) ps

/-- No rule names the peer and no group has it. -/
def Forgotten : Prop :=
  (∀ pol ∈ s.policies, ∀ rule ∈ pol.rules, names p rule = false) ∧ ∀ g ∈ s.groups, p ∉ g.peers

end

variable {s s' : Store} {p q : String}

/-- A policy can be deleted once. -/
theorem deletePolicies_ok_iff : ∀ {l l' : List Policy}, deletePolicies l ids = .ok l' ↔
      (ids.Nodup ∧ ∀ id ∈ ids, id ∈ l.map Policy.id) ∧ l' = l.filter (·.id ∉ ids) := by
  induction ids with
  | nil => intro l l'; simp [deletePolicies, eq_comm]
  | cons id ids ih =>
    intro l l'
    rw [deletePolicies]
    split
    · have hm : ∀ i, i ∈ (l.filter (·.id ≠ id)).map Policy.id ↔ i ≠ id ∧ i ∈ l.map Policy.id := by
        grind
      have hf : (l.filter (·.id ≠ id)).filter (·.id ∉ ids) = l.filter (·.id ∉ id :: ids) := by
        rw [filter_filter]
        exact filter_congr fun pol _ => by simp [Bool.and_comm]
      rw [ih, hf, nodup_cons, forall_mem_cons]
      simp only [hm, forall_and, forall_mem_ne']
      tauto
    · rename_i hi
      refine iff_of_false (fun h => nomatch h) ?_
      rintro ⟨⟨-, h⟩, -⟩
      exact hi (h id mem_cons_self)

/-- One turn either fails or leaves the store without the peer. -/
theorem deletePeer_ok_iff : deletePeer s p = .ok s' ↔ Deletable s p ∧ s' = s.without p := by
  unfold deletePeer Deletable Store.without
  cases h : deletePolicies s.policies (s.getPolicyRulesByResourceID p) with
  | error e =>
    refine iff_of_false (fun h => nomatch h) ?_
    rintro ⟨⟨-, hdel⟩, -⟩
    cases h.symm.trans (deletePolicies_ok_iff.mpr ⟨hdel, rfl⟩)
  | ok l =>
    obtain ⟨hdel, rfl⟩ := deletePolicies_ok_iff.mp h
    by_cases hp : p ∈ s.peers
    · simp only [Except.bind, if_pos hp, Except.ok.injEq, and_iff_right (And.intro hp hdel)]
      exact eq_comm
    · simp [Except.bind, hp]

theorem forgotten_without : Forgotten (s.without p) p := by
  constructor
  · intro pol hp rule hr
    obtain ⟨hp, hi⟩ := mem_filter.mp hp
    by_contra hname
    refine of_decide_eq_true hi (mem_flatMap.mpr ⟨pol, mem_append_left _ hp, ?_⟩)
    exact mem_map.mpr ⟨rule, mem_filter.mpr ⟨hr, by simpa using hname⟩, rfl⟩
  · intro g hg
    obtain ⟨g', -, rfl⟩ := mem_map.mp hg
    simp

/-- Later deletions bring nothing back. -/
theorem Forgotten.without (h : Forgotten s q) : Forgotten (s.without p) q := by
  refine ⟨fun pol hp => h.1 pol (mem_filter.mp hp).1, fun g hg hq => ?_⟩
  obtain ⟨g', hg', rfl⟩ := mem_map.mp hg
  exact h.2 g' hg' (mem_filter.mp hq).1

/-- **Deleting peers** succeeds exactly if each is deletable in its turn; then nothing
    names any of them. -/
theorem deletePeers_spec (ps : List String) : ∀ s : Store,
    ((∃ s', deletePeers s ps = .ok s') ↔ AllDeletable s ps) ∧
      ∀ s', deletePeers s ps = .ok s' → ∀ p, p ∈ ps ∨ Forgotten s p → Forgotten s' p := by
  induction ps with
  | nil =>
    intro s
    refine ⟨iff_of_true ⟨s, rfl⟩ trivial, fun s' h p hp => ?_⟩
    cases h
    exact hp.resolve_left not_mem_nil
  | cons p ps ih =>
    intro s
    rw [deletePeers]
    cases h : deletePeer s p with
    | error e =>
      refine ⟨iff_of_false (fun ⟨_, h⟩ => nomatch h) fun hdel => ?_, fun s' h => nomatch h⟩
      cases h.symm.trans (deletePeer_ok_iff.mpr ⟨hdel.1, rfl⟩)
    | ok m =>
      obtain ⟨hdel, rfl⟩ := deletePeer_ok_iff.mp h
      refine ⟨((ih _).1).trans (and_iff_right hdel).symm, fun s' h q hq => ?_⟩
      refine (ih _).2 s' h q ?_
      rcases hq with hq | hq
      · exact (mem_cons.mp hq).elim (fun he => .inr (he ▸ forgotten_without)) .inl
      · exact .inr hq.without

/-- A policy with a rule to the peer and a rule from it: the peer cannot be deleted. -/
theorem two_rules_not_deleted :
    deletePeers
      { peers := ["p"], groups := []
        policies := [{ id := "ssh", rules :=
          [{ id := "r1", destinationResource := { id := "p", type := .peer } },
            { id := "r2", sourceResource := { id := "p", type := .peer } }] }] } ["p"] =
      .error (.policyNotFound "ssh") := by
  decide

end PeerDelete

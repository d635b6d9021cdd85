import NetbirdHa.AclRuleProofs
import NetbirdHa.TransitionProofs

/-! # Peer rules of the client

The client keeps the rules of the last network map in the firewall.  For a new map
it adds what the firewall does not have yet, notes every rule of the map in
`newRulePairs`, deletes the rules of the old map that are not there, and remembers
`newRulePairs` as `peerRulesPairs`.  A rule that is remembered is not added again.

If a rule is refused, by the client or by the firewall, everything noted so far is
deleted from the firewall (`rollBack`).  It stays noted, so it is remembered as
installed, and the next map does not add it.  Record and firewall agree after a
failure only if nothing had been noted (`FailsFirst`).

The firewall may fail in any call of `AddPeerFiltering` and `DeletePeerRule`; how
it behaves during one application is part of it (`Application`). -/

namespace Acl

open Table Transition List AList

/-! ## The firewall and the manager -/

/-- A rule in the firewall. -/
structure Rule where
  handle : Nat
  policyID : List UInt8
  filter : Filter
deriving DecidableEq

/-- The record of the client, and the rules that the firewall has. -/
structure Manager where
  peerRulesPairs : GoMap (List Rule) := ∅
  installed : List Rule := []
  made : Nat := 0

/-- A network map and how the firewall takes it: whether it refuses the filter of the
    `i`-th rule or makes `n + 1` rules of it, and which rules it fails to delete. -/
structure Application where
  firewallRules : List FirewallRule
  firewallRulesIsEmpty : Bool
  add : Nat → Except String Nat
  deleteFails : Rule → Bool

/-- Rules from everybody to everybody, for old versions of management. -/
def allowAll (direction : RuleDirection) : FirewallRule :=
  { peerIP := "0.0.0.0", direction := direction, action := .accept, protocol := .all }

section

variable (m : Manager) (outcome : Except String Nat) (policyID : List UInt8) (e : Entry)
  (a : Application)

/-- The rules to apply; a map without rules that does not say so allows all. -/
def Application.rules : List FirewallRule :=
  if a.firewallRules = [] ∧ a.firewallRulesIsEmpty = false then
    [allowAll .inbound, allowAll .outbound]
  else a.firewallRules

/-- The rules that the firewall makes of a filter. -/
def Manager.newRules (n : Nat) (policyID : List UInt8) (f : Filter) : List Rule :=
  (List.range (n + 1)).map fun i => ⟨m.made + i, policyID, f⟩

/-- The firewall takes the rule, or fails. -/
def Manager.addPeerFiltering (f : Filter) : Except String (Manager × List Rule) :=
  match outcome with
  | .error err => .error err
  | .ok n =>
    .ok ({ m with installed := m.installed ++ m.newRules n policyID f, made := m.made + (n + 1) },
      m.newRules n policyID f)

/-- `DeletePeerRule` for one rule after the other. -/
def deleteRules (rules installed : List Rule) : List Rule :=
  rules.foldl (fun installed r => if a.deleteFails r then installed else installed.filter (· ≠ r))
    installed

/-- `addInRules`. -/
def Manager.addInRules : Except String (Manager × List Rule) :=
  match m.addPeerFiltering outcome policyID ⟨e.ip, e.proto, none, e.port, e.action⟩ with
  | .ok added => .ok added
  | .error err => .error ("add firewall rule: " ++ err)

/-- `addOutRules`. -/
def Manager.addOutRules : Except String (Manager × List Rule) :=
  if shouldSkipInvertedRule e.proto e.port then .ok (m, [])
  else
    match m.addPeerFiltering outcome policyID ⟨e.ip, e.proto, e.port, none, e.action⟩ with
    | .ok added => .ok added
    | .error err => .error ("add firewall rule: " ++ err)

end

/-- `protoRuleToFirewallRule`: the ID of the rule and its rules in the firewall. -/
def Manager.protoRuleToFirewallRule (stateful : Bool) (m : Manager) (outcome : Except String Nat)
    (r : FirewallRule) : Except String (Manager × String × List Rule) :=
  match convertRule r with
  | .error err => .error err
  | .ok e =>
    match m.peerRulesPairs.lookup (getPeerRuleID e) with
    | some pair => .ok (m, getPeerRuleID e, pair)
    | none =>
      match e.direction with
      | .inbound => (m.addInRules outcome r.policyID e).map fun x => (x.1, getPeerRuleID e, x.2)
      | .outbound =>
        if stateful then .ok (m, "", [])
        else (m.addOutRules outcome r.policyID e).map fun x => (x.1, getPeerRuleID e, x.2)
      | .other _ => .error "invalid direction, skipping firewall rule"

/-! ## One application -/

/-- The rules noted under the IDs that `keep` lets through. -/
def rulesOf (pairs : GoMap (List Rule)) (keep : String → Bool) : List Rule :=
  (pairs.entries.filter (fun p => keep p.1)).flatMap (·.2)

/-- `rollBack`: takes back the rules of the failed application. -/
def Manager.rollBack (m : Manager) (a : Application) (newRulePairs : GoMap (List Rule)) : Manager :=
  { m with installed := deleteRules a (rulesOf newRulePairs fun _ => true) m.installed }

/-- The loop over the rules, from the `i`-th on: the manager, what is noted, and
    whether a rule was refused. -/
def walkRules (stateful : Bool) (a : Application) :
    Nat → List FirewallRule → Manager → GoMap (List Rule) → Manager × GoMap (List Rule) × Bool
  | _, [], m, newRulePairs => (m, newRulePairs, false)
  | i, r :: rules, m, newRulePairs =>
    match m.protoRuleToFirewallRule stateful (a.add i) r with
    | .error _ => (m.rollBack a newRulePairs, newRulePairs, true)
    | .ok (m, pairID, rulePair) =>
      if rulePair = [] then walkRules stateful a (i + 1) rules m newRulePairs
      else
        walkRules stateful a (i + 1) rules
          { m with peerRulesPairs := m.peerRulesPairs.insert pairID rulePair }
          (newRulePairs.insert pairID rulePair)

/-- The old rules that are not noted go, and what is noted becomes the record. -/
def Manager.replace (m : Manager) (a : Application) (newRulePairs : GoMap (List Rule)) : Manager :=
  { m with
    installed :=
      deleteRules a (rulesOf m.peerRulesPairs fun id => decide (id ∉ newRulePairs)) m.installed
    peerRulesPairs := newRulePairs }

/-- `applyPeerACLs`, and whether it failed. -/
def Manager.applyPeerACLs (stateful : Bool) (m : Manager) (a : Application) : Manager × Bool :=
  let w := walkRules stateful a 0 a.rules m ∅
  (w.1.replace a w.2.1, w.2.2)

/-! ## Record and firewall -/

/-- The client remembers the rule. -/
def Recorded (pairs : GoMap (List Rule)) (r : Rule) : Prop :=
  ∃ id pair, pairs.lookup id = some pair ∧ r ∈ pair

/-- The firewall has the rules that the client remembers. -/
def Manager.Agrees (m : Manager) : Prop :=
  ∀ r, r ∈ m.installed ↔ Recorded m.peerRulesPairs r

/-- Everything under an ID is there for one rule, which has that ID. -/
def Sorted (stateful : Bool) (pairs : GoMap (List Rule)) : Prop :=
  ∀ id pair, pairs.lookup id = some pair → pair ≠ [] ∧
    ∃ e f, e.Plain ∧ getPeerRuleID e = id ∧ e.filter? stateful = some f ∧ ∀ r ∈ pair, r.filter = f

variable {a : Application} {stateful : Bool} {m : Manager} {r : FirewallRule} {f : Filter}
  {e : Entry} {new : GoMap (List Rule)}

section

variable {pairs : GoMap (List Rule)} {keep : String → Bool} {r : Rule}

/-- What a deletion leaves. -/
theorem mem_deleteRules (rules : List Rule) (installed : List Rule) :
    r ∈ deleteRules a rules installed ↔
      r ∈ installed ∧ ¬ (r ∈ rules ∧ a.deleteFails r = false) := by
  induction rules generalizing installed with
  | nil => simp [deleteRules]
  | cons x rules ih =>
    have hc : deleteRules a (x :: rules) installed = deleteRules a rules
        (if a.deleteFails x then installed else installed.filter (· ≠ x)) := rfl
    rw [hc, ih]
    by_cases hx : r = x
    · subst hx
      cases a.deleteFails r <;> simp
    · cases a.deleteFails x <;> simp [hx]

/-- The rules of the pairs that are kept. -/
theorem mem_rulesOf :
    r ∈ rulesOf pairs keep ↔ ∃ id pair, pairs.lookup id = some pair ∧ keep id ∧ r ∈ pair := by
  rw [rulesOf, mem_flatMap]
  constructor
  · rintro ⟨⟨id, pair⟩, hm, hr⟩
    obtain ⟨he, hk⟩ := mem_filter.mp hm
    exact ⟨id, pair, mem_lookup_iff.mpr he, hk, hr⟩
  · rintro ⟨id, pair, hl, hk, hr⟩
    exact ⟨⟨id, pair⟩, mem_filter.mpr ⟨mem_lookup_iff.mp hl, hk⟩, hr⟩

/-- Rules under different IDs are different. -/
theorem Sorted.disjoint (h : Sorted stateful pairs) {id id' : String}
    (hi : pairs.lookup id = some pair) (hi' : pairs.lookup id' = some pair') (hr : r ∈ pair)
    (hr' : r ∈ pair') : id = id' := by
  obtain ⟨-, e, f, he, rfl, hf, ha⟩ := h id pair hi
  obtain ⟨-, e', f', he', rfl, hf', ha'⟩ := h id' pair' hi'
  rw [← ha' r hr', ha r hr] at hf'
  rw [filter?_inj he he' hf hf']

end

/-! ## What one rule does -/

section

variable {m' : Manager} {outcome : Except String Nat} {id : String} {pair : List Rule}

/-- The rule is read, is not remembered, and gives the firewall nothing to do. -/
def Idle (stateful : Bool) (m : Manager) (r : FirewallRule) : Prop :=
  ∃ e, convertRule r = .ok e ∧ m.peerRulesPairs.lookup (getPeerRuleID e) = none ∧
    e.direction = .outbound ∧ (stateful ∨ shouldSkipInvertedRule e.proto e.port)

/-- The manager with the rules of one filter more. -/
def Manager.added (m : Manager) (n : Nat) (policyID : List UInt8) (f : Filter) : Manager :=
  { m with installed := m.installed ++ m.newRules n policyID f, made := m.made + (n + 1) }

/-- Filtering installs at least one rule. -/
theorem newRules_ne_nil (n : Nat) (policyID : List UInt8) (f : Filter) :
    m.newRules n policyID f ≠ [] := by
  simp [Manager.newRules]

/-- **What a rule does** that is not refused: it is remembered, it is idle, or its filter
    is added. -/
theorem protoRule_cases (h : m.protoRuleToFirewallRule stateful outcome r = .ok (m', id, pair)) :
    (∃ e, convertRule r = .ok e ∧ id = getPeerRuleID e ∧ m.peerRulesPairs.lookup id = some pair ∧
        m' = m) ∨ (Idle stateful m r ∧ pair = [] ∧ m' = m) ∨
      ∃ e f n, convertRule r = .ok e ∧ id = getPeerRuleID e ∧ m.peerRulesPairs.lookup id = none ∧
        e.filter? stateful = some f ∧ outcome = .ok n ∧ pair = m.newRules n r.policyID f ∧
        m' = m.added n r.policyID f := by
  rw [Manager.protoRuleToFirewallRule] at h
  split at h
  · cases h
  rename_i e he
  split at h
  · next hl =>
    cases h
    exact .inl ⟨e, he, rfl, hl, rfl⟩
  rename_i hl
  split at h
  · next hd =>
    cases outcome with
    | error err => cases h
    | ok n =>
      cases h
      refine .inr (.inr ⟨e, _, n, he, rfl, hl, ?_, rfl, rfl, rfl⟩)
      rw [Entry.filter?, hd]
  · next hd =>
    split at h
    · next hs =>
      cases h
      exact .inr (.inl ⟨⟨e, he, hl, hd, .inl hs⟩, rfl, rfl⟩)
    rename_i hs
    rw [Manager.addOutRules] at h
    split at h
    · next hsk =>
      cases h
      exact .inr (.inl ⟨⟨e, he, hl, hd, .inr hsk⟩, rfl, rfl⟩)
    rename_i hsk
    cases outcome with
    | error err => cases h
    | ok n =>
      cases h
      refine .inr (.inr ⟨e, _, n, he, rfl, hl, ?_, rfl, rfl, rfl⟩)
      rw [Entry.filter?, hd]
      rw [if_neg (not_or.mpr ⟨hs, hsk⟩)]
  · cases h

/-- A rule is read in a known direction. -/
def Valid (r : FirewallRule) : Prop := ∃ e, convertRule r = .ok e ∧ e.Plain

/-- What is filtered is plain. -/
theorem plain_of_filter? (he : convertRule r = .ok e) (hf : e.filter? stateful = some f) :
    e.Plain := by
  grind [plain_of_convertRule, Entry.filter?]

/-- The state of the loop: record and firewall agree, and what is noted is recorded. -/
structure Walking (stateful : Bool) (m : Manager) (newRulePairs : GoMap (List Rule)) : Prop where
  agrees : m.Agrees
  sorted : Sorted stateful m.peerRulesPairs
  noted : ∀ id pair, newRulePairs.lookup id = some pair → m.peerRulesPairs.lookup id = some pair

theorem lookup_insert_noted {record record' : GoMap (List Rule)}
    (hn : ∀ k p, new.lookup k = some p → record.lookup k = some p)
    (ho : ∀ k, k ≠ id → record'.lookup k = record.lookup k) :
    ∀ k p, (new.insert id pair).lookup k = some p → (record'.insert id pair).lookup k = some p := by
  intro k p hk
  by_cases hki : k = id
  · subst hki
    rw [lookup_insert] at hk ⊢
    exact hk
  · rw [lookup_insert_ne hki] at hk ⊢
    rw [ho k hki]
    exact hn k p hk

variable (h : Walking stateful m new)

include h

/-- A rule that is remembered is noted, and the record stays as it is. -/
theorem Walking.remembered (hl : m.peerRulesPairs.lookup id = some pair) :
    Walking stateful { m with peerRulesPairs := m.peerRulesPairs.insert id pair }
      (new.insert id pair) := by
  have hs : ∀ k, (m.peerRulesPairs.insert id pair).lookup k = m.peerRulesPairs.lookup k := by
    intro k
    by_cases hki : k = id
    · rw [hki, lookup_insert, hl]
    · rw [lookup_insert_ne hki]
  refine ⟨?_, ?_, lookup_insert_noted h.noted fun k _ => rfl⟩
  · intro x
    rw [h.agrees x]
    simp only [Recorded, hs]
  · intro k p hk
    exact h.sorted k p ((hs k).symm.trans hk)

/-- A new filter is added to the firewall and to the record. -/
theorem Walking.added {n : Nat} (he : convertRule r = .ok e) (hf : e.filter? stateful = some f)
    (hl : m.peerRulesPairs.lookup (getPeerRuleID e) = none) :
    Walking stateful { m.added n r.policyID f with
        peerRulesPairs := (m.added n r.policyID f).peerRulesPairs.insert (getPeerRuleID e)
          (m.newRules n r.policyID f) }
      (new.insert (getPeerRuleID e) (m.newRules n r.policyID f)) := by
  have ho : ∀ k, k ≠ getPeerRuleID e →
      ((m.added n r.policyID f).peerRulesPairs.insert (getPeerRuleID e)
        (m.newRules n r.policyID f)).lookup k = m.peerRulesPairs.lookup k :=
    fun k hk => lookup_insert_ne hk
  refine ⟨?_, ?_, lookup_insert_noted h.noted fun k _ => rfl⟩
  · intro x
    show x ∈ m.installed ++ m.newRules n r.policyID f ↔ _
    rw [mem_append, h.agrees x]
    constructor
    · rintro (⟨k, p, hk, hx⟩ | hx)
      · refine ⟨k, p, ?_, hx⟩
        rw [ho k (by rintro rfl; rw [hl] at hk; cases hk)]
        exact hk
      · exact ⟨getPeerRuleID e, _, lookup_insert _, hx⟩
    · rintro ⟨k, p, hk, hx⟩
      by_cases hki : k = getPeerRuleID e
      · subst hki
        rw [lookup_insert] at hk
        cases hk
        exact .inr hx
      · rw [ho k hki] at hk
        exact .inl ⟨k, p, hk, hx⟩
  · intro k p hk
    by_cases hki : k = getPeerRuleID e
    · subst hki
      rw [lookup_insert] at hk
      cases hk
      refine ⟨newRules_ne_nil n r.policyID f, e, f, plain_of_filter? he hf, rfl, hf, fun x hx => ?_⟩
      obtain ⟨i, -, rfl⟩ := mem_map.mp hx
      rfl
    · rw [ho k hki] at hk
      exact h.sorted k p hk

/-- One turn of the loop. -/
theorem walking_turn (hr : m.protoRuleToFirewallRule stateful outcome r = .ok (m', id, pair)) :
    if pair = [] then m' = m
    else Walking stateful { m' with peerRulesPairs := m'.peerRulesPairs.insert id pair }
      (new.insert id pair) := by
  rcases protoRule_cases hr with ⟨e, -, -, hl, rfl⟩ | ⟨-, rfl, rfl⟩ |
      ⟨e, f, n, he, rfl, hl, hf, -, rfl, rfl⟩
  · rw [if_neg (h.sorted id pair hl).1]
    exact h.remembered hl
  · rw [if_pos rfl]
  · rw [if_neg (newRules_ne_nil n r.policyID f)]
    exact h.added he hf hl

end

/-! ## The loop -/

/-- **The loop** keeps record and firewall in agreement until a rule is refused; then
    what is noted is rolled back. -/
theorem walking_walk (rules : List FirewallRule) :
    ∀ (i : Nat) (m : Manager) (new : GoMap (List Rule)), Walking stateful m new →
      ∃ m₀, Walking stateful m₀ (walkRules stateful a i rules m new).2.1 ∧
        (walkRules stateful a i rules m new).1 = if (walkRules stateful a i rules m new).2.2
            then m₀.rollBack a (walkRules stateful a i rules m new).2.1 else m₀ := by
  induction rules with
  | nil => intro i m new h; exact ⟨m, h, rfl⟩
  | cons r rules ih =>
    intro i m new h
    rw [walkRules]
    split
    · exact ⟨m, h, rfl⟩
    rename_i m' id pair hr
    have htu := walking_turn h hr
    split
    · next hp =>
      rw [if_pos hp] at htu
      subst htu
      exact ih (i + 1) m' new h
    · next hp =>
      rw [if_neg hp] at htu
      exact ih (i + 1) _ _ htu

/-- What is noted stays noted. -/
theorem mem_walk (rules : List FirewallRule) :
    ∀ (i : Nat) (m : Manager) (new : GoMap (List Rule)) (id : String), id ∈ new →
      id ∈ (walkRules stateful a i rules m new).2.1 := by
  induction rules with
  | nil => intro i m new id h; exact h
  | cons r rules ih =>
    intro i m new id h
    rw [walkRules]
    split
    · exact h
    · split
      · exact ih _ _ _ _ h
      · exact ih _ _ _ _ (mem_insert _ |>.mpr (.inr h))

/-- The first rule that is not idle is refused, counting from the `i`-th. -/
def FailsFrom (stateful : Bool) (a : Application) (i : Nat) (m : Manager)
    (rules : List FirewallRule) : Prop :=
  ∃ pre r post, rules = pre ++ r :: post ∧ (∀ x ∈ pre, Idle stateful m x) ∧
    ∃ err, m.protoRuleToFirewallRule stateful (a.add (i + pre.length)) r = .error err

/-- An idle rule is passed over. -/
theorem protoRule_of_idle (h : Idle stateful m r) (outcome : Except String Nat) :
    ∃ id, m.protoRuleToFirewallRule stateful outcome r = .ok (m, id, []) := by
  obtain ⟨e, he, hl, hd, hi⟩ := h
  rw [Manager.protoRuleToFirewallRule, he]
  dsimp only
  rw [hl, hd]
  cases stateful with
  | true => exact ⟨"", rfl⟩
  | false =>
    refine ⟨getPeerRuleID e, ?_⟩
    rw [Manager.addOutRules, if_pos (hi.resolve_left Bool.false_ne_true)]
    rfl

/-- **When nothing is noted** at a failure. -/
theorem walk_fails_empty_iff (rules : List FirewallRule) :
    ∀ (i : Nat) (m : Manager), Walking stateful m ∅ → ((walkRules stateful a i rules m ∅).2.2 ∧
          (∀ id, id ∉ (walkRules stateful a i rules m ∅).2.1) ↔
            FailsFrom stateful a i m rules) := by
  induction rules with
  | nil =>
    intro i m h
    constructor
    · rintro ⟨hf, -⟩
      cases hf
    · rintro ⟨pre, r, post, hru, -⟩
      simp at hru
  | cons r rules ih =>
    intro i m h
    constructor
    · rintro ⟨hf, he⟩
      rw [walkRules] at hf he
      split at hf
      · next err hr => exact ⟨[], r, rules, rfl, fun x hx => absurd hx not_mem_nil, err, hr⟩
      rename_i m' id pair hr
      rw [hr] at he
      dsimp only at he
      split at hf
      · next hp =>
        -- the turn noted nothing: only an idle rule does that
        subst hp
        rcases protoRule_cases hr with ⟨e, -, -, hl, -⟩ | ⟨hi, -, rfl⟩ |
            ⟨e, f, n, -, -, -, -, -, hp, -⟩
        · exact absurd rfl (h.sorted _ _ hl).1
        · obtain ⟨pre, x, post, rfl, hpr, err, hx⟩ := (ih (i + 1) m' h).mp ⟨hf, he⟩
          refine ⟨r :: pre, x, post, rfl, ?_, err, ?_⟩
          all_goals grind
        · exact absurd hp.symm (newRules_ne_nil n r.policyID f)
      · next hp =>
        rw [if_neg hp] at he
        exact absurd (mem_walk rules _ _ _ id (mem_insert _ |>.mpr (.inl rfl))) (he id)
    · rintro ⟨pre, x, post, hru, hpr, err, hx⟩
      cases pre with
      | nil =>
        obtain ⟨rfl, rfl⟩ := List.cons.inj hru
        rw [length_nil, Nat.add_zero] at hx
        rw [walkRules, hx]
        exact ⟨rfl, fun id => notMem_empty id⟩
      | cons y pre =>
        obtain ⟨rfl, rfl⟩ := List.cons.inj hru
        obtain ⟨id, hr⟩ := protoRule_of_idle (hpr r mem_cons_self) (a.add i)
        rw [walkRules, hr]
        dsimp only
        refine (ih (i + 1) m h).mpr ⟨pre, x, post, rfl, ?_, err, ?_⟩
        all_goals grind

/-- The rule stands for a filter, under the ID. -/
def StandsUnder (stateful : Bool) (r : FirewallRule) (id : String) : Prop :=
  ∃ e f, convertRule r = .ok e ∧ e.filter? stateful = some f ∧ getPeerRuleID e = id

/-- A filter that the firewall does not have yet is added. -/
theorem protoRule_of_filter (he : convertRule r = .ok e)
    (hl : m.peerRulesPairs.lookup (getPeerRuleID e) = none) (hf : e.filter? stateful = some f)
    (n : Nat) : m.protoRuleToFirewallRule stateful (.ok n) r =
      .ok (m.added n r.policyID f, getPeerRuleID e, m.newRules n r.policyID f) := by
  rw [Manager.protoRuleToFirewallRule, he]
  dsimp only
  rw [hl]
  rw [Entry.filter?] at hf
  cases hd : e.direction with
  | inbound =>
    rw [hd] at hf
    cases hf
    rfl
  | outbound =>
    rw [hd] at hf
    dsimp only at hf ⊢
    split at hf
    · cases hf
    rename_i hi
    obtain ⟨hs, hsk⟩ := not_or.mp hi
    cases hf
    rw [if_neg hs, Manager.addOutRules, if_neg hsk]
    rfl
  | other n =>
    rw [hd] at hf
    cases hf

/-- A rule that can be read is not refused by a firewall that works, and is noted if it
    stands for a filter. -/
theorem protoRule_of_valid (h : Walking stateful m new) (hr : Valid r) (n : Nat) :
    ∃ m' id pair, m.protoRuleToFirewallRule stateful (.ok n) r = .ok (m', id, pair) ∧
      if pair = [] then ∀ k, ¬ StandsUnder stateful r k
      else ∀ k, StandsUnder stateful r k ↔ k = id := by
  obtain ⟨e, he, hp⟩ := hr
  have hu : ∀ {f : Filter}, e.filter? stateful = some f →
      ∀ k, StandsUnder stateful r k ↔ k = getPeerRuleID e := by
    grind [StandsUnder]
  cases hl : m.peerRulesPairs.lookup (getPeerRuleID e) with
  | some pair =>
    -- what is remembered under the ID stands for this very rule
    obtain ⟨hpa, e', f, hp', hi, hf, -⟩ := h.sorted _ _ hl
    refine ⟨m, getPeerRuleID e, pair, ?_, ?_⟩
    · rw [Manager.protoRuleToFirewallRule, he]
      dsimp only
      rw [hl]
    · rw [if_neg hpa]
      rw [getPeerRuleID_inj hp' hp hi] at hf
      exact hu hf
  | none =>
    cases hf : e.filter? stateful with
    | some f =>
      refine ⟨_, _, _, protoRule_of_filter he hl hf n, ?_⟩
      rw [if_neg (newRules_ne_nil _ _ _)]
      exact hu hf
    | none =>
      have hid : Idle stateful m r := by
        rw [Entry.filter?] at hf
        rcases hp.direction with hd | hd
        all_goals grind [Idle]
      obtain ⟨id, hi⟩ := protoRule_of_idle hid (.ok n)
      grind [StandsUnder]

/-- A map that can be read is not refused by a firewall that works, and all its rules are noted. -/
theorem walk_of_valid (ha : ∀ i, ∃ n, a.add i = .ok n) (rules : List FirewallRule) :
    ∀ (i : Nat) (m : Manager) (new : GoMap (List Rule)), Walking stateful m new →
      (∀ r ∈ rules, Valid r) → (walkRules stateful a i rules m new).2.2 = false ∧
        ∀ id, id ∈ (walkRules stateful a i rules m new).2.1 ↔
          id ∈ new ∨ ∃ r ∈ rules, StandsUnder stateful r id := by
  induction rules with
  | nil =>
    intro i m new h hv
    exact ⟨rfl, fun id => by simp [walkRules]⟩
  | cons r rules ih =>
    intro i m new h hv
    obtain ⟨hv, hre⟩ := forall_mem_cons.mp hv
    obtain ⟨n, hn⟩ := ha i
    obtain ⟨m', id, pair, hr, hu⟩ := protoRule_of_valid h hv n
    have htu := walking_turn h hr
    rw [walkRules, hn, hr]
    dsimp only
    by_cases hp : pair = []
    · grind
    · rw [if_neg hp] at htu hu ⊢
      obtain ⟨hf, hm⟩ := ih (i + 1) _ _ htu hre
      refine ⟨hf, fun k => ?_⟩
      rw [hm k, mem_insert]
      simp only [mem_cons, exists_eq_or_imp, hu k]
      tauto

/-! ## Whole applications -/

/-- Record and firewall agree, and everything recorded is there for one rule. -/
structure Manager.Ok (stateful : Bool) (m : Manager) : Prop where
  agrees : m.Agrees
  sorted : Sorted stateful m.peerRulesPairs

/-- The first rule that is not idle is refused. -/
def FailsFirst (stateful : Bool) (m : Manager) (a : Application) : Prop :=
  FailsFrom stateful a 0 m a.rules

/-- No deletion fails. -/
def Deletes (a : Application) : Prop := ∀ r, a.deleteFails r = false

section

variable (h : m.Ok stateful)

include h

theorem Manager.Ok.walking : Walking stateful m ∅ := ⟨h.agrees, h.sorted, fun _ _ hk => nomatch hk⟩

/-- After a failure the firewall has nothing, and the record is what was noted. -/
theorem agrees_of_failed (hd : Deletes a) (hf : (m.applyPeerACLs stateful a).2) :
    (m.applyPeerACLs stateful a).1.Agrees ↔ FailsFirst stateful m a := by
  obtain ⟨m₀, hw, hm₀⟩ := walking_walk (a := a) a.rules 0 m ∅ h.walking
  rw [FailsFirst, ← walk_fails_empty_iff a.rules 0 m h.walking]
  have hf' : (walkRules stateful a 0 a.rules m ∅).2.2 := hf
  rw [and_iff_right hf']
  rw [hf'] at hm₀
  -- every rule of the firewall is recorded, and so it is rolled back or replaced
  have hn : ∀ r, r ∉ (m.applyPeerACLs stateful a).1.installed := by
    intro r hr
    have hr : r ∈ deleteRules a _ (walkRules stateful a 0 a.rules m ∅).1.installed := hr
    rw [mem_deleteRules, hm₀] at hr
    obtain ⟨hr, hk⟩ := hr
    obtain ⟨hr, hro⟩ := (mem_deleteRules _ _).mp hr
    obtain ⟨id, pair, hl, hp⟩ := (hw.agrees r).mp hr
    by_cases hi : id ∈ (walkRules stateful a 0 a.rules m ∅).2.1
    · obtain ⟨pair', hp'⟩ := exists_lookup_of_mem hi
      have hs := hw.noted id pair' hp'
      rw [hl] at hs
      cases hs
      exact hro ⟨mem_rulesOf.mpr ⟨id, pair, hp', rfl, hp⟩, hd r⟩
    · exact hk ⟨mem_rulesOf.mpr ⟨id, pair, hl, decide_eq_true hi, hp⟩, hd r⟩
  constructor
  · intro ha id hi
    obtain ⟨pair, hp⟩ := exists_lookup_of_mem hi
    obtain ⟨r, hr⟩ := exists_mem_of_ne_nil _ (hw.sorted _ _ (hw.noted id pair hp)).1
    exact hn r ((ha r).mpr ⟨id, pair, hp, hr⟩)
  · intro he r
    refine iff_of_false (hn r) ?_
    rintro ⟨id, pair, hp, -⟩
    exact he id (mem_of_lookup hp)

/-- What is recorded after an application is sorted, whether it fails or not. -/
theorem sorted_apply : Sorted stateful (m.applyPeerACLs stateful a).1.peerRulesPairs := by
  obtain ⟨m₀, hw, -⟩ := walking_walk (a := a) a.rules 0 m ∅ h.walking
  intro id pair hp
  exact hw.sorted id pair (hw.noted id pair hp)

/-- An application that does not fail keeps record and firewall in agreement. -/
theorem ok_of_applied (hd : Deletes a) (hf : (m.applyPeerACLs stateful a).2 = false) :
    (m.applyPeerACLs stateful a).1.Ok stateful := by
  refine ⟨?_, sorted_apply h⟩
  obtain ⟨m₀, hw, hm₀⟩ := walking_walk (a := a) a.rules 0 m ∅ h.walking
  have hf' : (walkRules stateful a 0 a.rules m ∅).2.2 = false := hf
  rw [hf', if_neg Bool.false_ne_true] at hm₀
  intro r
  show r ∈ deleteRules a (rulesOf (walkRules stateful a 0 a.rules m ∅).1.peerRulesPairs _)
    (walkRules stateful a 0 a.rules m ∅).1.installed ↔ Recorded _ r
  rw [mem_deleteRules, hm₀, hw.agrees r]
  constructor
  · rintro ⟨⟨id, pair, hl, hp⟩, hk⟩
    have hi : id ∈ (walkRules stateful a 0 a.rules m ∅).2.1 := by
      by_contra hi
      exact hk ⟨mem_rulesOf.mpr ⟨id, pair, hl, decide_eq_true hi, hp⟩, hd r⟩
    obtain ⟨pair', hp'⟩ := exists_lookup_of_mem hi
    have hs := hw.noted id pair' hp'
    rw [hl] at hs
    cases hs
    exact ⟨id, pair, hp', hp⟩
  · rintro ⟨id, pair, hl, hp⟩
    have hl₀ := hw.noted id pair hl
    refine ⟨⟨id, pair, hl₀, hp⟩, ?_⟩
    rintro ⟨hr, -⟩
    obtain ⟨id', pair', hl', hi', hp'⟩ := mem_rulesOf.mp hr
    -- it would stand under two IDs
    rw [hw.sorted.disjoint hl₀ hl' hp hp'] at hl
    exact of_decide_eq_true hi' (mem_of_lookup hl)

/-- The filters that the map asks for. -/
def Wanted (stateful : Bool) (a : Application) (f : Filter) : Prop :=
  ∃ r ∈ a.rules, ∃ e, convertRule r = .ok e ∧ e.filter? stateful = some f

/-- Every rule of the map can be read and the firewall does what it is asked. -/
structure Works (a : Application) : Prop where
  add : ∀ i, ∃ n, a.add i = .ok n
  deletes : Deletes a
  rules : ∀ r ∈ a.rules, Valid r

/-- An application whose calls succeed leaves the manager in order. -/
theorem ok_of_works (ha : Works a) : (m.applyPeerACLs stateful a).1.Ok stateful :=
  ok_of_applied h ha.deletes (walk_of_valid ha.add a.rules 0 m ∅ h.walking ha.rules).1

/-- **A firewall that works ends up with the map's rules.** -/
theorem filters_of_works (ha : Works a) (f : Filter) :
    (∃ r ∈ (m.applyPeerACLs stateful a).1.installed, r.filter = f) ↔ Wanted stateful a f := by
  obtain ⟨-, hn⟩ := walk_of_valid ha.add a.rules 0 m ∅ h.walking ha.rules
  have ho := ok_of_works h ha
  constructor
  · rintro ⟨r, hr, rfl⟩
    obtain ⟨id, pair, hl, hp⟩ := (ho.agrees r).mp hr
    obtain ⟨-, e, f, he, hi, hf, hal⟩ := ho.sorted id pair hl
    rcases (hn id).mp (mem_of_lookup hl) with hi' | ⟨x, hx, e', f', hx', hf', hi'⟩
    · exact absurd hi' (notMem_empty id)
    · have hs := getPeerRuleID_inj he (plain_of_filter? hx' hf') (hi.trans hi'.symm)
      rw [hal r hp]
      exact ⟨x, hx, e', hx', hs ▸ hf⟩
  · rintro ⟨x, hx, e, he, hf⟩
    have hi : getPeerRuleID e ∈ (walkRules stateful a 0 a.rules m ∅).2.1 :=
      (hn _).mpr (.inr ⟨x, hx, e, f, he, hf, rfl⟩)
    obtain ⟨pair, hl⟩ := exists_lookup_of_mem hi
    obtain ⟨hne, e', f', he', hi', hf', hal⟩ := ho.sorted _ pair hl
    obtain ⟨r, hr⟩ := exists_mem_of_ne_nil _ hne
    rw [getPeerRuleID_inj he' (plain_of_filter? he hf) hi', hf] at hf'
    exact ⟨r, (ho.agrees r).mpr ⟨_, pair, hl, hr⟩, (hal r hr).trans (Option.some.inj hf').symm⟩

/-! ## Runs -/

/-- Every application leaves a manager, also a failed one. -/
def step (stateful : Bool) (m : Manager) (a : Application) : Option Manager :=
  some (m.applyPeerACLs stateful a).1

/-- No deletion fails, and if a rule is refused it is the first that is not idle. -/
def Clean (stateful : Bool) (m : Manager) (a : Application) : Prop :=
  Deletes a ∧ ((m.applyPeerACLs stateful a).2 → FailsFirst stateful m a)

omit h in
theorem ok_init (stateful : Bool) : ({} : Manager).Ok stateful := by
  refine ⟨fun r => ?_, fun id pair h => nomatch h⟩
  refine iff_of_false not_mem_nil ?_
  rintro ⟨id, pair, h, -⟩
  cases h

/-- So does one that rolls back cleanly. -/
theorem ok_step (ha : Clean stateful m a) (hm' : step stateful m a = some m') : m'.Ok stateful := by
  cases hm'
  cases hf : (m.applyPeerACLs stateful a).2 with
  | false => exact ok_of_applied h ha.1 hf
  | true => exact ⟨(agrees_of_failed h ha.1 hf).mpr (ha.2 hf), sorted_apply h⟩

end

/-- **When a failure leaves no trace.**  After a run of clean applications record and
    firewall agree, and a map that can be read leaves exactly its rules in a firewall
    that works.  If another application fails, record and firewall agree afterwards
    exactly if the first rule that is not idle was refused. -/
theorem record_agrees_after_failure_iff (stateful : Bool) (as : List Application) (m : Manager)
    (hclean : AllowedRun (step stateful) (Clean stateful) {} as)
    (hrun : run (step stateful) {} as = some m) :
    m.Agrees ∧
      (∀ a, Works a → ∀ f, (∃ r ∈ (m.applyPeerACLs stateful a).1.installed, r.filter = f) ↔
        Wanted stateful a f) ∧
      ∀ a, Deletes a → (m.applyPeerACLs stateful a).2 →
        ((m.applyPeerACLs stateful a).1.Agrees ↔ FailsFirst stateful m a) := by
  have ho : m.Ok stateful :=
    run_invariant (fun _ _ _ h ha hm' => ok_step h ha hm') as {} m (ok_init stateful) hclean hrun
  exact ⟨ho.agrees, fun a ha f => filters_of_works ho ha f,
    fun a hd hf => agrees_of_failed ho hd hf⟩

/-- **The rules of the latest map.**  After a run of maps that can be read, a firewall
    that works has the filters that it would have got from the last map alone. -/
theorem filters_of_latest_map (stateful : Bool) (as : List Application) (a : Application)
    (hworks : ∀ x ∈ as ++ [a], Works x) (hrun : run (step stateful) {} as = some m) (f : Filter) :
    (∃ r ∈ (m.applyPeerACLs stateful a).1.installed, r.filter = f) ↔
      ∃ r ∈ (({} : Manager).applyPeerACLs stateful a).1.installed, r.filter = f := by
  have ha : Works a := hworks a (mem_append_right _ mem_cons_self)
  have hs : ∀ m x m', m.Ok stateful → Works x → step stateful m x = some m' → m'.Ok stateful := by
    rintro m x m' h hx ⟨⟩
    exact ok_of_works h hx
  have ho : m.Ok stateful := run_invariant hs as {} m (ok_init stateful)
    (allowedRun_of_forall as _ fun x hx _ => hworks x (mem_append_left _ hx)) hrun
  rw [filters_of_works ho ha, filters_of_works (ok_init stateful) ha]

/-- A rule for SSH from one address. -/
def ssh (peerIP : String) : FirewallRule :=
  { peerIP := peerIP, direction := .inbound, action := .accept, protocol := .tcp,
    portInfo := some (.port 22) }

/-- The map with the rules for two peers. -/
def twoPeers : List FirewallRule := [ssh "100.64.0.2", ssh "100.64.0.3"]

/-- The filter for the first peer. -/
def firstFilter : Filter := ⟨.v4 0x64400002, .tcp, none, some (singlePort 22), .accept⟩

/-- The firewall refuses the rule with this number, or none. -/
def refusing (refused : Option Nat) : Application where
  firewallRules := twoPeers
  firewallRulesIsEmpty := false
  add := fun i => if refused = some i then .error "no buffer space" else .ok 0
  deleteFails := fun _ => false

theorem valid_ssh : ∀ r ∈ twoPeers, Valid r := by
  intro r hr
  have hre : ∃ ip, convertRule r = .ok ⟨ip, .tcp, .inbound, some (singlePort 22), .accept⟩ := by
    simp only [twoPeers, mem_cons, not_mem_nil, or_false] at hr
    rcases hr with rfl | rfl
    · exact ⟨.v4 0x64400002, rfl⟩
    · exact ⟨.v4 0x64400003, rfl⟩
  obtain ⟨ip, hi⟩ := hre
  exact ⟨_, hi, plain_of_convertRule hi (.inl rfl)⟩

theorem works_refusing_none : Works (refusing none) := ⟨fun _ => ⟨0, rfl⟩, fun _ => rfl, valid_ssh⟩

/-- The same map twice. -/
theorem filters_of_same_map :
    ∃ r ∈ ((({} : Manager).applyPeerACLs true (refusing none)).1.applyPeerACLs
    true (refusing none)).1.installed, r.filter = firstFilter :=
  (filters_of_latest_map true [refusing none] (refusing none) (by simp [works_refusing_none]) rfl
    _).mpr (by decide)

/-- The map with the rule of one policy. -/
def ofPolicy (policyID : List UInt8) : Application :=
  { refusing none with firewallRules := [{ ssh "100.64.0.2" with policyID }] }

/-- A rule that stays is that of the policy which brought it first. -/
theorem policy_of_first_map :
    ((({} : Manager).applyPeerACLs true (ofPolicy [1])).1.applyPeerACLs true
        (ofPolicy [2])).1.installed.map Rule.policyID = [[1]] ∧
      (({} : Manager).applyPeerACLs true (ofPolicy [2])).1.installed.map Rule.policyID = [[2]] := by
  decide

theorem clean_refusing_first : Clean true {} (refusing (some 0)) :=
  ⟨fun _ => rfl, fun _ => ⟨[], ssh "100.64.0.2", [ssh "100.64.0.3"], rfl,
    fun _ hx => absurd hx not_mem_nil, "add firewall rule: no buffer space", rfl⟩⟩

/-- A map whose first rule was refused can be applied again. -/
theorem refused_map_applied_again :
    ∃ r ∈ ((({} : Manager).applyPeerACLs true (refusing (some 0))).1.applyPeerACLs true
      (refusing none)).1.installed, r.filter = firstFilter :=
  ((record_agrees_after_failure_iff true [refusing (some 0)] _
    ⟨clean_refusing_first, fun _ _ => trivial⟩ rfl).2.1 _ works_refusing_none _).mpr
    ⟨ssh "100.64.0.2", mem_cons_self, _, rfl, rfl⟩

/-- The second rule is refused: the first is gone from the firewall but stays recorded,
    and applying the map again does not bring it back. -/
theorem rolled_back_rule_forgotten :
    let failed := ({} : Manager).applyPeerACLs true (refusing (some 1))
    failed.2 = true ∧ failed.1.installed = [] ∧
      failed.1.peerRulesPairs.entries.map (·.2.map Rule.filter) = [[firstFilter]] ∧
      ∀ r ∈ (failed.1.applyPeerACLs true (refusing none)).1.installed, r.filter ≠ firstFilter := by
  decide

end Acl

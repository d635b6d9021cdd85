import NetbirdHa.FirewallRuleProofs

/-! # Connection resources

`GetPeerConnectionResources` of the account and `getPeerConnectionResources`
of the components run the same loop over the policies; they differ in how
they find the two sides of a rule.  The loop is written once here, over
`sides`.

A side counts only while the target stands on the other one (`facing`), and
as a set of peers: `connection_same` compares two runs rule by rule. -/

namespace Connection

open Table AccountModel FirewallRules List

/-- The two sides of a rule, the target itself apart, and where the target stands. -/
structure Sides where
  sourcePeers : List Peer := []
  peerInSources : Bool := false
  destinationPeers : List Peer := []
  peerInDestinations : Bool := false

/-- The calls of the generator for one rule. -/
def ruleCalls (rule : PolicyRule) (sd : Sides) : List (List Peer × Direction) :=
  (if rule.bidirectional then
    (if sd.peerInSources then [(sd.destinationPeers, .IN)] else []) ++
    (if sd.peerInDestinations then [(sd.sourcePeers, .OUT)] else [])
  else []) ++
  (if sd.peerInSources then [(sd.destinationPeers, .OUT)] else []) ++
  (if sd.peerInDestinations then [(sd.sourcePeers, .IN)] else [])

/-- The generator on one rule. -/
def generateRule (env : Env) (target : Peer) (s : Gen) (rule : PolicyRule) (sd : Sides) : Gen :=
  (ruleCalls rule sd).foldl (generate env target rule) s

/-! ## SSH access -/

/-- `auth.Wildcard`. -/
def wildcard : String := "*"

/-- `portsIncludesSSH`. -/
def portsIncludesSSH (ports : List String) : Bool :=
  ports.any fun port => port = defaultSSHPortString || port = nativeSSHPortString

/-- `portRangeIncludesSSH`. -/
def portRangeIncludesSSH (ranges : List PortRange) : Bool :=
  ranges.any fun r => (r.start ≤ 22 && 22 ≤ r.stop) || (r.start ≤ 22022 && 22022 ≤ r.stop)

/-- `policyRuleImpliesLegacySSH`. -/
def policyRuleImpliesLegacySSH (rule : PolicyRule) : Bool :=
  rule.protocol = .all ||
    (rule.protocol = .tcp && (portsIncludesSSH rule.ports || portRangeIncludesSSH rule.portRanges))

section

variable (userIDs : String → Option (List String)) (users : GoMap (List String))

/-- Add user IDs to those of a local user. -/
def addUsers (localUser : String) (ids : List String) : GoMap (List String) :=
  users.insert localUser ((users.lookup localUser).getD [] ∪ ids)

/-- The users of one authorized group; no local user means every one. -/
def authorizeGroup (entry : String × List String) : GoMap (List String) :=
  match userIDs entry.1 with
  | none => users
  | some ids =>
    (if entry.2 = [] then [wildcard] else entry.2).foldl
      (fun users localUser => addUsers users localUser ids) users

/-- The users an SSH rule lets in. -/
def authorizeUsers (allowed : List String) (users : GoMap (List String)) (rule : PolicyRule) :
    GoMap (List String) :=
  if rule.authorizedGroups ≠ [] then
    rule.authorizedGroups.foldl (authorizeGroup userIDs) users
  else if rule.authorizedUser ≠ "" then addUsers users wildcard [rule.authorizedUser]
  else users.insert wildcard allowed

end

/-! ## The loop -/

/-- What the loop has accumulated. -/
structure Conn where
  gen : Gen := {}
  authorizedUsers : GoMap (List String) := ∅
  sshEnabled : Bool := false

section

variable (env : Env) (target : Peer) (userIDs : String → Option (List String))
  (allowed : List String) (policies : List Policy)

/-- The enabled rules of the enabled policies, in order. -/
def activeRules : List (Policy × PolicyRule) :=
  (policies.filter (·.enabled)).flatMap
    (fun pol => (pol.rules.filter (·.enabled)).map (fun rule => (pol, rule)))

/-- One enabled rule of an enabled policy. -/
def connectRule (sides : Policy → PolicyRule → Sides) (s : Conn) (pr : Policy × PolicyRule) :
    Conn :=
  let sd := sides pr.1 pr.2
  let gen := generateRule env target s.gen pr.2 sd
  if sd.peerInDestinations && pr.2.protocol = .netbirdSSH then
    { gen := gen
      authorizedUsers := authorizeUsers userIDs allowed s.authorizedUsers pr.2
      sshEnabled := true }
  else if sd.peerInDestinations && policyRuleImpliesLegacySSH pr.2 && target.sshEnabled then
    { gen := gen
      authorizedUsers := s.authorizedUsers.insert wildcard allowed
      sshEnabled := true }
  else { s with gen := gen }

/-- The loop of `GetPeerConnectionResources`. -/
def connectionResources (sides : Policy → PolicyRule → Sides) : Conn :=
  (activeRules policies).foldl (connectRule env target userIDs allowed sides) {}

end

variable {rule : PolicyRule} {env : Env} {target p : Peer} {sd : Sides} {s : Gen} {ι : Type}
  {fr : FirewallRule}

theorem mem_activeRules : (pol, rule) ∈ activeRules policies ↔
    pol ∈ policies ∧ pol.enabled ∧ rule ∈ pol.rules ∧ rule.enabled := by
  grind [activeRules]

/-- What walking over rules generates, apart from SSH access. -/
theorem foldl_connectRule_gen (l : List (Policy × PolicyRule)) (s : Conn) :
    (l.foldl (connectRule env target userIDs allowed sides) s).gen =
      l.foldl (fun s pr => generateRule env target s pr.2 (sides pr.1 pr.2)) s.gen := by
  refine (foldl_hom Conn.gen fun s pr => ?_).symm
  simp only [connectRule]
  split
  · rfl
  · split <;> rfl

/-! ## Facing peers -/

/-- The destination peers, if the target is a source. -/
def Sides.facingDestinations (sd : Sides) : List Peer :=
  if sd.peerInSources then sd.destinationPeers else []

/-- The source peers, if the target is a destination. -/
def Sides.facingSources (sd : Sides) : List Peer :=
  if sd.peerInDestinations then sd.sourcePeers else []

/-- The peers on the side the target does not stand on. -/
def Sides.facing (sd : Sides) : List Peer := sd.facingDestinations ++ sd.facingSources

theorem mem_facingDestinations {sd : Sides} :
    x ∈ sd.facingDestinations ↔ sd.peerInSources ∧ x ∈ sd.destinationPeers := by
  rw [Sides.facingDestinations, mem_ite_nil_right]

theorem mem_facingSources {sd : Sides} :
    x ∈ sd.facingSources ↔ sd.peerInDestinations ∧ x ∈ sd.sourcePeers := by
  rw [Sides.facingSources, mem_ite_nil_right]

theorem mem_facing {sd : Sides} : x ∈ sd.facing ↔ sd.peerInSources ∧ x ∈ sd.destinationPeers ∨
    sd.peerInDestinations ∧ x ∈ sd.sourcePeers := by
  rw [Sides.facing, mem_append, mem_facingDestinations, mem_facingSources]

/-- Two readings of a rule with the same facing peers. -/
structure Sides.Agree (sd sd' : Sides) : Prop where
  destinations : SameSet sd.facingDestinations sd'.facingDestinations
  sources : SameSet sd.facingSources sd'.facingSources

/-- The calls for one rule, with the empty ones filled in. -/
def facingCalls (rule : PolicyRule) (sd : Sides) : List (List Peer × Direction) :=
  (if rule.bidirectional then [(sd.facingDestinations, .IN), (sd.facingSources, .OUT)] else [])
    ++ [(sd.facingDestinations, .OUT), (sd.facingSources, .IN)]

section

variable {U : Peer → Prop}

/-- A rule only looks at the facing peers. -/
theorem generateRule_eq (s : Gen) (rule : PolicyRule) (sd : Sides) :
    generateRule env target s rule sd =
      (facingCalls rule sd).foldl (generate env target rule) s := by
  unfold generateRule ruleCalls facingCalls Sides.facingDestinations Sides.facingSources
  cases rule.bidirectional <;> cases sd.peerInSources <;> cases sd.peerInDestinations <;>
    simp [generate_nil]

theorem mem_facingCalls (h : call ∈ facingCalls rule sd) :
    call.1 = sd.facingDestinations ∨ call.1 = sd.facingSources := by
  rcases mem_append.mp h with h | h
  · split at h
    · simp only [mem_cons, not_mem_nil, or_false] at h
      rcases h with rfl | rfl <;> simp
    · cases h
  · simp only [mem_cons, not_mem_nil, or_false] at h
    rcases h with rfl | rfl <;> simp

variable (hU : ∀ p q, U p → U q → p.id = q.id → p = q)

include hU

/-- The peers of `generate`, folded over calls. -/
theorem mem_foldl_generate_peers (rule : PolicyRule) :
    ∀ (calls : List (List Peer × Direction)) (s : Gen), (∀ c ∈ calls, ∀ q ∈ c.1, U q) →
      (∀ q ∈ s.peers, U q) → (p ∈ (calls.foldl (generate env target rule) s).peers ↔
        p ∈ s.peers ∨ ∃ c ∈ calls, p ∈ c.1) := by
  intro calls
  induction calls with
  | nil => intro s _ _; simp
  | cons c calls ih =>
    intro s hc hs
    have hc1 : ∀ q ∈ c.1, U q := hc c mem_cons_self
    have hm : ∀ q, q ∈ (generate env target rule s c).peers ↔ q ∈ s.peers ∨ q ∈ c.1 :=
      fun q => mem_generate_peers hU c.1 s hc1 hs
    rw [foldl_cons, ih _ (fun c' hc' => hc c' (mem_cons_of_mem c hc')), hm,
      exists_mem_cons_iff, or_assoc]
    intro q hq
    rcases (hm q).mp hq with h | h
    · exact hs q h
    · exact hc1 q h

/-- The peers after one rule: those before, and the facing ones. -/
theorem mem_generateRule_peers (hsd : ∀ q ∈ sd.facing, U q) (hs : ∀ q ∈ s.peers, U q) :
    p ∈ (generateRule env target s rule sd).peers ↔ p ∈ s.peers ∨ p ∈ sd.facing := by
  have hca : ∀ c ∈ facingCalls rule sd, ∀ q ∈ c.1, q ∈ sd.facing := by
    intro c hc q hq
    rcases mem_facingCalls hc with h | h
    · exact mem_append_left _ (h ▸ hq)
    · exact mem_append_right _ (h ▸ hq)
  rw [generateRule_eq, mem_foldl_generate_peers hU rule _ s
    (fun c hc q hq => hsd q (hca c hc q hq)) hs]
  constructor
  · rintro (h | ⟨c, hc, hp⟩)
    · exact .inl h
    · exact .inr (hca c hc p hp)
  · rintro (h | h)
    · exact .inl h
    · refine .inr ?_
      rcases mem_append.mp h with h | h
      · exact ⟨(sd.facingDestinations, .OUT), by simp [facingCalls], h⟩
      · exact ⟨(sd.facingSources, .IN), by simp [facingCalls], h⟩

/-- One rule, read alike, adds alike. -/
theorem Gen.Same.generateRule (h : s.Same s')
    (hr : generate env target rule = generate env target rule')
    (hb : rule.bidirectional = rule'.bidirectional) (hsd : sd.Agree sd')
    (hUsd : ∀ q ∈ sd.facing, U q) (hUs : ∀ q ∈ s.peers, U q) :
    (Connection.generateRule env target s rule sd).Same
      (Connection.generateRule env target s' rule' sd') := by
  have hUd : ∀ q ∈ sd.facingDestinations, U q := fun q hq => hUsd q (mem_append_left _ hq)
  have hUsrc : ∀ q ∈ sd.facingSources, U q := fun q hq => hUsd q (mem_append_right _ hq)
  -- one call on either side, keeping track of where the peers come from
  have hc : ∀ {s s' : Gen} {l l' : List Peer} (dir : Direction), s.Same s' →
      (∀ q ∈ s.peers, U q) → SameSet l l' → (∀ q ∈ l, U q) →
      (generate env target rule s (l, dir)).Same (generate env target rule' s' (l', dir)) ∧
        ∀ q ∈ (generate env target rule s (l, dir)).peers, U q := by
    intro s s' l l' dir hs hUs hl hUl
    refine ⟨hr ▸ hs.generate hU hl dir hUl hUs, fun q hq => ?_⟩
    rcases (mem_generate_peers hU l s hUl hUs).mp hq with hq | hq
    · exact hUs q hq
    · exact hUl q hq
  rw [generateRule_eq, generateRule_eq]
  unfold facingCalls
  rw [← hb]
  cases rule.bidirectional with
  | false =>
    obtain ⟨h1, hU1⟩ := hc .OUT h hUs hsd.destinations hUd
    exact (hc .IN h1 hU1 hsd.sources hUsrc).1
  | true =>
    obtain ⟨h1, hU1⟩ := hc .IN h hUs hsd.destinations hUd
    obtain ⟨h2, hU2⟩ := hc .OUT h1 hU1 hsd.sources hUsrc
    obtain ⟨h3, hU3⟩ := hc .OUT h2 hU2 hsd.destinations hUd
    exact (hc .IN h3 hU3 hsd.sources hUsrc).1

/-- The peers after all rules: the facing ones of each. -/
theorem mem_foldl_generateRule_peers {rule : ι → PolicyRule} {sides : ι → Sides} :
    ∀ (l : List ι) (s : Gen), (∀ i ∈ l, ∀ q ∈ (sides i).facing, U q) → (∀ q ∈ s.peers, U q) →
      (p ∈ (l.foldl (fun s i => generateRule env target s (rule i) (sides i)) s).peers ↔
        p ∈ s.peers ∨ ∃ i ∈ l, p ∈ (sides i).facing) := by
  intro l
  induction l with
  | nil => intro s _ _; simp
  | cons i l ih =>
    intro s hl hs
    have hi : ∀ q ∈ (sides i).facing, U q := hl i mem_cons_self
    have hm : ∀ q, q ∈ (generateRule env target s (rule i) (sides i)).peers ↔
        q ∈ s.peers ∨ q ∈ (sides i).facing := fun q => mem_generateRule_peers hU hi hs
    grind

/-- **Two runs that read every rule alike accumulate alike.** -/
theorem foldl_generateRule_same {rule rule' : ι → PolicyRule} {sides sides' : ι → Sides} :
    ∀ (l : List ι) (s s' : Gen), s.Same s' →
      (∀ i ∈ l, generate env target (rule i) = generate env target (rule' i) ∧
        (rule i).bidirectional = (rule' i).bidirectional ∧ (sides i).Agree (sides' i)) →
      (∀ i ∈ l, ∀ q ∈ (sides i).facing, U q) → (∀ q ∈ s.peers, U q) →
      (l.foldl (fun s i => generateRule env target s (rule i) (sides i)) s).Same
        (l.foldl (fun s i => generateRule env target s (rule' i) (sides' i)) s') := by
  intro l s s' h ha hl hs
  refine (List.foldl_rel (r := fun (s s' : Gen) => s.Same s' ∧ ∀ q ∈ s.peers, U q) ⟨h, hs⟩ ?_).1
  rintro i hi s s' ⟨h, hs⟩
  obtain ⟨hr, hb, hsd⟩ := ha i hi
  refine ⟨Gen.Same.generateRule hU h hr hb hsd (hl i hi) hs, fun q hq => ?_⟩
  rcases (mem_generateRule_peers hU (hl i hi) hs).mp hq with hq | hq
  · exact hs q hq
  · exact hl i hi q hq

end

/-! ## Where a rule comes from -/

/-- A property of the base rule with whatever port is filled in is one of every rule of a peer. -/
theorem of_mem_peerRules {P : FirewallRule → Prop} (hba : P (baseRule rule ip dir))
    (hpo : ∀ port ∈ rule.ports, P { baseRule rule ip dir with port := port })
    (hra : ∀ range, P { baseRule rule ip dir with portRange := range })
    (hnu : ∀ n : Nat, P { baseRule rule ip dir with port := toString n })
    (hss : P { baseRule rule ip dir with port := nativeSSHPortString })
    (h : fr ∈ peerRules env target rule ip dir) : P fr := by
  unfold peerRules at h
  split at h
  · rwa [mem_singleton.mp h]
  have he : ∀ r ∈ rule.ports.map (fun port => { baseRule rule ip dir with port := port }) ++
      (if rule.ports = [] then rule.portRanges.filterMap
        (expandRange (peerSupportedFirewallFeatures env target.wtVersion) (baseRule rule ip dir))
      else []), P r := by
    intro r hr
    rcases mem_append.mp hr with hr | hr
    · obtain ⟨port, hp, rfl⟩ := mem_map.mp hr
      exact hpo port hp
    grind [expandRange]
  simp only [expandPortsAndRanges] at h
  split at h
  · grind [addNativeSSHRule]
  · exact he fr h

/-- The rules of a peer are the base rule with ports filled in. -/
theorem eq_of_mem_peerRules (h : fr ∈ peerRules env target rule ip dir) :
    fr = { baseRule rule ip dir with port := fr.port, portRange := fr.portRange } :=
  of_mem_peerRules (P := fun r =>
    r = { baseRule rule ip dir with port := r.port, portRange := r.portRange })
    rfl (fun _ _ => rfl) (fun _ => rfl) (fun _ => rfl) rfl h

/-! ## Single steps

The loops over rules, calls and peers, flattened: every step hands the
generator one peer. -/

/-- The steps for one rule. -/
def genSteps (rule : PolicyRule) (sd : Sides) : List (PolicyRule × Direction × Peer) :=
  (facingCalls rule sd).flatMap fun call => call.1.map (fun p => (rule, call.2, p))

/-- One step. -/
def runStep (env : Env) (target : Peer) (s : Gen) (x : PolicyRule × Direction × Peer) : Gen :=
  generatePeer env target x.1 x.2.1 s x.2.2

/-- The rules of one step. -/
def stepRules (env : Env) (target : Peer) (x : PolicyRule × Direction × Peer) : List FirewallRule :=
  peerRules env target x.1 x.2.2.ip x.2.1

theorem foldl_generateRule_eq_steps {rule : ι → PolicyRule} {sides : ι → Sides} (l : List ι)
    (s : Gen) : l.foldl (fun s i => generateRule env target s (rule i) (sides i)) s =
      (l.flatMap (fun i => genSteps (rule i) (sides i))).foldl (runStep env target) s := by
  rw [foldl_flatMap]
  congr 1
  funext s i
  rw [generateRule_eq, genSteps, foldl_flatMap]
  congr 1
  funext s call
  rw [foldl_map]
  rfl

theorem mem_genSteps : x ∈ genSteps rule sd ↔ x.1 = rule ∧
    ((x.2.2 ∈ sd.facingDestinations ∧ (x.2.1 = .OUT ∨ rule.bidirectional)) ∨
      (x.2.2 ∈ sd.facingSources ∧ (x.2.1 = .IN ∨ rule.bidirectional))) := by
  obtain ⟨r, dir, p⟩ := x
  simp only [genSteps, facingCalls, mem_flatMap, mem_map, Prod.mk.injEq]
  cases hb : rule.bidirectional <;> cases dir <;> simp [eq_comm (a := r)] <;> tauto

/-- What is added comes from a step. -/
theorem rules_foldl_imp : ∀ (steps : List (PolicyRule × Direction × Peer)) (s : Gen),
    fr ∈ (steps.foldl (runStep env target) s).rules →
      fr ∈ s.rules ∨ ∃ x ∈ steps, fr ∈ stepRules env target x := by
  intro steps
  induction steps with
  | nil => intro s h; exact .inl h
  | cons x steps ih =>
    intro s h
    rcases ih _ h with h | ⟨y, hy, hf⟩
    · by_cases hk : ruleKey x.1 x.2.2.ip x.2.1 ∈ s.rulesExists
      · rw [runStep, generatePeer_seen hk] at h
        exact .inl h
      rw [runStep, generatePeer_new hk] at h
      rcases mem_append.mp h with h | h
      · exact .inl h
      · exact .inr ⟨x, mem_cons_self, h⟩
    · exact .inr ⟨y, mem_cons_of_mem x hy, hf⟩

section

variable (env : Env) (target : Peer) (steps : List (PolicyRule × Direction × Peer))

/-- Steps with the same key have the same rules. -/
def KeysTell : Prop :=
  ∀ x ∈ steps, ∀ y ∈ steps, ruleKey x.1 x.2.2.ip x.2.1 = ruleKey y.1 y.2.2.ip y.2.1 →
    stepRules env target x = stepRules env target y

/-- The rules of seen keys are there. -/
def Covers (s : Gen) : Prop :=
  ∀ x ∈ steps, ruleKey x.1 x.2.2.ip x.2.1 ∈ s.rulesExists →
    ∀ fr ∈ stepRules env target x, fr ∈ s.rules

end

theorem Covers.runStep
    (hke : KeysTell env target steps) (h : Covers env target steps s) (hx : x ∈ steps) :
    Covers env target steps (runStep env target s x) ∧
      (∀ fr ∈ s.rules, fr ∈ (Connection.runStep env target s x).rules) ∧
      ∀ fr ∈ stepRules env target x, fr ∈ (Connection.runStep env target s x).rules := by
  by_cases hk : ruleKey x.1 x.2.2.ip x.2.1 ∈ s.rulesExists
  · rw [Connection.runStep, generatePeer_seen hk]
    exact ⟨h, fun _ hf => hf, h x hx hk⟩
  rw [Connection.runStep, generatePeer_new hk]
  refine ⟨fun y hy hky fr hf => ?_, fun fr hf => mem_append_left _ hf,
    fun fr hf => mem_append_right _ hf⟩
  rcases mem_cons.mp hky with hky | hky
  · rw [hke y hy x hx hky] at hf
    exact mem_append_right _ hf
  · exact mem_append_left _ (h y hy hky fr hf)

/-- **The rules of all steps**, where a key tells the rules of a step. -/
theorem mem_rules_foldl (hky : KeysTell env target steps) :
    fr ∈ (steps.foldl (runStep env target) {}).rules ↔
      ∃ x ∈ steps, fr ∈ stepRules env target x := by
  have hr : ∀ (l : List (PolicyRule × Direction × Peer)) (s : Gen), (∀ x ∈ l, x ∈ steps) →
      Covers env target steps s → (∀ fr ∈ s.rules, fr ∈ (l.foldl (runStep env target) s).rules) ∧
        ∀ x ∈ l, ∀ fr ∈ stepRules env target x, fr ∈ (l.foldl (runStep env target) s).rules := by
    intro l
    induction l with
    | nil => intro s _ _; exact ⟨fun _ h => h, fun _ h => absurd h not_mem_nil⟩
    | cons x l ih =>
      intro s hl hs
      obtain ⟨hc, hold, hn⟩ := hs.runStep hky (hl x mem_cons_self)
      grind
  constructor
  · intro h
    exact (rules_foldl_imp steps {} h).resolve_left not_mem_nil
  · rintro ⟨x, hx, hf⟩
    have hst : Covers env target steps {} := fun _ _ hk => absurd hk not_mem_nil
    exact (hr steps {} (fun _ h => h) hst).2 x hx fr hf

/-- Every rule has the address of a facing peer. -/
theorem origin_of_mem_foldl_generateRule {rule : ι → PolicyRule} {sides : ι → Sides} (l : List ι)
    (s : Gen)
    (h : fr ∈ (l.foldl (fun s i => generateRule env target s (rule i) (sides i)) s).rules) :
    fr ∈ s.rules ∨ ∃ i ∈ l, ∃ p ∈ (sides i).facing, fr.peerIP = p.ip := by
  rw [foldl_generateRule_eq_steps] at h
  rcases rules_foldl_imp _ s h with h | ⟨x, hx, hf⟩
  · exact .inl h
  obtain ⟨i, hi, hx⟩ := mem_flatMap.mp hx
  refine .inr ⟨i, hi, x.2.2, ?_, congrArg FirewallRule.peerIP (eq_of_mem_peerRules hf)⟩
  rcases (mem_genSteps.mp hx).2 with ⟨hp, -⟩ | ⟨hp, -⟩
  · exact mem_append_left _ hp
  · exact mem_append_right _ hp

/-! ## Leaving policies out -/

theorem activeRules_filter (R : Policy → Bool) (policies : List Policy) :
    activeRules (policies.filter R) = (activeRules policies).filter (R ·.1) := by
  unfold activeRules
  induction policies with
  | nil => rfl
  | cons pol policies ih =>
    cases hR : R pol <;> cases he : pol.enabled <;>
      simp only [filter_cons, hR, he, if_true, if_false, Bool.false_eq_true,
        flatMap_cons, filter_append, ih]
    all_goals simp [filter_map, Function.comp_def, hR]

/-- Leaving a policy out is the same as reading its rules as empty. -/
theorem foldl_generateRule_filter (R : Policy → Bool) (policies : List Policy)
    (sides : Policy → PolicyRule → Sides) (s : Gen) : (activeRules (policies.filter R)).foldl
        (fun s pr => generateRule env target s pr.2 (sides pr.1 pr.2)) s =
      (activeRules policies).foldl (fun s pr => generateRule env target s pr.2
          (if R pr.1 then sides pr.1 pr.2 else {})) s := by
  rw [activeRules_filter, foldl_filter]
  congr 1
  funext s pr
  split
  · rfl
  · unfold generateRule ruleCalls
    cases pr.2.bidirectional <;> rfl

end Connection

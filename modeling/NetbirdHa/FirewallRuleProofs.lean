import NetbirdHa.AccountProofs
import Mathlib.Data.List.Infix

/-! # Firewall rules

Two generators.  `connResourcesGenerator` turns calls (rule, peers,
direction) into the peers to connect to and their firewall rules; it leaves
out a rule whose text key it has seen.  `generateRouteFirewallRules` turns a
policy rule and its peers into the rules of one route.

Within one call the key determines the peer's address, so a call adds the
rules of all its peers whose key is new (`mem_generate_rules`).  Hence the
outcome of a sequence of calls depends on the peers of each call as a set
only (`Gen.Same.generate`). -/

namespace FirewallRules

open Table AccountModel List

/-- `FirewallRuleDirectionIN`, `FirewallRuleDirectionOUT`. -/
inductive Direction where
  | IN
  | OUT
deriving DecidableEq

/-- `strconv.Itoa` of the direction. -/
def Direction.text : Direction → String
  | .IN => "0"
  | .OUT => "1"

/-- `FirewallRule`. -/
structure FirewallRule where
  policyID : String
  peerIP : String
  direction : Direction
  action : String
  protocol : String
  port : String := ""
  portRange : PortRange := {}
deriving DecidableEq

/-! ## Ports -/

/-- The port of the native SSH server. -/
def nativeSSHPortString : String := "22022"

/-- The port of any other SSH server. -/
def defaultSSHPortString : String := "22"

/-- What a peer's version understands. -/
structure SupportedFeatures where
  nativeSSH : Bool
  portRanges : Bool

/-- `strings.Contains`. -/
def containsText (s sub : String) : Bool := sub.toList <:+: s.toList

/-- `peerSupportedFirewallFeatures`: a development build understands all. -/
def peerSupportedFirewallFeatures (env : Env) (peerVer : String) : SupportedFeatures :=
  if containsText peerVer "dev" then ⟨true, true⟩
  else
    let native := env.meetsMinVersion "0.60.0" peerVer = some true
    ⟨native, native || env.meetsMinVersion "0.48.0" peerVer = some true⟩

/-- `isPortInRule`. -/
def isPortInRule (portString : String) (portInt : UInt16) (r : FirewallRule) : Bool :=
  r.port = portString || (r.portRange.start ≤ portInt && portInt ≤ r.portRange.stop)

/-- `addNativeSSHRule`: port 22022 joins port 22, unless it is there. -/
def addNativeSSHRule (base : FirewallRule) (expanded : List FirewallRule) : List FirewallRule :=
  if expanded.any (isPortInRule nativeSSHPortString 22022) then expanded
  else if expanded.any (isPortInRule defaultSSHPortString 22) then
    expanded ++ [{ base with port := nativeSSHPortString }]
  else expanded

/-- `shouldCheckRulesForNativeSSH`. -/
def shouldCheckRulesForNativeSSH (supportsNative : Bool) (rule : PolicyRule) (peer : Peer) :
    Bool :=
  supportsNative && peer.sshEnabled && peer.serverSSHAllowed && rule.protocol = .tcp

/-- One port range: a peer that does not know ranges gets single ports only. -/
def expandRange (features : SupportedFeatures) (base : FirewallRule) (r : PortRange) :
    Option FirewallRule :=
  if features.portRanges then some { base with portRange := r }
  else if r.start ≠ r.stop then none
  else some { base with port := toString r.start.toNat }

/-- `expandPortsAndRanges`; ports come before port ranges. -/
def expandPortsAndRanges (env : Env) (base : FirewallRule) (rule : PolicyRule) (peer : Peer) :
    List FirewallRule :=
  let features := peerSupportedFirewallFeatures env peer.wtVersion
  let expanded := rule.ports.map (fun port => { base with port := port })
    ++ if rule.ports = [] then rule.portRanges.filterMap (expandRange features base) else []
  if shouldCheckRulesForNativeSSH features.nativeSSH rule peer || rule.protocol = .netbirdSSH then
    addNativeSSHRule base expanded
  else expanded

/-! ## `connResourcesGenerator` -/

/-- The protocol a rule is enforced with: SSH is TCP. -/
def enforcedProtocol (p : Protocol) : Protocol :=
  if p = .netbirdSSH then .tcp else p

section

variable (env : Env) (target : Peer) (rule : PolicyRule) (ip : String) (dir : Direction)

/-- The rule for one peer, before ports. -/
def baseRule : FirewallRule where
  policyID := rule.id
  peerIP := ip
  direction := dir
  action := rule.action.text
  protocol := (enforcedProtocol rule.protocol).text

/-- The key under which a rule is left out the second time. -/
def ruleKey : String :=
  rule.id ++ ip ++ dir.text ++ (enforcedProtocol rule.protocol).text ++ rule.action.text
    ++ ",".intercalate rule.ports

/-- The rules for one peer. -/
def peerRules : List FirewallRule :=
  if rule.ports = [] ∧ rule.portRanges = [] then [baseRule rule ip dir]
  else expandPortsAndRanges env (baseRule rule ip dir) rule target

/-- What the generator has accumulated. -/
structure Gen where
  peers : List Peer := []
  rulesExists : List String := []
  rules : List FirewallRule := []

/-- Append a peer unless one with its ID is there. -/
def addPeer (peers : List Peer) (peer : Peer) : List Peer :=
  if peer.id ∈ peers.map Peer.id then peers else peers ++ [peer]

/-- The generator on one peer of a call. -/
def generatePeer (s : Gen) (peer : Peer) : Gen :=
  if ruleKey rule peer.ip dir ∈ s.rulesExists then
    { s with peers := addPeer s.peers peer }
  else
    { peers := addPeer s.peers peer
      rulesExists := ruleKey rule peer.ip dir :: s.rulesExists
      rules := s.rules ++ peerRules env target rule peer.ip dir }

/-- One call of the generator. -/
def generate (s : Gen) (call : List Peer × Direction) : Gen :=
  call.1.foldl (generatePeer env target rule call.2) s

end

theorem ruleKey_injective (h : ruleKey rule ip dir = ruleKey rule ip' dir) : ip = ip' := by
  simpa [ruleKey, String.append_left_inj, String.append_right_inj] using h

section

variable {env : Env} {target : Peer} {rule : PolicyRule} {dir : Direction}

theorem generatePeer_seen (hk : ruleKey rule peer.ip dir ∈ s.rulesExists) :
    generatePeer env target rule dir s peer = { s with peers := addPeer s.peers peer } :=
  if_pos hk

theorem generatePeer_new (hk : ruleKey rule peer.ip dir ∉ s.rulesExists) :
    generatePeer env target rule dir s peer =
      { peers := addPeer s.peers peer
        rulesExists := ruleKey rule peer.ip dir :: s.rulesExists
        rules := s.rules ++ peerRules env target rule peer.ip dir } :=
  if_neg hk

theorem generate_nil (s : Gen) : generate env target rule s ([], dir) = s := rfl

theorem generate_cons (s : Gen) (x : Peer) (l : List Peer) :
    generate env target rule s (x :: l, dir) =
      generate env target rule (generatePeer env target rule dir s x) (l, dir) := rfl

/-- Keys seen after a call. -/
theorem mem_generate_rulesExists :
    ∀ (l : List Peer) (s : Gen), k ∈ (generate env target rule s (l, dir)).rulesExists ↔
        k ∈ s.rulesExists ∨ ∃ p ∈ l, k = ruleKey rule p.ip dir := by
  have hs : ∀ (s : Gen) (p : Peer), k ∈ (generatePeer env target rule dir s p).rulesExists ↔
        k ∈ s.rulesExists ∨ k = ruleKey rule p.ip dir := by
    intro s p
    by_cases hk : ruleKey rule p.ip dir ∈ s.rulesExists
    all_goals grind [generatePeer_seen, generatePeer_new]
  exact fun l s => foldl_iff (P := fun s => k ∈ Gen.rulesExists s) hs l s

/-- Rules after a call: those of the peers whose key is new. -/
theorem mem_generate_rules :
    ∀ (l : List Peer) (s : Gen), r ∈ (generate env target rule s (l, dir)).rules ↔
        r ∈ s.rules ∨ ∃ p ∈ l, ruleKey rule p.ip dir ∉ s.rulesExists ∧
          r ∈ peerRules env target rule p.ip dir := by
  intro l
  induction l with
  | nil => intro s; simp [generate_nil]
  | cons x l ih =>
    intro s
    rw [generate_cons, ih]
    by_cases hk : ruleKey rule x.ip dir ∈ s.rulesExists
    · rw [generatePeer_seen hk]
      simp [hk, false_and, false_or]
    rw [generatePeer_new hk]
    rw [exists_mem_cons_iff]
    simp only [hk, not_false_eq_true, true_and, mem_append, mem_cons, not_or]
    constructor
    · rintro ((h | h) | ⟨p, hp, hn, hr⟩)
      · exact .inl h
      · exact .inr (.inl h)
      · exact .inr (.inr ⟨p, hp, hn.2, hr⟩)
    · rintro (h | h | ⟨p, hp, hn, hr⟩)
      · exact .inl (.inl h)
      · exact .inl (.inr h)
      · -- a second peer with the same key has the same address
        by_cases he : ruleKey rule p.ip dir = ruleKey rule x.ip dir
        · rw [ruleKey_injective he] at hr
          exact .inl (.inr hr)
        · exact .inr ⟨p, hp, ⟨he, hn⟩, hr⟩

/-- Peers after a call, when equal IDs mean equal peers. -/
theorem mem_generate_peers {U : Peer → Prop} (hU : ∀ p q, U p → U q → p.id = q.id → p = q) :
    ∀ (l : List Peer) (s : Gen), (∀ q ∈ l, U q) → (∀ q ∈ s.peers, U q) →
      (p ∈ (generate env target rule s (l, dir)).peers ↔ p ∈ s.peers ∨ p ∈ l) := by
  intro l
  induction l with
  | nil => intro s _ _; simp [generate_nil]
  | cons x l ih =>
    intro s hl hs
    have hx : U x := hl x mem_cons_self
    have hm : ∀ q, q ∈ (generatePeer env target rule dir s x).peers ↔ q ∈ s.peers ∨ q = x := by
      intro q
      by_cases hk : ruleKey rule x.ip dir ∈ s.rulesExists
      · rw [generatePeer_seen hk]
        grind [addPeer]
      · rw [generatePeer_new hk]
        grind [addPeer]
    grind [generate_cons]

end

/-! ## Sequences of calls -/

/-- Two generators that have accumulated the same, as sets. -/
structure Gen.Same (s s' : Gen) : Prop where
  peers : SameSet s.peers s'.peers
  rulesExists : SameSet s.rulesExists s'.rulesExists
  rules : SameSet s.rules s'.rules

theorem Gen.Same.refl (s : Gen) : s.Same s := ⟨SameSet.refl _, SameSet.refl _, SameSet.refl _⟩

/-- **A call with the same peers, in whatever order, adds the same.** -/
theorem Gen.Same.generate {env : Env} {U : Peer → Prop}
    (hU : ∀ p q, U p → U q → p.id = q.id → p = q) (h : s.Same s')
    (hl : SameSet l l') (dir : Direction) (hUl : ∀ q ∈ l, U q) (hUs : ∀ q ∈ s.peers, U q) :
    (FirewallRules.generate env target rule s (l, dir)).Same
      (FirewallRules.generate env target rule s' (l', dir)) where
  peers := by
    intro p
    rw [mem_generate_peers hU l s hUl hUs,
      mem_generate_peers hU l' s' (fun q hq => hUl q ((hl q).mpr hq))
        (fun q hq => hUs q ((h.peers q).mpr hq)), h.peers p, hl p]
  rulesExists := by
    intro k
    rw [mem_generate_rulesExists, mem_generate_rulesExists, h.rulesExists k]
    simp only [hl _]
  rules := by
    intro r
    rw [mem_generate_rules, mem_generate_rules, h.rules r]
    simp only [hl _, h.rulesExists _]

end FirewallRules

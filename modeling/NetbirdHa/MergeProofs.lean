import NetbirdHa.LegacyMapProofs
import NetbirdHa.NetipProofs

/-! # Merging two network maps

`NetworkMap.Merge` puts the map computed for the proxies into the map of a
peer.  `MergeUnique` keeps the first of every class of elements that `Equal`
does not tell apart, and `RouteFirewallRule.Equal` does not compare the source
ranges: of two rules that differ in their sources only, the second is lost.
What the merge keeps is said by the packets that the rules match. -/

namespace NetworkMerge

open Table AccountModel FirewallRules Routes Netip List

/-! ## The first of every class -/

section

variable {α : Type} (equal : α → α → Bool)

/-- `contains`. -/
def contains (slice : List α) (element : α) : Bool := slice.any (equal · element)

/-- The body of the loops of `MergeUnique`. -/
def addUnique (result : List α) (item : α) : List α :=
  if contains equal result item then result else result ++ [item]

/-- `MergeUnique`. -/
def mergeUnique (arr1 arr2 : List α) : List α :=
  arr2.foldl (addUnique equal) (arr1.foldl (addUnique equal) [])

/-- `k` is in the list and no element before it equals it. -/
def First : List α → α → Prop
  | [], _ => False
  | x :: l, k => k = x ∨ (equal x k = false ∧ First l k)

variable {equal} {l acc : List α} {k r : α}

theorem contains_concat (x : α) : contains equal (acc ++ [x]) k =
    (contains equal acc k || equal x k) := by
  simp [contains]

/-- Equal elements are found in the same lists. -/
theorem contains_of_equal {x : α} (ht : ∀ x y z, equal x y → equal y z → equal x z)
    (hx : contains equal acc x) (he : equal x k) : contains equal acc k := by
  obtain ⟨y, hy, hyx⟩ := any_eq_true.mp hx
  exact any_eq_true.mpr ⟨y, hy, ht _ _ _ hyx he⟩

/-- A loop of `MergeUnique` adds the first elements of classes it has not met. -/
theorem mem_foldl_addUnique (ht : ∀ x y z, equal x y → equal y z → equal x z) :
    k ∈ l.foldl (addUnique equal) acc ↔ k ∈ acc ∨
      (First equal l k ∧ contains equal acc k = false) := by
  induction l generalizing acc with
  | nil => simp [First]
  | cons x l ih =>
    rw [foldl_cons, ih, addUnique, First]
    cases hx : contains equal acc x with
    | true =>
      -- neither `x` nor what equals it is new
      rw [if_pos rfl]
      refine or_congr_right (and_congr_left fun hk => ?_)
      have hkx : k ≠ x := by
        rintro rfl
        simp [hx] at hk
      have hxk : equal x k = false := by
        by_contra he
        rw [contains_of_equal ht hx (by simpa using he)] at hk
        exact absurd hk (by decide)
      simp [hkx, hxk]
    | false =>
      rw [if_neg (by decide), contains_concat, mem_append, mem_singleton, Bool.or_eq_false_iff]
      constructor
      · rintro ((hk | rfl) | ⟨hf, hk, hxk⟩)
        · exact .inl hk
        · exact .inr ⟨.inl rfl, hx⟩
        · exact .inr ⟨.inr ⟨hxk, hf⟩, hk⟩
      · rintro (hk | ⟨rfl | ⟨hxk, hf⟩, hk⟩)
        · exact .inl (.inl hk)
        · exact .inl (.inr rfl)
        · exact .inr ⟨hf, hk, hxk⟩

/-- **The first of every class**: what `MergeUnique` keeps, in the order of the two lists. -/
theorem mem_mergeUnique (ht : ∀ x y z, equal x y → equal y z → equal x z) {m : List α} :
    k ∈ mergeUnique equal l m ↔ First equal (l ++ m) k := by
  rw [mergeUnique, ← List.foldl_append, mem_foldl_addUnique ht]
  simp [contains]

theorem First.mem (h : First equal l k) : k ∈ l := by
  induction l with
  | nil => exact h.elim
  | cons x l ih =>
    rcases h with rfl | ⟨_, h⟩
    · exact mem_cons_self
    · exact mem_cons_of_mem _ (ih h)

/-- Every element equals the first of its class. -/
theorem exists_first (hr : ∀ x, equal x x) (ht : ∀ x y z, equal x y → equal y z → equal x z)
    (h : r ∈ l) : ∃ k, First equal l k ∧ equal k r := by
  induction l with
  | nil => exact absurd h not_mem_nil
  | cons x l ih =>
    rcases mem_cons.mp h with rfl | h
    · exact ⟨r, .inl rfl, hr r⟩
    obtain ⟨k, hk, hkr⟩ := ih h
    cases hxk : equal x k with
    | true => exact ⟨x, .inl rfl, ht _ _ _ hxk hkr⟩
    | false => exact ⟨k, .inr ⟨hxk, hk⟩, hkr⟩

end

/-! ## The maps -/

/-- `ForwardingRule`. -/
structure ForwardingRule where
  ruleProtocol : String
  destinationPorts : PortRange
  translatedAddress : List UInt8
  translatedPorts : PortRange

/-- The map of `LegacyMap`, with the rules that only the proxies' map has. -/
structure NetworkMap extends LegacyMap.NetworkMap where
  forwardingRules : List ForwardingRule := []

/-- `net.IP.Equal`: an IPv4 address equals its IPv4-mapped form. -/
def ipEqual (ip x : List UInt8) : Bool :=
  let mapped (a b : List UInt8) : Bool :=
    b.take 12 = [0, 0, 0, 0, 0, 0, 0, 0, 0, 0, 0xff, 0xff] && a = b.drop 12
  if ip.length = x.length then ip = x
  else if ip.length = 4 ∧ x.length = 16 then mapped ip x
  else if ip.length = 16 ∧ x.length = 4 then mapped x ip
  else false

/-- `ForwardingRule.Equal`. -/
def ForwardingRule.equal (f other : ForwardingRule) : Bool :=
  f.ruleProtocol = other.ruleProtocol && f.destinationPorts = other.destinationPorts &&
    ipEqual f.translatedAddress other.translatedAddress &&
    f.translatedPorts = other.translatedPorts

/-- `Route.Equal`: all fields, a missing list of domains like an empty one. -/
def routeEqual (r other : Route) : Bool :=
  { r with domains := some (r.domains.getD []) } =
    { other with domains := some (other.domains.getD []) }

/-- `RouteFirewallRule.Equal`, which compares neither the sources nor the names.  `List.Equal`
    of the domains sorts both lists in place; no match depends on their order. -/
def ruleEqual (r other : RouteFirewallRule) : Bool :=
  r.action = other.action && r.destination = other.destination && r.protocol = other.protocol &&
    r.port = other.port && r.portRange = other.portRange &&
    (r.domains.getD []).Perm (other.domains.getD []) && r.isDynamic = other.isDynamic

/-- `mergeUniquePeersByID`: the first map's peers stay. -/
def mergeUniquePeersByID (peers1 peers2 : List Peer) : GoMap Peer :=
  peers2.foldl (fun result peer => if peer.id ∈ result then result else result.insert peer.id peer)
    (peers1.foldl (fun result peer => result.insert peer.id peer) ∅)

/-- `NetworkMap.Merge`. -/
def NetworkMap.merge (nm other : NetworkMap) : NetworkMap :=
  { nm with
    peers := (mergeUniquePeersByID nm.peers other.peers).entries.map Sigma.snd
    routes := mergeUnique routeEqual nm.routes other.routes
    offlinePeers := (mergeUniquePeersByID nm.offlinePeers other.offlinePeers).entries.map Sigma.snd
    firewallRules := mergeUnique (fun r other => decide (r = other)) nm.firewallRules
      other.firewallRules
    routesFirewallRules := mergeUnique ruleEqual nm.routesFirewallRules other.routesFirewallRules
    forwardingRules := mergeUnique ForwardingRule.equal nm.forwardingRules other.forwardingRules }

theorem ruleEqual_iff {r other : RouteFirewallRule} : ruleEqual r other ↔
    r.action = other.action ∧ r.destination = other.destination ∧ r.protocol = other.protocol ∧
      r.port = other.port ∧ r.portRange = other.portRange ∧
      (r.domains.getD []).Perm (other.domains.getD []) ∧ r.isDynamic = other.isDynamic := by
  simp only [ruleEqual, Bool.and_eq_true, decide_eq_true_eq, and_assoc]

theorem ruleEqual_refl (r : RouteFirewallRule) : ruleEqual r r :=
  ruleEqual_iff.mpr ⟨rfl, rfl, rfl, rfl, rfl, .refl _, rfl⟩

theorem ruleEqual_trans (r s t : RouteFirewallRule) (h : ruleEqual r s) (h' : ruleEqual s t) :
    ruleEqual r t := by
  obtain ⟨ha, hd, hp, ho, hg, hm, hy⟩ := ruleEqual_iff.mp h
  obtain ⟨ha', hd', hp', ho', hg', hm', hy'⟩ := ruleEqual_iff.mp h'
  exact ruleEqual_iff.mpr ⟨ha.trans ha', hd.trans hd', hp.trans hp', ho.trans ho', hg.trans hg',
    hm.trans hm', hy.trans hy'⟩

/-! ## What a rule matches -/

/-- What of a packet a route firewall rule is about. -/
structure Packet where
  src : Addr
  dst : Addr
  protocol : String
  port : UInt16

/-- The address is in one of the rule's source ranges. -/
def hasSource (r : RouteFirewallRule) (x : Addr) : Bool :=
  r.sourceRanges.any fun range => (parsePrefix range).any (·.contains x)

/-- The port is the rule's port, or in its range, or the rule has neither (`getProtoPortInfo`). -/
def hasPort (r : RouteFirewallRule) (port : UInt16) : Bool :=
  if r.port ≠ 0 then port = r.port
  else if r.portRange.start ≠ 0 ∧ r.portRange.stop ≠ 0 then
    r.portRange.start ≤ port && port ≤ r.portRange.stop
  else true

section

variable (resolves : String → Addr → Bool)

/-- The rule is about the packet, its source left aside.  A dynamic rule is about the addresses
    its domains resolve to. -/
def about (r : RouteFirewallRule) (p : Packet) : Bool :=
  (if r.isDynamic then (r.domains.getD []).any (resolves · p.dst)
    else (parsePrefix r.destination).any (·.contains p.dst)) &&
    (r.protocol = "all" || r.protocol = p.protocol) && hasPort r p.port

/-- The rule matches the packet. -/
def matchesPacket (r : RouteFirewallRule) (p : Packet) : Bool :=
  hasSource r p.src && about resolves r p

/-- Some rule matches the packet with the action. -/
def Decides (rules : List RouteFirewallRule) (p : Packet) (action : String) : Prop :=
  ∃ r ∈ rules, r.action = action ∧ matchesPacket resolves r p

/-- The rules of both maps, in the order `Merge` meets them. -/
def bothRules (nm other : NetworkMap) : List RouteFirewallRule :=
  nm.routesFirewallRules ++ other.routesFirewallRules

/-- Every packet that a rule matches is matched, with the same action, by a rule that no rule
    before it equals. -/
def FirstsCover (rules : List RouteFirewallRule) : Prop :=
  ∀ r ∈ rules, ∀ p, matchesPacket resolves r p →
    ∃ k, First ruleEqual rules k ∧ k.action = r.action ∧ matchesPacket resolves k p

variable {resolves} {rules : List RouteFirewallRule} {r k : RouteFirewallRule} {p : Packet}

/-- Rules that `Equal` does not tell apart differ in their sources only. -/
theorem about_of_equal (h : ruleEqual k r) : about resolves k p = about resolves r p := by
  obtain ⟨-, hd, hp, ho, hg, hm, hy⟩ := ruleEqual_iff.mp h
  simp only [about, hasPort, hd, hp, ho, hg, hy, hm.any_eq]

/-- Where equal rules list the same sources, nothing depends on which of them is kept. -/
theorem firstsCover_of_sources
    (h : ∀ r ∈ rules, ∀ k ∈ rules, ruleEqual k r → ∀ x, hasSource r x → hasSource k x) :
    FirstsCover resolves rules := by
  intro r hr p hp
  obtain ⟨k, hk, hkr⟩ := exists_first ruleEqual_refl ruleEqual_trans hr
  obtain ⟨hs, ha⟩ := Bool.and_eq_true_iff.mp hp
  refine ⟨k, hk, (ruleEqual_iff.mp hkr).1, Bool.and_eq_true_iff.mpr ⟨?_, ?_⟩⟩
  · exact h r hr k hk.mem hkr _ hs
  · rw [about_of_equal hkr]
    exact ha

end

/-- HTTPS into one network, from the given sources. -/
def web (sources : List String) : RouteFirewallRule where
  routeID := "r"
  sourceRanges := sources
  action := "accept"
  destination := "172.16.0.0/12"
  protocol := "tcp"
  port := 443
  domains := none
  isDynamic := false

/-- A map with one rule. -/
def webMap (sources : List String) : NetworkMap :=
  { network := {}, routesFirewallRules := [web sources] }

end NetworkMerge

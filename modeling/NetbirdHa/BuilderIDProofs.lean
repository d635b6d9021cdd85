import NetbirdHa.BuilderIndexProofs
import NetbirdHa.TextProofs

/-! # The IDs of the builder tell apart

Rules and routes are kept under IDs that all peers share.  The ID of a
firewall rule has all its fields (`generateFirewallRuleID_inj`), and the ID of
a route tells which route of which routing peer it is.  The ID of a route
firewall rule leaves out the policy and the port range: two rules of a route
that differ in nothing else are one to the builder. -/

namespace Builder

open AccountModel FirewallRules Connection Text String

theorem colon_toList : ":".toList = [':'] := rfl

/-! ## Firewall rules -/

theorem Direction.text_inj {d d' : Direction} (h : d.text = d'.text) : d = d' := by
  cases d <;> cases d' <;> first | rfl | exact absurd h (by decide)

theorem colon_notMem_direction (d : Direction) : ':' ∉ d.text.toList := by
  cases d <;> decide

theorem colon_notMem_protocol (p : Protocol) : ':' ∉ p.text.toList := by
  cases p <;> decide

theorem colon_notMem_action (x : TrafficAction) : ':' ∉ x.text.toList := by
  cases x <;> decide

/-- The key of the generator tells rule, address and direction, for rule IDs of one length. -/
theorem ruleKey_inj (hl : rule.id.length = rule'.id.length) (hi : rule.id = rule'.id → rule = rule')
    (h : ruleKey rule ip dir = ruleKey rule' ip' dir') : rule = rule' ∧ ip = ip' ∧ dir = dir' := by
  simp only [ruleKey, append_assoc] at h
  obtain ⟨h1, h2⟩ := append_length_inj hl h
  obtain rfl := hi h1
  simp only [← append_assoc] at h2
  have h3 : ip ++ dir.text = ip' ++ dir'.text := by simpa only [append_left_inj] using h2
  have hd : dir.text.toList.length = dir'.text.toList.length := by
    cases dir <;> cases dir' <;> rfl
  have h4 : ip.toList ++ dir.text.toList = ip'.toList ++ dir'.text.toList := by
    simpa using congrArg toList h3
  obtain ⟨h5, h6⟩ := List.append_inj' h4 hd
  exact ⟨rfl, toList_inj.mp h5, Direction.text_inj (toList_inj.mp h6)⟩

/-- Rules whose IDs are xids do not collide. -/
theorem keysApart_of_xids {rules : List PolicyRule} (peers : List Peer)
    (hn : (rules.map PolicyRule.id).Nodup)
    (hl : ∀ rule ∈ rules, ∀ rule' ∈ rules, rule.id.length = rule'.id.length) :
    KeysApart rules peers := by
  intro rule hr rule' hr' p _ p' _ dir dir' hk env target
  obtain ⟨rfl, hi, rfl⟩ :=
    ruleKey_inj (hl rule hr rule' hr') (List.inj_on_of_nodup_map hn hr hr') hk
  rw [hi]

/-- In an account the keys of the generator tell its steps. -/
theorem keysTell {a : IndexedAccount} (hs : ∀ x ∈ steps,
      x.1 ∈ a.policies.flatMap Policy.rules ∧ a.getPeer x.2.2.id = some x.2.2) :
    KeysTell env target steps := by
  intro x hx y hy hk
  obtain ⟨hr, hp⟩ := hs x hx
  obtain ⟨hr', hp'⟩ := hs y hy
  exact a.ruleKeys x.1 hr y.1 hr' x.2.2 (Table.Keyed.mem_of_get hp) y.2.2
    (Table.Keyed.mem_of_get hp') x.2.1 y.2.1 hk env target

/-- The fields of a rule that come after its policy have no colon. -/
structure Separable (r : FirewallRule) : Prop where
  peerIP : ':' ∉ r.peerIP.toList
  action : ':' ∉ r.action.toList
  protocol : ':' ∉ r.protocol.toList
  port : ':' ∉ r.port.toList

/-- The rules for an address, as ports have no colon. -/
theorem separable_of_mem (hr : r ∈ peerRules env target rule ip dir) (hip : ':' ∉ ip.toList)
    (hpo : ∀ port ∈ rule.ports, ':' ∉ port.toList) : Separable r := by
  have hb : ∀ {port range}, ':' ∉ port.toList →
      Separable { baseRule rule ip dir with port := port, portRange := range } :=
    fun hp => ⟨hip, colon_notMem_action _, colon_notMem_protocol _, hp⟩
  have he : ':' ∉ "".toList := by decide
  exact of_mem_peerRules (hb he) (fun port hp => hb (hpo port hp)) (fun _ => hb he)
    (fun n => hb (notMem_nat rfl n)) (hb (by decide)) hr

theorem colon_notMem_range (m n : Nat) : ':' ∉ (toString m ++ ("-" ++ toString n)).toList := by
  intro hm
  simp only [toList_append, List.mem_append] at hm
  rcases hm with hm | hm | hm
  · exact notMem_nat rfl _ hm
  · exact absurd hm (by decide)
  · exact notMem_nat rfl _ hm

theorem regroup (a b c d e f g h : String) :
    "fw:" ++ a ++ ":" ++ b ++ ":" ++ c ++ ":" ++ d ++ ":" ++ e ++ ":" ++ f ++ ":" ++ g ++ "-" ++ h =
      "fw:" ++ a ++ (":" ++ b) ++ (":" ++ c) ++ (":" ++ d) ++ (":" ++ e) ++ (":" ++ f) ++
        (":" ++ (g ++ ("-" ++ h))) := by
  simp only [append_assoc]

/-- The ID, as it is read from the end. -/
theorem generateFirewallRuleID_eq (r : FirewallRule) : generateFirewallRuleID r =
    "fw:" ++ r.policyID ++ (":" ++ r.peerIP) ++ (":" ++ r.direction.text) ++ (":" ++ r.protocol) ++
      (":" ++ r.action) ++ (":" ++ r.port) ++
      (":" ++ (toString r.portRange.start.toNat ++ ("-" ++ toString r.portRange.stop.toNat))) :=
  regroup ..

/-- **The ID of a firewall rule tells the rule.**  The policy may hold anything. -/
theorem generateFirewallRuleID_inj {r r' : FirewallRule} (hr : Separable r) (hr' : Separable r')
    (h : generateFirewallRuleID r = generateFirewallRuleID r') : r = r' := by
  rw [generateFirewallRuleID_eq, generateFirewallRuleID_eq] at h
  obtain ⟨h, hr7⟩ := sep_append_inj colon_toList (colon_notMem_range _ _) (colon_notMem_range _ _) h
  obtain ⟨h, h6⟩ := sep_append_inj colon_toList hr.port hr'.port h
  obtain ⟨h, h5⟩ := sep_append_inj colon_toList hr.action hr'.action h
  obtain ⟨h, h4⟩ := sep_append_inj colon_toList hr.protocol hr'.protocol h
  obtain ⟨h, h3⟩ := sep_append_inj colon_toList (colon_notMem_direction _)
    (colon_notMem_direction _) h
  obtain ⟨h, h2⟩ := sep_append_inj colon_toList hr.peerIP hr'.peerIP h
  have h1 := (append_right_inj _).mp h
  obtain ⟨h7, h8⟩ := append_sep_inj (c := '-') rfl (notMem_nat rfl _) (notMem_nat rfl _) hr7
  have hra : r.portRange = r'.portRange := by
    have h9 := UInt16.toNat_inj.mp (nat_inj h7)
    have h10 := UInt16.toNat_inj.mp (nat_inj h8)
    cases hp : r.portRange
    cases hp' : r'.portRange
    rw [hp, hp'] at h9 h10
    exact congr (congrArg PortRange.mk h9) h10
  cases r
  cases r'
  simp only [FirewallRule.mk.injEq]
  exact ⟨h1, h2, Direction.text_inj h3, h5, h4, h6, hra⟩

end Builder

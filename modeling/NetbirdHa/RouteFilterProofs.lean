import Mathlib.Data.List.Sort
import Mathlib.Data.String.Basic
import NetbirdHa.HmacSha256Proofs
import NetbirdHa.NetipProofs
import NetbirdHa.PeerFilterProofs

/-! # Route rules of the userspace firewall

`AddRouteFiltering` and `DeleteRouteRule` keep the rules for routed packets twice:
in a slice that is sorted after every addition, rules that drop first, and in a map
by key.  The key is a hash of what the rule says, and a rule whose key is there
already is not added again.  `routeACLsPass` takes the first rule of the slice that
matches a packet.

What the calls are for is a set of rules (`installedAfter`): a packet is meant to
pass if an installed rule that accepts matches it and none that drops does.  The
slice is sorted and is what the map has (`Manager.Ok`), and it stands for the
installed rules (`Stands`), after every history of calls.  That one rule can stand
for all that are added under its key is the assumption `CollisionFree`. -/

namespace RouteFilter

open Netip Table List AList
open PeerFilter (LayerType Protocol Port portsMatch protoToLayer)

/-! ## Rules and their keys -/

/-- `firewall.Action`. -/
inductive Action where
  | accept
  | drop
deriving DecidableEq

/-- `firewall.Set`. -/
structure SetName where
  hash : List UInt8 := [0, 0, 0, 0]
  comment : String := ""
deriving DecidableEq

/-- `firewall.Network`: a prefix, or a set whose prefixes come later. -/
structure Network where
  set : SetName := {}
  pfx : Prefix := .invalid
deriving DecidableEq

/-- An installed route rule. -/
structure RouteRule where
  id : String
  mgmtId : List UInt8
  sources : List Prefix
  dstSet : SetName
  destinations : List Prefix
  protoLayer : LayerType
  srcPort : Option Port
  dstPort : Option Port
  action : Action
deriving DecidableEq

/-- The arguments of `AddRouteFiltering`. -/
structure Request where
  id : List UInt8
  sources : List Prefix
  destination : Network
  proto : Protocol
  sPort : Option Port
  dPort : Option Port
  action : Action
deriving DecidableEq

/-- `Set.HashedName`. -/
def SetName.hashedName (s : SetName) : String := "nb-" ++ HmacSha256.hexText s.hash

/-- `Network.String`. -/
def Network.text (d : Network) : String :=
  if d.pfx.isValid then d.pfx.text
  else if d.set ≠ {} then d.set.hashedName
  else "<invalid network>"

/-- The text of a protocol. -/
def protocolText : Protocol → String
  | .tcp => "tcp"
  | .udp => "udp"
  | .icmp => "icmp"
  | .all => "all"
  | .other name => name

/-- `Port.String`. -/
def portText (p : Port) : String :=
  (if p.isRange then "range:" else "") ++ ",".intercalate (p.values.map toString)

/-- The number of an action. -/
def Action.number : Action → Nat
  | .accept => 0
  | .drop => 1

/-- `SortPrefixes`: by address, then longer prefixes first. -/
def sortPrefixes (prefixes : List Prefix) : List Prefix :=
  prefixes.insertionSort (fun p q =>
    p.addr.compare q.addr = .lt ∨ p.addr.compare q.addr = .eq ∧ q.bits ≤ p.bits)

/-- What `GenerateRouteRuleKey` hashes. -/
def keyText (q : Request) : String :=
  "sources:" ++ String.join ((sortPrefixes q.sources).map (·.text ++ ",")) ++
    "destination:" ++ q.destination.text ++
    "proto:" ++ protocolText q.proto ++
    "sPort:" ++ (q.sPort.map portText).getD "<nil>" ++
    "dPort:" ++ (q.dPort.map portText).getD "<nil>" ++
    "action:" ++ toString q.action.number

/-- `GenerateRouteRuleKey`: the destination, and a hash of all the rest. -/
def generateRouteRuleKey (q : Request) : String :=
  q.destination.text ++ "-" ++
    ((HmacSha256.hexText (HmacSha256.sha256 (keyText q).toUTF8.data.toList)).take 16).copy

/-- The rule of a request; its sources have been sorted for the key. -/
def newRule (q : Request) : RouteRule where
  id := generateRouteRuleKey q
  mgmtId := q.id
  sources := sortPrefixes q.sources
  dstSet := q.destination.set
  destinations := if q.destination.pfx.isValid then [q.destination.pfx] else []
  protoLayer := protoToLayer q.proto (.v4 0)
  srcPort := q.sPort
  dstPort := q.dPort
  action := q.action

/-! ## The manager -/

/-- The rules in the order packets meet them, and by their names. -/
structure Manager where
  routeRules : List RouteRule := []
  routeRulesMap : GoMap RouteRule := ∅

/-- The comparison of `RouteRules.Sort`. -/
def compareRules (a b : RouteRule) : Ordering :=
  if a.action = .drop ∧ b.action ≠ .drop then .lt
  else if a.action ≠ .drop ∧ b.action = .drop then .gt
  else compare a.id b.id

/-- The order the rules are kept in. -/
def RouteRule.le (a b : RouteRule) : Prop := compareRules a b ≠ .gt
deriving Decidable

/-- `addRouteFiltering` without a native router: the manager and the rule. -/
def addRouteFiltering (m : Manager) (q : Request) : Manager × RouteRule :=
  match m.routeRulesMap.lookup (generateRouteRuleKey q) with
  | some existing => (m, existing)
  | none =>
    let rule := newRule q
    ({ routeRules := (m.routeRules ++ [rule]).insertionSort RouteRule.le
       routeRulesMap := m.routeRulesMap.insert (generateRouteRuleKey q) rule }, rule)

/-- `deleteRouteRule` without a native router, for the ID of the rule. -/
def deleteRouteRule (m : Manager) (ruleKey : String) : Except String Manager :=
  match m.routeRulesMap.lookup ruleKey with
  | none => .error ("route rule not found: " ++ ruleKey)
  | some _ =>
    match m.routeRules.findIdx? (fun r => decide (r.id = ruleKey)) with
    | none => .error ("route rule not found in slice: " ++ ruleKey)
    | some idx =>
      .ok { routeRules := m.routeRules.eraseIdx idx
            routeRulesMap := m.routeRulesMap.erase ruleKey }

/-- `ruleMatches`. -/
def ruleMatches (rule : RouteRule) (srcAddr dstAddr : Addr) (protoLayer : LayerType)
    (srcPort dstPort : Nat) : Bool :=
  if rule.protoLayer ≠ .all ∧ rule.protoLayer ≠ protoLayer then false
  else if (protoLayer = .tcp ∨ protoLayer = .udp) ∧
      (!portsMatch rule.srcPort srcPort || !portsMatch rule.dstPort dstPort) then false
  else rule.destinations.any (·.contains dstAddr) && rule.sources.any (·.contains srcAddr)

/-- `routeACLsPass`: the ID of the rule that decided, and whether the packet passes. -/
def routeACLsPass (m : Manager) (srcIP dstIP : Addr) (protoLayer : LayerType)
    (srcPort dstPort : Nat) : Option (List UInt8) × Bool :=
  match m.routeRules.find? (ruleMatches · srcIP dstIP protoLayer srcPort dstPort) with
  | some rule => (some rule.mgmtId, decide (rule.action = .accept))
  | none => (none, false)

/-! ## Calls, and the rules they install -/

/-- A call, and whether routing is left to the native firewall at that time. -/
inductive Call where
  | add (native : Bool) (q : Request)
  | delete (native : Bool) (id : String)
deriving DecidableEq

/-- The native firewall has rules of its own; a call that fails changes nothing. -/
def Manager.apply (m : Manager) : Call → Manager
  | .add native q => if native then m else (addRouteFiltering m q).1
  | .delete native id =>
    if native then m
    else
      match deleteRouteRule m id with
      | .ok m' => m'
      | .error _ => m

/-- The manager after the calls. -/
def managerAfter (calls : List Call) : Manager := calls.foldl Manager.apply {}

/-- A rule is installed by its call and until it is deleted. -/
def install (rules : List RouteRule) : Call → List RouteRule
  | .add native q => if native then rules else rules ++ [newRule q]
  | .delete native id => if native then rules else rules.filter (fun r => decide (r.id ≠ id))

/-- The rules the calls install, by the plain reading of the calls. -/
def installedAfter (calls : List Call) : List RouteRule := calls.foldl install []

/-- Two rules say the same about every packet. -/
def RouteRule.SaysSame (r r' : RouteRule) : Prop :=
  r.sources = r'.sources ∧ r.destinations = r'.destinations ∧ r.protoLayer = r'.protoLayer ∧
    r.srcPort = r'.srcPort ∧ r.dstPort = r'.dstPort ∧ r.action = r'.action

/-- Rules with one key say the same. -/
def CollisionFree (calls : List Call) : Prop :=
  ∀ q q', Call.add false q ∈ calls → Call.add false q' ∈ calls →
    generateRouteRuleKey q = generateRouteRuleKey q' → (newRule q).SaysSame (newRule q')

/-! ## The order of the rules -/

section

variable {a b c : RouteRule}

/-- Rules that drop come first, then the order of the names. -/
theorem RouteRule.le_iff :
    a.le b ↔ a.action = .drop ∧ b.action = .accept ∨ a.action = b.action ∧ a.id ≤ b.id := by
  have hi : compare a.id b.id ≠ .gt ↔ a.id ≤ b.id := by rw [ne_eq, compare_gt_iff_gt, not_lt]
  rw [RouteRule.le, compareRules]
  cases a.action <;> cases b.action <;> simp [hi]

instance : Std.Total RouteRule.le where
  total a b := by
    rw [RouteRule.le_iff, RouteRule.le_iff]
    have hid := le_total a.id b.id
    cases a.action <;> cases b.action <;> simp [hid]

instance : IsTrans RouteRule RouteRule.le where
  trans a b c := by
    rw [RouteRule.le_iff, RouteRule.le_iff, RouteRule.le_iff]
    cases a.action <;> cases b.action <;> cases c.action <;> simp <;> exact le_trans

/-- Two rules neither of which comes after the other have one ID. -/
theorem RouteRule.id_eq_of_le (h : a.le b) (h' : b.le a) : a.id = b.id := by
  rw [RouteRule.le_iff] at h h'
  rcases h with ⟨ha, hb⟩ | ⟨ha, hab⟩
  · simp [ha, hb] at h'
  · rcases h' with ⟨hb, ha'⟩ | ⟨-, hba⟩
    · simp [hb, ha'] at ha
    · exact le_antisymm hab hba

/-- Rules that drop come first. -/
theorem RouteRule.drop_of_le (h : a.le b) (hb : b.action = .drop) : a.action = .drop := by
  rcases RouteRule.le_iff.mp h with ⟨ha, -⟩ | ⟨ha, -⟩
  · exact ha
  · exact ha.trans hb

end

/-! ## The slice and the map -/

/-- The slice is sorted, and is what the map has. -/
structure Manager.Ok (m : Manager) : Prop where
  sorted : m.routeRules.Pairwise RouteRule.le
  ids : (m.routeRules.map RouteRule.id).Nodup
  filed : ∀ k r, m.routeRulesMap.lookup k = some r ↔ r ∈ m.routeRules ∧ r.id = k

section

variable {m : Manager} {q : Request} {id : String} {rules : List RouteRule}

/-- A name that is not in the map is not in the list. -/
theorem Manager.Ok.ne_of_lookup_none (h : m.Ok) (hn : m.routeRulesMap.lookup id = none) :
    ∀ r ∈ m.routeRules, r.id ≠ id := by
  intro r hr hi
  cases hn.symm.trans ((h.filed id r).mpr ⟨hr, hi⟩)

/-- A rule with a new key. -/
theorem ok_add (h : m.Ok) (hn : m.routeRulesMap.lookup (generateRouteRuleKey q) = none) :
    (addRouteFiltering m q).1.Ok := by
  have hi := h.ne_of_lookup_none hn
  rw [addRouteFiltering, hn]
  refine ⟨pairwise_insertionSort _ _, ?_, ?_⟩
  · refine (((perm_insertionSort RouteRule.le _).map RouteRule.id).nodup_iff).mpr ?_
    rw [map_append, nodup_append]
    refine ⟨h.ids, nodup_singleton _, ?_⟩
    rintro _ hx _ hy rfl
    obtain ⟨r, hr, hid⟩ := mem_map.mp hx
    exact hi r hr (hid.trans (mem_singleton.mp hy))
  · intro k r
    rw [mem_insertionSort, mem_append, mem_singleton]
    by_cases hk : k = generateRouteRuleKey q
    · subst hk
      rw [lookup_insert]
      constructor
      · rintro ⟨⟩
        exact ⟨.inr rfl, rfl⟩
      · rintro ⟨hr | rfl, hid⟩
        · exact absurd hid (hi r hr)
        · rfl
    · rw [lookup_insert_ne hk, h.filed]
      refine and_congr_left fun hid => ⟨.inl, fun hr => hr.resolve_right ?_⟩
      rintro rfl
      exact hk hid.symm

/-- **Deleting a rule**: it fails if there is none with the ID, and takes it out of the
    slice and the map otherwise. -/
theorem deleteRouteRule_eq (h : m.Ok) (id : String) :
    (m.apply (.delete false id)).routeRules = m.routeRules.filter (fun r => decide (r.id ≠ id)) ∧
      (m.apply (.delete false id)).routeRulesMap = m.routeRulesMap.erase id := by
  have hs := eraseP_eq_filter (k := id) h.ids
  rw [eraseP_eq_eraseIdx] at hs
  cases hl : m.routeRulesMap.lookup id with
  | none =>
    have hn := h.ne_of_lookup_none hl
    have hm : m.routeRulesMap.erase id = m.routeRulesMap :=
      AList.ext (kerase_of_notMem_keys (lookup_eq_none.mp hl))
    grind [Manager.apply, deleteRouteRule]
  | some r =>
    obtain ⟨hr, hid⟩ := (h.filed id r).mp hl
    grind [Manager.apply, deleteRouteRule]

/-- Deleting keeps the manager in order. -/
theorem ok_delete (h : m.Ok) : (m.apply (.delete false id)).Ok := by
  obtain ⟨hru, hm⟩ := deleteRouteRule_eq h id
  refine ⟨?_, ?_, ?_⟩
  · rw [hru]
    exact h.sorted.filter _
  · rw [hru]
    exact h.ids.sublist (filter_sublist.map _)
  · intro k r
    rw [hru, hm, mem_filter, decide_eq_true_iff]
    by_cases hk : k = id
    · subst hk
      rw [lookup_erase]
      exact ⟨nofun, fun hr => absurd hr.2 hr.1.2⟩
    rw [lookup_erase_ne hk, h.filed]
    grind

/-- The slice has only installed rules, and one for every ID that they have. -/
structure Stands (m : Manager) (rules : List RouteRule) : Prop where
  sound : ∀ r ∈ m.routeRules, r ∈ rules
  complete : ∀ r ∈ rules, ∃ r' ∈ m.routeRules, r'.id = r.id

/-- Adding a rule keeps the manager in order and installs the rule. -/
theorem stands_add (h : m.Ok) (hs : Stands m rules) :
    (addRouteFiltering m q).1.Ok ∧ Stands (addRouteFiltering m q).1 (rules ++ [newRule q]) := by
  cases hl : m.routeRulesMap.lookup (generateRouteRuleKey q) with
  | some existing =>
    -- the rule that is there stands for the new one
    obtain ⟨hr, hi⟩ := (h.filed _ existing).mp hl
    have hsa : (addRouteFiltering m q).1 = m := by rw [addRouteFiltering, hl]
    rw [hsa]
    refine ⟨h, fun r hr => mem_append_left _ (hs.sound r hr), ?_⟩
    intro r hr
    rcases mem_append.mp hr with hr | hr
    · exact hs.complete r hr
    · rw [mem_singleton.mp hr]
      exact ⟨existing, ‹_›, hi⟩
  | none =>
    refine ⟨ok_add h hl, ?_⟩
    have hm : ∀ r, r ∈ (addRouteFiltering m q).1.routeRules ↔ r ∈ m.routeRules ∨ r = newRule q := by
      intro r
      rw [addRouteFiltering, hl]
      show r ∈ List.insertionSort _ _ ↔ _
      rw [mem_insertionSort, mem_append, mem_singleton]
    constructor
    · intro r hr
      rcases (hm r).mp hr with hr | rfl
      · exact mem_append_left _ (hs.sound r hr)
      · exact mem_append_right _ (mem_singleton.mpr rfl)
    · intro r hr
      rcases mem_append.mp hr with hr | hr
      · obtain ⟨r', hr', hi⟩ := hs.complete r hr
        exact ⟨r', (hm r').mpr (.inl hr'), hi⟩
      · exact ⟨r, (hm r).mpr (.inr (mem_singleton.mp hr)), rfl⟩

/-- One call. -/
theorem stands_apply (h : m.Ok ∧ Stands m rules) (call : Call) :
    (m.apply call).Ok ∧ Stands (m.apply call) (install rules call) := by
  cases call with
  | add native q =>
    cases native with
    | true => exact h
    | false => exact stands_add h.1 h.2
  | delete native id =>
    cases native with
    | true => exact h
    | false =>
      obtain ⟨hru, -⟩ := deleteRouteRule_eq h.1 id
      refine ⟨ok_delete h.1, ?_, ?_⟩
      · intro r hr
        rw [hru, mem_filter] at hr
        exact mem_filter.mpr ⟨h.2.sound r hr.1, hr.2⟩
      · intro r hr
        obtain ⟨hr, hi⟩ := mem_filter.mp hr
        obtain ⟨r', hr', he⟩ := h.2.complete r hr
        refine ⟨r', ?_, he⟩
        rw [hru, mem_filter, he]
        exact ⟨hr', hi⟩

/-- Every history of calls. -/
theorem stands_after (calls : List Call) :
    (managerAfter calls).Ok ∧ Stands (managerAfter calls) (installedAfter calls) := by
  refine List.foldl_rel (r := fun (m : Manager) rules => m.Ok ∧ Stands m rules)
    ⟨⟨List.Pairwise.nil, nodup_nil, ?_⟩, ?_, ?_⟩ fun call _ _ _ h => stands_apply h call
  · intro k r
    exact ⟨nofun, fun h => absurd h.1 not_mem_nil⟩
  · exact fun r hr => hr
  · exact fun r hr => absurd hr not_mem_nil

end

/-! ## The decision -/

/-- Installed rules come from calls. -/
theorem exists_add_of_installed (calls : List Call) :
    ∀ r ∈ installedAfter calls, ∃ q, Call.add false q ∈ calls ∧ r = newRule q := by
  refine foldl_invariant (P := fun rules => ∀ r ∈ rules, ∃ q, Call.add false q ∈ calls ∧
    r = newRule q)
    calls [] ?_ fun r hr => absurd hr not_mem_nil
  intro rules call hc h r hr
  cases call with
  | add native q =>
    cases native with
    | true => exact h r hr
    | false =>
      rcases mem_append.mp hr with hr | hr
      · exact h r hr
      · exact ⟨q, hc, mem_singleton.mp hr⟩
  | delete native id =>
    cases native with
    | true => exact h r hr
    | false => exact h r (mem_of_mem_filter hr)

section

variable {m : Manager} {r r' : RouteRule} {srcIP dstIP : Addr} {layer : LayerType}
  {srcPort dstPort : Nat}

/-- In a sorted slice the first match is the verdict of all matches. -/
theorem routeACLsPass_iff_rules (h : m.Ok) : (routeACLsPass m srcIP dstIP layer srcPort dstPort).2 ↔
    (∃ r ∈ m.routeRules, r.action = .accept ∧ ruleMatches r srcIP dstIP layer srcPort dstPort) ∧
      ¬ ∃ r ∈ m.routeRules, r.action = .drop ∧ ruleMatches r srcIP dstIP layer srcPort dstPort := by
  have hfi : m.routeRules.Pairwise (fun a b => b.action = .drop → a.action = .drop) :=
    h.sorted.imp fun hl hb => RouteRule.drop_of_le hl hb
  have hfind : (routeACLsPass m srcIP dstIP layer srcPort dstPort).2 ↔ ∃ r, m.routeRules.find?
      (ruleMatches · srcIP dstIP layer srcPort dstPort) = some r ∧ r.action = .accept := by
    rw [routeACLsPass]
    cases m.routeRules.find? _ <;> simp
  rw [hfind]
  constructor
  · rintro ⟨r, hf, ha⟩
    have hr := List.find?_some hf
    refine ⟨⟨r, mem_of_find?_eq_some hf, ha, hr⟩, ?_⟩
    rintro ⟨r', hr', hd, hm⟩
    have hr : r.action = .drop := find?_first hfi hf ⟨r', hr', hm, hd⟩
    rw [ha] at hr
    cases hr
  · rintro ⟨⟨r', hr', -, hm⟩, hn⟩
    have hs : (m.routeRules.find?
        (ruleMatches · srcIP dstIP layer srcPort dstPort)).isSome = true :=
      List.find?_isSome.mpr ⟨r', hr', hm⟩
    obtain ⟨r, hf⟩ := Option.isSome_iff_exists.mp hs
    have hr := List.find?_some hf
    refine ⟨r, hf, ?_⟩
    cases hac : r.action with
    | accept => rfl
    | drop => exact absurd ⟨r, mem_of_find?_eq_some hf, hac, hr⟩ hn

/-- The slice and the installed rules have the same verdicts. -/
theorem exists_rule_iff_installed (hf : CollisionFree calls) (action : Action) :
    (∃ r ∈ (managerAfter calls).routeRules, r.action = action ∧
        ruleMatches r srcIP dstIP layer srcPort dstPort) ↔
      ∃ r ∈ installedAfter calls, r.action = action ∧
        ruleMatches r srcIP dstIP layer srcPort dstPort := by
  obtain ⟨-, hs⟩ := stands_after calls
  constructor
  · rintro ⟨r, hr, h⟩
    exact ⟨r, hs.sound r hr, h⟩
  · rintro ⟨r, hr, ha, hm⟩
    obtain ⟨r', hr', hi⟩ := hs.complete r hr
    -- both come from calls, and they have one key
    obtain ⟨q, hq, rfl⟩ := exists_add_of_installed calls r hr
    obtain ⟨q', hq', rfl⟩ := exists_add_of_installed calls r' (hs.sound r' hr')
    obtain ⟨hso, hd, hl, hsp, hdp, hac⟩ : (newRule q').SaysSame (newRule q) := hf q' q hq' hq hi
    refine ⟨newRule q', hr', hac.trans ha, ?_⟩
    rw [ruleMatches] at hm ⊢
    rwa [hso, hd, hl, hsp, hdp]

end

/-- **Deny overrides.**  After every history of calls the slice is sorted and is what the map has,
    and a packet passes exactly if an installed rule accepts it and none drops it. -/
theorem routeACLsPass_iff_installed (calls : List Call) (hfree : CollisionFree calls) :
    (managerAfter calls).Ok ∧
      ∀ (srcIP dstIP : Addr) (layer : LayerType) (srcPort dstPort : Nat),
        (routeACLsPass (managerAfter calls) srcIP dstIP layer srcPort dstPort).2 ↔
          (∃ r ∈ installedAfter calls, r.action = .accept ∧
              ruleMatches r srcIP dstIP layer srcPort dstPort) ∧
            ¬ ∃ r ∈ installedAfter calls, r.action = .drop ∧
              ruleMatches r srcIP dstIP layer srcPort dstPort := by
  refine ⟨(stands_after calls).1, fun srcIP dstIP layer srcPort dstPort => ?_⟩
  rw [routeACLsPass_iff_rules (stands_after calls).1, exists_rule_iff_installed hfree,
    exists_rule_iff_installed hfree]

/-- All traffic to 192.168.0.0/16 is accepted. -/
def office : Request :=
  ⟨[1], [.v4 0 0], { pfx := .v4 0xc0a80000 16 }, .all, none, none, .accept⟩

/-- Nothing goes to 10.0.0.0/8 over port 22. -/
def shell : Request :=
  ⟨[2], [.v4 0 0], { pfx := .v4 0x0a000000 8 }, .tcp, none, some PeerFilter.ssh, .drop⟩

/-- The two keys differ in the destinations. -/
theorem key_office_ne_key_shell : generateRouteRuleKey office ≠ generateRouteRuleKey shell := by
  intro h
  have hs := congrArg (fun s => s.toList[1]?) h
  simp only [generateRouteRuleKey, String.toList_append] at hs
  revert hs
  decide

theorem collisionFree_office_shell : CollisionFree [.add false office, .add false shell] := by
  intro q q' hq hq' hk
  simp only [mem_cons, not_mem_nil, or_false, Call.add.injEq, true_and] at hq hq'
  rcases hq with rfl | rfl <;> rcases hq' with rfl | rfl
  · exact ⟨rfl, rfl, rfl, rfl, rfl, rfl⟩
  · exact absurd hk key_office_ne_key_shell
  · exact absurd hk.symm key_office_ne_key_shell
  · exact ⟨rfl, rfl, rfl, rfl, rfl, rfl⟩

/-- A packet to the office passes, whatever the other rule says. -/
theorem office_passes :
    (routeACLsPass (managerAfter [.add false office, .add false shell])
      (.v4 0x64400001) (.v4 0xc0a80105) .udp 1000 53).2 = true := by
  refine ((routeACLsPass_iff_installed _ collisionFree_office_shell).2 _ _ _ _ _).mpr ⟨?_, ?_⟩
  · exact ⟨newRule office, mem_cons_self, rfl, by decide⟩
  · rintro ⟨r, hr, hd, hm⟩
    have hr : r = newRule office ∨ r = newRule shell := by simpa [installedAfter, install] using hr
    rcases hr with rfl | rfl
    · cases hd
    · revert hm
      decide

/-! ## Sets -/

/-- `Set.String`. -/
def SetName.text (s : SetName) : String :=
  if s.comment = "" then s.hashedName else s.hashedName ++ ": " ++ s.comment

/-- `slices.Compact`. -/
def compact : List Prefix → List Prefix
  | p :: q :: l => if p = q then compact (q :: l) else p :: compact (q :: l)
  | l => l

/-- The destinations of the first rule of a set with the new IPv4 prefixes. -/
def mergedDestinations (destinations prefixes : List Prefix) : List Prefix :=
  compact ((destinations ++ prefixes.filter (·.addr.is4)).insertionSort fun p q =>
    p.addr.compare q.addr = .lt ∨ p.addr.compare q.addr = .eq ∧ p.bits ≤ q.bits)

/-- `UpdateSet` without a native router.  The map points to the rules of the slice. -/
def updateSet (m : Manager) (set : SetName) (prefixes : List Prefix) : Except String Manager :=
  match m.routeRules.filter (·.dstSet = set) with
  | [] => .error ("no route rule found for set: " ++ set.text)
  | first :: rest =>
    let update (r : RouteRule) : RouteRule :=
      { r with destinations := mergedDestinations first.destinations prefixes }
    .ok
      { routeRules := m.routeRules.map fun r => if r.dstSet = set then update r else r
        routeRulesMap := (first :: rest).foldl (fun rules r => rules.insert r.id (update r))
          m.routeRulesMap }

theorem mem_compact {l : List Prefix} : p ∈ compact l ↔ p ∈ l := by
  induction l using compact.induct with
  | case1 p l ih =>
    rw [compact, if_pos rfl, ih]
    simp
  | case2 p q l hn ih => rw [compact, if_neg hn, mem_cons, ih, ← mem_cons]
  | case3 l hn => rw [compact]; exact hn

/-- The destinations of a filled set. -/
theorem mem_mergedDestinations :
    p ∈ mergedDestinations l prefixes ↔ p ∈ l ∨ p ∈ prefixes ∧ p.addr.is4 := by
  rw [mergedDestinations, mem_compact, mem_insertionSort, mem_append, mem_filter]

/-- A call that updates a set, too. -/
inductive SetCall where
  | rule (call : Call)
  | updateSet (native : Bool) (set : SetName) (prefixes : List Prefix)

/-- One call; the native firewall has sets of its own, and a call that fails changes nothing. -/
def Manager.applySet (m : Manager) : SetCall → Manager
  | .rule call => m.apply call
  | .updateSet native name prefixes =>
    if native then m
    else
      match updateSet m name prefixes with
      | .ok m' => m'
      | .error _ => m

/-- The manager after calls that also fill sets. -/
def managerAfterSets (calls : List SetCall) : Manager := calls.foldl Manager.applySet {}

section

variable {m m' : Manager} {set : SetName} {prefixes : List Prefix}

/-- What an update of a set makes of a rule, if `first` is the first one of the set. -/
def updated (first : RouteRule) (set : SetName) (prefixes : List Prefix) (r : RouteRule) :
    RouteRule :=
  if r.dstSet = set then
    { r with destinations := mergedDestinations first.destinations prefixes }
  else r

theorem updated_id (first : RouteRule) (set : SetName) (prefixes : List Prefix) (r : RouteRule) :
    (updated first set prefixes r).id = r.id := by
  rw [updated]
  split <;> rfl

/-- The order does not look at destinations. -/
theorem updated_le {first a b : RouteRule} (h : a.le b) :
    (updated first set prefixes a).le (updated first set prefixes b) := by
  have ha : ∀ r, (updated first set prefixes r).action = r.action := by
    intro r
    rw [updated]
    split <;> rfl
  rw [RouteRule.le_iff] at h ⊢
  rwa [ha, ha, updated_id, updated_id]

/-- The map after its entries for some rules have been replaced. -/
theorem lookup_replace (f : RouteRule → RouteRule) (k : String) (x : RouteRule) :
    ∀ (l : List RouteRule) (t : GoMap RouteRule), (l.map RouteRule.id).Nodup →
      ((l.foldl (fun t r => t.insert r.id (f r)) t).lookup k = some x ↔
        (∃ r ∈ l, r.id = k ∧ f r = x) ∨ (∀ r ∈ l, r.id ≠ k) ∧ t.lookup k = some x) := by
  intro l
  induction l with
  | nil => simp
  | cons r l ih =>
    intro t hn
    rw [map_cons, nodup_cons] at hn
    rw [foldl_cons, ih _ hn.2, lookup_insert_ite]
    by_cases hk : r.id = k
    · have hl : ∀ r' ∈ l, r'.id ≠ k := by
        intro r' hr' hi
        exact hn.1 (mem_map.mpr ⟨r', hr', hi.trans hk.symm⟩)
      simp [hk]
      grind
    · simp [hk]

/-- The rules after a successful update. -/
theorem exists_first_of_updateSet (h : updateSet m set prefixes = .ok m') :
    ∃ first, m.routeRules.find? (·.dstSet = set) = some first ∧
      m'.routeRules = m.routeRules.map (updated first set prefixes) ∧
      m'.routeRulesMap = (m.routeRules.filter (·.dstSet = set)).foldl
        (fun rules r => rules.insert r.id (updated first set prefixes r)) m.routeRulesMap := by
  rw [updateSet] at h
  split at h
  · cases h
  rename_i first rest hm
  have hf : m.routeRules.find? (·.dstSet = set) = some first := by
    rw [← List.head?_filter, hm]
    rfl
  cases h
  refine ⟨first, hf, rfl, ?_⟩
  rw [hm]
  refine foldl_ext _ _ _ fun rules r hr => ?_
  rw [← hm, mem_filter, decide_eq_true_iff] at hr
  rw [updated, if_pos hr.2]

/-- Filling a set keeps the manager in order. -/
theorem ok_updateSet (hm : m.Ok) (h : updateSet m set prefixes = .ok m') : m'.Ok := by
  obtain ⟨first, -, hr, hrm⟩ := exists_first_of_updateSet h
  have hid : m'.routeRules.map RouteRule.id = m.routeRules.map RouteRule.id := by
    rw [hr, map_map]
    exact map_congr_left fun r _ => updated_id first set prefixes r
  refine ⟨?_, ?_, ?_⟩
  · rw [hr]
    exact pairwise_map.mpr (hm.sorted.imp updated_le)
  · rw [hid]
    exact hm.ids
  · intro k x
    rw [hrm, lookup_replace _ _ _ _ _ (hm.ids.sublist (filter_sublist.map _)), hm.filed, hr]
    simp only [mem_filter, decide_eq_true_iff, mem_map]
    constructor
    · rintro (⟨r, ⟨hr, -⟩, hk, rfl⟩ | ⟨hn, hx, hk⟩)
      · exact ⟨⟨r, hr, rfl⟩, (updated_id first set prefixes r).trans hk⟩
      · exact ⟨⟨x, hx, if_neg fun hs => hn x ⟨hx, hs⟩ hk⟩, hk⟩
    · rintro ⟨⟨r, hr, rfl⟩, hk⟩
      rw [updated_id] at hk
      by_cases hs : r.dstSet = set
      · exact .inl ⟨r, ⟨hr, hs⟩, hk, rfl⟩
      · rw [updated, if_neg hs]
        refine .inr ⟨fun r' hr' hk' => ?_, hr, hk⟩
        cases inj_on_of_nodup_map hm.ids hr'.1 hr (hk'.trans hk.symm)
        exact hs hr'.2

/-- One call keeps the slice sorted and in step with the map. -/
theorem ok_applySet (hm : m.Ok) (call : SetCall) : (m.applySet call).Ok := by
  cases call with
  | rule call =>
    have hs : Stands m m.routeRules := ⟨fun r hr => hr, fun r hr => ⟨r, hr, rfl⟩⟩
    exact (stands_apply ⟨hm, hs⟩ call).1
  | updateSet native set prefixes =>
    cases native with
    | true => exact hm
    | false =>
      rw [Manager.applySet, if_neg Bool.false_ne_true]
      cases h : updateSet m set prefixes with
      | ok m' => exact ok_updateSet hm h
      | error _ => exact hm

/-- Every history of calls. -/
theorem ok_managerAfterSets (calls : List SetCall) : (managerAfterSets calls).Ok := by
  refine foldl_invariant (P := Manager.Ok) calls {} (fun m call _ h => ok_applySet h call) ?_
  exact ⟨List.Pairwise.nil, nodup_nil, fun k r => ⟨nofun, fun h => absurd h.1 not_mem_nil⟩⟩

/-- The first rule of a set comes before the others. -/
theorem Manager.Ok.first_le {first : RouteRule} (hm : m.Ok)
    (hf : m.routeRules.find? (·.dstSet = set) = some first) :
    first ∈ m.routeRules ∧ first.dstSet = set ∧
      ∀ r ∈ m.routeRules, r.dstSet = set → first.le r := by
  obtain ⟨hs, as, bs, hl, hn⟩ := List.find?_eq_some_iff_append.mp hf
  refine ⟨mem_of_find?_eq_some hf, by simpa using hs, fun r hr hrs => ?_⟩
  have hp := hm.sorted
  rw [hl] at hp hr
  rcases mem_append.mp hr with hr | hr
  · exact absurd hrs (by simpa using hn r hr)
  rcases mem_cons.mp hr with rfl | hr
  · exact (Std.Total.total r r).elim id id
  · exact (pairwise_cons.mp (pairwise_append.mp hp).2.1).1 r hr

variable (m m' set prefixes)

/-- Every rule of the set has what it had, and the new IPv4 prefixes. -/
def KeepsDestinations : Prop :=
  ∀ r ∈ m.routeRules, r.dstSet = set → ∃ r' ∈ m'.routeRules, r'.id = r.id ∧
    ∀ p, p ∈ r.destinations ∨ p ∈ prefixes ∧ p.addr.is4 → p ∈ r'.destinations

/-- The rule of the set that comes first, of those that drop or else of all, has the destinations
    of the others, or they are among the new ones. -/
def FirstHasAll : Prop :=
  ∀ first ∈ m.routeRules, first.dstSet = set →
    (∀ r ∈ m.routeRules, r.dstSet = set → first.le r) →
      ∀ r ∈ m.routeRules, r.dstSet = set → ∀ p ∈ r.destinations,
        p ∈ first.destinations ∨ p ∈ prefixes ∧ p.addr.is4
deriving Decidable

end

/-- **Updating a set.**  After every history of calls, the rules of the set keep their destinations
    and get the new ones exactly if the first of them has the destinations of all. -/
theorem sets_keep_iff (calls : List SetCall) (set : SetName) (prefixes : List Prefix) (m' : Manager)
    (h : updateSet (managerAfterSets calls) set prefixes = .ok m') :
    KeepsDestinations (managerAfterSets calls) m' set prefixes ↔
      FirstHasAll (managerAfterSets calls) set prefixes := by
  have hok := ok_managerAfterSets calls
  generalize managerAfterSets calls = m at h hok ⊢
  obtain ⟨first, hf, hr, -⟩ := exists_first_of_updateSet h
  obtain ⟨hmem, hset, hle⟩ := hok.first_le hf
  constructor
  · intro hk first' hmem' hset' hle' r hrm hs p hp
    cases inj_on_of_nodup_map hok.ids hmem' hmem
      (RouteRule.id_eq_of_le (hle' first hmem hset) (hle first' hmem' hset'))
    obtain ⟨_, hr', hid, hd⟩ := hk r hrm hs
    rw [hr] at hr'
    obtain ⟨r₀, hr₀, rfl⟩ := mem_map.mp hr'
    rw [updated_id] at hid
    cases inj_on_of_nodup_map hok.ids hr₀ hrm hid
    have hp' := hd p (.inl hp)
    rwa [updated, if_pos hs, mem_mergedDestinations] at hp'
  · intro ha r hrm hs
    refine ⟨updated first set prefixes r, hr ▸ mem_map_of_mem hrm, updated_id .., fun p hp => ?_⟩
    rw [updated, if_pos hs, mem_mergedDestinations]
    exact hp.elim (ha first hmem hset hle r hrm hs p) .inr

/-- The servers of a branch, which the staff may reach and guests may not. -/
def branch : SetName := { hash := [1, 2, 3, 4] }

/-- The office is let into the branch. -/
def staff : Request := ⟨[1], [.v4 0 8], { set := branch }, .all, none, none, .accept⟩

/-- Everyone else is kept out of it. -/
def guests : Request := ⟨[2], [.v4 0 0], { set := branch }, .all, none, none, .drop⟩

/-- Both rules are there when the set is first updated. -/
def branchCalls : List SetCall :=
  [.rule (.add false staff), .rule (.add false guests), .updateSet false branch [.v4 0x0a000000 8]]

/-- A second update leaves them what they have. -/
theorem branch_keeps :
    ∃ m', updateSet (managerAfterSets branchCalls) branch [.v4 0xac100000 12] = .ok m' ∧
      KeepsDestinations (managerAfterSets branchCalls) m' branch [.v4 0xac100000 12] := by
  have hall : FirstHasAll (managerAfterSets branchCalls) branch [.v4 0xac100000 12] := by
    decide +kernel
  cases h : updateSet (managerAfterSets branchCalls) branch [.v4 0xac100000 12] with
  | ok m' => exact ⟨m', rfl, (sets_keep_iff branchCalls branch _ m' h).mpr hall⟩
  | error e =>
    have hs : (updateSet (managerAfterSets branchCalls) branch [.v4 0xac100000 12]).isOk := by
      decide +kernel
    rw [h] at hs
    cases hs

/-- The rule for guests comes later and stands first: the staff lose 10.0.0.0/8. -/
theorem staff_loses :
    let m := managerAfterSets [.rule (.add false staff),
      .updateSet false branch [.v4 0x0a000000 8], .rule (.add false guests)]
    m.routeRules.map (·.destinations) = [[], [.v4 0x0a000000 8]] ∧
      (updateSet m branch [.v4 0xac100000 12]).toOption.map
        (fun m => m.routeRules.map (·.destinations)) =
          some [[.v4 0xac100000 12], [.v4 0xac100000 12]] := by
  decide +kernel

end RouteFilter

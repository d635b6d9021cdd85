import NetbirdHa.NetipProofs
import NetbirdHa.TableProofs

/-! # Peer rules of the userspace firewall

`AddPeerFiltering` files a rule under its address, in one map for rules that drop
and another for rules that accept; `DeletePeerRule` takes it out again.
`peerACLsBlock` decides about an inbound packet from the rules filed under the
packet's source and, for rules that accept, under the unspecified addresses, which
stand for every source.

Above the maps stands the list of rules that are installed (`Installed`).  A
packet is meant to pass if no installed rule that drops matches it and one that
accepts does; the maps hold the installed rules (`Refines`), and what
`peerACLsBlock` decides is compared with that. -/

namespace PeerFilter

open List Option AList
open Netip (Addr)

section

variable (b : List UInt8) (m : Manager) (r : PeerRule)

/-- The text of a `net.IP` that is no address. -/
def ipText : String :=
  if b = [] then "<nil>"
  else "?" ++ String.ofList (b.flatMap (fun x =>
    [Nat.digitChar (x.toNat / 16), Nat.digitChar (x.toNat % 16)]))

/-- `IsUnspecified`: `0.0.0.0` or `::`. -/
def isUnspecified (ip : Addr) : Bool := ip = .v4 0 || ip = .v6 0 ""

/-- The layer types that matter here; `all` is `layerTypeAll`. -/
inductive LayerType where
  | zero
  | ipv4
  | ipv6
  | icmpv4
  | icmpv6
  | tcp
  | udp
  | all
deriving DecidableEq

/-- `firewall.Protocol`. -/
inductive Protocol where
  | tcp
  | udp
  | icmp
  | all
  | other (name : String)
deriving DecidableEq

/-- `firewall.Action`. -/
inductive Action where
  | accept
  | drop
  | unknown
deriving DecidableEq

/-- `firewall.Port`: a range has its two ends. -/
structure Port where
  isRange : Bool
  values : List Nat
  ends : isRange → 2 ≤ values.length
deriving DecidableEq

/-- `PeerRule`: it matches every source exactly if its address is unspecified. -/
structure PeerRule where
  id : Nat
  mgmtId : List UInt8
  ip : Addr
  matchByIP : Bool
  protoLayer : LayerType
  sPort : Option Port
  dPort : Option Port
  drop : Bool
  wildcard : matchByIP = !isUnspecified ip
deriving DecidableEq

/-- A decoded inbound packet: its transport layer, with the ports for TCP and UDP and
    the type for ICMP. -/
structure Packet where
  payloadLayer : LayerType
  srcPort : Nat := 0
  dstPort : Nat := 0
  icmpType : Nat := 0
deriving DecidableEq

/-- The rules of one address, by their names. -/
abbrev RuleSet := AList (fun _ : Nat => PeerRule)

/-- The rules of the manager, and how many rules were created so far: the next one gets the
    next ID that `uuid.New` draws. -/
structure Manager where
  incomingDenyRules : AList (fun _ : Addr => RuleSet) := ∅
  incomingRules : AList (fun _ : Addr => RuleSet) := ∅
  created : Nat := 0

/-- `protoToLayer`: the layer a protocol is found at, for the address's family. -/
def protoToLayer (proto : Protocol) (ip : Addr) : LayerType :=
  match proto with
  | .tcp => .tcp
  | .udp => .udp
  | .icmp => if ip.is6 then .icmpv6 else .icmpv4
  | .all => .all
  | .other _ => .zero

/-- The map that a rule belongs to. -/
def Manager.target (drop : Bool) : AList (fun _ : Addr => RuleSet) :=
  if drop then m.incomingDenyRules else m.incomingRules

/-- Writes back the table of the rules that drop, or of those that accept. -/
def Manager.setTarget (drop : Bool) (t : AList (fun _ : Addr => RuleSet)) : Manager :=
  if drop then { m with incomingDenyRules := t } else { m with incomingRules := t }

/-- The rule of a call of `AddPeerFiltering`, under the ID drawn for it. -/
def newRule (drawn : Nat) (id : List UInt8) (ip : Addr) (proto : Protocol)
    (sPort dPort : Option Port) (action : Action) : PeerRule where
  id := drawn
  mgmtId := id
  ip := ip
  matchByIP := !isUnspecified ip
  protoLayer := protoToLayer proto ip
  sPort := sPort
  dPort := dPort
  drop := decide (action = .drop)
  wildcard := rfl

/-- The rule is filed under its address and ID. -/
def Manager.file : Manager :=
  let ruleset := ((m.target r.drop).lookup r.ip).getD ∅
  { m.setTarget r.drop ((m.target r.drop).insert r.ip (ruleset.insert r.id r)) with
    created := m.created + 1 }

/-- `AddPeerFiltering`: the manager and the rule, or an error. -/
def addPeerFiltering (uuid : Nat → Nat) (id ip : List UInt8) (proto : Protocol)
    (sPort dPort : Option Port) (action : Action) : Except String (Manager × PeerRule) :=
  match Addr.ofSlice ip with
  | none => .error ("invalid IP: " ++ ipText ip)
  | some i =>
    let r := newRule (uuid m.created) id i.unmap proto sPort dPort action
    .ok (m.file r, r)

/-- The rule is taken out; an empty rule set goes with its last rule. -/
def Manager.unfile (ruleset : RuleSet) : Manager :=
  let rest := ruleset.erase r.id
  m.setTarget r.drop
    (if rest.entries = [] then (m.target r.drop).erase r.ip
     else (m.target r.drop).insert r.ip rest)

/-- A `firewall.Rule`: a peer rule, or one of another type. -/
inductive Rule where
  | peer (r : PeerRule)
  | other (typeName : String)
deriving DecidableEq

/-- `DeletePeerRule`. -/
def deletePeerRule : Rule → Except String Manager
  | .other typeName => .error ("delete rule: invalid rule type: " ++ typeName)
  | .peer r =>
    match (m.target r.drop).lookup r.ip with
    | none => .error s!"delete rule: no rule with such id: {r.id}"
    | some ruleset =>
      match ruleset.lookup r.id with
      | none => .error s!"delete rule: no rule with such id: {r.id}"
      | some _ => .ok (m.unfile r ruleset)

end

/-! ## The decision -/

/-- `portsMatch`. -/
def portsMatch (rulePort : Option Port) (packetPort : Nat) : Bool :=
  match rulePort with
  | none => true
  | some p =>
    if p.isRange then
      decide (p.values.getD 0 0 ≤ packetPort) && decide (packetPort ≤ p.values.getD 1 0)
    else p.values.any (· == packetPort)

/-- What one turn of the loop of `validateRule` asks. -/
def PeerRule.matches (r : PeerRule) (ip : Addr) (d : Packet) : Bool :=
  if r.matchByIP && !decide (ip = r.ip) then false
  else if r.protoLayer = .all then true
  else if d.payloadLayer ≠ r.protoLayer then false
  else
    match d.payloadLayer with
    | .tcp | .udp => portsMatch r.sPort d.srcPort && portsMatch r.dPort d.dstPort
    | .icmpv4 | .icmpv6 => true
    | _ => false

/-- `validateRule`: the first rule that matches, with its verdict. -/
def validateRule (ip : Addr) (rules : List PeerRule) (d : Packet) : Option (List UInt8 × Bool) :=
  match rules with
  | [] => none
  | r :: rules => if r.matches ip d then some (r.mgmtId, r.drop) else validateRule ip rules d

/-- The rules filed under an address, in the order in which the map is walked. -/
def walk (order : List PeerRule → List PeerRule) (t : AList (fun _ : Addr => RuleSet))
    (ip : Addr) : List PeerRule :=
  match t.lookup ip with
  | none => []
  | some ruleset => order (ruleset.entries.map Sigma.snd)

/-- Destination unreachable and time exceeded. -/
def isSpecialICMP (d : Packet) : Bool :=
  decide (d.payloadLayer = .icmpv4) && (d.icmpType == 3 || d.icmpType == 11)

/-- `peerACLsBlock`: the ID of the rule that decided, and whether the packet is blocked.
    The first lookup that finds a rule decides. -/
def peerACLsBlock (order : List PeerRule → List PeerRule) (m : Manager) (srcIP : Addr)
    (d : Packet) : Option (List UInt8) × Bool :=
  if isSpecialICMP d then (none, false)
  else
    match (validateRule srcIP (walk order m.incomingDenyRules srcIP) d).or
        ((validateRule srcIP (walk order m.incomingRules srcIP) d).or
          ((validateRule srcIP (walk order m.incomingRules (.v4 0)) d).or
            (validateRule srcIP (walk order m.incomingRules (.v6 0 "")) d))) with
    | some (mgmtId, filter) => (some mgmtId, filter)
    | none => (none, true)

/-! ## Calls, and the rules they install -/

/-- A call that adds a rule or deletes one. -/
inductive Call where
  | add (id ip : List UInt8) (proto : Protocol) (sPort dPort : Option Port) (action : Action)
  | delete (rule : Rule)

/-- A call that fails changes nothing. -/
def apply (uuid : Nat → Nat) (m : Manager) : Call → Manager
  | .add id ip proto sPort dPort action =>
    match addPeerFiltering m uuid id ip proto sPort dPort action with
    | .ok (m', _) => m'
    | .error _ => m
  | .delete rule =>
    match deletePeerRule m rule with
    | .ok m' => m'
    | .error _ => m

section

variable (uuid : Nat → Nat) (calls : List Call) (rules : List PeerRule) (srcIP : Addr)
  (d : Packet)

/-- The manager after the calls. -/
def managerAfter : Manager := calls.foldl (apply uuid) {}

/-- The installed rules. -/
structure Installed where
  rules : List PeerRule := []
  created : Nat := 0

/-- Two rules with one address, action and ID. -/
def PeerRule.same (r r' : PeerRule) : Bool :=
  decide (r.drop = r'.drop ∧ r.ip = r'.ip ∧ r.id = r'.id)

/-- A rule is installed by its call and until it is deleted. -/
def Installed.apply (s : Installed) : Call → Installed
  | .add id ip proto sPort dPort action =>
    match Addr.ofSlice ip with
    | none => s
    | some i =>
      { rules := s.rules ++ [newRule (uuid s.created) id i.unmap proto sPort dPort action]
        created := s.created + 1 }
  | .delete (.other _) => s
  | .delete (.peer r) => { s with rules := s.rules.filter (!·.same r) }

/-- The rules the calls install, by the plain reading of the calls. -/
def installedAfter : List PeerRule :=
  (calls.foldl (Installed.apply uuid) {}).rules

/-- A packet is meant to pass. -/
def Passes : Prop :=
  (∀ r ∈ rules, r.drop → r.matches srcIP d = false) ∧
    ∃ r ∈ rules, r.drop = false ∧ r.matches srcIP d
deriving Decidable

/-- A rule for every source drops the packet, no rule for its own source does, and some
    rule accepts it. -/
def DropMissed : Prop :=
  (∃ r ∈ rules, r.drop ∧ r.ip ≠ srcIP ∧ r.matches srcIP d) ∧
    (∀ r ∈ rules, r.drop → r.ip = srcIP → r.matches srcIP d = false) ∧
    ∃ r ∈ rules, r.drop = false ∧ r.matches srcIP d
deriving Decidable

end

/-! ## The maps hold the installed rules -/

section

variable {m : Manager} {r : PeerRule}

/-- The rule filed under an action, an address and an ID. -/
def Manager.find (m : Manager) (drop : Bool) (ip : Addr) (id : Nat) : Option PeerRule :=
  ((m.target drop).lookup ip).bind (·.lookup id)

open Manager

/-- Writing one table leaves the other. -/
theorem find_setTarget (b drop : Bool) (t : AList (fun _ : Addr => RuleSet)) (ip : Addr)
    (id : Nat) :
    (m.setTarget b t).find drop ip id = if b = drop then (t.lookup ip).bind (·.lookup id)
      else m.find drop ip id := by
  cases b <;> cases drop <;> rfl

/-- A rule that is filed is found under its key. -/
theorem find_file (drop : Bool) (ip : Addr) (id : Nat) : (m.file r).find drop ip id =
    if r.drop = drop ∧ r.ip = ip ∧ r.id = id then some r else m.find drop ip id := by
  show (m.setTarget r.drop _).find drop ip id = _
  rw [find_setTarget, Table.lookup_insert_ite]
  by_cases hd : r.drop = drop
  · subst hd
    by_cases hi : r.ip = ip
    · subst hi
      rw [if_pos rfl, if_pos rfl, bind_some, Table.lookup_insert_ite, find]
      cases (m.target r.drop).lookup r.ip <;> simp
    · simp [hi, find]
  · simp [hd]

/-- A rule that is taken out is not found. -/
theorem find_unfile (hset : (m.target r.drop).lookup r.ip = some ruleset)
    (drop : Bool) (ip : Addr) (id : Nat) : (m.unfile r ruleset).find drop ip id =
      if r.drop = drop ∧ r.ip = ip ∧ r.id = id then none else m.find drop ip id := by
  -- the rules of an address are the rest, also where the last one takes the entry with it
  have hr : ∀ t, t = (if (ruleset.erase r.id).entries = [] then (m.target r.drop).erase r.ip
      else (m.target r.drop).insert r.ip (ruleset.erase r.id)) → (t.lookup ip).bind
        (·.lookup id) = if r.ip = ip then (ruleset.erase r.id).lookup id
          else ((m.target r.drop).lookup ip).bind (·.lookup id) := by
    rintro t rfl
    split
    · next hnil =>
      have he : ruleset.erase r.id = ∅ := AList.ext hnil
      rw [Table.lookup_erase_ite, he]
      split <;> rfl
    · rw [Table.lookup_insert_ite]
      split <;> rfl
  rw [unfile, find_setTarget, hr _ rfl, Table.lookup_erase_ite]
  by_cases hd : r.drop = drop
  · subst hd
    by_cases hi : r.ip = ip
    · subst hi
      simp [find, hset]
    · simp [hi, find]
  · simp [hd]

end

section

variable {uuid : Nat → Nat} {m : Manager} {s : Installed}

/-- The maps hold the installed rules, each under its own action, address and ID. -/
structure Refines (uuid : Nat → Nat) (m : Manager) (s : Installed) : Prop where
  created : m.created = s.created
  filed : ∀ drop ip id r, m.find drop ip id = some r ↔
    r ∈ s.rules ∧ r.drop = drop ∧ r.ip = ip ∧ r.id = id
  fresh : ∀ r ∈ s.rules, ∃ n < s.created, r.id = uuid n

theorem refines_init : Refines uuid {} {} :=
  ⟨rfl, fun drop _ _ _ => by
    cases drop <;> exact ⟨nofun, fun h => absurd h.1 not_mem_nil⟩, fun _ h => absurd h not_mem_nil⟩

/-- Adding a rule keeps the refinement. -/
theorem Refines.add (hu : Function.Injective uuid) (h : Refines uuid m s)
    (hi : r.id = uuid s.created) :
    Refines uuid (m.file r) { rules := s.rules ++ [r], created := s.created + 1 } := by
  refine ⟨congrArg (· + 1) h.created, fun drop ip id r' => ?_, fun r' hr' => ?_⟩
  · rw [find_file, mem_append, mem_singleton]
    split
    · rename_i hke
      constructor
      · intro hr'
        cases hr'
        exact ⟨.inr rfl, hke⟩
      · rintro ⟨hr' | rfl, -, -, hi'⟩
        · -- the ID is new
          obtain ⟨n, hn, hid⟩ := h.fresh r' hr'
          have hnn : n = s.created := hu (by rw [← hid, hi', ← hke.2.2, hi])
          exact absurd hnn (Nat.ne_of_lt hn)
        · rfl
    · rename_i hke
      rw [h.filed]
      refine and_congr_left fun hk => ⟨.inl, fun hr' => hr'.resolve_right ?_⟩
      rintro rfl
      exact hke hk
  · rcases mem_append.mp hr' with hr' | hr'
    · obtain ⟨n, hn, hid⟩ := h.fresh r' hr'
      exact ⟨n, Nat.lt_succ_of_lt hn, hid⟩
    · exact ⟨s.created, Nat.lt_succ_self _, mem_singleton.mp hr' ▸ hi⟩

theorem mem_filter_same {rules : List PeerRule} : r' ∈ rules.filter (!·.same r) ↔
    r' ∈ rules ∧ ¬ (r'.drop = r.drop ∧ r'.ip = r.ip ∧ r'.id = r.id) := by
  rw [mem_filter, PeerRule.same, Bool.not_eq_true', decide_eq_false_iff_not]

/-- Deleting a rule keeps the refinement. -/
theorem Refines.delete (h : Refines uuid m s) (r : PeerRule) :
    Refines uuid (apply uuid m (.delete (.peer r))) (s.apply uuid (.delete (.peer r))) := by
  have hfr : ∀ r' ∈ s.rules.filter (!·.same r), ∃ n < s.created, r'.id = uuid n :=
    fun r' hr' => h.fresh r' (mem_of_mem_filter hr')
  by_cases hf : m.find r.drop r.ip r.id = none
  · -- an error: no such rule is installed
    have hs : apply uuid m (.delete (.peer r)) = m := by
      rw [apply, deletePeerRule]
      rw [Manager.find] at hf
      grind
    rw [hs]
    refine ⟨h.created, fun drop ip id r' => ?_, hfr⟩
    rw [h.filed, Installed.apply, mem_filter_same, and_assoc]
    refine and_congr_right fun hr' => ⟨fun hk => ⟨fun hs' => ?_, hk⟩, And.right⟩
    have hfo := (h.filed r.drop r.ip r.id r').mpr ⟨hr', hs'⟩
    cases hf.symm.trans hfo
  · obtain ⟨r₀, hr₀⟩ := ne_none_iff_exists'.mp hf
    obtain ⟨ruleset, hset, hr₀⟩ := bind_eq_some_iff.mp hr₀
    have hdel : apply uuid m (.delete (.peer r)) = m.unfile r ruleset := by
      rw [apply, deletePeerRule]
      simp only [hset, hr₀]
    have hc : (m.unfile r ruleset).created = m.created := by
      rw [Manager.unfile, Manager.setTarget]
      split <;> rfl
    rw [hdel]
    refine ⟨hc.trans h.created, fun drop ip id r' => ?_, hfr⟩
    rw [find_unfile hset, Installed.apply, mem_filter_same]
    split
    · rename_i hke
      obtain ⟨rfl, rfl, rfl⟩ := hke
      exact ⟨nofun, fun hr' => absurd hr'.2 hr'.1.2⟩
    rw [h.filed]
    grind

/-- **One call** keeps the maps and the installed rules together. -/
theorem refines_apply (hu : Function.Injective uuid) (h : Refines uuid m s) (c : Call) :
    Refines uuid (apply uuid m c) (s.apply uuid c) := by
  cases c with
  | add id ip proto sPort dPort action =>
    rw [apply, addPeerFiltering, Installed.apply]
    cases Addr.ofSlice ip with
    | none => exact h
    | some i =>
      rw [← h.created]
      have ha := h.add hu (r := newRule (uuid m.created) id i.unmap proto sPort dPort action)
        (congrArg uuid h.created)
      rwa [← h.created] at ha
  | delete rule =>
    cases rule with
    | other typeName => exact h
    | peer r => exact h.delete r

end

/-! ## What `peerACLsBlock` decides -/

section

variable {uuid : Nat → Nat} {order : List PeerRule → List PeerRule} {m : Manager}
  {s : Installed} {ip : Addr} {d : Packet}

/-- The first rule that matches decides. -/
theorem validateRule_eq_find (rules : List PeerRule) : validateRule ip rules d =
    (rules.find? (·.matches ip d)).map (fun r => (r.mgmtId, r.drop)) := by
  induction rules with
  | nil => rfl
  | cons r rules ih =>
    rw [validateRule, List.find?_cons]
    cases hr : r.matches ip d with
    | true => rfl
    | false => exact ih

/-- Among rules with one verdict, the first that matches gives it. -/
theorem validateRule_cases (ip : Addr) (d : Packet) (hd : ∀ r ∈ rules, r.drop = b) :
    (validateRule ip rules d = none ∧ ∀ r ∈ rules, r.matches ip d = false) ∨
    ((∃ mgmtId, validateRule ip rules d = some (mgmtId, b)) ∧ ∃ r ∈ rules, r.matches ip d) := by
  rw [validateRule_eq_find]
  cases hf : rules.find? (·.matches ip d) with
  | none =>
    refine .inl ⟨rfl, fun r hr => ?_⟩
    exact Bool.not_eq_true _ ▸ List.find?_eq_none.mp hf r hr
  | some r => grind

/-- A rule that matches is filed under the source of the packet or an unspecified address. -/
theorem ip_of_matches {r : PeerRule} (h : r.matches ip d) :
    r.ip = ip ∨ r.ip = .v4 0 ∨ r.ip = .v6 0 "" := by
  by_cases hb : r.matchByIP
  · by_cases hi : ip = r.ip
    · exact .inl hi.symm
    · simp [PeerRule.matches, hb, hi] at h
  have hu := r.wildcard
  rw [Bool.eq_false_iff.mpr hb] at hu
  have hs : isUnspecified r.ip = true := by simpa using hu
  rw [isUnspecified, Bool.or_eq_true, decide_eq_true_iff, decide_eq_true_iff] at hs
  exact .inr hs

/-- Rules of two lists, one after the other. -/
theorem validateRule_append (a b : List PeerRule) :
    validateRule ip (a ++ b) d = (validateRule ip a d).or (validateRule ip b d) := by
  induction a with
  | nil => rfl
  | cons r a ih =>
    rw [cons_append, validateRule, validateRule, ih]
    split <;> rfl

variable (horder : ∀ l, (order l).Perm l)

include horder

/-- Walking a map comes past the installed rules with this action and address. -/
theorem mem_walk (h : Refines uuid m s) (drop : Bool) :
    r ∈ walk order (m.target drop) ip ↔ r ∈ s.rules ∧ r.drop = drop ∧ r.ip = ip := by
  have hf : r ∈ walk order (m.target drop) ip ↔ ∃ id, m.find drop ip id = some r := by
    rw [walk]
    cases hset : (m.target drop).lookup ip with
    | none => simp [Manager.find, hset]
    | some ruleset =>
      simp only [Manager.find, hset, bind_some, (horder _).mem_iff, List.mem_map,
        Sigma.exists, exists_eq_right]
      exact exists_congr fun id => mem_lookup_iff.symm
  rw [hf]
  constructor
  · rintro ⟨id, hid⟩
    obtain ⟨hr, hd, hi, -⟩ := (h.filed drop ip id r).mp hid
    exact ⟨hr, hd, hi⟩
  · rintro ⟨hr, hd, hi⟩
    exact ⟨r.id, (h.filed drop ip r.id r).mpr ⟨hr, hd, hi, rfl⟩⟩

/-- The rules that accept and are looked at. -/
def acceptRules (order : List PeerRule → List PeerRule) (m : Manager) (ip : Addr) : List PeerRule :=
  walk order m.incomingRules ip ++
    (walk order m.incomingRules (.v4 0) ++ walk order m.incomingRules (.v6 0 ""))

/-- The accepting rules a packet meets. -/
theorem mem_acceptRules (h : Refines uuid m s) : r ∈ acceptRules order m ip ↔
    (r ∈ s.rules ∧ r.drop = false) ∧ (r.ip = ip ∨ r.ip = .v4 0 ∨ r.ip = .v6 0 "") := by
  have hw : ∀ {key : Addr}, r ∈ walk order m.incomingRules key ↔
      r ∈ s.rules ∧ r.drop = false ∧ r.ip = key := mem_walk horder h false
  rw [acceptRules, mem_append, mem_append, hw, hw, hw, and_or_left, and_or_left,
    and_assoc, and_assoc, and_assoc]

/-- Every installed rule that accepts the packet is looked at. -/
theorem exists_acceptRules (h : Refines uuid m s) :
    (∃ r ∈ acceptRules order m ip, r.matches ip d) ↔
    ∃ r ∈ s.rules, r.drop = false ∧ r.matches ip d := by
  grind [mem_acceptRules, ip_of_matches]

/-- The packet passes if no rule for its source drops it and some rule accepts it. -/
theorem peerACLsBlock_pass (h : Refines uuid m s) (hs : isSpecialICMP d = false) :
    (peerACLsBlock order m ip d).2 = false ↔
      (∀ r ∈ s.rules, r.drop → r.ip = ip → r.matches ip d = false) ∧
        ∃ r ∈ s.rules, r.drop = false ∧ r.matches ip d := by
  have hw : ∀ {r : PeerRule}, r ∈ walk order m.incomingDenyRules ip ↔
      r ∈ s.rules ∧ r.drop ∧ r.ip = ip := mem_walk horder h true
  rw [peerACLsBlock, hs, ← validateRule_append,
    ← validateRule_append, ← acceptRules, ← exists_acceptRules horder h]
  rcases validateRule_cases ip d (fun r hr => (hw.mp hr).2.1) with
    ⟨hdeny, hnone⟩ | ⟨⟨mgmtId, hdeny⟩, r, hr, hm⟩
  · have ho : ∀ r ∈ s.rules, r.drop → r.ip = ip → r.matches ip d = false :=
      fun r hr hd hi => hnone r (hw.mpr ⟨hr, hd, hi⟩)
    rw [hdeny, none_or, and_iff_right ho]
    rcases validateRule_cases ip d (fun r hr => ((mem_acceptRules horder h).mp hr).1.2) with
      ⟨hv, hno⟩ | ⟨⟨mgmtId, hv⟩, hex⟩
    · rw [hv]
      refine iff_of_false (fun hf => nomatch hf) ?_
      rintro ⟨r, hr, hm⟩
      cases hm.symm.trans (hno r hr)
    · rw [hv]
      exact iff_of_true rfl hex
  grind

end

/-- **When the decision is the intended one.**  After any calls, `peerACLsBlock` lets a
    packet pass exactly if it is meant to, unless a rule for every source drops it, no
    rule for its own source does, and some rule accepts it.  `uuid.New` is assumed to draw
    no ID twice. -/
theorem pass_iff_passes (uuid : Nat → Nat) (hu : Function.Injective uuid)
    (order : List PeerRule → List PeerRule) (horder : ∀ l, (order l).Perm l)
    (calls : List Call) (srcIP : Addr) (d : Packet) (hspecial : isSpecialICMP d = false) :
    ((peerACLsBlock order (managerAfter uuid calls) srcIP d).2 = false ↔
        Passes (installedAfter uuid calls) srcIP d) ↔
      ¬ DropMissed (installedAfter uuid calls) srcIP d := by
  have hre : Refines uuid (managerAfter uuid calls) (calls.foldl (Installed.apply uuid) {}) :=
    List.foldl_rel refines_init fun c _ _ _ h => refines_apply hu h c
  rw [peerACLsBlock_pass horder hre hspecial]
  show (_ ∧ _ ↔ Passes (installedAfter uuid calls) srcIP d) ↔ _
  grind [Passes, installedAfter, DropMissed]

/-- TCP from port 12345 to port 22. -/
def sshPacket : Packet := { payloadLayer := .tcp, srcPort := 12345, dstPort := 22 }

/-- Port 22. -/
def ssh : Port := ⟨false, [22], by decide⟩

/-- A rule that accepts everything from 100.64.0.1, and one that drops SSH from `ip`. -/
def dropSSH (ip : List UInt8) : List Call :=
  [.add [1] [100, 64, 0, 1] .all none none .accept, .add [2] ip .tcp none (some ssh) .drop]

/-- A rule that drops SSH from the peer is heeded. -/
theorem own_drop_heeded :
    let calls := dropSSH [100, 64, 0, 1]
    ((peerACLsBlock id (managerAfter id calls) (.v4 0x64400001#32) sshPacket).2 = false ↔
      Passes (installedAfter id calls) (.v4 0x64400001#32) sshPacket) :=
  (pass_iff_passes id Function.injective_id id (.refl ·) (dropSSH [100, 64, 0, 1])
    (.v4 0x64400001#32) sshPacket (by decide)).mpr (by decide)

/-- One that drops SSH from everybody is not. -/
theorem wildcard_drop_missed :
    (peerACLsBlock id (managerAfter id (dropSSH [0, 0, 0, 0])) (.v4 0x64400001#32) sshPacket).2 =
        false ∧
      ¬ Passes (installedAfter id (dropSSH [0, 0, 0, 0])) (.v4 0x64400001#32) sshPacket := by
  decide

end PeerFilter

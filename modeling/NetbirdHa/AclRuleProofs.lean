import NetbirdHa.NetipTextProofs
import NetbirdHa.RouteFilterProofs

/-! # Firewall rules of a network map

A rule of the network map is read (`convertRule`): its address, protocol, action
and ports, each of which may be refused.  What has been read is known by its ID,
and is given to the firewall as a filter for inbound packets or, on a firewall that
does not track connections, for the answers to outbound ones (`Entry.filter?`).

The ID is the text of the parts, one after the other without separators.  The text
can still be taken apart (`getPeerRuleID_inj`): the protocol is found by its last
letters, which occur nowhere else. -/

namespace Acl

open Netip List Text
open PeerFilter (Protocol Port)
open RouteFilter (Action portText protocolText)

/-! ## Rules as they are sent -/

/-- `RuleProtocol`, with the numbers protobuf lets through. -/
inductive RuleProtocol where
  | unknown
  | all
  | tcp
  | udp
  | icmp
  | custom
  | other (n : Int)
deriving DecidableEq

/-- `RuleDirection`, with the numbers protobuf lets through. -/
inductive RuleDirection where
  | inbound
  | outbound
  | other (n : Int)
deriving DecidableEq

/-- `RuleAction`, with the numbers protobuf lets through. -/
inductive RuleAction where
  | accept
  | drop
  | other (n : Int)
deriving DecidableEq

/-- `PortInfo`: a port or a range, if one is selected. -/
inductive PortInfo where
  | unset
  | port (n : Nat)
  | range (r : Option (Nat × Nat))
deriving DecidableEq

/-- A rule as management sends it. -/
structure FirewallRule where
  peerIP : String
  direction : RuleDirection
  action : RuleAction
  protocol : RuleProtocol
  port : String := ""
  portInfo : Option PortInfo := none
  policyID : List UInt8 := []
deriving DecidableEq

/-! ## Reading a rule -/

/-- `net.ParseIP`; an IPv4 address has one form. -/
def parseIP (s : String) : Option Addr :=
  match parseAddr s with
  | some addr => if addr.zone = "" then some addr.unmap else none
  | none => none

/-- The name protobuf prints. -/
def RuleProtocol.text : RuleProtocol → String
  | .unknown => "UNKNOWN"
  | .all => "ALL"
  | .tcp => "TCP"
  | .udp => "UDP"
  | .icmp => "ICMP"
  | .custom => "CUSTOM"
  | .other n => toString n

/-- `convertToFirewallProtocol`. -/
def convertToFirewallProtocol : RuleProtocol → Except String Protocol
  | .tcp => .ok .tcp
  | .udp => .ok .udp
  | .icmp => .ok .icmp
  | .all => .ok .all
  | protocol => .error ("invalid protocol type: " ++ protocol.text)

/-- `convertFirewallAction`. -/
def convertFirewallAction : RuleAction → Except String Action
  | .accept => .ok .accept
  | .drop => .ok .drop
  | .other n => .error ("invalid action type: " ++ toString n)

/-- `portInfoEmpty`. -/
def portInfoEmpty : Option PortInfo → Bool
  | some (.port n) => n = 0
  | some (.range none) => true
  | some (.range (some (start, stop))) => start = 0 ∨ stop = 0
  | some .unset => true
  | none => true

/-- One port, cut to 16 bits. -/
def singlePort (value : Int) : Port :=
  ⟨false, [(value % 65536).toNat], (absurd · Bool.false_ne_true)⟩

/-- A range, its ends cut to sixteen bits. -/
def portRange (start stop : Nat) : Port :=
  ⟨true, [start % 65536, stop % 65536], fun _ => Nat.le_refl _⟩

/-- `convertPortInfo`. -/
def convertPortInfo : Option PortInfo → Option Port
  | some (.port n) => if n ≠ 0 then some (singlePort n) else none
  | some (.range (some (start, stop))) => some (portRange start stop)
  | _ => none

/-- `strconv.Atoi`. -/
def atoi (s : String) : Except String Int :=
  let digits := match s.toList with
    | '-' :: rest => rest
    | '+' :: rest => rest
    | rest => rest
  let abs : Nat := digits.foldl (fun n c => n * 10 + (c.toNat - 48)) 0
  if digits = [] ∨ digits.any (!·.isDigit) then
    .error ("strconv.Atoi: parsing \"" ++ s ++ "\": invalid syntax")
  else if s.toList.head? = some '-' then
    if abs ≤ 2 ^ 63 then .ok (-abs)
    else .error ("strconv.Atoi: parsing \"" ++ s ++ "\": value out of range")
  else if abs < 2 ^ 63 then .ok abs
  else .error ("strconv.Atoi: parsing \"" ++ s ++ "\": value out of range")

/-- The ports of a rule; old versions of management send a text. -/
def rulePort (r : FirewallRule) : Except String (Option Port) :=
  if !portInfoEmpty r.portInfo then .ok (convertPortInfo r.portInfo)
  else if r.port ≠ "" then
    match atoi r.port with
    | .ok value => .ok (some (singlePort value))
    | .error err => .error ("invalid port: " ++ err)
  else .ok none

/-- What has been read of a rule. -/
structure Entry where
  ip : Addr
  proto : Protocol
  direction : RuleDirection
  port : Option Port
  action : Action
deriving DecidableEq

/-- The first part of `protoRuleToFirewallRule`. -/
def convertRule (r : FirewallRule) : Except String Entry :=
  match parseIP r.peerIP with
  | none => .error "invalid IP address, skipping firewall rule"
  | some ip =>
    match convertToFirewallProtocol r.protocol with
    | .error err => .error ("skipping firewall rule: " ++ err)
    | .ok protocol =>
      match convertFirewallAction r.action with
      | .error err => .error ("skipping firewall rule: " ++ err)
      | .ok action =>
        match rulePort r with
        | .error err => .error err
        | .ok port => .ok ⟨ip, protocol, r.direction, port, action⟩

/-- The number of a direction. -/
def RuleDirection.number : RuleDirection → Int
  | .inbound => 0
  | .outbound => 1
  | .other n => n

/-- The text that the ID is made of. -/
def Entry.text (e : Entry) : String :=
  e.ip.text ++ protocolText e.proto ++ toString e.direction.number ++ toString e.action.number ++
    (e.port.map portText).getD ""

/-- MD5 of nothing. -/
def md5Empty : List UInt8 :=
  [0xd4, 0x1d, 0x8c, 0xd9, 0x8f, 0x00, 0xb2, 0x04, 0xe9, 0x80, 0x09, 0x98, 0xec, 0xf8, 0x42, 0x7e]

/-- `getPeerRuleID`: `Sum` appends the hash of what has been written, which is nothing, to
    the text. -/
def getPeerRuleID (e : Entry) : String :=
  HmacSha256.hexText (e.text.toUTF8.data.toList ++ md5Empty)

/-- `shouldSkipInvertedRule`: the rule already covers its answers. -/
def shouldSkipInvertedRule (protocol : Protocol) (port : Option Port) : Bool :=
  protocol = .all ∨ protocol = .icmp ∨ port = none

/-- What the firewall is asked to filter. -/
structure Filter where
  ip : Addr
  proto : Protocol
  sPort : Option Port
  dPort : Option Port
  action : Action
deriving DecidableEq

/-- The filter of a rule: for inbound packets, or for the answers to outbound ones if
    the firewall does not track connections. -/
def Entry.filter? (stateful : Bool) (e : Entry) : Option Filter :=
  match e.direction with
  | .inbound => some ⟨e.ip, e.proto, none, e.port, e.action⟩
  | .outbound =>
    if stateful ∨ shouldSkipInvertedRule e.proto e.port then none
    else some ⟨e.ip, e.proto, e.port, none, e.action⟩
  | .other _ => none

/-! ## What can be read -/

/-- One port or a range. -/
def PlainPort (p : Port) : Prop :=
  (∃ n : Nat, p.isRange = false ∧ p.values = [n]) ∨ ∃ m n : Nat, p.isRange ∧ p.values = [m, n]

/-- An entry in the form in which rules are read, in one of the two directions. -/
structure Entry.Plain (e : Entry) : Prop where
  ip : e.ip.Plain
  proto : e.proto = .tcp ∨ e.proto = .udp ∨ e.proto = .icmp ∨ e.proto = .all
  direction : e.direction = .inbound ∨ e.direction = .outbound
  port : ∀ p ∈ e.port, PlainPort p

section

variable {r : FirewallRule} {e : Entry}

/-- An address that parses is plain. -/
theorem plain_of_parseIP (h : parseIP s = some ip) : ip.Plain := by
  rw [parseIP] at h
  split at h
  · next addr ha =>
    split at h
    · next hz =>
      cases h
      exact plain_unmap (isValid_of_parseAddr ha) hz
    · cases h
  · cases h

theorem plainPort_of_rulePort (h : rulePort r = .ok port) : ∀ p ∈ port, PlainPort p := by
  have hs : ∀ value, PlainPort (singlePort value) := fun value => .inl ⟨_, rfl, rfl⟩
  have hc : ∀ info, ∀ p ∈ convertPortInfo info, PlainPort p := by
    intro info p hp
    match info with
    | none | some .unset | some (.range none) => cases hp
    | some (.range (some (start, stop))) =>
      cases hp
      exact .inr ⟨_, _, rfl, rfl⟩
    | some (.port n) =>
      rw [convertPortInfo] at hp
      split at hp
      · cases hp
        exact hs _
      · cases hp
  grind [rulePort]

/-- What is read is plain, if its direction is known. -/
theorem plain_of_convertRule (h : convertRule r = .ok e)
    (hd : e.direction = .inbound ∨ e.direction = .outbound) : e.Plain := by
  rw [convertRule] at h
  split at h
  · cases h
  rename_i ip hi
  split at h
  · cases h
  rename_i protocol hpr
  split at h
  · cases h
  split at h
  · cases h
  rename_i port hpo
  cases h
  refine ⟨plain_of_parseIP hi, ?_, hd, plainPort_of_rulePort hpo⟩
  cases hp : r.protocol <;> rw [hp] at hpr <;> cases hpr <;> simp

end

/-! ## The ID tells the rule -/

section

variable {e e' : Entry} {p p' : Port}

/-- Neither an address nor a port is written with this letter. -/
def Rare (c : Char) : Prop :=
  c ≠ '.' ∧ c ≠ ':' ∧ (∀ d < 16, c ≠ Nat.digitChar d) ∧ c ∉ "range:,".toList

instance : DecidablePred Rare := fun _ => inferInstanceAs (Decidable (_ ∧ _ ∧ _ ∧ _))

/-- A rare character is in no address's text. -/
theorem Rare.notMem_text (hc : Rare c) {a : Addr} (ha : a.Plain) : c ∉ a.text.toList := by
  intro h
  rcases ha.mem_text h with h | h | ⟨d, hd, h⟩
  · exact hc.1 h
  · exact hc.2.1 h
  · exact hc.2.2.1 d hd h

theorem portText_single (hr : p.isRange = false) (hv : p.values = [n]) :
    portText p = toString n := by
  rw [portText, hr, hv]
  simp

theorem portText_range (hr : p.isRange) (hv : p.values = [m, n]) :
    portText p = "range:" ++ (toString m ++ ("," ++ toString n)) := by
  refine String.toList_inj.mp ?_
  rw [portText, hr, hv]
  simp

/-- A number is written with something, and not with the letters of a range. -/
theorem toString_ne_range (n : Nat) (s : String) : toString n ≠ "range:" ++ s := by
  intro h
  refine notMem_nat (c := ':') (by decide) n ?_
  rw [h]
  simp

/-- A port's text is not empty. -/
theorem portText_ne_blank (hp : PlainPort p) : portText p ≠ "" := by
  rcases hp with ⟨n, hr, hv⟩ | ⟨m, n, hr, hv⟩
  · rw [portText_single hr hv]
    intro h
    have hnil : Nat.toDigits 10 n = [] := by
      simpa [Nat.toString_eq_repr] using congrArg String.toList h
    exact Nat.toDigits_ne_nil hnil
  · rw [portText_range hr hv]
    intro h
    have hl := congrArg (·.toList.length) h
    simp at hl

/-- A port's text determines it. -/
theorem portText_inj (hp : PlainPort p) (hp' : PlainPort p') (h : portText p = portText p') :
    p = p' := by
  have hpo : ∀ {p p' : Port}, p.isRange = p'.isRange → p.values = p'.values → p = p' := by
    intro p p' hr hv
    cases p
    cases p'
    cases hr
    cases hv
    rfl
  rcases hp with ⟨n, hr, hv⟩ | ⟨m, n, hr, hv⟩
  · rcases hp' with ⟨n', hr', hv'⟩ | ⟨m', n', hr', hv'⟩
    · rw [portText_single hr hv, portText_single hr' hv'] at h
      exact hpo (hr.trans hr'.symm) (by rw [hv, hv', nat_inj h])
    · rw [portText_single hr hv, portText_range hr' hv'] at h
      exact absurd h (toString_ne_range _ _)
  · rcases hp' with ⟨n', hr', hv'⟩ | ⟨m', n', hr', hv'⟩
    · rw [portText_range hr hv, portText_single hr' hv'] at h
      exact absurd h.symm (toString_ne_range _ _)
    rw [portText_range hr hv, portText_range hr' hv'] at h
    obtain ⟨hm, hn⟩ := append_sep_inj (c := ',') rfl (notMem_nat (by decide) m)
      (notMem_nat (by decide) m') (append_length_inj rfl h).2
    exact hpo (hr.trans hr'.symm) (by rw [hv, hv', nat_inj hm, nat_inj hn])

/-- A rare character is in no port's text. -/
theorem Rare.notMem_portText (hc : Rare c) (hp : PlainPort p) : c ∉ (portText p).toList := by
  have hdi : ∀ n : Nat, c ∉ (toString n).toList := by
    intro n h
    obtain ⟨d, hd, hch⟩ := mem_digits (b := 10) (n := n) (by decide)
      (by simpa [Nat.toString_eq_repr] using h)
    exact hc.2.2.1 d (by omega) hch
  rcases hp with ⟨n, hr, hv⟩ | ⟨m, n, hr, hv⟩
  · rw [portText_single hr hv]
    exact hdi n
  rw [portText_range hr hv]
  have hl := hc.2.2.2
  have hm := hdi m
  have hn := hdi n
  simp only [String.toList_append, mem_append, not_or]
  refine ⟨fun h => hl ?_, hm, fun h => hl ?_, hn⟩
  · revert h
    simp
    tauto
  · revert h
    simp
    tauto

/-- What follows the protocol. -/
def Entry.rest (e : Entry) : List Char :=
  (toString e.direction.number).toList ++ (toString e.action.number).toList ++
    ((e.port.map portText).getD "").toList

/-- The text of an entry, field by field. -/
theorem Entry.toList_text (e : Entry) :
    e.text.toList = e.ip.text.toList ++ ((protocolText e.proto).toList ++ e.rest) := by
  rw [Entry.text, Entry.rest]
  simp

/-- The direction and the action are one digit each. -/
theorem toList_direction {d : RuleDirection} (h : d = .inbound ∨ d = .outbound) :
    ∃ c, (toString d.number).toList = [c] ∧ (c = '0' ∧ d = .inbound ∨ c = '1' ∧ d = .outbound) := by
  rcases h with rfl | rfl
  · exact ⟨'0', by decide, .inl ⟨rfl, rfl⟩⟩
  · exact ⟨'1', by decide, .inr ⟨rfl, rfl⟩⟩

/-- An action is one digit. -/
theorem toList_action (a : Action) :
    ∃ c, (toString a.number).toList = [c] ∧ (c = '0' ∧ a = .accept ∨ c = '1' ∧ a = .drop) := by
  cases a with
  | accept => exact ⟨'0', by decide, .inl ⟨rfl, rfl⟩⟩
  | drop => exact ⟨'1', by decide, .inr ⟨rfl, rfl⟩⟩

/-- A rare character is not in what follows the protocol. -/
theorem Rare.notMem_rest {c : Char} (hc : Rare c) (he : e.Plain) : c ∉ e.rest := by
  have h0 : c ≠ '0' := hc.2.2.1 0 (by decide)
  have h1 : c ≠ '1' := hc.2.2.1 1 (by decide)
  obtain ⟨d, hd, hdi⟩ := toList_direction he.direction
  obtain ⟨a, ha, hd'⟩ := toList_action e.action
  have hpo : c ∉ ((e.port.map portText).getD "").toList := by
    cases hp : e.port with
    | none => simp
    | some p => exact hc.notMem_portText (he.port p hp)
  grind [Entry.rest]

/-- What follows the protocol tells the rest of the rule. -/
theorem rest_inj (he : e.Plain) (he' : e'.Plain) (h : e.rest = e'.rest) :
    e.direction = e'.direction ∧ e.action = e'.action ∧ e.port = e'.port := by
  obtain ⟨d, hd, hdi⟩ := toList_direction he.direction
  obtain ⟨d', hd', hdg'⟩ := toList_direction he'.direction
  obtain ⟨a, ha, hac⟩ := toList_action e.action
  obtain ⟨a', ha', hac'⟩ := toList_action e'.action
  rw [Entry.rest, Entry.rest, hd, hd', ha, ha'] at h
  obtain ⟨hdd, h⟩ := List.cons.inj h
  obtain ⟨haa, hpo⟩ := List.cons.inj h
  refine ⟨?_, ?_, ?_⟩
  · grind
  · grind
  · have hte := String.toList_inj.mp hpo
    cases hp : e.port with
    | none =>
      cases hp' : e'.port with
      | none => rfl
      | some p' =>
        rw [hp, hp'] at hte
        exact absurd hte.symm (portText_ne_blank (he'.port p' hp'))
    | some p =>
      cases hp' : e'.port with
      | none =>
        rw [hp, hp'] at hte
        exact absurd hte (portText_ne_blank (he.port p hp))
      | some p' =>
        rw [hp, hp'] at hte
        rw [portText_inj (he.port p hp) (he'.port p' hp') hte]

/-- Only `all` is written with this letter. -/
theorem mem_text_iff_all (he : e.Plain) : 'l' ∈ e.text.toList ↔ e.proto = .all := by
  have hl : Rare 'l' := by decide
  rw [Entry.toList_text, mem_append, mem_append, or_iff_right (hl.notMem_text he.ip),
    or_iff_left (hl.notMem_rest he)]
  rcases he.proto with h | h | h | h <;> rw [h] <;> decide

/-- A letter of the protocol that is rare splits the text. -/
theorem split_at_letter (he : e.Plain) (he' : e'.Plain) (hc : Rare c) (hx : c ∉ x) (hx' : c ∉ x')
    (h : e.ip.text.toList ++ (x ++ c :: y) = e'.ip.text.toList ++ (x' ++ c :: y')) :
    e.ip.text.toList ++ x = e'.ip.text.toList ++ x' ∧ y = y' := by
  rw [← append_assoc, ← append_assoc] at h
  refine split_first ?_ ?_ h
  · exact fun hm => (mem_append.mp hm).elim (hc.notMem_text he.ip) hx
  · exact fun hm => (mem_append.mp hm).elim (hc.notMem_text he'.ip) hx'

/-- The letters of the other protocols before the p, which end differently. -/
theorem exists_stem (he : e.Plain) (ha : e.proto ≠ .all) :
    ∃ x, (protocolText e.proto).toList = x ++ ['p'] ∧ 'p' ∉ x ∧
      (x = ['t', 'c'] ∧ e.proto = .tcp ∨ x = ['u', 'd'] ∧ e.proto = .udp ∨
        x = ['i', 'c', 'm'] ∧ e.proto = .icmp) := by
  rcases he.proto with h | h | h | h
  · exact ⟨['t', 'c'], by rw [h]; rfl, by decide, .inl ⟨rfl, h⟩⟩
  · exact ⟨['u', 'd'], by rw [h]; rfl, by decide, .inr (.inl ⟨rfl, h⟩)⟩
  · exact ⟨['i', 'c', 'm'], by rw [h]; rfl, by decide, .inr (.inr ⟨rfl, h⟩)⟩
  · exact absurd h ha

/-- The address, the protocol and the rest can be read off the text. -/
theorem text_inj (he : e.Plain) (he' : e'.Plain) (h : e.text = e'.text) :
    e.ip = e'.ip ∧ e.proto = e'.proto ∧ e.rest = e'.rest := by
  have ha : e.proto = .all ↔ e'.proto = .all := by
    rw [← mem_text_iff_all he, ← mem_text_iff_all he', h]
  have hc := congrArg String.toList h
  rw [Entry.toList_text, Entry.toList_text] at hc
  have hi : ∀ {x : List Char}, e.ip.text.toList ++ x = e'.ip.text.toList ++ x → e.ip = e'.ip := by
    intro x hx
    exact Addr.text_inj he.ip he'.ip (String.toList_inj.mp (append_cancel_right hx))
  by_cases hp : e.proto = .all
  · have hp' := ha.mp hp
    rw [hp, hp'] at hc
    have hsp : e.ip.text.toList ++ (['a'] ++ 'l' :: 'l' :: e.rest) =
        e'.ip.text.toList ++ (['a'] ++ 'l' :: 'l' :: e'.rest) := hc
    obtain ⟨hl, hr⟩ := split_at_letter he he' (by decide) (by decide) (by decide) hsp
    exact ⟨hi hl, hp.trans hp'.symm, (List.cons.inj hr).2⟩
  · obtain ⟨x, hte, hx, hs⟩ := exists_stem he hp
    obtain ⟨x', ht', hx', hs'⟩ := exists_stem he' (mt ha.mpr hp)
    rw [hte, ht', append_assoc, append_assoc] at hc
    obtain ⟨hl, hr⟩ := split_at_letter he he' (by decide) hx hx' hc
    -- the letter before the p tells the protocol
    have hla : x.getLast? = x'.getLast? := by
      have hn : x ≠ [] ∧ x' ≠ [] := by grind
      have hen := congrArg List.getLast? hl
      rwa [List.getLast?_append_of_ne_nil _ hn.1, List.getLast?_append_of_ne_nil _ hn.2] at hen
    have hsa : x = x' ∧ e.proto = e'.proto := by grind
    rw [← hsa.1] at hl
    exact ⟨hi hl, hsa.2, hr⟩

/-- **The ID tells the rule.** -/
theorem getPeerRuleID_inj (he : e.Plain) (he' : e'.Plain)
    (h : getPeerRuleID e = getPeerRuleID e') : e = e' := by
  have hb := append_cancel_right (HmacSha256.hexText_inj h)
  have hte : e.text = e'.text := String.toByteArray_inj.mp (ByteArray.ext (Array.toList_inj.mp hb))
  obtain ⟨hi, hp, hr⟩ := text_inj he he' hte
  obtain ⟨hd, ha, hpo⟩ := rest_inj he he' hr
  cases e
  cases e'
  simp_all

/-- The filter tells the rule: only answers are filtered by the source port. -/
theorem filter?_inj (he : e.Plain) (he' : e'.Plain)
    (h : e.filter? stateful = some f) (h' : e'.filter? stateful = some f) : e = e' := by
  have hc : ∀ {e : Entry}, e.Plain → e.filter? stateful = some f →
      e.direction = .inbound ∧ f = ⟨e.ip, e.proto, none, e.port, e.action⟩ ∨
        e.direction = .outbound ∧ e.port ≠ none ∧ f = ⟨e.ip, e.proto, e.port, none, e.action⟩ := by
    grind [Entry.filter?, shouldSkipInvertedRule]
  obtain ⟨ip, proto, direction, port, action⟩ := e
  obtain ⟨ip', proto', direction', port', action'⟩ := e'
  grind

end

end Acl

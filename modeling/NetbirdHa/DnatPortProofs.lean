import NetbirdHa.RouteFilterProofs
import NetbirdHa.TransitionProofs

/-! # The original port of an inbound packet

`applyPortRule` notes the original port of a packet that it rewrites in the packet's decoder.
The trackers store it with the entry that the packet makes, and then `trackInbound` clears it.
A packet that is dropped, that belongs to a tracked connection or that goes to the forwarder
does not come so far, and its port goes back to the pool with the decoder. -/

namespace DnatPort

open Netip Transition

open PeerFilter (LayerType)

/-- A port that is translated. -/
structure PortDNATRule where
  protocol : LayerType
  origPort : Nat
  targetPort : Nat
  targetIP : Addr

/-- What a call of `filterInbound` reads, and what comes of its steps. -/
structure Call where
  layer : LayerType
  srcIP : Addr
  dstIP : Addr
  dstPort : Nat
  portDNATEnabled : Bool := true
  portDNATRules : List PortDNATRule := []
  valid : Bool := true
  fragment : Bool := false
  rewrites : Bool := true
  redecodes : Bool := true
  reversed : Bool := false
  redecodesReversed : Bool := true
  tracked : Bool := false
  isLocal : Bool := true
  blocked : Bool := false
  shouldForward : Bool := false
  routingEnabled : Bool := true
  nativeRouter : Bool := false
  /-- The tracker has no entry of the connection, and makes one. -/
  creates : Bool := true

section

variable (c : Call)

/-- `applyPortRule`, with the port that it notes. -/
def applyPortRule (srcIP : Addr) : List PortDNATRule → Option Nat
  | [] => none
  | rule :: rules =>
    if rule.protocol ≠ c.layer ∨ rule.targetIP ≠ c.dstIP then applyPortRule srcIP rules
    else if rule.targetPort = c.dstPort ∧ rule.targetIP = srcIP then none
    else if rule.origPort ≠ c.dstPort then applyPortRule srcIP rules
    else if c.rewrites then some rule.origPort else none

/-- `translateInboundPortDNAT`: the port before the translation, if one took place. -/
def translateInboundPortDNAT : Option Nat :=
  if !c.portDNATEnabled then none
  else
    match c.layer with
    | .tcp => applyPortRule c c.srcIP c.portDNATRules
    | .udp => applyPortRule c .zero c.portDNATRules
    | _ => none

/-- The port left in the decoder, and the one stored with a new entry. -/
def trackInbound (dnatOrigPort : Nat) : Nat × Option Nat :=
  (0, if c.creates ∧ (c.layer = .tcp ∨ c.layer = .udp) then some dnatOrigPort else none)

/-- `filterInbound`: the port left in the decoder, and the one that is recorded. -/
def filterInbound (dnatOrigPort : Nat) : Nat × Option Nat :=
  if !c.valid || c.fragment then (dnatOrigPort, none)
  else
    let translated := translateInboundPortDNAT c
    let port := translated.getD dnatOrigPort
    if translated.isSome && !c.redecodes then (port, none)
    else if c.reversed && !c.redecodesReversed then (port, none)
    else if c.tracked then (port, none)
    else if c.isLocal then
      if c.blocked || c.shouldForward then (port, none) else trackInbound c port
    else if c.routingEnabled && c.nativeRouter then trackInbound c port
    else (port, none)

end

/-- An entry of a tracker, with the call that made it. -/
structure Entry where
  dnatOrigPort : Nat
  call : Call

/-- The pool of decoders, and the recorded ports. -/
structure State where
  /-- The ports left in the decoders of the pool. -/
  decoders : List Nat := []
  entries : List Entry := []

/-- The decoder that a call gets: one of the pool, or a new one. -/
def State.get (s : State) (i : Option Nat) : Option Nat :=
  i.elim (some 0) fun i => s.decoders[i]?

/-- A packet takes a decoder from the pool and gives it back. -/
def step (s : State) (a : Option Nat × Call) : Option State :=
  (s.get a.1).map fun d =>
    { decoders := a.1.elim s.decoders s.decoders.eraseIdx ++ [(filterInbound a.2 d).1]
      entries := s.entries ++ (filterInbound a.2 d).2.toList.map (⟨·, a.2⟩) }

/-- Only packets that were rewritten have a port stored, and it is their own. -/
def Good (s : State) : Prop :=
  ∀ e ∈ s.entries, e.dnatOrigPort ≠ 0 → (translateInboundPortDNAT e.call).isSome ∧
    e.dnatOrigPort = e.call.dstPort

/-- A packet that makes an entry is rewritten, or its decoder has no port left. -/
def CleanDecoder (s : State) (a : Option Nat × Call) : Prop :=
  ∀ d ∈ s.get a.1, (filterInbound a.2 d).2.isSome → (translateInboundPortDNAT a.2).isSome ∨ d = 0

variable {c : Call} {s s' : State} {a : Option Nat × Call} {d port : Nat}

theorem applyPortRule_eq (rules : List PortDNATRule)
    (h : applyPortRule c srcIP rules = some port) : port = c.dstPort := by
  induction rules with
  | nil => cases h
  | cons rule rules ih =>
    rw [applyPortRule] at h
    split_ifs at h with h1 h2 h3
    · exact ih h
    · exact ih h
    · exact (Option.some.inj h).symm.trans (not_not.mp h3)

/-- The port that is noted is that of the packet. -/
theorem translated_eq (h : translateInboundPortDNAT c = some port) : port = c.dstPort := by
  rw [translateInboundPortDNAT] at h
  split at h
  · cases h
  split at h
  · exact applyPortRule_eq _ h
  · exact applyPortRule_eq _ h
  · cases h

/-- The port that is stored is the one noted, or the one left in the decoder. -/
theorem stored_eq (h : (filterInbound c d).2 = some port) :
    port = (translateInboundPortDNAT c).getD d := by
  grind [filterInbound, trackInbound]

theorem good_step_iff (h : step s a = some s') : Good s' ↔ Good s ∧ CleanDecoder s a := by
  obtain ⟨d, hd, rfl⟩ := Option.map_eq_some_iff.mp h
  simp only [Good, CleanDecoder, hd, Option.mem_some_iff, forall_eq', List.forall_mem_append]
  refine and_congr_right fun _ => ?_
  cases hr : (filterInbound a.2 d).2 with
  | none => simp
  | some port =>
    have hp := stored_eq hr
    cases ht : translateInboundPortDNAT a.2 with
    | none =>
      rw [ht, Option.getD_none] at hp
      by_cases hd : d = 0 <;> simp [ht, hp, hd]
    | some p =>
      rw [ht, Option.getD_some, translated_eq ht] at hp
      simp [ht, hp]

/-- **The ports stored in the trackers** are those of the packets that were rewritten, and
    no others, exactly if no packet that is not rewritten makes an entry with a decoder that
    has a port left. -/
theorem stored_iff (as : List (Option Nat × Call)) (s : State) (h : run step {} as = some s) :
    Good s ↔ AllowedRun step CleanDecoder {} as := by
  refine (run_good_iff (fun _ _ _ (_ : True) _ => trivial) (fun _ _ _ _ => good_step_iff) as {} s
    trivial h).trans (and_iff_right ?_)
  exact fun _ he => absurd he List.not_mem_nil

/-! ## Which packets leave a port behind -/

/-- A rewritten packet that does not come to the end of `trackInbound`. -/
def LeavesPort (c : Call) : Bool :=
  c.valid && !c.fragment && (translateInboundPortDNAT c).isSome &&
    (!c.redecodes || c.reversed && !c.redecodesReversed || c.tracked ||
      if c.isLocal then c.blocked || c.shouldForward else !(c.routingEnabled && c.nativeRouter))

/-- A clean decoder comes back clean, unless such a packet leaves its port in it. -/
theorem filterInbound_clean_iff :
    (filterInbound c 0).1 = 0 ↔ (LeavesPort c → c.dstPort = 0) := by
  cases ht : translateInboundPortDNAT c with
  | none => grind [filterInbound, LeavesPort, trackInbound]
  | some p =>
    have hp := translated_eq ht
    subst hp
    grind [filterInbound, LeavesPort, trackInbound]

/-- If no packet leaves its port behind, a step keeps the pool clean. -/
theorem clean_step (hd : ∀ d ∈ s.decoders, d = 0) (ha : ¬ LeavesPort a.2)
    (h : step s a = some s') : ∀ d ∈ s'.decoders, d = 0 := by
  obtain ⟨d, hg, rfl⟩ := Option.map_eq_some_iff.mp h
  have h0 : d = 0 := by
    rcases a with ⟨_ | i, c⟩
    · exact (Option.some.inj hg).symm
    · exact hd d (List.mem_of_getElem? hg)
  subst h0
  intro e he
  rcases List.mem_append.mp he with he | he
  · rcases a with ⟨_ | i, c⟩
    · exact hd e he
    · exact hd e (List.mem_of_mem_eraseIdx he)
  · rw [List.mem_singleton.mp he]
    exact filterInbound_clean_iff.mpr fun hl => absurd hl ha

/-- **Enough for every run**: no rewritten packet leaves before the end of `trackInbound`. -/
theorem good_of_no_port_left (as : List (Option Nat × Call)) (h : ∀ a ∈ as, ¬ LeavesPort a.2)
    (hr : run step {} as = some s) : Good s := by
  have hst : ∀ s a s', (Good s ∧ ∀ d ∈ s.decoders, d = 0) → ¬ LeavesPort a.2 →
      step s a = some s' → Good s' ∧ ∀ d ∈ s'.decoders, d = 0 := by
    intro s a s' ⟨hg, hd⟩ ha hs
    refine ⟨(good_step_iff hs).mpr ⟨hg, fun d hm _ => .inr ?_⟩, clean_step hd ha hs⟩
    rcases a with ⟨_ | i, c⟩
    · exact (Option.some.inj hm).symm
    · exact hd d (List.mem_of_getElem? hm)
  have hok : AllowedRun step (fun _ a => ¬ LeavesPort a.2) {} as :=
    allowedRun_of_forall as _ fun a ha _ => h a ha
  have hi : Good {} ∧ ∀ d ∈ ({} : State).decoders, d = 0 :=
    ⟨fun _ he => absurd he List.not_mem_nil, fun _ hd => absurd hd List.not_mem_nil⟩
  exact (run_invariant hst as _ s hi hok hr).1

/-- To port 80 of a host that redirects port 22. -/
def toWeb : Call :=
  { layer := .tcp, srcIP := .v4 0x64400002, dstIP := .v4 0x64400001, dstPort := 80
    portDNATRules := [⟨.tcp, 22, 22022, .v4 0x64400001⟩] }

/-- To port 22. -/
def toSSH : Call := { toWeb with dstPort := 22 }

/-- A redirected packet comes through, and its decoder has no port left for the next. -/
theorem stored_redirected :
    ∃ s, run step {} [(none, toSSH), (some 0, toWeb)] = some s ∧ Good s := by
  refine ⟨_, rfl, (stored_iff [(none, toSSH), (some 0, toWeb)] _ rfl).mpr ⟨?_, ?_⟩⟩
  · exact fun _ _ _ => .inl rfl
  · rintro s ⟨⟩
    exact ⟨fun d hd _ => .inr (Option.some.inj hd).symm, fun _ _ => trivial⟩

/-- A redirected packet is dropped, and the next one has its port stored. -/
theorem stored_stale :
    (run step {} [(none, { toSSH with blocked := true }), (some 0, toWeb)]).map
      (·.entries.map fun e => (e.dnatOrigPort, translateInboundPortDNAT e.call)) =
        some [(22, none)] := by
  decide

end DnatPort

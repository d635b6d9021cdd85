import Mathlib.Data.List.Induction
import NetbirdHa.NetipProofs
import NetbirdHa.TableProofs
import NetbirdHa.TransitionProofs

/-! # Connection tracking for TCP

The userspace firewall lets an inbound packet in without asking its rules if it
belongs to a tracked connection.  A connection is an entry in a table, filed under
the addresses and ports of the packet that opened it; a packet that carries SYN
opens one, every packet of the connection moves its state, RST and the last ACK
mark it as a tombstone, and the cleanup removes tombstones and what has timed out.

The packets of a connection travel in both directions, but its entry is filed in
one.  `TrackOutbound` looks for an entry in either direction, `TrackInbound` only
in the packet's own, so one connection can have two entries.  An RST reaches one of
them; the other still lets packets in.

What holds of every run is read off one description of a step (`step_eq`): it
updates the entry that `handled` finds or makes, or is a cleanup. -/

namespace TcpTracker

open Netip Table List Function Transition

/-! ## Entries -/

/-- The FIN flag. -/
def tcpFin : UInt8 := 0x01
/-- The SYN flag. -/
def tcpSyn : UInt8 := 0x02
/-- The RST flag. -/
def tcpRst : UInt8 := 0x04
/-- The ACK flag. -/
def tcpAck : UInt8 := 0x10

/-- `flags & bit != 0`. -/
def has (flags bit : UInt8) : Bool := flags &&& bit != 0

/-- The states of a connection. -/
inductive TCPState where
  | new
  | synSent
  | synReceived
  | established
  | finWait1
  | finWait2
  | closing
  | timeWait
  | closeWait
  | lastAck
  | closed
deriving DecidableEq

/-- Which way the packet that opened the connection went. -/
inductive Direction where
  | ingress
  | egress
deriving DecidableEq

/-- A connection's addresses and ports. -/
structure ConnKey where
  srcIP : Addr
  dstIP : Addr
  srcPort : Nat
  dstPort : Nat
deriving DecidableEq

/-- The other direction. -/
def ConnKey.reverse (k : ConnKey) : ConnKey := ⟨k.dstIP, k.srcIP, k.dstPort, k.srcPort⟩

@[simp] theorem ConnKey.reverse_reverse (k : ConnKey) : k.reverse.reverse = k := rfl

/-- `TCPConnTrack`.  The counters of packets and bytes are for the flow log. -/
structure TCPConnTrack where
  flowId : Nat
  direction : Direction
  lastSeen : Int
  dnatOrigPort : Nat
  state : TCPState
  tombstone : Bool
deriving DecidableEq

section

variable (c : TCPConnTrack) (flags : UInt8) (packetDir : Direction)

/-- A tombstone, or a SYN on a connection that waits to be closed, opens a new connection. -/
def TCPConnTrack.isSupersededBy : Bool :=
  c.tombstone || (has flags tcpSyn && !has flags tcpAck && decide (c.state = .timeWait))

/-- The switch of `updateState`; `new` means that the state stays. -/
def newState : TCPState :=
  match c.state with
  | .new =>
    if has flags tcpSyn && !has flags tcpAck then
      if c.direction = .egress then .synSent else .synReceived
    else .new
  | .synSent =>
    if has flags tcpSyn && has flags tcpAck then
      -- the same direction: simultaneous open
      if packetDir ≠ c.direction then .established else .synReceived
    else .new
  | .synReceived =>
    if has flags tcpAck && !has flags tcpSyn then
      if packetDir = c.direction then .established else .new
    else .new
  | .established =>
    if has flags tcpFin then
      if packetDir = c.direction then .finWait1 else .closeWait
    else .new
  | .finWait1 =>
    if packetDir ≠ c.direction then
      if has flags tcpFin && has flags tcpAck then .closing
      else if has flags tcpFin then .closing
      else if has flags tcpAck then .finWait2
      else .new
    else .new
  | .finWait2 => if has flags tcpFin then .timeWait else .new
  | .closing => if has flags tcpAck then .timeWait else .new
  | .closeWait => if has flags tcpFin then .lastAck else .new
  | .lastAck => if has flags tcpAck then .closed else .new
  | .timeWait => .new
  | .closed => .new

/-- `updateState`, without the events for the flow log. -/
def updateState (now : Int) : TCPConnTrack :=
  let c := { c with lastSeen := now }
  if has flags tcpRst then { c with state := .closed, tombstone := true }
  else
    match newState c flags packetDir with
    | .new => c
    | .closed => { c with state := .closed, tombstone := true }
    | s => { c with state := s }

/-- `isValidFlagCombination`: SYN with FIN, and RST with either, are refused. -/
def isValidFlagCombination : Bool :=
  if has flags tcpSyn && has flags tcpFin then false
  else if has flags tcpRst && (has flags tcpSyn || has flags tcpFin) then false
  else true

end

/-- `isValidStateForFlags`: which flags a state admits. -/
def isValidStateForFlags (state : TCPState) (flags : UInt8) : Bool :=
  if !isValidFlagCombination flags then false
  else if has flags tcpRst then
    if state = .synSent then has flags tcpAck else true
  else
    match state with
    | .new => has flags tcpSyn && !has flags tcpAck
    | .synSent => has flags tcpSyn && has flags tcpAck
    | .synReceived => has flags tcpAck
    | .established => has flags tcpAck
    | .finWait1 => has flags tcpFin || has flags tcpAck
    | .finWait2 => has flags tcpFin || has flags tcpAck
    | .closing => has flags tcpAck
    | .timeWait => has flags tcpAck
    | .closeWait => has flags tcpFin || has flags tcpAck
    | .lastAck => has flags tcpAck
    | .closed => has flags tcpAck

/-! ## The tracker -/

/-- `TCPTracker`, with the IDs that `uuid.New` draws for its entries, one after the other, and
    the number of entries made so far. -/
structure Tracker where
  connections : ConnKey → Option TCPConnTrack := fun _ => none
  timeout : Int
  waitTimeout : Int
  uuid : Nat → Nat
  created : Nat := 0

/-- `time.Second`, in nanoseconds. -/
def second : Int := 1000000000

/-- `NewTCPTracker`: three hours and two segment lifetimes by default. -/
def newTCPTracker (uuid : Nat → Nat) (timeout : Int) : Tracker :=
  if timeout = 0 then { timeout := 10800 * second, waitTimeout := 240 * second, uuid := uuid }
  else { timeout := timeout, waitTimeout := timeout.tdiv 45, uuid := uuid }

section

variable (t : Tracker) (p : Packet) (key : ConnKey) (flags : UInt8) (direction : Direction)

section

variable (c : TCPConnTrack) (origPort : Nat) (now : Int)

/-- Enters a connection under a key. -/
def Tracker.put : Tracker :=
  { t with connections := update t.connections key (some c) }

/-- The entry under the key, unless the flags supersede it. -/
def Tracker.current : Option TCPConnTrack :=
  (t.connections key).filter (!·.isSupersededBy flags)

/-- `updateIfExists`: the tracker and the original port, if there is an entry. -/
def Tracker.updateIfExists : Option (Tracker × Nat) :=
  match t.current key flags with
  | some c => some (t.put key (updateState c flags direction now), c.dnatOrigPort)
  | none => none

/-- A new entry. -/
def Tracker.fresh : TCPConnTrack :=
  { flowId := t.uuid t.created, direction := direction, lastSeen := now, dnatOrigPort := origPort,
    state := .new, tombstone := false }

/-- `track`: moves the connection on, or opens one for a SYN. -/
def Tracker.track : Tracker :=
  match t.updateIfExists key flags direction now with
  | some (t', _) => t'
  | none =>
    if has flags tcpSyn then
      { t.put key (updateState (t.fresh direction origPort now) flags direction now) with
        created := t.created + 1 }
    else t

/-- What the tracker reads of a packet. -/
structure Packet where
  key : ConnKey
  flags : UInt8
deriving DecidableEq

/-- `TrackOutbound`: the inverted direction first. -/
def Tracker.trackOutbound : Tracker × Nat :=
  match t.updateIfExists p.key.reverse p.flags .egress now with
  | some (t', origPort) => (t', origPort)
  | none => (t.track p.key p.flags .egress 0 now, 0)

/-- `TrackInbound`. -/
def Tracker.trackInbound (dnatOrigPort : Nat) (now : Int) : Tracker :=
  t.track p.key p.flags .ingress dnatOrigPort now

/-- `IsValidInbound`: the tracker, and whether the packet is let in. -/
def Tracker.isValidInbound : Tracker × Bool :=
  match t.current p.key.reverse p.flags with
  | none => (t, false)
  | some c =>
    if isValidStateForFlags c.state p.flags then
      (t.put p.key.reverse (updateState c p.flags .ingress now), true)
    -- all flags are allowed for established connections
    else (t, decide (c.state = .established))

/-- `TCPHandshakeTimeout`. -/
def handshakeTimeout : Int := 60 * second

/-- How long a connection in this state may be silent. -/
def Tracker.timeoutOf : Int :=
  match c.state with
  | .timeWait => t.waitTimeout
  | .established => t.timeout
  | _ => handshakeTimeout

/-- `cleanup`: drops the tombstones and the connections that timed out. -/
def Tracker.cleanup : Tracker :=
  { t with connections := fun key => (t.connections key).filter (fun c =>
      !c.tombstone && !decide (t.timeoutOf c < now - c.lastSeen)) }

end

/-- One call on the tracker. -/
inductive Step where
  | outbound (p : Packet) (now : Int)
  | inbound (p : Packet) (dnatOrigPort : Nat) (now : Int)
  | valid (p : Packet) (now : Int)
  | cleanup (now : Int)
deriving DecidableEq

/-- What a call leaves of the tracker. -/
def Tracker.step : Step → Tracker
  | .outbound p now => (t.trackOutbound p now).1
  | .inbound p dnatOrigPort now => t.trackInbound p dnatOrigPort now
  | .valid p now => (t.isValidInbound p now).1
  | .cleanup now => t.cleanup now

end

/-- The tracker after the calls. -/
def after (uuid : Nat → Nat) (timeout : Int) (steps : List Step) : Tracker :=
  steps.foldl Tracker.step (newTCPTracker uuid timeout)

open Tracker TCPConnTrack

/-- One call more. -/
theorem after_concat (uuid : Nat → Nat) (timeout : Int) (steps : List Step) (s : Step) :
    after uuid timeout (steps ++ [s]) = (after uuid timeout steps).step s := by
  rw [after, List.foldl_append]
  rfl

/-! ## What a step handles -/

/-- The packet of a step is tracked under its own addresses and carries SYN. -/
def Step.Opens : Step → ConnKey → Prop
  | .outbound p _, k => has p.flags tcpSyn ∧ p.key = k
  | .inbound p _ _, k => has p.flags tcpSyn ∧ p.key = k
  | _, _ => False

/-- The entry that `track` updates: the one that is there or a new one. -/
def Tracker.tracked (t : Tracker) (key : ConnKey) (flags : UInt8) (direction : Direction)
    (origPort : Nat) (now : Int) : Option (ConnKey × TCPConnTrack) :=
  match t.current key flags with
  | some c => some (key, c)
  | none => if has flags tcpSyn then some (key, t.fresh direction origPort now) else none

/-- The entry that the packet of a step is put to, with the direction and time. -/
def Tracker.handled (t : Tracker) : Step → Option (ConnKey × TCPConnTrack)
  | .outbound p now =>
    match t.current p.key.reverse p.flags with
    | some c => some (p.key.reverse, c)
    | none => t.tracked p.key p.flags .egress 0 now
  | .inbound p dnatOrigPort now => t.tracked p.key p.flags .ingress dnatOrigPort now
  | .valid p _ =>
    match t.current p.key.reverse p.flags with
    | some c => if isValidStateForFlags c.state p.flags then some (p.key.reverse, c) else none
    | none => none
  | .cleanup _ => none

/-- The flags of the packet, its direction, and the time. -/
def Step.packet : Step → UInt8 × Direction × Int
  | .outbound p now => (p.flags, .egress, now)
  | .inbound p _ now => (p.flags, .ingress, now)
  | .valid p now => (p.flags, .ingress, now)
  | .cleanup now => (0, .ingress, now)

/-- The table after a packet. -/
def Tracker.handle (t : Tracker) (s : Step) : ConnKey → Option TCPConnTrack :=
  match t.handled s with
  | some (k, c) =>
    update t.connections k (some (updateState c s.packet.1 s.packet.2.1 s.packet.2.2))
  | none => t.connections

variable {s : Step} {p : Packet} {direction : Direction} {now : Int}

section

variable {t : Tracker} {k : ConnKey} {c c' : TCPConnTrack} {flags : UInt8}

/-- Tracking changes at most one connection. -/
theorem track_eq (direction : Direction) (origPort : Nat) (now : Int) :
    (t.track k flags direction origPort now).connections =
      match t.tracked k flags direction origPort now with
      | some (k, c) => update t.connections k (some (updateState c flags direction now))
      | none => t.connections := by
  rw [track, updateIfExists, tracked]
  cases t.current k flags with
  | some c => rfl
  | none =>
    by_cases hs : has flags tcpSyn
    · rw [if_pos hs, if_pos hs]
      rfl
    · rw [if_neg hs, if_neg hs]

/-- **What a step does** to the table: a cleanup, or the update of the entry that it handles. -/
theorem step_eq (t : Tracker) (s : Step) :
    (∃ now, s = .cleanup now) ∨ (t.step s).connections = t.handle s := by
  cases s with
  | cleanup now => exact .inl ⟨now, rfl⟩
  | outbound p now =>
    refine .inr ?_
    rw [step, trackOutbound, updateIfExists, handle, handled]
    cases t.current p.key.reverse p.flags with
    | some c => rfl
    | none => exact track_eq .egress 0 now
  | inbound p dnatOrigPort now => exact .inr (track_eq .ingress dnatOrigPort now)
  | valid p now =>
    refine .inr ?_
    rw [step, isValidInbound, handle, handled]
    cases t.current p.key.reverse p.flags with
    | none => rfl
    | some c =>
      by_cases hv : isValidStateForFlags c.state p.flags
      · simp only [hv, if_true]
        rfl
      · simp only [hv]
        rfl

/-- A connection keeps its flow and its direction. -/
@[simp] theorem updateState_kept (direction : Direction) (now : Int) :
    (updateState c flags direction now).flowId = c.flowId ∧
      (updateState c flags direction now).direction = c.direction := by
  rw [updateState]
  split
  · exact ⟨rfl, rfl⟩
  · split <;> exact ⟨rfl, rfl⟩

/-- The current connection is entered, and no tombstone. -/
theorem current_eq_some (h : t.current k flags = some c) :
    t.connections k = some c ∧ c.tombstone = false := by
  obtain ⟨hc, hl⟩ := Option.filter_eq_some_iff.mp h
  rw [isSupersededBy, Bool.not_eq_true', Bool.or_eq_false_iff] at hl
  exact ⟨hc, hl.1⟩

/-- The end of an entry has been sent to the flow log. -/
def TCPConnTrack.ended (c : TCPConnTrack) : Bool := c.tombstone || decide (c.state = .timeWait)

/-- The tracked connection is an old one, or a new one of a new flow. -/
theorem tracked_cases (h : t.tracked key flags direction origPort now = some (k, c)) :
    (t.connections k = some c ∧ c.tombstone = false ∧
        (t.track key flags direction origPort now).created = t.created) ∨
      (has flags tcpSyn ∧ key = k) ∧ (∃ d p now, c = t.fresh d p now) ∧
        (∀ c₀, t.connections k = some c₀ → c₀.ended) ∧
        (t.track key flags direction origPort now).created = t.created + 1 := by
  rw [tracked] at h
  rw [track, updateIfExists]
  cases hc : t.current key flags with
  | some c₀ =>
    rw [hc] at h
    cases h
    exact .inl ⟨(current_eq_some hc).1, (current_eq_some hc).2, rfl⟩
  | none =>
    rw [hc] at h
    by_cases hs : has flags tcpSyn
    · simp only [hs, if_true] at h ⊢
      cases h
      refine .inr ⟨⟨trivial, rfl⟩, ⟨_, _, _, rfl⟩, fun c₀ h₀ => ?_, trivial⟩
      grind [current, isSupersededBy, ended]
    · simp [hs] at h

/-- The entry that a step handles is in the table, or the step opens it, in the place of
    none or of one that has ended. -/
theorem handled_cases (h : t.handled s = some (k, c)) :
    (t.connections k = some c ∧ c.tombstone = false ∧ (t.step s).created = t.created) ∨
      s.Opens k ∧ (∃ d p now, c = t.fresh d p now) ∧
        (∀ c₀, t.connections k = some c₀ → c₀.ended) ∧ (t.step s).created = t.created + 1 := by
  cases s with
  | cleanup now => cases h
  | inbound p dnatOrigPort now => exact tracked_cases h
  | outbound p now =>
    rw [handled] at h
    rw [step, trackOutbound, updateIfExists]
    cases hc : t.current p.key.reverse p.flags with
    | some c₀ =>
      rw [hc] at h
      cases h
      exact .inl ⟨(current_eq_some hc).1, (current_eq_some hc).2, rfl⟩
    | none =>
      rw [hc] at h
      exact tracked_cases h
  | valid p now =>
    grind [handled, current_eq_some, step, isValidInbound, put]

/-- **Where an entry comes from**: it was there, the same connection and a tombstone
    if it was one, or the step opened it. -/
theorem step_entry (h : (t.step s).connections k = some c') :
    (∃ c, t.connections k = some c ∧ c.flowId = c'.flowId ∧ c.direction = c'.direction ∧
      (c'.tombstone = false → c.tombstone = false)) ∨
    s.Opens k ∧ ∃ c, t.handled s = some (k, c) ∧ c.direction = c'.direction := by
  rcases step_eq t s with ⟨now, rfl⟩ | hs
  · exact .inl ⟨c', (Option.filter_eq_some_iff.mp h).1, rfl, rfl, id⟩
  rw [hs, handle] at h
  cases hh : t.handled s with
  | none =>
    rw [hh] at h
    exact .inl ⟨c', h, rfl, rfl, id⟩
  | some e =>
    obtain ⟨k₀, c⟩ := e
    rw [hh] at h
    grind [handled_cases, updateState_kept]

end

/-! ## Accepted packets belong to open connections -/

/-- The table has the entry of the connection, and it is no tombstone. -/
def HasLive (t : Tracker) (k : ConnKey) (flowId : Nat) : Prop :=
  ∃ c, t.connections k = some c ∧ c.flowId = flowId ∧ c.tombstone = false

/-- A packet with SYN was tracked under `k`, and ever since the table has had the entry
    that there was then. -/
def Opened (uuid : Nat → Nat) (timeout : Int) (steps : List Step) (k : ConnKey) : Prop :=
  ∃ pre s post flowId, steps = pre ++ s :: post ∧ s.Opens k ∧
    ∀ mid, mid <+: post → HasLive (after uuid timeout (pre ++ s :: mid)) k flowId

section

variable {uuid : Nat → Nat} {timeout : Int} {steps : List Step} {k : ConnKey} {c : TCPConnTrack}
  {t : Tracker}

/-- Every entry has been opened. -/
theorem exists_opening (hc : (after uuid timeout steps).connections k = some c)
    (hl : c.tombstone = false) : ∃ pre s post, steps = pre ++ s :: post ∧ s.Opens k ∧
      ∀ mid, mid <+: post → HasLive (after uuid timeout (pre ++ s :: mid)) k c.flowId := by
  induction steps using List.reverseRecOn generalizing c with
  | nil =>
    rw [after, newTCPTracker] at hc
    split at hc <;> cases hc
  | append_singleton steps x ih =>
    have hs := hc
    rw [after_concat] at hs
    rcases step_entry hs with ⟨c₀, hc₀, hi, -, hl₀⟩ | ⟨ho, -⟩
    · obtain ⟨pre, s, post, rfl, ho, hsi⟩ := ih hc₀ (hl₀ hl)
      refine ⟨pre, s, post ++ [x], by simp, ho, ?_⟩
      -- nothing has happened to the entry until now, and it is still there
      intro mid hm
      rcases prefix_concat_iff.mp hm with rfl | hm
      · refine ⟨c, ?_, rfl, hl⟩
        simpa using hc
      · rw [← hi]
        exact hsi mid hm
    · refine ⟨steps, x, [], rfl, ho, ?_⟩
      intro mid hm
      rw [prefix_nil.mp hm]
      exact ⟨c, hc, rfl, hl⟩

/-- An accepted packet has a live connection. -/
theorem current_of_accepted (h : (t.isValidInbound p now).2) :
    ∃ c, t.connections p.key.reverse = some c ∧ c.tombstone = false := by
  grind [isValidInbound, current_eq_some]

/-! ## After an RST -/

/-- Nothing under the key, or a tombstone. -/
def Dead (t : Tracker) (k : ConnKey) : Prop := ∀ c, t.connections k = some c → c.tombstone

/-- A dead connection stays dead until a call opens it. -/
theorem dead_step (h : Dead t k) (ho : ¬ s.Opens k) : Dead (t.step s) k := by
  grind [step_entry, Dead]

/-- A tombstone stays until the connection is opened again. -/
theorem dead_run (post : List Step) (h : Dead t k) (ho : ∀ s ∈ post, ¬ s.Opens k) :
    Dead (post.foldl step t) k :=
  foldl_invariant (P := fun t => Dead t k) post t (fun _ s hs hd => dead_step hd (ho s hs)) h

/-- A dead connection accepts nothing. -/
theorem not_accepted_of_dead (h : Dead t p.key.reverse) (now : Int) :
    (t.isValidInbound p now).2 = false := by
  by_contra haccepted
  obtain ⟨c, hc, hl⟩ := current_of_accepted (eq_true_of_ne_false haccepted)
  rw [h c hc] at hl
  cases hl

/-- Every entry that is no tombstone lets some packet in. -/
theorem exists_accepted (hc : t.connections k = some c) (hl : c.tombstone = false) (now : Int) :
    ∃ flags, (t.isValidInbound ⟨k.reverse, flags⟩ now).2 := by
  -- SYN answers nothing, SYN and ACK answer SYN, ACK everything else
  obtain ⟨flags, hv, hs⟩ : ∃ flags, isValidStateForFlags c.state flags ∧
      (has flags tcpSyn && !has flags tcpAck && decide (c.state = .timeWait)) = false := by
    cases c.state with
    | new => exact ⟨tcpSyn, by decide⟩
    | synSent => exact ⟨tcpSyn ||| tcpAck, by decide⟩
    | synReceived => exact ⟨tcpAck, by decide⟩
    | established => exact ⟨tcpAck, by decide⟩
    | finWait1 => exact ⟨tcpAck, by decide⟩
    | finWait2 | closing | timeWait | closeWait | lastAck | closed => exact ⟨tcpAck, by decide⟩
  have hcu : t.current k flags = some c := by
    refine Option.filter_eq_some_iff.mpr ⟨hc, ?_⟩
    rw [isSupersededBy, hl, hs]
    rfl
  refine ⟨flags, ?_⟩
  simp only [isValidInbound, ConnKey.reverse_reverse, hcu, hv, if_true]

/-- No packet of the connection is tracked with SYN, in either direction. -/
def NoSyn (k : ConnKey) (steps : List Step) : Prop :=
  ∀ s ∈ steps, ¬ s.Opens k ∧ ¬ s.Opens k.reverse

/-- A packet of the connection, in either direction. -/
def Packet.Of (p : Packet) (k : ConnKey) : Prop := p.key = k ∨ p.key = k.reverse

/-- The connection stays closed: nothing is let in until it is opened again. -/
def StaysClosed (t : Tracker) (k : ConnKey) : Prop :=
  ∀ post, NoSyn k post → ∀ p now, p.Of k →
    ((post.foldl Tracker.step t).isValidInbound p now).2 = false

/-- Staying closed, from both ends. -/
theorem staysClosed_iff : StaysClosed t k ↔ Dead t k ∧ Dead t k.reverse := by
  constructor
  · intro h
    have hd : ∀ k', k'.reverse = k ∨ k' = k → Dead t k' := by
      intro k' hk' c hc
      by_contra htombstone
      obtain ⟨flags, hf⟩ := exists_accepted hc (eq_false_of_ne_true htombstone) 0
      have hn := h [] (fun s hs => absurd hs not_mem_nil) ⟨k'.reverse, flags⟩ 0 ?_
      · rw [foldl_nil, hf] at hn
        cases hn
      · rcases hk' with hk' | rfl
        · exact .inl hk'
        · exact .inr rfl
    exact ⟨hd k (.inr rfl), hd k.reverse (.inl rfl)⟩
  · rintro ⟨hk, hr⟩ post hpo p now hp
    refine not_accepted_of_dead ?_ now
    rcases hp with hp | hp
    · rw [hp]
      exact dead_run post hr fun s hs => (hpo s hs).2
    · rw [hp]
      exact dead_run post hk fun s hs => (hpo s hs).1

/-- An RST makes the entry that it reaches a tombstone, and leaves the others alone. -/
theorem step_of_rst (hr : has s.packet.1 tcpRst) (hh : t.handled s = some (k, c)) :
    Dead (t.step s) k ∧ ∀ k', k' ≠ k → (t.step s).connections k' = t.connections k' := by
  rcases step_eq t s with ⟨now, rfl⟩ | hs
  · cases hh
  rw [handle, hh] at hs
  dsimp only at hs
  constructor
  · intro c' hc'
    rw [hs, update_self] at hc'
    cases hc'
    rw [updateState, if_pos hr]
  · intro k' hk'
    rw [hs, update_of_ne hk']

end

/-- **What the tracker lets in.**  After every run an inbound packet is let in only if a packet with
    SYN opened its connection and the entry has been there, and no tombstone, ever since.  When an
    RST is processed, no packet of its connection is let in until the connection is opened again
    exactly if the other direction has no entry of its own that is alive. -/
theorem accepted_only_while_open (uuid : Nat → Nat) (timeout : Int) (steps : List Step) :
    (∀ p now, ((after uuid timeout steps).isValidInbound p now).2 →
      Opened uuid timeout steps p.key.reverse) ∧
    ∀ s k c, has s.packet.1 tcpRst → (after uuid timeout steps).handled s = some (k, c) →
      (StaysClosed (after uuid timeout (steps ++ [s])) k ↔
        k.reverse = k ∨ Dead (after uuid timeout steps) k.reverse) := by
  refine ⟨fun p now h => ?_, fun s k c hr hh => ?_⟩
  · obtain ⟨c, hc, hl⟩ := current_of_accepted h
    obtain ⟨pre, s, post, hs, ho, hsi⟩ := exists_opening hc hl
    exact ⟨pre, s, post, c.flowId, hs, ho, hsi⟩
  · rw [after_concat]
    grind [step_of_rst, staysClosed_iff, Dead]

/-- From port 40000 of this host to port 40000 of the other. -/
def there : ConnKey := ⟨.v4 0x64400001, .v4 0x64400002, 40000, 40000⟩

/-- Both hosts open the connection at the same time, and the rules accept the other side's SYN. -/
def bothOpen : List Step :=
  [.outbound ⟨there, tcpSyn⟩ 0, .inbound ⟨there.reverse, tcpSyn⟩ 0 1]

/-- This host resets the connection: only the entry of the other direction goes, and
    the answer to the first SYN is let in after the RST. -/
theorem answer_accepted_after_rst :
    let reset : Step := .outbound ⟨there, tcpRst⟩ 2
    ((after id 0 bothOpen).handled reset).map Prod.fst = some there.reverse ∧
      ((after id 0 (bothOpen ++ [reset])).isValidInbound ⟨there.reverse, tcpSyn ||| tcpAck⟩ 3).2 =
        true := by
  decide

/-! ## A SYN from outside -/

/-- SYN without ACK. -/
def isSyn (flags : UInt8) : Bool := has flags tcpSyn && !has flags tcpAck

/-- An outbound packet with SYN and ACK belongs to an entry. -/
def Answers (t : Tracker) : Step → Prop
  | .outbound p now => isSyn p.flags ∨
      ∀ e ∈ t.handled (.outbound p now), t.connections e.1 = some e.2
  | _ => True

/-- All steps of the run do so. -/
def Answering : Tracker → List Step → Prop
  | _, [] => True
  | t, s :: steps => Answers t s ∧ Answering (t.step s) steps

section

variable {t : Tracker} {k : ConnKey} {c : TCPConnTrack}

/-- An entry of outbound direction was there, or an outbound SYN opens it. -/
theorem egress_step (ha : Answers t s) (hc : (t.step s).connections k = some c)
    (hd : c.direction = .egress) : (∃ c₀, t.connections k = some c₀ ∧ c₀.direction = .egress) ∨
      ∃ p now, s = .outbound p now ∧ p.key = k ∧ isSyn p.flags := by
  rcases step_entry hc with ⟨c₀, hc₀, -, hi, -⟩ | ⟨ho, c₀, hh, hi⟩
  · exact .inl ⟨c₀, hc₀, hi.trans hd⟩
  cases s with
  | outbound p now =>
    rcases ha with hs | ha
    · exact .inr ⟨p, now, rfl, ho.2, hs⟩
    · exact .inl ⟨c₀, ha _ hh, hi.trans hd⟩
  | inbound p dnatOrigPort now =>
    grind [handled, tracked, current_eq_some, fresh]
  | valid p now | cleanup now => exact ho.elim

/-- … and along a run. -/
theorem egress_run : ∀ (steps : List Step) (t : Tracker), Answering t steps →
    (steps.foldl step t).connections k = some c → c.direction = .egress →
    (∃ c₀, t.connections k = some c₀ ∧ c₀.direction = .egress) ∨
      ∃ p now, .outbound p now ∈ steps ∧ p.key = k ∧ isSyn p.flags := by
  intro steps
  induction steps with
  | nil => exact fun t _ hc hd => .inl ⟨c, hc, hd⟩
  | cons s steps ih =>
    intro t ha hc hd
    rcases ih (t.step s) ha.2 hc hd with ⟨c₀, hc₀, hd₀⟩ | ⟨p, now, hm, hp⟩
    · rcases egress_step ha.1 hc₀ hd₀ with h | ⟨p, now, rfl, hp⟩
      · exact .inl h
      · exact .inr ⟨p, now, mem_cons_self, hp⟩
    · exact .inr ⟨p, now, mem_cons_of_mem _ hm, hp⟩

end

/-- **A packet is let in only after a SYN was sent** on its connection, a SYN among them, if the
    entry is not one of an inbound packet and no packet with SYN and ACK has opened one. -/
theorem syn_accepted_only_after_syn (uuid : Nat → Nat) (timeout : Int) (steps : List Step)
    (p : Packet) (now : Int) (ho : Answering (newTCPTracker uuid timeout) steps)
    (he : ∀ c ∈ (after uuid timeout steps).connections p.key.reverse, c.direction = .egress)
    (h : ((after uuid timeout steps).isValidInbound p now).2) :
    ∃ q time, .outbound q time ∈ steps ∧ q.key = p.key.reverse ∧ isSyn q.flags := by
  obtain ⟨c, hc, -⟩ := current_of_accepted h
  refine (egress_run steps _ ho hc (he c hc)).resolve_left ?_
  rintro ⟨c₀, hc₀, -⟩
  rw [newTCPTracker] at hc₀
  split at hc₀ <;> cases hc₀

/-- This host has opened the connection. -/
theorem syn_accepted_when_established :
    ∃ q time, .outbound q time ∈ [Step.outbound ⟨there, tcpSyn⟩ 0,
      .valid ⟨there.reverse, tcpSyn ||| tcpAck⟩ 1] ∧ q.key = there ∧ isSyn q.flags :=
  syn_accepted_only_after_syn id 0 _ ⟨there.reverse, tcpSyn⟩ 2 ⟨.inl (by decide), trivial, trivial⟩
    (by decide) (by decide)

/-- An answer to nothing lets a SYN in. -/
theorem syn_accepted_after_synAck :
    isSyn (tcpSyn ||| tcpAck) = false ∧
      ((after id 0 [.outbound ⟨there, tcpSyn ||| tcpAck⟩ 0]).isValidInbound
        ⟨there.reverse, tcpSyn⟩ 1).2 = true := by
  decide

/-! ## Events for the flow log -/

/-- The two events of a flow. -/
inductive EventType where
  | typeStart
  | typeEnd
deriving DecidableEq

/-- `updateState` sends an end event. -/
def sendsEnd (c : TCPConnTrack) (flags : UInt8) (packetDir : Direction) : Bool :=
  has flags tcpRst ||
    decide (newState c flags packetDir = .timeWait ∨ newState c flags packetDir = .closed)

section

variable (t : Tracker) (s : Step) (k : ConnKey) (id : Nat)

/-- The events of a packet for the flow `id` that is filed under `k`.  A new flow is started
    after its state has been updated. -/
def Tracker.packetEvents : List EventType :=
  match t.handled s with
  | some (k', c) =>
    if k' = k ∧ c.flowId = id then
      (if sendsEnd c s.packet.1 s.packet.2.1 then [.typeEnd] else []) ++
        (if t.created < (t.step s).created then [.typeStart] else [])
    else []
  | none => []

/-- The events a call sends for the connection `k` of flow `id`. -/
def Tracker.events : List EventType :=
  match s with
  | .cleanup now =>
    match t.connections k with
    | some c =>
      if c.flowId = id ∧ !c.tombstone ∧ t.timeoutOf c < now - c.lastSeen ∧ c.state ≠ .timeWait then
        [.typeEnd]
      else []
    | none => []
  | _ => t.packetEvents s k id

end

/-- The events sent so far, per connection and flow. -/
abbrev Log := ConnKey → Nat → List EventType

/-- A call with the events it sends. -/
def logStep (x : Tracker × Log) (s : Step) : Option (Tracker × Log) :=
  some (x.1.step s, fun k id => x.2 k id ++ x.1.events s k id)

/-- A reset reaches an entry that is there and not in TIME-WAIT. -/
def ResetsOpen (x : Tracker × Log) (s : Step) : Prop :=
  has s.packet.1 tcpRst → ∀ e ∈ x.1.handled s,
    x.1.connections e.1 = some e.2 ∧ e.2.state ≠ .timeWait

/-- What has been sent for the entries that are there, and for all others. -/
structure Logged (x : Tracker × Log) : Prop where
  distinct : Function.Injective x.1.uuid
  ids : ∀ k c, x.1.connections k = some c → ∃ n < x.1.created, c.flowId = x.1.uuid n
  later : ∀ k n, x.1.created ≤ n → x.2 k (x.1.uuid n) = []
  entry : ∀ k c, x.1.connections k = some c →
    x.2 k c.flowId = if c.ended then [.typeStart, .typeEnd] else [.typeStart]
  gone : ∀ k id, (∀ c, x.1.connections k = some c → c.flowId ≠ id) →
    x.2 k id = [] ∨ x.2 k id = [.typeStart, .typeEnd]
  once : ∀ k k' id, x.2 k id ≠ [] → x.2 k' id ≠ [] → k = k'
  started : ∀ n < x.1.created, ∃ k, x.2 k (x.1.uuid n) ≠ []

/-- What a step does to the entry under a key, and what it sends: nothing, or it keeps or removes
    the entry and sends its end if it had not ended before, or it makes one and starts it. -/
def Effect (drawn : Nat) (made : Prop) (o o' : Option TCPConnTrack)
    (events : Nat → List EventType) : Prop :=
  o = none ∧ o' = none ∧ (∀ id, events id = []) ∨
  (∃ c, o = some c ∧ (∀ c', o' = some c' → c'.flowId = c.flowId ∧ (c.ended → c'.ended)) ∧
    ∀ id, events id =
      if id = c.flowId ∧ !c.ended ∧ o'.all TCPConnTrack.ended then [.typeEnd] else []) ∨
  made ∧ ∃ c, o' = some c ∧ c.flowId = drawn ∧ c.ended = false ∧
    (∀ c, o = some c → c.ended) ∧ ∀ id, events id = if id = drawn then [.typeStart] else []

/-- The step makes an entry under the key. -/
def Makes (t : Tracker) (s : Step) (k : ConnKey) : Prop :=
  (t.step s).created = t.created + 1 ∧ ∃ c, t.handled s = some (k, c)

section

variable {t : Tracker} {s : Step} {k : ConnKey} {c : TCPConnTrack} {flags : UInt8}
  {direction : Direction} {now : Int}

/-- A call leaves the IDs to be drawn as they are. -/
theorem uuid_step (t : Tracker) (s : Step) : (t.step s).uuid = t.uuid := by
  cases s <;> grind [step, trackOutbound, trackInbound, track, updateIfExists, isValidInbound,
    cleanup, put]

/-- A call creates at most one flow. -/
theorem created_cases (t : Tracker) (s : Step) :
    (t.step s).created = t.created ∨ (t.step s).created = t.created + 1 ∧
      ∃ k c, (t.step s).connections k = some c ∧ c.flowId = t.uuid t.created := by
  cases hh : t.handled s with
  | none =>
    left
    cases s <;> grind [handled, tracked, step, trackOutbound,
      trackInbound, track, updateIfExists, isValidInbound, cleanup]
  | some e =>
    rcases handled_cases hh with ⟨-, -, h⟩ | ⟨-, ⟨d, p, now, hf⟩, -, h⟩
    · exact .inl h
    · have hn : ¬ ∃ now, s = .cleanup now := by
        rintro ⟨now, rfl⟩
        cases hh
      refine .inr ⟨h, e.1, ?_⟩
      rw [(step_eq t s).resolve_left hn, handle, hh]
      exact ⟨_, update_self .., (updateState_kept _ _).1.trans (congrArg flowId hf)⟩

/-- A connection ends when its end is sent. -/
theorem ended_updateState (hl : c.tombstone = false) (hs : c.state ≠ .timeWait) :
    (updateState c flags direction now).ended = sendsEnd c flags direction := by
  rw [updateState, sendsEnd]
  grind [ended, newState]

/-- No change sends no event. -/
theorem Effect.refl (drawn : Nat) (made : Prop) (o : Option TCPConnTrack) :
    Effect drawn made o o (fun _ => []) := by
  cases o with
  | none => exact .inl ⟨rfl, rfl, fun _ => rfl⟩
  | some c => exact .inr (.inl ⟨c, rfl, by grind⟩)

/-- **What a step does to the entry under a key.** -/
theorem effect_step (h : ∀ k c, t.connections k = some c → c.flowId ≠ t.uuid t.created)
    (hr : ResetsOpen (t, log) s) (k : ConnKey) :
    Effect (t.uuid t.created) (Makes t s k) (t.connections k) ((t.step s).connections k)
      (t.events s k) := by
  by_cases hn : ∃ now, s = .cleanup now
  · obtain ⟨now, rfl⟩ := hn
    rw [show (t.step (.cleanup now)).connections k = (t.connections k).filter (fun c =>
      !c.tombstone && !decide (t.timeoutOf c < now - c.lastSeen)) from rfl]
    unfold events
    cases t.connections k with
    | none => exact .inl ⟨rfl, rfl, fun _ => rfl⟩
    | some c => exact .inr (.inl ⟨c, rfl, by grind [ended]⟩)
  have he : t.events s k = t.packetEvents s k := by
    cases s with
    | cleanup now => exact absurd ⟨now, rfl⟩ hn
    | _ => rfl
  rw [he, (step_eq t s).resolve_left hn, handle]
  unfold packetEvents
  cases hh : t.handled s with
  | none => exact Effect.refl _ _ _
  | some e =>
    obtain ⟨k₀, c⟩ := e
    have hro : has s.packet.1 tcpRst → t.connections k₀ = some c ∧ c.state ≠ .timeWait :=
      fun hp => hr hp _ hh
    by_cases hk : k₀ = k
    · subst hk
      dsimp only
      rw [update_self]
      have hkept := @updateState_kept c s.packet.1 s.packet.2.1 s.packet.2.2
      rcases handled_cases hh with ⟨hc, hl, hcr⟩ | ⟨-, ⟨d, p, now, rfl⟩, hold, hcr⟩
      · rw [hc]
        refine .inr (.inl ⟨c, rfl, ?_⟩)
        by_cases hst : c.state = .timeWait
        · grind [updateState, newState, sendsEnd, ended]
        · have hu := @ended_updateState c s.packet.1 s.packet.2.1 s.packet.2.2 hl hst
          have hne : c.ended = false := by simp [ended, hl, hst]
          grind
      · -- a reset reaches an entry that is there, and the ID of the new one is new
        have hnr : ¬ has s.packet.1 tcpRst := fun hp => h k₀ _ (hro hp).1 rfl
        have hno : sendsEnd (t.fresh d p now) s.packet.1 s.packet.2.1 = false := by
          grind [sendsEnd, newState, fresh]
        refine .inr (.inr ⟨⟨hcr, _, hh⟩, _, rfl, hkept.1, ?_, hold, fun id => ?_⟩)
        · rw [ended_updateState rfl (by simp [fresh]), hno]
        · have hfl : (t.fresh d p now).flowId = t.uuid t.created := rfl
          simp [hfl, hno, hcr, eq_comm]
    · simp only [hk, false_and, if_false, update_of_ne (Ne.symm hk)]
      exact Effect.refl _ _ _

/-- A call keeps the log in step with the connections. -/
theorem logged_step (h : Logged x) (hr : ResetsOpen x s) (hs : logStep x s = some x') :
    Logged x' := by
  obtain ⟨t, log⟩ := x
  cases hs
  have hnew : ∀ k c, t.connections k = some c → c.flowId ≠ t.uuid t.created := by
    intro k c hc hi
    obtain ⟨n, hn, hnid⟩ := h.ids k c hc
    exact Nat.ne_of_lt hn (h.distinct (hnid.symm.trans hi))
  have he := effect_step hnew hr
  have hcr := created_cases t s
  have hu := uuid_step t s
  have hle : t.created ≤ (t.step s).created := by omega
  obtain ⟨hin, hid, hla, hen, hgo, hon, hst⟩ := h
  dsimp only [Effect, Makes] at hin hid hla hen hgo hon hst he
  refine ⟨by rw [hu]; exact hin, fun k c hc => ?_, fun k n hi => ?_, fun k c hc => ?_,
    fun k id hn => ?_, fun k k' id hk hk' => ?_, fun n hi => ?_⟩ <;> dsimp only at *
  · -- an entry is an old one of its flow, or the one of the new flow
    rcases he k with ⟨-, hno, -⟩ | ⟨c₀, hc₀, hk, -⟩ | ⟨⟨hm, -⟩, c₀, hc₀, hfl, -⟩
    · cases hno.symm.trans hc
    · obtain ⟨n, hn, hnid⟩ := hid k c₀ hc₀
      exact ⟨n, Nat.lt_of_lt_of_le hn hle, by rw [hu, (hk c hc).1, hnid]⟩
    · cases hc₀.symm.trans hc
      exact ⟨t.created, by omega, by rw [hu, hfl]⟩
  · -- the IDs that are still to be drawn are none of the flows that there are
    rw [hu, hla k n (Nat.le_trans hle hi), nil_append]
    rcases he k with ⟨-, -, hev⟩ | ⟨c₀, hc₀, -, hev⟩ | ⟨⟨hm, -⟩, c₀, -, -, -, -, hev⟩
    · exact hev _
    · obtain ⟨m, hm, hmid⟩ := hid k c₀ hc₀
      have hne : t.uuid n ≠ c₀.flowId := fun h => by
        have := hin (h.trans hmid)
        omega
      rw [hev, if_neg fun h => hne h.1]
    · have hne : t.uuid n ≠ t.uuid t.created := fun h => by
        have := hin h
        omega
      rw [hev, if_neg hne]
  · rcases he k with h | h | h <;> grind
  · rcases he k with h | ⟨c, hc, hk, hev⟩ | h
    · grind
    · by_cases hi : id = c.flowId
      · have hno : (t.step s).connections k = none := by
          refine Option.eq_none_iff_forall_ne_some.mpr fun c' hc' => ?_
          exact hn c' hc' ((hk c' hc').1.trans hi.symm)
        grind
      · grind
    · grind
  · rcases he k with h | h | h <;> rcases he k' with h' | h' | h' <;> grind
  · by_cases hlt : n < t.created
    · obtain ⟨k, hk⟩ := hst n hlt
      exact ⟨k, by simp [hu, hk]⟩
    · obtain ⟨hm, k, c, hc, hi⟩ := hcr.resolve_left (by omega)
      refine ⟨k, ?_⟩
      rcases he k with h | h | h <;> grind

end

/-- **The events of a flow** are one start, and at most one end after it, if every reset
    reaches an entry that is there and not in TIME-WAIT.  `uuid.New` is assumed to draw no ID
    twice. -/
theorem flow_events (uuid : Nat → Nat) (hu : Function.Injective uuid) (timeout : Int)
    (steps : List Step) (x : Tracker × Log)
    (hok : AllowedRun logStep ResetsOpen (newTCPTracker uuid timeout, fun _ _ => []) steps)
    (h : run logStep (newTCPTracker uuid timeout, fun _ _ => []) steps = some x) (id : Nat) :
    (∀ k, x.2 k id ∈ [[], [.typeStart], [.typeStart, .typeEnd]]) ∧
      (∀ k k', x.2 k id ≠ [] → x.2 k' id ≠ [] → k = k') ∧
      (∀ n < x.1.created, id = x.1.uuid n → ∃ k, x.2 k id ≠ []) := by
  have hno : (newTCPTracker uuid timeout).connections = (fun _ => none) ∧
      (newTCPTracker uuid timeout).created = 0 ∧ (newTCPTracker uuid timeout).uuid = uuid := by
    rw [newTCPTracker]
    split <;> exact ⟨rfl, rfl, rfl⟩
  have hx := run_invariant (fun _ _ _ => logged_step) steps _ x
    ⟨show Function.Injective (newTCPTracker uuid timeout).uuid by rw [hno.2.2]; exact hu, by grind,
    fun _ _ _ => rfl, by grind, fun _ _ _ => .inl rfl, fun _ _ _ h => absurd rfl h, by grind⟩ hok h
  refine ⟨fun k => ?_, fun k k' => hx.once k k' id, fun n hn hid => hid ▸ hx.started n hn⟩
  by_cases hc : ∃ c, x.1.connections k = some c ∧ c.flowId = id
  · obtain ⟨c, hc, rfl⟩ := hc
    rw [hx.entry k c hc]
    split <;> simp
  · rcases hx.gone k id fun c hc' hi => hc ⟨c, hc', hi⟩ with h | h <;> simp [h]

/-- This host opens a connection, the other answers, and resets it later. -/
def openedAndReset : List Step :=
  [.outbound ⟨there, tcpSyn⟩ 0, .valid ⟨there.reverse, tcpSyn ||| tcpAck⟩ 1,
    .outbound ⟨there, tcpAck⟩ 2, .valid ⟨there.reverse, tcpRst⟩ 3]

/-- The reset reaches the entry of the established connection: one start and one end. -/
theorem openedAndReset_events :
    ∃ x, run logStep (newTCPTracker id 0, fun _ _ => []) openedAndReset = some x ∧
      x.2 there 0 = [.typeStart, .typeEnd] ∧
      x.2 there 0 ∈ [[], [.typeStart], [.typeStart, .typeEnd]] := by
  refine ⟨_, rfl, by decide,
    (flow_events id Function.injective_id 0 openedAndReset _ ?_ rfl 0).1 there⟩
  refine ⟨fun h => absurd h (by decide), ?_⟩
  rintro _ ⟨⟩
  refine ⟨fun h => absurd h (by decide), ?_⟩
  rintro _ ⟨⟩
  refine ⟨fun h => absurd h (by decide), ?_⟩
  rintro _ ⟨⟩
  refine ⟨fun _ => ?_, fun _ _ => trivial⟩
  rintro _ ⟨⟩
  exact ⟨rfl, by decide⟩

/-- A reset that opens a connection ends it before it starts. -/
theorem reset_ends_wrongly :
    (run logStep (newTCPTracker id 0, fun _ _ => [])
      [.outbound ⟨there, tcpSyn ||| tcpRst⟩ 0]).map (·.2 there 0) =
        some [.typeEnd, .typeStart] := by
  decide

end TcpTracker

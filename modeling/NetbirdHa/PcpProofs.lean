import Mathlib.Algebra.Group.Int.Defs
import NetbirdHa.TransitionProofs

/-! # The client of the port control protocol

The client takes a new nonce for every request and watches the server's epoch, which
counts seconds in 32 bits, for a restart of the server. -/

namespace Pcp

open Transition Function BitVec

/-! ## Epochs -/

/-- The fields of `Client` that a response changes; times are in nanoseconds, `none` is
    the zero time. -/
structure Client where
  lastEpoch : BitVec 32 := 0
  epochTime : Option Nat := none
  epochStateLost : Bool := false

/-- `time.Second`, in nanoseconds. -/
def second : Nat := 1000000000

/-- `updateEpochLocked`: has the router lost its mappings since its last answer? -/
def updateEpochLocked (c : Client) (now : Nat) (newEpoch : BitVec 32) : Client × Bool :=
  let stateLost := match c.epochTime with
    | none => false
    | some epochTime =>
      if 0 < c.lastEpoch then
        let clientDelta := BitVec.ofNat 32 ((now - epochTime) / second)
        let serverDelta := newEpoch - c.lastEpoch
        clientDelta + 2 < serverDelta - serverDelta / 16 ||
          serverDelta + 2 < clientDelta - clientDelta / 16
      else false
  (⟨newEpoch, some now, c.epochStateLost || stateLost⟩, stateLost)

/-- Section 8.5 of RFC 6887, over integers. -/
def StateLost (prev new client : Int) : Prop :=
  new - prev < -1 ∨ client + 2 < new - prev - (new - prev) / 16 ∨
    new - prev + 2 < client - client / 16
deriving Decidable

/-- Where the test goes wrong: nothing is reported after the epoch 0; one second back is reported
    even at once; an epoch that went back further passes if the elapsed time fits a counter that
    came round; and at the top of the range, where the sums with two wrap,
    loss is always reported. -/
def Misjudged (prev new client : Nat) : Prop :=
  prev = 0 ∧ StateLost prev new client ∨
    0 < prev ∧ (new + 1 = prev ∧ client < 2 ∨
      new + 2 < prev ∧ client + 2 < 2 ^ 32 ∧ ¬ StateLost prev (new + 2 ^ 32) client ∨
      prev ≤ new ∧ (2 ^ 32 ≤ client + 2 ∨ 2 ^ 32 ≤ new - prev + 2) ∧ ¬ StateLost prev new client)
deriving Decidable

/-- **State loss** is reported exactly where the RFC sees one, but for the cases above.  A longer
    time than `2 ^ 32` seconds has no defined conversion. -/
theorem updateEpochLocked_iff (c : Client) (epochTime now : Nat) (newEpoch : BitVec 32)
    (ht : c.epochTime = some epochTime) (helapsed : (now - epochTime) / second < 2 ^ 32) :
    ((updateEpochLocked c now newEpoch).2 = true ↔
        StateLost c.lastEpoch.toNat newEpoch.toNat ((now - epochTime) / second : Nat)) ↔
      ¬ Misjudged c.lastEpoch.toNat newEpoch.toNat ((now - epochTime) / second) := by
  have hp := c.lastEpoch.isLt
  have hn := newEpoch.isLt
  simp only [updateEpochLocked, ht, lt_def, ofNat_eq_ofNat, toNat_ofNat, toNat_add,
    toNat_sub, toNat_udiv, StateLost, Misjudged]
  generalize (now - epochTime) / second = client at *
  generalize c.lastEpoch.toNat = prev at *
  generalize newEpoch.toNat = new at *
  have hsub : ∀ x < 2 ^ 32, (2 ^ 32 - x / (16 % 2 ^ 32) + x) % 2 ^ 32 = x - x / 16 := by
    intro x hx
    rw [Nat.mod_eq_of_lt (show 16 < 2 ^ 32 by decide)]
    omega
  by_cases hs : prev = 0
  · subst hs
    simp
  rw [Nat.zero_mod, if_pos (Nat.pos_of_ne_zero hs), Bool.or_eq_true, decide_eq_true_eq,
    decide_eq_true_eq, Nat.mod_eq_of_lt helapsed, hsub client helapsed,
    hsub _ (Nat.mod_lt _ (by decide))]
  -- how far the server went, modulo 2³²
  rcases Nat.lt_trichotomy (new + 1) prev with hl | he | hg
  · rw [show (2 ^ 32 - prev + new) % 2 ^ 32 = new + 2 ^ 32 - prev by omega]
    have hlost : (new : Int) - prev < -1 := by omega
    simp only [hlost, true_or, iff_true]
    omega
  · rw [show (2 ^ 32 - prev + new) % 2 ^ 32 = 2 ^ 32 - 1 by omega]
    omega
  · rw [show (2 ^ 32 - prev + new) % 2 ^ 32 = new - prev by omega]
    by_cases ht : 2 ^ 32 ≤ client + 2 ∨ 2 ^ 32 ≤ new - prev + 2
    · omega
    · rw [Nat.mod_eq_of_lt (by omega), Nat.mod_eq_of_lt (by omega)]
      omega

/-- A restart after ten seconds is seen. -/
theorem restart_seen : (updateEpochLocked ⟨5000, some 0, false⟩ (10 * second) 3).2 = true ↔
    StateLost 5000 3 10 :=
  (updateEpochLocked_iff ⟨5000, some 0, false⟩ 0 (10 * second) 3 rfl (by decide)).mpr (by decide)

/-- One second back at once is no state loss but reported; after the epoch 0 nothing is reported. -/
theorem loss_misjudged :
    ((updateEpochLocked ⟨5, some 0, false⟩ 0 4).2 = true ∧ ¬ StateLost 5 4 0) ∧
      (updateEpochLocked ⟨0, some 0, false⟩ 0 1000).2 = false ∧ StateLost 0 1000 0 := by
  decide

/-! ## Mappings -/

/-- `protocolNumber`. -/
def protocolNumber : String → Option (BitVec 8)
  | "udp" | "UDP" => some 17
  | "tcp" | "TCP" => some 6
  | _ => none

/-- The fields of a MAP request the router acts on. -/
structure MapRequest where
  nonce : BitVec 96
  protocol : BitVec 8
  internalPort : BitVec 16
  lifetime : BitVec 32

/-- The fields of its answer. -/
structure MapResponse where
  resultCode : BitVec 8
  epoch : BitVec 32
  nonce : BitVec 96
  protocol : BitVec 8
  internalPort : BitVec 16

/-- The nonces of the client's mappings. -/
abbrev Table := BitVec 8 × BitVec 16 → Option (BitVec 96)

/-- What a call meets: the random nonce, whether the server gets the request and the client
    the response, a code with which the server refuses for reasons of its own, and the
    epoch and the time of the response. -/
structure Meets where
  nonce : BitVec 96
  asked : Bool := true
  answered : Bool := true
  refusal : BitVec 8 := 0
  epoch : BitVec 32 := 0
  now : Nat := 0

/-- A server that follows RFC 6887. -/
def serve (table : Table) (m : Meets) (r : MapRequest) : Table × MapResponse :=
  let key := (r.protocol, r.internalPort)
  let answer code := ⟨code, m.epoch, r.nonce, r.protocol, r.internalPort⟩
  if table key ≠ none ∧ table key ≠ some r.nonce then (table, answer 2)
  else if m.refusal ≠ 0 then (table, answer m.refusal)
  else (update table key (if r.lifetime = 0 then none else some r.nonce), answer 0)

/-- How a call fails. -/
inductive Error where
  | protocol
  | send
  | nonceMismatch
  | protocolMismatch
  | portMismatch
  | code (c : BitVec 8)
deriving DecidableEq

/-- The router's mappings, and what the client remembers. -/
structure State where
  table : Table := fun _ => none
  client : Client := {}

/-- One exchange: the router may not be reached, and its answer may be lost. -/
def sendRequest (table : Table) (m : Meets) (r : MapRequest) : Table × Option MapResponse :=
  if m.asked then
    ((serve table m r).1, if m.answered then some (serve table m r).2 else none)
  else (table, none)

/-- Lifetimes are durations in nanoseconds. -/
def lifetimeSec (lifetime : Int) : BitVec 32 :=
  if 0 < lifetime then
    let sec := BitVec.ofInt 32 (lifetime / second)
    if sec = 0 then 7200 else sec
  else 0

/-- `AddPortMappingWithHint`. -/
def addPortMappingWithHint (s : State) (m : Meets) (protocol : String)
    (internalPort lifetime : Int) : State × Except Error MapResponse :=
  match protocolNumber protocol with
  | none => (s, .error .protocol)
  | some proto =>
    let port := BitVec.ofInt 16 internalPort
    let (table, resp) := sendRequest s.table m ⟨m.nonce, proto, port, lifetimeSec lifetime⟩
    let s := { s with table }
    match resp with
    | none => (s, .error .send)
    | some r =>
      if r.nonce ≠ m.nonce then (s, .error .nonceMismatch)
      else if r.protocol ≠ proto then (s, .error .protocolMismatch)
      else if r.internalPort ≠ port then (s, .error .portMismatch)
      else if r.resultCode ≠ 0 then (s, .error (.code r.resultCode))
      else ({ s with client := (updateEpochLocked s.client m.now r.epoch).1 }, .ok r)

/-- `ResultNotAuthorized` counts as success. -/
def deletePortMapping (s : State) (m : Meets) (protocol : String) (internalPort : Int) :
    State × Except Error Unit :=
  let (s, result) := addPortMappingWithHint s m protocol internalPort 0
  (s, match result with
    | .ok _ => .ok ()
    | .error e => if e = .code 2 then .ok () else .error e)

/-- A call of the client, or a mapping that runs out. -/
inductive Call where
  | add (protocol : String) (internalPort lifetime : Int) (m : Meets)
  | delete (protocol : String) (internalPort : Int) (m : Meets)
  /-- a mapping's lifetime ends. -/
  | expire (key : BitVec 8 × BitVec 16)

/-- The nonce a call draws. -/
def Call.nonce : Call → Option (BitVec 96)
  | .add _ _ _ m | .delete _ _ m => some m.nonce
  | .expire _ => none

/-- What a call leaves behind. -/
def step (s : State) : Call → Option State
  | .add protocol port lifetime m => some (addPortMappingWithHint s m protocol port lifetime).1
  | .delete protocol port m => some (deletePortMapping s m protocol port).1
  | .expire key => some { s with table := update s.table key none }

/-- A server changes the mapping it is asked for, if it may. -/
theorem serve_table (table : Table) (m : Meets) (r : MapRequest) (k : BitVec 8 × BitVec 16) :
    (serve table m r).1 k =
      if k = (r.protocol, r.internalPort) ∧ (table k = none ∨ table k = some r.nonce) ∧
          m.refusal = 0 then if r.lifetime = 0 then none else some r.nonce else table k := by
  unfold serve
  dsimp only
  split <;> [skip; split] <;> grind

theorem sendRequest_table (table : Table) (m : Meets) (r : MapRequest) (k : BitVec 8 × BitVec 16) :
    (sendRequest table m r).1 k = if m.asked then (serve table m r).1 k else table k := by
  unfold sendRequest
  split <;> rfl

section

variable {s : State} {m : Meets} {protocol : String} {port lifetime : Int}

theorem table_addPortMappingWithHint (hp : protocolNumber protocol = some proto) :
    (addPortMappingWithHint s m protocol port lifetime).1.table = (sendRequest s.table m
      ⟨m.nonce, proto, BitVec.ofInt 16 port, lifetimeSec lifetime⟩).1 := by
  simp only [addPortMappingWithHint, hp]
  repeat' split
  all_goals rfl

/-- A request leaves a mapping, removes it or gives it its own nonce. -/
theorem table_cases (key : BitVec 8 × BitVec 16) :
    (addPortMappingWithHint s m protocol port lifetime).1.table key = s.table key ∨
      (addPortMappingWithHint s m protocol port lifetime).1.table key = none ∨
      (addPortMappingWithHint s m protocol port lifetime).1.table key = some m.nonce := by
  cases hp : protocolNumber protocol with
  | none => simp [addPortMappingWithHint, hp]
  | some proto =>
    rw [table_addPortMappingWithHint hp]
    grind [sendRequest_table, serve_table]

end

/-- Every mapping carries the nonce of a call. -/
theorem nonce_of_run (calls : List Call) {s s' : State} (hr : run step s calls = some s')
    (hk : s'.table key = some nonce) :
    s.table key = some nonce ∨ ∃ call ∈ calls, call.nonce = some nonce := by
  induction calls generalizing s with
  | nil =>
    cases hr
    exact .inl hk
  | cons call calls ih =>
    obtain ⟨t, ht, hr⟩ := run_cons_eq_some.mp hr
    rcases ih hr with h | ⟨c, hc, hn⟩
    · have hcall : t.table key = s.table key ∨ t.table key = none ∨ t.table key = call.nonce := by
        cases call with
        | add | delete =>
          cases ht
          exact table_cases key
        | expire k =>
          cases ht
          grind
      grind
    · exact .inr ⟨c, List.mem_cons_of_mem _ hc, hn⟩

/-- **Deletion.**  A deletion that returns without an error has left no mapping only if there
    was none or it happened to carry the mapping's nonce; so with a nonce of its own, as a
    random one is, it has deleted nothing. -/
theorem deleted_iff (calls : List Call) {s : State} (hr : run step {} calls = some s)
    (m : Meets) (protocol : String) (port : Int)
    (hn : (deletePortMapping s m protocol port).2 = .ok ()) :
    ∃ proto, protocolNumber protocol = some proto ∧
      let key := (proto, BitVec.ofInt 16 port)
      let s' := (deletePortMapping s m protocol port).1
      (s'.table key = none ↔ s.table key = none ∨ s.table key = some m.nonce ∧ m.refusal = 0) ∧
        ((∀ call ∈ calls, call.nonce ≠ some m.nonce) → s'.table = s.table) := by
  cases hp : protocolNumber protocol with
  | none => simp [deletePortMapping, addPortMappingWithHint, hp] at hn
  | some proto =>
    refine ⟨proto, rfl, ?_⟩
    have ht : ∀ k, (deletePortMapping s m protocol port).1.table k = _ :=
      congrFun (table_addPortMappingWithHint hp)
    -- the server was asked, and the client heard of it
    have ha : m.asked = true := by
      by_contra ha
      simp [deletePortMapping, addPortMappingWithHint, hp, sendRequest, ha] at hn
    simp only [sendRequest_table, serve_table, ha, lifetimeSec] at ht
    refine ⟨by grind, fun hf => funext fun k => ?_⟩
    have ho : s.table k ≠ some m.nonce := by
      intro ho
      obtain h | ⟨call, hc, h⟩ := nonce_of_run calls hr ho
      · cases h
      · exact hf call hc h
    grind

theorem same_nonce_deleted :
    ∃ s, run step {} [.add "udp" 51820 (7200 * second) { nonce := 1 }] = some s ∧
      (deletePortMapping s { nonce := 1 } "udp" 51820).1.table (17, 51820) = none := by
  refine ⟨_, rfl, ?_⟩
  obtain ⟨proto, hp, hd, -⟩ := deleted_iff
    [.add "udp" 51820 (7200 * second) { nonce := 1 }] rfl { nonce := 1 } "udp" 51820 rfl
  cases hp
  exact hd.mpr (.inr ⟨rfl, rfl⟩)

/-- The deletion is refused for its nonce and returns without an error. -/
theorem deleted_stays :
    ∃ s, run step {} [.add "udp" 51820 (7200 * second) { nonce := 1 }] = some s ∧
      (deletePortMapping s { nonce := 2 } "udp" 51820).2 = .ok () ∧
      (deletePortMapping s { nonce := 2 } "udp" 51820).1.table (17, 51820) = some 1 :=
  ⟨_, rfl, rfl, rfl⟩

end Pcp

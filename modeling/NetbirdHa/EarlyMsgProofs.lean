import NetbirdHa.TransitionProofs
import Mathlib.Data.List.Nodup

/-! # Early messages of the relay client

A transport message that arrives before `OpenConn` waits in a buffer, one message per peer,
until the connection is opened or a timer drops it.  The buffer has a lock of its own; the
client looks for the connection under another one. -/

namespace EarlyMsg

open Transition Function List Option

variable {P M : Type}

/-! ## The buffer -/

/-- How long a message waits for its peer, in nanoseconds. -/
def earlyMsgTTL : Nat := 5000000000

/-- How many messages wait at once. -/
def earlyMsgCapacity : Nat := 1000

/-- An element of the linked list: its address, and the `earlyMsg` in it. -/
structure Elem (P M : Type) where
  addr : Nat
  peerID : P
  msg : M
  createdAt : Nat
deriving DecidableEq

/-- What a timer is at; one that was stopped may have been running already. -/
inductive Timer
  | armed | stopped | fired
deriving DecidableEq

/-- The buffer.  `timers` are those started so far, and `accepted`, `popped` and `freed` the
    elements that `put` stored, that `pop` returned and that were given back to the pool. -/
structure Buffer (P M : Type) where
  index : P → Option Nat := fun _ => none
  order : List (Elem P M) := []
  timer : Option Nat := none
  closed : Bool := false
  timers : List Timer := []
  accepted : List (Elem P M) := []
  popped : List (Elem P M) := []
  freed : List (Elem P M) := []

namespace Buffer

/-- The timers after `b.timer.Stop()`, where there is one. -/
def stop (b : Buffer P M) : List Timer :=
  match b.timer with
  | none => b.timers
  | some t => b.timers.modify t fun
    | .armed => .stopped
    | other => other

/-- `scheduleCleanup`: a new timer, the old one stopped. -/
def scheduleCleanup (b : Buffer P M) : Buffer P M :=
  { b with timer := some b.stop.length, timers := b.stop ++ [.armed] }

/-- Stops the timer. -/
def stopCleanup (b : Buffer P M) : Buffer P M :=
  { b with timer := none, timers := b.stop }

variable [DecidableEq P]

/-- The element of a peer, taken out of the list and the index. -/
def remove [DecidableEq M] (b : Buffer P M) (peerID : P) : Option (Elem P M × Buffer P M) := do
  let addr ← b.index peerID
  let e ← b.order.find? (·.addr = addr)
  return (e, { b with order := b.order.erase e, index := update b.index peerID none })

/-- Enters a message at the end of the order and in the index. -/
def pushBack (b : Buffer P M) (e : Elem P M) : Buffer P M :=
  { b with
    order := b.order ++ [e]
    index := update b.index e.peerID (some e.addr)
    accepted := b.accepted ++ [e] }

/-- `put`: a new message of a peer replaces the old one; a full buffer takes no more. -/
def put [DecidableEq M] (b : Buffer P M) (now : Nat) (peerID : P) (msg : M) : Buffer P M × Bool :=
  if b.closed then (b, false)
  else
    let b := match b.remove peerID with
      | none => b
      | some (old, b) => { b with freed := b.freed ++ [old] }
    if earlyMsgCapacity ≤ b.order.length then (b, false)
    else
      let b := b.pushBack ⟨b.accepted.length, peerID, msg, now⟩
      (if b.order.length = 1 then b.scheduleCleanup else b, true)

/-- `pop`: hands over the message of a peer. -/
def pop [DecidableEq M] (b : Buffer P M) (peerID : P) : Buffer P M × Option M :=
  match b.remove peerID with
  | none => (b, none)
  | some (e, b) =>
    let b := { b with popped := b.popped ++ [e] }
    (if b.order.length = 0 then b.stopCleanup else b, some e.msg)

/-- `close`: frees all that waits. -/
def close (b : Buffer P M) : Buffer P M :=
  if b.closed then b
  else { b.stopCleanup with
    closed := true, freed := b.freed ++ b.order, order := [], index := fun _ => none }

/-- The message waited too long. -/
def expired (now : Nat) (e : Elem P M) : Bool := earlyMsgTTL < now - e.createdAt

/-- `removeExpired`: the expired messages are at the front of the order. -/
def removeExpired (b : Buffer P M) (now : Nat) : Buffer P M :=
  if b.closed then b
  else
    let out := b.order.takeWhile (expired now)
    let b := { b with
      order := b.order.dropWhile (expired now)
      index := fun p => if p ∈ out.map Elem.peerID then none else b.index p
      freed := b.freed ++ out }
    -- the timer of an empty buffer is dropped without `Stop`
    if b.order.length = 0 then { b with timer := none } else b.scheduleCleanup

end Buffer

/-- What happens to a buffer, each under its lock; `fire` is the function of a timer that was
    not stopped in time. -/
inductive Call (P M : Type)
  | put (now : Nat) (peerID : P) (msg : M)
  | pop (peerID : P)
  | close
  | fire (now t : Nat)

/-- What a call leaves of the buffer; a timer fires only while it is armed. -/
def step [DecidableEq P] [DecidableEq M] (b : Buffer P M) : Call P M → Option (Buffer P M)
  | .put now peerID msg => some (b.put now peerID msg).1
  | .pop peerID => some (b.pop peerID).1
  | .close => some b.close
  | .fire now t =>
    if b.timers[t]? = some .armed ∨ b.timers[t]? = some .stopped then
      some ({ b with timers := b.timers.set t .fired }.removeExpired now)
    else none

/-- What holds of the list, the index and the messages. -/
structure Entries (b : Buffer P M) : Prop where
  index : ∀ p a, b.index p = some a ↔ ∃ e ∈ b.order, e.peerID = p ∧ e.addr = a
  order : b.order.Sublist b.accepted
  addrs : b.accepted.map (·.addr) = List.range b.accepted.length
  ledger : b.accepted.Perm (b.popped ++ b.freed ++ b.order)
  length : b.order.length ≤ earlyMsgCapacity
  closed : b.closed = true → b.order = []

/-- A buffer that is open and not empty has a timer that will fire. -/
def Armed (b : Buffer P M) : Prop :=
  b.closed = false → b.order ≠ [] → ∃ t, b.timer = some t ∧ b.timers[t]? = some .armed

variable {b b' : Buffer P M} {e e' : Elem P M} {p : P} {out : List (Elem P M)}

open Buffer

/-- The empty buffer. -/
theorem entries_new : Entries ({} : Buffer P M) ∧ Armed ({} : Buffer P M) :=
  ⟨⟨by simp, .slnil, rfl, .nil, Nat.zero_le _, fun _ => rfl⟩, fun _ ho => absurd rfl ho⟩

/-- No two elements share an address. -/
theorem Entries.addr_inj (h : Entries b) (he : e ∈ b.order) (he' : e' ∈ b.order)
    (ha : e.addr = e'.addr) : e = e' := by
  have hn : (b.accepted.map (·.addr)).Nodup := h.addrs ▸ nodup_range
  exact inj_on_of_nodup_map hn (h.order.subset he) (h.order.subset he') ha

/-- No two elements are of one peer. -/
theorem Entries.peerID_inj (h : Entries b) (he : e ∈ b.order) (he' : e' ∈ b.order)
    (hp : e.peerID = e'.peerID) : e = e' := by
  have h₁ := (h.index e.peerID e.addr).mpr ⟨e, he, rfl, rfl⟩
  have h₂ := (h.index e.peerID e'.addr).mpr ⟨e', he', hp.symm, rfl⟩
  exact h.addr_inj he he' (some.inj (h₁.symm.trans h₂))

/-- A peer that does not wait is not indexed. -/
theorem Entries.index_eq_none (h : Entries b) (hn : p ∉ b.order.map Elem.peerID) :
    b.index p = none := by
  rw [eq_none_iff_forall_ne_some]
  intro a ha
  obtain ⟨e, he, hp, -⟩ := (h.index p a).mp ha
  exact hn (hp ▸ mem_map_of_mem he)

theorem Entries.nodup (h : Entries b) : b.order.Nodup :=
  h.order.nodup (List.Nodup.of_map _ (h.addrs ▸ nodup_range))

/-- Timers are no part of the entries. -/
theorem Entries.timers (h : Entries b) (timer : Option Nat) (timers : List Timer) :
    Entries { b with timer := timer, timers := timers } :=
  ⟨h.index, h.order, h.addrs, h.ledger, h.length, h.closed⟩

/-- A new timer is armed. -/
theorem armed_scheduleCleanup (b : Buffer P M) : Armed b.scheduleCleanup :=
  fun _ _ => ⟨_, rfl, getElem?_concat_length⟩

variable [DecidableEq P]

/-- Elements leave the list and the index, and are popped or freed. -/
theorem Entries.leave (h : Entries b) (hp : b.order.Perm (out ++ b'.order))
    (hs : b'.order.Sublist b.order)
    (hi : ∀ p, b'.index p = if p ∈ out.map Elem.peerID then none else b.index p)
    (ha : b'.accepted = b.accepted) (hl : (b'.popped ++ b'.freed).Perm (b.popped ++ b.freed ++ out))
    (hc : b'.closed = true → b'.order = []) : Entries b' := by
  have hdis : ∀ e ∈ out, e ∉ b'.order := fun e he he' =>
    (nodup_append.mp (hp.nodup_iff.mp h.nodup)).2.2 e he e he' rfl
  refine ⟨?_, ha ▸ hs.trans h.order, ha ▸ h.addrs, ?_, Nat.le_trans hs.length_le h.length, hc⟩
  · intro p a
    have hmem : ∀ e, e ∈ b.order ↔ e ∈ out ∨ e ∈ b'.order := fun e => by rw [hp.mem_iff, mem_append]
    have := h.index p a
    have hpi : ∀ e ∈ b.order, ∀ e' ∈ b.order, e.peerID = e'.peerID → e = e' :=
      fun e he e' => h.peerID_inj he
    grind
  · rw [ha]
    refine h.ledger.trans ((hp.append_left _).trans ?_)
    rw [← append_assoc]
    exact hl.symm.append_right _

/-- A message of a peer that has none is accepted. -/
theorem Entries.pushBack (h : Entries b) (hn : p ∉ b.order.map Elem.peerID)
    (hl : b.order.length < earlyMsgCapacity) (hc : b.closed = false) (msg : M) (now : Nat) :
    Entries (b.pushBack ⟨b.accepted.length, p, msg, now⟩) := by
  refine ⟨fun q a => ?_, h.order.append_right _, ?_, ?_, ?_, fun hcl => ?_⟩
  · have := h.index_eq_none hn
    simp only [Buffer.pushBack, update_apply, mem_append, mem_singleton, or_and_right,
      exists_or, exists_eq_left, ← h.index q a]
    grind
  · simp [Buffer.pushBack, range_succ, h.addrs]
  · rw [Buffer.pushBack, ← append_assoc]
    exact h.ledger.append_right _
  · simp only [Buffer.pushBack, length_append, length_singleton]
    omega
  · exact absurd (hc.symm.trans hcl) (by simp)

/-- Closing keeps the invariants. -/
theorem close_spec (h : Entries b) (ha : Armed b) : Entries b.close ∧ Armed b.close := by
  rw [close]
  split
  · exact ⟨h, ha⟩
  · refine ⟨h.leave (show b.order.Perm (b.order ++ []) by simp) (nil_sublist _)
      (fun p => ?_) rfl (by simp [stopCleanup]) fun _ => rfl, fun hc => nomatch hc⟩
    split
    · rfl
    · next hn => exact (h.index_eq_none hn).symm

/-- The cleanup keeps the invariants. -/
theorem removeExpired_spec (h : Entries b) (ha : b.closed = true → Armed b) (now : Nat) :
    Entries (b.removeExpired now) ∧ Armed (b.removeExpired now) := by
  rw [removeExpired]
  split
  · exact ⟨h, ha ‹_›⟩
  · have h' : Entries { b with
        order := b.order.dropWhile (expired now)
        index := fun p => if p ∈ (b.order.takeWhile (expired now)).map Elem.peerID
          then none else b.index p
        freed := b.freed ++ b.order.takeWhile (expired now) } :=
      h.leave (by rw [takeWhile_append_dropWhile]) (dropWhile_sublist _) (fun p => rfl)
        rfl (by rw [append_assoc]) fun hc => by simp [h.closed hc]
    dsimp only
    split
    · exact ⟨h'.timers _ _, fun _ ho => absurd (length_eq_zero_iff.mp ‹_›) ho⟩
    · exact ⟨h'.timers _ _, armed_scheduleCleanup _⟩

variable [DecidableEq M]

/-- What is removed for a peer: its element, where it has one. -/
theorem Entries.remove_cases (h : Entries b) (p : P) :
    (p ∉ b.order.map Elem.peerID ∧ b.remove p = none) ∨
      ∃ e ∈ b.order, e.peerID = p ∧ b.remove p = some (e, { b with
        order := b.order.erase e, index := update b.index p none }) := by
  by_cases hp : p ∈ b.order.map Elem.peerID
  · obtain ⟨e, he, rfl⟩ := mem_map.mp hp
    obtain ⟨e', hf⟩ : ∃ e', b.order.find? (·.addr = e.addr) = some e' :=
      isSome_iff_exists.mp (find?_isSome.mpr ⟨e, he, by simp⟩)
    cases h.addr_inj (mem_of_find?_eq_some hf) he (by simpa using find?_some hf)
    refine .inr ⟨e, he, rfl, ?_⟩
    simp [remove, (h.index e.peerID e.addr).mpr ⟨e, he, rfl, rfl⟩, hf]
  · exact .inl ⟨hp, by simp [remove, h.index_eq_none hp]⟩

/-- One element is taken out, and popped or freed. -/
theorem Entries.remove (h : Entries b) (he : e ∈ b.order) (popped freed : List (Elem P M))
    (hl : (popped ++ freed).Perm (b.popped ++ b.freed ++ [e])) : Entries { b with
      order := b.order.erase e, index := update b.index e.peerID none,
      popped := popped, freed := freed } := by
  refine h.leave (perm_cons_erase he : b.order.Perm ([e] ++ b.order.erase e))
    erase_sublist (fun p => ?_) rfl hl fun hc => ?_
  · simp [update_apply]
  · simp [h.closed hc]

/-- Storing a message keeps the invariants. -/
theorem put_spec (h : Entries b) (ha : Armed b) (now : Nat) (p : P) (msg : M) :
    Entries (b.put now p msg).1 ∧ Armed (b.put now p msg).1 := by
  cases hc : b.closed with
  | true => simpa [put, hc] using ⟨h, ha⟩
  | false =>
    -- before the message is stored the peer has none
    have store : ∀ b' : Buffer P M, Entries b' → p ∉ b'.order.map Elem.peerID →
        b'.closed = false → Armed b' →
        ∀ r, r = (if earlyMsgCapacity ≤ b'.order.length then (b', false)
          else
            let b := b'.pushBack ⟨b'.accepted.length, p, msg, now⟩
            (if b.order.length = 1 then b.scheduleCleanup else b, true)) →
        Entries r.1 ∧ Armed r.1 := by
      rintro b' h' hn hc' ha' r rfl
      split
      · exact ⟨h', ha'⟩
      · have hp := h'.pushBack hn (by omega) hc' msg now
        dsimp only
        split
        · exact ⟨hp.timers _ _, armed_scheduleCleanup _⟩
        · refine ⟨hp, fun hcl _ => ha' hcl fun hnil => ?_⟩
          simp_all [pushBack]
    rcases h.remove_cases p with ⟨hn, hr⟩ | ⟨e, he, rfl, hr⟩
    · exact store b h hn hc ha _ (by simp [put, hc, hr])
    · have h' := h.remove he b.popped (b.freed ++ [e]) (by rw [append_assoc])
      refine store _ h' (fun hm => ?_) hc (fun _ _ => ha hc (ne_nil_of_mem he)) _
        (by simp [put, hc, hr])
      obtain ⟨e', he', hp⟩ := mem_map.mp hm
      cases h.peerID_inj (mem_of_mem_erase he') he hp
      exact h.nodup.not_mem_erase he'

/-- Handing a message over keeps the invariants. -/
theorem pop_spec (h : Entries b) (ha : Armed b) (p : P) :
    Entries (b.pop p).1 ∧ Armed (b.pop p).1 := by
  rw [pop]
  rcases h.remove_cases p with ⟨-, hr⟩ | ⟨e, he, rfl, hr⟩
  · rw [hr]
    exact ⟨h, ha⟩
  · rw [hr]
    have h' := h.remove he (b.popped ++ [e]) b.freed
      (by rw [append_assoc, append_assoc]; exact perm_append_comm.append_left _)
    dsimp only
    split
    · exact ⟨h'.timers _ _, fun _ ho => absurd (length_eq_zero_iff.mp ‹_›) ho⟩
    · exact ⟨h', fun hc _ => ha hc (ne_nil_of_mem he)⟩

/-- Every call keeps the invariants. -/
theorem step_spec (c : Call P M) (h : Entries b ∧ Armed b) (hs : step b c = some b') :
    Entries b' ∧ Armed b' := by
  cases c with
  | put now p msg => exact some.inj hs ▸ put_spec h.1 h.2 now p msg
  | pop p => exact some.inj hs ▸ pop_spec h.1 h.2 p
  | close => exact some.inj hs ▸ close_spec h.1 h.2
  | fire now t =>
    rw [step, ite_none_right_eq_some] at hs
    obtain ⟨-, hs⟩ := hs
    refine some.inj hs ▸ removeExpired_spec (h.1.timers b.timer _) (fun hc ho => ?_) now
    cases ho.symm.trans hc

/-- The relay client.  A handler is a `handleTransportMsg` that found no connection, between
    the lookup and `put`, with the buffer it read, known by its number. -/
structure Client (P M : Type) where
  conns : P → Bool := fun _ => false
  earlyMsgs : Buffer P M := {}
  number : Nat := 0
  handlers : List (P × M × Nat) := []

/-- What is done under `mu`, and the `put` of the handler `i`.  `closeConn` is any deletion of
    one connection, also that of an `OpenConn` which failed later. -/
inductive Act (P M : Type)
  | handleTransportMsg (peerID : P) (msg : M)
  | put (i now : Nat)
  | openConn (peerID : P)
  | closeConn (peerID : P)
  | closeAllConns
  | fire (now t : Nat)

/-- What an action leaves of the client. -/
def act (c : Client P M) : Act P M → Option (Client P M)
  | .handleTransportMsg peerID msg =>
    if c.conns peerID then some c
    else some { c with handlers := c.handlers ++ [(peerID, msg, c.number)] }
  | .put i now => do
    let (peerID, msg, number) ← c.handlers[i]?
    let c := { c with handlers := c.handlers.eraseIdx i }
    -- a buffer that was replaced is closed
    if number = c.number then return { c with earlyMsgs := (c.earlyMsgs.put now peerID msg).1 }
    else return c
  | .openConn peerID =>
    if c.conns peerID then some c
    else some { c with
      conns := update c.conns peerID true, earlyMsgs := (c.earlyMsgs.pop peerID).1 }
  | .closeConn peerID => some { c with conns := update c.conns peerID false }
  | .closeAllConns => some { c with
      conns := fun _ => false, earlyMsgs := {}, number := c.number + 1 }
  | .fire now t => do
    let b ← step c.earlyMsgs (.fire now t)
    return { c with earlyMsgs := b }

/-- No connection is opened while a message of its peer is on the way to the buffer. -/
def NoHandler (c : Client P M) : Act P M → Prop
  | .openConn peerID => ∀ h ∈ c.handlers, h.1 = peerID → h.2.2 ≠ c.number
  | _ => True

instance (c : Client P M) : DecidablePred (NoHandler c)
  | .openConn p => inferInstanceAs (Decidable (∀ h ∈ c.handlers, h.1 = p → h.2.2 ≠ c.number))
  | .handleTransportMsg .. | .put .. | .closeConn _ | .closeAllConns | .fire .. =>
    inferInstanceAs (Decidable True)

/-- Messages that are held or on the way have no connection they could have gone to. -/
structure Waiting (c : Client P M) : Prop where
  entries : Entries c.earlyMsgs
  armed : Armed c.earlyMsgs
  held : ∀ e ∈ c.earlyMsgs.order, c.conns e.peerID = false
  coming : ∀ h ∈ c.handlers, h.2.2 = c.number → c.conns h.1 = false
  number : ∀ h ∈ c.handlers, h.2.2 ≤ c.number

/-- Storing a message adds only that peer's. -/
theorem put_mem (h : Entries b) {now : Nat} {msg : M} (he : e ∈ (b.put now p msg).1.order) :
    e ∈ b.order ∨ e.peerID = p := by
  rcases h.remove_cases p with ⟨-, hr⟩ | ⟨e', -, -, hr⟩ <;>
    grind [put, pushBack, scheduleCleanup]

/-- Handing over removes the peer's message. -/
theorem pop_mem (h : Entries b) (he : e ∈ (b.pop p).1.order) : e ∈ b.order ∧ e.peerID ≠ p := by
  rcases h.remove_cases p with ⟨hn, hr⟩ | ⟨e', he', hp, hr⟩
  · rw [pop, hr] at he
    exact ⟨he, fun hp => hn (hp ▸ mem_map_of_mem he)⟩
  · have hm : e ∈ b.order.erase e' := by grind [pop, stopCleanup]
    refine ⟨mem_of_mem_erase hm, fun hp' => ?_⟩
    cases h.peerID_inj (mem_of_mem_erase hm) he' (hp'.trans hp.symm)
    exact h.nodup.not_mem_erase hm

theorem fire_mem {now t : Nat} (hs : step b (.fire now t) = some b') (he : e ∈ b'.order) :
    e ∈ b.order := by
  have hd : b.order.dropWhile (expired now) ⊆ b.order := dropWhile_subset _
  rw [step, ite_none_right_eq_some] at hs
  obtain ⟨-, hs⟩ := hs
  cases hs
  rw [removeExpired] at he
  split at he
  · exact he
  dsimp only at he
  split at he <;> exact hd he

/-- Every action keeps a message waiting that no handler has taken. -/
theorem waiting_act {c c' : Client P M} (a : Act P M) (h : Waiting c) (hn : NoHandler c a)
    (ha : act c a = some c') : Waiting c' := by
  obtain ⟨hE, hA, hh, hco, hnu⟩ := h
  cases a with
  | handleTransportMsg p msg =>
    simp only [act] at ha
    split at ha
    · exact some.inj ha ▸ ⟨hE, hA, hh, hco, hnu⟩
    · refine some.inj ha ▸ ⟨hE, hA, hh, ?_, ?_⟩ <;> grind
  | put i now =>
    simp only [act, bind_eq_bind, bind_eq_some_iff] at ha
    obtain ⟨⟨p, msg, number⟩, hi, ha⟩ := ha
    have hsub : ∀ h ∈ c.handlers.eraseIdx i, h ∈ c.handlers := fun h => mem_of_mem_eraseIdx
    split at ha
    · have hp := hco _ (mem_of_getElem? hi) ‹_›
      obtain ⟨hE', hA'⟩ := put_spec hE hA now p msg
      refine some.inj ha ▸ ⟨hE', hA', fun e he => ?_, fun h hm => hco h (hsub h hm),
        fun h hm => hnu h (hsub h hm)⟩
      rcases put_mem hE he with he | rfl
      · exact hh e he
      · exact hp
    · exact some.inj ha ▸ ⟨hE, hA, hh, fun h hm => hco h (hsub h hm), fun h hm => hnu h (hsub h hm)⟩
  | openConn p =>
    simp only [act] at ha
    split at ha
    · exact some.inj ha ▸ ⟨hE, hA, hh, hco, hnu⟩
    · obtain ⟨hE', hA'⟩ := pop_spec hE hA p
      refine some.inj ha ▸ ⟨hE', hA', fun e he => ?_, fun h hm hnum => ?_, hnu⟩
      · obtain ⟨he, hp⟩ := pop_mem hE he
        exact (update_of_ne hp ..).trans (hh e he)
      · exact (update_of_ne (hn h hm · hnum) ..).trans (hco h hm hnum)
  | closeConn p =>
    refine some.inj ha ▸ ⟨hE, hA, fun e he => ?_, fun h hm hnum => ?_, hnu⟩ <;>
      grind
  | closeAllConns =>
    refine some.inj ha ▸ ⟨entries_new.1, entries_new.2, fun _ he => (nomatch he),
      fun _ _ _ => rfl, fun h hm => Nat.le_succ_of_le (hnu h hm)⟩
  | fire now t =>
    simp only [act, bind_eq_bind, bind_eq_some_iff] at ha
    obtain ⟨b, hb, ha⟩ := ha
    obtain ⟨hE', hA'⟩ := step_spec _ ⟨hE, hA⟩ hb
    exact some.inj ha ▸ ⟨hE', hA', fun e he => hh e (fire_mem hb he), hco, hnu⟩

/-- **Nothing is withheld** from an open connection, in any interleaving in which none is opened
    between the lookup and the `put` of a message of its peer. -/
theorem openConn_drains (acts : List (Act P M)) (c : Client P M)
    (hn : AllowedRun act NoHandler {} acts) (hr : run act {} acts = some c) (p : P)
    (ho : c.conns p = true) : ∀ e ∈ c.earlyMsgs.order, e.peerID ≠ p := by
  have h0 : Waiting ({} : Client P M) :=
    ⟨entries_new.1, entries_new.2, fun _ he => (nomatch he), fun _ hm => (nomatch hm),
      fun _ hm => (nomatch hm)⟩
  have h := run_invariant (fun s a s' hi ho hs => waiting_act a hi ho hs) acts _ _ h0 hn hr
  intro e he hp
  exact absurd (ho.symm.trans (hp ▸ h.held e he)) (by decide)

/-- An early message for a peer, the connection, and one more message. -/
theorem openConn_drains_early : ∃ c : Client Nat Nat,
    run act {} [.handleTransportMsg 1 10, .put 0 0, .openConn 1, .handleTransportMsg 1 11] =
      some c ∧ c.conns 1 = true ∧ ∀ e ∈ c.earlyMsgs.order, e.peerID ≠ 1 :=
  ⟨_, rfl, rfl, openConn_drains
    [.handleTransportMsg 1 10, .put 0 0, .openConn 1, .handleTransportMsg 1 11] _
    (by decide) rfl 1 rfl⟩

/-- The connection is opened after the lookup and before the `put`: the message stays in the
    buffer while the connection is open, and goes to the next one. -/
theorem openConn_misses : ∃ c c' : Client Nat Nat,
    run act {} [.handleTransportMsg 1 10, .openConn 1, .put 0 0] = some c ∧
      c.conns 1 = true ∧ c.earlyMsgs.order.map (·.peerID) = [1] ∧
      run act c [.closeConn 1, .openConn 1] = some c' ∧
      c'.earlyMsgs.popped.map (·.msg) = [10] :=
  ⟨_, _, rfl, rfl, rfl, rfl, rfl⟩

end EarlyMsg

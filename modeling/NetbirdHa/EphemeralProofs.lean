import NetbirdHa.TextProofs
import NetbirdHa.TransitionProofs

/-! # Ephemeral peers over several management instances

A peer that is ephemeral is deleted some time after it has disconnected.  Every
management instance keeps a list of the peers that disconnected from it, and all of
them share a sorted set in Redis from which expired peers are taken and deleted.
A disconnect adds the peer to the list and to the set, a connect takes it out of
both; but only out of the list of the instance that it connects to.

A handler holds the lock of its instance, changes the list, and then sends one
command to Redis; handlers of different instances interleave between the two.  A
disconnect from an instance that still has the peer on its list sends nothing, and
an error of a command is only logged; the handler of a disconnect sends it with the
context of the stream that has ended.  So a disconnect is remembered exactly if, when
it is handled, no connect is about to take the peer out of the set, and the peer is
not on the list or is in the set, now or soon (`Remembers`), and its command does not
fail where it is the only one that adds the peer. -/

namespace Ephemeral

open Transition List Function

/-! ## Instances -/

/-- The ID of a peer; the separator of members is not in it. -/
structure PeerID where
  text : String
  noBar : '|' ∉ text.toList
deriving DecidableEq

/-- What the store says about peers. -/
structure Directory where
  accountID : PeerID → String
  ephemeral : PeerID → Bool

section

variable (d : Directory) (e : Instance) (peers : List EphemeralPeer) (id : PeerID)

/-- A member of the set: `peerID|accountID`. -/
def memberOf : String := id.text ++ ("|" ++ d.accountID id)

/-- `ephemeralPeer`: an item of the linked list. -/
structure EphemeralPeer where
  id : PeerID
  accountID : String
  deadline : Int
deriving DecidableEq

/-- A command to Redis. -/
inductive RedisOp where
  | zadd (member : String) (score : Int)
  | zrem (member : String)
deriving DecidableEq

/-- `EphemeralManager`: the linked list, and the command that the handler that holds
    `peersLock` is about to send. -/
structure Instance where
  peers : List EphemeralPeer := []
  pending : Option RedisOp := none
deriving DecidableEq

/-- `isPeerOnList`. -/
def isPeerOnList : Bool :=
  peers.any (·.id = id)

/-- `removePeer`: the first item of the peer goes. -/
def removePeer : List EphemeralPeer :=
  peers.eraseP (·.id = id)

/-- `addPeer`: behind the tail. -/
def addPeer (accountID : String) (id : PeerID) (deadline : Int) : List EphemeralPeer :=
  peers ++ [⟨id, accountID, deadline⟩]

/-- `OnPeerConnected`, up to its command. -/
def Instance.onPeerConnected : Instance :=
  if d.ephemeral id then
    { peers := removePeer e.peers id, pending := some (.zrem (memberOf d id)) }
  else e

/-- `OnPeerDisconnected`, up to its command. -/
def Instance.onPeerDisconnected (deadline : Int) : Instance :=
  if !d.ephemeral id then e
  else if isPeerOnList e.peers id then e
  else
    { peers := addPeer e.peers (d.accountID id) id deadline
      pending := some (.zadd (memberOf d id) deadline) }

end

/-! ## The system -/

/-- What happens to a peer. -/
inductive Event where
  | connect
  | disconnect
deriving DecidableEq

/-- The instances and the set.  What happened last to a peer is kept for the
    statements; the code does not have it. -/
structure State where
  instances : List Instance
  zset : String → Option Int
  last : PeerID → Option Event

/-- The instances with the lists that they have loaded, and no handler running. -/
def State.init (lists : List (List EphemeralPeer)) (zset : String → Option Int) : State where
  instances := lists.map (fun peers => { peers := peers })
  zset := zset
  last := fun _ => none

/-- The set after a command. -/
def RedisOp.apply (zset : String → Option Int) : RedisOp → String → Option Int
  | .zadd member score => update zset member (some score)
  | .zrem member => update zset member none

/-- A handler of instance `i` runs up to its command, or the command is sent; `applied` says
    whether Redis carries it out. -/
inductive Action where
  | connect (i : Nat) (id : PeerID)
  | disconnect (i : Nat) (id : PeerID) (deadline : Int)
  | redis (i : Nat) (applied : Bool)
deriving DecidableEq

/-- A handler starts when the lock of its instance is free. -/
def handle (s : State) (i : Nat) (id : PeerID) (event : Event) (handler : Instance → Instance) :
    Option State :=
  match s.instances[i]? with
  | none => none
  | some e =>
    if e.pending = none then
      some { s with
        instances := s.instances.set i (handler e)
        last := update s.last id (some event) }
    else none

/-- The handler of an instance sends its command, logs an error, and gives the lock back. -/
def State.send (s : State) (i : Nat) (e : Instance) (applied : Bool) (op : RedisOp) : State :=
  { s with
    instances := s.instances.set i { e with pending := none }
    zset := if applied then op.apply s.zset else s.zset }

/-- One step of a handler. -/
def step (d : Directory) (s : State) : Action → Option State
  | .connect i id => handle s i id .connect (·.onPeerConnected d id)
  | .disconnect i id deadline => handle s i id .disconnect (·.onPeerDisconnected d id deadline)
  | .redis i applied =>
    match s.instances[i]? with
    | none => none
    | some e => e.pending.map (s.send i e applied)

/-! ## Being remembered -/

/-- The command adds the member. -/
def RedisOp.adds (member : String) : Option RedisOp → Bool
  | some (.zadd m _) => m = member
  | _ => false

section

variable (d : Directory) (p : PeerID) (s : State)

/-- A command that adds the peer is on its way. -/
def Adding : Prop :=
  ∃ e ∈ s.instances, RedisOp.adds (memberOf d p) e.pending
deriving Decidable

/-- A command that removes the peer is on its way. -/
def Removing : Prop :=
  ∃ e ∈ s.instances, e.pending = some (.zrem (memberOf d p))
deriving Decidable

/-- The peer is in the set, now or soon. -/
def Tracked : Prop :=
  s.zset (memberOf d p) ≠ none ∨ Adding d p s
deriving Decidable

/-- A disconnect that is handled in this state is remembered. -/
def Remembers (i : Nat) : Prop :=
  ¬ Removing d p s ∧ ((∀ e ∈ s.instances[i]?, isPeerOnList e.peers p = false) ∨ Tracked d p s)
deriving Decidable

/-- The peer is in the set, or the command of another instance will add it. -/
def TrackedBesides (i : Nat) : Prop :=
  s.zset (memberOf d p) ≠ none ∨
    ∃ e ∈ s.instances.eraseIdx i, RedisOp.adds (memberOf d p) e.pending
deriving Decidable

/-- Disconnects of the peer are handled where they are remembered, and after a disconnect no command
    fails that is the only one to add the peer. -/
def StepAllowed : Action → Prop
  | .disconnect i id _ => id = p → Remembers d p s i
  | .redis i applied => applied = false → s.last p = some .disconnect →
      (s.instances[i]?).any (RedisOp.adds (memberOf d p) ·.pending) → TrackedBesides d p s i
  | .connect _ _ => True

instance (d : Directory) (p : PeerID) (s : State) : ∀ a, Decidable (StepAllowed d p s a)
  | .disconnect i id _ => inferInstanceAs (Decidable (id = p → Remembers d p s i))
  | .connect _ _ => isTrue trivial
  | .redis i applied => inferInstanceAs (Decidable (applied = false →
      s.last p = some .disconnect →
      (s.instances[i]?).any (RedisOp.adds (memberOf d p) ·.pending) → TrackedBesides d p s i))

/-- All handlers have finished. -/
def Quiet : Prop := ∀ e ∈ s.instances, e.pending = none
deriving Decidable

/-- If the last event was a disconnect and all handlers have finished, the peer is in the set. -/
def Good : Prop :=
  s.last p = some .disconnect → Quiet s → s.zset (memberOf d p) ≠ none
deriving Decidable

end

variable {d : Directory} {p q : PeerID} {s : State} {i : Nat} {e : Instance} {op : RedisOp}

/-! ## Steps -/

open State

/-- The entry of a peer determines it. -/
theorem memberOf_inj (h : memberOf d p = memberOf d q) : p = q := by
  obtain ⟨hte, -⟩ := Text.append_sep_inj (c := '|') rfl p.noBar q.noBar h
  cases p
  cases q
  cases hte
  rfl

section

variable {s' : State}

/-- **What a handler does.** -/
theorem handle_eq_some (h : handle s i q event handler = some s') :
    ∃ e, s.instances[i]? = some e ∧ e.pending = none ∧ s' = { s with
        instances := s.instances.set i (handler e)
        last := update s.last q (some event) } := by
  rw [handle] at h
  split at h
  · cases h
  rename_i e he
  split at h
  · next hp => exact ⟨e, he, hp, (Option.some.inj h).symm⟩
  · cases h

/-- **What a command does.** -/
theorem redis_eq_some (h : step d s (.redis i applied) = some s') :
    ∃ e op, s.instances[i]? = some e ∧ e.pending = some op ∧ s' = s.send i e applied op := by
  rw [step] at h
  split at h
  · cases h
  · next e he =>
    obtain ⟨op, hop, hs'⟩ := Option.map_eq_some_iff.mp h
    exact ⟨e, op, he, hop, hs'.symm⟩

theorem step_redis (he : s.instances[i]? = some e) (hop : e.pending = some op) :
    step d s (.redis i true) = some (s.send i e true op) := by
  rw [step, he]
  dsimp only
  rw [hop]
  rfl

theorem pending_onPeerDisconnected (deadline : Int) (hp : e.pending = none) :
    (e.onPeerDisconnected d q deadline).pending ≠ some (.zrem (memberOf d p)) := by
  rw [Instance.onPeerDisconnected]
  split
  · rw [hp]
    exact nofun
  split
  · rw [hp]
    exact nofun
  · exact nofun

/-- What is on its way from the other instances stays so. -/
theorem adding_set (he : s.instances[i]? = some e) (hp : ¬ RedisOp.adds (memberOf d p) e.pending)
    (h : Adding d p s) (y : Instance) :
    ∃ e ∈ s.instances.set i y, RedisOp.adds (memberOf d p) e.pending := by
  obtain ⟨x, hx, ha⟩ := h
  refine ⟨x, mem_set_of_ne he hx ?_ _, ha⟩
  rintro rfl
  exact hp ha

/-- An instance that removes another entry does not remove this one. -/
theorem not_removing_set (h : ¬ Removing d p s) (hy : y.pending ≠ some (.zrem (memberOf d p))) :
    ¬ ∃ e ∈ s.instances.set i y, e.pending = some (.zrem (memberOf d p)) := by
  rintro ⟨x, hx, hz⟩
  rcases mem_or_eq_of_mem_set hx with hx | rfl
  · exact h ⟨x, hx, hz⟩
  · exact hy hz

end

/-! ## The invariant -/

/-- After a disconnect nothing is about to remove the peer, and it is in the set, now or soon. -/
def Inv (d : Directory) (p : PeerID) (s : State) : Prop :=
  s.last p = some .disconnect → ¬ Removing d p s ∧ Tracked d p s

section

variable {s' : State}

theorem inv_init (lists : List (List EphemeralPeer)) (zset : String → Option Int) :
    Inv d p (init lists zset) := nofun

/-- A connecting peer keeps the invariant. -/
theorem inv_connect (h : Inv d p s) (hs' : step d s (.connect i q) = some s') : Inv d p s' := by
  obtain ⟨e, he, hp, rfl⟩ := handle_eq_some hs'
  intro hl
  by_cases hq : q = p
  · subst hq
    cases (update_self ..).symm.trans hl
  replace hl := (update_of_ne (Ne.symm hq) ..).symm.trans hl
  obtain ⟨hr, htr⟩ := h hl
  refine ⟨not_removing_set hr ?_, htr.imp_right fun ha => adding_set he (hp ▸ nofun) ha _⟩
  rw [Instance.onPeerConnected]
  split
  · intro hz
    injection hz with hz
    injection hz with hmember
    exact hq (memberOf_inj hmember)
  · rw [hp]
    exact nofun

/-- A disconnecting peer keeps the invariant. -/
theorem inv_disconnect (hp : d.ephemeral p) (h : Inv d p s)
    (ho : StepAllowed d p s (.disconnect i q deadline))
    (hs' : step d s (.disconnect i q deadline) = some s') : Inv d p s' := by
  obtain ⟨e, he, hpe, rfl⟩ := handle_eq_some hs'
  intro hl
  by_cases hq : q = p
  · subst hq
    obtain ⟨hr, hli⟩ := ho rfl
    refine ⟨not_removing_set hr (pending_onPeerDisconnected deadline hpe), ?_⟩
    rcases hli with hli | htr
    · -- the handler sends the command
      refine .inr ⟨e.onPeerDisconnected d q deadline, mem_set_self he _, ?_⟩
      rw [Instance.onPeerDisconnected, hp, hli e he]
      simp [RedisOp.adds]
    · exact htr.imp_right fun ha => adding_set he (hpe ▸ nofun) ha _
  · replace hl := (update_of_ne (Ne.symm hq) ..).symm.trans hl
    obtain ⟨hr, htr⟩ := h hl
    refine ⟨not_removing_set hr (pending_onPeerDisconnected deadline hpe), ?_⟩
    exact htr.imp_right fun ha => adding_set he (hpe ▸ nofun) ha _

/-- A command that is carried out. -/
theorem inv_applied (h : Inv d p s) (he : s.instances[i]? = some e) (hop : e.pending = some op) :
    Inv d p (s.send i e true op) := by
  intro hl
  obtain ⟨hr, htr⟩ := h hl
  refine ⟨not_removing_set hr nofun, ?_⟩
  have hme : e ∈ s.instances := mem_iff_getElem?.mpr ⟨i, he⟩
  cases op with
  | zadd member score =>
    by_cases hm : memberOf d p = member
    · refine .inl ?_
      show update s.zset member (some score) (memberOf d p) ≠ none
      rw [hm, update_self]
      exact nofun
    · refine htr.imp (fun hz => ?_) fun ha => adding_set he ?_ ha _
      · show update s.zset member (some score) (memberOf d p) ≠ none
        rw [update_of_ne hm]
        exact hz
      · rw [hop, RedisOp.adds, decide_eq_true_iff]
        exact Ne.symm hm
  | zrem member =>
    have hm : memberOf d p ≠ member := by
      rintro rfl
      exact hr ⟨e, hme, hop⟩
    refine htr.imp (fun hz => ?_) fun ha => adding_set he (hop ▸ nofun) ha _
    show update s.zset member none (memberOf d p) ≠ none
    rw [update_of_ne hm]
    exact hz

/-- A command that fails, where another one or the set has the peer. -/
theorem inv_failed (h : Inv d p s) (ho : StepAllowed d p s (.redis i false))
    (he : s.instances[i]? = some e) (op : RedisOp) : Inv d p (s.send i e false op) := by
  intro hl
  obtain ⟨hr, htr⟩ := h hl
  refine ⟨not_removing_set hr nofun, ?_⟩
  by_cases ha : RedisOp.adds (memberOf d p) e.pending
  · rcases ho rfl hl (by rw [he]; exact ha) with hz | ⟨x, hx, hax⟩
    · exact .inl hz
    · obtain ⟨j, hj, hx⟩ := mem_eraseIdx_iff_getElem?.mp hx
      refine .inr ⟨x, mem_iff_getElem?.mpr ⟨j, ?_⟩, hax⟩
      exact (getElem?_set_of_some he _ j).trans ((if_neg hj).trans hx)
  · exact htr.imp_right fun had => adding_set he ha had _

/-- A command that reaches Redis keeps the invariant. -/
theorem inv_redis (h : Inv d p s) (ho : StepAllowed d p s (.redis i applied))
    (hs' : step d s (.redis i applied) = some s') : Inv d p s' := by
  obtain ⟨e, op, he, hop, rfl⟩ := redis_eq_some hs'
  cases applied with
  | false => exact inv_failed h ho he op
  | true => exact inv_applied h he hop

/-- Every allowed step keeps the invariant. -/
theorem inv_step (hp : d.ephemeral p) (h : Inv d p s)
    (ho : StepAllowed d p s a) (hs' : step d s a = some s') : Inv d p s' := by
  cases a with
  | connect i q => exact inv_connect h hs'
  | disconnect i q deadline => exact inv_disconnect hp h ho hs'
  | redis i applied => exact inv_redis h ho hs'

/-- The invariant rules out a forgotten peer. -/
theorem Inv.good (h : Inv d p s) : Good d p s := by
  intro hl hq
  rcases (h hl).2 with htr | ⟨e, he, ha⟩
  · exact htr
  · rw [hq e he] at ha
    cases ha

end

/-! ## A disconnect that is not remembered -/

/-- How many handlers are running. -/
def State.busy (s : State) : Nat :=
  (s.instances.map (fun e => if e.pending = none then 0 else 1)).sum

/-- A command that is sent is done with. -/
theorem busy_send (he : s.instances[i]? = some e) (hop : e.pending = some op) :
    (s.send i e true op).busy < s.busy := by
  have hs := sum_map_set (fun e : Instance => if e.pending = none then 0 else 1) he
    { e with pending := none }
  rw [if_pos rfl, if_neg (by rw [hop]; exact nofun)] at hs
  rw [busy, busy, send]
  dsimp only
  omega

/-- A command that does not add the peer leaves it untracked. -/
theorem not_tracked_send (h : ¬ Tracked d p s) (he : s.instances[i]? = some e)
    (hop : e.pending = some op) : ¬ Tracked d p (s.send i e true op) := by
  obtain ⟨hz, ha⟩ := not_or.mp h
  rw [not_ne_iff] at hz
  have hme : e ∈ s.instances := mem_iff_getElem?.mpr ⟨i, he⟩
  rintro (hz' | ⟨x, hx, had⟩)
  · refine hz' ?_
    cases op with
    | zadd member score =>
      show update s.zset member (some score) (memberOf d p) = none
      rw [update_of_ne]
      · exact hz
      · rintro rfl
        exact ha ⟨e, hme, by rw [hop]; simp [RedisOp.adds]⟩
    | zrem member =>
      show update s.zset member none (memberOf d p) = none
      by_cases hm : memberOf d p = member
      · rw [hm, update_self]
      · rw [update_of_ne hm]
        exact hz
  · rcases mem_or_eq_of_mem_set hx with hx | rfl
    · exact ha ⟨x, hx, had⟩
    · cases had

/-- A peer that is not tracked is forgotten when all handlers have finished. -/
theorem exists_forgotten_of_not_tracked :
    ∀ (n : Nat) (s : State), s.busy = n → s.last p = some .disconnect → ¬ Tracked d p s →
      ∃ s', Leads (step d) (StepAllowed d p) s s' ∧ ¬ Good d p s' := by
  intro n
  induction n using Nat.strongRecOn with
  | ind n ih =>
    intro s hn hl htr
    by_cases hq : Quiet s
    · exact ⟨s, Leads.refl _ _ s, fun hg => htr (.inl (hg hl hq))⟩
    simp only [Quiet, not_forall] at hq
    obtain ⟨e, hm, hp⟩ := hq
    obtain ⟨i, he⟩ := mem_iff_getElem?.mp hm
    obtain ⟨op, hop⟩ := Option.ne_none_iff_exists'.mp hp
    have hs := step_redis (d := d) he hop
    obtain ⟨s', hle, hb⟩ := ih _ (hn ▸ busy_send he hop) (s.send i e true op) rfl hl
      (not_tracked_send htr he hop)
    exact ⟨s', hle.head hs nofun, hb⟩

/-- A command that removes the peer may be the last to arrive. -/
theorem exists_forgotten_of_removing :
    ∀ (n : Nat) (s : State), s.busy = n → s.last p = some .disconnect → Removing d p s →
      ∃ s', Leads (step d) (StepAllowed d p) s s' ∧ ¬ Good d p s' := by
  intro n
  induction n using Nat.strongRecOn with
  | ind n ih =>
    intro s hn hla hr
    by_cases ho : ∃ (i : Nat) (e : Instance) (op : RedisOp),
        s.instances[i]? = some e ∧ e.pending = some op ∧ op ≠ .zrem (memberOf d p)
    · -- the other commands arrive first
      obtain ⟨i, e, op, he, hop, hne⟩ := ho
      have hs := step_redis (d := d) he hop
      obtain ⟨x, hx, hz⟩ := hr
      have hxe : x ≠ e := by
        rintro rfl
        rw [hop] at hz
        exact hne (Option.some.inj hz)
      obtain ⟨s', hl, hb⟩ := ih _ (hn ▸ busy_send he hop) (s.send i e true op) rfl hla
        ⟨x, mem_set_of_ne he hx hxe _, hz⟩
      exact ⟨s', hl.head hs nofun, hb⟩
    · obtain ⟨e, hm, hop⟩ := hr
      obtain ⟨i, he⟩ := mem_iff_getElem?.mp hm
      have hs := step_redis (d := d) he hop
      have htr : ¬ Tracked d p (s.send i e true (.zrem (memberOf d p))) := by
        rintro (hzs | ⟨x, hx, ha⟩)
        · exact hzs (update_self ..)
        · rcases mem_or_eq_of_mem_set hx with hx | rfl
          · obtain ⟨j, hj⟩ := mem_iff_getElem?.mp hx
            cases hp : x.pending with
            | none =>
              rw [hp] at ha
              cases ha
            | some op =>
              refine ho ⟨j, x, op, hj, hp, ?_⟩
              rintro rfl
              rw [hp] at ha
              cases ha
          · cases ha
      obtain ⟨s', hl, hb⟩ := exists_forgotten_of_not_tracked _ (s.send i e true _) rfl hla htr
      exact ⟨s', hl.head hs nofun, hb⟩

/-- From a step that is not allowed, a peer can be forgotten. -/
theorem exists_forgotten (h : ¬ StepAllowed d p s a)
    (hm : step d s a = some m) : ∃ s', Leads (step d) (StepAllowed d p) m s' ∧ ¬ Good d p s' := by
  cases a with
  | connect i q => exact absurd trivial h
  | redis i applied =>
    simp only [StepAllowed, Classical.not_imp] at h
    obtain ⟨rfl, hl, -, htr⟩ := h
    obtain ⟨e, op, he, -, rfl⟩ := redis_eq_some hm
    -- nothing else adds the peer
    refine exists_forgotten_of_not_tracked _ _ rfl hl ?_
    rintro (hz | ⟨x, hx, hax⟩)
    · exact htr (.inl hz)
    · obtain ⟨j, hj⟩ := mem_iff_getElem?.mp hx
      rw [send, getElem?_set_of_some he] at hj
      split at hj
      · cases hj
        cases hax
      · next hji => exact htr (.inr ⟨x, mem_eraseIdx_iff_getElem?.mpr ⟨j, hji, hj⟩, hax⟩)
  | disconnect i q deadline =>
    obtain ⟨rfl, hre⟩ := Classical.not_imp.mp h
    obtain ⟨e, he, hp, rfl⟩ := handle_eq_some hm
    by_cases hr : Removing d q s
    · refine exists_forgotten_of_removing _ _ rfl (update_self ..) ?_
      obtain ⟨x, hx, hz⟩ := hr
      refine ⟨x, mem_set_of_ne he hx ?_ _, hz⟩
      rintro rfl
      rw [hp] at hz
      cases hz
    · -- the peer is on the list, so the handler does nothing
      obtain ⟨hl, htr⟩ := not_or.mp (not_and.mp hre hr)
      have ho : isPeerOnList e.peers q := by
        by_contra hoff
        refine hl fun x hx => ?_
        rw [he] at hx
        cases hx
        exact eq_false_of_ne_true hoff
      have hs : e.onPeerDisconnected d q deadline = e := by
        rw [Instance.onPeerDisconnected, if_pos ho, ite_self]
      refine exists_forgotten_of_not_tracked _ _ rfl (update_self ..) ?_
      have hset : s.instances.set i e = s.instances := by
        obtain ⟨hi, rfl⟩ := List.getElem?_eq_some_iff.mp he
        exact set_getElem_self hi
      rw [hs, hset]
      exact htr

/-- **A peer that has disconnected is in the set**, if every disconnect is handled where it is
    remembered and the command that adds the peer does not fail; and a step that does otherwise
    may leave the peer forgotten. -/
theorem disconnected_in_zset_iff (d : Directory) (p : PeerID) (hp : d.ephemeral p)
    (lists : List (List EphemeralPeer)) (zset : String → Option Int) (as : List Action) (s : State)
    (hok : AllowedRun (step d) (StepAllowed d p) (init lists zset) as)
    (h : run (step d) (init lists zset) as = some s) :
    Good d p s ∧ ∀ a m, step d s a = some m →
      (StepAllowed d p s a ↔ ∀ bs s', AllowedRun (step d) (StepAllowed d p) m bs →
        run (step d) m bs = some s' → Good d p s') :=
  run_good_exact (fun _ _ _ => inv_step hp) (fun _ hI => hI.good) (fun _ _ _ _ => exists_forgotten)
    (inv_init lists zset) hok h

/-- The laptop of the account is ephemeral. -/
def laptop : PeerID := ⟨"laptop", by decide⟩

/-- All peers are ephemeral. -/
def office : Directory where
  accountID := fun _ => "office"
  ephemeral := fun _ => true

/-- The laptop registers with one instance, connects to the other and disconnects from it. -/
def laptopRun : List Action :=
  [.disconnect 0 laptop 10, .redis 0 true, .connect 1 laptop, .redis 1 true,
    .disconnect 1 laptop 20, .redis 1 true]

/-- Every command is carried out, and the laptop is in the set. -/
theorem laptop_in_zset :
    ((run (step office) (init [[], []] (fun _ => none)) laptopRun).map
        (fun s => (s.last laptop, s.zset "laptop|office"))) = some (some .disconnect, some 20) ∧
      ∀ s, run (step office) (init [[], []] (fun _ => none)) laptopRun = some s →
        Good office laptop s :=
  ⟨by decide, fun s h =>
    (disconnected_in_zset_iff office laptop rfl [[], []] (fun _ => none) _ s (by decide) h).1⟩

/-- **A disconnect is forgotten**: the laptop registers with one instance and connects to
    the other, which goes down; when it disconnects from the first, it is still on the
    list there, and nothing is added to the set.  Or the laptop connects and disconnects, and the
    command of the disconnect fails, as it does when the context of the stream is cancelled. -/
theorem disconnect_forgotten :
    ((run (step office) (init [[], []] (fun _ => none))
        [.disconnect 0 laptop 10, .redis 0 true, .connect 1 laptop, .redis 1 true,
          .disconnect 0 laptop 20]).map
      (fun s => (s.last laptop, decide (Quiet s), s.zset "laptop|office",
        decide (Good office laptop s)))) = some (some .disconnect, true, none, false) ∧
    ((run (step office) (init [[]] (fun _ => none))
        [.connect 0 laptop, .redis 0 true, .disconnect 0 laptop 20, .redis 0 false]).map
      (fun s => (s.last laptop, decide (Quiet s), s.zset "laptop|office",
        decide (Good office laptop s)))) = some (some .disconnect, true, none, false) := by
  decide

end Ephemeral

import NetbirdHa.TransitionProofs

/-! # Peer notifications of the relay

The relay keeps the peers that are connected to it in a store.  A connection adds
its peer and then calls `PeerCameOnline`; when it ends it deletes its peer and,
if the store still held this connection, calls `PeerWentOffline`.  A subscriber's
listener queues these events for the peers it is interested in; its loop drains
the queue into a batch and sends the peers of the batch that came online, then
those that went offline.  A subscription is answered from the store, by another
goroutine.

By design a subscription is told once that a peer has come online, and every time
that it has gone.  One subscriber, any number of connections of any peers. -/

namespace RelayNotify

open Transition List Option

/-- An event in the queue of the listener, or a notification about one peer. -/
structure Event (P : Type) where
  peerID : P
  online : Bool
deriving DecidableEq

/-- Where a connection stands: what it does next. -/
inductive Phase where
  | addPeer
  | peerCameOnline
  | work
  | deletePeer
  | peerWentOffline
  | ended
deriving DecidableEq

/-- A connection of a peer. -/
structure Conn (P : Type) where
  id : P
  phase : Phase := .addPeer
deriving DecidableEq

/-- Where the loop of the listener stands. -/
inductive Loop (P : Type) where
  | select
  | drain (peersOnline peersOffline : List P)
  | sendOnline (peersOnline peersOffline : List P)
  | sendOffline (peersOffline : List P)
deriving DecidableEq

/-- The store (`peers` tells the connection of a peer), the connections so far, and the
    subscriber: its listener, the answer to a subscription that is being sent while
    `notificationMutex` is held, and the notifications received. -/
structure State (P : Type) where
  peers : P → Option Nat := fun _ => none
  conns : List (Conn P) := []
  forOnline : P → Bool := fun _ => false
  forOffline : P → Bool := fun _ => false
  eventChan : List (Event P) := []
  loop : Loop P := .select
  answer : Option (List P) := none
  received : List (Event P) := []

/-- The atomic steps. -/
inductive Action (P : Type) where
  | accept (id : P)
  /-- the next step of connection `c`; for one that works, its end. -/
  | conn (c : Nat)
  | subscribe (ids : List P)
  /-- the answer to a subscription is sent. -/
  | answer
  | unsubscribe (ids : List P)
  /-- the next step of the listener's loop. -/
  | loop
deriving DecidableEq

section

variable {P : Type} [DecidableEq P]

section

variable (s : State P) (c : Nat) (k : Conn P) (ids : List P)

/-- The peers came online. -/
def onlineEvents : List (Event P) := ids.map (fun id => ⟨id, true⟩)

/-- The peers went offline. -/
def offlineEvents : List (Event P) := ids.map (fun id => ⟨id, false⟩)

/-- `peerComeOnline`: the interest in a peer's coming online is used up by its event. -/
def peerComeOnline (id : P) : State P :=
  if s.forOnline id then
    { s with
      eventChan := s.eventChan ++ [⟨id, true⟩]
      forOnline := Function.update s.forOnline id false }
  else s

/-- `PeerWentOffline`. -/
def peerWentOffline (id : P) : State P :=
  if s.forOffline id then { s with eventChan := s.eventChan ++ [⟨id, false⟩] } else s

/-- Connection `c` goes on to `phase`. -/
def State.move (phase : Phase) : State P :=
  { s with conns := s.conns.set c { k with phase } }

/-- The next step of connection `c`. -/
def connStep : Option (State P) :=
  match k.phase with
  | .addPeer => some ({ s with peers := Function.update s.peers k.id (some c) }.move c k
      .peerCameOnline)
  | .peerCameOnline => some ((peerComeOnline s k.id).move c k .work)
  | .work => some (s.move c k .deletePeer)
  | .deletePeer =>
    -- a connection that was replaced in the store goes without a word
    if s.peers k.id = some c then
      some ({ s with peers := Function.update s.peers k.id none }.move c k .peerWentOffline)
    else some (s.move c k .ended)
  | .peerWentOffline => some ((peerWentOffline s k.id).move c k .ended)
  | .ended => none

/-- A batch takes in an event. -/
def take (peersOnline peersOffline : List P) (e : Event P) : Loop P :=
  if e.online then .drain (peersOnline ++ [e.peerID]) peersOffline
  else .drain peersOnline (peersOffline ++ [e.peerID])

/-- The next step of `listenForEvents`: it waits for an event, drains the queue, and
    sends the batch.  `sendPeersWentOffline` takes `notificationMutex`. -/
def loopStep : Option (State P) :=
  match s.loop, s.eventChan with
  | .select, [] => none
  | .select, e :: es => some { s with eventChan := es, loop := take [] [] e }
  | .drain on off, e :: es => some { s with eventChan := es, loop := take on off e }
  | .drain on off, [] => some { s with loop := .sendOnline on off }
  | .sendOnline on off, _ =>
    some { s with received := s.received ++ onlineEvents on, loop := .sendOffline off }
  | .sendOffline off, _ =>
    if off = [] ∨ s.answer = none then
      some { s with received := s.received ++ offlineEvents off, loop := .select }
    else none

/-- `GetOnlinePeersAndRegisterInterest`, under `notificationMutex`: the answer is sent
    in a step of its own. -/
def subscribe : State P :=
  let onlinePeers := ids.filter fun id => (s.peers id).isSome
  { s with
    forOnline := fun id => s.forOnline id || decide (id ∈ ids)
    forOffline := fun id => s.forOffline id || decide (id ∈ ids)
    answer := if onlinePeers = [] then none else some onlinePeers }

/-- `RemoveInterestedPeer`. -/
def removeInterestedPeer : State P :=
  { s with
    forOnline := fun id => s.forOnline id && !decide (id ∈ ids)
    forOffline := fun id => s.forOffline id && !decide (id ∈ ids) }

/-- One atomic step; `none` when it is not enabled.  The subscriber's messages are
    handled one after another. -/
def step : Action P → Option (State P)
  | .accept id => some { s with conns := s.conns ++ [{ id }] }
  | .conn c => (s.conns[c]?).bind (connStep s c)
  | .subscribe ids => if s.answer = none then some (subscribe s ids) else none
  | .answer => s.answer.map (fun ids =>
    { s with answer := none, received := s.received ++ onlineEvents ids })
  | .unsubscribe ids => if s.answer = none then some (removeInterestedPeer s ids) else none
  | .loop => loopStep s

end

/-- What the last of a list of events about `x` says. -/
def lastAbout (x : P) (es : List (Event P)) : Option Bool :=
  (es.filter (·.peerID == x)).getLast?.map Event.online

/-- Everything about `x` has been delivered. -/
structure Delivered (x : P) (s : State P) : Prop where
  conns : ∀ k ∈ s.conns, k.id = x → k.phase ≠ .peerCameOnline ∧ k.phase ≠ .peerWentOffline
  eventChan : s.eventChan = []
  loop : s.loop = .select
  answer : s.answer = none

/-! ## Where the order of events is kept -/

/-- The peers of the batch that went offline. -/
def Loop.offline : Loop P → List P
  | .select => []
  | .drain _ off | .sendOnline _ off | .sendOffline off => off

/-- … and those that came online and are still to be sent. -/
def Loop.online : Loop P → List P
  | .drain on _ | .sendOnline on _ => on
  | .select | .sendOffline _ => []

/-- The peers that went offline of a batch that is being drained. -/
def Loop.draining : Loop P → List P
  | .drain _ off => off
  | .select | .sendOnline _ _ | .sendOffline _ => []

/-- The events of the listener that are still to be sent. -/
def State.undelivered (s : State P) : List (Event P) :=
  onlineEvents s.loop.online ++ offlineEvents s.loop.offline ++ s.eventChan

/-- The connection of `x` in the store is about to call `PeerCameOnline`. -/
def OnlineComing (x : P) (s : State P) : Prop :=
  ∃ c ∈ s.peers x, ∃ k ∈ s.conns[c]?, k.phase = .peerCameOnline
deriving Decidable

/-- A connection of `x` is about to call `PeerWentOffline`. -/
def OfflineComing (x : P) (s : State P) : Prop :=
  ∃ k ∈ s.conns, k.id = x ∧ k.phase = .peerWentOffline

/-- The schedules that keep the order of events about `x`, by a condition on each step in the state
    before it: `PeerCameOnline` is called while `x` is in the store or its `PeerWentOffline` is to
    come; `PeerWentOffline` is called while `x` is not in the store or its `PeerCameOnline` is to
    come; a subscription finds no `x` in the store whose going offline is the last event to be sent;
    and the loop takes no online event into a batch after an offline event.  The subscriber stays
    subscribed. -/
def InOrder (x : P) (s : State P) : Action P → Prop
  | .conn c => ∀ k, s.conns[c]? = some k → k.id = x →
      (k.phase = .peerCameOnline → s.forOnline x → s.peers x = none → OfflineComing x s) ∧
      (k.phase = .peerWentOffline → s.forOnline x → s.peers x ≠ none → OnlineComing x s)
  | .subscribe ids => x ∈ ids → s.peers x ≠ none → lastAbout x s.undelivered = some false →
      OnlineComing x s
  | .unsubscribe ids => x ∉ ids
  | .loop => s.eventChan.head? = some ⟨x, true⟩ → x ∉ s.loop.draining
  | .accept _ | .answer => True

instance (x : P) (s : State P) : Decidable (OfflineComing x s) :=
  inferInstanceAs (Decidable (∃ k ∈ s.conns, k.id = x ∧ k.phase = .peerWentOffline))

instance (x : P) (s : State P) : (a : Action P) → Decidable (InOrder x s a)
  | .conn c => inferInstanceAs (Decidable (∀ k ∈ s.conns[c]?, k.id = x →
      (k.phase = .peerCameOnline → s.forOnline x → s.peers x = none → OfflineComing x s) ∧
      (k.phase = .peerWentOffline → s.forOnline x → s.peers x ≠ none → OnlineComing x s)))
  | .subscribe ids => inferInstanceAs (Decidable (x ∈ ids → s.peers x ≠ none →
      lastAbout x s.undelivered = some false → OnlineComing x s))
  | .unsubscribe ids => inferInstanceAs (Decidable (x ∉ ids))
  | .loop => inferInstanceAs (Decidable (s.eventChan.head? = some ⟨x, true⟩ → x ∉ s.loop.draining))
  | .accept _ | .answer => isTrue trivial

end

/-! ## The last event about a peer -/

section

variable {P : Type} [DecidableEq P] {x : P}

@[simp] theorem lastAbout_nil : lastAbout x ([] : List (Event P)) = none := rfl

/-- The later events speak last. -/
@[simp] theorem lastAbout_append (es fs : List (Event P)) :
    lastAbout x (es ++ fs) = (lastAbout x fs).or (lastAbout x es) := by
  rw [lastAbout, filter_append, List.getLast?_append, lastAbout]
  cases (fs.filter (·.peerID == x)).getLast? <;> rfl

theorem lastAbout_singleton (e : Event P) :
    lastAbout x [e] = if e.peerID = x then some e.online else none := by
  by_cases h : e.peerID = x <;> simp [lastAbout, h]

/-- The last event of a list whose events all say the same. -/
theorem lastAbout_map (b : Bool) (ids : List P) :
    lastAbout x (ids.map (fun id => ⟨id, b⟩)) = if x ∈ ids then some b else none := by
  induction ids with
  | nil => rfl
  | cons id ids ih => grind [lastAbout]

@[simp] theorem lastAbout_onlineEvents (ids : List P) :
    lastAbout x (onlineEvents ids) = if x ∈ ids then some true else none := lastAbout_map true ids

@[simp] theorem lastAbout_offlineEvents (ids : List P) :
    lastAbout x (offlineEvents ids) = if x ∈ ids then some false else none :=
  lastAbout_map false ids

end

/-! ## The invariant

What counts is the last event about `x` once all that is under way is delivered. -/

section

variable {P : Type} [DecidableEq P] {x : P} {s s' : State P}

/-- The notifications received, those of an answer under way, and the events of the listener. -/
def State.pipeline (s : State P) : List (Event P) :=
  s.received ++ onlineEvents (s.answer.getD []) ++ s.undelivered

/-- If the last event about `x` says online, `x` is in the store or its going offline
    is to come; if it says offline, `x` is not in the store, or its coming online is
    to come, or the subscription has used up its interest in that. -/
structure Inv (x : P) (s : State P) : Prop where
  entry : ∀ c, s.peers x = some c → ∃ k, s.conns[c]? = some k ∧ k.id = x
  unsub : s.forOffline x = false → s.forOnline x = false ∧ lastAbout x s.pipeline = none
  online : lastAbout x s.pipeline = some true → s.peers x ≠ none ∨ OfflineComing x s
  offline : lastAbout x s.pipeline = some false → s.peers x ≠ none → s.forOnline x →
    OnlineComing x s

/-- Nothing has happened yet. -/
theorem inv_init : Inv x ({} : State P) := ⟨nofun, fun _ => ⟨rfl, rfl⟩, nofun, nofun⟩

/-- A step that changes nothing about `x`. -/
theorem Inv.same (hI : Inv x s) (hl : lastAbout x s'.pipeline = lastAbout x s.pipeline)
    (hpe : s'.peers x = s.peers x) (hol : s'.forOnline x = s.forOnline x)
    (hof : s'.forOffline x = s.forOffline x)
    (he : ∀ (c : Nat) k, s.conns[c]? = some k → k.id = x → ∃ k', s'.conns[c]? = some k' ∧ k'.id = x)
    (hon : OnlineComing x s → OnlineComing x s') (hoff : OfflineComing x s → OfflineComing x s') :
    Inv x s' := by
  constructor
  all_goals grind [cases RelayNotify.Inv]

/-- What the subscriber will have heard last, stage by stage. -/
theorem lastAbout_pipeline : lastAbout x s.pipeline = (lastAbout x s.eventChan).or
      ((lastAbout x (onlineEvents s.loop.online ++ offlineEvents s.loop.offline)).or
        (lastAbout x (s.received ++ onlineEvents (s.answer.getD [])))) := by
  rw [State.pipeline, State.undelivered, ← append_assoc, lastAbout_append, lastAbout_append]

/-! ### The loop -/

/-- The loop's batches say what the event said. -/
theorem lastAbout_take (h : e = ⟨x, true⟩ → x ∉ off) :
    lastAbout x (onlineEvents (take on off e).online ++ offlineEvents (take on off e).offline) =
      (lastAbout x [e]).or (lastAbout x (onlineEvents on ++ offlineEvents off)) := by
  obtain ⟨id, b⟩ := e
  cases b with
  | false =>
    by_cases hi : id = x
    · simp [take, Loop.online, Loop.offline, lastAbout_singleton, hi]
    · simp [take, Loop.online, Loop.offline, lastAbout_singleton, hi, Ne.symm hi]
  | true =>
    by_cases hi : id = x
    · have ho : x ∉ off := h (by rw [hi])
      simp [take, Loop.online, Loop.offline, lastAbout_singleton, hi, ho]
    · simp [take, Loop.online, Loop.offline, lastAbout_singleton, hi, Ne.symm hi]

/-- Taking an event into the batch leaves the last one about `x` the last. -/
theorem lastAbout_taken (hc : s.eventChan = e :: es) (h : e = ⟨x, true⟩ → x ∉ s.loop.offline) :
    lastAbout x ({ s with eventChan := es, loop := take s.loop.online s.loop.offline e } :
      State P).pipeline = lastAbout x s.pipeline := by
  rw [lastAbout_pipeline, lastAbout_pipeline, hc, ← List.singleton_append, lastAbout_append [e] es,
    lastAbout_take h]
  simp only [Option.or_assoc]

/-- The loop keeps the order of the events about `x`. -/
theorem lastAbout_loopStep (hok : InOrder x s .loop) (h : loopStep s = some s') :
    lastAbout x s'.pipeline = lastAbout x s.pipeline := by
  unfold loopStep at h
  split at h
  · cases h
  · rename_i e es hl hc
    cases h
    have hta := lastAbout_taken (x := x) hc (by rw [hl]; exact fun _ => not_mem_nil)
    rw [hl] at hta
    exact hta
  · rename_i on off e es hl hc
    cases h
    have hta := lastAbout_taken (x := x) hc
      (fun he => by
        have hn := hok (by rw [hc, he]; rfl)
        rw [hl] at hn ⊢
        exact hn)
    rw [hl] at hta
    exact hta
  · rename_i on off hl hc
    cases h
    rw [lastAbout_pipeline, lastAbout_pipeline, hl]
    rfl
  · rename_i on off hl
    cases h
    rw [lastAbout_pipeline, lastAbout_pipeline, hl]
    -- the answer under way says online too
    simp only [Loop.online, Loop.offline, lastAbout_append, lastAbout_onlineEvents]
    by_cases hon : x ∈ on <;> by_cases ha : x ∈ s.answer.getD [] <;> simp [hon, ha]
  · rename_i off hl
    obtain ⟨hf, h⟩ := ite_none_right_eq_some.mp h
    cases h
    rw [lastAbout_pipeline, lastAbout_pipeline, hl]
    rcases hf with ho | ha
    · rw [ho]
      simp [Loop.online, Loop.offline, offlineEvents]
    · rw [ha]
      simp [Loop.online, Loop.offline]

omit [DecidableEq P] in
/-- The loop touches neither peers nor subscriptions. -/
theorem loopStep_frame (h : loopStep s = some s') : s'.peers = s.peers ∧ s'.conns = s.conns ∧
    s'.forOnline = s.forOnline ∧ s'.forOffline = s.forOffline := by
  grind [loopStep]

/-! ### The connections -/

/-- An event in the queue comes after all that is under way. -/
theorem lastAbout_push (e : Event P) :
    lastAbout x ({ s with eventChan := s.eventChan ++ [e] } : State P).pipeline =
      (lastAbout x [e]).or (lastAbout x s.pipeline) := by
  rw [lastAbout_pipeline, lastAbout_pipeline, lastAbout_append, Option.or_assoc]

/-- An event about another peer says nothing about this one. -/
theorem lastAbout_push_other (hn : e.peerID ≠ x) :
    lastAbout x ({ s with eventChan := s.eventChan ++ [e] } : State P).pipeline =
      lastAbout x s.pipeline := by
  rw [lastAbout_push, lastAbout_singleton, if_neg hn, none_or]

section

variable {c : Nat} {k : Conn P} {phase : Phase}

variable (hI : Inv x s) (hk : s.conns[c]? = some k)

include hk

omit [DecidableEq P] in
/-- Other connections' moves leave an offline event to come. -/
theorem OfflineComing.moved (hn : k.phase = .peerWentOffline → k.id ≠ x)
    (hc : s'.conns = s.conns.set c { k with phase })
    (h : OfflineComing x s) : OfflineComing x s' := by
  obtain ⟨k', hk', hi, hp⟩ := h
  obtain ⟨c', hc'⟩ := mem_iff_getElem?.mp hk'
  have hcc : c' ≠ c := by
    rintro rfl
    cases hk.symm.trans hc'
    exact hn hp hi
  refine ⟨k', mem_iff_getElem?.mpr ⟨c', ?_⟩, hi, hp⟩
  rw [hc, getElem?_set_of_some hk, if_neg hcc, hc']

omit [DecidableEq P] in
theorem id_moved (hc : s'.conns = s.conns.set c { k with phase })
    (c' : Nat) (k' : Conn P) (hk' : s.conns[c']? = some k') (hi : k'.id = x) :
    ∃ k'', s'.conns[c']? = some k'' ∧ k''.id = x := by
  rw [hc, getElem?_set_of_some hk]
  split
  · rename_i hcc
    rw [hcc] at hk'
    cases hk.symm.trans hk'
    exact ⟨_, rfl, hi⟩
  · exact ⟨k', hk', hi⟩

include hI

/-- Other connections' moves leave an online event to come. -/
theorem OnlineComing.moved (hn : k.phase = .peerCameOnline → k.id ≠ x)
    (hpe : s'.peers x = s.peers x)
    (hc : s'.conns = s.conns.set c { k with phase }) (h : OnlineComing x s) :
    OnlineComing x s' := by
  obtain ⟨c', hc', k', hk', hp⟩ := h
  have hcc : c' ≠ c := by
    rintro rfl
    cases hk.symm.trans hk'
    obtain ⟨k'', hk'', hi⟩ := hI.entry c' hc'
    cases hk.symm.trans hk''
    exact hn hp hi
  refine ⟨c', hpe.trans hc', k', ?_, hp⟩
  rw [hc, getElem?_set_of_some hk, if_neg hcc]
  exact hk'

theorem Inv.entry_moved (hc : s'.conns = s.conns.set c { k with phase }) (c' : Nat)
    (hp : s.peers x = some c') :
    ∃ k', s'.conns[c']? = some k' ∧ k'.id = x := by
  obtain ⟨k', hk', hi⟩ := hI.entry c' hp
  exact id_moved hk hc c' k' hk' hi

/-- A connection takes a step that changes nothing else about `x`. -/
theorem Inv.moved (hc : s'.conns = s.conns.set c { k with phase })
    (hn : k.id = x → k.phase ≠ .peerCameOnline ∧ k.phase ≠ .peerWentOffline)
    (hl : lastAbout x s'.pipeline = lastAbout x s.pipeline) (hpe : s'.peers x = s.peers x)
    (hon : s'.forOnline x = s.forOnline x) (ho : s'.forOffline x = s.forOffline x) : Inv x s' :=
  hI.same hl hpe hon ho (id_moved hk hc)
    (OnlineComing.moved hI hk (fun hp hi => (hn hi).1 hp) hpe hc)
    (OfflineComing.moved hk (fun hp hi => (hn hi).2 hp) hc)

/-- Entering the peer. -/
theorem inv_addPeer :
    Inv x ({ s with peers := Function.update s.peers k.id (some c) }.move c k .peerCameOnline) := by
  by_cases hi : k.id = x
  · have hp : Function.update s.peers k.id (some c) x = some c := by rw [hi, Function.update_self]
    have hset : (s.conns.set c { k with phase := .peerCameOnline })[c]? =
        some { k with phase := .peerCameOnline } := by
      rw [getElem?_set_of_some hk, if_pos rfl]
    refine ⟨fun c' hc' => ?_, hI.unsub, fun _ => .inl ?_, fun _ _ _ => ?_⟩
    · cases hp.symm.trans hc'
      exact ⟨_, hset, hi⟩
    · exact fun hn => nomatch hp.symm.trans hn
    · exact ⟨c, hp, _, hset, rfl⟩
  · exact hI.moved hk rfl (absurd · hi) rfl (Function.update_of_ne (Ne.symm hi) _ _) rfl rfl

/-- Telling that the peer came online. -/
theorem inv_peerCameOnline (hok : InOrder x s (.conn c))
    (hph : k.phase = .peerCameOnline) : Inv x ((peerComeOnline s k.id).move c k .work) := by
  by_cases hid : k.id = x
  · have ho : ∀ {s'' : State P}, s''.conns = s.conns.set c { k with phase := .work } →
        OfflineComing x s → OfflineComing x s'' := fun hc =>
      OfflineComing.moved hk (fun hp => nomatch hph.symm.trans hp) hc
    rw [peerComeOnline, hid]
    split
    · rename_i hi
      have hus : Function.update s.forOnline x false x = false := Function.update_self ..
      refine ⟨hI.entry_moved hk rfl, fun hu => ?_, fun _ => ?_, fun _ _ hon => ?_⟩
      · cases hi.symm.trans (hI.unsub hu).1
      · by_cases hpe : s.peers x = none
        · exact .inr (ho rfl ((hok k hk hid).1 hph hi hpe))
        · exact .inl hpe
      · cases hus.symm.trans hon
    · rename_i hi
      exact ⟨hI.entry_moved hk rfl, hI.unsub, fun h => (hI.online h).imp_right (ho rfl),
        fun _ _ hon => absurd hon hi⟩
  · rw [peerComeOnline]
    split
    · refine hI.moved hk rfl (absurd · hid) ?_ rfl (Function.update_of_ne (Ne.symm hid) _ _) rfl
      exact lastAbout_push_other (s := s) (e := ⟨k.id, true⟩) hid
    · exact hI.moved hk rfl (absurd · hid) rfl rfl rfl rfl

/-- Removing the peer. -/
theorem inv_deletePeer :
    Inv x ({ s with peers := Function.update s.peers k.id none }.move c k .peerWentOffline) := by
  by_cases hi : k.id = x
  · have hpe : Function.update s.peers k.id none x = none := by rw [hi, Function.update_self]
    refine ⟨fun c' hc' => (nomatch hpe.symm.trans hc'), hI.unsub, fun _ => .inr ?_,
      fun _ hp => absurd hpe hp⟩
    refine ⟨{ k with phase := .peerWentOffline }, mem_iff_getElem?.mpr ⟨c, ?_⟩, hi, rfl⟩
    exact (getElem?_set_of_some hk _ c).trans (if_pos rfl)
  · exact hI.moved hk rfl (absurd · hi) rfl (Function.update_of_ne (Ne.symm hi) _ _) rfl rfl

/-- Telling that the peer went offline. -/
theorem inv_peerWentOffline (hok : InOrder x s (.conn c))
    (hph : k.phase = .peerWentOffline) : Inv x ((peerWentOffline s k.id).move c k .ended) := by
  by_cases hid : k.id = x
  · rw [peerWentOffline, hid]
    split
    · rename_i hi
      have hl : lastAbout x ({ s with eventChan := s.eventChan ++ [⟨x, false⟩] } :
          State P).pipeline = some false := by
        rw [lastAbout_push, lastAbout_singleton, if_pos rfl, some_or]
      refine ⟨hI.entry_moved hk rfl, fun hu => (nomatch hi.symm.trans hu),
        fun h => (nomatch hl.symm.trans h), fun _ hp ho => ?_⟩
      exact OnlineComing.moved hI hk (fun h => nomatch hph.symm.trans h) rfl rfl
        ((hok k hk hid).2 hph ho hp)
    · rename_i hi
      obtain ⟨ho, hn⟩ := hI.unsub (Bool.not_eq_true _ ▸ hi)
      exact ⟨hI.entry_moved hk rfl, hI.unsub, fun h => (nomatch hn.symm.trans h),
        fun h => (nomatch hn.symm.trans h)⟩
  · rw [peerWentOffline]
    split
    · refine hI.moved hk rfl (absurd · hid) ?_ rfl rfl rfl
      exact lastAbout_push_other (s := s) (e := ⟨k.id, false⟩) hid
    · exact hI.moved hk rfl (absurd · hid) rfl rfl rfl rfl

/-- A connection's step, by its phase. -/
theorem inv_conn (ho : InOrder x s (.conn c)) (h : connStep s c k = some s') : Inv x s' := by
  unfold connStep at h
  split at h
  · cases h
    exact inv_addPeer hI hk
  · rename_i hp
    cases h
    exact inv_peerCameOnline hI hk ho hp
  · rename_i hp
    cases h
    exact hI.moved hk rfl (fun _ => by rw [hp]; exact ⟨nofun, nofun⟩) rfl rfl rfl rfl
  · rename_i hp
    split at h
    · cases h
      exact inv_deletePeer hI hk
    · cases h
      exact hI.moved hk rfl (fun _ => by rw [hp]; exact ⟨nofun, nofun⟩) rfl rfl rfl rfl
  · rename_i hp
    cases h
    exact inv_peerWentOffline hI hk ho hp
  · cases h

end

/-! ### The subscriber -/

/-- A subscription is answered with who is online. -/
theorem inv_subscribe (hI : Inv x s) (ho : InOrder x s (.subscribe ids))
    (hf : s.answer = none) : Inv x (subscribe s ids) := by
  have ha : (subscribe s ids).answer.getD [] = ids.filter (fun id => (s.peers id).isSome) := by
    rw [subscribe]
    split
    · rename_i hnil
      exact hnil.symm
    · rfl
  have hl : lastAbout x (subscribe s ids).pipeline = (lastAbout x s.undelivered).or
        (if x ∈ ids ∧ (s.peers x).isSome then some true else lastAbout x s.received) := by
    rw [State.pipeline, ha]
    show lastAbout x (s.received ++ _ ++ s.undelivered) = _
    rw [lastAbout_append, lastAbout_append, lastAbout_onlineEvents]
    simp only [mem_filter]
    split <;> simp
  have hold : lastAbout x s.pipeline = (lastAbout x s.undelivered).or (lastAbout x s.received) := by
    rw [State.pipeline, hf]
    simp [onlineEvents]
  by_cases hx : x ∈ ids
  · have hsu : ∀ b, (b || decide (x ∈ ids)) = true := fun b => by simp [hx]
    cases hpe : s.peers x with
    | none =>
      have hs : lastAbout x (subscribe s ids).pipeline = lastAbout x s.pipeline := by
        rw [hl, hold, hpe]
        simp
      refine ⟨hI.entry, fun h => ?_, fun h => hI.online (hs ▸ h), fun _ hp => ?_⟩
      · cases (hsu _).symm.trans h
      · exact absurd hpe hp
    | some c =>
      refine ⟨hI.entry, fun h => ?_, fun _ => .inl ?_, fun h _ _ => ?_⟩
      · cases (hsu _).symm.trans h
      · exact fun hn => nomatch hpe.symm.trans hn
      · rw [hl, hpe] at h
        refine ho hx (by rw [hpe]; nofun) ?_
        cases hu : lastAbout x s.undelivered with
        | none => simp [hu, hx] at h
        | some b => simpa [hu] using h
  · refine hI.same ?_ rfl ?_ ?_ (fun c k hk hi => ⟨k, hk, hi⟩) id id
    · rw [hl, hold]
      simp [hx]
    · simp [subscribe, hx]
    · simp [subscribe, hx]

/-- **One step** in order keeps the invariant. -/
theorem inv_step (hI : Inv x s) (hok : InOrder x s a) (h : step s a = some s') : Inv x s' := by
  cases a with
  | accept id =>
    cases h
    refine hI.same rfl rfl rfl rfl (fun c k hk hid => ⟨k, ?_, hid⟩) ?_ ?_
    · rw [List.getElem?_append_left (List.getElem?_eq_some_iff.mp hk).1, hk]
    · rintro ⟨c, hc, k, hk, hp⟩
      refine ⟨c, hc, k, ?_, hp⟩
      show (s.conns ++ [_])[c]? = some k
      rw [List.getElem?_append_left (List.getElem?_eq_some_iff.mp hk).1]
      exact hk
    · rintro ⟨k, hk, hid, hp⟩
      exact ⟨k, mem_append_left _ hk, hid, hp⟩
  | conn c =>
    obtain ⟨k, hk, h⟩ := bind_eq_some_iff.mp h
    exact inv_conn hI hk hok h
  | subscribe ids =>
    obtain ⟨hf, h⟩ := ite_none_right_eq_some.mp h
    cases h
    exact inv_subscribe hI hok hf
  | answer =>
    obtain ⟨ids, hi, rfl⟩ := map_eq_some_iff.mp h
    refine hI.same ?_ rfl rfl rfl (fun c k hk hid => ⟨k, hk, hid⟩) id id
    rw [lastAbout_pipeline, lastAbout_pipeline, hi]
    simp [onlineEvents]
  | unsubscribe ids =>
    obtain ⟨hf, h⟩ := ite_none_right_eq_some.mp h
    cases h
    have hx : x ∉ ids := hok
    refine hI.same rfl rfl ?_ ?_ (fun c k hk hid => ⟨k, hk, hid⟩) id id <;>
    simp [removeInterestedPeer, hx]
  | loop =>
    have hl := lastAbout_loopStep hok h
    obtain ⟨hpe, hco, hon, ho⟩ := loopStep_frame h
    refine hI.same hl (by rw [hpe]) (by rw [hon]) (by rw [ho])
      (fun c k hk hid => ⟨k, by rw [hco, hk], hid⟩) ?_ ?_
    · rw [OnlineComing, OnlineComing, hpe, hco]
      exact id
    · rw [OfflineComing, OfflineComing, hco]
      exact id

end

/-- **What the subscriber was told last.**  In a run that keeps the order of the events about
    `x`, once everything about `x` is delivered: if the last notification says
    online, `x` is in the store; if it says offline, `x` is not in the store or the
    subscription has used up its one notification that `x` is online. -/
theorem last_notification {P : Type} [DecidableEq P] (x : P) (as : List (Action P)) (s : State P)
    (hok : AllowedRun step (InOrder x) {} as) (h : run step {} as = some s) (hdel : Delivered x s) :
    (lastAbout x s.received = some true → s.peers x ≠ none) ∧
      (lastAbout x s.received = some false → s.peers x = none ∨ s.forOnline x = false) := by
  have hi : Inv x s := run_invariant (fun _ _ _ => inv_step) as {} s inv_init hok h
  have hl : lastAbout x s.pipeline = lastAbout x s.received := by
    rw [lastAbout_pipeline, hdel.eventChan, hdel.loop, hdel.answer]
    simp [Loop.online, Loop.offline, onlineEvents, offlineEvents]
  rw [← hl]
  constructor
  · intro h
    refine (hi.online h).resolve_right ?_
    rintro ⟨k, hk, hid, hp⟩
    exact (hdel.conns k hk hid).2 hp
  · intro h
    by_contra hboth
    rw [not_or, Bool.not_eq_false] at hboth
    obtain ⟨c, hc, k, hk, hp⟩ := hi.offline h hboth.1 hboth.2
    obtain ⟨k', hk', hid⟩ := hi.entry c hc
    cases hk'.symm.trans hk
    exact (hdel.conns k (mem_of_getElem? hk) hid).1 hp

/-- The steps of the loop that deliver one event. -/
def deliver : List (Action Nat) := [.loop, .loop, .loop, .loop]

/-- A subscriber is told that peer 7 came online, that it went offline and, as it
    subscribes again, that it came online again. -/
theorem last_notification_resubscribed :
    ∃ s, run step {} ([.subscribe [7], .accept 7, .conn 0, .conn 0] ++ deliver ++
        [.conn 0, .conn 0, .conn 0] ++ deliver ++
        [.subscribe [7], .accept 7, .conn 1, .conn 1] ++ deliver) = some s ∧
      lastAbout 7 s.received = some true ∧ s.peers 7 ≠ none := by
  refine ⟨_, rfl, rfl, (last_notification 7 ([.subscribe [7], .accept 7, .conn 0, .conn 0] ++
    deliver ++ [.conn 0, .conn 0, .conn 0] ++ deliver ++
    [.subscribe [7], .accept 7, .conn 1, .conn 1] ++ deliver) _ (by decide) rfl ?_).1 rfl⟩
  exact ⟨by decide, rfl, rfl, rfl⟩

/-- A subscriber that does not subscribe again is not told that the peer came online again: every
    event is delivered in order, and the last notification says offline. -/
theorem online_told_once :
    AllowedRun step (InOrder 7) {} ([.subscribe [7], .accept 7, .conn 0, .conn 0] ++ deliver ++
        [.conn 0, .conn 0, .conn 0] ++ deliver ++ [.accept 7, .conn 1, .conn 1]) ∧
    ∃ s, run step {} ([.subscribe [7], .accept 7, .conn 0, .conn 0] ++ deliver ++
        [.conn 0, .conn 0, .conn 0] ++ deliver ++ [.accept 7, .conn 1, .conn 1]) = some s ∧
      Delivered 7 s ∧ lastAbout 7 s.received = some false ∧ s.peers 7 ≠ none :=
  ⟨by decide, _, rfl, ⟨by decide, rfl, rfl, rfl⟩, rfl, nofun⟩

end RelayNotify

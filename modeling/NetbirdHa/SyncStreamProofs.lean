import NetbirdHa.TransitionProofs

/-! # Sync streams and update channels

A peer's `Sync` stream takes the peer's lock, marks the peer connected, sends the
first network map, creates the peer's update channel and gives the lock back.
Then it serves updates until its channel is closed, an update cannot be sent or
the client goes away; `cancelPeerRoutines` takes the lock again, marks the peer
disconnected and closes the peer's channel.

`PeersUpdateManager` keeps one channel per peer ID.  `CreateChannel` closes the
channel it replaces and `CloseChannel` closes whatever channel is there.

The streams of one peer on one instance.  A channel is named by the stream it was
created for, and is open as long as it is in the map. -/

namespace SyncStream

open Transition List Option

/-- Where a stream stands: what it does next. -/
inductive Phase where
  /-- `acquirePeerLockByUID` at the beginning of `Sync`. -/
  | lock
  | syncPeer
  | markConnected
  | sendInitialSync
  | onPeerConnected
  | unlock
  /-- In the loop of `handleUpdates`. -/
  | serving
  /-- `acquirePeerLockByUID` in `cancelPeerRoutines`. -/
  | cancel
  /-- `cancelPeerRoutinesWithoutLock`: the look at `LastSeen`. -/
  | checkLastSeen
  | markDisconnected
  | closeChannel
  /-- The deferred `unlock`. -/
  | ret
  | ended
deriving DecidableEq

/-- The channel of the peer is closed for good, as far as this stream is concerned. -/
def Phase.over : Phase → Bool
  | .ret | .ended => true
  | _ => false

/-- A `Sync` stream: `start` is its `syncStart`, `locked` says that its `unlock` gives a
    lock back. -/
structure Stream where
  start : Int
  phase : Phase := .lock
  locked : Bool := false
deriving DecidableEq

/-- The end of a stream closed a channel. -/
structure Close where
  closer : Nat
  owner : Nat
deriving DecidableEq

/-- What the streams of the peer share: the peer's lock, its status and its entry of `peerChannels`.
    `closes` is the history of the channels closed by streams that ended. -/
structure Shared where
  lock : Bool := false
  lastSeen : Int := 0
  connected : Bool := false
  channel : Option Nat := none
  closes : List Close := []
deriving DecidableEq

/-- What the streams share, and the streams. -/
structure State where
  shared : Shared := {}
  streams : List Stream := []
deriving DecidableEq

/-- What a stream does in one step; the arguments say how it comes out. -/
inductive Op where
  | acquire (got : Bool)
  | syncPeer (ok : Bool)
  | markConnected (ok : Bool)
  | sendInitialSync (ok : Bool)
  | onPeerConnected (ok : Bool)
  | unlock (ok : Bool)
  /-- the stream's channel is found closed. -/
  | channelClosed
  /-- the client has gone away, or an update could not be sent. -/
  | streamDone
  | checkLastSeen (ok : Bool)
  | markDisconnected (ok : Bool) (now : Int)
  | closeChannel
deriving DecidableEq

/-- What can happen on the server. -/
inductive Action where
  /-- a `Sync` request comes in. -/
  | sync (start : Int)
  | stream (k : Nat) (op : Op)
  /-- `DisconnectPeers`. -/
  | closeChannels
  /-- the lock's TTL runs out. -/
  | expire
deriving DecidableEq

/-! ## The steps -/

section

variable (s : State) (d : Shared) (c : Stream) (ok : Bool)

/-- `acquirePeerLockByUID`: without the lock the stream goes on all the same.  A lock
    that is no lock (`NoopLock`) is a lock that is never got. -/
def acquire (got : Bool) (next : Phase) : Option (Shared × Stream) :=
  if got then
    if d.lock then none
    else some ({ d with lock := true }, { c with locked := true, phase := next })
  else some (d, { c with locked := false, phase := next })

/-- `unlock`: the record of the lock holds the ID of the instance, so it goes whichever
    stream of the instance created it. -/
def release : Shared :=
  if c.locked && ok then { d with lock := false } else d

/-- `MarkPeerConnected` with `connected` set. -/
def markConnected (syncTime : Int) (ok : Bool) : Shared :=
  if ok && decide (d.lastSeen < syncTime) then { d with lastSeen := syncTime, connected := true }
  else d

/-- … and with `connected` not set. -/
def markDisconnected (now : Int) : Shared :=
  if ok then { d with lastSeen := now, connected := false } else d

/-- `CreateChannel`: the channel that was there is closed and replaced. -/
def createChannel (k : Nat) : Shared := { d with channel := some k }

/-- `CloseChannel`, at the end of stream `k`. -/
def closeChannel (k : Nat) : Shared :=
  { d with channel := none, closes := d.closes ++ (d.channel.map (Close.mk k)).toList }

/-- What stream `k` does in a step. -/
def advance (k : Nat) (d : Shared) (c : Stream) (op : Op) : Option (Shared × Stream) :=
  match c.phase, op with
  | .lock, .acquire got => acquire d c got .syncPeer
  | .syncPeer, .syncPeer ok => some (d, { c with phase := if ok then .markConnected else .ret })
  | .markConnected, .markConnected ok =>
    some (markConnected d c.start ok, { c with phase := .sendInitialSync })
  | .sendInitialSync, .sendInitialSync ok =>
    some (d, { c with phase := if ok then .onPeerConnected else .checkLastSeen })
  | .onPeerConnected, .onPeerConnected true => some (createChannel d k, { c with phase := .unlock })
  | .onPeerConnected, .onPeerConnected false => some (d, { c with phase := .checkLastSeen })
  | .unlock, .unlock ok => some (release d c ok, { c with locked := false, phase := .serving })
  | .serving, .channelClosed =>
    if d.channel = some k then none else some (d, { c with phase := .cancel })
  | .serving, .streamDone => some (d, { c with phase := .cancel })
  | .cancel, .acquire got => acquire d c got .checkLastSeen
  | .checkLastSeen, .checkLastSeen ok =>
    -- a peer seen since the stream started is not marked disconnected
    some (d, { c with phase :=
      if ok && !decide (c.start < d.lastSeen) then .markDisconnected else .closeChannel })
  | .markDisconnected, .markDisconnected ok now =>
    some (markDisconnected d ok now, { c with phase := .closeChannel })
  | .closeChannel, .closeChannel => some (closeChannel d k, { c with phase := .ret })
  | .ret, .unlock ok => some (release d c ok, { c with locked := false, phase := .ended })
  | _, _ => none

/-- One atomic step; `none` when it is not enabled. -/
def step : Action → Option State
  | .sync start => some { s with streams := s.streams ++ [{ start }] }
  | .stream k op =>
    (s.streams[k]?).bind (fun c => (advance k s.shared c op).map (fun r =>
        { shared := r.1, streams := s.streams.set k r.2 }))
  | .closeChannels => some { s with shared := { s.shared with channel := none } }
  | .expire => some { s with shared := { s.shared with lock := false } }

/-- A peer that was last seen at `seen`, before its first stream on this instance. -/
def State.init (seen : Int) (connected : Bool) : State :=
  { shared := { lastSeen := seen, connected } }

/-- No stream's end has closed the channel of a newer stream. -/
def Clean : Prop :=
  ∀ e ∈ s.shared.closes, ¬ e.closer < e.owner
deriving Decidable

/-- The condition on a step, in the state before it: a stream creates its channel only
    when every older stream has closed the peer's channel or has ended without. -/
def StepAllowed : Action → Prop
  | .stream j (.onPeerConnected true) => ∀ c ∈ s.streams.take j, c.phase.over
  | _ => True

end

instance (s : State) : (a : Action) → Decidable (StepAllowed s a)
  | .stream j (.onPeerConnected true) =>
    inferInstanceAs (Decidable (∀ c ∈ s.streams.take j, c.phase.over))
  | .stream _ (.onPeerConnected false) | .stream _ (.acquire _) | .stream _ (.syncPeer _)
  | .stream _ (.markConnected _) | .stream _ (.sendInitialSync _) | .stream _ (.unlock _)
  | .stream _ .channelClosed | .stream _ .streamDone | .stream _ (.checkLastSeen _)
  | .stream _ (.markDisconnected _ _) | .stream _ .closeChannel
  | .sync _ | .closeChannels | .expire => isTrue trivial

/-! ## What a stream does to the channel -/

section

variable {k : Nat} {d d' : Shared} {c c' : Stream} {op : Op}

@[simp] theorem release_channel (ok : Bool) : (release d c ok).channel = d.channel := by
  rw [release]
  split <;> rfl

@[simp] theorem release_closes (ok : Bool) : (release d c ok).closes = d.closes := by
  rw [release]
  split <;> rfl

@[simp] theorem markConnected_channel (t : Int) (ok : Bool) :
    (markConnected d t ok).channel = d.channel := by
  rw [markConnected]
  split <;> rfl

@[simp] theorem markConnected_closes (t : Int) (ok : Bool) :
    (markConnected d t ok).closes = d.closes := by
  rw [markConnected]
  split <;> rfl

@[simp] theorem markDisconnected_channel (ok : Bool) (now : Int) :
    (markDisconnected d ok now).channel = d.channel := by
  rw [markDisconnected]
  split <;> rfl

@[simp] theorem markDisconnected_closes (ok : Bool) (now : Int) :
    (markDisconnected d ok now).closes = d.closes := by
  rw [markDisconnected]
  split <;> rfl

theorem acquire_eq_some (h : acquire d c got ph = some (d', c')) :
    d'.channel = d.channel ∧ d'.closes = d.closes ∧ c'.phase = ph := by
  grind [acquire]

/-- The channel is created in one step, closed in another, and left alone in the rest. -/
theorem advance_cases (h : advance k d c op = some (d', c')) :
    (op = .onPeerConnected true ∧ d' = createChannel d k ∧ c'.phase = .unlock) ∨
    (c.phase = .closeChannel ∧ d' = closeChannel d k ∧ c'.phase = .ret) ∨
    (d'.channel = d.channel ∧ d'.closes = d.closes) := by
  unfold advance at h
  split at h
  case h_1 => exact .inr (.inr ⟨(acquire_eq_some h).1, (acquire_eq_some h).2.1⟩)
  case h_5 => cases h; exact .inl ⟨rfl, rfl, rfl⟩
  case h_8 =>
    split at h
    · cases h
    · cases h; exact .inr (.inr ⟨rfl, rfl⟩)
  case h_10 => exact .inr (.inr ⟨(acquire_eq_some h).1, (acquire_eq_some h).2.1⟩)
  case h_13 => cases h; exact .inr (.inl ⟨by assumption, rfl, rfl⟩)
  case h_15 => cases h
  all_goals
    cases h
    exact .inr (.inr ⟨by simp, by simp⟩)

/-- A stream that is over stays so. -/
theorem over_advance (h : advance k d c op = some (d', c')) (ho : c.phase.over) :
    c'.phase.over := by
  unfold advance at h
  split at h
  case h_14 => cases h; rfl
  case h_15 => cases h
  all_goals
    rename_i hp
    rw [hp] at ho
    cases ho

end

/-! ## The owner of the channel -/

section

variable {s s' : State}

/-- Every stream older than `j` is over. -/
def OlderOver (s : State) (j : Nat) : Prop :=
  ∀ i c, i < j → s.streams[i]? = some c → c.phase.over

/-- The older streams are over, as a fact about the list. -/
theorem olderOver_iff_take : OlderOver s j ↔ ∀ c ∈ s.streams.take j, c.phase.over := by
  constructor
  · intro h c hc
    obtain ⟨i, hi⟩ := mem_iff_getElem?.mp hc
    rw [List.getElem?_take] at hi
    obtain ⟨hl, hi⟩ := ite_none_right_eq_some.mp hi
    exact h i c hl hi
  · intro h i c hl hi
    refine h c (mem_iff_getElem?.mpr ⟨i, ?_⟩)
    rw [List.getElem?_take, if_pos hl, hi]

/-- The channel of the peer belongs to a stream all of whose elders are over, and no
    stream's end has closed the channel of a newer one. -/
structure Inv (s : State) : Prop where
  owner : ∀ j, s.shared.channel = some j → j < s.streams.length ∧ OlderOver s j
  clean : Clean s

/-- The streams older than `j` stay over when a stream takes a step. -/
theorem OlderOver.set (h : OlderOver s j)
    (hk : s.streams[k]? = some c) (ha : advance k d c op = some (d', c')) :
    OlderOver { shared := d', streams := s.streams.set k c' } j := by
  grind [over_advance, OlderOver]

/-- **One step** of an allowed run keeps the invariant. -/
theorem inv_step (hI : Inv s) (hok : StepAllowed s a) (h : step s a = some s') : Inv s' := by
  cases a with
  | sync start =>
    cases h
    refine ⟨fun j hj => ?_, hI.clean⟩
    obtain ⟨hl, ho⟩ := hI.owner j hj
    refine ⟨by rw [length_append]; omega, fun i c hlt hi => ho i c hlt ?_⟩
    rwa [List.getElem?_append_left (by omega)] at hi
  | closeChannels =>
    cases h
    exact ⟨nofun, hI.clean⟩
  | expire =>
    cases h
    exact ⟨hI.owner, hI.clean⟩
  | stream k op =>
    obtain ⟨c, hk, h⟩ := bind_eq_some_iff.mp h
    obtain ⟨⟨d', c'⟩, ha, rfl⟩ := map_eq_some_iff.mp h
    rcases advance_cases ha with ⟨rfl, rfl, -⟩ | ⟨hp, rfl, -⟩ | ⟨hc, hcl⟩
    · -- the channel is created: the condition is what the invariant asks for
      refine ⟨fun j hj => ?_, hI.clean⟩
      cases hj
      refine ⟨?_, (olderOver_iff_take.mpr hok).set hk ha⟩
      rw [length_set]
      exact (List.getElem?_eq_some_iff.mp hk).1
    · -- the channel is closed: an elder of its owner would be over
      refine ⟨nofun, fun e he => ?_⟩
      rcases mem_append.mp he with he | he
      · exact hI.clean e he
      obtain ⟨j, hj, rfl⟩ := map_eq_some_iff.mp (mem_toList.mp he)
      intro hlt
      have ho := (hI.owner j hj).2 k c hlt hk
      rw [hp] at ho
      cases ho
    · refine ⟨fun j hj => ?_, fun e he => hI.clean e (hcl ▸ he)⟩
      obtain ⟨hl, ho⟩ := hI.owner j (hc ▸ hj)
      exact ⟨by rw [length_set]; exact hl, ho.set hk ha⟩

theorem inv_init (seen : Int) (connected : Bool) : Inv (State.init seen connected) :=
  ⟨nofun, fun _ he => absurd he not_mem_nil⟩

end

/-! ## The condition is exact

A stream that is not over can always go on to close the peer's channel without
touching it before. -/

section

variable {s : State}

/-- The step that brings a stream closer to `CloseChannel`. -/
def Phase.hurry : Phase → Op
  | .lock | .cancel => .acquire false
  | .syncPeer => .syncPeer true
  | .markConnected => .markConnected false
  | .sendInitialSync => .sendInitialSync false
  | .onPeerConnected => .onPeerConnected false
  | .unlock => .unlock true
  | .serving => .streamDone
  | .checkLastSeen => .checkLastSeen false
  | .markDisconnected => .markDisconnected false 0
  | .closeChannel | .ret | .ended => .closeChannel

/-- … and how many of them there are. -/
def Phase.left : Phase → Nat
  | .closeChannel | .ret | .ended => 0
  | .checkLastSeen | .markDisconnected => 1
  | .cancel | .onPeerConnected | .sendInitialSync => 2
  | .serving | .markConnected => 3
  | .unlock | .syncPeer => 4
  | .lock => 5

/-- A stream that is not over can go on, and touches no channel. -/
theorem advance_hurry (ho : c.phase.over = false) (hn : c.phase ≠ .closeChannel) :
    ∃ d' c', advance k d c c.phase.hurry = some (d', c') ∧ d'.channel = d.channel ∧
      c'.phase.over = false ∧ c'.phase.left + 1 = c.phase.left := by
  obtain ⟨start, phase, locked⟩ := c
  cases phase with
  | closeChannel => exact absurd rfl hn
  | ret | ended => cases ho
  | lock | syncPeer | markConnected | sendInitialSync | onPeerConnected | unlock | serving | cancel
  | checkLastSeen | markDisconnected => exact ⟨_, _, rfl, by simp, rfl, rfl⟩

/-- A stream that is not over can close the channel of a newer one. -/
theorem exists_close (hlt : k < j) :
    ∀ (n : Nat) (s : State) (c : Stream), c.phase.left = n → s.streams[k]? = some c →
      c.phase.over = false → s.shared.channel = some j →
      ∃ s', Leads step StepAllowed s s' ∧ ¬ Clean s' := by
  intro n
  induction n using Nat.strongRecOn with
  | ind n ih =>
    intro s c hn hk ho hc
    by_cases hp : c.phase = .closeChannel
    · have ha : advance k s.shared c .closeChannel =
          some (closeChannel s.shared k, { c with phase := .ret }) := by
        simp only [advance, hp]
      have hs : step s (.stream k .closeChannel) = some
          { shared := closeChannel s.shared k,
            streams := s.streams.set k { c with phase := .ret } } := by
        rw [step, hk, bind_some, ha]
        rfl
      refine ⟨_, (Leads.refl _ _ _).head hs trivial, fun hcl => hcl ⟨k, j⟩ ?_ hlt⟩
      refine mem_append_right _ (mem_toList.mpr ?_)
      rw [hc]
      rfl
    · obtain ⟨d', c', ha, hsa, ho', hle⟩ := advance_hurry (k := k) (d := s.shared) ho hp
      have hs : step s (.stream k c.phase.hurry) = some
          { shared := d', streams := s.streams.set k c' } := by
        rw [step, hk, bind_some, ha]
        rfl
      have hk' : (s.streams.set k c')[k]? = some c' := by rw [getElem?_set_of_some hk, if_pos rfl]
      obtain ⟨s', hl, hb⟩ := ih c'.phase.left (by omega)
        { shared := d', streams := s.streams.set k c' } c' rfl hk' ho' (hsa.trans hc)
      exact ⟨s', hl.head hs (by cases c.phase <;> trivial), hb⟩

/-- A channel created while an older stream is not over can be closed by it. -/
theorem exists_close_of_not_allowed (h : ¬ StepAllowed s a)
    (hs : step s a = some m) : ∃ s', Leads step StepAllowed m s' ∧ ¬ Clean s' := by
  unfold StepAllowed at h
  split at h
  case h_2 => exact absurd trivial h
  rename_i j
  rw [← olderOver_iff_take] at h
  obtain ⟨k, hk⟩ := not_forall.mp h
  simp only [not_forall, Bool.not_eq_true] at hk
  obtain ⟨x, hl, hx, ho⟩ := hk
  obtain ⟨c, hj, hm⟩ := bind_eq_some_iff.mp hs
  obtain ⟨⟨d', c'⟩, ha, rfl⟩ := map_eq_some_iff.mp hm
  have hc : d'.channel = some j := by
    obtain ⟨start, phase, locked⟩ := c
    cases phase with
    | onPeerConnected => cases ha; rfl
    | _ => cases ha
  refine exists_close hl _ _ x rfl ?_ ho hc
  rw [getElem?_set_of_some hj, if_neg (Nat.ne_of_lt hl)]
  exact hx

end

/-- **The end of a stream leaves the channel of a newer stream alone**, if channels are
    created only when all older streams are over; and a channel created before can
    be closed by the end of an older stream. -/
theorem clean_iff_allowed (seen : Int) (connected : Bool) (as : List Action) (s : State)
    (hok : AllowedRun step StepAllowed (State.init seen connected) as)
    (h : run step (State.init seen connected) as = some s) :
    Clean s ∧ ∀ a m, step s a = some m →
      (StepAllowed s a ↔ ∀ bs s', AllowedRun step StepAllowed m bs →
        run step m bs = some s' → Clean s') := by
  exact run_good_exact (fun _ _ _ => inv_step) (fun _ hI => hI.clean)
    (fun _ _ _ _ => exists_close_of_not_allowed) (inv_init seen connected) hok h

/-- The requests and replies of a stream up to its loop, nothing failing. -/
def connectRun (k : Nat) (start : Int) : List Action :=
  [.sync start, .stream k (.acquire true), .stream k (.syncPeer true),
    .stream k (.markConnected true), .stream k (.sendInitialSync true),
    .stream k (.onPeerConnected true), .stream k (.unlock true)]

/-- A client goes away and comes back once its first stream is over. -/
theorem clean_reconnect :
    ∃ s, run step (State.init 0 false) (connectRun 0 1 ++ [.stream 0 .streamDone,
        .stream 0 (.acquire true), .stream 0 (.checkLastSeen true),
        .stream 0 (.markDisconnected true 2), .stream 0 .closeChannel, .stream 0 (.unlock true)] ++
        connectRun 1 3) = some s ∧ Clean s :=
  exists_end rfl fun s hs => (clean_iff_allowed 0 false _ s (by decide) hs).1

/-- A client comes back before its first stream is over: the second stream's channel
    replaces the first one's, the first stream ends because of that, finds that the
    peer has been seen since, and closes the second stream's channel. -/
theorem newer_channel_closed :
    ∃ s, run step (State.init 0 false) (connectRun 0 1 ++ connectRun 1 2 ++
        [.stream 0 .channelClosed, .stream 0 (.acquire true), .stream 0 (.checkLastSeen true),
          .stream 0 .closeChannel]) = some s ∧
      s.shared.connected ∧ ¬ Clean s :=
  ⟨_, rfl, rfl, by decide⟩

end SyncStream

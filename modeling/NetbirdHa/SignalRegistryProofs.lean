import NetbirdHa.TransitionProofs

/-! # The signal registry shared through Redis

One peer, any number of signal instances, one Redis.  `ConnectStream` is a
sequence of atomic accesses to two shared objects: the instance's own
`Registry.Peers` (a `sync.Map`) and the Redis hash that maps a peer to the
instance serving it.  The model keeps one handler per stream with a program
counter (`Phase`), so that a run interleaves the accesses of all handlers
and of the heartbeat goroutines in any order.

Redis commands are atomic, never fail, and no TTL expires. -/

namespace SignalRegistry

open Transition List Option Function

variable {I : Type}

/-- Where a `ConnectStream` handler stands: the access it makes next. -/
inductive Phase where
  /-- `Registry.Register`: `Peers.LoadOrStore`. -/
  | loadOrStore
  /-- `Registry.Register`: `Peers.CompareAndSwap` of the previous stream. -/
  | compareAndSwap (prev : Nat)
  /-- `Registry.Register`: `pp.Cancel()` of the stream just replaced. -/
  | cancelPrev (prev : Nat)
  /-- `registerPeerInRedis`: `HSet` (then `Expire`, and the heartbeat starts). -/
  | hset
  /-- `dispatcher.ListenForMessages`. -/
  | listen
  /-- `stream.SendHeader`. -/
  | sendHeader
  /-- the final `select` of `ConnectStream`. -/
  | connected
  /-- the deferred `DeregisterPeer`: `Peers.CompareAndDelete`. -/
  | deregister
  /-- the deferred `DeregisterPeer`: `deregisterPeerFromRedis`. -/
  | hdel
  /-- the handler returned after `DeregisterPeer`. -/
  | done
  /-- the handler returned from `RegisterPeer` with an error. -/
  | failed
deriving DecidableEq

/-- One stream of the peer, with the state of its handler. -/
structure Stream (I : Type) where
  inst : I
  streamID : Int
  phase : Phase
  cancelled : Bool
  ctxDone : Bool
deriving DecidableEq

/-- Where a `peerHeartbeat` goroutine stands. -/
inductive Beat where
  | waiting
  | writing
  | stopped
deriving DecidableEq

/-- A `peerHeartbeat` goroutine of an instance. -/
structure Heartbeat (I : Type) where
  inst : I
  beat : Beat
deriving DecidableEq

/-- The shared state: the peer's entry in each instance's registry, the peer's
    field of the Redis hash, all handlers and all heartbeats. -/
structure State (I : Type) where
  registry : I → Option Nat
  redis : Option I
  streams : List (Stream I)
  heartbeats : List (Heartbeat I)

/-- No stream yet, an empty registry everywhere and no field in the hash. -/
def State.init : State I where
  registry := fun _ => none
  redis := none
  streams := []
  heartbeats := []

/-- The atomic steps.  `h` is a stream (the pointer `*peer.Peer`), `k` a heartbeat. -/
inductive Action (I : Type) where
  | connect (i : I) (streamID : Int)
  | loadOrStore (h : Nat)
  | compareAndSwap (h : Nat)
  | cancelPrev (h : Nat)
  | hset (h : Nat)
  | listen (h : Nat) (ok : Bool)
  | sendHeader (h : Nat) (ok : Bool)
  | disconnect (h : Nat)
  | sendTimeout (h : Nat)
  | selectDone (h : Nat)
  | deregister (h : Nat)
  | hdel (h : Nat)
  | tick (k : Nat)
  | tickSet (k : Nat)
  | haStop (k : Nat)
deriving DecidableEq

section

variable (s : State I) (h : Nat) (ph : Phase)

/-- Replace the record of stream `h`. -/
def State.put (st : Stream I) : State I :=
  { s with streams := s.streams.set h st }

/-- Move the handler of `h` to `ph`. -/
def State.advance : State I :=
  match s.streams[h]? with
  | none => s
  | some st => s.put h { st with phase := ph }

/-- Move heartbeat `k` to `b`. -/
def State.setBeat (k : Nat) (hb : Heartbeat I) (b : Beat) : State I :=
  { s with heartbeats := s.heartbeats.set k { hb with beat := b } }

/-- The handler of `h`, when it stands at `ph`. -/
def State.at? : Option (Stream I) :=
  (s.streams[h]?).filter (·.phase = ph)

end

section

variable [DecidableEq I]

/-- `Registry.Register`, first access: store the new stream, or compare its
    `StreamID` with the one already there. -/
def loadOrStore (s : State I) (h : Nat) (st : Stream I) : State I :=
  match s.registry st.inst with
  | none =>
    { s.put h { st with phase := .hset } with
      registry := update s.registry st.inst (some h) }
  | some pp =>
    -- a missing record cannot happen: the registry holds existing streams
    match s.streams[pp]? with
    | none => s.put h { st with phase := .failed }
    | some prev =>
      if prev.streamID < st.streamID then
        s.put h { st with phase := .compareAndSwap pp }
      else s.put h { st with phase := .failed }

/-- `Registry.Register`, second access: replace exactly the stream that was
    loaded, or start over. -/
def compareAndSwap (s : State I) (h pp : Nat) (st : Stream I) : State I :=
  if s.registry st.inst = some pp then
    { s.put h { st with phase := .cancelPrev pp } with
      registry := update s.registry st.inst (some h) }
  else s.put h { st with phase := .loadOrStore }

/-- Set the cancel flag of stream `h` (`Peer.Cancel`). -/
def cancel (s : State I) (h : Nat) : State I :=
  match s.streams[h]? with
  | none => s
  | some st => s.put h { st with cancelled := true }

/-- One atomic step; `none` when the handler does not stand there. -/
def step (s : State I) : Action I → Option (State I)
  | .connect i sid =>
    some { s with streams := s.streams ++
      [{ inst := i, streamID := sid, phase := .loadOrStore,
         cancelled := false, ctxDone := false }] }
  | .loadOrStore h => (s.at? h .loadOrStore).map (loadOrStore s h)
  | .compareAndSwap h =>
    match s.streams[h]? with
    | some st =>
      match st.phase with
      | .compareAndSwap pp => some (compareAndSwap s h pp st)
      | _ => none
    | none => none
  | .cancelPrev h =>
    match s.streams[h]? with
    | some st =>
      match st.phase with
      | .cancelPrev pp => some ((cancel s pp).advance h .hset)
      | _ => none
    | none => none
  | .hset h =>
    (s.at? h .hset).map (fun st =>
      { s.put h { st with phase := .listen } with
        redis := some st.inst
        heartbeats := s.heartbeats ++ [{ inst := st.inst, beat := .waiting }] })
  | .listen h ok =>
    (s.at? h .listen).map (fun st =>
      s.put h { st with phase := if ok then .sendHeader else .failed })
  | .sendHeader h ok =>
    (s.at? h .sendHeader).map (fun st =>
      s.put h { st with phase := if ok then .connected else .deregister })
  | .disconnect h => (s.streams[h]?).map (fun st => s.put h { st with ctxDone := true })
  | .sendTimeout h =>
    (s.streams[h]?).bind (fun st => if s.registry st.inst = some h then some (cancel s h) else none)
  | .selectDone h =>
    (s.at? h .connected).bind (fun st =>
      if st.ctxDone ∨ st.cancelled then some (s.put h { st with phase := .deregister })
      else none)
  | .deregister h =>
    (s.at? h .deregister).map (fun st =>
      { s.put h { st with phase := .hdel } with
        registry := if s.registry st.inst = some h
          then update s.registry st.inst none else s.registry })
  | .hdel h =>
    (s.at? h .hdel).map (fun st => { s.put h { st with phase := .done } with redis := none })
  | .tick k =>
    (s.heartbeats[k]?).bind (fun hb =>
      if hb.beat = .waiting then
        some (s.setBeat k hb (if s.registry hb.inst = none then .stopped else .writing))
      else none)
  | .tickSet k =>
    (s.heartbeats[k]?).bind (fun hb =>
      if hb.beat = .writing then
        some { s.setBeat k hb .waiting with redis := some hb.inst }
      else none)
  | .haStop k => (s.heartbeats[k]?).map (s.setBeat k · .stopped)

end

/-! ## What the registry hash has to say -/

/-- A stream that is served: its handler waits in the final `select`, and
    neither its client left nor was it cancelled. -/
def Stream.Live (st : Stream I) : Prop :=
  st.phase = .connected ∧ st.ctxDone = false ∧ st.cancelled = false
deriving Decidable

/-- No connect or disconnect handler is in progress. -/
def Quiescent (s : State I) : Prop :=
  ∀ st ∈ s.streams, st.Live ∨ st.phase = .done ∨ st.phase = .failed

/-- Instance `i` holds a live registered stream of the peer. -/
def LiveAt (s : State I) (i : I) : Prop :=
  ∃ h st, s.registry i = some h ∧ s.streams[h]? = some st ∧ st.Live

/-- The hash names an instance that holds a live registered stream, whenever
    there is one and no handler is in progress. -/
def RegistryCorrect (s : State I) : Prop :=
  Quiescent s → (∃ i, LiveAt s i) → ∃ i, s.redis = some i ∧ LiveAt s i

/-! ## The condition on a step -/

/-- Handlers at these points have written the hash and go on serving. -/
def Phase.Written : Phase → Prop
  | .listen | .sendHeader | .connected => True
  | _ => False

/-- The stream has been announced in the hash and nothing ends it yet. -/
def Stream.Serving (st : Stream I) : Prop :=
  st.phase.Written ∧ st.ctxDone = false ∧ st.cancelled = false

/-- No registered stream other than `skip` is serving. -/
def NoneServing (s : State I) (skip : Option Nat) : Prop :=
  ∀ (i : I) (h : Nat) (st : Stream I), s.registry i = some h → some h ≠ skip →
    s.streams[h]? = some st → ¬ st.Serving

/-- The registry entry of instance `i` belongs to a handler that has not given up. -/
def Served (s : State I) (i : I) : Prop :=
  ∃ (h : Nat) (st : Stream I), s.registry i = some h ∧ s.streams[h]? = some st ∧ st.phase ≠ .failed

/-- The condition a step has to meet, in the state before it.  An `HDEL` runs only while no
    registered stream is serving.  A heartbeat writes its own instance only if that instance still
    has the peer, or no registered stream is serving.  The dispatcher refuses a listener only if no
    other registered stream is serving. -/
def StepAllowed (s : State I) : Action I → Prop
  | .hdel _ => NoneServing s none
  | .tickSet k => ∀ hb, s.heartbeats[k]? = some hb → Served s hb.inst ∨ NoneServing s none
  | .listen h ok => ok ∨ NoneServing s (some h)
  | _ => True

/-! ## The invariant -/

/-- Handlers at these points are entered in their instance's registry, unless a
    newer stream replaced them. -/
def Phase.Entered : Phase → Prop
  | .cancelPrev _ | .hset | .listen | .sendHeader | .connected => True
  | _ => False

/-- A registry entry can only belong to a handler at one of these points; a
    listener that was refused leaves its entry behind. -/
def Phase.Held : Phase → Prop
  | .deregister | .failed => True
  | ph => ph.Entered

/-- Handlers at these points wrote the hash and will still delete its field. -/
def Phase.Pending : Phase → Prop
  | .deregister | .hdel => True
  | ph => ph.Written

/-- A registry entry is a stream of that instance that has entered it. -/
def EntriesHeld (s : State I) : Prop :=
  ∀ i h, s.registry i = some h → ∃ st, s.streams[h]? = some st ∧ st.inst = i ∧ st.phase.Held

/-- The instance the hash names is served, or has a handler that will delete the
    field, or nobody is served. -/
def HashOwned (s : State I) : Prop :=
  ∀ i, s.redis = some i → Served s i ∨
    (∃ (h : Nat) (st : Stream I), s.streams[h]? = some st ∧ st.inst = i ∧ st.phase.Pending) ∨
    NoneServing s none

/-- A stream that left the registry without deregistering is cancelled, or about to be. -/
def ReplacedCancelled (s : State I) : Prop :=
  ∀ (h : Nat) (st : Stream I), s.streams[h]? = some st → st.phase.Entered →
    s.registry st.inst = some h ∨ st.cancelled ∨
      ∃ (h' : Nat) (st' : Stream I), s.streams[h']? = some st' ∧ st'.phase = .cancelPrev h

/-- What holds between the registries, the hash and the handlers. -/
structure Inv (s : State I) : Prop where
  entries : EntriesHeld s
  /-- a serving registered stream finds the hash written. -/
  written : s.redis = none → NoneServing s none
  owned : HashOwned s
  replaced : ReplacedCancelled s

open State

theorem inv_init : Inv (State.init : State I) where
  entries := by intro i h hr; cases hr
  written := by intro _ i h st hr; cases hr
  owned := by intro i hr; cases hr
  replaced := by intro h st hs; simp [init] at hs

variable {s : State I} {h : Nat} {st st' : Stream I}

/-! ## Preservation

`inv_put` covers every access that only moves one handler; the accesses to
a registry (`inv_enter`, `inv_leave`) and to the hash (`inv_hset`,
`inv_hdel`) have a lemma of their own. -/

/-- Reading a stream after a write. -/
theorem get_put (hst : s.streams[h]? = some st) (st' : Stream I) (k : Nat) :
    (s.put h st').streams[k]? = if k = h then some st' else s.streams[k]? :=
  getElem?_set_of_some hst st' k

@[grind =] theorem put_registry (i : I) : (s.put h st).registry i = s.registry i := rfl

@[grind =] theorem put_redis : (s.put h st).redis = s.redis := rfl

/-- A registry entry for stream `h` stands at the instance of `h`. -/
theorem Inv.inst_eq (hI : Inv s) (hr : s.registry i = some h)
    (hst : s.streams[h]? = some st) : st.inst = i ∧ st.phase.Held := by
  obtain ⟨st', hs', hi, hp⟩ := hI.entries i h hr
  obtain rfl : st = st' := Option.some.inj (hst.symm.trans hs')
  exact ⟨hi, hp⟩

/-- The entries stay held when a handler moves between points that hold one. -/
theorem entriesHeld_put (hE : EntriesHeld s) (hst : s.streams[h]? = some st)
    (his : st'.inst = st.inst) (hh : st.phase.Held → st'.phase.Held) :
    EntriesHeld (s.put h st') := by
  have hg := get_put hst st'
  grind [EntriesHeld]

/-- Nobody starts to be served when a handler moves without starting to serve. -/
theorem noneServing_put (hn : NoneServing s none) (hst : s.streams[h]? = some st)
    (hse : st'.Serving → st.Serving) : NoneServing (s.put h st') none := by
  have hg := get_put hst st'
  grind [NoneServing]

/-- Replaced streams stay cancelled when a handler moves without entering, keeps
    its own flag, and keeps or fulfils its promise to cancel. -/
theorem replacedCancelled_put (hR : ReplacedCancelled s) (hst : s.streams[h]? = some st)
    (hi : st'.inst = st.inst) (hen : st'.phase.Entered → st.phase.Entered)
    (hca : st.cancelled → st'.cancelled)
    (hpr : ∀ p, st.phase = .cancelPrev p → st'.phase = .cancelPrev p ∨
      ∀ sp, s.streams[p]? = some sp → sp.cancelled) : ReplacedCancelled (s.put h st') := by
  have hg := get_put hst st'
  grind [ReplacedCancelled]

theorem Phase.Entered.held {ph : Phase} (h : ph.Entered) : ph.Held := by
  cases ph <;> trivial

section

/-- A step of a stream in a phase. -/
theorem at?_map {f : Stream I → State I} (hs : (s.at? h ph).map f = some s') :
    ∃ st, s.streams[h]? = some st ∧ st.phase = ph ∧ s' = f st := by
  obtain ⟨st, hst, rfl⟩ := map_eq_some_iff.mp hs
  obtain ⟨hst, hph⟩ := filter_eq_some_iff.mp hst
  exact ⟨st, hst, of_decide_eq_true hph, rfl⟩

variable (hI : Inv s)

include hI

section

variable (hst : s.streams[h]? = some st)

include hst

/-- **One handler moves.**  The registries and the hash stay; the handler keeps
    what others rely on: it does not start serving or enter, and stays pending,
    cancelled and committed to its cancellation. -/
theorem inv_put (his : st'.inst = st.inst) (hh : st.phase.Held → st'.phase.Held)
    (hfa : st.phase.Held → st'.phase = .failed → st.phase = .failed)
    (hs : st'.Serving → st.Serving) (hpe : st.phase.Pending → st'.phase.Pending)
    (he : st'.phase.Entered → st.phase.Entered) (hc : st.cancelled → st'.cancelled)
    (hpr : ∀ p, st.phase = .cancelPrev p → st'.phase = .cancelPrev p ∨
      ∀ sp, s.streams[p]? = some sp → sp.cancelled) : Inv (s.put h st') where
  entries := entriesHeld_put hI.entries hst his hh
  written := fun hr => noneServing_put (hI.written hr) hst hs
  owned := by
    have hn := fun hn => noneServing_put hn hst hs
    have ho := hI.owned
    have hE := hI.entries
    have hg := get_put hst st'
    grind [HashOwned, Served, EntriesHeld]
  replaced := replacedCancelled_put hI.replaced hst his he hc hpr

/-- A handler that has written the hash goes on, and will still delete its field. -/
theorem inv_advance (hw : st.phase.Written) (hh : ph.Held) (hf : ph ≠ .failed) (hp : ph.Pending) :
    Inv (s.put h { st with phase := ph }) := by
  have he : st.phase.Entered := by
    cases hph : st.phase <;> rw [hph] at hw <;> trivial
  refine inv_put hI hst rfl (fun _ => hh) (fun _ h => absurd h hf) (fun hs => ⟨hw, hs.2⟩)
    (fun _ => hp) (fun _ => he) id fun p h => ?_
  rw [h] at hw
  exact absurd hw id

/-- **A stream enters its registry**, into a free place or over the stream it goes on to cancel. -/
theorem inv_enter [DecidableEq I] (his : st'.inst = st.inst) (hh : ¬ st.phase.Held)
    (hpe : ¬ st.phase.Pending) (hen : st'.phase.Entered) (hw : ¬ st'.phase.Written)
    (hold : ∀ p, s.registry st.inst = some p → st'.phase = .cancelPrev p) :
    Inv { s.put h st' with registry := update s.registry st.inst (some h) } := by
  have hg := get_put hst st'
  have hfr : ∀ i, s.registry i ≠ some h := fun i hr => hh (hI.inst_eq hr hst).2
  have hpr : ∀ p, st.phase ≠ .cancelPrev p := by
    intro p hp
    exact hh (by rw [hp]; trivial)
  have hf : st'.phase ≠ .failed := by
    intro hf
    rw [hf] at hen
    exact hen
  have hno : NoneServing s none → NoneServing
      { s.put h st' with registry := update s.registry st.inst (some h) } none := by
    grind [NoneServing, Stream.Serving]
  obtain ⟨hE, hW, hO, hR⟩ := hI
  refine ⟨?_, fun hr => hno (hW hr), ?_, ?_⟩
  · grind [EntriesHeld, update_apply, Phase.Entered.held]
  · grind [HashOwned, Served, update_apply]
  · -- the stream that is being replaced is the one to be cancelled
    grind [ReplacedCancelled, update_apply]

/-- **A stream leaves its registry**, if it is still the one entered there, and
    goes on to delete the field. -/
theorem inv_leave [DecidableEq I] (hph : st.phase = .deregister) :
    Inv { s.put h { st with phase := .hdel } with
      registry := if s.registry st.inst = some h
        then update s.registry st.inst none else s.registry } := by
  have hg := get_put hst { st with phase := .hdel }
  have hin : ∀ j, s.registry j = some h → st.inst = j := fun j hj => (hI.inst_eq hj hst).1
  -- what the access leaves in the registries: every entry but that of `h`
  have hre : ∀ i k, (if s.registry st.inst = some h
      then update s.registry st.inst none else s.registry) i = some k ↔
      s.registry i = some k ∧ k ≠ h := by
    grind
  have hpe : Phase.Pending .hdel := trivial
  have hen : ¬ Phase.Entered .hdel := id
  generalize (if s.registry st.inst = some h
    then update s.registry st.inst none else s.registry) = reg at hre
  have hno : NoneServing s none →
      NoneServing { s.put h { st with phase := .hdel } with registry := reg } none := by
    grind [NoneServing]
  obtain ⟨hE, hW, hO, hR⟩ := hI
  refine ⟨?_, fun hr => hno (hW hr), ?_, ?_⟩
  · grind [EntriesHeld]
  · grind [HashOwned, Served]
  · grind [ReplacedCancelled]

/-- **A stream announces its instance**: the hash names it, and it is pending. -/
theorem inv_hset (hph : st.phase = .hset) (hb : List (Heartbeat I)) :
    Inv { s.put h { st with phase := .listen } with
      redis := some st.inst, heartbeats := hb } where
  entries := entriesHeld_put hI.entries hst rfl (fun _ => trivial)
  written := fun hr => nomatch hr
  owned := by
    intro i hr
    right; left
    exact ⟨h, { st with phase := .listen }, by rw [get_put hst, if_pos rfl],
      Option.some.inj hr, trivial⟩
  replaced := replacedCancelled_put hI.replaced hst rfl (fun _ => by rw [hph]; trivial) id
    (fun p hp => nomatch hph.symm.trans hp)

/-- **A stream deletes the field** while nobody is served. -/
theorem inv_hdel (hph : st.phase = .hdel) (hn : NoneServing s none) :
    Inv { s.put h { st with phase := .done } with redis := none } where
  entries := entriesHeld_put hI.entries hst rfl (fun hp => by rw [hph] at hp; exact hp)
  written := fun _ => noneServing_put hn hst (absurd ·.1 id)
  owned := fun i hr => nomatch hr
  replaced := replacedCancelled_put hI.replaced hst rfl (absurd · id) id
    (fun p hp => nomatch hph.symm.trans hp)

/-- **A refused listener** leaves its entry behind; nobody else is served. -/
theorem inv_refused (hph : st.phase = .listen)
    (hn : NoneServing s (some h)) : Inv (s.put h { st with phase := .failed }) := by
  have hno : NoneServing (s.put h { st with phase := .failed }) none := by
    have hg := get_put hst { st with phase := .failed }
    have hs : ¬ { st with phase := .failed }.Serving := fun hs => hs.1
    grind [NoneServing]
  exact {
    entries := entriesHeld_put hI.entries hst rfl fun _ => trivial
    written := fun _ => hno
    owned := fun i _ => .inr (.inr hno)
    replaced := replacedCancelled_put hI.replaced hst rfl (absurd · id) id
      (fun p hp => nomatch hph.symm.trans hp) }

end

/-- **A stream is cancelled**, by the one that replaced it or by a send that timed out. -/
theorem inv_cancel (h : Nat) : Inv (cancel s h) := by
  unfold cancel
  split
  · exact hI
  · rename_i st hst
    exact inv_put hI hst rfl id (fun _ => id) (fun hs => nomatch hs.2.2) id id (fun _ => rfl)
      (fun p hp => .inl hp)

/-- **A new stream** is entered nowhere yet. -/
theorem inv_connect (hph : st.phase = .loadOrStore) :
    Inv { s with streams := s.streams ++ [st] } := by
  have hold : ∀ (k : Nat) sk, s.streams[k]? = some sk → (s.streams ++ [st])[k]? = some sk :=
    fun k sk hk => (getElem?_append_left (List.getElem?_eq_some_iff.mp hk).1).trans hk
  have hnw : ∀ (k : Nat) sk, (s.streams ++ [st])[k]? = some sk →
    s.streams[k]? = some sk ∨ sk = st := by
    intro k sk hk
    rw [getElem?_append] at hk
    split at hk
    · exact .inl hk
    · exact .inr (mem_singleton.mp (mem_of_getElem? hk))
  have hse : ¬ st.Serving := fun hs => by rw [Stream.Serving, hph] at hs; exact hs.1
  have hen : ¬ st.phase.Entered := by rw [hph]; exact id
  have hno : NoneServing s none → NoneServing { s with streams := s.streams ++ [st] } none := by
    grind [NoneServing]
  obtain ⟨hE, hW, hO, hR⟩ := hI
  refine ⟨?_, fun hr => hno (hW hr), ?_, ?_⟩
  · grind [EntriesHeld]
  · grind [HashOwned, Served]
  · grind [ReplacedCancelled]

/-- A heartbeat that only moves changes nothing the invariant reads. -/
theorem inv_setBeat (k : Nat) (hb : Heartbeat I) (b : Beat) : Inv (s.setBeat k hb b) :=
  ⟨hI.entries, hI.written, hI.owned, hI.replaced⟩

/-- The replacing stream cancels the one it replaced and goes on. -/
theorem inv_cancelPrev (hst : s.streams[h]? = some st)
    (hph : st.phase = .cancelPrev pp) : Inv ((cancel s pp).advance h .hset) := by
  have hc : ∀ sp, (cancel s pp).streams[pp]? = some sp → sp.cancelled := by
    grind [cancel, put]
  have hst' : ∀ st', (cancel s pp).streams[h]? = some st' → st'.phase = .cancelPrev pp := by
    grind [cancel, put]
  unfold advance
  split
  · exact inv_cancel hI pp
  rename_i st' hk
  have hp' := hst' st' hk
  refine inv_put (inv_cancel hI pp) hk rfl (fun _ => trivial) (fun _ hf => nomatch hf)
    (absurd ·.1 id) fun hp => by rw [hp'] at hp; exact absurd hp id
    (fun _ => by rw [hp']; trivial) id ?_
  intro p hp
  cases hp'.symm.trans hp
  exact .inr hc

end

section

variable [DecidableEq I]

/-- `Registry.Register`'s first access keeps the invariant: the stream enters a
    free place, goes on to replace an older one, or gives up. -/
theorem inv_loadOrStore (hI : Inv s) (hst : s.streams[h]? = some st)
    (hph : st.phase = .loadOrStore) : Inv (loadOrStore s h st) := by
  have hh : ¬ st.phase.Held := by rw [hph]; exact id
  have hpe : ¬ st.phase.Pending := by rw [hph]; exact id
  have hm : ∀ ph : Phase, ¬ ph.Entered → Inv (s.put h { st with phase := ph }) := by
    intro ph hn
    refine inv_put hI hst rfl (absurd · hh) (absurd · hh) ?_ (absurd · hpe)
      (absurd · hn) id fun p hp => nomatch hph.symm.trans hp
    intro hs
    exact absurd (by cases ph <;> first | exact hs.1 | trivial) hn
  unfold loadOrStore
  split
  · rename_i hr
    exact inv_enter hI hst rfl hh hpe trivial id fun p hp => nomatch hr.symm.trans hp
  split
  · exact hm _ id
  · split
    · exact hm _ id
    · exact hm _ id

/-- `Registry.Register`'s second access keeps the invariant. -/
theorem inv_compareAndSwap (hI : Inv s) (hst : s.streams[h]? = some st)
    (hph : st.phase = .compareAndSwap pp) : Inv (compareAndSwap s h pp st) := by
  have hh : ¬ st.phase.Held := by rw [hph]; exact id
  have hpe : ¬ st.phase.Pending := by rw [hph]; exact id
  unfold compareAndSwap
  split
  · rename_i hr
    exact inv_enter hI hst rfl hh hpe trivial id
      (fun p hp => by rw [Option.some.inj (hr.symm.trans hp)])
  · exact inv_put hI hst rfl (absurd · hh) (absurd · hh) (absurd ·.1 id)
      (absurd · hpe) (absurd · id) id fun p hp => nomatch hph.symm.trans hp

/-- **Every allowed step keeps the invariant.** -/
theorem inv_step (s : State I) (a : Action I) (s' : State I) (hI : Inv s)
    (ha : StepAllowed s a) (hs : step s a = some s') : Inv s' := by
  cases a with
  | connect i sid =>
    cases hs
    exact inv_connect hI rfl
  | loadOrStore h =>
    obtain ⟨st, hst, hph, rfl⟩ := at?_map hs
    exact inv_loadOrStore hI hst hph
  | compareAndSwap h =>
    simp only [step] at hs
    split at hs <;> [split at hs; cases hs] <;> cases hs
    exact inv_compareAndSwap hI ‹_› ‹_›
  | cancelPrev h =>
    simp only [step] at hs
    split at hs <;> [split at hs; cases hs] <;> cases hs
    exact inv_cancelPrev hI ‹_› ‹_›
  | hset h =>
    obtain ⟨st, hst, hph, rfl⟩ := at?_map hs
    exact inv_hset hI hst hph _
  | listen h ok =>
    obtain ⟨st, hst, hph, rfl⟩ := at?_map hs
    cases ok with
    | false => exact inv_refused hI hst hph (ha.resolve_left Bool.false_ne_true)
    | true => exact inv_advance hI hst (by rw [hph]; trivial) trivial nofun trivial
  | sendHeader h ok =>
    obtain ⟨st, hst, hph, rfl⟩ := at?_map hs
    cases ok with
    | false | true => exact inv_advance hI hst (by rw [hph]; trivial) trivial nofun trivial
  | disconnect h =>
    obtain ⟨st, hst, rfl⟩ := map_eq_some_iff.mp hs
    exact inv_put hI hst rfl id (fun _ => id) (fun hs => nomatch hs.2.1) id id id
      (fun p hp => .inl hp)
  | sendTimeout h =>
    obtain ⟨st, hst, -, ⟨⟩⟩ := bind_ite_eq_some.mp hs
    exact inv_cancel hI h
  | selectDone h =>
    obtain ⟨st, hst, hs⟩ := bind_eq_some_iff.mp hs
    obtain ⟨hst, hph⟩ := filter_eq_some_iff.mp hst
    obtain ⟨-, ⟨⟩⟩ := ite_none_right_eq_some.mp hs
    have hph := of_decide_eq_true hph
    exact inv_advance hI hst (by rw [hph]; trivial) trivial nofun trivial
  | deregister h =>
    obtain ⟨st, hst, hph, rfl⟩ := at?_map hs
    exact inv_leave hI hst hph
  | hdel h =>
    obtain ⟨st, hst, hph, rfl⟩ := at?_map hs
    exact inv_hdel hI hst hph ha
  | tick k =>
    obtain ⟨hb, hk, -, ⟨⟩⟩ := bind_ite_eq_some.mp hs
    exact inv_setBeat hI k hb _
  | tickSet k =>
    obtain ⟨hb, hk, -, ⟨⟩⟩ := bind_ite_eq_some.mp hs
    refine ⟨hI.entries, nofun, ?_, hI.replaced⟩
    rintro i ⟨⟩
    exact (ha hb hk).imp_right .inr
  | haStop k =>
    obtain ⟨hb, hk, rfl⟩ := map_eq_some_iff.mp hs
    exact inv_setBeat hI k hb _

end

/-! ## The registry hash over whole runs -/

theorem Stream.Live.serving (hl : st.Live) : st.Serving := ⟨by rw [hl.1]; trivial, hl.2⟩

/-- Where the invariant holds, the hash is right at every quiescent state. -/
theorem registryCorrect_of_inv (hI : Inv s) : RegistryCorrect s := by
  intro hq ⟨i₀, h₀, st₀, hr₀, hs₀, hl₀⟩
  have hs : ¬ NoneServing s none := fun hn => hn i₀ h₀ st₀ hr₀ (fun e => nomatch e) hs₀ hl₀.serving
  cases hre : s.redis with
  | none => exact absurd (hI.written hre) hs
  | some i =>
    refine ⟨i, rfl, ?_⟩
    rcases hI.owned i hre with ⟨h, st, hr, hst, hf⟩ | ⟨h, st, hst, hi, hp⟩ | hn
    · -- the served entry is held by a handler, and at rest only a live one is
      have hh := (hI.inst_eq hr hst).2
      rcases hq st (mem_of_getElem? hst) with hl | hd | hf'
      · exact ⟨h, st, hr, hst, hl⟩
      · rw [hd] at hh
        exact absurd hh id
      · exact absurd hf' hf
    · rcases hq st (mem_of_getElem? hst) with hl | hd | hf
      · -- a live stream was not cancelled, so it was not replaced
        have he : st.phase.Entered := by rw [hl.1]; trivial
        rcases hI.replaced h st hst he with hr | hc | ⟨h', st', hs', hp'⟩
        · exact ⟨h, st, hi ▸ hr, hst, hl⟩
        · cases hl.2.2.symm.trans hc
        rcases hq st' (mem_of_getElem? hs') with hl' | hd' | hf'
        · cases hp'.symm.trans hl'.1
        · cases hp'.symm.trans hd'
        · cases hp'.symm.trans hf'
      · rw [hd] at hp
        exact absurd hp id
      · rw [hf] at hp
        exact absurd hp id
    · exact absurd hn hs

/-- **The hash is right in every state of every allowed run.** -/
theorem registry_correct_of_allowed [DecidableEq I] (as bs : List (Action I)) (s : State I)
    (hok : AllowedRun step StepAllowed init (as ++ bs))
    (hr : run step init as = some s) : RegistryCorrect s :=
  registryCorrect_of_inv
    (run_invariant inv_step as init s inv_init (allowedRun_of_append as bs _ hok) hr)

/-- **A live stream is the registered one** of its instance, so there is one at most. -/
theorem registered_of_live [DecidableEq I] (as : List (Action I)) (s : State I)
    (hok : AllowedRun step StepAllowed init as) (hr : run step init as = some s)
    (hq : Quiescent s) (h : Nat) (st : Stream I) (hst : s.streams[h]? = some st) (hl : st.Live) :
    s.registry st.inst = some h := by
  have hen : st.phase.Entered := by
    rw [hl.1]
    trivial
  have hI := run_invariant inv_step as init s inv_init hok hr
  rcases hI.replaced h st hst hen with hr | hc | ⟨h', st', hst', hp⟩
  · exact hr
  · exact absurd (hl.2.2.symm.trans hc) Bool.false_ne_true
  · -- whoever is to cancel it is in progress
    have hd := hq st' (mem_of_getElem? hst')
    rw [Stream.Live, hp] at hd
    simp at hd

/-- A stream that finds a free place and gets through. -/
def connectRun (h : Nat) (i : I) (sid : Int) : List (Action I) :=
  [.connect i sid, .loadOrStore h, .hset h, .listen h true, .sendHeader h true]

/-- A client that leaves, up to the deletion of its field. -/
def disconnectRun (h : Nat) : List (Action I) :=
  [.disconnect h, .selectDone h, .deregister h]

/-- The peer leaves one instance, then connects to another. -/
def moveRun : List (Action Nat) :=
  (connectRun 0 1 1 ++ disconnectRun 0) ++ .hdel 0 :: connectRun 1 2 2

/-- The peer reconnects to the same instance; the handler of the replaced stream ends last. -/
def reconnectRun : List (Action Nat) :=
  connectRun 0 1 1 ++
    [.connect 1 2, .loadOrStore 1, .compareAndSwap 1, .cancelPrev 1, .hset 1,
     .listen 1 true, .sendHeader 1 true, .selectDone 0, .deregister 0, .hdel 0]

theorem moveRun_allowed : AllowedRun step StepAllowed init moveRun := by
  have hf : ∀ (h : Nat) (i : Nat) (sid : Int),
      ∀ a ∈ connectRun h i sid ++ disconnectRun h, ∀ s : State Nat, StepAllowed s a := by
    intro h i sid
    simp [connectRun, disconnectRun, StepAllowed]
  refine allowedRun_append _ _ _ (allowedRun_of_forall _ _ (hf 0 1 1)) ?_
  intro m hm
  refine ⟨?_, fun s' _ => allowedRun_of_forall _ _ (fun a ha => hf 1 2 2 a (mem_append_left _ ha))⟩
  -- the only stream there is stands at its `HDEL`
  have ho : (run step (init : State Nat) (connectRun 0 1 1 ++ disconnectRun 0)).map
      (·.streams) = some [⟨1, 1, .hdel, false, true⟩] := by decide
  rw [hm] at ho
  have hsr : m.streams = [⟨1, 1, .hdel, false, true⟩] := Option.some.inj ho
  intro i h st _ _ hst hs
  have hme := mem_of_getElem? hst
  rw [hsr, mem_singleton] at hme
  rw [hme] at hs
  exact hs.1

/-- The peer moves from one instance to another, leaving the first one in time. -/
theorem registry_correct_after_move :
    ∃ s, run step (init : State Nat) moveRun = some s ∧ s.redis = some 2 ∧ RegistryCorrect s := by
  obtain ⟨s, hs, hr⟩ := map_eq_some_iff.mp
    (show (run step init moveRun).map (·.redis) = some (some 2) by decide)
  exact ⟨s, hs, hr, registry_correct_of_allowed moveRun [] s moveRun_allowed hs⟩

theorem registered_after_move :
    ∃ s, run step (init : State Nat) moveRun = some s ∧ s.registry 2 = some 1 := by
  obtain ⟨s, hs, hst⟩ := map_eq_some_iff.mp (show (run step init moveRun).map (·.streams) =
    some [⟨1, 1, .done, false, true⟩, ⟨2, 2, .connected, false, false⟩] by decide)
  exact ⟨s, hs, registered_of_live moveRun s moveRun_allowed hs (by rw [Quiescent, hst]; decide) 1
    ⟨2, 2, .connected, false, false⟩ (by rw [hst]; rfl) ⟨rfl, rfl, rfl⟩⟩

/-- **The defect.**  A peer reconnects to the same instance; the handler of the
    replaced stream then deletes the field that the new stream has written. -/
theorem registry_lost_on_reconnect :
    ∃ s, run step (init : State Nat) reconnectRun = some s ∧
      Quiescent s ∧ LiveAt s 1 ∧ s.redis = none ∧ ¬ RegistryCorrect s := by
  have hru : (run step (init : State Nat) reconnectRun).map
      (fun s => (s.redis, s.registry 1, s.streams)) =
      some (none, some 1,
        [⟨1, 1, .done, true, false⟩, ⟨1, 2, .connected, false, false⟩]) := by decide
  obtain ⟨s, hs, ho⟩ := map_eq_some_iff.mp hru
  obtain ⟨hr, hre, hsr⟩ : s.redis = none ∧ s.registry 1 = some 1 ∧ s.streams =
      [⟨1, 1, .done, true, false⟩, ⟨1, 2, .connected, false, false⟩] := by
    simpa only [Prod.mk.injEq] using ho
  have hl : LiveAt s 1 :=
    ⟨1, ⟨1, 2, .connected, false, false⟩, hre, by rw [hsr]; rfl, rfl, rfl, rfl⟩
  have hq : Quiescent s := by
    rw [Quiescent, hsr]
    decide
  refine ⟨s, hs, hq, hl, hr, ?_⟩
  intro hc
  obtain ⟨i, hi, -⟩ := hc hq ⟨1, hl⟩
  cases hr.symm.trans hi

end SignalRegistry

import NetbirdHa.TransitionProofs
import Mathlib.Data.List.Nodup

/-! # The relay manager: who hears of a lost connection

Each worker adds a method of its own as a listener for its relay server.  The manager takes
listeners with the same code for the same, and one method has the same code for all workers.
So only the first of the workers of a server is called (`invoked_once_iff`).

The track of a foreign server stays when the connection to it is lost, until a clean-up finds
it unused.  Until then `OpenConn` gets the lost client from it and does not dial the server
again (`dials_iff`). -/

namespace RelayManager

open Function List Transition

/-- A method value: its code, and the worker that it is bound to. -/
structure Listener where
  code : Nat
  worker : Nat
deriving DecidableEq

/-- A relay client: the address it dials, and the one the server gave it. -/
structure Client where
  connectionURL : String
  instanceURL : Option String

/-- The home relay and the listeners. -/
structure Manager where
  relayClient : Option Client
  onDisconnectedListeners : String → List Listener := fun _ => []

variable (m : Manager) (serverAddress : String) (l : Listener)

/-- `addListener`: the same function is entered once. -/
def Manager.addListener : Manager :=
  if (m.onDisconnectedListeners serverAddress).any (·.code = l.code) then m
  else
    { m with
      onDisconnectedListeners := update m.onDisconnectedListeners serverAddress
        (m.onDisconnectedListeners serverAddress ++ [l]) }

/-- Where listeners for a server are kept, if the manager is connected. -/
def Manager.listenerAddr : Except String String :=
  match m.relayClient.bind fun c => c.instanceURL.map (c, ·) with
  | none => .error "relay client not connected"
  | some (c, rAddr) => .ok (if rAddr ≠ serverAddress then serverAddress else c.connectionURL)

/-- `AddCloseListener`. -/
def Manager.addCloseListener : Except String Manager :=
  (m.listenerAddr serverAddress).map (m.addListener · l)

/-- The workers of a server add their method in turn. -/
def Manager.addWorkers (code : Nat) (ws : List Nat) : Except String Manager :=
  ws.foldlM (fun m w => m.addCloseListener serverAddress ⟨code, w⟩) m

/-- `notifyOnDisconnectListeners`: who is called, and the manager after it. -/
def Manager.notifyOnDisconnectListeners : List Listener × Manager :=
  (m.onDisconnectedListeners serverAddress,
    { m with onDisconnectedListeners := update m.onDisconnectedListeners serverAddress [] })

variable {m} {serverAddress} {code w : Nat} {addr : String}

/-- Workers that come after one with the same code are not added. -/
theorem addWorkers_same (ha : m.listenerAddr serverAddress = .ok addr)
    (h : (m.onDisconnectedListeners addr).any (·.code = code)) (ws : List Nat) :
    m.addWorkers serverAddress code ws = .ok m := by
  induction ws with
  | nil => rfl
  | cons w ws ih =>
    -- the listener is taken for the one that is there
    have hm : m.addCloseListener serverAddress ⟨code, w⟩ = .ok m := by
      rw [Manager.addCloseListener, ha]
      exact congrArg Except.ok (if_pos h)
    rw [Manager.addWorkers, foldlM_cons, hm]
    exact ih

/-- **Who is called.**  When the connection is lost, each of the workers is called exactly
    once if and only if there is no more than one. -/
theorem invoked_once_iff (m : Manager) (serverAddress addr : String) (code : Nat) (ws : List Nat)
    (ha : m.listenerAddr serverAddress = .ok addr) (hn : m.onDisconnectedListeners addr = [])
    (hw : ws.Nodup) :
    ∃ m', m.addWorkers serverAddress code ws = .ok m' ∧
      ((∀ w ∈ ws, (m'.notifyOnDisconnectListeners addr).1.count ⟨code, w⟩ = 1) ↔
        ws.length ≤ 1) := by
  cases ws with
  | nil => exact ⟨m, rfl, by simp⟩
  | cons w ws =>
    have hl : (m.addListener addr ⟨code, w⟩).onDisconnectedListeners addr = [⟨code, w⟩] := by
      simp [Manager.addListener, hn]
    have hf : m.addCloseListener serverAddress ⟨code, w⟩ = .ok (m.addListener addr ⟨code, w⟩) := by
      rw [Manager.addCloseListener, ha]
      rfl
    refine ⟨m.addListener addr ⟨code, w⟩, ?_, ?_⟩
    · rw [Manager.addWorkers, foldlM_cons, hf]
      have ha' : (m.addListener addr ⟨code, w⟩).listenerAddr serverAddress = .ok addr := by
        rw [← ha, Manager.addListener]
        split <;> rfl
      exact addWorkers_same ha' (by simp [hl]) ws
    · rw [Manager.notifyOnDisconnectListeners, hl]
      cases ws with
      | nil => simp
      | cons w' ws =>
        -- the second worker has no listener
        have hne : w ≠ w' := fun he => (nodup_cons.mp hw).1 (he ▸ mem_cons_self)
        refine iff_of_false (fun h => ?_) (by simp)
        simpa [hne] using h w' (by simp)

/-- A manager whose home relay has told its address. -/
def home : Manager := { relayClient := some ⟨"rels://home", some "rels://home:443"⟩ }

/-- A worker that is alone is called. -/
theorem invoked_once_alone :
    ∃ m, home.addWorkers "rels://home:443" 0 [1] = .ok m ∧
      (m.notifyOnDisconnectListeners "rels://home").1.count ⟨0, 1⟩ = 1 := by
  obtain ⟨m, hm, h⟩ :=
    invoked_once_iff home "rels://home:443" "rels://home" 0 [1] rfl rfl (by decide)
  exact ⟨m, hm, h.mpr (by decide) 1 (by decide)⟩

/-- Of two workers only the first is called. -/
theorem second_not_invoked :
    (home.addWorkers "rels://home:443" 0 [1, 2]).map
      (·.notifyOnDisconnectListeners "rels://home" |>.1) = .ok [⟨0, 1⟩] := rfl

/-! ## Foreign servers

Beside the tracks of the manager a state has what a bystander can tell from the calls, the
disconnects and the clean-ups: the last client of each server, which clients were lost, and which
a clean-up had to find unused. -/

/-- A foreign relay: its client, and when it was opened. -/
structure RelayTrack where
  relayClient : Nat
  created : Nat
deriving DecidableEq

/-- What an `OpenConn` did, and the client of the server before it, if that was lost. -/
structure Opened where
  lost : Option Nat
  dialled : Bool
  client : Option Nat
deriving DecidableEq

/-- The clients are numbered as they are made. -/
structure State where
  relayClients : String → Option RelayTrack := fun _ => none
  next : Nat := 0
  /-- The clients whose disconnect was reported. -/
  lost : List Nat := []
  /-- The last client that was connected to a server. -/
  last : String → Option RelayTrack := fun _ => none
  /-- What was old at a clean-up, and lost or without connections. -/
  unused : RelayTrack → Bool := fun _ => false
  opened : List Opened := []

/-- What can happen to the manager. -/
inductive Action where
  | openConn (serverAddress : String) (now : Nat) (connects : Bool)
  | disconnect (client : Nat)
  | cleanUpUnusedRelays (now : Nat) (hasConns : Nat → Bool)

variable (keepUnusedServerTime : Nat)

/-- A clean-up keeps a new track, and one whose client has connections; a lost one has none. -/
def keeps (s : State) (now : Nat) (hasConns : Nat → Bool) (rt : RelayTrack) : Bool :=
  now - rt.created ≤ keepUnusedServerTime || hasConns rt.relayClient && rt.relayClient ∉ s.lost

/-- The last client of the server, if its disconnect was reported. -/
def State.lostClient (s : State) (serverAddress : String) : Option Nat :=
  ((s.last serverAddress).map RelayTrack.relayClient).filter (· ∈ s.lost)

/-- One step; a dial that fails leaves no track. -/
def step (s : State) : Action → Option State
  | .openConn serverAddress now connects =>
    let lost := s.lostClient serverAddress
    match s.relayClients serverAddress with
    | some rt => some { s with opened := ⟨lost, false, some rt.relayClient⟩ :: s.opened }
    | none =>
      if connects then
        some { s with
          relayClients := update s.relayClients serverAddress (some ⟨s.next, now⟩)
          next := s.next + 1
          last := update s.last serverAddress (some ⟨s.next, now⟩)
          opened := ⟨lost, true, some s.next⟩ :: s.opened }
      else some { s with opened := ⟨lost, true, none⟩ :: s.opened }
  | .disconnect client =>
    if client < s.next then some { s with lost := client :: s.lost } else none
  | .cleanUpUnusedRelays now hasConns =>
    some { s with
      relayClients := fun addr =>
        (s.relayClients addr).filter (keeps keepUnusedServerTime s now hasConns)
      unused := fun rt => s.unused rt ||
        decide (rt.relayClient < s.next) && !keeps keepUnusedServerTime s now hasConns rt }

/-- After its disconnect was reported no client was used again: the server was dialled. -/
def Good (s : State) : Prop :=
  ∀ o ∈ s.opened, ∀ client, o.lost = some client → o.dialled ∧ o.client ≠ some client

/-- A connection is opened to a server whose last client was lost only after a clean-up had to
    find that client unused. -/
def Swept (s : State) : Action → Prop
  | .openConn serverAddress _ _ =>
    ∀ rt ∈ s.last serverAddress, rt.relayClient ∈ s.lost → s.unused rt
  | _ => True

/-- The manager has the track of the last client of a server until it is found unused. -/
structure Tracks (s : State) : Prop where
  tracks : ∀ addr, s.relayClients addr = (s.last addr).filter (!s.unused ·)
  last : ∀ addr rt, s.last addr = some rt → rt.relayClient < s.next
  unused : ∀ rt, s.unused rt → rt.relayClient < s.next

variable {keepUnusedServerTime} {s s' : State} {a : Action} {client : Nat}

/-- The last client of a server that was lost. -/
theorem lostClient_eq_some : s.lostClient serverAddress = some client ↔
    ∃ rt, s.last serverAddress = some rt ∧ rt.relayClient = client ∧ client ∈ s.lost := by
  simp only [State.lostClient, Option.filter_eq_some_iff, Option.map_eq_some_iff,
    decide_eq_true_iff]
  grind

/-- The tracks of the manager follow what a bystander sees. -/
theorem tracks_step (hi : Tracks s) (h : step keepUnusedServerTime s a = some s') : Tracks s' := by
  obtain ⟨ht, hl, hu⟩ := hi
  cases a with
  | openConn addr now connects =>
    rw [step] at h
    split at h
    · cases h
      exact ⟨ht, hl, hu⟩
    split at h
    · cases h
      -- the new client has a number that none was found unused by
      have hn : s.unused ⟨s.next, now⟩ = false := by
        by_contra hc
        exact Nat.lt_irrefl _ (hu _ (Bool.not_eq_false _ ▸ hc))
      refine ⟨fun a => ?_, fun a rt ha => ?_, fun rt hr => Nat.lt_succ_of_lt (hu rt hr)⟩
      · by_cases he : a = addr
        · simp [he, Option.filter, hn]
        · simp [he, ht]
      · by_cases he : a = addr
        · simp only [he, update_self, Option.some.injEq] at ha
          exact ha ▸ Nat.lt_succ_self _
        · simp only [ne_eq, he, not_false_eq_true, update_of_ne] at ha
          exact Nat.lt_succ_of_lt (hl a rt ha)
    · cases h
      exact ⟨ht, hl, hu⟩
  | disconnect client =>
    rw [step] at h
    split at h <;> cases h
    exact ⟨ht, hl, hu⟩
  | cleanUpUnusedRelays now hasConns =>
    cases h
    refine ⟨fun a => ?_, hl, fun rt hr => ?_⟩
    · show (s.relayClients a).filter _ = _
      rw [ht]
      cases ha : s.last a with
      | none => rfl
      | some rt =>
        have hlt := hl a rt ha
        cases hun : s.unused rt <;> simp [Option.filter, hun, hlt]
    · rcases Bool.or_eq_true_iff.mp hr with hr | hr
      · exact hu rt hr
      · exact of_decide_eq_true (Bool.and_eq_true_iff.mp hr).1

/-- **One step.** -/
theorem good_step_iff (hi : Tracks s) (h : step keepUnusedServerTime s a = some s') :
    Good s' ↔ Good s ∧ Swept s a := by
  cases a with
  | openConn addr now connects =>
    have htr := hi.tracks addr
    rw [step] at h
    split at h
    · next rt hrt =>
      -- the track is that of the last client, which no clean-up found unused
      obtain ⟨hla, hun⟩ := Option.filter_eq_some_iff.mp (htr.symm.trans hrt)
      cases h
      have hsw : Swept s (.openConn addr now connects) ↔ rt.relayClient ∉ s.lost := by
        have hun : s.unused rt = false := by simpa using hun
        simp [Swept, hla, hun]
      simp only [Good, forall_mem_cons, lostClient_eq_some, hla, hsw]
      grind
    · next hrt =>
      -- whatever was lost has been found unused, and a new client has another number
      have hsw : Swept s (.openConn addr now connects) := by
        intro rt hla _
        by_contra hun
        rw [htr, Option.filter_eq_none_iff] at hrt
        exact hrt rt hla (by simpa using hun)
      have hne : ∀ client, s.lostClient addr = some client → s.next ≠ client := by
        intro client hc
        obtain ⟨rt, hla, rfl, -⟩ := lostClient_eq_some.mp hc
        exact Nat.ne_of_gt (hi.last addr rt hla)
      split at h
      · cases h
        simp [Good, hsw]
        grind
      · cases h
        simp [Good, hsw]
  | disconnect client =>
    rw [step] at h
    split at h <;> cases h
    exact (and_iff_left trivial).symm
  | cleanUpUnusedRelays now hasConns =>
    cases h
    exact (and_iff_left trivial).symm

/-- **A server is dialled again** after the disconnect of its client was reported, and that client
    is not used, exactly if every connection to such a server is opened after a clean-up. -/
theorem dials_iff (keepUnusedServerTime : Nat) (as : List Action) (s : State)
    (h : run (step keepUnusedServerTime) {} as = some s) :
    Good s ↔ AllowedRun (step keepUnusedServerTime) Swept {} as :=
  (run_good_iff (fun _ _ _ => tracks_step) (fun _ _ _ => good_step_iff) as {} s
    ⟨fun _ => rfl, nofun, nofun⟩ h).trans (and_iff_right fun _ hu => absurd hu not_mem_nil)

/-- After a clean-up the server is dialled again: the connection is one of a second client. -/
theorem dials_cleaned :
    ∃ s, run (step 5) {} [.openConn "rels://far" 0 true, .disconnect 0,
      .cleanUpUnusedRelays 60 fun _ => false, .openConn "rels://far" 61 true] = some s ∧
        s.opened = [⟨some 0, true, some 1⟩, ⟨none, true, some 0⟩] ∧ Good s :=
  exists_end rfl fun s hs => ⟨Option.some.inj hs ▸ rfl,
    (dials_iff 5 _ s hs).mpr (by simp [AllowedRun, Swept, step, keeps])⟩

/-- Before it the lost client is used, and the server is not dialled. -/
theorem reuses_lost :
    (run (step 5) {} [.openConn "rels://far" 0 true, .disconnect 0,
      .openConn "rels://far" 1 true]).map State.opened =
        some [⟨some 0, false, some 0⟩, ⟨none, true, some 0⟩] := rfl

end RelayManager

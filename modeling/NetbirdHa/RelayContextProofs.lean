import NetbirdHa.PortRouterProofs
import NetbirdHa.TransitionProofs

/-! # The contexts of relayed connections

All relays of a service run under one context, which the router makes when the first
of them starts and cancels when a route of the service is removed.  A connection looks
its route up, has it checked against the restrictions of the route and asks for the
context in steps that do not hold the lock together, and nothing in between asks whether
the route is still there.

`Moves` lists what a step of a connection can do.  On every run a context that has been
handed out is the one of its service or is cancelled (`Inv`). -/

namespace RelayContext

open Netip PortRouter Restrict Table Transition List AList

/-! ## Contexts -/

/-- `svcCtxs` and `svcCancels`.  Contexts are numbered as they are made. -/
structure Contexts where
  current : GoMap Nat
  cancelled : List Nat
  next : Nat
  current_lt : ∀ svc ctx, current.lookup svc = some ctx → ctx < next
  cancelled_lt : ∀ ctx ∈ cancelled, ctx < next

/-- No service has a context yet. -/
def Contexts.empty : Contexts := ⟨∅, [], 0, nofun, nofun⟩

variable {ctx : Nat} {toLower : String → String} {x : Contexts}

namespace Contexts

variable (x : Contexts) (svcID : String)

/-- `cancelServiceLocked`: the service's context is cancelled and forgotten. -/
def cancelServiceLocked : Contexts :=
  match h : x.current.lookup svcID with
  | none => x
  | some ctx =>
    { current := x.current.erase svcID
      cancelled := ctx :: x.cancelled
      next := x.next
      current_lt := fun svc c hc => by
        by_cases hsvc : svc = svcID
        · rw [hsvc, lookup_erase] at hc
          cases hc
        · rw [lookup_erase_ne hsvc] at hc
          exact x.current_lt svc c hc
      cancelled_lt := forall_mem_cons.mpr ⟨x.current_lt svcID ctx h, x.cancelled_lt⟩ }

/-- `getOrCreateServiceCtxLocked`. -/
def getOrCreateServiceCtxLocked : Nat × Contexts :=
  match x.current.lookup svcID with
  | some ctx => (ctx, x)
  | none => (x.next,
      { current := x.current.insert svcID x.next
        cancelled := x.cancelled
        next := x.next + 1
        current_lt := fun svc c hc => by
          by_cases hsvc : svc = svcID
          · rw [hsvc, lookup_insert] at hc
            exact Option.some.inj hc ▸ Nat.lt_succ_self x.next
          · rw [lookup_insert_ne hsvc] at hc
            exact Nat.lt_succ_of_lt (x.current_lt svc c hc)
        cancelled_lt := fun c hc => Nat.lt_succ_of_lt (x.cancelled_lt c hc) })

variable {x svcID}

/-- Cancelling forgets the service's context and no other. -/
theorem lookup_cancelServiceLocked (svc : String) :
    (x.cancelServiceLocked svcID).current.lookup svc =
      if svc = svcID then none else x.current.lookup svc := by
  rw [cancelServiceLocked]
  split
  · next hn =>
    split
    · next hs => rw [hs, hn]
    · rfl
  · split
    · next hs => rw [hs]; exact lookup_erase svcID x.current
    · next hs => exact lookup_erase_ne hs

/-- Cancelling adds the service's context. -/
theorem mem_cancelServiceLocked : ctx ∈ (x.cancelServiceLocked svcID).cancelled ↔
    ctx ∈ x.cancelled ∨ x.current.lookup svcID = some ctx := by
  rw [cancelServiceLocked]
  split
  · next hn => simp [hn]
  · next c hc => simp [hc, or_comm, eq_comm]

/-- Asking for a context cancels none. -/
theorem cancelled_getOrCreate :
    (x.getOrCreateServiceCtxLocked svcID).2.cancelled = x.cancelled := by
  rw [getOrCreateServiceCtxLocked]
  split
  · rfl
  · rfl

/-- Asking for a context leaves the other services. -/
theorem lookup_getOrCreate (svc : String) :
    (x.getOrCreateServiceCtxLocked svcID).2.current.lookup svc =
      if svc = svcID then some (x.getOrCreateServiceCtxLocked svcID).1
      else x.current.lookup svc := by
  rw [getOrCreateServiceCtxLocked]
  split
  · next ctx hc =>
    split
    · next hs => rw [hs, hc]
    · rfl
  · split
    · next hs => rw [hs]; exact lookup_insert x.current
    · next hs => exact lookup_insert_ne hs

/-- A context that is made now has not been cancelled. -/
theorem getOrCreate_not_mem (h : x.current.lookup svcID = none) :
    (x.getOrCreateServiceCtxLocked svcID).1 ∉ x.cancelled := by
  rw [getOrCreateServiceCtxLocked]
  split
  · next hc => cases h.symm.trans hc
  · exact fun hm => Nat.lt_irrefl x.next (x.cancelled_lt x.next hm)

end Contexts

/-! ## Connections -/

/-- What `PeekClientHello` makes of a connection: a name, a connection that can still be
    relayed, or an error after which it is closed. -/
inductive Peek where
  | hello (sni : String)
  | unread
  | failed
deriving DecidableEq

/-- How far `handleConn` has come with a connection; each phase is followed by a step that
    takes the lock, or waits for the client, or for the relay to end. -/
inductive Phase where
  | accepted
  | peeking
  | named (host : String)
  | unmatched
  | routed (route : Route)
  | checked (route : Route)
  | acquired (route : Route) (ctx : Nat)
  | relaying (route : Route) (ctx : Nat)
  | ended

/-- A connection with the address that `addrFromConn` finds. -/
structure Conn where
  remote : Option Addr
  phase : Phase

/-- What country lookups and CrowdSec know when a connection is checked. -/
structure Knowledge where
  geo : Option GeoResolver
  crowdSec : CrowdSecChecker

/-- `checkRestrictions`: an address that cannot be read is denied. -/
def checkRestrictions (know : Knowledge) (remote : Option Addr) (route : Route) : Verdict :=
  match route.filter with
  | none => .allow
  | some f =>
    match remote with
    | none => .denyCIDR
    | some addr =>
      check (some { f with crowdSec := f.crowdSec.map (fun _ => know.crowdSec) }) addr know.geo

/-- `relayTCP` goes on after the check. -/
def passes (know : Knowledge) (remote : Option Addr) (route : Route) : Bool :=
  let verdict := checkRestrictions know remote route
  verdict = .allow || (route.filter.any (·.isObserveOnly verdict))

/-! ## The system -/

/-- The relays that may run at once. -/
def defaultMaxRelayConns : Nat := 4096

/-- The router with its contexts and connections; `done` says that the context of the server
    has been cancelled, `http` that there is an HTTP channel. -/
structure System where
  router : Router
  http : Bool
  contexts : Contexts
  done : Bool
  draining : Bool
  conns : List Conn

/-- A router that has seen nothing. -/
def initial (http : Bool) : System := ⟨{}, http, Contexts.empty, false, false, []⟩

/-- The slots of `relaySem` that a connection holds. -/
def Conn.slots (conn : Conn) : Nat :=
  match conn.phase with
  | .relaying _ _ => 1
  | _ => 0

/-- The slots its connections hold. -/
def System.slotsHeld (s : System) : Nat := (s.conns.map Conn.slots).sum

/-- `isFallbackOnly`: no host has a route, and there is no HTTP server. -/
def System.isFallbackOnly (s : System) : Bool := s.router.routes.keys.isEmpty && !s.http

/-- A step of `handleConn`. -/
inductive Move where
  | look
  | peek (result : Peek)
  | lookup
  | fallback
  | check (know : Knowledge)
  | acquire
  | slot
  | finish

section

variable (toLower : String → String)

section

variable (s : System)

/-- Where a step takes a connection; one that is sent to the HTTP channel is not followed
    further. -/
def phaseAfter (remote : Option Addr) : Phase → Move → Option Phase
  | .accepted, .look => some (if s.isFallbackOnly then .unmatched else .peeking)
  | .peeking, .peek (.hello sni) => some (.named (toLower sni))
  | .peeking, .peek .unread => some .unmatched
  | .peeking, .peek .failed => some .ended
  | .named host, .lookup =>
    match s.router.lookupRoute host with
    | none => some .unmatched
    | some route => some (if route.type = .http then .ended else .routed route)
  | .unmatched, .fallback =>
    -- whatever the type of the fallback, the connection is relayed
    match s.router.fallback with
    | none => some .ended
    | some route => some (.routed route)
  | .routed route, .check know => some (if passes know remote route then .checked route else .ended)
  | .checked route, .acquire =>
    some (if s.draining then .ended
      else .acquired route (s.contexts.getOrCreateServiceCtxLocked route.serviceID).1)
  | .acquired route ctx, .slot =>
    some (if s.slotsHeld < defaultMaxRelayConns then .relaying route ctx else .ended)
  | .relaying _ _, .finish => some .ended
  | _, _ => none

/-- The contexts after a step of a connection. -/
def contextsAfter : Phase → Move → Contexts
  | .checked route, .acquire =>
    if s.draining then s.contexts
    else (s.contexts.getOrCreateServiceCtxLocked route.serviceID).2
  | _, _ => s.contexts

/-- `AddRoute` cancels the context of the service if it replaces a route of it. -/
def System.addRoute (host : String) (route : Route) : System :=
  { s with
    router := s.router.addRoute toLower host route
    contexts :=
      if toLower host ≠ "" ∧
          ∃ existing ∈ s.router.routesFor (toLower host), existing.serviceID = route.serviceID then
        s.contexts.cancelServiceLocked route.serviceID
      else s.contexts }

/-- `RemoveRoute`, which ends the service's relays. -/
def System.removeRoute (host svcID : String) : System :=
  { s with
    router := s.router.removeRoute toLower host svcID
    contexts := s.contexts.cancelServiceLocked svcID }

/-- `SetFallback`. -/
def System.setFallback (route : Route) : System :=
  { s with router := s.router.setFallback route }

/-- `RemoveFallback`, which ends the service's relays. -/
def System.removeFallback (svcID : String) : System :=
  { s with
    router := s.router.removeFallback svcID
    contexts := s.contexts.cancelServiceLocked svcID }

/-- What can happen to the router. -/
inductive Action where
  | accept (remote : Option Addr)
  | conn (i : Nat) (move : Move)
  | addRoute (host : String) (route : Route)
  | removeRoute (host svcID : String)
  | setFallback (route : Route)
  | removeFallback (svcID : String)
  | drain
  | shutdown

/-- One thing happens; `none` where it cannot. -/
def step : Action → Option System
  | .accept remote => some { s with conns := s.conns ++ [⟨remote, .accepted⟩] }
  | .conn i move =>
    (s.conns[i]?).bind (fun conn => (phaseAfter toLower s conn.remote conn.phase move).map
      (fun phase =>
        { s with
          contexts := contextsAfter s conn.phase move
          conns := s.conns.set i { conn with phase := phase } }))
  | .addRoute host route => some (s.addRoute toLower host route)
  | .removeRoute host svcID => some (s.removeRoute toLower host svcID)
  | .setFallback route => some (s.setFallback route)
  | .removeFallback svcID => some (s.removeFallback svcID)
  | .drain => some { s with draining := true }
  | .shutdown => some { s with done := true }

end

end

/-- A context is cancelled with its service or with the server. -/
def System.Cancelled (s : System) (ctx : Nat) : Prop := s.done = true ∨ ctx ∈ s.contexts.cancelled

/-! ## What a step of a connection can do -/

/-- The context that a connection has been given, with its service. -/
def Phase.context : Phase → Option (String × Nat)
  | .acquired route ctx => some (route.serviceID, ctx)
  | .relaying route ctx => some (route.serviceID, ctx)
  | _ => none

/-- The route that a connection has been given, up to the context. -/
def Phase.route : Phase → Option Route
  | .routed route => some route
  | .checked route => some route
  | _ => none

/-- The restrictions of the route let the address through at some time. -/
def Admitted (remote : Option Addr) (route : Route) : Prop := ∃ know, passes know remote route

/-- A TCP route of the service that a connection for the host can find, or the fallback. -/
inductive Offers (r : Router) : Route → Prop
  | host {host : String} {route : Route} (mem : route ∈ r.routesFor host)
    (tcp : route.type = .tcp) :
      Offers r route
  | fallback {route : Route} (set : r.fallback = some route) : Offers r route

/-- Where a connection can come from and go to in one step. -/
inductive Moves (s : System) (remote : Option Addr) : Phase → Phase → Contexts → Prop
  | away {p q : Phase} (hroute : q.route = none) (hcontext : q.context = none)
      (hslots : Conn.slots ⟨remote, q⟩ = 0) : Moves s remote p q s.contexts
  | route {p : Phase} {route : Route} (hp : p.route = none) (h : Offers s.router route) :
      Moves s remote p (.routed route) s.contexts
  | check {route : Route} (h : Admitted remote route) :
      Moves s remote (.routed route) (.checked route) s.contexts
  | acquire {route : Route} (h : s.draining = false) :
      Moves s remote (.checked route)
        (.acquired route (s.contexts.getOrCreateServiceCtxLocked route.serviceID).1)
        (s.contexts.getOrCreateServiceCtxLocked route.serviceID).2
  | slot {route : Route} {ctx : Nat} (h : s.slotsHeld < defaultMaxRelayConns) :
      Moves s remote (.acquired route ctx) (.relaying route ctx) s.contexts

variable {s : System} {q : Phase}

/-- What a phase's move does, by the relation. -/
theorem moves_of_phaseAfter (h : phaseAfter toLower s remote p move = some q) :
    Moves s remote p q (contextsAfter s p move) := by
  unfold phaseAfter at h
  split at h
  · cases h
    split
    · exact .away rfl rfl rfl
    · exact .away rfl rfl rfl
  · cases h
    exact .away rfl rfl rfl
  · cases h
    exact .away rfl rfl rfl
  · cases h
    exact .away rfl rfl rfl
  · next host =>
    cases hl : s.router.lookupRoute host with
    | none =>
      rw [hl] at h
      cases h
      exact .away rfl rfl rfl
    | some route =>
      rw [hl] at h
      cases h
      split
      · exact .away rfl rfl rfl
      rename_i hty
      refine .route rfl (.host (mem_of_lookupRoute hl) ?_)
      cases hr : route.type with
      | http => exact absurd hr hty
      | tcp => rfl
  · cases hf : s.router.fallback with
    | none =>
      rw [hf] at h
      cases h
      exact .away rfl rfl rfl
    | some route =>
      rw [hf] at h
      cases h
      exact .route rfl (.fallback hf)
  · next know =>
    cases h
    split
    · next hp => exact .check ⟨know, hp⟩
    · exact .away rfl rfl rfl
  · cases h
    rw [contextsAfter]
    cases hd : s.draining with
    | true => exact .away rfl rfl rfl
    | false => exact .acquire hd
  · cases h
    split
    · next hs => exact .slot hs
    · exact .away rfl rfl rfl
  · cases h
    exact .away rfl rfl rfl
  · cases h

/-- A step of a connection, taken apart. -/
theorem step_conn (h : step toLower s (.conn i move) = some s') :
    ∃ conn q x, s.conns[i]? = some conn ∧ Moves s conn.remote conn.phase q x ∧
      s' = { s with contexts := x, conns := s.conns.set i { conn with phase := q } } := by
  obtain ⟨conn, hc, h⟩ := Option.bind_eq_some_iff.mp h
  obtain ⟨q, hq, rfl⟩ := Option.map_eq_some_iff.mp h
  exact ⟨conn, q, _, hc, moves_of_phaseAfter hq, rfl⟩

/-! ## Invariants -/

/-- The routes of a host belong to different services, and hosts are in lower case. -/
structure Routed (toLower : String → String) (r : Router) : Prop where
  nodup : ∀ host, ((r.routesFor host).map Route.serviceID).Nodup
  lower : ∀ host route, route ∈ r.routesFor host → ∃ name, toLower name = host

/-- Every context that is handed out is the one of its service or cancelled. -/
structure Inv (toLower : String → String) (s : System) : Prop where
  routed : Routed toLower s.router
  current : ∀ conn ∈ s.conns, ∀ svc ctx, conn.phase.context = some (svc, ctx) →
    ctx ∈ s.contexts.cancelled ∨ s.contexts.current.lookup svc = some ctx
  slots : s.slotsHeld ≤ defaultMaxRelayConns

section

variable {s' : System} {r : Router} {host svcID : String}
variable {route : Route}

/-- Adding a route adds that route under its host. -/
theorem mem_of_mem_addRoute {x : Route} (hx : x ∈ (r.addRoute toLower host route).routesFor h) :
    x ∈ r.routesFor h ∨ (x = route ∧ h = toLower host ∧ toLower host ≠ "") := by
  rw [Router.addRoute] at hx
  by_cases he : toLower host = ""
  · rw [if_pos he] at hx
    exact .inl hx
  by_cases hh : h = toLower host
  all_goals grind [routesFor_insert]

/-- A route that takes the place of one of its service leaves the services as they are. -/
theorem map_set_findIdx {l : List Route}
    (hl : l.findIdx (·.serviceID = route.serviceID) < l.length) :
    (l.set (l.findIdx (·.serviceID = route.serviceID)) route).map Route.serviceID =
      l.map Route.serviceID := by
  have hi := findIdx_getElem (w := hl)
  rw [decide_eq_true_iff] at hi
  generalize l.findIdx (·.serviceID = route.serviceID) = i at hl hi
  rw [map_set, ← hi, ← getElem_map Route.serviceID (h := by rwa [length_map])]
  exact set_getElem_self _

theorem nodup_addRoute {l : List Route} (hl : (l.map Route.serviceID).Nodup) (route : Route) :
    ((if l.findIdx (·.serviceID = route.serviceID) < l.length then
      l.set (l.findIdx (·.serviceID = route.serviceID)) route
    else l ++ [route]).map Route.serviceID).Nodup := by
  split
  · next hlt => rwa [map_set_findIdx hlt]
  rename_i hlt
  rw [map_append]
  refine nodup_append.mpr ⟨hl, nodup_singleton _, ?_⟩
  intro a ha b hb hab
  obtain ⟨y, hy, hya⟩ := mem_map.mp ha
  refine hlt (findIdx_lt_length_of_exists ⟨y, hy, decide_eq_true ?_⟩)
  rw [hya, hab, mem_singleton.mp hb]

/-- Adding a route keeps one route per service and host. -/
theorem routed_addRoute (h : Routed toLower r) (host : String) (route : Route) :
    Routed toLower (r.addRoute toLower host route) := by
  refine ⟨fun h' => ?_, fun h' x hx => ?_⟩
  · rw [Router.addRoute]
    split
    · exact h.nodup h'
    have hn := nodup_addRoute (h.nodup (toLower host)) route
    dsimp only
    split
    · next hl =>
      rw [if_pos hl] at hn
      rw [routesFor_insert]
      split
      · exact hn
      · exact h.nodup h'
    · next hl =>
      rw [if_neg hl] at hn
      rw [routesFor_insert]
      split
      · exact hn
      · exact h.nodup h'
  · rcases mem_of_mem_addRoute hx with hm | ⟨-, hh, -⟩
    · exact h.lower h' x hm
    · exact ⟨host, hh.symm⟩

/-- So does removing one. -/
theorem routed_removeRoute (h : Routed toLower r) (host svcID : String) :
    Routed toLower (r.removeRoute toLower host svcID) := by
  refine ⟨fun h' => ?_, fun h' x hx => ?_⟩
  · rw [routesFor_removeRoute]
    split
    · exact (h.nodup (toLower host)).sublist (filter_sublist.map Route.serviceID)
    · exact h.nodup h'
  · exact h.lower h' x (mem_routesFor_removeRoute.mp hx).1

/-- Cancelling a service keeps what is known of the contexts that are handed out. -/
theorem current_cancel (svcID : String) (h : ctx ∈ x.cancelled ∨ x.current.lookup svc = some ctx) :
    ctx ∈ (x.cancelServiceLocked svcID).cancelled ∨
      (x.cancelServiceLocked svcID).current.lookup svc = some ctx := by
  grind [Contexts.mem_cancelServiceLocked, Contexts.lookup_cancelServiceLocked]

/-- A slot is taken only while there is one. -/
theorem slots_of_moves (h : Moves s remote p q x) :
    s.slotsHeld + Conn.slots ⟨remote, q⟩ ≤ defaultMaxRelayConns ∨ Conn.slots ⟨remote, q⟩ = 0 := by
  cases h with
  | away _ _ hs => exact .inr hs
  | route _ _ | check _ | acquire _ => exact .inr rfl
  | slot hl => exact .inl hl

/-- A connection's move keeps the invariant. -/
theorem inv_conn (h : Inv toLower s) (hco : s.conns[i]? = some conn)
    (hm : Moves s conn.remote conn.phase q x) :
    Inv toLower { s with contexts := x, conns := s.conns.set i { conn with phase := q } } := by
  obtain ⟨remote, p⟩ := conn
  dsimp only at hm ⊢
  have hme : ⟨remote, p⟩ ∈ s.conns := mem_of_getElem? hco
  have hsu := sum_map_set Conn.slots hco ⟨remote, q⟩
  have hs := h.slots
  rw [System.slotsHeld] at hs
  refine ⟨h.routed, ?_, ?_⟩
  · intro conn' hc' svc ctx hct
    rcases mem_or_eq_of_mem_set hc' with hold | rfl
    · have hk := h.current conn' hold svc ctx hct
      cases hm with
      | acquire _ =>
        grind [Contexts.lookup_getOrCreate, Contexts.getOrCreateServiceCtxLocked]
      | away _ _ _ | route _ _ | check _ | slot _ => exact hk
    · cases hm with
      | away _ hc _ => cases hc.symm.trans hct
      | route _ _ | check _ => cases hct
      | acquire _ =>
        obtain ⟨rfl, rfl⟩ := Prod.mk.inj (Option.some.inj hct)
        rw [Contexts.lookup_getOrCreate, if_pos rfl]
        exact .inr rfl
      | slot _ => exact h.current _ hme svc ctx hct
  · show ((s.conns.set i ⟨remote, q⟩).map Conn.slots).sum ≤ _
    have hh := slots_of_moves hm
    rw [System.slotsHeld] at hh
    omega

/-- Every action keeps the invariant. -/
theorem inv_step (h : Inv toLower s) (hs : step toLower s a = some s') : Inv toLower s' := by
  cases a with
  | accept remote =>
    cases hs
    refine ⟨h.routed, fun conn hc svc ctx hct => ?_, ?_⟩
    · rcases mem_append.mp hc with hold | hn
      · exact h.current conn hold svc ctx hct
      · obtain rfl := mem_singleton.mp hn
        cases hct
    · have hsl := h.slots
      rw [System.slotsHeld] at hsl ⊢
      rw [map_append, sum_append]
      exact hsl
  | conn i move =>
    obtain ⟨conn, q, x, hc, hm, rfl⟩ := step_conn hs
    exact inv_conn h hc hm
  | addRoute host route =>
    cases hs
    refine ⟨routed_addRoute h.routed host route, fun conn hc svc ctx hct => ?_, h.slots⟩
    have hk := h.current conn hc svc ctx hct
    rw [System.addRoute]
    split
    · exact current_cancel _ hk
    · exact hk
  | removeRoute host svcID =>
    cases hs
    exact ⟨routed_removeRoute h.routed host svcID,
      fun conn hc svc ctx hct => current_cancel svcID (h.current conn hc svc ctx hct), h.slots⟩
  | setFallback route =>
    cases hs
    exact ⟨⟨h.routed.nodup, h.routed.lower⟩, h.current, h.slots⟩
  | removeFallback svcID =>
    cases hs
    exact ⟨⟨h.routed.nodup, h.routed.lower⟩,
      fun conn hc svc ctx hct => current_cancel svcID (h.current conn hc svc ctx hct), h.slots⟩
  | drain | shutdown =>
    cases hs
    exact ⟨h.routed, h.current, h.slots⟩

theorem inv_initial (http : Bool) : Inv toLower (initial http) :=
  ⟨⟨fun _ => nodup_nil, fun _ _ h => absurd h not_mem_nil⟩,
    fun _ h => absurd h not_mem_nil, Nat.zero_le _⟩

/-- Every reachable system has the invariant. -/
theorem inv_run (hr : run (step toLower) (initial http) as = some s) : Inv toLower s :=
  have ha : AllowedRun (step toLower) (fun _ _ => True) (initial http) as :=
    allowedRun_of_forall as _ fun _ _ _ => trivial
  run_invariant (fun _ _ _ h _ hs => inv_step h hs) as (initial http) s (inv_initial http) ha hr

end

end RelayContext

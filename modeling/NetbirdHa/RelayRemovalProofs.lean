import NetbirdHa.RelayContextProofs

/-! # Relays after a route is removed

After `RemoveRoute` no relay of the service runs on, since every context that was
handed out has been cancelled.  One can start, under a new context that nobody has
cancelled: for a connection that is past its lookup, and for the routes that the service
has under other hosts or as the fallback.  `removed_quiet_iff` says that these are all:
in their absence every step keeps the service `Safe`, and each of them leads to a relay
that runs (`Escapes`). -/

namespace RelayContext

open Netip PortRouter Transition List Contexts

/-- The action does not add the service. -/
def NotAdds (toLower : String → String) (svcID : String) : Action → Prop
  | .addRoute host route => route.serviceID = svcID → toLower host = ""
  | .setFallback route => route.serviceID ≠ svcID
  | _ => True

/-- Every relay of the service runs under a cancelled context. -/
def Quiet (svcID : String) (s : System) : Prop :=
  ∀ conn ∈ s.conns, ∀ route ctx, conn.phase = .relaying route ctx → route.serviceID = svcID →
    s.Cancelled ctx

/-- The restrictions of the route let some address through at some time. -/
def Admits (route : Route) : Prop := ∃ remote, Admitted remote route

/-- The connection has a route of the service and no context yet, and it has passed the
    restrictions of the route or can pass them. -/
def Conn.Waits (conn : Conn) (svcID : String) : Prop :=
  ∃ route, conn.phase.route = some route ∧ route.serviceID = svcID ∧
    (conn.phase = .checked route ∨ Admitted conn.remote route)

/-- Some connection can be given a route of the service and pass its restrictions. -/
def Offered (r : Router) (svcID : String) : Prop :=
  ∃ route, Offers r route ∧ route.serviceID = svcID ∧ Admits route

/-! ## No relay starts -/

/-- No connection will be given a context of the service that is not cancelled. -/
def Idle (svcID : String) (s : System) : Prop :=
  s.draining = true ∨ s.done ∨ ((∀ conn ∈ s.conns, ¬ conn.Waits svcID) ∧ ¬ Offered s.router svcID)

/-- … and the contexts that were handed out are cancelled. -/
structure Safe (svcID : String) (s : System) : Prop where
  handed : ∀ conn ∈ s.conns, ∀ ctx, conn.phase.context = some (svcID, ctx) → s.Cancelled ctx
  idle : Idle svcID s

variable {svcID host : String} {s : System} {toLower : String → String} {remote : Option Addr}
  {p q : Phase} {x : Contexts} {ctx : Nat} {conn : Conn} {r : Router}

/-- A service that is safe has no relay running. -/
theorem Safe.quiet (h : Safe svcID s) : Quiet svcID s := by
  intro conn hc route ctx hp hs
  refine h.handed conn hc ctx ?_
  rw [hp, ← hs]
  rfl

section

variable {s' : System}

/-- No move of a connection cancels a context. -/
theorem cancelled_of_moves (h : Moves s remote p q x) : x.cancelled = s.contexts.cancelled := by
  cases h with
  | acquire _ => exact cancelled_getOrCreate
  | away _ _ _ => rfl
  | route _ _ => rfl
  | check _ => rfl
  | slot _ => rfl

/-- A context handed to a connection of the service is cancelled. -/
theorem handed_of_moves (h : Safe svcID s) (hme : ⟨remote, p⟩ ∈ s.conns)
    (hm : Moves s remote p q x) (hct : q.context = some (svcID, ctx)) : s.Cancelled ctx := by
  cases hm with
  | away _ hc _ => cases hc.symm.trans hct
  | route _ _ | check _ => cases hct
  | slot _ => exact h.handed _ hme ctx hct
  | acquire hd =>
    obtain ⟨hs, -⟩ := Prod.mk.inj (Option.some.inj hct)
    rcases h.idle with hdr | hdo | ⟨hw, -⟩
    · cases hd.symm.trans hdr
    · exact .inl hdo
    · exact absurd ⟨_, rfl, hs, .inl rfl⟩ (hw _ hme)

/-- A connection does not come to wait for a service that is not offered. -/
theorem not_waits_of_moves (hw : ¬ Conn.Waits ⟨remote, p⟩ svcID) (ho : ¬ Offered s.router svcID)
    (hm : Moves s remote p q x) : ¬ Conn.Waits ⟨remote, q⟩ svcID := by
  rintro ⟨route', hr, hs, hp⟩
  cases hm with
  | away hn _ _ => cases hn.symm.trans hr
  | route _ hof =>
    cases hr
    rcases hp with hc | ha
    · cases hc
    · exact ho ⟨_, hof, hs, remote, ha⟩
  | check ha =>
    cases hr
    exact hw ⟨_, rfl, hs, .inr ha⟩
  | acquire _ | slot _ => cases hr

/-- A connection's move keeps the service safe. -/
theorem safe_conn (h : Safe svcID s) (hco : s.conns[i]? = some conn)
    (hm : Moves s conn.remote conn.phase q x) :
    Safe svcID { s with contexts := x, conns := s.conns.set i { conn with phase := q } } := by
  obtain ⟨remote, p⟩ := conn
  have hs : ∀ ctx, s.Cancelled ctx → System.Cancelled
      { s with contexts := x, conns := s.conns.set i ⟨remote, q⟩ } ctx := fun ctx hct =>
    hct.imp_right fun hc => (cancelled_of_moves hm).symm ▸ hc
  refine ⟨fun conn' hc' ctx hct => ?_, ?_⟩
  · grind [handed_of_moves, Safe]
  · refine h.idle.imp_right (Or.imp_right ?_)
    grind [not_waits_of_moves]

/-- Routes of other services do not offer this one. -/
theorem offered_addRoute (hn : route.serviceID = svcID → toLower host = "")
    (h : Offered (r.addRoute toLower host route) svcID) : Offered r svcID := by
  obtain ⟨route', ho, hs, ha⟩ := h
  cases ho with
  | host hm htc =>
    rcases mem_of_mem_addRoute hm with hold | ⟨rfl, -, hne⟩
    · exact ⟨route', .host hold htc, hs, ha⟩
    · exact absurd (hn hs) hne
  | fallback hset => exact ⟨route', .fallback (fallback_addRoute ▸ hset), hs, ha⟩

/-- Removing routes offers nothing. -/
theorem offered_removeRoute (h : Offered (r.removeRoute toLower host svc) svcID) :
    Offered r svcID := by
  obtain ⟨route', ho, hs, ha⟩ := h
  cases ho with
  | host hm htc => exact ⟨route', .host (mem_routesFor_removeRoute.mp hm).1 htc, hs, ha⟩
  | fallback hset => exact ⟨route', .fallback (fallback_removeRoute ▸ hset), hs, ha⟩

/-- A change of the routes that offers the service no new route. -/
theorem safe_of_offered (h : Safe svcID s) (ho : Offered r svcID → Offered s.router svcID)
    (hc : ∀ ctx ∈ s.contexts.cancelled, ctx ∈ x.cancelled) :
    Safe svcID { s with router := r, contexts := x } :=
  ⟨fun conn hco ctx hct => (h.handed conn hco ctx hct).imp_right (hc ctx),
    h.idle.imp_right (Or.imp_right (And.imp_right fun hn hne => hn (ho hne)))⟩

theorem mem_cancelled_of_mem (svc : String) :
    ∀ ctx ∈ x.cancelled, ctx ∈ (x.cancelServiceLocked svc).cancelled :=
  fun _ h => mem_cancelServiceLocked.mpr (.inl h)

/-- Until the service is added again, every step keeps it safe. -/
theorem safe_step (h : Safe svcID s) (hno : NotAdds toLower svcID a)
    (hs : step toLower s a = some s') : Safe svcID s' := by
  cases a with
  | accept remote =>
    cases hs
    refine ⟨fun conn hc ctx hct => ?_, h.idle.imp_right (Or.imp_right (And.imp_left ?_))⟩
    · rcases mem_append.mp hc with hold | hn
      · exact h.handed conn hold ctx hct
      · obtain rfl := mem_singleton.mp hn
        cases hct
    · intro hw conn hc
      rcases mem_append.mp hc with hold | hn
      · exact hw conn hold
      · obtain rfl := mem_singleton.mp hn
        rintro ⟨route, hr, -⟩
        cases hr
  | conn i move =>
    obtain ⟨conn, q, x, hc, hm, rfl⟩ := step_conn hs
    exact safe_conn h hc hm
  | addRoute host route =>
    cases hs
    refine safe_of_offered h (offered_addRoute hno) fun ctx hct => ?_
    split
    · exact mem_cancelled_of_mem _ ctx hct
    · exact hct
  | removeRoute host svc =>
    cases hs
    exact safe_of_offered h offered_removeRoute (mem_cancelled_of_mem svc)
  | setFallback route =>
    cases hs
    refine safe_of_offered h ?_ fun _ hct => hct
    rintro ⟨route', ho, hsv, ha⟩
    cases ho with
    | host hme htc => exact ⟨route', .host hme htc, hsv, ha⟩
    | fallback hset => exact absurd (Option.some.inj hset ▸ hsv) hno
  | removeFallback svc =>
    cases hs
    refine safe_of_offered h ?_ (mem_cancelled_of_mem svc)
    rintro ⟨route', ho, hsv, ha⟩
    cases ho with
    | host hme htc => exact ⟨route', .host hme htc, hsv, ha⟩
    | fallback hset => cases hset
  | drain =>
    cases hs
    exact ⟨h.handed, .inl rfl⟩
  | shutdown =>
    cases hs
    exact ⟨fun _ _ _ _ => .inl rfl, .inr (.inl rfl)⟩

end

/-! ## A relay starts -/

/-- Without adding the service, a relay of it can come to run under a context that is not
    cancelled. -/
def Escapes (toLower : String → String) (svcID : String) (s : System) : Prop :=
  ∃ s', Leads (step toLower) (fun _ a => NotAdds toLower svcID a) s s' ∧ ¬ Quiet svcID s'

/-- The router takes connections, and the service has no context. -/
structure Armed (toLower : String → String) (svcID : String) (s : System) : Prop where
  inv : Inv toLower s
  running : s.draining = false
  alive : s.done = false
  unused : s.contexts.current.lookup svcID = none

section

variable {i : Nat}
variable {route : Route}

/-- A relay that can start later can start. -/
theorem escapes_head (hm : step toLower s a = some m)
    (ha : NotAdds toLower svcID a) (h : Escapes toLower svcID m) : Escapes toLower svcID s := by
  obtain ⟨s', hl, hn⟩ := h
  exact ⟨s', hl.head hm ha, hn⟩

/-- What a connection's move does to the system. -/
theorem step_conn_eq (hc : s.conns[i]? = some ⟨remote, p⟩)
    (hq : phaseAfter toLower s remote p move = some q) : step toLower s (.conn i move) = some
      { s with contexts := contextsAfter s p move, conns := s.conns.set i ⟨remote, q⟩ } := by
  rw [step, hc, Option.bind_some, hq]
  rfl

theorem getElem?_set_self (hc : s.conns[i]? = some conn) :
    (s.conns.set i ⟨remote, q⟩)[i]? = some ⟨remote, q⟩ := by
  rw [getElem?_set_of_some hc, if_pos rfl]

/-- With a slot and a live context a relay starts. -/
theorem escapes_of_slot (hc : s.conns[i]? = some ⟨remote, .acquired route ctx⟩)
    (hsv : route.serviceID = svcID) (hct : ¬ s.Cancelled ctx)
    (hs : s.slotsHeld < defaultMaxRelayConns) : Escapes toLower svcID s := by
  have hq : phaseAfter toLower s remote (.acquired route ctx) .slot =
    some (.relaying route ctx) := by
    rw [phaseAfter, if_pos hs]
  refine escapes_head (step_conn_eq hc hq) trivial ⟨_, Leads.refl _ _ _, fun hqu => ?_⟩
  exact hct (hqu _ (mem_set_self hc _) route ctx rfl hsv)

/-- Some connection holds a slot if any is held. -/
theorem exists_relaying (h : 0 < s.slotsHeld) :
    ∃ (j : Nat) (remote : Option Addr) (route : Route) (ctx : Nat),
      s.conns[j]? = some ⟨remote, .relaying route ctx⟩ := by
  by_contra hnone
  push Not at hnone
  refine absurd (List.sum_eq_zero_iff_forall_eq_nat.mpr fun n hn => ?_) (Nat.ne_of_gt h)
  obtain ⟨⟨remote, p⟩, hc, rfl⟩ := List.mem_map.mp hn
  obtain ⟨j, hj⟩ := List.mem_iff_getElem?.mp hc
  cases p with
  | relaying route ctx => exact absurd hj (hnone j remote route ctx)
  | _ => rfl

/-- If all slots are taken, one of the relays ends first. -/
theorem escapes_acquired (h : Inv toLower s) (hc : s.conns[i]? = some ⟨remote, .acquired route ctx⟩)
    (hsv : route.serviceID = svcID) (hct : ¬ s.Cancelled ctx) : Escapes toLower svcID s := by
  by_cases hs : s.slotsHeld < defaultMaxRelayConns
  · exact escapes_of_slot hc hsv hct hs
  have hp : 0 < s.slotsHeld := Nat.lt_of_lt_of_le (by decide) (Nat.le_of_not_lt hs)
  obtain ⟨j, remote', route', ctx', hj⟩ := exists_relaying hp
  have hn : i ≠ j := by
    rintro rfl
    cases hc.symm.trans hj
  have hst : (s.conns.set j ⟨remote', .ended⟩)[i]? = some ⟨remote, .acquired route ctx⟩ := by
    rw [getElem?_set_of_some hj, if_neg hn]
    exact hc
  refine escapes_head (step_conn_eq hj (rfl : phaseAfter toLower s remote' _ .finish = _))
    trivial (escapes_of_slot hst hsv hct ?_)
  have hsu := sum_map_set Conn.slots hj ⟨remote', .ended⟩
  have ho : Conn.slots ⟨remote', .relaying route' ctx'⟩ = 1 := rfl
  have hz : Conn.slots ⟨remote', .ended⟩ = 0 := rfl
  have hl := h.slots
  rw [System.slotsHeld] at hl ⊢
  dsimp only
  omega

/-- The other services of a host can be removed. -/
theorem leads_alone (host : String) :
    ∀ (others : List String) {s : System}, Armed toLower svcID s → svcID ∉ others →
      ∃ m, Leads (step toLower) (fun _ a => NotAdds toLower svcID a) s m ∧ Armed toLower svcID m ∧
        ∀ x, x ∈ m.router.routesFor (toLower host) ↔
          x ∈ s.router.routesFor (toLower host) ∧ x.serviceID ∉ others := by
  intro others
  induction others with
  | nil =>
    intro s h _
    exact ⟨s, Leads.refl _ _ s, h, fun x => (and_iff_left not_mem_nil).symm⟩
  | cons other others ih =>
    intro s h hn
    obtain ⟨hne, hn⟩ := not_or.mp (mem_cons.not.mp hn)
    have hs : step toLower s (.removeRoute host other) =
        some (s.removeRoute toLower host other) := rfl
    have hu : (s.removeRoute toLower host other).contexts.current.lookup svcID = none := by
      rw [System.removeRoute, lookup_cancelServiceLocked, if_neg hne]
      exact h.unused
    obtain ⟨m, hl, hm, hme⟩ := ih ⟨inv_step h.inv hs, h.running, h.alive, hu⟩ hn
    refine ⟨m, hl.head hs trivial, hm, fun x => ?_⟩
    rw [hme, System.removeRoute, mem_routesFor_removeRoute, mem_cons, not_or, and_assoc]
    simp only [true_and]

/-- A host with a route is looked up. -/
theorem isFallbackOnly_eq_false (hm : route ∈ s.router.routesFor host) :
    s.isFallbackOnly = false := by
  have hk : host ∈ s.router.routes.keys := by
    by_contra hnot
    rw [Router.routesFor, AList.lookup_eq_none.mpr hnot] at hm
    exact not_mem_nil hm
  rw [System.isFallbackOnly, Bool.and_eq_false_iff, isEmpty_eq_false_iff]
  exact .inl (ne_nil_of_mem hk)

/-- The lookup finds a route where there is one. -/
theorem exists_lookupRoute (hm : route ∈ r.routesFor host) :
    ∃ best, r.lookupRoute host = some best := by
  rw [Router.lookupRoute]
  split
  · next hnil => exact absurd (hnil ▸ hm) not_mem_nil
  · exact ⟨_, rfl⟩

variable (h : Armed toLower svcID s)

include h

/-- A connection past the restrictions still gets a relay. -/
theorem escapes_checked (hc : s.conns[i]? = some ⟨remote, .checked route⟩)
    (hsv : route.serviceID = svcID) : Escapes toLower svcID s := by
  have hq : phaseAfter toLower s remote (.checked route) .acquire =
      some (.acquired route (s.contexts.getOrCreateServiceCtxLocked route.serviceID).1) := by
    rw [phaseAfter, h.running]
    rfl
  have hs := step_conn_eq hc hq
  refine escapes_head hs trivial (escapes_acquired (inv_step h.inv hs)
    (getElem?_set_self hc) hsv ?_)
  rintro (hd | hm)
  · cases h.alive.symm.trans hd
  · rw [contextsAfter, h.running] at hm
    refine getOrCreate_not_mem (hsv ▸ h.unused) ?_
    exact cancelled_getOrCreate ▸ hm

/-- A step of a connection that asks for no context. -/
theorem escapes_move
    (hc : s.conns[i]? = some ⟨remote, p⟩) (hq : phaseAfter toLower s remote p move = some q)
    (hx : contextsAfter s p move = s.contexts)
    (hn : ∀ m, Armed toLower svcID m → m.router = s.router → m.conns[i]? = some ⟨remote, q⟩ →
      Escapes toLower svcID m) : Escapes toLower svcID s := by
  have hs := step_conn_eq hc hq
  have hi := inv_step h.inv hs
  rw [hx] at hs hi
  exact escapes_head hs trivial (hn _ ⟨hi, h.running, h.alive, h.unused⟩ rfl (getElem?_set_self hc))

/-- So does one that has its route, if it is admitted. -/
theorem escapes_routed (hc : s.conns[i]? = some ⟨remote, .routed route⟩)
    (hs : route.serviceID = svcID) (ha : Admitted remote route) : Escapes toLower svcID s := by
  obtain ⟨know, hp⟩ := ha
  have hq : phaseAfter toLower s remote (.routed route) (.check know) = some (.checked route) := by
    rw [phaseAfter, if_pos hp]
  exact escapes_move h hc hq rfl fun m hm _ hmc => escapes_checked hm hmc hs

/-- A connection that waits for the service gets a relay. -/
theorem escapes_waits (hco : conn ∈ s.conns) (hw : conn.Waits svcID) : Escapes toLower svcID s := by
  obtain ⟨i, hi⟩ := mem_iff_getElem?.mp hco
  obtain ⟨remote, p⟩ := conn
  obtain ⟨route, hr, hs, hp⟩ := hw
  cases p with
  | routed route' =>
    cases hr
    rcases hp with hc | ha
    · cases hc
    · exact escapes_routed h hi hs ha
  | checked route' =>
    cases hr
    exact escapes_checked h hi hs
  | _ => cases hr

/-- A connection without a host's route takes the fallback. -/
theorem escapes_unmatched (hc : s.conns[i]? = some ⟨remote, .unmatched⟩)
    (hset : s.router.fallback = some route) (hs : route.serviceID = svcID)
    (ha : Admitted remote route) : Escapes toLower svcID s := by
  have hq : phaseAfter toLower s remote .unmatched .fallback = some (.routed route) := by
    rw [phaseAfter, hset]
  exact escapes_move h hc hq rfl fun m hm _ hmc => escapes_routed hm hmc hs ha

/-- A new connection. -/
theorem escapes_accept (remote : Option Addr)
    (hn : ∀ (m : System) (i : Nat), Armed toLower svcID m → m.router = s.router →
      m.conns[i]? = some ⟨remote, .accepted⟩ → Escapes toLower svcID m) :
    Escapes toLower svcID s := by
  have hs : step toLower s (.accept remote) =
      some { s with conns := s.conns ++ [⟨remote, .accepted⟩] } := rfl
  refine escapes_head hs trivial (hn _ s.conns.length
    ⟨inv_step h.inv hs, h.running, h.alive, h.unused⟩ rfl ?_)
  exact List.getElem?_concat_length

/-- A fallback of the service lets a new connection in. -/
theorem escapes_fallback (hset : s.router.fallback = some route)
    (hsv : route.serviceID = svcID) (had : Admits route) : Escapes toLower svcID s := by
  obtain ⟨remote, ha⟩ := had
  refine escapes_accept h remote fun m i hm hr hc => ?_
  have hs' : m.router.fallback = some route := hr ▸ hset
  by_cases ho : m.isFallbackOnly
  · have hq : phaseAfter toLower m remote .accepted .look = some .unmatched := by
      rw [phaseAfter, if_pos ho]
    refine escapes_move hm hc hq rfl fun n hn hs hnc => ?_
    exact escapes_unmatched hn hnc (hs ▸ hs') hsv ha
  · have hq : phaseAfter toLower m remote .accepted .look = some .peeking := by
      rw [phaseAfter, if_neg ho]
    refine escapes_move hm hc hq rfl fun n hn hs hnc => ?_
    -- no TLS: the connection is relayed to the fallback as it is
    refine escapes_move hn hnc (rfl : phaseAfter toLower n remote .peeking (.peek .unread) = _)
      rfl fun k hk hsa' hkc => ?_
    exact escapes_unmatched hk hkc (hsa' ▸ hs ▸ hs') hsv ha

/-- A route that stands alone at its host is the one that connections are given. -/
theorem escapes_alone (hme : route ∈ s.router.routesFor (toLower name))
    (htc : route.type = .tcp) (hsv : route.serviceID = svcID) (had : Admits route)
    (hal : ∀ x ∈ s.router.routesFor (toLower name), x.serviceID = svcID) :
    Escapes toLower svcID s := by
  obtain ⟨remote, ha⟩ := had
  refine escapes_accept h remote fun m i hm hr hc => ?_
  have hlo : phaseAfter toLower m remote .accepted .look = some .peeking := by
    rw [phaseAfter, isFallbackOnly_eq_false (hr ▸ hme)]
    rfl
  refine escapes_move hm hc hlo rfl fun n hn hs hnc => ?_
  refine escapes_move hn hnc (rfl : phaseAfter toLower n remote .peeking (.peek (.hello name)) = _)
    rfl fun k hk hs' hkc => ?_
  have hk_ : k.router = s.router := hs'.trans (hs.trans hr)
  obtain ⟨best, hbe⟩ := exists_lookupRoute (hk_ ▸ hme)
  have hb : best ∈ s.router.routesFor (toLower name) := hk_ ▸ mem_of_lookupRoute hbe
  obtain rfl : best = route :=
    inj_on_of_nodup_map (h.inv.routed.nodup (toLower name)) hb hme ((hal best hb).trans hsv.symm)
  have hq : phaseAfter toLower k remote (.named (toLower name)) .lookup = some (.routed best) := by
    rw [phaseAfter, hbe]
    simp [htc]
  exact escapes_move hk hkc hq rfl fun l hl _ hlc => escapes_routed hl hlc hsv ha

/-- While the service is offered, a new connection gets a relay. -/
theorem escapes_offered (ho : Offered s.router svcID) : Escapes toLower svcID s := by
  obtain ⟨route, hof, hs, ha⟩ := ho
  cases hof with
  | fallback hset => exact escapes_fallback h hset hs ha
  | @host host _ hme htc =>
    obtain ⟨name, rfl⟩ := h.inv.routed.lower host route hme
    let others := ((s.router.routesFor (toLower name)).map Route.serviceID).filter (· ≠ svcID)
    have hn : svcID ∉ others := fun hi => of_decide_eq_true (mem_filter.mp hi).2 rfl
    obtain ⟨m, hl, hm, hr⟩ := leads_alone name others h hn
    have hm' : route ∈ m.router.routesFor (toLower name) := (hr route).mpr ⟨hme, hs ▸ hn⟩
    have hal : ∀ x ∈ m.router.routesFor (toLower name), x.serviceID = svcID := by grind
    obtain ⟨s', hl', hq⟩ := escapes_alone hm hm' htc hs ha hal
    exact ⟨s', hl.trans hl', hq⟩

end

/-! ## `RemoveRoute` -/

/-- When `RemoveRoute` is called, no connection is on its way to a relay of the service, and
    none can be given another route of it; or the router takes no more relays. -/
def Clear (toLower : String → String) (s : System) (host svcID : String) : Prop :=
  s.draining = true ∨ s.done ∨
    ((∀ conn ∈ s.conns, ¬ conn.Waits svcID) ∧
      (∀ h, h ≠ toLower host → ∀ route ∈ s.router.routesFor h, route.type = .tcp →
        route.serviceID = svcID → ¬ Admits route) ∧
      ∀ route, s.router.fallback = some route → route.serviceID = svcID → ¬ Admits route)

/-- When removing one host's routes ends the offer. -/
theorem not_offered_removeRoute_iff : ¬ Offered (s.router.removeRoute toLower host svcID) svcID ↔
    (∀ h, h ≠ toLower host → ∀ route ∈ s.router.routesFor h, route.type = .tcp →
      route.serviceID = svcID → ¬ Admits route) ∧
    ∀ route, s.router.fallback = some route → route.serviceID = svcID → ¬ Admits route := by
  constructor
  · intro hn
    refine ⟨fun h hne route hm htc hs ha => ?_, fun route hset hs ha => ?_⟩
    · have hm' : route ∈ (s.router.removeRoute toLower host svcID).routesFor h :=
        mem_routesFor_removeRoute.mpr ⟨hm, fun hh => hne hh.1⟩
      exact hn ⟨route, .host hm' htc, hs, ha⟩
    · exact hn ⟨route, .fallback (fallback_removeRoute.trans hset), hs, ha⟩
  · rintro ⟨hho, hf⟩ ⟨route, ho, hs, ha⟩
    cases ho with
    | @host h _ hm htc =>
      obtain ⟨hm, hn⟩ := mem_routesFor_removeRoute.mp hm
      exact hho h (fun hh => hn ⟨hh, hs⟩) route hm htc hs ha
    | fallback hset => exact hf route (fallback_removeRoute ▸ hset) hs ha

/-- When removing one host's routes leaves the service idle. -/
theorem idle_removeRoute_iff :
    Idle svcID (s.removeRoute toLower host svcID) ↔ Clear toLower s host svcID := by
  rw [Clear, ← not_offered_removeRoute_iff]
  rfl

/-- **Relays after `RemoveRoute`.**  Whatever happens until the service is added again, all its
    relays run under cancelled contexts: exactly if the route was removed in a clear state. -/
theorem removed_quiet_iff (toLower : String → String) (http : Bool) (as : List Action)
    (s : System) (hr : run (step toLower) (initial http) as = some s) (host svcID : String) :
    (∀ bs s', AllowedRun (step toLower) (fun _ a => NotAdds toLower svcID a)
        (s.removeRoute toLower host svcID) bs →
      run (step toLower) (s.removeRoute toLower host svcID) bs = some s' → Quiet svcID s') ↔
      Clear toLower s host svcID := by
  have hiv : Inv toLower s := inv_run hr
  have hre : Inv toLower (s.removeRoute toLower host svcID) :=
    inv_step hiv (a := .removeRoute host svcID) rfl
  rw [← idle_removeRoute_iff]
  constructor
  · intro hal
    by_contra hi
    rw [Idle, not_or, not_or] at hi
    obtain ⟨hd, hdo, he⟩ := hi
    have har : Armed toLower svcID (s.removeRoute toLower host svcID) :=
      ⟨hre, Bool.eq_false_iff.mpr hd, Bool.eq_false_iff.mpr hdo, by
        rw [System.removeRoute, lookup_cancelServiceLocked, if_pos rfl]⟩
    have hes : Escapes toLower svcID (s.removeRoute toLower host svcID) := by
      grind [escapes_waits, escapes_offered]
    obtain ⟨s', ⟨bs, hok, hru⟩, hn⟩ := hes
    exact hn (hal bs s' hok hru)
  · intro hi bs s' hok hru
    -- removing the route cancels the context that was handed out
    have hs : Safe svcID (s.removeRoute toLower host svcID) :=
      ⟨fun conn hc ctx hct => .inr (mem_cancelServiceLocked.mpr
        (hiv.current conn hc svcID ctx hct)), hi⟩
    exact (run_invariant (fun _ _ _ h ha hst => safe_step h ha hst) bs _ s' hs hok hru).quiet

/-- A service that a connection is being relayed for. -/
def oneRoute : Route := { type := .tcp, accountID := "a", serviceID := "svc", domain := "h" }

/-- A connection from its arrival to its route. -/
def upToRoute : List Action :=
  [.addRoute "h" oneRoute, .accept none, .conn 0 .look, .conn 0 (.peek (.hello "h")),
    .conn 0 .lookup]

/-- The rest of its way. -/
def upToRelay (know : Knowledge) : List Action :=
  [.conn 0 (.check know), .conn 0 .acquire, .conn 0 .slot]

/-- No database of countries, and no decision. -/
def noKnowledge : Knowledge := ⟨none, ⟨false, fun _ => none⟩⟩

/-- The route is removed while the connection relays: it runs under a cancelled context, and
    no other one can start. -/
theorem removed_quiet_iff_relaying :
    ∃ s, run (step id) (initial true) (upToRoute ++ upToRelay noKnowledge) = some s ∧
      ∀ bs s', AllowedRun (step id)
        (fun _ a => NotAdds id "svc" a) (s.removeRoute id "h" "svc") bs →
        run (step id) (s.removeRoute id "h" "svc") bs = some s' → Quiet "svc" s' := by
  refine ⟨_, rfl,
    (removed_quiet_iff id true (upToRoute ++ upToRelay noKnowledge) _ rfl "h" "svc").mpr
    (.inr (.inr ⟨?_, ?_, nofun⟩))⟩
  · rintro conn hc ⟨route, hr, -⟩
    obtain rfl := mem_singleton.mp hc
    cases hr
  · intro h hn route hm
    rcases mem_of_mem_addRoute hm with hold | ⟨-, hh, -⟩
    · cases hold
    · exact absurd hh hn

/-- The route is removed after the lookup: the relay starts all the same and runs under a
    context that is not cancelled. -/
theorem relay_starts_after_removal :
    ∃ s s', run (step id) (initial true) upToRoute = some s ∧
      AllowedRun (step id) (fun _ a => NotAdds id "svc" a) (s.removeRoute id "h" "svc")
        (upToRelay noKnowledge) ∧
      run (step id) (s.removeRoute id "h" "svc") (upToRelay noKnowledge) = some s' ∧
      ¬ Quiet "svc" s' := by
  refine ⟨_, _, rfl, ?_, rfl, fun hq => ?_⟩
  · exact allowedRun_of_forall _ _ (by simp [upToRelay, NotAdds])
  · have hc := hq _ mem_cons_self oneRoute 0 rfl rfl
    exact absurd hc (by unfold System.Cancelled; decide)

end RelayContext

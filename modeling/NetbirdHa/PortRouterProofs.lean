import NetbirdHa.RestrictProofs
import NetbirdHa.TableProofs

/-! # The router of a port

A port of the reverse proxy has SNI routes and a fallback.  The routes of a host
are a list, one route for each service; a connection takes the first HTTP route of
its host, or else the first route, or else the fallback.

A route is removed by its host and service.  `RemoveFallback` is given a service
as well, but clears the fallback whosever it is. -/

namespace PortRouter

open Restrict Table List Option AList

/-- What a route leads to. -/
inductive RouteType where
  | http
  | tcp
deriving DecidableEq

/-- `accesslog.Protocol`. -/
inductive Protocol where
  | unset
  | tcp
  | tls
deriving DecidableEq

/-- A route of the router. -/
structure Route where
  type : RouteType
  accountID : String
  serviceID : String
  domain : String
  protocol : Protocol := .unset
  target : String := ""
  proxyProtocol : Bool := false
  dialTimeout : Int := 0
  sessionIdleTimeout : Int := 0
  filter : Option Filter := none

/-- `Router`; the contexts of its services are added in `RelayContext.System`. -/
structure Router where
  routes : GoMap (List Route) := ∅
  fallback : Option Route := none

/-- The routes of a host. -/
def Router.routesFor (r : Router) (host : String) : List Route := (r.routes.lookup host).getD []

section

variable (toLower : String → String)

/-- `AddRoute`: the route of the service is replaced where it stands, or appended. -/
def Router.addRoute (r : Router) (host : String) (route : Route) : Router :=
  if toLower host = "" then r
  else
    let routes := r.routesFor (toLower host)
    let i := routes.findIdx (·.serviceID = route.serviceID)
    if i < routes.length then
      { r with routes := r.routes.insert (toLower host) (routes.set i route) }
    else { r with routes := r.routes.insert (toLower host) (routes ++ [route]) }

/-- `RemoveRoute`: a host without a route is forgotten. -/
def Router.removeRoute (r : Router) (host svcID : String) : Router :=
  let rest := (r.routesFor (toLower host)).filter (·.serviceID ≠ svcID)
  if rest.isEmpty then { r with routes := r.routes.erase (toLower host) }
  else { r with routes := r.routes.insert (toLower host) rest }

end

/-- `SetFallback`. -/
def Router.setFallback (r : Router) (route : Route) : Router := { r with fallback := some route }

/-- `RemoveFallback`: the service only says whose connections are closed. -/
def Router.removeFallback (r : Router) (_svcID : String) : Router := { r with fallback := none }

/-- `IsEmpty`. -/
def Router.isEmpty (r : Router) : Bool := r.routes.keys.isEmpty && r.fallback.isNone

/-- `lookupRoute`: the first HTTP route if there is one, else the first route. -/
def Router.lookupRoute (r : Router) (host : String) : Option Route :=
  match r.routesFor host with
  | [] => none
  | best :: routes => some (routes.foldl (fun best route =>
    if route.type = .http ∧ best.type = .tcp then route else best) best)

/-- Where `handleConn` sends a connection: a route of the host, or the fallback. -/
def Router.dispatch (toLower : String → String) (r : Router) (sni : String) : Option Route :=
  (r.lookupRoute (toLower sni)).or r.fallback

section

variable {toLower : String → String} {r : Router} {host h svcID : String} {route x : Route}

open Router

theorem routesFor_insert (m : List Route) :
    routesFor { r with routes := r.routes.insert host m } h =
      if h = host then m else r.routesFor h := by
  rw [routesFor, routesFor]
  by_cases hh : h = host
  · rw [hh, lookup_insert, if_pos rfl, getD_some]
  · rw [lookup_insert_ne hh, if_neg hh]

theorem routesFor_erase : routesFor { r with routes := r.routes.erase host } h =
      if h = host then [] else r.routesFor h := by
  rw [routesFor, routesFor]
  by_cases hh : h = host
  · rw [hh, lookup_erase, if_pos rfl, getD_none]
  · rw [lookup_erase_ne hh, if_neg hh]

/-- The routes after `RemoveRoute`. -/
theorem routesFor_removeRoute : (r.removeRoute toLower host svcID).routesFor h =
    if h = toLower host then (r.routesFor (toLower host)).filter (·.serviceID ≠ svcID)
    else r.routesFor h := by
  rw [removeRoute]
  split
  · next he => rw [routesFor_erase, isEmpty_iff.mp he]
  · rw [routesFor_insert]

theorem mem_routesFor_removeRoute : x ∈ (r.removeRoute toLower host svcID).routesFor h ↔
    x ∈ r.routesFor h ∧ ¬ (h = toLower host ∧ x.serviceID = svcID) := by
  rw [routesFor_removeRoute]
  by_cases hh : h = toLower host
  · simp [hh]
  · simp [hh]

theorem fallback_removeRoute : (r.removeRoute toLower host svcID).fallback = r.fallback := by
  rw [removeRoute]
  split
  · rfl
  · rfl

/-- A route that is put in the place of itself changes nothing. -/
theorem set_findIdx_self {l : List Route}
    (hl : l.findIdx (·.serviceID = route.serviceID) < l.length)
    (h : ∀ y ∈ l, y.serviceID = route.serviceID → y = route) :
    route ∈ l ∧ l.set (l.findIdx (·.serviceID = route.serviceID)) route = l := by
  have hi := findIdx_getElem (w := hl)
  rw [decide_eq_true_iff] at hi
  have hf := h _ (getElem_mem hl) hi
  refine ⟨hf ▸ getElem_mem hl, ?_⟩
  generalize l.findIdx (·.serviceID = route.serviceID) = i at hl hf
  rw [← hf]
  exact set_getElem_self hl

/-- The routes after `AddRoute`, where the service has no other route for the host. -/
theorem mem_routesFor_addRoute
    (hs : ∀ y ∈ r.routesFor (toLower host), y.serviceID = route.serviceID → y = route) :
    x ∈ (r.addRoute toLower host route).routesFor h ↔
      x ∈ r.routesFor h ∨ (x = route ∧ h = toLower host ∧ h ≠ "") := by
  rw [addRoute]
  by_cases he : toLower host = ""
  · simp +contextual [he]
  rw [if_neg he]
  dsimp only
  split
  · next hl =>
    obtain ⟨hr, hset⟩ := set_findIdx_self hl hs
    rw [routesFor_insert]
    grind
  · rw [routesFor_insert]
    by_cases hh : h = toLower host
    · simp [hh, he]
    · simp [hh]

theorem fallback_addRoute : (r.addRoute toLower host route).fallback = r.fallback := by
  rw [addRoute]
  split
  · rfl
  dsimp only
  split
  · rfl
  · rfl

theorem routesFor_of_isEmpty (he : r.isEmpty) (h : String) : r.routesFor h = [] := by
  rw [Router.isEmpty, Bool.and_eq_true, List.isEmpty_iff] at he
  have hn : r.routes.lookup h = none := by
    rw [AList.lookup_eq_none, AList.mem_keys, he.1]
    exact not_mem_nil
  rw [Router.routesFor, hn, getD_none]

theorem fallback_of_isEmpty (he : r.isEmpty) : r.fallback = none := by
  rw [Router.isEmpty, Bool.and_eq_true, isNone_iff_eq_none] at he
  exact he.2

/-- A connection is sent to a route of its host or to the fallback. -/
theorem mem_of_lookupRoute (hl : r.lookupRoute h = some route) : route ∈ r.routesFor h := by
  rw [lookupRoute] at hl
  split at hl
  · cases hl
  rename_i best routes hr
  rw [hr, ← Option.some.inj hl]
  refine foldl_invariant (P := fun y => y ∈ best :: routes) routes best ?_ mem_cons_self
  intro y z hz hy
  split
  · exact mem_cons_of_mem best hz
  · exact hy

end

end PortRouter

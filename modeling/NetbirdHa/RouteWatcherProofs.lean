import Mathlib.Algebra.Order.Group.Multiset
import Mathlib.Algebra.Order.Sub.Basic
import Mathlib.Data.List.Induction
import NetbirdHa.TransitionProofs

/-! # The watcher of a client network

A watcher keeps the routes of one network, chooses the best of them by a score, and
has a notifier for every peer it follows. -/

namespace RouteWatcher

open Transition List

/-- What a route's choice depends on. -/
structure Route where
  id : String
  metric : Int
  peer : String
deriving DecidableEq

/-- The state of the connection to a peer. -/
inductive Status where
  | idle
  | connecting
  | connected
deriving DecidableEq

/-- Latencies are in nanoseconds. -/
structure PeerStatus where
  status : Status
  relayed : Bool
  latency : Int
deriving DecidableEq

/-! ## The best route -/

/-- Scores are integers in units of 10⁻⁹, the length of a nanosecond. -/
def second : Int := 1000000000

/-- `route.MaxMetric`. -/
def maxMetric : Int := 9999

/-- The score of a route: by its metric, and its peer's latency and connection. -/
def score (r : Route) (s : PeerStatus) : Int :=
  let latency := if s.latency ≠ 0 then s.latency else 999000000
  let latency := if second < latency then 999000000 else latency
  (if r.metric < maxMetric then (maxMetric - r.metric) * 10 * second else 0) + (second - latency) +
    (if s.status = .connected then 100000 * second else 0) + if s.relayed then 0 else second

/-- The choice so far. -/
structure Best where
  chosen : String := ""
  chosenStatus : Option PeerStatus := none
  chosenScore : Int := 0
  currScore : Int := 0

variable (statuses : String → Option PeerStatus) (currID : String)

/-- A route whose peer can be assigned allowed IPs. -/
def Usable (r : Route) (s : PeerStatus) : Prop := statuses r.id = some s ∧ s.status ≠ .connecting

/-- One turn of the loop of `getBestRouteFromStatuses`. -/
def bestTurn (b : Best) (r : Route) : Best :=
  match statuses r.id with
  | none => b
  | some s =>
    if s.status = .connecting then b
    else
      let take (b : Best) :=
        { b with chosen := r.id, chosenStatus := some s, chosenScore := score r s }
      let b := if b.chosenScore < score r s ∨ score r s = b.chosenScore ∧ b.chosen = "" then take b
        else b
      let b := if b.chosen = "" ∧ currID = "" then take b else b
      if r.id = currID then { b with currScore := score r s } else b

/-- `getBestRouteFromStatuses`, with the routes in the order of the loop. -/
def getBestRouteFromStatuses (routes : List Route) : String × Option PeerStatus :=
  let b := routes.foldl (bestTurn statuses currID) {}
  if b.chosen ≠ "" ∧ b.chosen ≠ currID ∧ b.currScore ≠ 0 ∧
    b.chosenScore < b.currScore + 10000000 then
    (currID, b.chosenStatus)
  else (b.chosen, b.chosenStatus)

variable {statuses currID} {routes : List Route} {r u : Route} {s : PeerStatus} {b : Best}

theorem score_nonneg : 0 ≤ score r s := by
  simp only [score, second, maxMetric]
  split_ifs <;> omega

/-- What the loop knows after some routes.  The route with the empty ID, if there is one,
    is taken for none and gives way, but then it is the current one. -/
structure Tops (statuses : String → Option PeerStatus) (currID : String) (routes : List Route)
    (b : Best) : Prop where
  nonneg : 0 ≤ b.chosenScore
  le : ∀ r ∈ routes, ∀ s, Usable statuses r s →
    score r s ≤ b.chosenScore ∨ currID = "" ∧ score r s ≤ b.currScore
  empty : currID = "" → b.chosen = "" → b.chosenScore = b.currScore
  chosen : (∀ r ∈ routes, ∀ s, ¬ Usable statuses r s) ∧ b.chosen = "" ∧ b.chosenScore = 0 ∨
    ∃ r ∈ routes, ∃ s, Usable statuses r s ∧ r.id = b.chosen ∧ score r s = b.chosenScore
  curr : b.currScore ≠ 0 → ∃ r ∈ routes, ∃ s, Usable statuses r s ∧ r.id = currID ∧
    score r s = b.currScore

theorem Tops.turn (h : Tops statuses currID routes b) (hn : ∀ x ∈ routes, x.id ≠ r.id) :
    Tops statuses currID (routes ++ [r]) (bestTurn statuses currID b r) := by
  obtain ⟨h0, hle, he, hc, hcu⟩ := h
  rw [bestTurn]
  cases hs : statuses r.id with
  | none => refine ⟨h0, ?_, he, ?_, ?_⟩ <;> grind [Usable]
  | some s =>
    have := @score_nonneg r s
    dsimp only
    by_cases hst : s.status = .connecting
    · rw [if_pos hst]
      refine ⟨h0, ?_, he, ?_, ?_⟩ <;> grind [Usable]
    · refine ⟨?_, ?_, ?_, ?_, ?_⟩ <;> grind [Usable]

theorem tops_foldl (hn : (routes.map Route.id).Nodup) :
    Tops statuses currID routes (routes.foldl (bestTurn statuses currID) {}) := by
  induction routes using List.reverseRecOn with
  | nil => exact ⟨Int.le_refl 0, nofun, fun _ _ => rfl, .inl ⟨nofun, rfl, rfl⟩,
    fun h => absurd rfl h⟩
  | append_singleton routes r ih =>
    rw [map_append, nodup_append] at hn
    rw [foldl_append, foldl_cons]
    refine (ih hn.1).turn fun x hx => ?_
    exact hn.2.2 _ (mem_map_of_mem hx) _ (by simp)

/-- **The best route.**  If no latency is negative, the route that is returned has a connected peer
    if some usable route has one, and no usable route in the same state has a lower metric. -/
theorem best_route (statuses : String → Option PeerStatus) (currID : String) (routes : List Route)
    (hm : ∀ r ∈ routes, 1 ≤ r.metric ∧ r.metric ≤ maxMetric) (hi : (routes.map Route.id).Nodup)
    (hl : ∀ id s, statuses id = some s → 0 ≤ s.latency) (u : Route) (t : PeerStatus)
    (hu : u ∈ routes) (ht : Usable statuses u t) :
    ∃ r ∈ routes, ∃ s, Usable statuses r s ∧
      r.id = (getBestRouteFromStatuses statuses currID routes).1 ∧
      (t.status = .connected → s.status = .connected) ∧
      (s.status = t.status → ¬ u.metric < r.metric) := by
  have h : Tops statuses currID routes _ := tops_foldl hi
  have hle := h.le u hu t ht
  have hw : ∀ r ∈ routes, ∀ s, Usable statuses r s → score u t < score r s + 10000000 →
      (t.status = .connected → s.status = .connected) ∧
        (s.status = t.status → ¬ u.metric < r.metric) := by
    -- what the margin of ten milliseconds decides
    intro r hr s hs hlt
    have hs0 := hl _ s hs.1
    have hmr := hm r hr
    have hmu := hm u hu
    grind [score, second, maxMetric]
  rw [getBestRouteFromStatuses]
  split
  · rename_i hc
    obtain ⟨r, hr, s, hs, hid, hsc⟩ := h.curr hc.2.2.1
    exact ⟨r, hr, s, hs, hid, hw r hr s hs (by omega)⟩
  · obtain ⟨hno, -⟩ | ⟨r, hr, s, hs, hid, hsc⟩ := h.chosen
    · exact absurd ht (hno u hu t)
    · have he := h.empty
      have h0 := h.nonneg
      exact ⟨r, hr, s, hs, hid, hw r hr s hs (by grind)⟩

/-- The statuses of the routes "a" and "b", connected with these latencies. -/
def twoPeers (a b : Int) (id : String) : Option PeerStatus :=
  some ⟨.connected, false, if id = "a" then a else b⟩

/-- Of two routes the one with the lower metric, whatever the latencies. -/
theorem lower_metric_chosen : ∃ r ∈ ([⟨"a", 1, "p"⟩, ⟨"b", 2, "q"⟩] : List Route), ∃ s,
    Usable (twoPeers 900000000 1) r s ∧ r.id = (getBestRouteFromStatuses (twoPeers 900000000 1) "b"
      [⟨"a", 1, "p"⟩, ⟨"b", 2, "q"⟩]).1 ∧ ¬ 1 < r.metric := by
  obtain ⟨r, hr, s, hs, hid, -, hm⟩ := best_route (twoPeers 900000000 1) "b"
    [⟨"a", 1, "p"⟩, ⟨"b", 2, "q"⟩] (by decide) (by decide)
    (fun id s h => Option.some.inj h ▸ by dsimp only; split <;> decide) ⟨"a", 1, "p"⟩
    ⟨.connected, false, 900000000⟩ (by decide) ⟨rfl, by decide⟩
  exact ⟨r, hr, s, hs, hid, hm (Option.some.inj hs.1 ▸ rfl)⟩

/-- A latency below zero, and the route with the higher metric is chosen. -/
theorem higher_metric_chosen :
    (getBestRouteFromStatuses (twoPeers 1 (-20000000000)) "" [⟨"a", 1, "p"⟩, ⟨"b", 2, "q"⟩]).1 =
      "b" := by
  decide

/-! ## Notifiers -/

/-- The routes by ID, and the peers whose notifier channels are open. -/
structure Watcher where
  routes : List Route := []
  notifiers : List String := []

/-- `updateMap`: the last route with each ID. -/
def updateMap (update : List Route) : List Route :=
  update.foldl (fun m r => m.filter (·.id ≠ r.id) ++ [r]) []

/-- The peers of the routes that an update removes. -/
def removedPeers (order update : List Route) : List String :=
  (order.filter (fun r => r.id ∉ (updateMap update).map Route.id)).map Route.peer

/-- The loop of `classifyUpdate`, over the routes in this order; closing a channel that is
    not there panics. -/
def classifyUpdate (order update : List Route) (notifiers : List String) : Option (List String) :=
  (removedPeers order update).foldlM
    (fun n p => if p ∈ n then some (n.filter (· ≠ p)) else none) notifiers

/-- `startNewPeerStatusWatchers`: one watcher per peer. -/
def startNewPeerStatusWatchers (routes : List Route) (notifiers : List String) : List String :=
  routes.foldl (fun n r => if r.peer ∈ n then n else r.peer :: n) notifiers

/-- `handleRouteUpdate` of an update, with the routes in the order of the loop. -/
def handleRouteUpdate (w : Watcher) (x : List Route × List Route) : Option Watcher :=
  (classifyUpdate x.2 x.1 w.notifiers).map fun n =>
    ⟨updateMap x.1, startNewPeerStatusWatchers (updateMap x.1) n⟩

/-- One open notifier for each peer of the routes, and no other. -/
structure Follows (w : Watcher) : Prop where
  nodup : w.notifiers.Nodup
  mem : ∀ p, p ∈ w.notifiers ↔ p ∈ w.routes.map Route.peer

/-- The removed routes have different peers, and a peer that is left is that of a removed route. -/
def Tidy (w : Watcher) (update : List Route) : Prop :=
  (removedPeers w.routes update).Nodup ∧ ∀ p ∈ w.routes.map Route.peer,
    p ∈ (updateMap update).map Route.peer ∨ p ∈ removedPeers w.routes update
deriving Decidable

theorem foldlM_close (ps : List String) : ∀ n n' : List String,
    ps.foldlM (fun n p => if p ∈ n then some (n.filter (· ≠ p)) else none) n = some n' ↔
      ps.Nodup ∧ (∀ p ∈ ps, p ∈ n) ∧ n' = n.filter (· ∉ ps) := by
  induction ps with
  | nil => simp [eq_comm]
  | cons p ps ih =>
    intro n n'
    rw [foldlM_cons]
    by_cases hp : p ∈ n
    · simp only [if_pos hp, Option.bind_eq_bind, Option.bind_some, ih]
      simp [filter_filter]
      grind
    · simp [hp]

theorem startNewPeerStatusWatchers_spec (routes : List Route) : ∀ n : List String, n.Nodup →
    (startNewPeerStatusWatchers routes n).Nodup ∧ ∀ p,
      p ∈ startNewPeerStatusWatchers routes n ↔ p ∈ n ∨ p ∈ routes.map Route.peer := by
  induction routes with
  | nil => simp [startNewPeerStatusWatchers]
  | cons r routes ih =>
    intro n hn
    rw [startNewPeerStatusWatchers, foldl_cons, ← startNewPeerStatusWatchers]
    split
    · grind
    · grind

/-- If the routes have exactly their notifiers, handling an update does not panic and
    leaves the new routes with exactly theirs, if and only if it is tidy. -/
theorem follows_iff_tidy {w : Watcher} (h : Follows w) {order update : List Route}
    (ho : order.Perm w.routes) :
    (∃ w', handleRouteUpdate w (update, order) = some w' ∧ Follows w') ↔ Tidy w update := by
  have hr : (removedPeers order update).Perm (removedPeers w.routes update) := (ho.filter _).map _
  have hin : ∀ p ∈ removedPeers order update, p ∈ w.notifiers := by
    intro p hp
    obtain ⟨r, hr, rfl⟩ := mem_map.mp hp
    exact (h.mem _).mpr (mem_map_of_mem (ho.subset (mem_filter.mp hr).1))
  have hstart := startNewPeerStatusWatchers_spec (updateMap update) _
    (h.nodup.filter (· ∉ removedPeers order update))
  simp only [handleRouteUpdate, classifyUpdate, Option.map_eq_some_iff, foldlM_close]
  constructor
  · rintro ⟨w', ⟨n, ⟨hn, -, rfl⟩, rfl⟩, hw⟩
    refine ⟨hr.nodup_iff.mp hn, fun p hp => ?_⟩
    by_cases hpr : p ∈ removedPeers order update
    · exact .inr (hr.mem_iff.mp hpr)
    · refine .inl ((hw.mem p).mp ((hstart.2 p).mpr (.inl ?_)))
      simpa [hpr] using (h.mem p).mpr hp
  · rintro ⟨hn, hleft⟩
    refine ⟨_, ⟨_, ⟨hr.nodup_iff.mpr hn, hin, rfl⟩, rfl⟩, hstart.1, fun p => ?_⟩
    refine (hstart.2 p).trans (or_iff_right_of_imp fun hp => ?_)
    obtain ⟨hp, hpr⟩ := mem_filter.mp hp
    exact (hleft p ((h.mem p).mp hp)).resolve_right fun hm => by simp [hr.mem_iff.mpr hm] at hpr

/-- **Notifiers.**  Tidy updates never panic, in whatever order the routes are walked, and leave one
    notifier for each peer of the routes and no other; and it is the tidy updates that do. -/
theorem notifiers_follow (xs : List (List Route × List Route)) (hok : AllowedRun handleRouteUpdate
    (fun w x => x.2.Perm w.routes ∧ Tidy w x.1) {} xs) :
    ∃ w, run handleRouteUpdate {} xs = some w ∧ Follows w ∧
      ∀ update order, order.Perm w.routes →
        ((∃ w', handleRouteUpdate w (update, order) = some w' ∧ Follows w') ↔ Tidy w update) := by
  obtain ⟨w, hr, hw⟩ := exists_run (fun w x h hx => (follows_iff_tidy h hx.1).mpr hx.2) xs {}
    ⟨nodup_nil, fun p => Iff.rfl⟩ hok
  exact ⟨w, hr, hw, fun update order ho => follows_iff_tidy hw ho⟩

/-- A route gives way to one of another peer. -/
theorem route_replaced : ∃ w, run handleRouteUpdate {}
    [([⟨"a", 1, "p"⟩], []), ([⟨"b", 1, "q"⟩], [⟨"a", 1, "p"⟩])] = some w ∧ Follows w := by
  obtain ⟨w, hr, hw, -⟩ := notifiers_follow
    [([⟨"a", 1, "p"⟩], []), ([⟨"b", 1, "q"⟩], [⟨"a", 1, "p"⟩])] (by decide)
  exact ⟨w, hr, hw⟩

/-- Two routes of one peer are removed: the second close panics.  A route gets another
    peer: the notifier of the old one stays open. -/
theorem shared_peer_panics :
    run handleRouteUpdate {} [([⟨"a", 1, "p"⟩, ⟨"b", 1, "p"⟩], []),
      ([], [⟨"a", 1, "p"⟩, ⟨"b", 1, "p"⟩])] = none ∧
    (run handleRouteUpdate {} [([⟨"a", 1, "p"⟩], []), ([⟨"a", 1, "q"⟩], [⟨"a", 1, "p"⟩])]).map
      Watcher.notifiers = some ["q", "p"] := by
  decide

/-! ## Allowed IPs

The handler adds and removes the allowed IPs of its prefixes one by one and goes on where one of
them fails.  A removal that fails half-way leaves the watcher with its choice, and so does an
addition that fails after a removal; the next removal then asks for all of them again. -/

section

variable {P : Type} [DecidableEq P] (prefixes : Multiset P)

/-- The current choice, and the references to allowed IPs that the handler holds. -/
structure Choice (P : Type) where
  current : Option Route := none
  status : Option PeerStatus := none
  refs : Multiset P := 0

/-- What a recalculation sees, and which of its prefixes the handler releases and adds if asked. -/
structure Recalculation where
  routes : List Route
  statuses : String → Option PeerStatus
  released : Multiset P
  added : Multiset P
  released_le : released ≤ prefixes
  added_le : added ≤ prefixes

variable (c : Choice P)

/-- `removeAllowedIPs`: the references of these prefixes are released, the others fail.  `none` if
    the handler does not hold what it is asked to release. -/
def removeAllowedIPs (released : Multiset P) : Option (Choice P) :=
  if prefixes ≤ c.refs then some { c with refs := c.refs - released } else none

/-- `Stop`. -/
def stop (released : Multiset P) : Option (Choice P) :=
  if c.current.isSome then (removeAllowedIPs prefixes c released).map ({ · with status := none })
  else some c

variable {prefixes} (x : Recalculation prefixes)

/-- The same route, in the same state. -/
def shouldSkipRecalculation (chosen : Option Route) (status : Option PeerStatus) : Bool :=
  c.current.isSome && c.current = chosen &&
    c.status.all fun s => status.map PeerStatus.status = some s.status

/-- The ID of the best route, and the state of its peer. -/
def best : String × Option PeerStatus :=
  getBestRouteFromStatuses x.statuses ((c.current.map Route.id).getD "") x.routes

/-- The best route. -/
def newChosenRoute : Option Route := x.routes.find? (·.id = (best c x).1)

/-- `addAllowedIPs` for the best route, which is chosen if all prefixes were added. -/
def addAllowedIPs : Choice P :=
  if x.added = prefixes then ⟨newChosenRoute c x, (best c x).2, c.refs + x.added⟩
  else { c with refs := c.refs + x.added }

/-- One recalculation; an error ends it. -/
def recalculateRoutes : Option (Choice P) :=
  if (best c x).1 = "" then
    if c.current.isSome then
      (removeAllowedIPs prefixes c x.released).map fun c' =>
        if x.released = prefixes then { c' with current := none, status := none } else c'
    else some c
  else if shouldSkipRecalculation c (newChosenRoute c x) (best c x).2 then some c
  else if c.current.isSome then
    (removeAllowedIPs prefixes c x.released).map fun c' =>
      if x.released = prefixes then addAllowedIPs c' x else c'
  else some (addAllowedIPs c x)

/-- There is a choice to be given up. -/
def GivesUp : Prop :=
  c.current.isSome ∧
    ((best c x).1 = "" ∨ ¬ shouldSkipRecalculation c (newChosenRoute c x) (best c x).2)
deriving Decidable

/-- A recalculation that gives up a choice releases all prefixes, and adds all if there is another
    route; or references left over from failed additions make up for those that are missing. -/
def Fair : Prop :=
  GivesUp c x →
    (x.released = prefixes ∨ prefixes + x.released ≤ c.refs) ∧
    (x.released = prefixes → (best c x).1 = "" ∨ x.added = prefixes ∨
      prefixes + prefixes ≤ c.refs + x.added)

instance : Decidable (Fair c x) := inferInstanceAs (Decidable (_ → _ ∧ (_ → _)))

variable (prefixes) in
/-- What a removal would ask for is there. -/
def Covered : Prop := c.current.isSome → prefixes ≤ c.refs

variable {c x}

/-- The watcher can be stopped exactly if what it would release is there. -/
theorem covered_iff_stop :
    (∀ released ≤ prefixes, (stop prefixes c released).isSome) ↔ Covered prefixes c := by
  by_cases hn : c.current.isSome
  · by_cases hc : prefixes ≤ c.refs
    · simp [stop, removeAllowedIPs, Covered, hn, hc]
    · simp only [stop, removeAllowedIPs, Covered, hn, hc, if_true, if_false, Option.map_none,
        Option.isSome_none, Bool.false_eq_true, imp_false, not_true_eq_false, iff_false, not_forall]
      exact ⟨0, fun h => h (Multiset.zero_le _)⟩
  · simp [stop, Covered, hn]

/-- What is left after a removal covers the prefixes exactly if there was more. -/
theorem le_sub_iff {refs released : Multiset P} (h : prefixes ≤ refs) (hr : released ≤ prefixes) :
    prefixes ≤ refs - released ↔ prefixes + released ≤ refs :=
  le_tsub_iff_right (hr.trans h)

/-- … and also after an addition. -/
theorem le_sub_add_iff {refs added : Multiset P} (h : prefixes ≤ refs) :
    prefixes ≤ refs - prefixes + added ↔ prefixes + prefixes ≤ refs + added := by
  rw [tsub_add_eq_add_tsub h]
  exact le_tsub_iff_right (h.trans (Multiset.le_add_right _ _))

/-- After an addition all prefixes are covered, or what was added makes up for the others. -/
theorem covered_addAllowedIPs : Covered prefixes (addAllowedIPs c x) ↔
    x.added = prefixes ∨ (c.current.isSome → prefixes ≤ c.refs + x.added) := by
  by_cases ha : x.added = prefixes
  · have hle : prefixes ≤ c.refs + prefixes := Multiset.le_add_left _ _
    simp [addAllowedIPs, Covered, ha, hle]
  · simp [addAllowedIPs, Covered, ha]

/-- **One recalculation.** -/
theorem covered_step_iff (h : Covered prefixes c) (x : Recalculation prefixes) :
    (∃ c', recalculateRoutes c x = some c' ∧ Covered prefixes c') ↔ Fair c x := by
  by_cases hn : c.current.isSome
  · have hc := h hn
    have hle := le_sub_iff hc x.released_le
    by_cases hb : (best c x).1 = ""
    · by_cases hr : x.released = prefixes
      · simp [recalculateRoutes, removeAllowedIPs, Fair, GivesUp, Covered, hb, hn, hc, hr]
      · simp [recalculateRoutes, removeAllowedIPs, Fair, GivesUp, Covered, hb, hn, hc, hr, hle]
    by_cases hs : shouldSkipRecalculation c (newChosenRoute c x) (best c x).2
    · simp [recalculateRoutes, Fair, GivesUp, hb, hs, h]
    by_cases hr : x.released = prefixes
    · simp [recalculateRoutes, removeAllowedIPs, Fair, GivesUp, hb,
        hs, hn, hc, hr, covered_addAllowedIPs,
        le_sub_add_iff hc]
    · simp [recalculateRoutes, removeAllowedIPs, Fair, GivesUp, Covered, hb, hs, hn, hc, hr, hle]
  · -- an addition to no choice asks for nothing
    refine iff_of_true ?_ fun hg => absurd hg.1 hn
    by_cases hb : (best c x).1 = ""
    · exact ⟨c, by simp [recalculateRoutes, hb, hn], h⟩
    · have hs : ¬ shouldSkipRecalculation c (newChosenRoute c x) (best c x).2 := by
        simp [shouldSkipRecalculation, hn]
      refine ⟨addAllowedIPs c x, by simp [recalculateRoutes, hb, hs, hn], ?_⟩
      exact covered_addAllowedIPs.mpr (.inr fun hn' => absurd hn' hn)

end

/-- A route of this peer is there, with these answers for the prefixes "x" and "y". -/
def recalculation (peer : String) (released added : Multiset String)
    (hr : released ≤ {"x", "y"} := by decide) (ha : added ≤ {"x", "y"} := by decide) :
    Recalculation {"x", "y"} :=
  ⟨[⟨"a", 1, peer⟩], fun _ => some ⟨.connected, false, 1⟩, released, added, hr, ha⟩

/-- One prefix cannot be added at first; later the route moves to another peer, after one attempt
    where nothing could be released. -/
def movedRun : List (Recalculation {"x", "y"}) :=
  [recalculation "p" 0 {"x"}, recalculation "p" 0 {"x", "y"}, recalculation "q" 0 {"x", "y"},
    recalculation "q" {"x", "y"} {"x", "y"}]

end RouteWatcher

import Mathlib.Data.Finset.Card
import NetbirdHa.TransitionProofs

/-! # Filtering exit nodes while routes are selected

The route selector keeps what the user selected and deselected under a read-write mutex.
`FilterSelectedExitNodes` holds it for reading, and for an exit node it asks `IsSelected`,
which takes it for reading again.  A writer that waits keeps new readers out: if one comes
in between, the filter waits for the writer and the writer for the filter.

Goroutines wait forever exactly if a writer came while a filter still had to ask
(`no_deadlock_iff`). -/

namespace RouteSelector

open Transition List

/-! ## The selector -/

/-- What the filter reads of a route; its network as text. -/
structure Route where
  network : String
  skipAutoApply : Bool := false

/-- An entry of an `HAMap`, with the network ID of its key. -/
structure Entry where
  id : String
  netID : String
  routes : List Route

/-- `RouteSelector`, without its mutex. -/
structure Selector where
  deselectedRoutes : Finset String := ∅
  selectedRoutes : Finset String := ∅
  deselectAll : Bool := false

/-- A turn of the loop over the routes to change, with the errors so far: a route that is not
    available is reported. -/
def changeRoute (change : Selector → String → Selector) (allRoutes : List String)
    (acc : Selector × List String) (route : String) : Selector × List String :=
  if route ∈ allRoutes then (change acc.1 route, acc.2)
  else (acc.1, acc.2 ++ ["route '" ++ route ++ "' is not available"])

section

variable (rs : Selector)

/-- `SelectRoutes`, under the lock. -/
def Selector.selectRoutes (routes : List String) (appendRoute : Bool) (allRoutes : List String) :
    Selector × List String :=
  let start := if !appendRoute || rs.deselectAll then
    { rs with deselectedRoutes := allRoutes.toFinset, selectedRoutes := ∅ } else rs
  let select (rs : Selector) (route : String) : Selector :=
    { rs with
      deselectedRoutes := rs.deselectedRoutes.erase route
      selectedRoutes := insert route rs.selectedRoutes }
  let done := routes.foldl (changeRoute select allRoutes) (start, [])
  ({ done.1 with deselectAll := false }, done.2)

/-- `SelectAllRoutes`, under the lock. -/
def Selector.selectAllRoutes : Selector :=
  { deselectAll := false, deselectedRoutes := ∅, selectedRoutes := ∅ }

/-- `DeselectRoutes`, under the lock. -/
def Selector.deselectRoutes (routes allRoutes : List String) : Selector × List String :=
  let deselect (rs : Selector) (route : String) : Selector :=
    { rs with
      deselectedRoutes := insert route rs.deselectedRoutes
      selectedRoutes := rs.selectedRoutes.erase route }
  if rs.deselectAll then (rs, [])
  else routes.foldl (changeRoute deselect allRoutes) (rs, [])

/-- `DeselectAllRoutes`, under the lock. -/
def Selector.deselectAllRoutes : Selector :=
  { deselectAll := true, deselectedRoutes := ∅, selectedRoutes := ∅ }

/-- `IsSelected`, under the lock. -/
def Selector.isSelected (routeID : String) : Bool :=
  if rs.deselectAll then false else decide (routeID ∉ rs.deselectedRoutes)

/-- `isDeselected`. -/
def Selector.isDeselected (netID : String) : Bool :=
  decide (netID ∈ rs.deselectedRoutes) || rs.deselectAll

/-- `hasUserSelections`. -/
def Selector.hasUserSelections : Bool :=
  decide (0 < rs.selectedRoutes.card) || decide (0 < rs.deselectedRoutes.card)

/-- `isExitNode`: the first route is the default route. -/
def isExitNode (rt : List Route) : Bool := rt.head?.any (·.network == "0.0.0.0/0")

/-- `collectSelected`: the routes that apply by themselves. -/
def collectSelected (rt : List Route) : List Route := rt.filter (!·.skipAutoApply)

/-! ## The goroutines -/

/-- The calls that take the mutex for writing. -/
inductive Call where
  | selectRoutes (routes : List String) (appendRoute : Bool) (allRoutes : List String)
  | selectAllRoutes
  | deselectRoutes (routes allRoutes : List String)
  | deselectAllRoutes

/-- What a call does under the lock, and its errors. -/
def Call.apply : Call → Selector × List String
  | .selectRoutes routes appendRoute allRoutes => rs.selectRoutes routes appendRoute allRoutes
  | .selectAllRoutes => (.selectAllRoutes, [])
  | .deselectRoutes routes allRoutes => rs.deselectRoutes routes allRoutes
  | .deselectAllRoutes => (.deselectAllRoutes, [])

/-- Where a goroutine stands. -/
inductive Goroutine where
  /-- At the `RLock` of `FilterSelectedExitNodes`. -/
  | filter (routes : List Entry)
  /-- In the loop of the filter, with the read lock. -/
  | walking (rest out : List Entry)
  /-- At the `RLock` of `IsSelected`, with the read lock of the filter. -/
  | asking (x : Entry) (rest out : List Entry)
  /-- The filter has returned. -/
  | filtered (out : List Entry)
  /-- At the `Lock` of a call. -/
  | call (c : Call)
  /-- In `Lock`, until the readers are gone. -/
  | pending (c : Call)
  /-- The call has returned. -/
  | returned (errors : List String)

/-- A turn of the loop of the filter, with `applyExitNodeFilter` up to its `IsSelected`. -/
def Selector.turn (x : Entry) (rest out : List Entry) : Goroutine :=
  if rs.isDeselected x.netID then .walking rest out
  else if !isExitNode x.routes then .walking rest (out ++ [x])
  else if rs.hasUserSelections then .asking x rest out
  else
    let sel := collectSelected x.routes
    if 0 < sel.length then .walking rest (out ++ [{ x with routes := sel }])
    else .walking rest out

/-- The filter asks `IsSelected` about the entry. -/
def Selector.asks (x : Entry) : Bool :=
  !rs.isDeselected x.netID && isExitNode x.routes && rs.hasUserSelections

/-- The goroutine has the read lock and will take it once more. -/
def Selector.asksAgain : Goroutine → Bool
  | .walking rest _ => rest.any rs.asks
  | .asking _ _ _ => true
  | _ => false

end

/-- The goroutine has the read lock. -/
def Goroutine.reads : Goroutine → Bool
  | .walking _ _ | .asking _ _ _ => true
  | _ => false

/-- The goroutine is about to call `Lock`. -/
def Goroutine.asksToWrite : Goroutine → Bool
  | .call _ => true
  | _ => false

/-- The goroutine has announced that it will write. -/
def Goroutine.waitsToWrite : Goroutine → Bool
  | .pending _ => true
  | _ => false

/-- The goroutine has returned. -/
def Goroutine.finished : Goroutine → Bool
  | .filtered _ | .returned _ => true
  | _ => false

/-- The selector and the goroutines that use it. -/
structure State where
  selector : Selector := {}
  goroutines : List Goroutine := []

/-- A writer that waits keeps new readers and other writers out.  Go's `Unlock` lets the readers it
    kept out in before the next writer; here either of them may come first. -/
def State.closed (s : State) : Bool := s.goroutines.any Goroutine.waitsToWrite

/-- What a goroutine does next, if the mutex lets it. -/
def advance (s : State) : Goroutine → Option (Selector × Goroutine)
  | .filter routes =>
    if s.closed then none
    else some (s.selector, if s.selector.deselectAll then .filtered [] else .walking routes [])
  | .walking [] out => some (s.selector, .filtered out)
  | .walking (x :: rest) out => some (s.selector, s.selector.turn x rest out)
  | .asking x rest out =>
    if s.closed then none
    else some (s.selector,
      .walking rest (if s.selector.isSelected x.netID then out ++ [x] else out))
  | .call c => if s.closed then none else some (s.selector, .pending c)
  | .pending c =>
    -- `Lock` returns when the last reader has gone; what follows up to `Unlock` is one step
    if s.goroutines.any Goroutine.reads then none
    else some ((c.apply s.selector).1, .returned (c.apply s.selector).2)
  | .filtered _ | .returned _ => none

/-- A goroutine begins, or one that has begun gets on. -/
inductive Action where
  | filterSelectedExitNodes (routes : List Entry)
  | call (c : Call)
  | move (k : Nat)

/-- One step. -/
def step (s : State) : Action → Option State
  | .filterSelectedExitNodes routes =>
    some { s with goroutines := s.goroutines ++ [.filter routes] }
  | .call c => some { s with goroutines := s.goroutines ++ [.call c] }
  | .move k =>
    s.goroutines[k]?.bind fun g => (advance s g).bind fun next =>
      some { selector := next.1, goroutines := s.goroutines.set k next.2 }

/-- The goroutine waits for the mutex. -/
def Waits (s : State) (k : Nat) : Prop :=
  ∃ g, s.goroutines[k]? = some g ∧ g.finished = false ∧ advance s g = none

/-- It waits for the mutex, and will do so whatever happens. -/
def WaitsForever (s : State) (k : Nat) : Prop :=
  ∀ as s', run step s as = some s' → Waits s' k

/-- No filter will take the read lock once more. -/
def Calm (s : State) : Prop := ∀ g ∈ s.goroutines, s.selector.asksAgain g = false
deriving Decidable

/-- A writer calls `Lock` only when no filter has to ask again. -/
def StepAllowed (s : State) : Action → Prop
  | .move k => s.goroutines[k]?.any Goroutine.asksToWrite = true → Calm s
  | _ => True

instance (s : State) (a : Action) : Decidable (StepAllowed s a) := by
  cases a <;> unfold StepAllowed <;> infer_instance

/-- While a writer waits, no filter has to ask again. -/
def Free (s : State) : Prop := s.closed → Calm s

/-- How many moves a goroutine has left until it holds nobody up, if it does not ask again. -/
def Goroutine.work : Goroutine → Nat
  | .walking rest _ => rest.length + 1
  | .pending _ => 1
  | _ => 0

/-! ## What one goroutine does -/

section

variable {s s' : State} {g g' : Goroutine} {i j k : Nat} {rs rs' : Selector} {c : Call}
  {x : Entry} {rest out : List Entry} {a : Action}

theorem step_move (h : step s (.move i) = some s') :
    ∃ g rs g', s.goroutines[i]? = some g ∧ advance s g = some (rs, g') ∧
      s' = ⟨rs, s.goroutines.set i g'⟩ := by
  obtain ⟨g, hg, h⟩ := Option.bind_eq_some_iff.mp h
  obtain ⟨⟨rs, g'⟩, ha, h⟩ := Option.bind_eq_some_iff.mp h
  exact ⟨g, rs, g', hg, ha, (Option.some.inj h).symm⟩

theorem move_eq (hi : s.goroutines[i]? = some g) (ha : advance s g = some (rs, g')) :
    step s (.move i) = some ⟨rs, s.goroutines.set i g'⟩ := by
  simp only [step, hi, ha, Option.bind_some]

theorem closed_of_pending (hk : s.goroutines[k]? = some (.pending c)) : s.closed :=
  any_eq_true.mpr ⟨_, mem_of_getElem? hk, rfl⟩

/-- Who asks again has the read lock. -/
theorem reads_of_asksAgain (h : rs.asksAgain g) : g.reads := by
  cases g <;> first | rfl | cases h

theorem turn_of_asks (h : rs.asks x) : rs.turn x rest out = .asking x rest out := by
  simp only [Selector.asks, Bool.and_eq_true, Bool.not_eq_true'] at h
  simp [Selector.turn, h.1.1, h.1.2, h.2]

theorem turn_of_not_asks (h : rs.asks x = false) (rest out : List Entry) :
    ∃ out', rs.turn x rest out = .walking rest out' := by
  rw [Selector.turn]
  split
  · exact ⟨_, rfl⟩
  split
  · exact ⟨_, rfl⟩
  split
  · simp_all [Selector.asks]
  · dsimp only
    split <;> exact ⟨_, rfl⟩

/-- A reader that does not ask again is never kept out, and comes nearer to its end. -/
theorem advance_reader (hg : g.reads) (hn : s.selector.asksAgain g = false) :
    ∃ g', advance s g = some (s.selector, g') ∧ s.selector.asksAgain g' = false ∧
      g'.work < g.work := by
  cases g with
  | walking rest out =>
    cases rest with
    | nil => exact ⟨_, rfl, rfl, Nat.zero_lt_one⟩
    | cons x rest =>
      obtain ⟨hx, hrest⟩ := Bool.or_eq_false_iff.mp hn
      obtain ⟨out', ho⟩ := turn_of_not_asks hx rest out
      exact ⟨.walking rest out', by rw [advance, ho], hrest, Nat.lt_succ_self _⟩
  | asking x rest out => cases hn
  | _ => cases hg

/-- While a writer waits, a filter that has to ask again still has to. -/
theorem asksAgain_advance (hc : s.closed) (hg : s.selector.asksAgain g)
    (ha : advance s g = some (rs, g')) : s.selector.asksAgain g' := by
  cases g with
  | walking rest out =>
    cases rest with
    | nil => cases hg
    | cons x rest =>
      cases ha
      by_cases hx : s.selector.asks x
      · rw [turn_of_asks hx]
        rfl
      · obtain ⟨out', ho⟩ := turn_of_not_asks (Bool.eq_false_of_not_eq_true hx) rest out
        rw [ho]
        exact (Bool.or_eq_true_iff.mp hg).resolve_left hx
  | asking x rest out => simp [advance, hc] at ha
  | _ => cases hg

/-- Only a writer changes the selector, and only when nobody reads. -/
theorem advance_selector (ha : advance s g = some (rs, g')) :
    rs = s.selector ∨ s.goroutines.any Goroutine.reads = false := by
  cases g with
  | walking rest out => cases rest <;> cases ha <;> exact .inl rfl
  | pending c =>
    rw [advance] at ha
    split at ha
    · cases ha
    · next hr => exact .inr (Bool.eq_false_of_not_eq_true hr)
  | _ => grind [advance]

/-- Who waits to write has just called `Lock`. -/
theorem asksToWrite_of_advance (ha : advance s g = some (rs, g')) (hw : g'.waitsToWrite) :
    g.asksToWrite := by
  cases g with
  | call c => rfl
  | walking rest out =>
    cases rest with
    | nil =>
      cases ha
      cases hw
    | cons x rest => grind [advance, Selector.turn, Goroutine.waitsToWrite]
  | _ => grind [advance, Goroutine.waitsToWrite]

/-- While a writer waits or comes, no goroutine newly gets to ask. -/
theorem calm_advance (hc : s.closed ∨ g.asksToWrite) (hg : s.selector.asksAgain g = false)
    (ha : advance s g = some (rs, g')) : rs.asksAgain g' = false := by
  cases g with
  | walking rest out =>
    obtain ⟨g₁, ha₁, hg₁, -⟩ := advance_reader rfl hg
    cases ha.symm.trans ha₁
    exact hg₁
  | _ => grind [advance, Selector.asksAgain, Goroutine.asksToWrite]

/-- Who waits, waits for a writer or to write. -/
theorem closed_of_waits (h : Waits s k) : s.closed := by
  obtain ⟨g, hk, hf, ha⟩ := h
  cases g with
  | walking rest out => cases rest <;> cases ha
  | pending c => exact closed_of_pending hk
  | _ => grind [advance, Goroutine.finished]

/-! ## A writer and a filter that wait for each other -/

/-- Once a writer waits and a filter has to ask again, this stays so; and the filter does not move
    if it cannot. -/
theorem stuck_step (hk : s.goroutines[k]? = some (.pending c)) (hj : s.goroutines[j]? = some g)
    (hg : s.selector.asksAgain g) (hs : step s a = some s') :
    s'.goroutines[k]? = some (.pending c) ∧ ∃ g', s'.goroutines[j]? = some g' ∧
      s'.selector.asksAgain g' ∧ (advance s g = none → g' = g) := by
  have hc : s.closed := closed_of_pending hk
  have hr : s.goroutines.any Goroutine.reads :=
    any_eq_true.mpr ⟨g, mem_of_getElem? hj, reads_of_asksAgain hg⟩
  cases a with
  | move i =>
    obtain ⟨g₀, rs, g₁, hi, ha, rfl⟩ := step_move hs
    obtain rfl : rs = s.selector := (advance_selector ha).resolve_right (by simp [hr])
    have hik : k ≠ i := by
      rintro rfl
      cases hk.symm.trans hi
      simp [advance, hr] at ha
    refine ⟨by rw [getElem?_set_of_some hi, if_neg hik, hk], ?_⟩
    by_cases hij : j = i
    · subst hij
      cases hj.symm.trans hi
      refine ⟨g₁, by rw [getElem?_set_of_some hi, if_pos rfl], ?_, ?_⟩
      · exact asksAgain_advance (s := s) hc hg ha
      · intro hn
        cases hn.symm.trans ha
    · exact ⟨g, by rw [getElem?_set_of_some hi, if_neg hij, hj], hg, fun _ => rfl⟩
  | _ =>
    cases hs
    exact ⟨by grind, g, by grind, hg, fun _ => rfl⟩

/-- The writer waits forever. -/
theorem waitsForever_pending (hk : s.goroutines[k]? = some (.pending c))
    (hj : s.goroutines[j]? = some g) (hg : s.selector.asksAgain g) : WaitsForever s k := by
  intro as s' hr
  have hstep (s : State) (a : Action) (s' : State)
      (h : s.goroutines[k]? = some (.pending c) ∧
        ∃ g, s.goroutines[j]? = some g ∧ s.selector.asksAgain g) (_ : True)
      (hs : step s a = some s') : s'.goroutines[k]? = some (.pending c) ∧
        ∃ g, s'.goroutines[j]? = some g ∧ s'.selector.asksAgain g := by
    obtain ⟨hk, g, hj, hg⟩ := h
    obtain ⟨hk', g', hj', hg', -⟩ := stuck_step hk hj hg hs
    exact ⟨hk', g', hj', hg'⟩
  obtain ⟨hk', g', hj', hg'⟩ := run_invariant hstep as s s' ⟨hk, g, hj, hg⟩
    (allowedRun_of_forall _ _ fun _ _ _ => trivial) hr
  exact ⟨.pending c, hk', rfl,
    if_pos (any_eq_true.mpr ⟨g', mem_of_getElem? hj', reads_of_asksAgain hg'⟩)⟩

/-- A filter that is at the `RLock` of `IsSelected` while a writer waits, waits forever. -/
theorem waitsForever_asking (hk : s.goroutines[k]? = some (.pending c))
    (hj : s.goroutines[j]? = some (.asking x rest out)) : WaitsForever s j := by
  intro as s' hr
  have hstep (s : State) (a : Action) (s' : State)
      (h : s.goroutines[k]? = some (.pending c) ∧ s.goroutines[j]? = some (.asking x rest out))
      (_ : True) (hs : step s a = some s') :
      s'.goroutines[k]? = some (.pending c) ∧ s'.goroutines[j]? = some (.asking x rest out) := by
    obtain ⟨hk', g', hj', -, hg'⟩ := stuck_step h.1 h.2 rfl hs
    rw [hg' (if_pos (closed_of_pending h.1))] at hj'
    exact ⟨hk', hj'⟩
  obtain ⟨hk', hj'⟩ := run_invariant hstep as s s' ⟨hk, hj⟩
    (allowedRun_of_forall _ _ fun _ _ _ => trivial) hr
  exact ⟨_, hj', rfl, if_pos (closed_of_pending hk')⟩

/-! ## The mutex becomes free -/

/-- The others do not ask again after a move either. -/
theorem calm_set (hs : Calm s) (ha : advance s g = some (rs, g')) (hg : rs.asksAgain g' = false) :
    Calm ⟨rs, s.goroutines.set i g'⟩ := by
  intro z hz
  rcases mem_or_eq_of_mem_set hz with hm | rfl
  · rcases advance_selector ha with rfl | hr
    · exact hs z hm
    · exact Bool.eq_false_of_not_eq_true fun hz' =>
        any_eq_false.mp hr z hm (reads_of_asksAgain hz')
  · exact hg

/-- If no filter has to ask again, the readers and then the writers can finish.  The induction is
    on the moves they have left. -/
theorem exists_run_open (n : Nat) : ∀ s : State, (s.goroutines.map Goroutine.work).sum = n →
    Calm s → ∃ as s', run step s as = some s' ∧ s'.closed = false := by
  induction n using Nat.strong_induction_on with
  | _ n ih =>
    intro s hn hs
    have hmove (i : Nat) (g : Goroutine) (rs : Selector) (g' : Goroutine)
        (hi : s.goroutines[i]? = some g) (ha : advance s g = some (rs, g'))
        (hg : rs.asksAgain g' = false) (hlt : g'.work < g.work) :
        ∃ as s', run step s as = some s' ∧ s'.closed = false := by
      have hsum := sum_map_set Goroutine.work hi g'
      obtain ⟨as, s', hr, hc⟩ := ih ((s.goroutines.set i g').map Goroutine.work).sum
        (by omega) ⟨rs, s.goroutines.set i g'⟩ rfl (calm_set hs ha hg)
      exact ⟨.move i :: as, s', run_cons_eq_some.mpr ⟨_, move_eq hi ha, hr⟩, hc⟩
    cases hr : s.goroutines.any Goroutine.reads with
    | true =>
      obtain ⟨g, hg, hgr⟩ := any_eq_true.mp hr
      obtain ⟨i, hi⟩ := mem_iff_getElem?.mp hg
      obtain ⟨g', ha, hg', hlt⟩ := advance_reader hgr (hs g hg)
      exact hmove i g _ g' hi ha hg' hlt
    | false =>
      cases hc : s.closed with
      | false => exact ⟨[], s, rfl, hc⟩
      | true =>
        obtain ⟨g, hg, hgw⟩ := any_eq_true.mp hc
        obtain ⟨i, hi⟩ := mem_iff_getElem?.mp hg
        cases g with
        | pending c =>
          have ha : advance s (.pending c) = some (_, _) := if_neg (by simp [hr])
          exact hmove i _ _ _ hi ha rfl Nat.zero_lt_one
        | _ => cases hgw

/-- **Goroutines wait forever exactly if a writer waits while a filter has to ask again.** -/
theorem not_waitsForever_iff : (∀ k, ¬ WaitsForever s k) ↔ Free s := by
  constructor
  · intro h hc g hg
    obtain ⟨p, hp, hpw⟩ := any_eq_true.mp hc
    obtain ⟨k, hk⟩ := mem_iff_getElem?.mp hp
    obtain ⟨j, hj⟩ := mem_iff_getElem?.mp hg
    cases p with
    | pending c => exact Bool.eq_false_of_not_eq_true fun ha => h k (waitsForever_pending hk hj ha)
    | _ => cases hpw
  · intro h k hw
    have hc : s.closed := closed_of_waits (hw [] s rfl)
    obtain ⟨as, s', hr, ho⟩ := exists_run_open _ s rfl (h hc)
    have hc' : s'.closed := closed_of_waits (hw as s' hr)
    rw [ho] at hc'
    cases hc'

/-! ## Runs -/

/-- An allowed step keeps writers away from filters that have to ask again. -/
theorem free_of_allowed (h : Free s) (ha : StepAllowed s a) (hs : step s a = some s') :
    Free s' := by
  intro hc
  cases a with
  | move i =>
    obtain ⟨g, rs, g', hi, hadv, rfl⟩ := step_move hs
    have hor : s.closed ∨ g.asksToWrite := by
      obtain ⟨z, hz, hzw⟩ := any_eq_true.mp hc
      rcases mem_or_eq_of_mem_set hz with hz | rfl
      · exact .inl (any_eq_true.mpr ⟨z, hz, hzw⟩)
      · exact .inr (asksToWrite_of_advance hadv hzw)
    have hcalm : Calm s := hor.elim h fun hw => ha (by rw [hi]; exact hw)
    exact calm_set hcalm hadv (calm_advance hor (hcalm g (mem_of_getElem? hi)) hadv)
  | _ =>
    cases hs
    have hcalm : Calm s := h (by simpa [State.closed, Goroutine.waitsToWrite] using hc)
    intro z hz
    rcases mem_append.mp hz with hz | hz
    · exact hcalm z hz
    · cases mem_singleton.mp hz
      rfl

/-- A writer that comes too early stays a writer that waits for a filter. -/
theorem allowed_of_free (h : Free s') (hs : step s a = some s') : StepAllowed s a := by
  cases a with
  | move i =>
    intro hw
    obtain ⟨g, rs, g', hi, ha, rfl⟩ := step_move hs
    rw [hi] at hw
    cases g with
    | call c =>
      obtain ⟨-, hnext⟩ := Option.ite_none_left_eq_some.mp ha
      cases hnext
      have hcalm := h (any_eq_true.mpr ⟨.pending c, mem_set_self hi _, rfl⟩)
      intro z hz
      by_contra hn
      have hne : z ≠ .call c := by
        rintro rfl
        exact hn rfl
      exact hn (hcalm z (mem_set_of_ne hi hz hne _))
    | _ => cases hw
  | _ => trivial

theorem free_of_step (h : Free s') (hs : step s a = some s') : Free s := by
  intro hc g hg
  obtain ⟨p, hp, hpw⟩ := any_eq_true.mp hc
  obtain ⟨k, hk⟩ := mem_iff_getElem?.mp hp
  obtain ⟨j, hj⟩ := mem_iff_getElem?.mp hg
  cases p with
  | pending c =>
    by_contra hn
    obtain ⟨hk', g', hj', hg', -⟩ := stuck_step hk hj (Bool.eq_true_of_not_eq_false hn) hs
    rw [h (closed_of_pending hk') g' (mem_of_getElem? hj')] at hg'
    cases hg'
  | _ => cases hpw

end

/-- **Deadlock.**  After a run, no goroutine waits forever for the mutex exactly if every writer of
    the run called `Lock` when no filter that held the read lock had to take it once more. -/
theorem no_deadlock_iff (actions : List Action) (s : State)
    (h : run step {} actions = some s) :
    (∀ k, ¬ WaitsForever s k) ↔ AllowedRun step StepAllowed {} actions := by
  have hstep (s : State) (a : Action) (s' : State) (_ : True) (hs : step s a = some s') :
      Free s' ↔ Free s ∧ StepAllowed s a :=
    ⟨fun hf => ⟨free_of_step hf hs, allowed_of_free hf hs⟩,
      fun hf => free_of_allowed hf.1 hf.2 hs⟩
  rw [not_waitsForever_iff, run_good_iff (fun _ _ _ _ _ => trivial) hstep actions {} s trivial h]
  exact and_iff_right nofun

/-- The exit node that the filter is called with. -/
def exitNode : Entry := ⟨"exit|0.0.0.0/0", "exit", [{ network := "0.0.0.0/0" }]⟩

/-- The user deselects a route, then the exit nodes are filtered up to the `RLock` of
    `IsSelected`. -/
def filterUntilAsking : List Action :=
  [.call (.deselectRoutes ["office"] ["office", "exit"]), .move 0, .move 0,
    .filterSelectedExitNodes [exitNode], .move 1, .move 1]

/-- A writer that comes when the filter has returned does no harm. -/
theorem no_deadlock_after_filter : ∃ s,
    run step {} (filterUntilAsking ++ [.move 1, .move 1, .call .selectAllRoutes, .move 2]) =
      some s ∧ ∀ k, ¬ WaitsForever s k :=
  ⟨_, rfl, (no_deadlock_iff (filterUntilAsking ++ [.move 1, .move 1, .call .selectAllRoutes,
    .move 2]) _ rfl).mpr (by decide)⟩

/-- If it comes when the filter is about to ask, both wait forever. -/
theorem deadlock_of_early_writer : ∃ s,
    run step {} (filterUntilAsking ++ [.call .selectAllRoutes, .move 2]) = some s ∧
      WaitsForever s 1 ∧ WaitsForever s 2 :=
  ⟨_, rfl, waitsForever_asking (k := 2) rfl rfl, waitsForever_pending (j := 1) rfl rfl rfl⟩

end RouteSelector

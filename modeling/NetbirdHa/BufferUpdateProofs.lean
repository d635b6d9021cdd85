import NetbirdHa.TransitionProofs

/-! # Buffered account updates

`BufferUpdateAccountPeers` runs `UpdateAccountPeers` for an account in a
goroutine that holds the lock of the account's buffer.  A call that finds the
lock taken sets a flag and returns; the goroutine looks at the flag when its
run is over and, if it is set, arms a timer that runs the update once more.

Every access to the lock, the flag and the timer is a step of its own.  One
account; its buffer is there from the first call on (`LoadOrStore`). -/

namespace BufferUpdate

open Transition List

/-- What whoever holds the lock does next: the caller stops the timer, then its
    goroutine goes on. -/
inductive Hold where
  | stopTimer
  | start
  /-- `UpdateAccountPeers` is running. -/
  | running
  | load
  | clear
  | arm
  | unlock
deriving DecidableEq

/-- Where a call stands. -/
inductive Phase where
  | tryLock
  /-- `TryLock` failed; the flag is not set yet. -/
  | setFlag
  | returned
deriving DecidableEq

/-- A call of `BufferUpdateAccountPeers`.  `followed` says that an update has started
    since the call was made. -/
structure Call where
  phase : Phase := .tryLock
  followed : Bool := false
deriving DecidableEq

/-- `bufferUpdate`, the calls so far, and the callbacks of the timer that are about to run.
    `holder` is the lock; `next` tells whether the timer is armed, once there is one. -/
structure State where
  holder : Option Hold := none
  update : Bool := false
  next : Option Bool := none
  firing : Nat := 0
  calls : List Call := []
deriving DecidableEq

/-- The atomic steps.  `hold` is the next step of whoever holds the lock. -/
inductive Action where
  | call
  | tryLock (k : Nat)
  | setFlag (k : Nat)
  | hold
  /-- the timer fires: its callback is started in a goroutine of its own. -/
  | fire
  /-- … which calls `UpdateAccountPeers`. -/
  | callback
deriving DecidableEq

/-- An update starts. -/
def startUpdate (s : State) : State :=
  { s with calls := s.calls.map (fun c => { c with followed := true }) }

/-- The next step of whoever holds the lock. -/
def holdStep (s : State) : Hold → State
  | .stopTimer => { s with holder := some .start, next := s.next.map (fun _ => false) }
  | .start => { startUpdate s with holder := some .running }
  | .running => { s with holder := some .load }
  | .load => { s with holder := some (if s.update then .clear else .unlock) }
  | .clear => { s with holder := some .arm, update := false }
  | .arm => { s with holder := some .unlock, next := some true } -- `AfterFunc` or `Reset`
  | .unlock => { s with holder := none }

/-- One atomic step; `none` when it is not enabled. -/
def step (s : State) : Action → Option State
  | .call => some { s with calls := s.calls ++ [{}] }
  | .tryLock k =>
    (s.calls[k]?).bind (fun c =>
      if c.phase = .tryLock then
        match s.holder with
        | none => some { s with
            holder := some .stopTimer
            calls := s.calls.set k { c with phase := .returned } }
        | some _ => some { s with calls := s.calls.set k { c with phase := .setFlag } }
      else none)
  | .setFlag k =>
    (s.calls[k]?).bind (fun c =>
      if c.phase = .setFlag then
        some { s with
          update := true
          calls := s.calls.set k { c with phase := .returned } }
      else none)
  | .hold => s.holder.map (holdStep s)
  | .fire => if s.next = some true then some { s with next := some false, firing := s.firing + 1 }
      else none
  | .callback => if 0 < s.firing then some (startUpdate { s with firing := s.firing - 1 }) else none

/-- Nothing is going on: every call has returned, the lock is free and no timer is
    armed or firing. -/
structure Quiescent (s : State) : Prop where
  calls : ∀ c ∈ s.calls, c.phase = .returned
  holder : s.holder = none
  next : s.next ≠ some true
  firing : s.firing = 0

/-! ## The condition -/

/-- An update is still to start: the holder of the lock has not started its own, or
    will find the flag `set`, or is about to arm the timer. -/
def Hold.coming (set : Bool) : Hold → Bool
  | .stopTimer | .start | .clear | .arm => true
  | .running | .load => set
  | .unlock => false

/-- An update is still to start, if the flag is `set`. -/
def Coming (s : State) (set : Bool) : Prop :=
  s.holder.any (Hold.coming set) = true ∨ s.next = some true ∨ 0 < s.firing
deriving Decidable

/-- The condition on a step, in the state before it.  A call that found the lock taken sets the flag
    only if an update has started since, or one is still to start: not after the holder has looked
    at the flag and found it clear, nor after the lock is free again or the timer has gone off. -/
def StepAllowed (s : State) : Action → Prop
  | .setFlag k => ∀ c, s.calls[k]? = some c → c.followed ∨ Coming s true
  | _ => True

instance (s : State) : (a : Action) → Decidable (StepAllowed s a)
  | .setFlag k => inferInstanceAs (Decidable (∀ c ∈ s.calls[k]?, c.followed ∨ Coming s true))
  | .call | .tryLock _ | .hold | .fire | .callback => isTrue trivial

/-! ## The invariant -/

/-- Every call that has returned is followed by an update, or one is still to start. -/
def Inv (s : State) : Prop :=
  ∀ c ∈ s.calls, c.phase = .returned → c.followed ∨ Coming s s.update

section

variable {s s' : State}

theorem followed_startUpdate (hc : c ∈ (startUpdate s).calls) : c.followed := by
  obtain ⟨c', -, rfl⟩ := mem_map.mp hc
  rfl

/-- Setting the flag does no harm. -/
theorem Coming.flag {set : Bool} (h : Coming s set) : Coming s true := by
  refine h.imp_left fun hh => ?_
  cases hs : s.holder with
  | none => rw [hs] at hh; cases hh
  | some x =>
    rw [hs] at hh
    cases x <;> first | rfl | exact hh

/-- The holder of the lock goes on: what is to start is still to start, but for its
    own update, which starts here. -/
theorem coming_holdStep (hh : s.holder = some h) (hs : h ≠ .start)
    (hc : Coming s s.update) : Coming (holdStep s h) (holdStep s h).update := by
  rw [Coming, hh] at hc
  cases h with
  | stopTimer => exact .inl rfl
  | start => exact absurd rfl hs
  | running => exact hc
  | load =>
    refine hc.imp_left fun hu => ?_
    have hset : s.update := hu
    show Option.any _ (some (if s.update then Hold.clear else Hold.unlock)) = true
    rw [hset]
    rfl
  | clear => exact .inl rfl
  | arm => exact .inr (.inl rfl)
  | unlock => exact .inr (hc.resolve_left nofun)

/-- **One step** keeps the invariant. -/
theorem inv_step (hI : Inv s) (ho : StepAllowed s a) (h : step s a = some s') : Inv s' := by
  cases a with
  | call =>
    cases h
    intro c hc hr
    rcases mem_append.mp hc with hc | hc
    · exact hI c hc hr
    · rw [mem_singleton.mp hc] at hr
      cases hr
  | tryLock k =>
    obtain ⟨c, hk, -, h⟩ := bind_ite_eq_some.mp h
    split at h <;> cases h
    · -- the lock is taken: the update of this call is to start
      exact fun _ _ _ => .inr (.inl rfl)
    intro x hx hr
    rcases mem_or_eq_of_mem_set hx with hx | rfl
    · exact hI x hx hr
    · cases hr
  | setFlag k =>
    obtain ⟨c, hk, -, h⟩ := bind_ite_eq_some.mp h
    cases h
    intro x hx hr
    rcases mem_or_eq_of_mem_set hx with hx | rfl
    · exact (hI x hx hr).imp_right fun hco => hco.flag
    · exact ho c hk
  | hold =>
    obtain ⟨x, hx, rfl⟩ := Option.map_eq_some_iff.mp h
    intro c hc hr
    by_cases hs : x = .start
    · subst hs
      exact .inl (followed_startUpdate hc)
    · have hca : (holdStep s x).calls = s.calls := by cases x <;> first | rfl | exact absurd rfl hs
      rw [hca] at hc
      exact (hI c hc hr).imp_right (coming_holdStep hx hs)
  | fire =>
    obtain ⟨-, h⟩ := Option.ite_none_right_eq_some.mp h
    cases h
    exact fun _ _ _ => .inr (.inr (.inr (Nat.succ_pos _)))
  | callback =>
    obtain ⟨-, h⟩ := Option.ite_none_right_eq_some.mp h
    cases h
    exact fun c hc _ => .inl (followed_startUpdate hc)

/-- When nothing is going on no update is to start. -/
theorem Quiescent.not_coming (h : Quiescent s) (set : Bool) : ¬ Coming s set := by
  grind [Quiescent, Coming]

end

/-! ## Coming to rest

Without new calls the buffer comes to rest: as long as something is going on
there is a next step, and every step brings it closer. -/

/-- How many steps are left for the holder of the lock, at most. -/
def Hold.rank : Hold → Nat
  | .stopTimer => 9
  | .start => 8
  | .running => 7
  | .load => 6
  | .clear => 5
  | .arm => 4
  | .unlock => 1

/-- … and for a call. -/
def Phase.rank : Phase → Nat
  | .tryLock => 10
  | .setFlag => 1
  | .returned => 0

/-- … and for the timer. -/
def timerRank : Option Bool → Nat
  | some true => 2
  | _ => 0

/-- How many steps are left, at most. -/
def State.rank (s : State) : Nat :=
  (s.calls.map (·.phase.rank)).sum + (s.holder.map Hold.rank).getD 0 + timerRank s.next + s.firing

section

variable {s s' : State}

theorem calls_startUpdate :
    (startUpdate s).calls.map (·.phase.rank) = s.calls.map (·.phase.rank) := by
  rw [startUpdate, map_map]
  rfl

theorem rank_holdStep (hh : s.holder = some h) : (holdStep s h).rank < s.rank := by
  rw [State.rank, State.rank, hh]
  cases h with
  | stopTimer =>
    have hti : timerRank (s.next.map fun _ => false) = 0 := by cases s.next <;> rfl
    simp only [holdStep, hti, Option.map_some, Option.getD_some, Hold.rank]
    omega
  | start =>
    simp only [holdStep, calls_startUpdate, Option.map_some, Option.getD_some, Hold.rank]
    simp only [startUpdate]
    omega
  | load => grind [holdStep, Hold.rank]
  | arm =>
    simp only [holdStep, Option.map_some, Option.getD_some, Hold.rank, timerRank]
    omega
  | running | clear | unlock =>
    simp only [holdStep, Option.map_some, Option.map_none, Option.getD_some, Option.getD_none,
      Hold.rank]
    omega

/-- A call moves on. -/
theorem rank_set (hk : s.calls[k]? = some c) (c' : Call) :
    ((s.calls.set k c').map (·.phase.rank)).sum + c.phase.rank =
      (s.calls.map (·.phase.rank)).sum + c'.phase.rank :=
  sum_map_set (fun c : Call => c.phase.rank) hk c'

/-- **Every step but a new call brings the buffer closer to rest.** -/
theorem rank_step (ha : a ≠ .call) (h : step s a = some s') : s'.rank < s.rank := by
  cases a with
  | call => exact absurd rfl ha
  | tryLock k =>
    obtain ⟨c, hk, h⟩ := Option.bind_eq_some_iff.mp h
    grind [State.rank, rank_set, Hold.rank, Phase.rank]
  | setFlag k =>
    obtain ⟨c, hk, h⟩ := Option.bind_eq_some_iff.mp h
    grind [rank_set, State.rank, Phase.rank]
  | hold =>
    obtain ⟨x, hx, rfl⟩ := Option.map_eq_some_iff.mp h
    exact rank_holdStep hx
  | fire =>
    obtain ⟨har, h⟩ := Option.ite_none_right_eq_some.mp h
    rw [← Option.some.inj h, State.rank, State.rank, har]
    simp only [timerRank]
    omega
  | callback =>
    obtain ⟨hpo, h⟩ := Option.ite_none_right_eq_some.mp h
    rw [← Option.some.inj h, State.rank, State.rank, calls_startUpdate]
    simp only [startUpdate]
    omega

/-- As long as something is going on there is a next step. -/
theorem exists_step (h : ¬ Quiescent s) : ∃ a, a ≠ .call ∧ (step s a).isSome := by
  by_cases hca : ∃ c ∈ s.calls, c.phase ≠ .returned
  · obtain ⟨c, hc, hph⟩ := hca
    obtain ⟨k, hk⟩ := mem_iff_getElem?.mp hc
    cases hp : c.phase with
    | tryLock =>
      refine ⟨.tryLock k, nofun, ?_⟩
      rw [step, hk]
      simp only [Option.bind_some, hp, if_true]
      cases s.holder <;> rfl
    | setFlag =>
      refine ⟨.setFlag k, nofun, ?_⟩
      rw [step, hk]
      simp [hp]
    | returned => exact absurd hp hph
  · by_cases hh : s.holder = none
    · by_cases hn : s.next = some true
      · exact ⟨.fire, nofun, by rw [step, if_pos hn]; rfl⟩
      refine ⟨.callback, nofun, ?_⟩
      have hpo : 0 < s.firing := by
        refine Nat.pos_of_ne_zero fun hz => h ⟨fun c hc => ?_, hh, hn, hz⟩
        by_contra hne
        exact hca ⟨c, hc, hne⟩
      rw [step, if_pos hpo]
      rfl
    · obtain ⟨x, hx⟩ := Option.ne_none_iff_exists'.mp hh
      exact ⟨.hold, nofun, by rw [step, hx]; rfl⟩

end

/-- **Every call is followed by an update.**  In a run whose steps are allowed, when
    nothing is going on any more every call has been followed by an update; and the
    buffer comes to rest by itself, in at most as many steps as its rank. -/
theorem followed_of_allowed (as : List Action) (s : State)
    (hok : AllowedRun step StepAllowed {} as) (h : run step {} as = some s) :
    (Quiescent s → ∀ c ∈ s.calls, c.followed) ∧
      (¬ Quiescent s → ∃ a, a ≠ .call ∧ (step s a).isSome) ∧
      ∀ a s', a ≠ .call → step s a = some s' → s'.rank < s.rank := by
  have hi : Inv s := run_invariant (fun _ _ _ hI hok hst => inv_step hI hok hst) as {} s
    (fun _ hc => absurd hc not_mem_nil) hok h
  refine ⟨fun hq c hc => ?_, exists_step, fun a s' ha hs => rank_step ha hs⟩
  exact (hi c hc (hq.calls c hc)).resolve_right (hq.not_coming _)

/-- A call while the update of another is running: the timer runs it once more. -/
theorem followed_by_timer :
    ∃ s, run step {} [.call, .tryLock 0, .hold, .hold, .call, .tryLock 1, .setFlag 1, .hold, .hold,
        .hold, .hold, .hold, .fire, .callback] = some s ∧
      ∀ c ∈ s.calls, c.followed := by
  refine ⟨_, rfl, (followed_of_allowed [.call, .tryLock 0, .hold, .hold, .call, .tryLock 1,
    .setFlag 1, .hold, .hold, .hold, .hold, .hold, .fire, .callback] _ (by decide) rfl).1 ?_⟩
  exact ⟨by decide, rfl, by decide, rfl⟩

/-- A call that finds the lock taken after the flag was looked at is lost. -/
theorem update_lost :
    ∃ s, run step {} [.call, .tryLock 0, .hold, .hold, .hold, .hold, .call, .tryLock 1, .setFlag 1,
        .hold] = some s ∧
      Quiescent s ∧ ∃ c ∈ s.calls, c.followed = false :=
  ⟨_, rfl, ⟨by decide, rfl, by decide, rfl⟩, by decide⟩

end BufferUpdate

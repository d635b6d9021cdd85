import NetbirdHa.TransitionProofs

/-! # The distributed lock

`RedisLock` on one resource, so on one Redis key.  An acquisition is a
successful `Acquire`; it has a heartbeat goroutine and a release function.
The record under the key holds the ID of the instance, and every acquisition
of an instance writes the same value.  The model remembers which acquisition
created the record; the code does not know.

Redis commands are atomic.  A command whose reply is lost may or may not have
been carried out, so replies are part of the actions. -/

namespace RedisLock

open Transition List

variable {I : Type}

/-- The record under the key.  `creator` is the acquisition that created it, if the
    reply to its `SET NX` came back. -/
structure Record (I : Type) where
  value : I
  creator : Option Nat
deriving DecidableEq

/-- Where the heartbeat goroutine stands. -/
inductive Beat where
  /-- in its `select`. -/
  | waiting
  /-- between `Get`, which returned its value, and `Expire`. -/
  | extending
  | stopped
deriving DecidableEq

/-- Where the release function stands. -/
inductive Release where
  | idle
  /-- the heartbeat is cancelled; `wg.Wait`, then `Eval`. -/
  | waiting
  | done
deriving DecidableEq

/-- One acquisition. -/
structure Acquisition (I : Type) where
  inst : I
  beat : Beat := .waiting
  cancelled : Bool := false
  release : Release := .idle
deriving DecidableEq

/-- What a command of an acquisition did to the record under the key. -/
inductive Effect where
  | deleted
  | extended
deriving DecidableEq

/-- A command of acquisition `acq` changed a record. -/
structure Event where
  acq : Nat
  effect : Effect
  creator : Option Nat
deriving DecidableEq

/-- The key, all acquisitions so far, and what they did to records. -/
structure State (I : Type) where
  lock : Option (Record I) := none
  acquisitions : List (Acquisition I) := []
  log : List Event := []

/-- The atomic steps.  `applied` says whether Redis carried the command out, `ok`
    whether the reply came back. -/
inductive Action (I : Type) where
  /-- `SetNX` of `Acquire`. -/
  | setNX (i : I) (ok : Bool)
  /-- the TTL of the record runs out. -/
  | ttl
  /-- a tick of the heartbeat: `Get`. -/
  | get (k : Nat) (ok : Bool)
  /-- … and `Expire`. -/
  | expire (k : Nat) (applied ok : Bool)
  /-- the heartbeat sees that it is cancelled. -/
  | stop (k : Nat)
  /-- a call of the release function, up to `wg.Wait`. -/
  | release (k : Nat)
  /-- `Eval` of the unlock script. -/
  | eval (k : Nat) (applied : Bool)
deriving DecidableEq

/-- Replace the record of acquisition `k`. -/
def State.put (s : State I) (k : Nat) (acq : Acquisition I) : State I :=
  { s with acquisitions := s.acquisitions.set k acq }

section

variable [DecidableEq I]

section

variable (s : State I) (k : Nat) (i : I) (applied : Bool)

/-- `SetNX`: a record is created only if there is none. -/
def setNX (ok : Bool) : State I :=
  match s.lock with
  | some _ => s
  | none =>
    if ok then
      { s with
        lock := some { value := i, creator := some s.acquisitions.length }
        acquisitions := s.acquisitions ++ [{ inst := i }] }
    else { s with lock := some { value := i, creator := none } }

/-- `Expire` resets the TTL of whatever record there is. -/
def extend : State I :=
  match s.lock with
  | some rec => if applied then
      { s with log := s.log ++ [{ acq := k, effect := .extended, creator := rec.creator }] } else s
  | none => s

/-- `unlockScript`: delete the record if it has the value of the instance. -/
def unlockScript : State I :=
  match s.lock with
  | some rec =>
    if applied ∧ rec.value = i then
      { s with
        lock := none
        log := s.log ++ [{ acq := k, effect := .deleted, creator := rec.creator }] }
    else s
  | none => s

/-- One atomic step; `none` when the goroutine does not stand there. -/
def step : Action I → Option (State I)
  | .setNX i ok => some (setNX s i ok)
  | .ttl => s.lock.map (fun _ => { s with lock := none })
  | .get k ok =>
    (s.acquisitions[k]?).bind (fun acq =>
      if acq.beat = .waiting then
        if ok ∧ s.lock.map Record.value = some acq.inst then
          some (s.put k { acq with beat := .extending })
        else some (s.put k { acq with beat := .stopped, cancelled := true })
      else none)
  | .expire k applied ok =>
    (s.acquisitions[k]?).bind (fun acq =>
      if acq.beat = .extending then
        some ((extend s k applied).put k
          (if ok then { acq with beat := .waiting }
           else { acq with beat := .stopped, cancelled := true }))
      else none)
  | .stop k =>
    (s.acquisitions[k]?).bind (fun acq =>
      if acq.beat = .waiting ∧ acq.cancelled then some (s.put k { acq with beat := .stopped })
      else none)
  | .release k =>
    (s.acquisitions[k]?).map (fun acq =>
      -- a second call returns at once
      if acq.release = .idle then s.put k { acq with release := .waiting, cancelled := true }
      else s)
  | .eval k applied =>
    (s.acquisitions[k]?).bind (fun acq =>
      if acq.release = .waiting ∧ acq.beat = .stopped then
        some ((unlockScript s k acq.inst applied).put k { acq with release := .done })
      else none)

end

end

/-! ## What has to hold -/

/-- A command touches the record of its own acquisition only, or one that no
    acquisition counts as its own. -/
def Event.Own (e : Event) : Prop := ∀ j, e.creator = some j → j = e.acq

/-- A lock that is deleted is the deleter's own, or none. -/
theorem Event.own_iff {e : Event} : e.Own ↔ e.creator = none ∨ e.creator = some e.acq := by
  rw [Event.Own]
  cases e.creator with
  | none => exact ⟨fun _ => .inl rfl, fun _ _ h => nomatch h⟩
  | some j => grind

instance : DecidablePred Event.Own := fun _ => decidable_of_iff _ Event.own_iff.symm

/-- No release and no heartbeat has deleted or extended the record of another acquisition. -/
def Exclusive (s : State I) : Prop := ∀ e ∈ s.log, e.Own
deriving Decidable

/-- The record that acquisition `k` created is gone. -/
def Lost (s : State I) (k : Nat) : Prop := ∀ rec, s.lock = some rec → rec.creator ≠ some k

/-- The condition on a step, in the state before it.  Once its record is gone, a heartbeat does not
    reach `Expire` while another acquisition has the lock, and a release does not reach its script
    while another acquisition of the same instance has it. -/
def StepAllowed (s : State I) : Action I → Prop
  | .expire k applied _ => applied = true → Lost s k → ∀ rec, s.lock = some rec → rec.creator = none
  | .eval k applied =>
    applied = true → Lost s k → ∀ acq, s.acquisitions[k]? = some acq →
      ∀ rec, s.lock = some rec → rec.value = acq.inst → rec.creator = none
  | _ => True

section

/-- An event is of its own acquisition if the record was its own, or nobody's. -/
theorem own_iff {rec : Record I} (hr : s.lock = some rec) :
    ({ acq := k, effect := effect, creator := rec.creator } : Event).Own ↔
      (Lost s k → rec.creator = none) := by
  constructor
  · intro ho hl
    cases hc : rec.creator with
    | none => rfl
    | some j =>
      obtain rfl : j = k := ho j hc
      exact absurd hc (hl rec hr)
  · intro h j hj
    by_contra hne
    have hl : Lost s k := by
      intro rec' hr' hk
      cases hr.symm.trans hr'
      exact hne (Option.some.inj (hj.symm.trans hk))
    cases (h hl).symm.trans hj

variable [DecidableEq I] {s s' : State I} {k : Nat}

theorem exclusive_concat {log : List Event} :
    (∀ x ∈ log ++ [e], x.Own) ↔ (∀ x ∈ log, x.Own) ∧ e.Own := by
  grind

omit [DecidableEq I] in
/-- `Expire` keeps the property exactly if it is allowed. -/
theorem exclusive_extend (applied : Bool) : Exclusive (extend s k applied) ↔ Exclusive s ∧
    (applied → Lost s k → ∀ rec, s.lock = some rec → rec.creator = none) := by
  rw [extend]
  cases hlo : s.lock with
  | none => exact (and_iff_left fun _ _ _ h => nomatch h).symm
  | some rec =>
    cases applied with
    | false => exact (and_iff_left nofun).symm
    | true =>
      refine exclusive_concat.trans (and_congr_right fun _ => (own_iff hlo).trans ?_)
      constructor
      · intro h _ hl rec' hr'
        cases hr'
        exact h hl
      · exact fun h hl => h rfl hl rec rfl

/-- … and so does the unlock script. -/
theorem exclusive_unlockScript {i : I} (applied : Bool) :
    Exclusive (unlockScript s k i applied) ↔ Exclusive s ∧
      (applied → Lost s k → ∀ rec, s.lock = some rec → rec.value = i → rec.creator = none) := by
  rw [unlockScript]
  cases hlo : s.lock with
  | none => exact (and_iff_left fun _ _ _ h => nomatch h).symm
  | some rec =>
    by_cases h : applied ∧ rec.value = i
    · simp only [if_pos h]
      refine exclusive_concat.trans (and_congr_right fun _ => (own_iff hlo).trans ?_)
      constructor
      · intro ho _ hl rec' hr' _
        cases hr'
        exact ho hl
      · exact fun ho hl => ho h.1 hl rec rfl h.2
    grind [Exclusive]

/-- **One step** keeps the property exactly if it is allowed. -/
theorem exclusive_step (h : step s a = some s') : Exclusive s' ↔ Exclusive s ∧ StepAllowed s a := by
  -- steps that leave the log alone
  have hs : s'.log = s.log → StepAllowed s a → (Exclusive s' ↔ Exclusive s ∧ StepAllowed s a) := by
    intro hlo ho
    rw [Exclusive, hlo]
    exact (and_iff_left ho).symm
  cases a with
  | setNX i ok => grind [setNX, step, StepAllowed]
  | ttl =>
    obtain ⟨rec, -, rfl⟩ := Option.map_eq_some_iff.mp h
    exact hs rfl trivial
  | get k ok =>
    obtain ⟨acq, -, -, h⟩ := bind_ite_eq_some.mp h
    refine hs ?_ trivial
    split at h <;> rw [← Option.some.inj h] <;> rfl
  | expire k applied ok =>
    obtain ⟨acq, ha, -, h⟩ := bind_ite_eq_some.mp h
    cases h
    exact exclusive_extend applied
  | stop k =>
    obtain ⟨acq, -, -, h⟩ := bind_ite_eq_some.mp h
    rw [← Option.some.inj h] at hs ⊢
    exact hs rfl trivial
  | release k =>
    obtain ⟨acq, -, rfl⟩ := Option.map_eq_some_iff.mp h
    refine hs ?_ trivial
    split <;> rfl
  | eval k applied =>
    obtain ⟨acq, ha, -, h⟩ := bind_ite_eq_some.mp h
    cases h
    refine (exclusive_unlockScript applied).trans (and_congr_right fun _ => ?_)
    grind [StepAllowed]

end

/-! ## Acquisitions that come too soon

An acquisition is in danger from the moment it begins: from unfinished acquisitions of its own
instance, whose release cannot tell the records apart, and from heartbeats of any instance that
have read their value and are about to extend. -/

/-- The condition on a step, in the state before it: a `SET NX` succeeds only while no acquisition
    of its instance is unfinished and no heartbeat is between `Get` and `Expire`. -/
def AcquiresAlone (s : State I) : Action I → Prop
  | .setNX i ok => ok = true → s.lock = none →
      ∀ acq ∈ s.acquisitions, (acq.inst = i → acq.release = .done) ∧ acq.beat ≠ .extending
  | _ => True

instance [DecidableEq I] (s : State I) : ∀ a, Decidable (AcquiresAlone s a)
  | .setNX i ok => inferInstanceAs (Decidable (ok = true → s.lock = none →
      ∀ acq ∈ s.acquisitions, (acq.inst = i → acq.release = .done) ∧ acq.beat ≠ .extending))
  | .ttl | .get _ _ | .expire _ _ _ | .stop _ | .release _ | .eval _ _ => isTrue trivial

/-- Nobody but its creator can touch the record: no other heartbeat is about to extend it, and
    other acquisitions of the instance are finished, with their heartbeats. -/
structure Guarded (s : State I) : Prop where
  stopped : ∀ (k : Nat) (acq : Acquisition I), s.acquisitions[k]? = some acq →
    acq.release = .done → acq.beat = .stopped
  others : ∀ rec j, s.lock = some rec → rec.creator = some j →
    ∀ (k : Nat) (acq : Acquisition I), s.acquisitions[k]? = some acq → k ≠ j →
      acq.beat ≠ .extending ∧ (acq.inst = rec.value → acq.release = .done)

section

variable {s s' : State I} {k : Nat} {acq acq' : Acquisition I}

/-- One acquisition moves on under the same record. -/
theorem Guarded.put (h : Guarded s) (hk : s.acquisitions[k]? = some acq)
    (hi : acq'.inst = acq.inst) (hst : acq'.release = .done → acq'.beat = .stopped)
    (ho : ∀ rec j, s.lock = some rec → rec.creator = some j → k ≠ j →
      acq'.beat ≠ .extending ∧ (acq.inst = rec.value → acq'.release = .done)) :
    Guarded (s.put k acq') := by
  refine ⟨forall_set hk (fun j z _ hz => h.stopped j z hz) hst, fun rec j hr hc => ?_⟩
  refine forall_set hk (fun l z _ hz => h.others rec j hr hc l z hz) fun hne => ?_
  rw [hi]
  exact ho rec j hr hc hne

/-- Without a record there is nothing to guard. -/
theorem Guarded.of_free (h : Guarded s) (hl : s'.lock = none)
    (ha : s'.acquisitions = s.acquisitions) : Guarded s' := by
  refine ⟨fun k acq hk => h.stopped k acq (ha ▸ hk), fun rec j hr => ?_⟩
  rw [hl] at hr
  cases hr

/-- `Expire` leaves the record and the acquisitions as they are. -/
theorem extend_eq (s : State I) (k : Nat) (applied : Bool) :
    (extend s k applied).lock = s.lock ∧ (extend s k applied).acquisitions = s.acquisitions := by
  rw [extend]
  split
  · split <;> exact ⟨rfl, rfl⟩
  · exact ⟨rfl, rfl⟩

/-- Acquiring alone keeps the lock guarded. -/
theorem Guarded.setNX (h : Guarded s) {i : I} {ok : Bool} (hok : AcquiresAlone s (.setNX i ok)) :
    Guarded (setNX s i ok) := by
  rw [RedisLock.setNX]
  cases hl : s.lock with
  | some rec => exact h
  | none =>
    cases ok with
    | false =>
      refine ⟨h.stopped, fun rec j hr hc => ?_⟩
      cases hr
      cases hc
    | true =>
      -- the new acquisition is the creator, and the others are as the condition says
      refine ⟨forall_concat h.stopped nofun, fun rec j hr hc => ?_⟩
      cases hr
      cases hc
      refine forall_concat (fun k acq hk _ => ?_) fun hne => absurd rfl hne
      have ha := hok rfl hl acq (mem_of_getElem? hk)
      exact ⟨ha.2, ha.1⟩

variable [DecidableEq I]

/-- A script that does not reach the record of another acquisition. -/
theorem Guarded.unlockScript (h : Guarded s) (hk : s.acquisitions[k]? = some acq)
    (hb : acq.beat = .stopped) (applied : Bool) :
    Guarded ((unlockScript s k acq.inst applied).put k { acq with release := .done }) := by
  have hp : Guarded (s.put k { acq with release := .done }) :=
    h.put hk rfl (fun _ => hb) fun _ _ _ _ _ => ⟨by simp [hb], fun _ => rfl⟩
  rw [RedisLock.unlockScript]
  split
  · split
    · exact hp.of_free rfl rfl
    · exact hp
  · exact hp

/-- **One step** keeps the guard, and touches no record of another acquisition. -/
theorem Guarded.step (h : Guarded s) (hok : AcquiresAlone s a) (hs : step s a = some s') :
    Guarded s' ∧ StepAllowed s a := by
  cases a with
  | setNX i ok =>
    cases hs
    exact ⟨h.setNX hok, trivial⟩
  | ttl =>
    obtain ⟨rec, -, rfl⟩ := Option.map_eq_some_iff.mp hs
    exact ⟨h.of_free rfl rfl, trivial⟩
  | get k ok =>
    obtain ⟨acq, hk, hb, hs⟩ := bind_ite_eq_some.mp hs
    refine ⟨?_, trivial⟩
    have hnd : acq.release ≠ .done := fun hd => by simp [h.stopped k acq hk hd] at hb
    split at hs
    · -- the value was its own, so the record is
      rename_i hv
      cases hs
      refine h.put hk rfl (fun hd => absurd hd hnd) fun rec j hr hc hne => ?_
      have hv' : acq.inst = rec.value := by
        have := hv.2
        rw [hr] at this
        exact (Option.some.inj this).symm
      exact absurd ((h.others rec j hr hc k acq hk hne).2 hv') hnd
    · cases hs
      exact h.put hk rfl (fun _ => rfl) fun rec j hr hc hne =>
        ⟨nofun, (h.others rec j hr hc k acq hk hne).2⟩
  | expire k applied ok =>
    obtain ⟨acq, hk, hb, hs⟩ := bind_ite_eq_some.mp hs
    have hnd : acq.release ≠ .done := fun hd => by simp [h.stopped k acq hk hd] at hb
    -- a heartbeat that extends is the creator's
    have hown : ∀ rec j, s.lock = some rec → rec.creator = some j → k = j := by
      intro rec j hr hc
      by_contra hne
      exact (h.others rec j hr hc k acq hk hne).1 hb
    refine ⟨?_, fun _ hl rec hr => ?_⟩
    · cases hs
      obtain ⟨hlo, hac⟩ := extend_eq s k applied
      have he : Guarded (extend s k applied) := ⟨by rw [hac]; exact h.stopped, by
        rw [hlo, hac]
        exact h.others⟩
      refine he.put (hac ▸ hk) (by split <;> rfl) (by split <;> grind) fun rec j hr hc hne => ?_
      exact absurd (hown rec j (hlo ▸ hr) hc) hne
    · cases hc : rec.creator with
      | none => rfl
      | some j => exact absurd (hown rec j hr hc ▸ hc) (hl rec hr)
  | stop k =>
    obtain ⟨acq, hk, -, hs⟩ := bind_ite_eq_some.mp hs
    cases hs
    exact ⟨h.put hk rfl (fun _ => rfl) fun rec j hr hc hne =>
      ⟨nofun, (h.others rec j hr hc k acq hk hne).2⟩, trivial⟩
  | release k =>
    obtain ⟨acq, hk, rfl⟩ := Option.map_eq_some_iff.mp hs
    refine ⟨?_, trivial⟩
    split
    · rename_i hid
      refine h.put hk rfl nofun fun rec j hr hc hne => ?_
      obtain ⟨hb, hd⟩ := h.others rec j hr hc k acq hk hne
      exact ⟨hb, fun hv => absurd (hd hv) (by simp [hid])⟩
    · exact h
  | eval k applied =>
    obtain ⟨acq, hk, ⟨hw, hb⟩, hs⟩ := bind_ite_eq_some.mp hs
    refine ⟨?_, fun _ hl acq' hk' rec hr hv => ?_⟩
    · cases hs
      exact h.unlockScript hk hb applied
    · cases hk.symm.trans hk'
      cases hc : rec.creator with
      | none => rfl
      | some j =>
        -- an unfinished acquisition of the instance is the creator
        by_contra hcr
        have hne : k ≠ j := fun he => hl rec hr (he ▸ hc)
        have hd := (h.others rec j hr hc k acq hk hne).2 hv.symm
        simp [hw] at hd

/-! An acquisition that begins otherwise can lose its record. -/

variable {rec : Record I} {j : Nat}

/-- The release of another acquisition of the instance is about to run its script. -/
theorem exists_deleted (hr : s.lock = some rec) (hc : rec.creator = some j) (hne : k ≠ j)
    (hk : s.acquisitions[k]? = some acq) (hv : rec.value = acq.inst) (hb : acq.beat = .stopped)
    (hw : acq.release = .waiting) : ∃ s', Leads step AcquiresAlone s s' ∧ ¬ Exclusive s' := by
  have hs : step s (.eval k true) =
      some ((unlockScript s k acq.inst true).put k { acq with release := .done }) := by
    simp [step, hk, hw, hb]
  refine ⟨_, (Leads.refl _ _ _).head hs trivial, fun hx => ?_⟩
  have hu : unlockScript s k acq.inst true = { s with
      lock := none
      log := s.log ++ [{ acq := k, effect := .deleted, creator := rec.creator }] } := by
    simp [unlockScript, hr, hv]
  rw [hu] at hx
  exact hne (hx _ (mem_append_right _ (mem_singleton_self _)) j hc).symm

/-- … or will get there. -/
theorem exists_deleted_of_unfinished (hr : s.lock = some rec) (hc : rec.creator = some j)
    (hne : k ≠ j) (hk : s.acquisitions[k]? = some acq) (hv : rec.value = acq.inst)
    (hb : acq.beat ≠ .extending) (hd : acq.release ≠ .done) :
    ∃ s', Leads step AcquiresAlone s s' ∧ ¬ Exclusive s' := by
  -- the heartbeat stops when a `Get` fails
  obtain ⟨m, acq', hl, hr', hk', hv', hb', hd'⟩ : ∃ m acq', Leads step AcquiresAlone s m ∧
      m.lock = some rec ∧ m.acquisitions[k]? = some acq' ∧ rec.value = acq'.inst ∧
        acq'.beat = .stopped ∧ acq'.release ≠ .done := by
    cases hbe : acq.beat with
    | stopped => exact ⟨s, acq, Leads.refl _ _ _, hr, hk, hv, hbe, hd⟩
    | extending => exact absurd hbe hb
    | waiting =>
      have hs : step s (.get k false) =
          some (s.put k { acq with beat := .stopped, cancelled := true }) := by
        simp [step, hk, hbe]
      exact ⟨_, _, (Leads.refl _ _ _).head hs trivial, hr,
        (getElem?_set_of_some hk _ k).trans (if_pos rfl), hv, rfl, hd⟩
  -- and its release is called
  obtain ⟨m', acq'', hl', hr'', hk'', hv'', hb'', hw⟩ : ∃ m' acq'', Leads step AcquiresAlone m m' ∧
      m'.lock = some rec ∧ m'.acquisitions[k]? = some acq'' ∧ rec.value = acq''.inst ∧
        acq''.beat = .stopped ∧ acq''.release = .waiting := by
    cases hre : acq'.release with
    | waiting => exact ⟨m, acq', Leads.refl _ _ _, hr', hk', hv', hb', hre⟩
    | done => exact absurd hre hd'
    | idle =>
      have hs : step m (.release k) =
          some (m.put k { acq' with release := .waiting, cancelled := true }) := by
        simp [step, hk', hre]
      exact ⟨_, _, (Leads.refl _ _ _).head hs trivial, hr',
        (getElem?_set_of_some hk' _ k).trans (if_pos rfl), hv', hb', rfl⟩
  obtain ⟨s', hl'', hx⟩ := exists_deleted hr'' hc hne hk'' hv'' hb'' hw
  exact ⟨s', (hl.trans hl').trans hl'', hx⟩

/-- A heartbeat that has read its value extends whatever record there is. -/
theorem exists_extended (hr : s.lock = some rec) (hc : rec.creator = some j) (hne : k ≠ j)
    (hk : s.acquisitions[k]? = some acq) (hb : acq.beat = .extending) :
    ∃ s', Leads step AcquiresAlone s s' ∧ ¬ Exclusive s' := by
  have hs : step s (.expire k true true) =
      some ((extend s k true).put k { acq with beat := .waiting }) := by
    simp [step, hk, hb]
  refine ⟨_, (Leads.refl _ _ _).head hs trivial, fun hx => ?_⟩
  have hu : extend s k true =
      { s with log := s.log ++ [{ acq := k, effect := .extended, creator := rec.creator }] } := by
    simp [extend, hr]
  rw [hu] at hx
  exact hne (hx _ (mem_append_right _ (mem_singleton_self _)) j hc).symm

/-- From an acquisition that is not alone, a foreign lock can be deleted. -/
theorem exists_confused (hn : ¬ AcquiresAlone s a) (hs : step s a = some s') :
    ∃ m, Leads step AcquiresAlone s' m ∧ ¬ Exclusive m := by
  cases a with
  | setNX i ok =>
    simp only [AcquiresAlone, Classical.not_imp, not_forall] at hn
    obtain ⟨rfl, hl, acq, hm, hn⟩ := hn
    obtain ⟨k, hk⟩ := mem_iff_getElem?.mp hm
    have hlt : k < s.acquisitions.length := (List.getElem?_eq_some_iff.mp hk).1
    cases hs
    rw [setNX, hl]
    have hk' : (s.acquisitions ++ [{ inst := i }])[k]? = some acq := by
      rw [getElem?_append_left hlt, hk]
    by_cases hb : acq.beat = .extending
    · exact exists_extended rfl rfl (Nat.ne_of_lt hlt) hk' hb
    · have hu : ¬ (acq.inst = i → acq.release = .done) := fun hd => hn ⟨hd, hb⟩
      obtain ⟨hi, hd⟩ := Classical.not_imp.mp hu
      exact exists_deleted_of_unfinished rfl rfl (Nat.ne_of_lt hlt) hk' hi.symm hb hd
  | ttl | get k ok | expire k applied ok | stop k | release k | eval k applied =>
    exact absurd trivial hn

end

/-- **The lock is exclusive in every run whose acquisitions begin alone**, and one that does not
    can be followed by a release or a heartbeat that takes its record for another's. -/
theorem exclusive_iff_alone [DecidableEq I] (as : List (Action I)) (s : State I)
    (hok : AllowedRun step AcquiresAlone {} as) (h : run step {} as = some s) :
    Exclusive s ∧ ∀ a m, step s a = some m → (AcquiresAlone s a ↔
      ∀ bs s', AllowedRun step AcquiresAlone m bs → run step m bs = some s' → Exclusive s') := by
  have hst : ∀ (s : State I) (a : Action I) (s' : State I), (Guarded s ∧ Exclusive s) →
      AcquiresAlone s a → step s a = some s' → Guarded s' ∧ Exclusive s' := by
    rintro s a s' ⟨hg, hx⟩ ha hs
    obtain ⟨hg', hal⟩ := hg.step ha hs
    exact ⟨hg', (exclusive_step hs).mpr ⟨hx, hal⟩⟩
  exact run_good_exact hst (fun _ hi => hi.2) (fun _ _ _ _ => exists_confused)
    ⟨⟨fun k acq hk => by simp at hk, fun _ _ hr => by cases hr⟩,
      fun _ he => absurd he not_mem_nil⟩ hok h

/-- A record runs out, and another instance has the lock when the release comes. -/
def lateRelease : List (Action String) :=
  [.setNX "a" true, .get 0 true, .expire 0 true true, .ttl, .setNX "b" true, .release 0, .stop 0,
    .eval 0 true, .get 1 true, .release 1, .expire 1 true true, .stop 1, .eval 1 true,
    .setNX "a" true]

/-- The release finds the record of another instance and leaves it alone. -/
theorem exclusive_lateRelease : ∃ s, run step {} lateRelease = some s ∧ Exclusive s :=
  ⟨_, rfl, (exclusive_iff_alone lateRelease _ (by decide) rfl).1⟩

/-- After the TTL ran out, an instance deletes the record of its own next acquisition; and a
    heartbeat that had seen its value extends the record of another instance. -/
theorem late_release_and_late_heartbeat :
    (∃ s, run step ({} : State String) [.setNX "a" true, .ttl, .setNX "a" true, .release 0,
        .stop 0, .eval 0 true] = some s ∧ ¬ Exclusive s) ∧
      ∃ s, run step ({} : State String) [.setNX "a" true, .get 0 true, .ttl, .setNX "b" true,
        .expire 0 true true] = some s ∧ ¬ Exclusive s :=
  ⟨⟨_, rfl, by decide⟩, _, rfl, by decide⟩

/-! ## Ownership

As long as no record runs out before its acquisition is released, an
acquisition owns the record until its release is done, so no command comes too
late. -/

/-- The TTL runs out only after the release, or on a record nobody counts as its own. -/
def ExpiryAfterRelease (s : State I) : Action I → Prop
  | .ttl => ∀ rec, s.lock = some rec → ∀ j, rec.creator = some j →
      ∀ acq, s.acquisitions[j]? = some acq → acq.release = .done
  | _ => True

/-- Until its release is done an acquisition owns the record; its heartbeat does not
    outlive the release. -/
structure Acquisition.Owns (lock : Option (Record I)) (k : Nat) (acq : Acquisition I) : Prop where
  record : acq.release ≠ .done → lock.bind Record.creator = some k
  beat : acq.beat ≠ .stopped → acq.release ≠ .done

/-- Every acquisition owns the record until its release is done. -/
def Owned (s : State I) : Prop :=
  ∀ (k : Nat) (acq : Acquisition I), s.acquisitions[k]? = some acq → acq.Owns s.lock k

section

/-- One acquisition moves on; the record stays. -/
theorem Owned.put (h : Owned s) (hk : s.acquisitions[k]? = some acq)
    (ho : acq.Owns s.lock k → acq'.Owns s.lock k) : Owned (s.put k acq') :=
  forall_set hk (fun j z _ hz => h j z hz) (ho (h k acq hk))

/-- An acquisition that is not released has not lost its record. -/
theorem Owned.not_lost (h : Owned s) (hk : s.acquisitions[k]? = some acq)
    (hre : acq.release ≠ .done) : ¬ Lost s k := by
  intro hl
  obtain ⟨rec, hr, hc⟩ := Option.bind_eq_some_iff.mp ((h k acq hk).record hre)
  exact hl rec hr hc

/-- Extending keeps the lock owned. -/
theorem Owned.extend (h : Owned s) (applied : Bool) : Owned (extend s k applied) := by
  rw [RedisLock.extend]
  split
  · split <;> exact h
  · exact h

variable [DecidableEq I] {s s' : State I} {k : Nat} {acq acq' : Acquisition I}

omit [DecidableEq I] in
/-- Without a record every acquisition is released, whatever record comes next. -/
theorem Owned.of_free (h : Owned s) (hl : s.lock = none) (hk : s.acquisitions[k]? = some acq)
    (lock : Option (Record I)) : acq.Owns lock k := by
  have hr : acq.release = .done := by
    by_contra hr
    have ho := (h k acq hk).record hr
    rw [hl] at ho
    cases ho
  exact ⟨fun hn => absurd hr hn, (h k acq hk).beat⟩

omit [DecidableEq I] in
/-- Acquiring keeps the lock owned. -/
theorem Owned.setNX (h : Owned s) (i : I) (ok : Bool) : Owned (setNX s i ok) := by
  rw [RedisLock.setNX]
  cases hl : s.lock with
  | some rec => exact h
  | none =>
    cases ok with
    | false => exact fun k acq hk => h.of_free hl hk _
    | true => exact forall_concat (fun k acq hk => h.of_free hl hk _) ⟨fun _ => rfl, nofun⟩

/-- The unlock script of an acquisition that owns the record. -/
theorem Owned.unlockScript (h : Owned s) (hk : s.acquisitions[k]? = some acq)
    (hr : acq.release ≠ .done) (hb : acq.beat = .stopped) (applied : Bool) :
    Owned ((unlockScript s k acq.inst applied).put k { acq with release := .done }) := by
  have hn : ∀ lock : Option (Record I), Acquisition.Owns lock k { acq with release := .done } :=
    fun lock => ⟨fun hne => absurd rfl hne, fun hne => absurd hb hne⟩
  rw [RedisLock.unlockScript]
  split
  · rename_i rec hl
    split
    · refine forall_set hk (fun j z hj hz => ⟨fun hz' => absurd ?_ hj, (h j z hz).beat⟩) (hn _)
      -- whoever is not released owns the record, and it is this acquisition's
      exact Option.some.inj (((h j z hz).record hz').symm.trans ((h k acq hk).record hr))
    · exact h.put hk fun _ => hn _
  · exact h.put hk fun _ => hn _

/-- **One step** keeps ownership, and is allowed. -/
theorem Owned.step (h : Owned s) (hok : ExpiryAfterRelease s a)
    (hs : step s a = some s') : Owned s' ∧ StepAllowed s a := by
  cases a with
  | setNX i ok =>
    cases hs
    exact ⟨h.setNX i ok, trivial⟩
  | ttl =>
    obtain ⟨rec, hlo, rfl⟩ := Option.map_eq_some_iff.mp hs
    refine ⟨fun k acq hk => ⟨fun hr => ?_, (h k acq hk).beat⟩, trivial⟩
    have ho := (h k acq hk).record hr
    rw [hlo] at ho
    exact absurd (hok rec hlo k ho acq hk) hr
  | get k ok =>
    obtain ⟨acq, hk, hb, hs⟩ := bind_ite_eq_some.mp hs
    refine ⟨?_, trivial⟩
    have hr := (h k acq hk).beat (by rw [hb]; nofun)
    split at hs <;> cases hs
    all_goals exact h.put hk fun ho => ⟨ho.record, fun _ => hr⟩
  | expire k applied ok =>
    obtain ⟨acq, hk, hb, hs⟩ := bind_ite_eq_some.mp hs
    have hr := (h k acq hk).beat (by rw [hb]; nofun)
    refine ⟨?_, fun _ hl => absurd hl (h.not_lost hk hr)⟩
    cases hs
    have hk' : (RedisLock.extend s k applied).acquisitions[k]? = some acq := by
      rw [RedisLock.extend]
      split
      · split <;> exact hk
      · exact hk
    refine (h.extend applied).put hk' fun ho => ?_
    cases ok <;> exact ⟨ho.record, fun _ => hr⟩
  | stop k =>
    obtain ⟨acq, hk, -, hs⟩ := bind_ite_eq_some.mp hs
    cases hs
    exact ⟨h.put hk fun ho => ⟨ho.record, fun hn => absurd rfl hn⟩, trivial⟩
  | release k =>
    obtain ⟨acq, hk, rfl⟩ := Option.map_eq_some_iff.mp hs
    refine ⟨?_, trivial⟩
    split
    · rename_i hi
      refine h.put hk fun ho => ⟨fun _ => ho.record (by rw [hi]; nofun), fun _ => nofun⟩
    · exact h
  | eval k applied =>
    obtain ⟨acq, hk, ⟨hw, hb⟩, hs⟩ := bind_ite_eq_some.mp hs
    have hr : acq.release ≠ .done := by rw [hw]; nofun
    refine ⟨?_, fun _ hl => absurd hl (h.not_lost hk hr)⟩
    cases hs
    exact h.unlockScript hk hr hb applied

end

/-- **No record that runs out early, no confusion.** -/
theorem exclusive_of_expiry_after_release [DecidableEq I] (as : List (Action I)) (s : State I)
    (hok : AllowedRun step ExpiryAfterRelease {} as) (h : run step {} as = some s) :
    Exclusive s := by
  have hst : ∀ (s : State I) (a : Action I) (s' : State I), (Owned s ∧ Exclusive s) →
      ExpiryAfterRelease s a → step s a = some s' → Owned s' ∧ Exclusive s' := by
    rintro s a s' ⟨ho, hex⟩ hok hs
    obtain ⟨ho', ha⟩ := ho.step hok hs
    exact ⟨ho', (exclusive_step hs).mpr ⟨hex, ha⟩⟩
  exact (run_invariant hst as {} s ⟨fun k acq hk => by simp at hk,
    fun _ he => absurd he not_mem_nil⟩ hok h).2

/-- "b" asks while "a" has the lock, and gets it after the release. -/
def handover : List (Action String) :=
  [.setNX "a" true, .get 0 true, .expire 0 true true, .setNX "b" true, .release 0, .stop 0,
    .eval 0 true, .setNX "b" true]

theorem allowed_handover : AllowedRun step ExpiryAfterRelease {} handover :=
  allowedRun_of_forall _ _ (by simp [handover, ExpiryAfterRelease])

theorem exclusive_after_handover : ∃ s, run step {} handover = some s ∧ Exclusive s :=
  ⟨_, rfl, exclusive_of_expiry_after_release _ _ allowed_handover rfl⟩

/-- **Mutual exclusion.**  One acquisition at most is not released. -/
theorem one_holder [DecidableEq I] (as : List (Action I)) (s : State I)
    (hok : AllowedRun step ExpiryAfterRelease {} as) (h : run step {} as = some s) (j k : Nat)
    (x y : Acquisition I) (hj : s.acquisitions[j]? = some x) (hk : s.acquisitions[k]? = some y)
    (hx : x.release ≠ .done) (hy : y.release ≠ .done) : j = k := by
  have ho : Owned s := run_invariant (fun s a s' ho hok hs => (ho.step hok hs).1) as {} s
    (fun k acq hk => by simp at hk) hok h
  -- both created the one record there is
  exact Option.some.inj (((ho j x hj).record hx).symm.trans ((ho k y hk).record hy))

theorem one_holder_after_handover : ∃ s, run step {} handover = some s ∧
    ∀ j x, s.acquisitions[j]? = some x → x.release ≠ .done → j = 1 :=
  ⟨_, rfl, fun j x hj hx => one_holder _ _ allowed_handover rfl j 1 x { inst := "b" } hj rfl hx
    (by decide)⟩

end RedisLock

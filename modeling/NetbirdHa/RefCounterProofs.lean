import NetbirdHa.TransitionProofs

/-! # The reference counter

`refcounter.Counter` counts the acquisitions of a key and remembers, for
`DecrementWithID`, which keys were acquired under an ID.  An acquisition that
`add` ignores is not counted, but under an ID it is remembered all the same.

The ledger of a state lists the acquisitions that were counted and not yet
released.  `exact_of_fair` says which calls keep the two maps and the ledger
together. -/

namespace RefCounter

open Transition List Function

/-- A reference count, and what was stored with the first reference. -/
structure Ref (O : Type) where
  count : Int
  out : O

/-- How `add` ends; `ignore` is `ErrIgnore`. -/
inductive Added (O : Type) where
  | ok (out : O)
  | ignore
  | fail

/-- A missing ID has no keys. -/
structure Counter (K O : Type) where
  refCountMap : K → Option (Ref O) := fun _ => none
  idMap : String → List K := fun _ => []

variable {K O : Type} [DecidableEq K] [Inhabited O]

section

variable (c : Counter K O) (id : String) (key : K) (added : Added O)

/-- `increment`, where `add` ends like this if it is called; `none` is an error. -/
def increment : Option (Counter K O) :=
  let ref := (c.refCountMap key).getD ⟨0, default⟩
  if ref.count = 0 then
    match added with
    | .ignore => some c
    | .fail => none
    | .ok out => some { c with refCountMap := update c.refCountMap key (some ⟨ref.count + 1, out⟩) }
  else
    some { c with
      refCountMap := update c.refCountMap key (some { ref with count := ref.count + 1 }) }

/-- `IncrementWithID`. -/
def incrementWithID : Option (Counter K O) :=
  (increment c key added).map fun c => { c with idMap := update c.idMap id (c.idMap id ++ [key]) }

/-- `decrement`, where `remove` succeeds. -/
def decrement : Counter K O :=
  match c.refCountMap key with
  | none => c
  | some ref =>
    if ref.count = 1 then { c with refCountMap := update c.refCountMap key none }
    else { c with
      refCountMap := update c.refCountMap key (some { ref with count := ref.count - 1 }) }

/-- `DecrementWithID`: gives up all references taken under the name. -/
def decrementWithID : Counter K O :=
  let c := (c.idMap id).foldl decrement c
  { c with idMap := update c.idMap id [] }

end

/-! ## Counts -/

/-- What the map has for a key with this many references. -/
def numeral (n : Nat) : Option Int := if n = 0 then none else some n

/-- The counter has this many references to each key. -/
def Counts (c : Counter K O) (f : K → Nat) : Prop :=
  ∀ key, (c.refCountMap key).map Ref.count = numeral (f key)

variable {c : Counter K O} {key : K} {f : K → Nat} {added : Added O} {id : String}

omit [DecidableEq K] in
theorem Counts.count_eq (h : Counts c f) (key : K) :
    ((c.refCountMap key).getD ⟨0, default⟩).count = f key := by
  have hk := h key
  rw [numeral] at hk
  cases hr : c.refCountMap key <;> rw [hr] at hk <;> split at hk <;> simp_all

omit [Inhabited O] in
/-- Writing a count. -/
theorem Counts.put (h : Counts c f) (hr : r.map Ref.count = numeral n) :
    Counts { c with refCountMap := update c.refCountMap key r } (update f key n) := by
  intro k
  by_cases hk : k = key
  · subst hk
    simpa using hr
  · simpa [hk] using h k

/-- A reference more, if there is one already or `add` succeeds. -/
theorem Counts.increment (h : Counts c f) (ha : f key ≠ 0 ∨ ∃ out, added = .ok out) :
    ∃ c', increment c key added = some c' ∧ c'.idMap = c.idMap ∧
      Counts c' (update f key (f key + 1)) := by
  have hp : ∀ out, (some (⟨((c.refCountMap key).getD ⟨0, default⟩).count + 1, out⟩ : Ref O)).map
      Ref.count = numeral (f key + 1) := fun out => by simp [h.count_eq, numeral]
  rw [increment.eq_def]
  dsimp only
  split
  · rename_i hz
    rw [h.count_eq] at hz
    obtain ⟨out, rfl⟩ := ha.resolve_left (by omega)
    exact ⟨_, rfl, rfl, h.put (hp out)⟩
  · exact ⟨_, rfl, rfl, h.put (hp _)⟩

/-- Nothing happens where `add` is called and does not succeed. -/
theorem Counts.not_counted (h : Counts c f) (hz : f key = 0) (ha : ∀ out, added ≠ .ok out) :
    RefCounter.increment c key added = none ∧ added = .fail ∨
      RefCounter.increment c key added = some c ∧ added = .ignore := by
  rw [increment.eq_def]
  rw [if_pos (by rw [h.count_eq, hz]; rfl)]
  cases added with
  | ok out => exact absurd rfl (ha out)
  | ignore => exact .inr ⟨rfl, rfl⟩
  | fail => exact .inl ⟨rfl, rfl⟩

/-- A decrement takes one reference, if there is one. -/
theorem Counts.decrement (h : Counts c f) (key : K) :
    Counts (decrement c key) (update f key (f key - 1)) := by
  have hc := h.count_eq key
  rw [RefCounter.decrement]
  cases hr : c.refCountMap key with
  | none =>
    have hz : f key = 0 := by simpa [hr, eq_comm] using hc
    have hs : update f key (f key - 1) = f := update_eq_self_iff.mpr (by rw [hz])
    rw [hs]
    exact h
  | some ref =>
    rw [hr, Option.getD_some] at hc
    have hk := h key
    rw [hr, numeral] at hk
    dsimp only
    split
    · refine h.put ?_
      rw [show f key = 1 by omega]
      rfl
    · refine h.put ?_
      split at hk
      · cases hk
      · rw [numeral, if_neg (by omega)]
        exact congrArg some (by dsimp only; omega)

omit [Inhabited O] in
theorem idMap_decrement : (decrement c key).idMap = c.idMap := by
  rw [decrement]
  split
  · rfl
  · split <;> rfl

/-- Several decrements, one after the other. -/
theorem Counts.foldl_decrement (ks : List K) : ∀ {c : Counter K O} {f : K → Nat}, Counts c f →
    Counts (ks.foldl RefCounter.decrement c) fun k => f k - ks.count k := by
  induction ks with
  | nil => intro c f h; exact h
  | cons key ks ih =>
    intro c f h k
    rw [foldl_cons, ih (h.decrement key) k]
    by_cases hk : k = key
    · subst hk
      simp only [update_self, count_cons_self]
      congr 1
      omega
    · simp [hk, Ne.symm hk]

omit [Inhabited O] in
theorem idMap_foldl_decrement (ks : List K) (c : Counter K O) :
    (ks.foldl decrement c).idMap = c.idMap :=
  ks.foldlRecOn (motive := fun c' : Counter K O => c'.idMap = c.idMap) decrement rfl
    fun _ h _ _ => idMap_decrement.trans h

/-! ## The ledger -/

/-- A counter, and the counted acquisitions that were not released, each with the ID it
    was made under. -/
structure State (K O : Type) where
  counter : Counter K O := {}
  held : List (Option String × K) := []

/-- A call; `acquire` is `IncrementWithID`, or `Increment` if there is no ID. -/
inductive Call (K O : Type) where
  | acquire (id : Option String) (key : K) (added : Added O)
  | decrement (key : K)
  | decrementWithID (id : String)

section

variable (c : Counter K O) (s : State K O) (key : K)

/-- Takes a reference, under a name if there is one. -/
def acquire (added : Added O) : Option String → Option (Counter K O)
  | none => increment c key added
  | some id => incrementWithID c id key added

/-- The call is counted: the key has references, or `add` succeeds. -/
def counted : Added O → Bool
  | .ok _ => true
  | .ignore | .fail => ((c.refCountMap key).getD ⟨0, default⟩).count ≠ 0

/-- A call on the counter, and what it does to the references held. -/
def call : Call K O → State K O
  | .acquire id key added =>
    ⟨(acquire s.counter key added id).getD s.counter,
      if counted s.counter key added then (id, key) :: s.held else s.held⟩
  | .decrement key => ⟨decrement s.counter key, s.held.erase (none, key)⟩
  | .decrementWithID id => ⟨decrementWithID s.counter id, s.held.filter (·.1 ≠ some id)⟩

/-- How many acquisitions of the key are held. -/
def State.holds : Nat := s.held.countP (·.2 = key)

/-- The counter counts what is held, and remembers for each ID what is held under it. -/
structure Exact (s : State K O) : Prop where
  counts : Counts s.counter s.holds
  ids : ∀ id key, (s.counter.idMap id).count key = s.held.count (some id, key)

/-- No acquisition under an ID is ignored, and nothing is released without an ID that is
    held under IDs only. -/
def Fair : Call K O → Prop
  | .acquire (some _) key .ignore => s.holds key ≠ 0
  | .decrement key => (none, key) ∈ s.held ∨ s.holds key = 0
  | _ => True

end

variable {s : State K O} {x : Call K O}

omit [DecidableEq K] in
/-- A reference is taken unless the first one fails. -/
theorem counted_iff (h : Counts c f) :
    counted c key added ↔ f key ≠ 0 ∨ ∃ out, added = .ok out := by
  cases added <;> simp [counted, h.count_eq]

omit [Inhabited O] in
theorem holds_cons (e : Option String × K) :
    State.holds ⟨c, e :: s.held⟩ = update s.holds e.2 (s.holds e.2 + 1) := by
  funext k
  by_cases hk : k = e.2
  · subst hk
    simp [State.holds]
  · simp [State.holds, hk, Ne.symm hk]

/-- Taking a reference keeps the count exact. -/
theorem Exact.acquire (h : Exact s) (id : Option String) (hf : Fair s (.acquire id key added)) :
    Exact (call s (.acquire id key added)) := by
  by_cases hc : s.holds key ≠ 0 ∨ ∃ out, added = .ok out
  · obtain ⟨c', hc', hid, hcounts⟩ := h.counts.increment hc
    rw [← holds_cons (c := c') (s := s) (id, key)] at hcounts
    cases id with
    | none =>
      simp only [call, RefCounter.acquire, hc', Option.getD_some, (counted_iff h.counts).mpr hc,
        if_true]
      exact ⟨hcounts, fun id k => by simp [hid, h.ids]⟩
    | some id =>
      simp only [call, RefCounter.acquire, incrementWithID, hc', Option.map_some,
        Option.getD_some, (counted_iff h.counts).mpr hc, if_true]
      refine ⟨hcounts, fun i k => ?_⟩
      by_cases hi : i = id
      · by_cases hk : key = k <;> simp [hi, hid, h.ids, hk]
      · simp [hi, hid, h.ids, Ne.symm hi]
  · have hn : ¬ counted s.counter key added := fun h' => hc ((counted_iff h.counts).mp h')
    obtain ⟨hz, hadd⟩ := not_or.mp hc
    rcases h.counts.not_counted (not_not.mp hz) (not_exists.mp hadd) with ⟨h', rfl⟩ | ⟨h', rfl⟩ <;>
      cases id <;> simp only [call, RefCounter.acquire, incrementWithID, h', hn]
    · exact h
    · exact h
    · exact h
    · -- the key would be remembered under the ID although nothing was acquired
      exact absurd hf hz

/-- Giving up a reference keeps the count exact. -/
theorem Exact.decrement (h : Exact s) (hf : Fair s (.decrement key)) :
    Exact (call s (.decrement key)) := by
  have hcounts := h.counts.decrement key
  refine ⟨?_, fun id k => ?_⟩
  · by_cases hmem : (none, key) ∈ s.held
    · have hs : s.holds = State.holds ⟨s.counter, (none, key) :: (call s (.decrement key)).held⟩ :=
        funext fun k => (perm_cons_erase hmem).countP_eq _
      rw [hs, holds_cons (s := call s (.decrement key)), update_idem, update_self,
        Nat.add_sub_cancel, update_eq_self] at hcounts
      exact hcounts
    · rw [update_eq_self_iff.mpr (by rw [hf.resolve_left hmem])] at hcounts
      simp only [call, erase_of_not_mem hmem]
      exact hcounts
  · rw [call, idMap_decrement, h.ids, count_erase_of_ne]
    exact nofun

/-- Giving up a name's references keeps the count exact. -/
theorem Exact.decrementWithID (h : Exact s) : Exact (call s (.decrementWithID id)) := by
  have hf := Counts.foldl_decrement (s.counter.idMap id) h.counts
  refine ⟨fun k => ?_, fun i k => ?_⟩
  · have hs : ∀ l : List (Option String × K), l.countP (·.2 = k) =
        (l.filter (·.1 ≠ some id)).countP (·.2 = k) + l.count (some id, k) := by
      intro l
      induction l with
      | nil => rfl
      | cons e l ih =>
        obtain ⟨o, k'⟩ := e
        by_cases ho : o = some id <;> by_cases hk : k' = k <;> simp [ho, hk, ih] <;> omega
    have hk := hf k
    dsimp only at hk
    rw [h.ids, State.holds, hs s.held, Nat.add_sub_cancel] at hk
    exact hk
  · rw [call, RefCounter.decrementWithID]
    dsimp only
    rw [idMap_foldl_decrement]
    by_cases hi : i = id
    · subst hi
      rw [update_self, count_nil, eq_comm, count_eq_zero]
      simp
    · simp [hi, h.ids, count_filter]

/-- Every fair call keeps the count exact. -/
theorem Exact.call (h : Exact s) (hf : Fair s x) : Exact (call s x) := by
  cases x with
  | acquire id key added => exact h.acquire id hf
  | decrement key => exact h.decrement hf
  | decrementWithID id => exact h.decrementWithID

/-- Every call succeeds. -/
def step (s : State K O) (x : Call K O) : Option (State K O) := some (call s x)

/-- **References.**  After fair calls the counter counts exactly what is held, so that a key goes
    when its last holder releases it, and an ID releases what was acquired under it. -/
theorem exact_of_fair (calls : List (Call K O)) (hfair : AllowedRun step Fair {} calls)
    (hrun : run step {} calls = some s) : Exact s :=
  run_invariant (fun _ _ _ h hf hs => Option.some.inj hs ▸ h.call hf) calls _ _
    ⟨fun _ => rfl, fun _ _ => rfl⟩ hfair hrun

/-- What was acquired under "a" goes, and what was acquired without an ID stays. -/
theorem exact_of_released : Exact (K := Nat) (O := Unit)
    ([.acquire (some "a") 1 (.ok ()), .acquire none 1 (.ok ()), .decrementWithID "a"].foldl
      call {}) :=
  exact_of_fair [.acquire (some "a") 1 (.ok ()), .acquire none 1 (.ok ()), .decrementWithID "a"]
    (by simp [AllowedRun, step, Fair]) rfl

/-- An acquisition under "a" is ignored; "a" then releases what was acquired without an
    ID, and the key is removed while it is held. -/
theorem ignored_is_released : let s : State Nat Unit :=
      [.acquire (some "a") 1 .ignore, .acquire none 1 (.ok ()), .decrementWithID "a"].foldl call {}
    s.held = [(none, 1)] ∧ s.counter.refCountMap 1 = none :=
  ⟨rfl, rfl⟩

end RefCounter

import NetbirdHa.TransitionProofs

/-! # The management DNS cache

A refresh looks the records up without a lock.  It keeps the pointer of the entry
that it observed, and changes the cache only if the question still has that entry.
`unchanged_of_superseded` says that this is enough in every interleaving. -/

namespace MgmtCache

open Transition List Function

/-- The two kinds of address record. -/
inductive Family where
  | a
  | aaaa
deriving DecidableEq

/-- The class is always INET, so that questions are the keys of the refresh group too. -/
structure Question where
  name : String
  qtype : Family
deriving DecidableEq

/-- An entry; `ptr` is the pointer by which it is known. -/
structure CachedRecord (R : Type) where
  ptr : Nat
  records : List R
  consecFailures : Nat := 0

/-- A refresh: it has observed an entry, and then runs.  `superseded` says that the
    question was written or removed since. -/
structure Refresh where
  question : Question
  expected : Nat
  running : Bool := false
  superseded : Bool := false

/-- The cached records, and the refreshes that are under way. -/
structure Resolver (R : Type) where
  records : Question → Option (CachedRecord R) := fun _ => none
  next : Nat := 0
  refreshes : List Refresh := []

/-- What a lookup returns. -/
structure Found (R : Type) where
  records : List R
  err : Bool

variable {R : Type}

section

variable (m : Resolver R) (q : Question) (expected : Nat) (found : Found R) (dnsName : String)

/-- The entry the question points at. -/
def Resolver.point : Option Nat := (m.records q).map (·.ptr)

/-- A write to its question overtakes a refresh. -/
def Refresh.touch (t : Refresh) : Refresh :=
  if t.question = q then { t with superseded := true } else t

/-- A new entry with these records, or none if there are no records. -/
def put (records : List R) : Resolver R :=
  ⟨update m.records q (if records.isEmpty then none else some ⟨m.next, records, 0⟩),
    m.next + 1, m.refreshes.map (·.touch q)⟩

/-- `applyFamilyRecords`: an answer replaces the records, a failure keeps them. -/
def applyFamilyRecords : Resolver R :=
  if !found.records.isEmpty || !found.err then put m q found.records else m

/-- `AddDomain`: one family is enough. -/
def addDomain (a aaaa : Found R) : Resolver R :=
  if a.err && aaaa.err || a.records.isEmpty && aaaa.records.isEmpty then m
  else applyFamilyRecords (applyFamilyRecords m ⟨dnsName, .a⟩ a) ⟨dnsName, .aaaa⟩ aaaa

/-- `RemoveDomain`. -/
def removeDomain : Resolver R :=
  put (put m ⟨dnsName, .a⟩ []) ⟨dnsName, .aaaa⟩ []

/-- `markRefreshFailed`: only the record the refresh was started for is marked. -/
def markRefreshFailed : Resolver R :=
  match m.records q with
  | some c =>
    if c.ptr = expected then
      let c := { c with consecFailures := c.consecFailures + 1 }
      { m with records := update m.records q (some c) }
    else m
  | none => m

/-- `refreshQuestion` after its lookup. -/
def refreshQuestion : Resolver R :=
  if found.err then markRefreshFailed m q expected
  else if m.point q = some expected then put m q found.records
  else m

/-- `serve` is a hit that wants a refresh, at any time; `schedule` is its call of the
    refresh group, which runs it or, while the question is being refreshed, drops it. -/
inductive Event (R : Type) where
  | addDomain (dnsName : String) (a aaaa : Found R)
  | removeDomain (dnsName : String)
  | serve (q : Question)
  | schedule (i : Nat) (drops : Bool)
  | refreshed (i : Nat) (found : Found R)

/-- What an event leaves of the cache. -/
def step : Event R → Option (Resolver R)
  | .addDomain dnsName a aaaa => some (addDomain m dnsName a aaaa)
  | .removeDomain dnsName => some (removeDomain m dnsName)
  | .serve q => (m.records q).map fun c =>
    { m with refreshes := { question := q, expected := c.ptr } :: m.refreshes }
  | .schedule i drops => m.refreshes[i]?.bind fun t =>
    if t.running then none
    -- the refresh group is a library, and nothing here depends on when it drops a call
    else if drops then some { m with refreshes := m.refreshes.eraseIdx i }
    else some { m with refreshes := m.refreshes.set i { t with running := true } }
  | .refreshed i found => m.refreshes[i]?.bind fun t =>
    if t.running then
      let m := { m with refreshes := m.refreshes.eraseIdx i }
      some (refreshQuestion m t.question t.expected found)
    else none

end

/-- Pointers are new when they are taken, and a refresh finds the entry it observed
    exactly if nothing was written or removed since. -/
structure Pinned (m : Resolver R) : Prop where
  old : ∀ q p, m.point q = some p → p < m.next
  held : ∀ t ∈ m.refreshes, t.expected < m.next ∧
    (m.point t.question = some t.expected ↔ t.superseded = false)

variable {m m' : Resolver R} {q : Question} {t : Refresh} {found : Found R}

theorem point_put (q q' : Question) (records : List R) : (put m q records).point q' =
    if q' = q then if records.isEmpty then none else some m.next else m.point q' := by
  by_cases hq : q' = q
  · subst hq
    cases records <;> simp [Resolver.point, put]
  · simp [Resolver.point, put, hq]

theorem Pinned.put (h : Pinned m) (q : Question) (records : List R) : Pinned (put m q records) := by
  constructor
  · intro q' p hp
    rw [point_put] at hp
    split at hp
    · split at hp <;> cases hp
      exact Nat.lt_succ_self _
    · exact Nat.lt_succ_of_lt (h.old q' p hp)
  · intro t' ht'
    obtain ⟨t, ht, rfl⟩ := mem_map.mp ht'
    obtain ⟨hl, hp⟩ := h.held t ht
    rw [point_put]
    by_cases hq : t.question = q
    · -- the new entry has a pointer that no refresh has seen
      have hn : some m.next ≠ some t.expected := fun he => Nat.ne_of_gt hl (Option.some.inj he)
      simp only [Refresh.touch, hq, if_true]
      refine ⟨Nat.lt_succ_of_lt hl, iff_of_false ?_ nofun⟩
      split
      · exact nofun
      · exact hn
    · simp only [Refresh.touch, hq, if_false]
      exact ⟨Nat.lt_succ_of_lt hl, hp⟩

theorem Pinned.congr (h : Pinned m) (hp : m'.point = m.point) (hn : m'.next = m.next)
    (hts : ∀ t ∈ m'.refreshes, ∃ t' ∈ m.refreshes, t.question = t'.question ∧
      t.expected = t'.expected ∧ t.superseded = t'.superseded) : Pinned m' := by
  refine ⟨hp ▸ hn ▸ h.old, fun t ht => ?_⟩
  obtain ⟨t', ht', hq, he, hs⟩ := hts t ht
  rw [hp, hn, hq, he, hs]
  exact h.held t' ht'

theorem Pinned.erase (h : Pinned m) (i : Nat) :
    Pinned { m with refreshes := m.refreshes.eraseIdx i } :=
  h.congr rfl rfl fun t ht => ⟨t, mem_of_mem_eraseIdx ht, rfl, rfl, rfl⟩

theorem Pinned.applyFamilyRecords (h : Pinned m) : Pinned (applyFamilyRecords m q found) := by
  rw [MgmtCache.applyFamilyRecords]
  split
  · exact h.put _ _
  · exact h

/-- A failure is counted in the entry, which stays where it is. -/
theorem Pinned.markRefreshFailed (h : Pinned m) (n : Nat) : Pinned (markRefreshFailed m q n) := by
  rw [MgmtCache.markRefreshFailed]
  split
  · rename_i c hc
    split
    · refine h.congr (funext fun q' => ?_) rfl fun t ht => ⟨t, ht, rfl, rfl, rfl⟩
      by_cases hq : q' = q <;> simp [Resolver.point, hq, hc]
    · exact h
  · exact h

theorem refreshQuestion_of_ne (hn : m.point q ≠ some p) : refreshQuestion m q p found = m := by
  rw [refreshQuestion, markRefreshFailed]
  split
  · split
    · rename_i c hc
      exact if_neg fun he => hn (by rw [Resolver.point, hc, ← he]; rfl)
    · rfl
  · rfl

theorem pinned_step (h : Pinned m) (hs : step m e = some m') : Pinned m' := by
  cases e with
  | addDomain n a aaaa =>
    cases hs
    rw [addDomain]
    split
    · exact h
    · exact h.applyFamilyRecords.applyFamilyRecords
  | removeDomain n =>
    cases hs
    exact (h.put _ _).put _ _
  | serve q =>
    obtain ⟨c, hc, rfl⟩ := Option.map_eq_some_iff.mp hs
    have hp : m.point q = some c.ptr := congrArg _ hc
    exact ⟨h.old, forall_mem_cons.mpr ⟨⟨h.old q _ hp, iff_of_true hp rfl⟩, h.held⟩⟩
  | schedule i drops =>
    obtain ⟨t, ht, hs⟩ := Option.bind_eq_some_iff.mp hs
    split at hs
    · cases hs
    · split at hs <;> cases hs
      · exact h.erase i
      · refine h.congr rfl rfl fun t' ht' => ?_
        rcases mem_or_eq_of_mem_set ht' with ht' | rfl
        · exact ⟨t', ht', rfl, rfl, rfl⟩
        · exact ⟨t, mem_of_getElem? ht, rfl, rfl, rfl⟩
  | refreshed i found =>
    obtain ⟨t, ht, hs⟩ := Option.bind_eq_some_iff.mp hs
    split at hs
    · cases hs
      rw [refreshQuestion]
      split
      · exact (h.erase i).markRefreshFailed _
      · split
        · exact (h.erase i).put _ _
        · exact h.erase i
    · cases hs

/-- **Refreshes.**  In every interleaving a refresh finds the entry it observed exactly
    if the question was not written or removed since; otherwise the cache stays as it is
    when the refresh ends. -/
theorem unchanged_of_superseded (events : List (Event R)) (i : Nat) (found : Found R)
    (hrun : run step {} events = some m) (ht : m.refreshes[i]? = some t)
    (hs : step m (.refreshed i found) = some m') :
    (m.point t.question = some t.expected ↔ t.superseded = false) ∧
      (t.superseded = true → m'.records = m.records) := by
  have h : Pinned m := run_invariant (fun _ _ _ h (_ : True) => pinned_step h)
    events _ _ ⟨by simp [Resolver.point], by simp⟩
      (allowedRun_of_forall _ _ fun _ _ _ => trivial) hrun
  obtain ⟨-, hp⟩ := h.held t (mem_of_getElem? ht)
  refine ⟨hp, fun hsu => ?_⟩
  have hn : m.point t.question ≠ some t.expected := fun he => by simp [hp.mp he] at hsu
  rw [step, ht] at hs
  dsimp only [Option.bind] at hs
  split at hs
  · cases hs
    rw [refreshQuestion_of_ne]
    exact hn
  · cases hs

/-- The domain is removed while its refresh runs, and stays removed. -/
theorem removed_stays : ∃ m : Resolver Nat, run step {} [.addDomain "d." ⟨[1], false⟩ ⟨[], true⟩,
    .serve ⟨"d.", .a⟩, .schedule 0 false, .removeDomain "d.", .refreshed 0 ⟨[2], false⟩] = some m ∧
      m.records ⟨"d.", .a⟩ = none :=
  ⟨_, rfl, congrFun ((unchanged_of_superseded [.addDomain "d." ⟨[1], false⟩ ⟨[], true⟩,
    .serve ⟨"d.", .a⟩, .schedule 0 false, .removeDomain "d."] 0 ⟨[2], false⟩ rfl rfl rfl).2 rfl) _⟩

end MgmtCache

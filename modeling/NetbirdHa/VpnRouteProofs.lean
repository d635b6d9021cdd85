import Mathlib.Data.Finset.Union
import NetbirdHa.NetipProofs
import NetbirdHa.TransitionProofs

/-! # Routes to the VPN interface

`SysOps.genericAddVPNRoute` and `genericRemoveVPNRoute`.  A default prefix is
never entered itself: it stands for two halves, and the IPv4 default also for
the two halves of the IPv6 one.  An entry that is there already is refused, and
any other may be; the code then takes back what it entered, but not everything:
when an IPv6 half of the IPv4 default is refused, its IPv4 halves stay.  Where the
kernel does not support the address family, nothing is entered and the call goes on.
Nor does a removal look at what other prefixes need, although both defaults stand
for the IPv6 halves.

`step_exact_iff` says of a single call when the table still is the union of what
the held prefixes stand for, `table_exact` follows it through whole runs. -/

namespace VpnRoute

open Netip Transition Finset

/-- `vars.Defaultv4`. -/
def defaultv4 : Prefix := .v4 0 0
/-- `vars.Defaultv6`. -/
def defaultv6 : Prefix := .v6 0 0
/-- `0.0.0.0/1`. -/
def splitDefaultv4_1 : Prefix := .v4 0 1
/-- `128.0.0.0/1`. -/
def splitDefaultv4_2 : Prefix := .v4 0x80000000#32 1
/-- `::/1`. -/
def splitDefaultv6_1 : Prefix := .v6 0 1
/-- `8000::/1`. -/
def splitDefaultv6_2 : Prefix := .v6 (0x80#128 <<< 120) 1

/-- What the kernel says to an insertion; `done` is refused all the same if the entry is there. -/
inductive Reply where
  | done
  | refused
  /-- `EAFNOSUPPORT` or `EOPNOTSUPP`, which `isOpErr` takes for a success. -/
  | unsupported
deriving DecidableEq

section

variable (reply : Prefix → Reply) (p : Prefix) (t : Finset Prefix) (s : Routes)

/-- `addToRouteTable`: the table after it, and whether it succeeded. -/
def addToRouteTable : Finset Prefix × Bool :=
  match reply p with
  | .refused => (t, false)
  | .unsupported => (t, true)
  | .done => if p ∈ t then (t, false) else (insert p t, true)

/-- Enter two halves; if the second is refused, the first is taken out again. -/
def addHalves (first second : Prefix) (t : Finset Prefix) : Finset Prefix × Bool :=
  match addToRouteTable reply first t with
  | (t, false) => (t, false)
  | (t, true) =>
    match addToRouteTable reply second t with
    | (t, false) => (t.erase first, false)
    | (t, true) => (t, true)

/-- The table after the call, and whether the call succeeded. -/
def genericAddVPNRoute : Finset Prefix × Bool :=
  if p = defaultv4 then
    match addHalves reply splitDefaultv4_1 splitDefaultv4_2 t with
    | (t, false) => (t, false)
    -- no way back to before the IPv4 halves from here
    | (t, true) => addHalves reply splitDefaultv6_1 splitDefaultv6_2 t
  else if p = defaultv6 then addHalves reply splitDefaultv6_1 splitDefaultv6_2 t
  else addToRouteTable reply p t

/-- The table after the call; what is not there need not be removed. -/
def genericRemoveVPNRoute : Finset Prefix :=
  if p = defaultv4 then
    (((t.erase splitDefaultv4_1).erase splitDefaultv4_2).erase splitDefaultv6_1).erase
      splitDefaultv6_2
  else if p = defaultv6 then (t.erase splitDefaultv6_1).erase splitDefaultv6_2
  else t.erase p

/-- The entries a prefix stands for. -/
def expansion : Finset Prefix :=
  if p = defaultv4 then
    {splitDefaultv4_1, splitDefaultv4_2, splitDefaultv6_1, splitDefaultv6_2}
  else if p = defaultv6 then {splitDefaultv6_1, splitDefaultv6_2}
  else {p}

/-- One call, with what the kernel says to its insertions. -/
inductive Call where
  | add (p : Prefix) (reply : Prefix → Reply)
  | remove (p : Prefix)

/-- The entries created, and the prefixes with an add that succeeded and no removal since. -/
structure Routes where
  table : Finset Prefix
  held : Finset Prefix

/-- Nothing entered yet. -/
def Routes.init : Routes := ⟨∅, ∅⟩

/-- The routes after a call. -/
def call : Call → Routes
  | .add p reply =>
    match genericAddVPNRoute reply p s.table with
    | (t, true) => ⟨t, insert p s.held⟩
    | (t, false) => ⟨t, s.held⟩
  | .remove p => ⟨genericRemoveVPNRoute p s.table, s.held.erase p⟩

/-- The table holds what the held prefixes stand for, and nothing else. -/
def Exact : Prop := s.table = s.held.biUnion expansion

/-! ## What a call meets -/

/-- The insertion of an entry is refused. -/
def Refused (e : Prefix) : Prop := reply e = .refused ∨ reply e = .done ∧ e ∈ t
deriving Decidable

/-- An entry that cannot be inserted is there. -/
def Covered (e : Prefix) : Prop := reply e = .unsupported → e ∈ t
deriving Decidable

/-- The replies to an add leave the table exact.  Of two halves the first is refused; or the second
    is and the first was not there before; or both are there in the end.  For the IPv4 default, the
    IPv6 halves are refused only if the IPv4 ones were not entered. -/
def FairAdd : Prop :=
  if p = defaultv4 then
    Refused reply t splitDefaultv4_1 ∨
      if Refused reply t splitDefaultv4_2 then splitDefaultv4_1 ∉ t
      else if Refused reply t splitDefaultv6_1 then
        reply splitDefaultv4_1 = .unsupported ∧ reply splitDefaultv4_2 = .unsupported
      else if Refused reply t splitDefaultv6_2 then
        reply splitDefaultv4_1 = .unsupported ∧ reply splitDefaultv4_2 = .unsupported ∧
          splitDefaultv6_1 ∉ t
      else ∀ e ∈ expansion p, Covered reply t e
  else if p = defaultv6 then
    Refused reply t splitDefaultv6_1 ∨
      if Refused reply t splitDefaultv6_2 then splitDefaultv6_1 ∉ t
      else ∀ e ∈ expansion p, Covered reply t e
  else Refused reply t p ∨ Covered reply t p
deriving Decidable

/-- The call is one that keeps the table exact: a removed prefix shares no entry with another that
    is held. -/
def Fair : Call → Prop
  | .add p reply => FairAdd reply p s.table
  | .remove p => ∀ q ∈ s.held, q ≠ p → Disjoint (expansion q) (expansion p)

instance (s : Routes) : (c : Call) → Decidable (Fair s c)
  | .add p reply => inferInstanceAs (Decidable (FairAdd reply p s.table))
  | .remove p => inferInstanceAs (Decidable (∀ q ∈ s.held, q ≠ p → _))

end

variable {reply : Prefix → Reply} {p : Prefix} {t : Finset Prefix} {s : Routes}

/-! ## Adding -/

/-- What the insertion of an entry enters, where it is not refused. -/
def entered (reply : Prefix → Reply) (e : Prefix) : Finset Prefix :=
  if reply e = .done then {e} else ∅

theorem addToRouteTable_eq : addToRouteTable reply p t =
    if Refused reply t p then (t, false) else (t ∪ entered reply p, true) := by
  cases hr : reply p with
  | refused => simp [addToRouteTable, Refused, hr]
  | unsupported => simp [addToRouteTable, Refused, entered, hr]
  | done =>
    by_cases hm : p ∈ t
    · simp [addToRouteTable, Refused, hr, hm]
    · simp [addToRouteTable, Refused, entered, hr, hm]

/-- Another entry makes no difference to an insertion. -/
theorem refused_union {e : Prefix} (hn : e ∉ u) :
    Refused reply (t ∪ u) e ↔ Refused reply t e := by
  simp [Refused, hn]

theorem notMem_entered {e : Prefix} (hn : e ≠ p) : e ∉ entered reply p := by
  rw [entered]
  split <;> simp [hn]

/-- **Two halves.** -/
theorem addHalves_eq {x y : Prefix} (hn : y ≠ x) : addHalves reply x y t =
    if Refused reply t x then (t, false)
    else if Refused reply t y then (t.erase x, false)
    else (t ∪ (entered reply x ∪ entered reply y), true) := by
  rw [addHalves, addToRouteTable_eq]
  by_cases hx : Refused reply t x
  · simp [hx]
  simp only [hx, if_false]
  rw [addToRouteTable_eq]
  by_cases hy : Refused reply t y
  · simp only [refused_union (notMem_entered hn), hy, if_true]
    have he : (t ∪ entered reply x).erase x = t.erase x := by
      rw [entered]
      split
      · grind
      · rw [union_empty]
    rw [he]
  · simp only [refused_union (notMem_entered hn), hy, if_false, union_assoc]

/-- An entry that was not refused is entered or skipped. -/
theorem mem_entered_iff {e x : Prefix} (hr : ¬ Refused reply t x) :
    e ∈ entered reply x ↔ e = x ∧ reply x ≠ .unsupported := by
  unfold Refused at hr
  rw [entered]
  cases hx : reply x with
  | done => simp
  | refused => exact absurd (.inl hx) hr
  | unsupported => simp

/-- An entry that was entered had not been there. -/
theorem notMem_of_entered {x : Prefix} (hr : ¬ Refused reply t x) (hu : reply x ≠ .unsupported) :
    x ∉ t := by
  obtain ⟨h1, h2⟩ := not_or.mp hr
  cases hx : reply x with
  | done => exact fun hm => h2 ⟨hx, hm⟩
  | refused => exact absurd hx h1
  | unsupported => exact absurd hx hu

/-- All entries are there in the end exactly if those that could not be inserted were. -/
theorem union_entered_eq_iff {u es : Finset Prefix}
    (hu : ∀ e, e ∈ u ↔ e ∈ es ∧ reply e ≠ .unsupported) :
    t ∪ u = t ∪ es ↔ ∀ e ∈ es, Covered reply t e := by
  simp only [Finset.ext_iff, mem_union, hu, Covered]
  grind

/-- Nothing is entered exactly if both halves are skipped. -/
theorem union_entered_eq_self_iff {x y : Prefix} (hx : ¬ Refused reply t x)
    (hy : ¬ Refused reply t y) : t ∪ (entered reply x ∪ entered reply y) = t ↔
      reply x = .unsupported ∧ reply y = .unsupported := by
  constructor
  · intro h
    have hm : ∀ e ∈ entered reply x ∪ entered reply y, e ∈ t := by
      intro e he
      rw [← h]
      exact mem_union_right t he
    constructor
    · by_contra hn
      exact notMem_of_entered hx hn
        (hm x (mem_union_left _ ((mem_entered_iff hx).mpr ⟨rfl, hn⟩)))
    · by_contra hn
      exact notMem_of_entered hy hn
        (hm y (mem_union_right _ ((mem_entered_iff hy).mpr ⟨rfl, hn⟩)))
  · rintro ⟨hux, huy⟩
    simp [entered, hux, huy]

/-- … and after taking back another one, if that had not been there. -/
theorem erase_union_eq_iff {u : Finset Prefix} {e : Prefix} (he : e ∉ u) :
    (t ∪ u).erase e = t ↔ t ∪ u = t ∧ e ∉ t := by
  constructor
  · intro h
    have hn : e ∉ t := by
      rw [← h]
      exact notMem_erase e _
    refine ⟨?_, hn⟩
    rw [← erase_eq_of_notMem (notMem_union.mpr ⟨hn, he⟩)]
    exact h
  · rintro ⟨h, hn⟩
    rw [h]
    exact erase_eq_of_notMem hn

/-- **Adding a prefix** does to the table what its result says exactly if the replies are fair. -/
theorem fairAdd_iff : (genericAddVPNRoute reply p t).1 =
    (if (genericAddVPNRoute reply p t).2 then t ∪ expansion p else t) ↔ FairAdd reply p t := by
  unfold genericAddVPNRoute FairAdd
  by_cases h4 : p = defaultv4
  · simp only [h4, if_true]
    rw [addHalves_eq (by decide)]
    by_cases h1 : Refused reply t splitDefaultv4_1
    · simp [h1]
    by_cases h2 : Refused reply t splitDefaultv4_2
    · simp [h1, h2]
    simp only [h1, h2, if_false, false_or]
    rw [addHalves_eq (by decide)]
    -- the IPv4 halves do not matter to the IPv6 ones
    have hb1 : splitDefaultv6_1 ∉ entered reply splitDefaultv4_1 ∪ entered reply splitDefaultv4_2 :=
      notMem_union.mpr ⟨notMem_entered (by decide), notMem_entered (by decide)⟩
    have hb2 : splitDefaultv6_2 ∉ entered reply splitDefaultv4_1 ∪ entered reply splitDefaultv4_2 :=
      notMem_union.mpr ⟨notMem_entered (by decide), notMem_entered (by decide)⟩
    simp only [refused_union hb1, refused_union hb2]
    by_cases h3 : Refused reply t splitDefaultv6_1
    · simp only [h3, if_true, Bool.false_eq_true, if_false]
      exact union_entered_eq_self_iff h1 h2
    by_cases h5 : Refused reply t splitDefaultv6_2
    · simp only [h3, h5, if_true, Bool.false_eq_true, if_false]
      rw [erase_union_eq_iff hb1, union_entered_eq_self_iff h1 h2, and_assoc]
    · simp only [h3, h5, if_true, if_false, union_assoc]
      refine union_entered_eq_iff fun e => ?_
      simp only [mem_union, mem_entered_iff h1, mem_entered_iff h2, mem_entered_iff h3,
        mem_entered_iff h5, expansion, if_true, mem_insert, mem_singleton]
      grind
  by_cases h6 : p = defaultv6
  · have hne : defaultv6 ≠ defaultv4 := by decide
    simp only [h6, hne, if_true, if_false]
    rw [addHalves_eq (by decide)]
    by_cases h1 : Refused reply t splitDefaultv6_1
    · simp [h1]
    by_cases h2 : Refused reply t splitDefaultv6_2
    · simp [h1, h2]
    simp only [h1, h2, if_true, if_false, false_or]
    refine union_entered_eq_iff fun e => ?_
    simp only [mem_union, mem_entered_iff h1, mem_entered_iff h2, expansion, hne, if_true,
      if_false, mem_insert, mem_singleton]
    grind
  · simp only [h4, h6, if_false, addToRouteTable_eq]
    by_cases h1 : Refused reply t p
    · simp [h1]
    simp only [h1, if_true, if_false, false_or]
    have hu : ∀ e, e ∈ entered reply p ↔ e ∈ expansion p ∧ reply e ≠ .unsupported := by
      intro e
      simp only [mem_entered_iff h1, expansion, h4, h6, if_false, mem_singleton]
      grind
    rw [union_entered_eq_iff hu]
    simp [expansion, h4, h6]

/-- **One call.** -/
theorem step_exact_iff (h : Exact s) (c : Call) : Exact (call s c) ↔ Fair s c := by
  unfold Exact at h ⊢
  cases c with
  | add p reply =>
    rw [Fair, ← fairAdd_iff, call]
    cases hg : genericAddVPNRoute reply p s.table with
    | mk t ok =>
      cases ok with
      | true => simp only [if_true, biUnion_insert, ← h, union_comm]
      | false => simp only [Bool.false_eq_true, if_false, ← h]
  | remove p =>
    show genericRemoveVPNRoute p s.table = (s.held.erase p).biUnion expansion ↔ _
    have hr : genericRemoveVPNRoute p s.table = s.table \ expansion p := by
      grind [genericRemoveVPNRoute, expansion]
    rw [hr, h]
    constructor
    · -- what another held prefix needs is still there
      intro heq q hq hn
      refine disjoint_left.mpr fun e he hp => ?_
      have hm : e ∈ (s.held.erase p).biUnion expansion :=
        mem_biUnion.mpr ⟨q, mem_erase.mpr ⟨hn, hq⟩, he⟩
      rw [← heq] at hm
      exact (mem_sdiff.mp hm).2 hp
    · intro hd
      ext e
      simp only [mem_sdiff, mem_biUnion, mem_erase]
      constructor
      · rintro ⟨⟨q, hq, he⟩, hp⟩
        exact ⟨q, ⟨fun hqp => hp (hqp ▸ he), hq⟩, he⟩
      · rintro ⟨q, ⟨hn, hq⟩, he⟩
        exact ⟨⟨q, hq, he⟩, disjoint_left.mp (hd q hq hn) he⟩

/-- **The routing table.**  As long as every call is fair the table is exact, and a
    next call keeps it so exactly if it is fair. -/
theorem table_exact {calls : List Call}
    (hok : AllowedRun (fun s c => some (call s c)) Fair .init calls)
    (hr : run (fun s c => some (call s c)) .init calls = some s) :
    Exact s ∧ ∀ c, Exact (call s c) ↔ Fair s c := by
  have hst : ∀ s c s', Exact s → Fair s c → some (call s c) = some s' → Exact s' := by
    intro s c s' h hc hs'
    cases hs'
    exact (step_exact_iff h c).mpr hc
  have hs : Exact s := run_invariant hst calls .init s rfl hok hr
  exact ⟨hs, step_exact_iff hs⟩

/-- An IPv6 half of the IPv6 default is refused, and taken back; then the IPv4 default is added. -/
def defaultCalls : List Call :=
  [.add defaultv6 fun e => if e = splitDefaultv6_2 then .refused else .done,
    .add defaultv4 fun _ => .done, .add defaultv6 fun _ => .done]

/-- The IPv4 default and its halves are left, and the second attempt at the other one is refused. -/
theorem table_exact_defaults :
    ∃ s, run (fun s c => some (call s c)) .init defaultCalls = some s ∧ s.held = {defaultv4} ∧
      Exact s :=
  ⟨_, rfl, by decide +kernel, (@table_exact _ defaultCalls (by decide +kernel) rfl).1⟩

/-- A refused IPv6 half leaves the IPv4 halves of a default that was not added; removing the IPv6
    default, whose add is refused, takes entries of the IPv4 default; and without support for IPv6
    the IPv4 default is held without its IPv6 halves. -/
theorem halves_left_and_halves_lost :
    (let s := call .init (.add defaultv4 fun e => if e = splitDefaultv6_1 then .refused else .done)
    s.held = ∅ ∧ splitDefaultv4_1 ∈ s.table) ∧
    (let s := call (call (call .init (.add defaultv4 fun _ => .done))
      (.add defaultv6 fun _ => .done)) (.remove defaultv6)
    s.held = {defaultv4} ∧ splitDefaultv6_1 ∉ s.table) ∧
    (let s := call .init (.add defaultv4 fun e =>
      if e = splitDefaultv6_1 ∨ e = splitDefaultv6_2 then .unsupported else .done)
    s.held = {defaultv4} ∧ splitDefaultv6_1 ∉ s.table) := by
  decide +kernel

end VpnRoute

import NetbirdHa.LocalResolverProofs

/-! # Round robin

A lookup that finds more than one record moves the first of them to the end, by an
`append` to the rest of the slice.  The slice thus walks through its array and gets
a new one when it reaches the end; its records are rotated all the same
(`Slice.contents_rotate`), and each record has its turn to be the first
(`consecutive_answers`). -/

namespace LocalResolver

open List Resolver Option

/-- A slice, with what its array has before it and after it.  No other slice is on the
    array, as answers are clones. -/
structure Slice where
  before : List RR
  contents : List RR
  after : List RR

/-- `append(s, rr)`: in the place after the slice, or in a new array with room to spare. -/
def Slice.append (s : Slice) (rr : RR) (spare : List RR) : Slice :=
  match s.after with
  | _ :: after => ⟨s.before, s.contents ++ [rr], after⟩
  | [] => ⟨[], s.contents ++ [rr], spare⟩

/-- `append(records[1:], first)`, if there is more than one record. -/
def Slice.rotate (s : Slice) (spare : List RR) : Slice :=
  match s.contents with
  | first :: second :: rest =>
    Slice.append ⟨s.before ++ [first], second :: rest, s.after⟩ first spare
  | _ => s

/-- A rotation moves the first record to the end. -/
theorem Slice.contents_rotate (s : Slice) (spare : List RR) :
    (s.rotate spare).contents = s.contents.rotate 1 := by
  rw [rotate]
  split
  · rename_i h
    rw [h, rotate_cons_succ, rotate_zero, append]
    split <;> rfl
  · rename_i h
    match hc : s.contents with
    | [] | [_] => simp
    | first :: second :: rest => exact absurd hc (h first second rest)

/-! ## Lookups -/

variable {env : Env} {d : Resolver} {q k : Question} {l : List RR} {xs : List Question}

/-- The question whose records answer this one. -/
def Resolver.kept (d : Resolver) (q : Question) : Option Question :=
  if d.hasRecord q then some q
  else if supportsWildcard q.qtype && !d.domains q.name && d.hasRecord (transformToWildcard q) then
    some (transformToWildcard q)
  else none

/-- The records of a wildcard get the queried name. -/
def answered (q k : Question) (rr : RR) : RR := if q = k then rr else { rr with name := q.name }

theorem records_rotate (k q : Question) :
    (d.rotate k).records q = if q = k then (d.records q).map (·.rotate 1) else d.records q := by
  rw [Resolver.rotate]
  by_cases hq : q = k
  · subst hq
    split
    · rename_i h
      simp [h]
    · rename_i h
      rcases hr : d.records q with _ | _ | ⟨first, _ | ⟨second, rest⟩⟩
      all_goals try simp
      exact absurd hr (h first second rest)
  · split <;> simp [hq]

theorem kept_rotate : (d.rotate k).kept q = d.kept q := by
  have h : ∀ q, (d.rotate k).hasRecord q = d.hasRecord q := by
    intro q
    rw [hasRecord, records_rotate]
    split <;> simp [hasRecord]
  rw [kept, kept, h, h, rotate_domains]

theorem lookupRecords_snd : (d.lookupRecords env q).2 = (d.kept q).elim d d.rotate := by
  grind [lookupRecords, kept, hasRecord]

theorem kept_lookup (env : Env) (x : Question) : (d.lookupRecords env x).2.kept q = d.kept q := by
  rw [lookupRecords_snd]
  cases d.kept x with
  | none => rfl
  | some k => exact kept_rotate

theorem records_lookup (env : Env) (x : Question) : (d.lookupRecords env x).2.records k =
    if d.kept x = some k then (d.records k).map (·.rotate 1) else d.records k := by
  rw [lookupRecords_snd]
  cases d.kept x with
  | none => rfl
  | some k' => simp only [elim_some, records_rotate, some.injEq, eq_comm]

theorem lookupRecords_fst (hk : d.kept q = some k) :
    (d.lookupRecords env q).1.records = (d.getRecords k).map (answered q k) := by
  rw [lookupRecords]
  rw [kept] at hk
  cases hq : d.records q with
  | some l =>
    have hi : answered q q = id := funext fun rr => if_pos rfl
    obtain rfl : q = k := by simpa [hasRecord, hq] using hk
    simp [getRecords, hq, hi]
  | none =>
    cases hs : supportsWildcard q.qtype && !d.domains q.name <;>
      cases hw : d.records (transformToWildcard q) <;>
      simp [hasRecord, hq, hs, hw] at hk
    subst hk
    have hn : q ≠ transformToWildcard q := fun he => by simp [← he, hq] at hw
    simp [getRecords, hw, responseFromWildRecords, answered, hn]

/-- The answers to `q` among those to all the questions. -/
def answers (env : Env) (q : Question) : Resolver → List Question → List (List RR)
  | _, [] => []
  | d, x :: xs =>
    let rest := answers env q (d.lookupRecords env x).2 xs
    if x = q then (d.lookupRecords env x).1.records :: rest else rest

/-- The resolver after the questions. -/
def served (env : Env) (d : Resolver) (xs : List Question) : Resolver :=
  xs.foldl (fun d x => (d.lookupRecords env x).2) d

theorem records_served (env : Env) (k : Question) : ∀ (xs : List Question) (d : Resolver),
    ∃ n, (served env d xs).records k = (d.records k).map (·.rotate n) := by
  intro xs
  induction xs with
  | nil => exact fun d => ⟨0, by simp [served]⟩
  | cons x xs ih =>
    intro d
    obtain ⟨n, hn⟩ := ih (d.lookupRecords env x).2
    rw [served, foldl_cons, ← served, hn, records_lookup]
    split
    · refine ⟨1 + n, ?_⟩
      rw [Option.map_map]
      exact congrArg (Option.map · _) (funext fun l => rotate_rotate l 1 n)
    · exact ⟨n, rfl⟩

/-- The answers are the rotations, one after another. -/
theorem answers_eq (env : Env) : ∀ (xs : List Question) (d : Resolver) (n : Nat),
    d.kept q = some k → d.records k = some (l.rotate n) → (∀ x ∈ xs, d.kept x = some k → x = q) →
      answers env q d xs = (range' n (xs.count q)).map fun i =>
        (l.rotate i).map (answered q k) := by
  intro xs
  induction xs with
  | nil => intros; rfl
  | cons x xs ih =>
    intro d n hk hl hxs
    have hk' := (kept_lookup env x).trans hk
    have hx' : ∀ y ∈ xs, (d.lookupRecords env x).2.kept y = some k → y = q := fun y hy hky =>
      hxs y (mem_cons_of_mem _ hy) ((kept_lookup env x).symm.trans hky)
    have hl' := records_lookup env (d := d) (k := k) x
    rw [answers]
    by_cases hx : d.kept x = some k
    · obtain rfl := hxs x mem_cons_self hx
      rw [if_pos hx, hl, map_some, rotate_rotate] at hl'
      rw [if_pos rfl, lookupRecords_fst hk, getRecords, hl, ih _ (n + 1) hk' hl' hx',
        count_cons_self]
      rfl
    · have hn : x ≠ q := fun he => hx (he ▸ hk)
      rw [if_neg hx, hl] at hl'
      rw [if_neg hn, ih _ n hk' hl' hx', count_cons_of_ne hn]

theorem Slice.contents_foldl_rotate (spares : List (List RR)) : ∀ s : Slice,
    (spares.foldl Slice.rotate s).contents = s.contents.rotate spares.length := by
  induction spares with
  | nil => exact fun s => (rotate_zero _).symm
  | cons spare spares ih =>
    intro s
    rw [foldl_cons, ih, contents_rotate, rotate_rotate, Nat.add_comm, length_cons]

/-- **Round robin.**  The records kept for a question are only ever rotated, in the slice as in the
    resolver.  If the questions answered from the records `l` are `q`, then as many consecutive
    answers to `q` as there are records start with one record after another. -/
theorem consecutive_answers (env : Env) (d : Resolver) (xs : List Question) (hk : d.kept q = some k)
    (hl : d.records k = some l) (hxs : ∀ x ∈ xs, d.kept x = some k → x = q) :
    (∀ k, ∃ n, (served env d xs).records k = (d.records k).map (·.rotate n)) ∧
      (∀ (s : Slice) (spares : List (List RR)), (spares.foldl Slice.rotate s).contents =
        s.contents.rotate spares.length) ∧
      ∀ i, i + l.length ≤ (answers env q d xs).length →
        (((answers env q d xs).drop i).take l.length).map head? =
          ((l.rotate i).map (answered q k)).map some := by
  refine ⟨fun k => records_served env k xs d, fun s spares => s.contents_foldl_rotate spares,
    fun i hi => ?_⟩
  have ha := answers_eq env xs d 0 hk (l.rotate_zero.symm ▸ hl) hxs
  rw [ha, length_map, length_range'] at hi
  rw [ha]
  refine ext_getElem? fun j => ?_
  by_cases hj : j < l.length
  · have hlt : i + j < xs.count q := by omega
    simp only [getElem?_map, getElem?_take_of_lt hj, getElem?_drop, getElem?_range' hlt,
      map_some, head?_eq_getElem?, getElem?_rotate hj]
    have hm : (i + j) % l.length < l.length := Nat.mod_lt _ (by omega)
    rw [getElem?_rotate (by omega)]
    simp [Nat.add_comm, getElem?_eq_getElem hm]
  · rw [getElem?_eq_none] <;> simp <;> omega

/-- The two records of a name take turns. -/
theorem two_take_turns :
    let q : Question := ⟨"a.".toList, typeA, 1⟩
    let first : RR := ⟨"a.".toList, typeA, 1, 300, .other "1".toList⟩
    let second : RR := ⟨"a.".toList, typeA, 1, 300, .other "2".toList⟩
    ((answers exampleEnv q ((newResolver.append q first).append q second) [q, q]).take 2).map
      head? =
      [some first, some second] := by
  intro q first second
  exact (consecutive_answers exampleEnv _ [q, q] (q := q) (k := q) (l := [first, second]) rfl rfl
    (fun x hx _ => by simpa using hx)).2.2 0 le_rfl

end LocalResolver

import Mathlib.Algebra.GroupWithZero.Nat
import Mathlib.Data.List.Basic

/-! # Runs of a step function

A component that takes one atomic step after another is given here by a
partial step function `step : σ → α → Option σ`; `none` means that the
action is not enabled.  A run is a list of actions, and every statement
about "any interleaving" is a statement about all such lists.

The one induction the safety proofs need is packaged once: an invariant
that each allowed step preserves holds wherever an allowed run ends
(`run_invariant`), and allowed runs are closed under prefixes
(`allowedRun_of_append`), so "ends" can be read as "passes through".  Where a
step spoils a property exactly if it breaks the condition, the runs that keep
the property are the allowed ones (`run_good_iff`).

The parties of a component are kept in a list and known by their index
there; a step replaces the record of one of them (`getElem?_set_of_some`). -/

namespace Transition

open List

variable {σ α : Type}

/-- Take the actions of a list one after another. -/
def run (step : σ → α → Option σ) : σ → List α → Option σ
  | s, [] => some s
  | s, a :: as => (step s a).bind (run step · as)

/-- Every step of the run meets the condition `ok`, read in the state before that step. -/
def AllowedRun (step : σ → α → Option σ) (ok : σ → α → Prop) : σ → List α → Prop
  | _, [] => True
  | s, a :: as => ok s a ∧ ∀ s', step s a = some s' → AllowedRun step ok s' as

/-- Whether a run is allowed is found by following it. -/
instance AllowedRun.decidable (step : σ → α → Option σ) (ok : σ → α → Prop)
    [∀ s a, Decidable (ok s a)] : ∀ (s : σ) (as : List α), Decidable (AllowedRun step ok s as)
  | _, [] => isTrue trivial
  | s, a :: as =>
    match hstep : step s a with
    | none => decidable_of_iff (ok s a)
        ⟨fun h => ⟨h, fun _ hs => nomatch hstep.symm.trans hs⟩, fun h => h.1⟩
    | some m =>
      have := AllowedRun.decidable step ok m as
      decidable_of_iff (ok s a ∧ AllowedRun step ok m as)
        ⟨fun h => ⟨h.1, fun _ hs => Option.some.inj (hstep.symm.trans hs) ▸ h.2⟩,
          fun h => ⟨h.1, h.2 m hstep⟩⟩

variable {step : σ → α → Option σ} {s s' m : σ} {a : α} {as : List α} {ok : σ → α → Prop}
  {Inv : σ → Prop} {β : Type} {i : Nat}

@[simp] theorem run_nil (step : σ → α → Option σ) (s : σ) : run step s [] = some s := rfl

/-- A run that starts with `a` first takes `a`. -/
theorem run_cons_eq_some :
    run step s (a :: as) = some s' ↔ ∃ m, step s a = some m ∧ run step m as = some s' := by
  rw [run, Option.bind_eq_some_iff]

/-- A run in two parts. -/
theorem run_append_eq_some : ∀ {as bs : List α} {s s' : σ}, run step s (as ++ bs) = some s' ↔
    ∃ m, run step s as = some m ∧ run step m bs = some s' := by
  intro as
  induction as with
  | nil =>
    intro bs s s'
    refine ⟨fun h => ⟨s, rfl, h⟩, ?_⟩
    rintro ⟨m, hm, h⟩
    exact Option.some.inj hm ▸ h
  | cons a as ih => grind [run_cons_eq_some]

/-- A run that starts with `a` is allowed if `a` is and the rest of the run is. -/
theorem allowedRun_cons (hm : step s a = some m) :
    AllowedRun step ok s (a :: as) ↔ ok s a ∧ AllowedRun step ok m as := by
  refine and_congr_right fun _ => ⟨fun h => h m hm, fun h s' hs' => ?_⟩
  cases hm.symm.trans hs'
  exact h

/-- **The invariant rule.**  What every allowed step preserves holds at the end
    of every allowed run. -/
theorem run_invariant (hst : ∀ s a s', Inv s → ok s a → step s a = some s' → Inv s') :
    ∀ (as : List α) (s s' : σ), Inv s → AllowedRun step ok s as →
      run step s as = some s' → Inv s' := by
  intro as
  induction as with
  | nil =>
    intro s s' hs _ hr
    exact Option.some.inj hr ▸ hs
  | cons a as ih =>
    intro s s' hs ho hr
    obtain ⟨m, hm, hr'⟩ := run_cons_eq_some.mp hr
    exact ih m s' (hst s a m hs ho.1 hm) (ho.2 m hm) hr'

/-- If every allowed step can be taken, so can every allowed run. -/
theorem exists_run (hst : ∀ s a, Inv s → ok s a → ∃ s', step s a = some s' ∧ Inv s') :
    ∀ (as : List α) (s : σ), Inv s → AllowedRun step ok s as →
      ∃ s', run step s as = some s' ∧ Inv s' := by
  intro as
  induction as with
  | nil => exact fun s hs _ => ⟨s, rfl, hs⟩
  | cons a as ih =>
    intro s hs hok
    obtain ⟨m, hm, hi⟩ := hst s a hs hok.1
    obtain ⟨s', hr, hs'⟩ := ih m hi (hok.2 m hm)
    exact ⟨s', run_cons_eq_some.mpr ⟨m, hm, hr⟩, hs'⟩

/-- If the allowed steps are those that can be taken and keep a property, the allowed runs are those
    that can be taken and keep it throughout. -/
theorem run_throughout_iff {Good : σ → Prop}
    (hst : ∀ s a, Good s → ((∃ s', step s a = some s' ∧ Good s') ↔ ok s a)) :
    ∀ (xs : List α) (s : σ), Good s →
      ((∀ as bs, as ++ bs = xs → ∃ s', run step s as = some s' ∧ Good s') ↔
        AllowedRun step ok s xs) := by
  intro xs
  induction xs with
  | nil =>
    intro s hs
    refine iff_of_true (fun as bs h => ?_) trivial
    exact ⟨s, by rw [(append_eq_nil_iff.mp h).1, run_nil], hs⟩
  | cons x xs ih =>
    intro s hs
    constructor
    · intro h
      obtain ⟨m, hm, hg⟩ := h [x] xs rfl
      obtain ⟨_, hx, hnil⟩ := run_cons_eq_some.mp hm
      cases hnil
      refine ⟨(hst s x hs).mp ⟨m, hx, hg⟩, fun s' hs' => ?_⟩
      cases hx.symm.trans hs'
      refine (ih m hg).mp fun as bs hab => ?_
      obtain ⟨s', hr, hg'⟩ := h (x :: as) bs (congrArg (x :: ·) hab)
      obtain ⟨m', hm', hr'⟩ := run_cons_eq_some.mp hr
      cases hx.symm.trans hm'
      exact ⟨s', hr', hg'⟩
    · intro h as bs hab
      cases as with
      | nil => exact ⟨s, rfl, hs⟩
      | cons a as =>
        obtain ⟨rfl, htl⟩ := cons_eq_cons.mp hab
        obtain ⟨m, hm, hg⟩ := (hst s a hs).mpr h.1
        obtain ⟨s', hr, hg'⟩ := (ih m hg).mpr (h.2 m hm) as bs htl
        exact ⟨s', run_cons_eq_some.mpr ⟨m, hm, hr⟩, hg'⟩

/-- A prefix of an allowed run is an allowed run. -/
theorem allowedRun_of_append :
    ∀ (as bs : List α) (s : σ), AllowedRun step ok s (as ++ bs) → AllowedRun step ok s as := by
  intro as bs
  induction as with
  | nil => intro s _; trivial
  | cons a as ih =>
    intro s h
    exact ⟨h.1, fun s' hs' => ih s' (h.2 s' hs')⟩

/-- Allowed runs compose. -/
theorem allowedRun_append : ∀ (as bs : List α) (s : σ), AllowedRun step ok s as →
    (∀ m, run step s as = some m → AllowedRun step ok m bs) → AllowedRun step ok s (as ++ bs) := by
  intro as bs
  induction as with
  | nil => intro s _ h; exact h s rfl
  | cons a as ih =>
    intro s h hb
    refine ⟨h.1, fun s' hs' => ih s' (h.2 s' hs') ?_⟩
    intro m hm
    exact hb m (run_cons_eq_some.mpr ⟨s', hs', hm⟩)

/-- An allowed run leads from one state to another. -/
def Leads (step : σ → α → Option σ) (ok : σ → α → Prop) (s s' : σ) : Prop :=
  ∃ as, AllowedRun step ok s as ∧ run step s as = some s'

theorem Leads.refl (step : σ → α → Option σ) (ok : σ → α → Prop) (s : σ) : Leads step ok s s :=
  ⟨[], trivial, rfl⟩

/-- An allowed step before an allowed run. -/
theorem Leads.head (hm : step s a = some m) (ha : ok s a) (h : Leads step ok m s') :
    Leads step ok s s' := by
  obtain ⟨as, ho, hr⟩ := h
  exact ⟨a :: as, (allowedRun_cons hm).mpr ⟨ha, ho⟩, run_cons_eq_some.mpr ⟨m, hm, hr⟩⟩

theorem Leads.trans (h₁ : Leads step ok s m) (h₂ : Leads step ok m s') : Leads step ok s s' := by
  obtain ⟨as, ho₁, hr₁⟩ := h₁
  obtain ⟨bs, ho₂, hr₂⟩ := h₂
  refine ⟨as ++ bs, allowedRun_append as bs s ho₁ fun m' hm' => ?_,
    run_append_eq_some.mpr ⟨m, hr₁, hr₂⟩⟩
  cases hr₁.symm.trans hm'
  exact ho₂

/-- A run is allowed if its actions are allowed in every state. -/
theorem allowedRun_of_forall :
    ∀ (as : List α) (s : σ), (∀ a ∈ as, ∀ m, ok m a) → AllowedRun step ok s as := by
  intro as
  induction as with
  | nil => intro s _; trivial
  | cons a as ih =>
    intro s h
    exact ⟨h a mem_cons_self s, fun s' _ => ih s' (fun b hb => h b (mem_cons_of_mem a hb))⟩

/-- **The exact rule.**  If each step keeps `Good` exactly when it is allowed, the
    runs that end in `Good` are the allowed runs. -/
theorem run_good_iff {Good : σ → Prop} (hi : ∀ s a s', Inv s → step s a = some s' → Inv s')
    (hg : ∀ s a s', Inv s → step s a = some s' → (Good s' ↔ Good s ∧ ok s a)) :
    ∀ (as : List α) (s s' : σ), Inv s → run step s as = some s' →
      (Good s' ↔ Good s ∧ AllowedRun step ok s as) := by
  intro as
  induction as with
  | nil =>
    intro s s' _ hr
    rw [Option.some.inj hr]
    exact (and_iff_left trivial).symm
  | cons a as ih => grind [run_cons_eq_some, allowedRun_cons]

/-- **A condition that cannot be weakened.**  If allowed steps keep an invariant that
    says the state is `Good`, and a step that is not allowed can be followed by
    allowed ones to a state that is not, then allowed runs end in `Good` states and a
    step is allowed exactly if all that can follow it is `Good`. -/
theorem run_good_exact {Good : σ → Prop}
    (hi : ∀ s a s', Inv s → ok s a → step s a = some s' → Inv s') (hg : ∀ s, Inv s → Good s)
    (hb : ∀ s a m, Inv s → ¬ ok s a → step s a = some m → ∃ s', Leads step ok m s' ∧ ¬ Good s')
    (h₀ : Inv s₀) (ho : AllowedRun step ok s₀ as) (hr : run step s₀ as = some s) :
    Good s ∧ ∀ a m, step s a = some m →
      (ok s a ↔ ∀ bs s', AllowedRun step ok m bs → run step m bs = some s' → Good s') := by
  have hs : Inv s := run_invariant hi as s₀ s h₀ ho hr
  refine ⟨hg s hs, fun a m hm => ⟨fun ha bs s' hbs hru => ?_, fun hal => ?_⟩⟩
  · exact hg s' (run_invariant hi bs m s' (hi s a m hs ha hm) hbs hru)
  · by_contra hna
    obtain ⟨s', ⟨bs, hbs, hru⟩, hn⟩ := hb s a m hs hna hm
    exact hn (hal bs s' hbs hru)

/-- A run that gets to its end gets to a state that all such runs have in common. -/
theorem exists_end {P : σ → Prop} (h : (run step s as).isSome)
    (hp : ∀ s', run step s as = some s' → P s') : ∃ s', run step s as = some s' ∧ P s' := by
  obtain ⟨s', hs⟩ := Option.isSome_iff_exists.mp h
  exact ⟨s', hs, hp s' hs⟩

/-! ## Parties -/

/-- What a step does for an entry that it finds and that meets its guard. -/
theorem bind_ite_eq_some {o : Option α} {p : α → Prop} [DecidablePred p] {f : α → Option β}
    {y : β} : (o.bind fun x => if p x then f x else none) = some y ↔
      ∃ x, o = some x ∧ p x ∧ f x = some y := by
  simp only [Option.bind_eq_some_iff, Option.ite_none_right_eq_some]

/-- Replacing the record of one party leaves the others alone. -/
theorem getElem?_set_of_some {l : List β} (h : l[i]? = some x) (y : β) (j : Nat) :
    (l.set i y)[j]? = if j = i then some y else l[j]? := by
  have hl : i < l.length := (List.getElem?_eq_some_iff.mp h).1
  by_cases hj : j = i
  · subst hj
    simp [hl]
  · simp [hj, Ne.symm hj]

theorem mem_set_self {l : List β} (h : l[i]? = some x) (y : β) : y ∈ l.set i y := by
  refine mem_iff_getElem?.mpr ⟨i, ?_⟩
  rw [getElem?_set_of_some h, if_pos rfl]

theorem mem_set_of_ne {l : List β} (h : l[i]? = some x) (hz : z ∈ l) (hn : z ≠ x)
    (y : β) : z ∈ l.set i y := by
  obtain ⟨j, hj⟩ := mem_iff_getElem?.mp hz
  refine mem_iff_getElem?.mpr ⟨j, ?_⟩
  rw [getElem?_set_of_some h, if_neg]
  · exact hj
  · rintro rfl
    rw [h] at hj
    exact hn (Option.some.inj hj).symm

/-- All parties have a property after one of them is replaced, if the new record has
    it and the other parties do. -/
theorem forall_set {l : List β} {P : Nat → β → Prop} (h : l[i]? = some x)
    (ha : ∀ j z, j ≠ i → l[j]? = some z → P j z) (hy : P i y) :
    ∀ j z, (l.set i y)[j]? = some z → P j z := by
  grind

/-- … and after a new one has joined. -/
theorem forall_concat {P : Nat → β → Prop} (ha : ∀ j z, l[j]? = some z → P j z)
    (hy : P l.length y) : ∀ j z, (l ++ [y])[j]? = some z → P j z := by
  intro j z hz
  by_cases hl : j < l.length
  · rw [List.getElem?_append_left hl] at hz
    exact ha j z hz
  rw [List.getElem?_append_right (Nat.le_of_not_lt hl), List.getElem?_singleton] at hz
  obtain ⟨hj, hyz⟩ := Option.ite_none_right_eq_some.mp hz
  obtain rfl : j = l.length := by omega
  cases hyz
  exact hy

/-- A sum over all parties after one of them is replaced. -/
theorem sum_map_set (f : β → Nat) : ∀ {l : List β} {i : Nat} {x : β}, l[i]? = some x → ∀ y : β,
    ((l.set i y).map f).sum + f x = (l.map f).sum + f y := by
  intro l
  induction l with
  | nil => intro i x h; cases h
  | cons z l ih =>
    intro i x h y
    cases i with
    | zero =>
      cases h
      simp only [set_cons_zero, map_cons, sum_cons]
      omega
    | succ i =>
      have hr := ih (i := i) h y
      simp only [set_cons_succ, map_cons, sum_cons]
      omega

end Transition

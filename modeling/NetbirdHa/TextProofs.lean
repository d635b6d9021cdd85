import Mathlib.Data.List.Basic

/-! # Texts put together with separators

An ID made of several texts tells them apart as long as the separator is not
in them: the part before the first separator, or after the last, can be read
off (`append_sep_inj`, `sep_append_inj`), and so can the parts of a joined
list (`intercalate_inj`). -/

namespace Text

open List Nat

/-! ## Lists -/

section

variable {α : Type} [DecidableEq α] {c : α} {x x' y y' : List α}

theorem split_first (hx : c ∉ x) (hx' : c ∉ x') (h : x ++ c :: y = x' ++ c :: y') :
    x = x' ∧ y = y' := by
  have hi : ∀ {l m : List α}, c ∉ l → List.idxOf c (l ++ c :: m) = l.length := by
    intro l m hl
    rw [idxOf_append_of_notMem hl, idxOf_cons_self, Nat.add_zero]
  have hle : x.length = x'.length := by rw [← hi hx, h, hi hx']
  obtain ⟨h1, h2⟩ := append_inj h hle
  exact ⟨h1, (List.cons.inj h2).2⟩

theorem split_last (hy : c ∉ y) (hy' : c ∉ y') (h : x ++ c :: y = x' ++ c :: y') :
    x = x' ∧ y = y' := by
  have hr : y.reverse ++ c :: x.reverse = y'.reverse ++ c :: x'.reverse := by
    simpa using congrArg List.reverse h
  obtain ⟨h1, h2⟩ := split_first (by simpa using hy) (by simpa using hy') hr
  exact ⟨reverse_injective h2, reverse_injective h1⟩

end

variable {c : Char} {l l' : List String} {m n : Nat}

/-! ## Texts -/

section

variable {sep x x' y y' : String}

theorem toList_sep (hs : sep.toList = [c]) (h : x ++ (sep ++ y) = x' ++ (sep ++ y')) :
    x.toList ++ c :: y.toList = x'.toList ++ c :: y'.toList := by
  simpa [hs] using congrArg String.toList h

/-- The part before the first separator. -/
theorem append_sep_inj (hs : sep.toList = [c]) (hx : c ∉ x.toList) (hx' : c ∉ x'.toList)
    (h : x ++ (sep ++ y) = x' ++ (sep ++ y')) : x = x' ∧ y = y' := by
  obtain ⟨h1, h2⟩ := split_first hx hx' (toList_sep hs h)
  exact ⟨String.toList_inj.mp h1, String.toList_inj.mp h2⟩

/-- The part after the last separator. -/
theorem sep_append_inj (hs : sep.toList = [c]) (hy : c ∉ y.toList) (hy' : c ∉ y'.toList)
    (h : x ++ (sep ++ y) = x' ++ (sep ++ y')) : x = x' ∧ y = y' := by
  obtain ⟨h1, h2⟩ := split_last hy hy' (toList_sep hs h)
  exact ⟨String.toList_inj.mp h1, String.toList_inj.mp h2⟩

/-- Parts of one length. -/
theorem append_length_inj (hle : x.length = x'.length) (h : x ++ y = x' ++ y') :
    x = x' ∧ y = y' := by
  have hl : x.toList ++ y.toList = x'.toList ++ y'.toList := by simpa using congrArg String.toList h
  obtain ⟨h1, h2⟩ := append_inj hl (by rw [String.length_toList, String.length_toList, hle])
  exact ⟨String.toList_inj.mp h1, String.toList_inj.mp h2⟩

/-- A joined list that has parts. -/
theorem intercalate_inj_of_ne_nil (hse : sep.toList = [c]) (hl : ∀ s ∈ l, c ∉ s.toList)
    (hl' : ∀ s ∈ l', c ∉ s.toList) (hn : l ≠ []) (hn' : l' ≠ [])
    (h : sep.intercalate l = sep.intercalate l') : l = l' := by
  have hc : [c].intercalate (l.map String.toList) = [c].intercalate (l'.map String.toList) := by
    simpa [hse] using congrArg String.toList h
  have hsp : ∀ {m : List String}, (∀ s ∈ m, c ∉ s.toList) → m ≠ [] →
      ([c].intercalate (m.map String.toList)).splitOn c = m.map String.toList := by
    intro m hm hn
    refine splitOn_intercalate c (fun s hs => ?_) (by simpa using hn)
    obtain ⟨s', hs', rfl⟩ := mem_map.mp hs
    exact hm s' hs'
  have hma : l.map String.toList = l'.map String.toList := by rw [← hsp hl hn, hc, hsp hl' hn']
  exact map_injective_iff.mpr (fun _ _ => String.toList_inj.mp) hma

/-- Nothing joined is empty but the empty list, if no part is. -/
theorem eq_nil_of_intercalate (hl : ∀ s ∈ l, s ≠ "") (hs : sep ≠ "")
    (h : sep.intercalate l = "") : l = [] := by
  have hc : sep.toList.intercalate (l.map String.toList) = [] := by
    simpa using congrArg String.toList h
  match l with
  | [] => rfl
  | [s] => exact absurd (String.toList_inj.mp (by simpa using hc)) (hl s (by simp))
  | s :: s' :: l =>
    rw [map_cons, map_cons, intercalate_cons_cons, append_eq_nil_iff, append_eq_nil_iff] at hc
    exact absurd (String.toList_inj.mp (hc.1.2.trans String.toList_empty.symm)) hs

/-- A joined list, of parts that are not empty. -/
theorem intercalate_inj (hse : sep.toList = [c]) (hl : ∀ s ∈ l, c ∉ s.toList ∧ s ≠ "")
    (hl' : ∀ s ∈ l', c ∉ s.toList ∧ s ≠ "") (h : sep.intercalate l = sep.intercalate l') :
    l = l' := by
  have hb : sep ≠ "" := by
    rintro rfl
    cases hse
  by_cases hn : l = []
  · subst hn
    exact (eq_nil_of_intercalate (fun s hs => (hl' s hs).2) hb h.symm).symm
  have hn' : l' ≠ [] := by
    rintro rfl
    exact hn (eq_nil_of_intercalate (fun s hs => (hl s hs).2) hb h)
  exact intercalate_inj_of_ne_nil hse (fun s hs => (hl s hs).1) (fun s hs => (hl' s hs).1) hn hn' h

/-- A character of a joined list. -/
theorem mem_intercalate (h : ch ∈ (sep.intercalate l).toList) :
    ch ∈ sep.toList ∨ ∃ s ∈ l, ch ∈ s.toList := by
  rw [String.toList_intercalate] at h
  induction l with
  | nil => exact absurd h (by simp)
  | cons s l ih =>
    cases l with
    | nil => exact .inr ⟨s, mem_singleton.mpr rfl, by simpa using h⟩
    | cons s' l =>
      rw [map_cons, map_cons, intercalate_cons_cons, mem_append] at h
      grind

/-- Two joined lists, joined. -/
theorem intercalate_append (hn : l ≠ []) (hn' : l' ≠ []) :
    sep.intercalate (l ++ l') = sep.intercalate l ++ sep ++ sep.intercalate l' := by
  refine String.toList_inj.mp ?_
  simp only [String.toList_intercalate, String.toList_append, map_append]
  induction l with
  | nil => exact absurd rfl hn
  | cons s l ih =>
    cases l with
    | nil =>
      obtain ⟨s', m, rfl⟩ := exists_cons_of_ne_nil hn'
      rw [map_singleton, singleton_append, map_cons, intercalate_cons_cons, intercalate_singleton]
    | cons s' l =>
      have hr := ih (cons_ne_nil _ _)
      simp only [map_cons, cons_append, intercalate_cons_cons, append_assoc] at hr ⊢
      rw [hr]

end

/-! ## Numbers -/

theorem nat_inj (h : toString m = toString n) : m = n := by
  have hd : toDigits 10 m = toDigits 10 n := by
    simpa [toString_eq_repr] using congrArg String.toList h
  rw [← ofDigitChars_ten_toDigits (n := m), hd, ofDigitChars_ten_toDigits]

/-- A number is written with digits only. -/
theorem notMem_nat (hc : c.isDigit = false) (n : Nat) : c ∉ (toString n).toList := by
  intro h
  have hd : c ∈ toDigits 10 n := by simpa [toString_eq_repr] using h
  rw [isDigit_of_mem_toDigits (by decide) (by decide) hd] at hc
  cases hc

theorem digitChar_inj (hm : m < 16) (hn : n < 16) (h : digitChar m = digitChar n) : m = n := by
  have ha : ∀ m < 16, ∀ n < 16, digitChar m = digitChar n → m = n := by decide
  exact ha m hm n hn h

/-- By the last digit, and the number without it. -/
theorem hex_inj (h : Nat.toDigits 16 m = Nat.toDigits 16 n) : m = n := by
  induction m using Nat.strongRecOn generalizing n with
  | ind m ih =>
    have hp : ∀ k, Nat.toDigits 16 k ≠ [] := fun k => Nat.toDigits_ne_nil
    by_cases hm : m < 16
    · rw [Nat.toDigits_of_lt_base hm] at h
      by_cases hn : n < 16
      · rw [Nat.toDigits_of_lt_base hn] at h
        exact digitChar_inj hm hn (singleton_inj.mp h)
      · rw [Nat.toDigits_of_base_le (by decide) (Nat.le_of_not_lt hn)] at h
        exact absurd (append_inj_left' (h.symm.trans (nil_append _).symm) rfl) (hp _)
    · rw [Nat.toDigits_of_base_le (by decide) (Nat.le_of_not_lt hm)] at h
      by_cases hn : n < 16
      · rw [Nat.toDigits_of_lt_base hn] at h
        exact absurd (append_inj_left' (h.trans (nil_append _).symm) rfl) (hp _)
      rw [Nat.toDigits_of_base_le (by decide) (Nat.le_of_not_lt hn)] at h
      have hd := ih (m / 16) (by omega) (append_inj_left' h rfl)
      have hmo := digitChar_inj (by omega) (by omega) (singleton_inj.mp (append_inj_right' h rfl))
      omega

/-- A number is written with the digits of its base. -/
theorem mem_digits (hb : 1 < b) (h : c ∈ toDigits b n) : ∃ d < b, c = digitChar d := by
  induction n using Nat.strongRecOn with
  | ind n ih =>
    by_cases hn : n < b
    · rw [toDigits_of_lt_base hn] at h
      exact ⟨n, hn, mem_singleton.mp h⟩
    have hl := Nat.le_of_not_lt hn
    rw [toDigits_of_base_le hb hl] at h
    rcases mem_append.mp h with h | h
    · exact ih (n / b) (div_lt_self (by omega) hb) h
    · exact ⟨n % b, mod_lt n (by omega), mem_singleton.mp h⟩

end Text

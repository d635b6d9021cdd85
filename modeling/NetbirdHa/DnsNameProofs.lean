import Mathlib

/-! # Domain names as texts

A domain name is the text that it is written as.  What the libraries do to such a
text is a parameter (`Library`): lower case and case folding work on single
characters and leave dots and stars alone, and `fqdn` adds a dot at the end unless
there is one (an escaped one does not count, so no more is said).

A name lies below another one if it ends with a dot and that name; every name with
a label lies below the root, which is a dot itself (`Below`). -/

namespace DnsName

open List

/-- A domain name's characters. -/
abbrev Name := List Char

/-- What the libraries do to names. -/
structure Library where
  /-- `unicode.ToLower`. -/
  lower : Char → Char
  /-- What `strings.EqualFold` compares. -/
  fold : Char → Char
  /-- `dns.Fqdn`. -/
  fqdn : Name → Name
  lower_lower : ∀ c, lower (lower c) = lower c
  lower_dot : lower '.' = '.'
  lower_star : lower '*' = '*'
  fold_dot : ∀ c, fold c = fold '.' → c = '.'
  fqdn_root : fqdn ['.'] = ['.']
  fqdn_spec : ∀ s, (fqdn s = s ∧ ['.'] <:+ s) ∨ fqdn s = s ++ ['.']

namespace Library

variable (lib : Library)

/-- `strings.ToLower`. -/
def toLower (s : Name) : Name := s.map lib.lower

/-- `strings.EqualFold`. -/
def equalFold (s t : Name) : Bool := decide (s.map lib.fold = t.map lib.fold)

/-- Lower case is lower case. -/
theorem toLower_toLower (s : Name) : lib.toLower (lib.toLower s) = lib.toLower s := by
  rw [toLower, toLower, map_map]
  exact map_congr_left fun c _ => lib.lower_lower c

@[simp] theorem toLower_nil : lib.toLower [] = [] := rfl

theorem toLower_append (s t : Name) : lib.toLower (s ++ t) = lib.toLower s ++ lib.toLower t :=
  map_append

theorem toLower_dot (s : Name) : lib.toLower ('.' :: s) = '.' :: lib.toLower s := by
  rw [toLower, map_cons, lib.lower_dot]
  rfl

theorem equalFold_iff : lib.equalFold s t ↔ s.map lib.fold = t.map lib.fold := decide_eq_true_iff

@[simp] theorem equalFold_refl (s : Name) : lib.equalFold s s := lib.equalFold_iff.mpr rfl

theorem equalFold_symm (h : lib.equalFold s t) : lib.equalFold t s :=
  lib.equalFold_iff.mpr (lib.equalFold_iff.mp h).symm

theorem equalFold_trans (h : lib.equalFold s t) (h' : lib.equalFold t u) : lib.equalFold s u :=
  lib.equalFold_iff.mpr ((lib.equalFold_iff.mp h).trans (lib.equalFold_iff.mp h'))

/-- Names equal up to case are equally long. -/
theorem length_of_equalFold (h : lib.equalFold s t) : s.length = t.length := by
  have := congrArg List.length (lib.equalFold_iff.mp h)
  rwa [length_map, length_map] at this

end Library

/-! ## Dots and suffixes -/

/-- `strings.Count` of the dots. -/
def dots (s : Name) : Nat := s.count '.'

@[simp] theorem dots_append (s t : Name) : dots (s ++ t) = dots s + dots t := count_append

theorem dots_pos : 0 < dots s ↔ '.' ∈ s := count_pos_iff

/-- `strings.Split` at the dots. -/
def labels (s : Name) : List Name := s.splitOn '.'

/-- One label more than dots. -/
theorem length_labels (s : Name) : (labels s).length = dots s + 1 := by
  rw [labels, List.splitOn]
  induction s with
  | nil => rfl
  | cons c s ih =>
    rw [splitOnP_cons_eq_if_modifyHead]
    grind [dots]

/-- `strings.TrimSuffix`. -/
def trimSuffix (s t : Name) : Name := if t <:+ s then s.take (s.length - t.length) else s

theorem trimSuffix_append (x t : Name) : trimSuffix (x ++ t) t = x := by
  rw [trimSuffix, if_pos (suffix_append x t), length_append, Nat.add_sub_cancel, take_left']
  rfl

/-- The root. -/
def root : Name := ['.']

/-- A name that lies strictly below another one. -/
def Below (p q : Name) : Prop := ∃ x, x ≠ [] ∧ p = x ++ if q = root then root else '.' :: q

/-- A single label below the root. -/
def TopLevel (p : Name) : Prop := ∃ x, x ≠ [] ∧ '.' ∉ x ∧ p = x ++ root

/-- Below another name there are more dots, except for a single label below the root. -/
theorem dots_of_below (h : Below p q) : dots q < dots p ∨ q = root ∧ TopLevel p := by
  grind [Below, dots, TopLevel]

/-- A top-level name lies below the root. -/
theorem below_root_of_topLevel (h : TopLevel p) : Below p root := by
  obtain ⟨x, hx, -, rfl⟩ := h
  exact ⟨x, hx, by rw [if_pos rfl]⟩

theorem dots_root : dots root = 1 := rfl

theorem dots_topLevel (h : TopLevel p) : dots p = 1 := by
  obtain ⟨x, -, hd, rfl⟩ := h
  rw [dots_append, dots_root, dots, count_eq_zero_of_not_mem hd]

theorem ne_root_of_topLevel (h : TopLevel p) : p ≠ root := by
  obtain ⟨x, hx, -, rfl⟩ := h
  exact fun h => hx (append_left_eq_self.mp h)

instance (p : Name) : Decidable (TopLevel p) :=
  decidable_of_iff (1 < p.length ∧ root <:+ p ∧ dots p = 1) (by
    constructor
    · rintro ⟨hlen, ⟨x, rfl⟩, hdots⟩
      refine ⟨x, ?_, ?_, rfl⟩
      · rintro rfl
        exact absurd hlen (by decide)
      · intro hdot
        have := dots_pos.mpr hdot
        rw [dots_append, dots_root] at hdots
        omega
    · intro h
      refine ⟨?_, ?_, dots_topLevel h⟩
      · obtain ⟨x, hx, -, rfl⟩ := h
        have := length_pos_iff.mpr hx
        rw [length_append, root, length_singleton]
        omega
      · obtain ⟨x, -, -, rfl⟩ := h
        exact suffix_append _ _)

/-! ## ASCII -/

/-- Only a dot folds to a dot. -/
theorem eq_dot_of_toLower (h : c.toLower = Char.toLower '.') : c = '.' := by
  have hu : ¬ c.isUpper := by
    intro hu
    have ha := congrArg Char.isAlpha h
    rw [Char.isAlpha_toLower_eq_isAlpha, Char.isAlpha, hu] at ha
    cases ha
  rwa [Char.toLower_eq_of_not_isUpper hu] at h

/-- Names of ASCII characters without escapes. -/
def ascii : Library where
  lower := Char.toLower
  fold := Char.toLower
  fqdn s := if ['.'] <:+ s then s else s ++ ['.']
  lower_lower := Char.toLower_toLower_eq_toLower
  lower_dot := rfl
  lower_star := rfl
  fold_dot _ := eq_dot_of_toLower
  fqdn_root := rfl
  fqdn_spec s := by
    by_cases h : ['.'] <:+ s
    · exact .inl ⟨if_pos h, h⟩
    · exact .inr (if_neg h)

end DnsName

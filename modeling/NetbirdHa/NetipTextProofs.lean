import NetbirdHa.NetipProofs
import NetbirdHa.TextProofs

/-! # The text of an address tells the address

An IPv4 address is written as four numbers, an IPv6 address as eight groups of
hexadecimal digits of which the longest run of zeros is left out.  Either way the
text is a joined list of parts (`parts`), a part is blank only where zeros are left
out, and there are eight groups: so two addresses with one text are the same
(`text_inj`). -/

namespace Netip

open List Text Addr

/-! ## Digits -/

/-- Numbers of `k` digits of `w` bits are the same if their digits are. -/
theorem eq_of_digits (hw : 0 < w) (hm : m < 2 ^ (w * k)) (hn : n < 2 ^ (w * k))
    (h : ∀ i < k, (m >>> (w * i)) % 2 ^ w = (n >>> (w * i)) % 2 ^ w) : m = n := by
  refine Nat.eq_of_testBit_eq fun j => ?_
  by_cases hj : j < w * k
  · -- the bit is one of the digit it falls into
    have hb := congrArg (·.testBit (j % w)) (h (j / w) (Nat.div_lt_of_lt_mul hj))
    simp only [Nat.testBit_mod_two_pow, Nat.testBit_shiftRight, Nat.mod_lt j hw, decide_true,
      Bool.true_and, Nat.div_add_mod] at hb
    exact hb
  · have hl : 2 ^ (w * k) ≤ 2 ^ j := Nat.pow_le_pow_right Nat.two_pos (Nat.le_of_not_lt hj)
    rw [Nat.testBit_lt_two_pow (Nat.lt_of_lt_of_le hm hl),
      Nat.testBit_lt_two_pow (Nat.lt_of_lt_of_le hn hl)]

/-- The same, for digits that are listed from the highest on. -/
theorem eq_of_map_digits (hw : 0 < w) (hm : m < 2 ^ (w * (k + 1))) (hn : n < 2 ^ (w * (k + 1)))
    (h : (List.range (k + 1)).map (fun i => (m >>> (w * (k - i))) % 2 ^ w) =
      (List.range (k + 1)).map (fun i => (n >>> (w * (k - i))) % 2 ^ w)) : m = n := by
  refine eq_of_digits hw hm hn fun i hi => ?_
  have hd := map_inj_left.mp h (k - i) (mem_range.mpr (by omega))
  have hi' : k - (k - i) = i := by omega
  rw [hi'] at hd
  exact hd

/-! ## IPv4 -/

/-- The four numbers. -/
def octets (a : BitVec 32) : List Nat :=
  (List.range 4).map fun i => (a.toNat >>> (8 * (3 - i))) % 256

/-- An IPv4 address is its octets. -/
theorem octets_inj (h : octets a = octets b) : a = b := by
  refine BitVec.eq_of_toNat_eq ?_
  exact eq_of_map_digits (w := 8) (k := 3) (by decide) a.isLt b.isLt h

theorem textV4_eq (a : BitVec 32) : textV4 a = ".".intercalate ((octets a).map toString) := by rfl

/-- The text of an IPv4 address determines it. -/
theorem textV4_inj (h : textV4 a = textV4 b) : a = b := by
  have hp : ∀ (l : List Nat), ∀ s ∈ l.map toString, '.' ∉ s.toList := by
    intro l s hs
    obtain ⟨n, -, rfl⟩ := mem_map.mp hs
    exact notMem_nat (by decide) n
  rw [textV4_eq, textV4_eq] at h
  have hm := intercalate_inj_of_ne_nil rfl (hp _) (hp _) (by simp [octets]) (by simp [octets]) h
  exact octets_inj (map_injective_iff.mpr (fun _ _ => nat_inj) hm)

/-! ## IPv6 -/

theorem length_groups (a : BitVec 128) : (groups a).length = 8 := by
  rw [groups, length_map, length_range]

/-- An IPv6 address is its groups. -/
theorem groups_inj (h : groups a = groups b) : a = b := by
  refine BitVec.eq_of_toNat_eq ?_
  exact eq_of_map_digits (w := 16) (k := 7) (by decide) a.isLt b.isLt h

/-- A group's text determines it. -/
theorem hexText_inj (h : hexText m = hexText n) : m = n :=
  hex_inj (by simpa [hexText] using congrArg String.toList h)

theorem hexText_ne_blank (n : Nat) : hexText n ≠ "" := by
  intro h
  have hnil : Nat.toDigits 16 n = [] := by
    rw [← String.toList_ofList (l := Nat.toDigits 16 n)]
    exact (congrArg String.toList h).trans String.toList_empty
  exact Nat.toDigits_ne_nil hnil

/-- A list of parts, of which there is at least one. -/
def orBlank (l : List String) : List String := if l = [] then [""] else l

theorem orBlank_ne_nil (l : List String) : orBlank l ≠ [] := by
  rw [orBlank]
  split
  · exact cons_ne_nil _ _
  · assumption

/-- An empty side of the double colon prints nothing. -/
theorem intercalate_orBlank (l : List String) :
    ":".intercalate (orBlank l) = ":".intercalate l := by
  rw [orBlank]
  split
  · next h => rw [h]; rfl
  · rfl

/-- What stands between the colons. -/
def parts (l : List Nat) : List String :=
  match longestRun l with
  | none => l.map hexText
  | some (i, n) => orBlank ((l.take i).map hexText) ++ "" :: orBlank ((l.drop (i + n)).map hexText)

/-- The text of an IPv6 address, as its parts between colons. -/
theorem textV6_eq (h : ¬ Addr.Mapped a) : textV6 a = ":".intercalate (parts (groups a)) := by
  rw [textV6, if_neg h, parts]
  cases longestRun (groups a) with
  | none => rfl
  | some run =>
    obtain ⟨i, n⟩ := run
    rw [intercalate_append (orBlank_ne_nil _) (cons_ne_nil _ _),
      ← singleton_append, intercalate_append (cons_ne_nil _ _) (orBlank_ne_nil _),
      intercalate_orBlank, intercalate_orBlank]
    refine String.toList_inj.mp ?_
    simp

/-- The run that is left out has zeros only. -/
theorem eq_of_longestRun (h : longestRun l = some (i, n)) :
    l = l.take i ++ (List.replicate n 0 ++ l.drop (i + n)) := by
  have hru : n = zeroRun (l.drop i) := by
    have hi : ∀ (idxs : List Nat) (best : Option (Nat × Nat)),
        (∀ i n, best = some (i, n) → n = zeroRun (l.drop i)) → ∀ i n, idxs.foldl (fun best i =>
          let n := zeroRun (l.drop i)
          if 2 ≤ n ∧ (best.map Prod.snd).getD 0 < n then some (i, n) else best) best = some (i, n) →
            n = zeroRun (l.drop i) := by
      intro idxs
      induction idxs with
      | nil => intro best hb; exact hb
      | cons x idxs ih => grind
    exact hi (List.range l.length) none (fun i n h => nomatch h) i n h
  have hz : (l.drop i).takeWhile (· = 0) = List.replicate n 0 := by
    refine eq_replicate_iff.mpr ⟨hru.symm, ?_⟩
    intro x hx
    simpa using all_eq_true.mp all_takeWhile x hx
  have hs : l.drop i = List.replicate n 0 ++ (l.drop i).dropWhile (· = 0) := by
    rw [← hz, takeWhile_append_dropWhile]
  have hr : l.drop (i + n) = (l.drop i).dropWhile (· = 0) := by
    rw [← drop_drop]
    conv_lhs => rw [hs]
    exact drop_left' length_replicate
  have hd : l.drop i = List.replicate n 0 ++ l.drop (i + n) := by rw [hr, ← hs]
  rw [← hd, take_append_drop]

section

variable {l l' : List Nat}

theorem blank_notMem (l : List Nat) : "" ∉ l.map hexText := by
  intro h
  obtain ⟨n, -, hn⟩ := mem_map.mp h
  exact hexText_ne_blank n hn

/-- A side of the double colon is determined by its parts. -/
theorem orBlank_inj (h : orBlank (l.map hexText) = orBlank (l'.map hexText)) : l = l' := by
  have hm : l.map hexText = l'.map hexText := by grind [orBlank, blank_notMem]
  exact map_injective_iff.mpr (fun _ _ => hexText_inj) hm

/-- Before the first blank part stand the groups before the zeros; a blank part at the
    start means that there are none. -/
theorem orBlank_append_inj
    (h : orBlank (l.map hexText) ++ "" :: r = orBlank (l'.map hexText) ++ "" :: r') :
    l = l' ∧ r = r' := by
  by_cases hl : l = []
  · subst hl
    by_cases hl' : l' = []
    · subst hl'
      exact ⟨rfl, (List.cons.inj (List.cons.inj h).2).2⟩
    · obtain ⟨x, l', rfl⟩ := exists_cons_of_ne_nil hl'
      exact absurd (List.cons.inj h).1.symm (hexText_ne_blank x)
  · obtain ⟨x, l, rfl⟩ := exists_cons_of_ne_nil hl
    by_cases hl' : l' = []
    · subst hl'
      exact absurd (List.cons.inj h).1 (hexText_ne_blank x)
    · obtain ⟨y, l', rfl⟩ := exists_cons_of_ne_nil hl'
      obtain ⟨hle, hr⟩ := split_first (blank_notMem _) (blank_notMem _) h
      exact ⟨map_injective_iff.mpr (fun _ _ => hexText_inj) hle, hr⟩

/-- Lists of one length with the same parts. -/
theorem parts_inj (hln : l.length = l'.length) (h : parts l = parts l') : l = l' := by
  have hb : ∀ {l l' : List Nat} {i n : Nat}, longestRun l = none → longestRun l' = some (i, n) →
      parts l ≠ parts l' := by
    grind [parts, blank_notMem]
  cases hru : longestRun l with
  | none =>
    cases hr' : longestRun l' with
    | none =>
      rw [parts, hru, parts, hr'] at h
      exact map_injective_iff.mpr (fun _ _ => hexText_inj) h
    | some run => exact absurd h (hb hru hr')
  | some run =>
    cases hr' : longestRun l' with
    | none => exact absurd h.symm (hb hr' hru)
    | some run' =>
      obtain ⟨i, n⟩ := run
      obtain ⟨i', n'⟩ := run'
      rw [parts, hru, parts, hr'] at h
      obtain ⟨hle, hr⟩ := orBlank_append_inj h
      have hr := orBlank_inj hr
      -- the same groups on both sides leave the same number of zeros
      have hl := eq_of_longestRun hru
      have hl' := eq_of_longestRun hr'
      have hn : n = n' := by grind
      rw [hl, hl', hle, hr, hn]

/-- No part has a colon. -/
theorem colon_notMem_parts (l : List Nat) : ∀ s ∈ parts l, ':' ∉ s.toList := by
  have hh : ∀ (l : List Nat), ∀ s ∈ l.map hexText, ':' ∉ s.toList := by
    intro l s hs hc
    obtain ⟨n, -, rfl⟩ := mem_map.mp hs
    obtain ⟨d, hd, hch⟩ := mem_digits (b := 16) (by decide) (by simpa [hexText] using hc)
    have ha : ∀ d < 16, ':' ≠ Nat.digitChar d := by decide
    exact ha d hd hch
  have ho : ∀ (l : List Nat), ∀ s ∈ orBlank (l.map hexText), ':' ∉ s.toList := by
    intro l s hs
    rw [orBlank] at hs
    split at hs
    · rw [mem_singleton.mp hs]
      simp
    · exact hh l s hs
  intro s hs
  rw [parts] at hs
  split at hs
  · exact hh l s hs
  rcases mem_append.mp hs with hs | hs
  · exact ho _ s hs
  · rcases mem_cons.mp hs with rfl | hs
    · simp
    · exact ho _ s hs

theorem parts_ne_nil (hl : l ≠ []) : parts l ≠ [] := by
  rw [parts]
  split
  · simpa using hl
  · simp

end

/-- The text of an IPv6 address determines it. -/
theorem textV6_inj (ha : ¬ Addr.Mapped a) (hb : ¬ Addr.Mapped b)
    (h : textV6 a = textV6 b) : a = b := by
  have hn : ∀ a : BitVec 128, groups a ≠ [] := by
    intro a hnil
    have hl := length_groups a
    rw [hnil] at hl
    cases hl
  rw [textV6_eq ha, textV6_eq hb] at h
  have hp := intercalate_inj_of_ne_nil rfl (colon_notMem_parts _) (colon_notMem_parts _)
    (parts_ne_nil (hn a)) (parts_ne_nil (hn b)) h
  exact groups_inj (parts_inj (by rw [length_groups, length_groups]) hp)

/-! ## Addresses -/

/-- A digit of a number, which stands in no other place. -/
def IsHexDigit (c : Char) : Prop := ∃ d < 16, c = Nat.digitChar d

/-- The characters of an IPv4 address's text. -/
theorem mem_textV4 (h : c ∈ (textV4 a).toList) : c = '.' ∨ IsHexDigit c := by
  rw [textV4_eq] at h
  rcases mem_intercalate h with h | ⟨s, hs, h⟩
  · exact .inl (by simpa using h)
  obtain ⟨n, -, rfl⟩ := mem_map.mp hs
  obtain ⟨d, hd, hc⟩ := mem_digits (b := 10) (n := n) (by decide)
    (by simpa [Nat.toString_eq_repr] using h)
  exact .inr ⟨d, by omega, hc⟩

/-- A dot tells IPv4 from IPv6. -/
theorem dot_mem_textV4 (a : BitVec 32) : '.' ∈ (textV4 a).toList := by
  rw [textV4_eq]
  simp [octets, range_succ]

/-- The characters of an IPv6 address's text. -/
theorem mem_textV6 (ha : ¬ Addr.Mapped a) (h : c ∈ (textV6 a).toList) : c = ':' ∨ IsHexDigit c := by
  have hh : ∀ (l : List Nat), ∀ s ∈ l.map hexText, c ∈ s.toList → IsHexDigit c := by
    intro l s hs hc
    obtain ⟨n, -, rfl⟩ := mem_map.mp hs
    exact mem_digits (b := 16) (n := n) (by decide) (by simpa [hexText] using hc)
  rw [textV6, if_neg ha] at h
  have hj : ∀ l : List Nat, c ∈ (":".intercalate (l.map hexText)).toList →
      c = ':' ∨ IsHexDigit c := by
    intro l hc
    rcases mem_intercalate hc with hc | ⟨s, hs, hc⟩
    · exact .inl (by simpa using hc)
    · exact .inr (hh l s hs hc)
  split at h
  · exact hj _ h
  rw [String.toList_append, String.toList_append, mem_append, mem_append] at h
  rcases h with (h | h) | h
  · exact hj _ h
  · exact .inl (by simpa using h)
  · exact hj _ h

/-- An address in one of its two plain forms. -/
def Addr.Plain (a : Addr) : Prop := a.isValid = true ∧ a.zone = "" ∧ a.unmap = a

/-- An unmapped address without a zone is plain. -/
theorem plain_unmap {a : Addr} (hv : a.isValid) (hz : a.zone = "") : a.unmap.Plain := by
  refine ⟨?_, ?_, a.unmap_unmap⟩
  · cases a with
    | zero => cases hv
    | v4 b => rfl
    | v6 b zone =>
      rw [unmap]
      split <;> rfl
  · cases a with
    | zero => rfl
    | v4 b => rfl
    | v6 b zone =>
      rw [unmap]
      split
      · rfl
      · exact hz

/-- What parses is valid. -/
theorem isValid_of_parseAddr (h : parseAddr s = some a) : a.isValid := by
  have hm : ∀ {x : Option (List Nat)} {zone : List Char},
      x.map (fun bytes => v6 (ofBytes 128 bytes) (String.ofList zone)) = some a → a.isValid := by
    intro x zone hx
    obtain ⟨bytes, -, rfl⟩ := Option.map_eq_some_iff.mp hx
    rfl
  rw [parseAddr] at h
  split at h
  · obtain ⟨fields, -, rfl⟩ := Option.map_eq_some_iff.mp h
    rfl
  · rw [parseIPv6] at h
    split at h
    · cases h
    split at h
    · cases h
      rfl
    · exact hm h
    · exact hm h
  · cases h

theorem Addr.Plain.cases {a : Addr} (h : a.Plain) :
    (∃ b, a = .v4 b) ∨ ∃ b, a = .v6 b "" ∧ ¬ Addr.Mapped b := by
  obtain ⟨hv, hz, hu⟩ := h
  cases a with
  | zero => cases hv
  | v4 b => exact .inl ⟨b, rfl⟩
  | v6 b zone =>
    refine .inr ⟨b, by rw [show zone = "" from hz], fun hm => ?_⟩
    rw [unmap, if_pos hm] at hu
    cases hu

/-- What the text of an address is written with. -/
theorem Addr.Plain.mem_text {a : Addr} (h : a.Plain) (hc : c ∈ a.text.toList) :
    c = '.' ∨ c = ':' ∨ IsHexDigit c := by
  rcases h.cases with ⟨b, rfl⟩ | ⟨b, rfl, hb⟩
  · exact (mem_textV4 hc).imp_right .inr
  · exact .inr (mem_textV6 hb (by simpa [text] using hc))

/-- **The text tells the address.** -/
theorem Addr.text_inj {a b : Addr} (ha : a.Plain) (hb : b.Plain) (h : a.text = b.text) : a = b := by
  -- only IPv4 addresses are written with dots
  have hn : ∀ {a : BitVec 32} {b : BitVec 128}, ¬ Addr.Mapped b → textV4 a ≠ textV6 b := by
    intro a b hb h
    have hdo := dot_mem_textV4 a
    rw [h] at hdo
    rcases mem_textV6 hb hdo with hdo | ⟨d, hd, hdo⟩
    · exact absurd hdo (by decide)
    · have hal : ∀ d < 16, '.' ≠ Nat.digitChar d := by decide
      exact hal d hd hdo
  have hte : ∀ b : BitVec 128, text (.v6 b "") = textV6 b := by
    intro b
    simp [text]
  rcases ha.cases with ⟨a, rfl⟩ | ⟨a, rfl, hma⟩
  · rcases hb.cases with ⟨b, rfl⟩ | ⟨b, rfl, hm⟩
    · exact congrArg v4 (textV4_inj h)
    · rw [hte] at h
      exact absurd h (hn hm)
  · rcases hb.cases with ⟨b, rfl⟩ | ⟨b, rfl, hm⟩
    · rw [hte] at h
      exact absurd h.symm (hn hma)
    · rw [hte, hte] at h
      rw [textV6_inj hma hm h]

end Netip

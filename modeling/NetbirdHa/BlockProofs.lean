import NetbirdHa.NetipProofs
import Mathlib.Data.List.Chain

/-! # Blocks of words

A block is a word with a number of leading bits.  It holds the words that agree
with it there, so two blocks that share a word are nested.

Blocks that are sorted by their word, the longer one first, are merged in one
pass that only looks at the last block kept (`merge`).  The pass loses words in
two ways:

* a wide block that starts where a narrow one starts comes after it and is
  taken for a part of it;
* a block whose word is not its first one counts from that word on, and takes the
  place of the block before it.

`merge_covers_iff` says that nothing else can go wrong. -/

namespace Netip

variable {w bits : Nat} {a b : BitVec w}

/-- Agreement on the leading bits, as equal quotients. -/
theorem agree_iff_div : Agree bits a b ↔ a.toNat / 2 ^ (w - bits) = b.toNat / 2 ^ (w - bits) := by
  rw [Agree, BitVec.ushiftRight_xor_distrib, BitVec.ofNat_eq_ofNat, BitVec.xor_eq_zero_iff,
    ← BitVec.toNat_inj, BitVec.toNat_ushiftRight, BitVec.toNat_ushiftRight,
    Nat.shiftRight_eq_div_pow, Nat.shiftRight_eq_div_pow]

theorem Agree.refl (bits : Nat) (a : BitVec w) : Agree bits a a := agree_iff_div.mpr rfl

theorem Agree.symm (h : Agree bits a b) : Agree bits b a :=
  agree_iff_div.mpr (agree_iff_div.mp h).symm

/-- Agreement is transitive. -/
theorem Agree.trans (h : Agree bits a b) (h' : Agree bits b c) : Agree bits a c :=
  agree_iff_div.mpr ((agree_iff_div.mp h).trans (agree_iff_div.mp h'))

/-- Words that agree in more bits agree in fewer. -/
theorem Agree.mono (hl : bits ≤ bits') (h : Agree bits' a b) : Agree bits a b := by
  rw [agree_iff] at h ⊢
  intro i hi
  exact h i (by omega)

/-- The words between two that agree agree with them. -/
theorem Agree.between (h : Agree bits a c) (ha : a ≤ b) (hb : b ≤ c) : Agree bits a b := by
  rw [agree_iff_div] at h ⊢
  have h1 := Nat.div_le_div_right (c := 2 ^ (w - bits)) (BitVec.le_def.mp ha)
  have h2 := Nat.div_le_div_right (c := 2 ^ (w - bits)) (BitVec.le_def.mp hb)
  omega

/-- Masking clears the host bits. -/
theorem toNat_mask (bits : Nat) (a : BitVec w) :
    (mask bits a).toNat = a.toNat / 2 ^ (w - bits) * 2 ^ (w - bits) := by
  have hl : a.toNat / 2 ^ (w - bits) * 2 ^ (w - bits) ≤ a.toNat := Nat.div_mul_le_self _ _
  rw [mask, BitVec.toNat_shiftLeft, BitVec.toNat_ushiftRight, Nat.shiftRight_eq_div_pow,
    Nat.shiftLeft_eq, Nat.mod_eq_of_lt (Nat.lt_of_le_of_lt hl a.isLt)]

/-- The masked word is the first that agrees. -/
theorem mask_le (h : Agree bits a x) : mask bits a ≤ x := by
  rw [BitVec.le_def, toNat_mask, agree_iff_div.mp h]
  exact Nat.div_mul_le_self _ _

/-- The last word that agrees has ones in the other bits. -/
theorem le_or_hostMask (h : Agree bits a x) : x ≤ a ||| (BitVec.allOnes w >>> bits) := by
  have ho : x ||| (a ||| (BitVec.allOnes w >>> bits)) = a ||| (BitVec.allOnes w >>> bits) := by
    ext i hi
    simp only [BitVec.getElem_or, BitVec.getElem_ushiftRight, BitVec.getLsbD_allOnes]
    by_cases hl : bits + i < w
    · simp [hl]
    · have hb := agree_iff.mp h i (by omega)
      rw [BitVec.getLsbD_eq_getElem hi, BitVec.getLsbD_eq_getElem hi] at hb
      simp [hl, hb]
  rw [BitVec.le_def, ← ho]
  exact Nat.left_le_or

/-- Setting host bits leaves the network bits. -/
theorem agree_or_hostMask (bits : Nat) (a : BitVec w) :
    Agree bits a (a ||| (BitVec.allOnes w >>> bits)) := by
  grind [Agree]

/-- Equal networks are agreement. -/
theorem mask_eq_iff : mask bits a = mask bits b ↔ Agree bits a b := by
  constructor
  · intro h
    have ha : Agree bits (mask bits a) b := h ▸ agree_mask.mpr (Agree.refl bits b)
    exact agree_mask.mp ha
  · intro h
    rw [← BitVec.toNat_inj, toNat_mask, toNat_mask, agree_iff_div.mp h]

/-- An address is in a prefix if the prefix of that length around it is the same. -/
theorem Prefix.holds_iff_masked {p : Prefix} (hp : p ≠ .invalid) (x : Addr) :
    p.Holds x ↔ p.masked = (ofAddr x p.bits.toNat).masked := by
  cases p with
  | invalid => exact absurd rfl hp
  | v4 a bits =>
    cases x with
    | zero => exact iff_of_false id fun h => nomatch h
    | v4 b => grind [mask_eq_iff, Prefix.Holds, masked, ofAddr, bits]
    | v6 b zone => grind [Prefix.Holds, masked, ofAddr]
  | v6 a bits =>
    cases x with
    | zero => exact iff_of_false id (by rintro ⟨⟩)
    | v4 b =>
      show False ↔ _ = (ofAddr (.v4 b) bits.val).masked
      refine iff_of_false id fun h => ?_
      rw [ofAddr] at h
      split at h <;> cases h
    | v6 b zone => grind [mask_eq_iff, Prefix.Holds, masked, ofAddr, bits]

end Netip

namespace Blocks

open Netip List BitVec Nat Agree Prefix

/-- A word and the number of its bits that count. -/
structure Block (w : Nat) where
  addr : BitVec w
  bits : Nat
deriving DecidableEq

variable {w : Nat} {p q k : Block w}

namespace Block

/-- The address is in the block. -/
def Holds (p : Block w) (x : BitVec w) : Prop := Agree p.bits p.addr x
deriving Decidable

/-- The word of the block is its first one. -/
def Aligned (p : Block w) : Prop := mask p.bits p.addr = p.addr

/-- By the word, then the longer one first. -/
def Le (p q : Block w) : Prop := p.addr < q.addr ∨ p.addr = q.addr ∧ q.bits ≤ p.bits

/-- No longer block of the list has the same word. -/
def Longest (l : List (Block w)) (p : Block w) : Prop := ∀ q ∈ l, q.addr = p.addr → q.bits ≤ p.bits

/-- A block holds its own address. -/
theorem holds_addr (p : Block w) : p.Holds p.addr := refl _ _

theorem Le.addr (h : p.Le q) : p.addr ≤ q.addr := by
  rcases h with h | ⟨h, -⟩
  · exact BitVec.le_of_lt h
  · rw [h]
    exact BitVec.le_refl _

/-- The order of blocks is antisymmetric. -/
theorem Le.antisymm (h : p.Le q) (h' : q.Le p) : p = q := by
  obtain ⟨a, m⟩ := p
  obtain ⟨b, n⟩ := q
  simp only [Le, lt_def] at h h'
  grind

/-- An aligned block starts at its lowest address. -/
theorem Aligned.le (h : p.Aligned) (hx : p.Holds x) : p.addr ≤ x := by
  have := mask_le hx
  rwa [h] at this

/-- A block is aligned unless it holds the word before its own. -/
theorem aligned_of_least (h : ∀ x, p.Holds x → p.addr ≤ x) : p.Aligned := by
  have hm : Agree p.bits p.addr (mask p.bits p.addr) := (agree_mask.mpr (refl _ _)).symm
  exact BitVec.le_antisymm (mask_le (refl _ _)) (h _ hm)

/-- Blocks that share a word are nested: the shorter one holds the longer one. -/
theorem Holds.of_shared (hb : p.bits ≤ q.bits) (hp : p.Holds x) (hq : q.Holds x)
    (hy : q.Holds y) : p.Holds y :=
  trans hp (mono hb (trans (symm hq) hy))

end Block

/-! ## The pass -/

/-- The blocks kept after `last`: one that starts in the last block kept is skipped,
    one that holds the start of the last block takes its place. -/
def merge (last : Block w) : List (Block w) → List (Block w)
  | [] => [last]
  | p :: rest =>
    if last.Holds p.addr then merge last rest
    else if p.Holds last.addr then merge p rest
    else last :: merge p rest

/-- Every block that was the last one kept at some time. -/
def lasts (last : Block w) : List (Block w) → List (Block w)
  | [] => [last]
  | p :: rest => if last.Holds p.addr then lasts last rest else last :: lasts p rest

/-- The first block ends before the second one starts. -/
def Before (p q : Block w) : Prop := p.addr < q.addr ∧ ¬ p.Holds q.addr

/-- The blocks that were last at some time are among the input. -/
theorem lasts_sublist (last : Block w) (rest : List (Block w)) :
    (lasts last rest).Sublist (last :: rest) := by
  induction rest generalizing last with
  | nil => exact List.Sublist.refl _
  | cons p rest ih =>
    rw [lasts]
    split
    · exact (ih last).trans (List.Sublist.cons_cons _ (sublist_cons_self _ _))
    · exact List.Sublist.cons_cons _ (ih p)

/-- The merged blocks are among them. -/
theorem merge_sublist_lasts (last : Block w) (rest : List (Block w)) :
    (merge last rest).Sublist (lasts last rest) := by
  induction rest generalizing last with
  | nil => exact List.Sublist.refl _
  | cons p rest ih =>
    rw [merge, lasts]
    split
    · exact ih last
    split
    · exact List.Sublist.cons _ (ih p)
    · exact List.Sublist.cons_cons _ (ih p)

theorem mem_of_mem_lasts {rest : List (Block w)} {last : Block w} (h : k ∈ lasts last rest) :
    k ∈ last :: rest :=
  (lasts_sublist last rest).subset h

theorem mem_lasts_of_mem_merge {rest : List (Block w)} {last : Block w}
    (h : k ∈ merge last rest) : k ∈ lasts last rest :=
  (merge_sublist_lasts last rest).subset h

/-- In a sorted list, the first block that starts outside of the last one ends the
    stretch of the last one: so do all that come after it. -/
theorem before_of_outside (hl : last.Le p) (ho : ¬ last.Holds p.addr)
    (hp : p.addr ≤ k.addr) : Before last k := by
  have hn : last.addr ≠ p.addr := fun h => ho (h ▸ last.holds_addr)
  have hlt : last.addr < p.addr := by
    have := hl.addr
    simp only [le_def, lt_def, ne_eq, ← toNat_inj] at this hn ⊢
    omega
  refine ⟨?_, fun hk => ho (between hk hl.addr hp)⟩
  simp only [le_def, lt_def] at hlt hp ⊢
  omega

section

variable {last : Block w} {rest : List (Block w)}

/-- The first block of a sorted list starts lowest. -/
theorem head_le_of_mem (hs : (p :: rest).Pairwise Block.Le)
    (hk : k ∈ p :: rest) : p.addr ≤ k.addr := by
  rcases mem_cons.mp hk with rfl | hk
  · exact BitVec.le_refl _
  · exact (rel_of_pairwise_cons hs hk).addr

/-- A sorted list stays sorted without its second block. -/
theorem pairwise_skip (hs : (last :: p :: rest).Pairwise Block.Le) :
    (last :: rest).Pairwise Block.Le :=
  hs.sublist (List.Sublist.cons_cons _ (sublist_cons_self _ _))

theorem self_mem_lasts : last ∈ lasts last rest := by
  induction rest with
  | nil => exact mem_singleton_self _
  | cons p rest ih =>
    rw [lasts]
    split
    · exact ih
    · exact mem_cons_self

variable (hs : (last :: rest).Pairwise Block.Le)

include hs

/-- The blocks that were kept at some time follow each other without a common word. -/
theorem pairwise_lasts : (lasts last rest).Pairwise Before := by
  induction rest generalizing last with
  | nil => exact pairwise_singleton _ _
  | cons p rest ih =>
    rw [lasts]
    split
    · exact ih (pairwise_skip hs)
    rename_i ho
    refine pairwise_cons.mpr ⟨fun k hk => ?_, ih hs.of_cons⟩
    have hl : last.Le p := rel_of_pairwise_cons hs mem_cons_self
    exact before_of_outside hl ho (head_le_of_mem hs.of_cons (mem_of_mem_lasts hk))

/-- Every block starts in one that was kept, and that came no later. -/
theorem exists_lasts_holds (hp : p ∈ last :: rest) :
    ∃ k ∈ lasts last rest, k.Le p ∧ k.Holds p.addr := by
  have hse : ∀ q : Block w, q.Le q := fun q => .inr ⟨rfl, le_refl _⟩
  induction rest generalizing last with
  | nil =>
    obtain rfl := mem_singleton.mp hp
    exact ⟨p, mem_singleton_self _, hse p, p.holds_addr⟩
  | cons q rest ih =>
    rw [lasts]
    split
    · next hi =>
      rcases mem_cons.mp hp with rfl | hp
      · exact ih (pairwise_skip hs) mem_cons_self
      rcases mem_cons.mp hp with rfl | hp
      -- the skipped block starts in the last one
      · exact ⟨last, self_mem_lasts, rel_of_pairwise_cons hs mem_cons_self, hi⟩
      · exact ih (pairwise_skip hs) (mem_cons_of_mem _ hp)
    · rcases mem_cons.mp hp with rfl | hp
      · exact ⟨p, mem_cons_self, hse p, p.holds_addr⟩
      · obtain ⟨k, hk, h⟩ := ih hs.of_cons hp
        exact ⟨k, mem_cons_of_mem _ hk, h⟩

/-- A word is after the start of at most one block kept that holds it. -/
theorem eq_of_holds (hk : k ∈ lasts last rest) (hk' : k' ∈ lasts last rest)
    (hl : k.addr ≤ k'.addr) (hh : k.Holds k'.addr) : k = k' := by
  by_contra hne
  have hsy : Std.Symm (fun p q : Block w => Before p q ∨ Before q p) := ⟨fun _ _ => Or.symm⟩
  have hp : (lasts last rest).Pairwise (fun p q => Before p q ∨ Before q p) :=
    (pairwise_lasts hs).imp .inl
  rcases hp.forall hk hk' hne with h | h
  · exact h.2 hh
  · have := h.1
    simp only [le_def, lt_def] at hl this
    omega

/-- If no block that was kept is given up again, then none starts in its successor. -/
theorem not_holds_of_stay (hst : ∀ k ∈ lasts last rest, k ∈ merge last rest)
    (hk : k ∈ lasts last rest) (hk' : k' ∈ lasts last rest) (hlt : k'.addr < k.addr)
    (hn : ∀ m ∈ lasts last rest, k'.addr < m.addr → k.addr ≤ m.addr) : ¬ k.Holds k'.addr := by
  induction rest generalizing last with
  | nil =>
    obtain rfl := mem_singleton.mp hk
    obtain rfl := mem_singleton.mp hk'
    exact absurd hlt (BitVec.lt_irrefl _)
  | cons p rest ih =>
    have hl : last.Le p := rel_of_pairwise_cons hs mem_cons_self
    rw [lasts] at hk hk' hn hst
    rw [merge] at hst
    by_cases hi : last.Holds p.addr
    · rw [if_pos hi] at hk hk' hn
      rw [if_pos hi, if_pos hi] at hst
      exact ih (pairwise_skip hs) hst hk hk' hn
    rw [if_neg hi] at hk hk' hn
    rw [if_neg hi, if_neg hi] at hst
    -- everything after `last` starts after it, so it is not met again
    have ha : ∀ m ∈ lasts p rest, Before last m := fun m hm =>
      before_of_outside hl hi (head_le_of_mem hs.of_cons (mem_of_mem_lasts hm))
    have hne : ∀ m ∈ lasts p rest, m ≠ last := fun m hm h =>
      absurd (h ▸ (ha m hm).1) (BitVec.lt_irrefl _)
    have hg : ¬ p.Holds last.addr := by
      intro hb
      have := hst last mem_cons_self
      rw [if_pos hb] at this
      exact hne last (mem_lasts_of_mem_merge this) rfl
    rw [if_neg hg] at hst
    have hs' : ∀ m ∈ lasts p rest, m ∈ merge p rest := fun m hm =>
      (mem_cons.mp (hst m (mem_cons_of_mem _ hm))).resolve_left (hne m hm)
    rcases mem_cons.mp hk' with rfl | hk'p
    · -- the successor of `last` is `p`
      have hkp : k ∈ lasts p rest :=
        (mem_cons.mp hk).resolve_left fun h => absurd (h ▸ hlt) (BitVec.lt_irrefl _)
      have hle := hn p (mem_cons_of_mem _ self_mem_lasts) (ha p self_mem_lasts).1
      have had : p.addr = k.addr :=
        BitVec.le_antisymm (head_le_of_mem hs.of_cons (mem_of_mem_lasts hkp)) hle
      have hp : p = k := eq_of_holds hs.of_cons self_mem_lasts hkp (had ▸ BitVec.le_refl _)
        (had ▸ p.holds_addr)
      exact hp ▸ hg
    · have hkp : k ∈ lasts p rest := by
        rcases mem_cons.mp hk with rfl | h
        · have := (ha k' hk'p).1
          simp only [lt_def] at this hlt
          omega
        · exact h
      exact ih hs.of_cons hs' hkp hk'p fun m hm => hn m (mem_cons_of_mem _ hm)

/-- Aligned blocks never take another's place. -/
theorem merge_eq_lasts
    (h : ∀ k ∈ lasts last rest, k.Aligned) : merge last rest = lasts last rest := by
  induction rest generalizing last with
  | nil => rfl
  | cons p rest ih =>
    have hl : last.Le p := rel_of_pairwise_cons hs mem_cons_self
    rw [lasts] at h
    rw [merge, lasts]
    by_cases hi : last.Holds p.addr
    · rw [if_pos hi] at h
      rw [if_pos hi, if_pos hi]
      exact ih (pairwise_skip hs) h
    rw [if_neg hi] at h
    have hp : p.Aligned := h p (mem_cons_of_mem _ self_mem_lasts)
    have hb : ¬ p.Holds last.addr := by
      intro hb
      have h1 := hp.le hb
      have h2 := (before_of_outside hl hi (BitVec.le_refl _)).1
      simp only [BitVec.le_def, BitVec.lt_def] at h1 h2
      omega
    rw [if_neg hi, if_neg hb, if_neg hi, ih hs.of_cons]
    exact fun k hk => h k (mem_cons_of_mem _ hk)

/-- What a list of blocks holds. -/
def Held (l : List (Block w)) (x : BitVec w) : Prop := ∃ p ∈ l, p.Holds x

/-- An aligned block that is the longest at its word lies in one that was kept. -/
theorem exists_lasts_of_longest (hp : p ∈ last :: rest)
    (ha : p.Aligned) (hl : p.Longest (last :: rest)) :
    ∃ k ∈ lasts last rest, k.Le p ∧ ∀ x, p.Holds x → k.Holds x := by
  obtain ⟨k, hk, hle, hh⟩ := exists_lasts_holds hs hp
  refine ⟨k, hk, hle, fun x hx => ?_⟩
  have hb : k.bits ≤ p.bits := by
    by_contra hlt
    -- a longer `k` would lie in `p` and start where `p` starts
    have hpk : p.Holds k.addr := mono (by omega : p.bits ≤ k.bits) (symm hh)
    have had : k.addr = p.addr := BitVec.le_antisymm hle.addr (ha.le hpk)
    exact hlt (hl k (mem_of_mem_lasts hk) had)
  exact hh.of_shared hb p.holds_addr hx

/-- If the aligned blocks that are the longest at their word hold everything, then
    only such blocks were kept. -/
theorem aligned_of_mem_lasts (h : ∀ x, Held (last :: rest) x →
      ∃ p ∈ last :: rest, p.Aligned ∧ p.Longest (last :: rest) ∧ p.Holds x)
    (hk : k ∈ lasts last rest) : k.Aligned := by
  obtain ⟨p, hp, ha, hl, hh⟩ := h k.addr ⟨k, mem_of_mem_lasts hk, k.holds_addr⟩
  obtain ⟨k', hk', hle, hsu⟩ := exists_lasts_of_longest hs hp ha hl
  have hpk := ha.le hh
  have hkk : k' = k := eq_of_holds hs hk' hk (BitVec.le_trans hle.addr hpk) (hsu _ hh)
  subst hkk
  -- `k` and `p` start at one word, so they are the same block
  have had : k'.addr = p.addr := BitVec.le_antisymm hle.addr hpk
  have hb := hl k' (mem_of_mem_lasts hk) had
  have hkp : k' = p := hle.antisymm (.inr ⟨had.symm, hb⟩)
  exact hkp ▸ ha

/-- The words that the merged blocks hold from their own word on are those of all the blocks iff
    each of these is held by an aligned block with no longer one at its word. -/
theorem merge_covers_iff :
    (∀ x, Held (last :: rest) x → ∃ k ∈ merge last rest, k.addr ≤ x ∧ k.Holds x) ↔
      ∀ x, Held (last :: rest) x →
        ∃ p ∈ last :: rest, p.Aligned ∧ p.Longest (last :: rest) ∧ p.Holds x := by
  constructor
  · intro hc x hx
    have hi : ∀ {k}, k ∈ merge last rest → k ∈ last :: rest :=
      fun hk => mem_of_mem_lasts (mem_lasts_of_mem_merge hk)
    -- a block that was kept holds its own word alone, so it is still there
    have hst : ∀ k ∈ lasts last rest, k ∈ merge last rest := by
      intro k hk
      obtain ⟨k', hk', hle, hh⟩ := hc k.addr ⟨k, mem_of_mem_lasts hk, k.holds_addr⟩
      exact eq_of_holds hs (mem_lasts_of_mem_merge hk') hk hle hh ▸ hk'
    obtain ⟨k, hk, hle, hh⟩ := hc x hx
    have hkl := mem_lasts_of_mem_merge hk
    refine ⟨k, hi hk, ?_, ?_, hh⟩
    · apply Block.aligned_of_least
      intro y hy
      by_contra hlt
      -- the word before `k` is held by the block before it, which starts in `k`
      have hyl : y < k.addr := BitVec.not_le.mp hlt
      obtain ⟨y', hy'⟩ : ∃ y' : BitVec w, y'.toNat + 1 = k.addr.toNat := by
        rw [BitVec.lt_def] at hyl
        refine ⟨BitVec.ofNat w (k.addr.toNat - 1), ?_⟩
        rw [toNat_ofNat, mod_eq_of_lt (by omega)]
        omega
      have hky' : k.Holds y' := by
        refine trans hy (between (symm hy) ?_ ?_)
        all_goals
          simp only [lt_def, le_def] at hyl ⊢
          omega
      obtain ⟨k', hk', hl', hh'⟩ := hc y' ⟨k, hi hk, hky'⟩
      have hk'l := mem_lasts_of_mem_merge hk'
      have hlt' : k'.addr < k.addr := by
        simp only [lt_def, le_def] at hl' ⊢
        omega
      have hn : k.Holds k'.addr := by
        refine Block.Holds.of_shared ?_ hky' hh' k'.holds_addr
        by_contra hb
        have : k'.Holds k.addr := hh'.of_shared (by omega) hky' k.holds_addr
        exact absurd (eq_of_holds hs hk'l hkl (BitVec.le_of_lt hlt') this ▸ hlt')
          (BitVec.lt_irrefl _)
      refine not_holds_of_stay hs hst hkl hk'l hlt' (fun m hm hm' => ?_) hn
      by_contra hbefore
      have hmy : m.addr ≤ y' := by
        simp only [le_def] at hbefore ⊢
        omega
      have := eq_of_holds hs hk'l hm (BitVec.le_of_lt hm') (between hh' (BitVec.le_of_lt hm') hmy)
      exact absurd (this ▸ hm') (BitVec.lt_irrefl _)
    · intro q hq ha
      -- a longer block at this word came first, and holds it
      obtain ⟨k', hk', hl', hh'⟩ := exists_lasts_holds hs hq
      have hkk : k' = k := eq_of_holds hs hk' hkl (ha ▸ hl'.addr) (ha ▸ hh')
      subst hkk
      rcases hl' with hlt | ⟨-, hb⟩
      · exact absurd (ha ▸ hlt) (BitVec.lt_irrefl _)
      · exact hb
  · intro h x hx
    obtain ⟨p, hp, hal, hl, hh⟩ := h x hx
    obtain ⟨k, hk, -, hsu⟩ := exists_lasts_of_longest hs hp hal hl
    have hall : ∀ k ∈ lasts last rest, k.Aligned := fun k hk => aligned_of_mem_lasts hs h hk
    rw [merge_eq_lasts hs hall]
    exact ⟨k, hk, (hall k hk).le (hsu x hh), hsu x hh⟩

end

end Blocks

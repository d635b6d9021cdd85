import NetbirdHa.BlockProofs
import Mathlib.Data.List.Sort

/-! # Prefixes of an nftables set

The sources of a route rule become a set of intervals.  `sortPrefixes` orders the
prefixes, `mergeIPRanges` drops those that lie in another one (overlapping
intervals are refused), and `convertPrefixesToSet` writes an interval as two
elements, its first address and the address after its last one.

The merged prefixes are blocks of four-byte words, so the pass of `Blocks` says
which addresses are lost (`mergeIPRanges_toBlock`).  What is put in the set is read
back from the elements: a key that is no address, which is what the address after
255.255.255.255 becomes, reads as nothing. -/

namespace IpSet

open Netip Blocks BitVec Prefix

/-- `nftables.SetElement`. -/
structure SetElement where
  key : List UInt8
  intervalEnd : Bool
deriving DecidableEq

/-- The comparison of `SortPrefixes`: by address, then the longer prefix first. -/
def less (p q : Prefix) : Bool :=
  match p.addr.compare q.addr with
  | .lt => true
  | .gt => false
  | .eq => decide (q.bits < p.bits)

/-- `SortPrefixes`: prefixes that compare equal are equal, so any sort gives this. -/
def sortPrefixes (prefixes : List Prefix) : List Prefix :=
  prefixes.insertionSort fun p q => less q p = false

/-- The body of the loop of `MergeIPRanges`. -/
def mergeStep (merged : List Prefix) (p : Prefix) : List Prefix :=
  match merged.getLast? with
  | none => [p]
  | some last =>
    if last.contains p.addr then merged
    else if p.contains last.addr then merged.dropLast ++ [p]
    else merged ++ [p]

/-- `MergeIPRanges`, on the sorted prefixes. -/
def mergeIPRanges : List Prefix → List Prefix
  | [] => []
  | p :: rest => rest.foldl mergeStep [p]

/-- `calculateLastIP`; none where the source panics, on a prefix that is not valid. -/
def calculateLastIP (p : Prefix) : Option Addr :=
  if p.masked.bits < 0 then none
  else
    let hostMask := BitVec.allOnes 32 >>> p.masked.bits.toNat
    p.addr.as4.map fun a => .v4 (a ||| hostMask)

/-- `convertPrefixesToSet`: each prefix opens an interval and closes it. -/
def convertPrefixesToSet : List Prefix → Option (List SetElement)
  | [] => some []
  | p :: rest =>
    if p.addr.is6 then convertPrefixesToSet rest
    else
      match calculateLastIP p with
      | none => none
      | some lastIP =>
        (convertPrefixesToSet rest).map (fun elements =>
          ⟨p.addr.asSlice, false⟩ :: ⟨lastIP.next.asSlice, true⟩ :: elements)

/-- How many prefixes one message takes. -/
def maxPrefixesSet : Nat := 1500

/-- Each prefix is two elements. -/
def maxElements : Nat := maxPrefixesSet * 2

/-- The loop over `subStart`, for at most so many rounds. -/
def subElements (elements : List SetElement) : Nat → Nat → List (List SetElement)
  | 0, _ => []
  | n + 1, subStart =>
    if subStart < elements.length then
      (elements.drop subStart).take maxElements :: subElements elements n (subStart + maxElements)
    else []

/-- `createIpSet`: the elements of `AddSet` and of each `SetAddElements`. -/
def createIpSet (prefixes : List Prefix) : Option (List (List SetElement)) :=
  (convertPrefixesToSet (mergeIPRanges prefixes)).map (fun elements =>
    elements.take maxElements :: subElements elements elements.length maxElements)

/-- The intervals that the elements of a set of IPv4 addresses stand for. -/
def intervals : List SetElement → Option (List (BitVec 32 × BitVec 32))
  | [] => some []
  | ⟨first, false⟩ :: ⟨last, true⟩ :: rest =>
    match Addr.ofSlice first, Addr.ofSlice last with
    | some (.v4 a), some (.v4 b) => (intervals rest).map ((a, b) :: ·)
    | _, _ => none
  | _ => none

/-- The elements are disjoint half-open intervals that hold the addresses of the
    prefixes and no others. -/
def Exact (prefixes : List Prefix) (elements : List SetElement) : Prop :=
  ∃ ivs, intervals elements = some ivs ∧
    ivs.Pairwise (fun i j => ∀ x, ¬ ((i.1 ≤ x ∧ x < i.2) ∧ j.1 ≤ x ∧ x < j.2)) ∧
    ∀ x, (∃ i ∈ ivs, i.1 ≤ x ∧ x < i.2) ↔ ∃ p ∈ prefixes, p.contains (.v4 x)

/-! ## The batches -/

/-- The batches put together are the elements. -/
theorem flatten_subElements (elements : List SetElement) (n subStart : Nat)
    (h : elements.length ≤ n + subStart) :
    (subElements elements n subStart).flatten = elements.drop subStart := by
  induction n generalizing subStart with
  | zero =>
    rw [List.drop_eq_nil_of_le (by omega)]
    rfl
  | succ n ih =>
    rw [subElements]
    split
    · rw [List.flatten_cons, ih _ (by simp only [maxElements, maxPrefixesSet]; omega),
        ← List.drop_drop, List.take_append_drop]
    · rw [List.drop_eq_nil_of_le (by omega)]
      rfl

variable {prefixes : List Prefix} {elements : List SetElement} {p q : Prefix} {b : Block 32}

/-- The elements are split up, none is lost. -/
theorem createIpSet_eq_some :
    (∃ batches, createIpSet prefixes = some batches ∧ batches.flatten = elements) ↔
      convertPrefixesToSet (mergeIPRanges prefixes) = some elements := by
  rw [createIpSet]
  cases convertPrefixesToSet (mergeIPRanges prefixes) with
  | none =>
    constructor
    · rintro ⟨_, h, -⟩
      cases h
    · intro h
      cases h
  | some all =>
    have ha : (all.take maxElements :: subElements all all.length maxElements).flatten = all := by
      rw [List.flatten_cons, flatten_subElements _ _ _ (by omega), List.take_append_drop]
    grind

/-! ## Prefixes as blocks -/

/-- The block of an IPv4 prefix. -/
def toBlock : Prefix → Block 32
  | .v4 a bits => ⟨a, bits.val⟩
  | _ => ⟨0, 0⟩

/-- An IPv4 prefix. -/
def Is4 (p : Prefix) : Prop := p.addr.is4 = true
deriving Decidable

theorem Is4.eq (h : Is4 p) : ∃ a bits, p = .v4 a bits := by
  cases p with
  | invalid => cases h
  | v4 a bits => exact ⟨a, bits, rfl⟩
  | v6 a bits => cases h

/-- Containment, by the block. -/
theorem Is4.contains_iff (h : Is4 p) (x : BitVec 32) :
    p.contains (.v4 x) ↔ (toBlock p).Holds x := by
  obtain ⟨a, bits, rfl⟩ := h.eq
  exact decide_eq_true_iff

theorem Is4.contains_addr_iff (hp : Is4 p) (hq : Is4 q) :
    p.contains q.addr ↔ (toBlock p).Holds (toBlock q).addr := by
  obtain ⟨b, n, rfl⟩ := hq.eq
  exact hp.contains_iff b

/-- The code's order, by the block's. -/
theorem Is4.le_iff (hp : Is4 p) (hq : Is4 q) : less q p = false ↔ (toBlock p).Le (toBlock q) := by
  obtain ⟨a, m, rfl⟩ := hp.eq
  obtain ⟨b, n, rfl⟩ := hq.eq
  show (match Ord.compare b.toNat a.toNat with
    | .lt => true | .gt => false | .eq => decide ((m.val : Int) < n.val)) = false ↔ _
  simp only [toBlock, Block.Le, lt_def]
  cases h : Ord.compare b.toNat a.toNat with
  | lt => grind
  | eq =>
    rw [Nat.compare_eq_eq] at h
    have ha : a = b := (toNat_inj.mp h).symm
    subst ha
    simp
  | gt =>
    rw [Nat.compare_eq_gt] at h
    simp [h]

instance : DecidableRel (Block.Le (w := 32)) := fun p q =>
  inferInstanceAs (Decidable (p.addr < q.addr ∨ p.addr = q.addr ∧ q.bits ≤ p.bits))

theorem pairwise_insertionSort_le (l : List (Block 32)) :
    (l.insertionSort Block.Le).Pairwise Block.Le := by
  have hto : Std.Total (Block.Le (w := 32)) := ⟨fun p q => by
    simp only [Block.Le, lt_def, ← toNat_inj]
    omega⟩
  have htr : IsTrans (Block 32) Block.Le := ⟨fun p q r => by
    simp only [Block.Le, lt_def, ← toNat_inj]
    omega⟩
  exact List.pairwise_insertionSort _ l

/-- The loop leaves everything but the last prefix kept as it is. -/
theorem foldl_mergeStep (front : List Prefix) (last : Prefix) (rest : List Prefix)
    (h4 : ∀ p ∈ last :: rest, Is4 p) :
    ∃ back, rest.foldl mergeStep (front ++ [last]) = front ++ back ∧ (∀ p ∈ back, Is4 p) ∧
      back.map toBlock = merge (toBlock last) (rest.map toBlock) := by
  induction rest generalizing front last with
  | nil => exact ⟨[last], rfl, h4, rfl⟩
  | cons p rest ih =>
    obtain ⟨hl, h4'⟩ := List.forall_mem_cons.mp h4
    obtain ⟨hp, hr⟩ := List.forall_mem_cons.mp h4'
    rw [List.foldl_cons, mergeStep, List.getLast?_append, List.getLast?_singleton,
      Option.some_or, List.map_cons, merge]
    dsimp only
    by_cases hi : last.contains p.addr
    · rw [if_pos hi, if_pos ((hl.contains_addr_iff hp).mp hi)]
      exact ih front last (List.forall_mem_cons.mpr ⟨hl, hr⟩)
    rw [if_neg hi, if_neg (fun h => hi ((hl.contains_addr_iff hp).mpr h))]
    by_cases hb : p.contains last.addr
    · rw [if_pos hb, if_pos ((hp.contains_addr_iff hl).mp hb), List.dropLast_concat]
      exact ih front p (List.forall_mem_cons.mpr ⟨hp, hr⟩)
    rw [if_neg (fun h => hb ((hp.contains_addr_iff hl).mpr h))]
    obtain ⟨back, he, h4', hm⟩ := ih (front ++ [last]) p (List.forall_mem_cons.mpr ⟨hp, hr⟩)
    grind

/-- The merged prefixes are the merged blocks. -/
theorem mergeIPRanges_toBlock (p : Prefix) (rest : List Prefix) (h4 : ∀ q ∈ p :: rest, Is4 q) :
    (∀ q ∈ mergeIPRanges (p :: rest), Is4 q) ∧
      (mergeIPRanges (p :: rest)).map toBlock = merge (toBlock p) (rest.map toBlock) := by
  obtain ⟨back, he, h4', hm⟩ := foldl_mergeStep [] p rest h4
  rw [show mergeIPRanges (p :: rest) = back from he]
  exact ⟨h4', hm⟩

/-! ## Intervals -/

/-- The last address of a block. -/
def lastOf (b : Block 32) : BitVec 32 := b.addr ||| (BitVec.allOnes 32 >>> b.bits)

/-- The last address, by the block's. -/
theorem Is4.calculateLastIP (h : Is4 p) : calculateLastIP p = some (.v4 (lastOf (toBlock p))) := by
  obtain ⟨a, bits, rfl⟩ := h.eq
  have hb : ¬ (v4 a bits).masked.bits < 0 := Int.not_lt.mpr (Int.natCast_nonneg _)
  rw [IpSet.calculateLastIP, if_neg hb]
  rfl

/-- From its own address on, a block holds the addresses up to the last one. -/
theorem holds_iff_le_lastOf (hl : b.addr ≤ x) : b.Holds x ↔ x ≤ lastOf b := by
  constructor
  · exact le_or_hostMask
  · exact fun h => Agree.between (agree_or_hostMask _ _) hl h

section

/-- An address of the interval of a block that does not end at the top. -/
theorem mem_interval_iff (hto : lastOf b ≠ BitVec.allOnes 32) :
    b.addr ≤ x ∧ x < lastOf b + 1 ↔ b.addr ≤ x ∧ b.Holds x := by
  refine and_congr_right fun hl => ?_
  rw [holds_iff_le_lastOf hl, lt_def, le_def]
  have hn : (lastOf b).toNat ≠ 2 ^ 32 - 1 := fun h =>
    hto (toNat_inj.mp (h.trans toNat_allOnes.symm))
  have ho : (1 : BitVec 32).toNat = 1 := rfl
  rw [toNat_add, ho]
  omega

/-- A masked prefix is an aligned block. -/
theorem Is4.masked_iff (h : Is4 p) : p.masked = p ↔ (toBlock p).Aligned := by
  obtain ⟨a, bits, rfl⟩ := h.eq
  show v4 (mask bits.val a) bits = v4 a bits ↔ mask bits.val a = a
  rw [v4.injEq, and_iff_left rfl]

theorem Is4.longest_iff (hp : Is4 p) (hq : Is4 q) : (q.addr = p.addr → q.bits ≤ p.bits) ↔
    ((toBlock q).addr = (toBlock p).addr → (toBlock q).bits ≤ (toBlock p).bits) := by
  obtain ⟨a, m, rfl⟩ := hp.eq
  obtain ⟨b, n, rfl⟩ := hq.eq
  show (Addr.v4 b = Addr.v4 a → (n.val : Int) ≤ m.val) ↔ (b = a → n.val ≤ m.val)
  rw [Addr.v4.injEq, Int.ofNat_le]

/-- Blocks that follow each other give disjoint intervals. -/
theorem disjoint_of_before (h : Before b c) (hb : lastOf b ≠ BitVec.allOnes 32)
    (x : BitVec 32) : ¬ ((b.addr ≤ x ∧ x < lastOf b + 1) ∧ c.addr ≤ x ∧ x < lastOf c + 1) := by
  rintro ⟨hx, hc, -⟩
  obtain ⟨-, hh⟩ := (mem_interval_iff hb).mp hx
  exact h.2 (Agree.between hh (BitVec.le_of_lt h.1) hc)

variable (h4 : ∀ p ∈ prefixes, Is4 p)

include h4

/-- The elements of prefixes that end before 255.255.255.255. -/
theorem intervals_convert (h : convertPrefixesToSet prefixes = some elements) : intervals elements =
    if ∃ b ∈ prefixes.map toBlock, lastOf b = BitVec.allOnes 32 then none
    else some ((prefixes.map toBlock).map (fun b => (b.addr, lastOf b + 1))) := by
  induction prefixes generalizing elements with
  | nil =>
    cases h
    simp [intervals]
  | cons p rest ih =>
    have hp := h4 p List.mem_cons_self
    obtain ⟨a, bits, rfl⟩ := hp.eq
    rw [convertPrefixesToSet, hp.calculateLastIP] at h
    obtain ⟨tail, hta, rfl⟩ := Option.map_eq_some_iff.mp h
    have hf : Addr.ofSlice (v4 a bits).addr.asSlice = some (.v4 a) := ofSlice_asSlice a
    have hr := ih (fun q hq => h4 q (List.mem_cons_of_mem _ hq)) hta
    rw [List.map_cons, intervals, hf, Addr.next]
    by_cases hto : lastOf (toBlock (.v4 a bits)) = BitVec.allOnes 32
    · -- the key of the end is empty
      rw [if_pos hto, if_pos ⟨_, List.mem_cons_self, hto⟩]
      rfl
    rw [if_neg hto, ofSlice_asSlice, hr]
    by_cases ha : ∃ b ∈ rest.map toBlock, lastOf b = BitVec.allOnes 32
    · obtain ⟨b, hb, hbt⟩ := ha
      rw [if_pos ⟨b, hb, hbt⟩, if_pos ⟨b, List.mem_cons_of_mem _ hb, hbt⟩]
      rfl
    rw [if_neg ha, if_neg]
    · rfl
    · rintro ⟨b, hb, hbt⟩
      rcases List.mem_cons.mp hb with rfl | hb
      · exact hto hbt
      · exact ha ⟨b, hb, hbt⟩

/-- IPv4 prefixes are always converted. -/
theorem convertPrefixesToSet_isSome :
    ∃ elements, convertPrefixesToSet prefixes = some elements := by
  induction prefixes with
  | nil => exact ⟨[], rfl⟩
  | cons p rest ih =>
    have hp := h4 p List.mem_cons_self
    obtain ⟨tail, hta⟩ := ih fun q hq => h4 q (List.mem_cons_of_mem _ hq)
    have h6 : p.addr.is6 = false := by
      obtain ⟨a, bits, rfl⟩ := hp.eq
      rfl
    rw [convertPrefixesToSet, h6, hp.calculateLastIP, hta]
    exact ⟨_, rfl⟩

/-- An address lies in a prefix that is written with its first address, and no longer
    prefix is given with that address. -/
def Proper (prefixes : List Prefix) (x : BitVec 32) : Prop :=
  ∃ p ∈ prefixes, p.masked = p ∧ (∀ q ∈ prefixes, q.addr = p.addr → q.bits ≤ p.bits) ∧
    p.contains (.v4 x)

theorem proper_iff {l : List (Block 32)} (hl : ∀ b, b ∈ l ↔ b ∈ prefixes.map toBlock)
    (x : BitVec 32) : (∃ b ∈ l, b.Aligned ∧ b.Longest l ∧ b.Holds x) ↔ Proper prefixes x := by
  constructor
  · rintro ⟨b, hb, ha, hlo, hh⟩
    obtain ⟨p, hp, rfl⟩ := List.mem_map.mp ((hl b).mp hb)
    refine ⟨p, hp, (h4 p hp).masked_iff.mpr ha, fun q hq => ?_, ((h4 p hp).contains_iff x).mpr hh⟩
    exact ((h4 p hp).longest_iff (h4 q hq)).mpr (hlo _ ((hl _).mpr (List.mem_map_of_mem hq)))
  · rintro ⟨p, hp, ha, hlo, hh⟩
    refine ⟨toBlock p, (hl _).mpr (List.mem_map_of_mem hp), (h4 p hp).masked_iff.mp ha, ?_,
      ((h4 p hp).contains_iff x).mp hh⟩
    intro b hb
    obtain ⟨q, hq, rfl⟩ := List.mem_map.mp ((hl b).mp hb)
    exact ((h4 p hp).longest_iff (h4 q hq)).mp (hlo q hq)

/-- What the merged blocks are read as. -/
theorem exact_merge_iff
    (hs : (last :: rest).Pairwise Block.Le) (hl : ∀ b, b ∈ last :: rest ↔ b ∈ prefixes.map toBlock)
    (hr : intervals elements = if ∃ b ∈ merge last rest, lastOf b = BitVec.allOnes 32 then none
      else some ((merge last rest).map (fun b => (b.addr, lastOf b + 1)))) :
    Exact prefixes elements ↔ (¬ ∃ p ∈ prefixes, p.contains (.v4 (BitVec.allOnes 32))) ∧
        ∀ x, (∃ p ∈ prefixes, p.contains (.v4 x)) → Proper prefixes x := by
  have hhe : ∀ x, Held (last :: rest) x ↔ ∃ p ∈ prefixes, p.contains (.v4 x) := by
    grind [Is4.contains_iff, Blocks.Held]
  have hco := merge_covers_iff hs
  simp only [proper_iff h4 hl, hhe] at hco
  rw [← hco]
  have hsu : ∀ b ∈ merge last rest, b ∈ last :: rest := fun b hb =>
    mem_of_mem_lasts (mem_lasts_of_mem_merge hb)
  by_cases hto : ∃ b ∈ merge last rest, lastOf b = BitVec.allOnes 32
  · -- a block up to the top: nothing is read, and the top is held
    rw [if_pos hto] at hr
    obtain ⟨b, hb, hbt⟩ := hto
    constructor
    · rintro ⟨ivs, hiv, -⟩
      rw [hr] at hiv
      cases hiv
    · rintro ⟨hno, -⟩
      exact absurd ((hhe _).mp ⟨b, hsu b hb, hbt ▸ agree_or_hostMask b.bits b.addr⟩) hno
  · rw [if_neg hto] at hr
    have hn : ∀ b ∈ merge last rest, lastOf b ≠ BitVec.allOnes 32 := fun b hb h => hto ⟨b, hb, h⟩
    have hm : ∀ x, (∃ i ∈ (merge last rest).map (fun b => (b.addr, lastOf b + 1)),
        i.1 ≤ x ∧ x < i.2) ↔ ∃ k ∈ merge last rest, k.addr ≤ x ∧ k.Holds x := by
      intro x
      constructor
      · grind [mem_interval_iff]
      · rintro ⟨b, hb, hx⟩
        exact ⟨_, List.mem_map_of_mem hb, (mem_interval_iff (hn b hb)).mpr hx⟩
    constructor
    · rintro ⟨ivs, hiv, -, hu⟩
      obtain rfl := Option.some.inj (hr.symm.trans hiv)
      have hc : ∀ x, (∃ p ∈ prefixes, p.contains (.v4 x)) →
          ∃ k ∈ merge last rest, k.addr ≤ x ∧ k.Holds x := fun x hx =>
        (hm x).mp ((hu x).mpr hx)
      refine ⟨fun hx => ?_, hc⟩
      -- the top could only be in a block that ends there
      obtain ⟨k, hk, hle, hh⟩ := hc _ hx
      grind [holds_iff_le_lastOf]
    · rintro ⟨-, hc⟩
      refine ⟨_, hr, ?_, fun x => ?_⟩
      · rw [List.pairwise_map]
        refine List.Pairwise.imp_of_mem (fun hb _ h x => disjoint_of_before h (hn _ hb) x)
          ((pairwise_lasts hs).sublist (merge_sublist_lasts _ _))
      · rw [hm]
        constructor
        · rintro ⟨k, hk, -, hh⟩
          exact (hhe x).mp ⟨k, hsu k hk, hh⟩
        · exact hc x

end

/-- **The set is exact unless a prefix is lost.**  The intervals that `createIpSet` puts
    in the set for IPv4 prefixes are disjoint and hold the addresses of the prefixes iff
    no prefix holds 255.255.255.255, and every address of a prefix lies in one that is
    written with its first address and is the longest given with that address. -/
theorem createIpSet_exact_iff (prefixes : List Prefix) (h4 : ∀ p ∈ prefixes, Is4 p) :
    (∃ batches, createIpSet (sortPrefixes prefixes) = some batches ∧
        Exact prefixes batches.flatten) ↔
      (¬ ∃ p ∈ prefixes, p.contains (.v4 (BitVec.allOnes 32))) ∧
        ∀ x, (∃ p ∈ prefixes, p.contains (.v4 x)) → Proper prefixes x := by
  have h4s : ∀ p ∈ sortPrefixes prefixes, Is4 p := fun p hp =>
    h4 p ((List.perm_insertionSort _ _).mem_iff.mp hp)
  have hs : ((sortPrefixes prefixes).map toBlock).Pairwise Block.Le := by
    rw [sortPrefixes, List.map_insertionSort _ _ _ _ fun p hp q hq => (h4 p hp).le_iff (h4 q hq)]
    exact pairwise_insertionSort_le _
  have hl : ∀ b, b ∈ (sortPrefixes prefixes).map toBlock ↔ b ∈ prefixes.map toBlock := fun b =>
    ((List.perm_insertionSort _ _).map toBlock).mem_iff
  have hsp : (∃ batches, createIpSet (sortPrefixes prefixes) = some batches ∧
      Exact prefixes batches.flatten) ↔ ∃ elements,
        convertPrefixesToSet (mergeIPRanges (sortPrefixes prefixes)) = some elements ∧
          Exact prefixes elements := by
    constructor
    · rintro ⟨batches, hb, hex⟩
      exact ⟨_, createIpSet_eq_some.mp ⟨batches, hb, rfl⟩, hex⟩
    · rintro ⟨elements, he, hex⟩
      obtain ⟨batches, hb, rfl⟩ := createIpSet_eq_some.mpr he
      exact ⟨batches, hb, hex⟩
  rw [hsp]
  cases hso : sortPrefixes prefixes with
  | nil =>
    have hnil : prefixes = [] := by
      have := List.perm_insertionSort (fun p q => less q p = false) prefixes
      rw [show prefixes.insertionSort _ = [] from hso] at this
      exact this.nil_eq.symm
    subst hnil
    simp [mergeIPRanges, convertPrefixesToSet, Exact, intervals]
  | cons p rest =>
    rw [hso] at h4s hs hl
    obtain ⟨h4m, hm⟩ := mergeIPRanges_toBlock p rest h4s
    obtain ⟨elements, he⟩ := convertPrefixesToSet_isSome h4m
    have hr := intervals_convert h4m he
    rw [hm] at hr
    rw [← exact_merge_iff h4 hs hl hr]
    grind

/-- Two neighbouring networks. -/
theorem createIpSet_exact_neighbours :
    ∃ batches, createIpSet (sortPrefixes [.v4 0x0a000100#32 24, .v4 0x0a000000#32 24]) =
        some batches ∧
      Exact [.v4 0x0a000100#32 24, .v4 0x0a000000#32 24] batches.flatten := by
  refine (createIpSet_exact_iff _ (by decide)).mpr ⟨by decide, ?_⟩
  have hpr : ∀ p ∈ [v4 0x0a000100#32 24, .v4 0x0a000000#32 24], p.masked = p ∧
      ∀ q ∈ [v4 0x0a000100#32 24, .v4 0x0a000000#32 24],
        q.addr = p.addr → q.bits ≤ p.bits := by decide
  rintro x ⟨p, hp, hx⟩
  exact ⟨p, hp, (hpr p hp).1, (hpr p hp).2, hx⟩

/-- 10.0.0.0/24 comes before 10.0.0.0/8, which is then taken for a part of it: the
    address 10.0.1.0 is in no interval. -/
theorem createIpSet_loses_wider :
    ¬ ∃ batches, createIpSet (sortPrefixes [.v4 0x0a000000#32 8, .v4 0x0a000000#32 24]) =
        some batches ∧
      Exact [.v4 0x0a000000#32 8, .v4 0x0a000000#32 24] batches.flatten := by
  rintro ⟨batches, hb, ivs, hi, -, hu⟩
  have hset : createIpSet (sortPrefixes [.v4 0x0a000000#32 8, .v4 0x0a000000#32 24]) =
      some [[⟨[10, 0, 0, 0], false⟩, ⟨[10, 0, 1, 0], true⟩]] := by decide
  obtain rfl := Option.some.inj (hset.symm.trans hb)
  have hr : intervals [⟨[10, 0, 0, 0], false⟩, ⟨[10, 0, 1, 0], true⟩] =
      some [(0x0a000000#32, 0x0a000100#32)] := by decide
  obtain rfl := Option.some.inj (hr.symm.trans hi)
  have hl := (hu 0x0a000100#32).mpr (by decide)
  revert hl
  decide

end IpSet

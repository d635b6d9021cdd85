import NetbirdHa.BlockProofs
import NetbirdHa.MirrorProofs
import NetbirdHa.NetipTextProofs
import NetbirdHa.TransitionProofs

/-! # The CrowdSec bouncer

The proxy keeps the decisions of a CrowdSec stream in two maps, one from addresses and
one from prefixes.  `CheckIP` asks for the address and then for every prefix that has it,
the longest first.

Decisions are known by scope and value, the maps by what these are parsed to, so the
maps are a mirror of the decisions in the sense of `Mirror`:

* different texts may have one key, and deleting one of them takes the key away from the
  others;
* a range in IPv4-mapped notation is stored under a key that does not stand for it: the
  address becomes an IPv4 one and the length stays that of the IPv6 one.

`checkIP_exact` says that nothing else goes wrong over all sequences of batches. -/

namespace CrowdSec

open Netip Transition List Option AList Mirror Addr

/-! ## The bouncer -/

/-- `models.Decision`; the fields are pointers. -/
structure Decision where
  scope : Option String
  value : Option String
  type : Option String

/-- `Bouncer`; what is stored of a decision is its type. -/
structure Bouncer where
  ips : AList (fun _ : Addr => String) := ∅
  prefixes : AList (fun _ : Prefix => String) := ∅

/-- `strings.ToLower`, as far as it matters for the letters of a scope. -/
def toLower (s : String) : String := String.ofList (s.toList.map Char.toLower)

/-- The decision is taken for a range. -/
def isRange (scope value : String) : Bool :=
  decide (toLower scope = "range") || decide ('/' ∈ value.toList)

/-- `normalizePrefix`: the address unmapped and the host bits cleared, the length as it is. -/
def normalizePrefix (p : Prefix) : Prefix := (Prefix.ofAddr p.addr.unmap p.bits.toNat).masked

section

variable (b : Bouncer) (d : Decision) (decisions : List Decision)

/-- One turn of `applyDeleted`. -/
def deleteOne : Bouncer :=
  match d.value, d.scope with
  | some value, some scope =>
    if isRange scope value then
      match parsePrefix value with
      | none => b
      | some p => { b with prefixes := b.prefixes.erase (normalizePrefix p) }
    else
      match parseAddr value with
      | none => b
      | some addr => { b with ips := b.ips.erase addr.unmap }
  | _, _ => b

/-- `applyDeleted`. -/
def applyDeleted : Bouncer := decisions.foldl deleteOne b

/-- One turn of `applyNew`. -/
def addOne : Bouncer :=
  match d.value, d.type, d.scope with
  | some value, some type, some scope =>
    if isRange scope value then
      match parsePrefix value with
      | none => b
      | some p => { b with prefixes := b.prefixes.insert (normalizePrefix p) type }
    else
      match parseAddr value with
      | none => b
      | some addr => { b with ips := b.ips.insert addr.unmap type }
  | _, _, _ => b

/-- `applyNew`. -/
def applyNew : Bouncer := decisions.foldl addOne b

/-- The loop of `CheckIP` from a number of bits down. -/
def probe (prefixes : AList (fun _ : Prefix => String)) (addr : Addr) : Nat → Option String
  | 0 => prefixes.lookup (Prefix.ofAddr addr 0).masked
  | bits + 1 =>
    match prefixes.lookup (Prefix.ofAddr addr (bits + 1)).masked with
    | some d => some d
    | none => probe prefixes addr bits

/-- The longest prefix of the address's family. -/
def maxBits (addr : Addr) : Nat := if addr.is6 then 128 else 32

/-- `CheckIP`: the address first, then its prefixes from the longest on. -/
def checkIP (addr : Addr) : Option String :=
  match b.ips.lookup addr.unmap with
  | some d => some d
  | none => probe b.prefixes addr.unmap (maxBits addr.unmap)

end

/-! ## What a decision says -/

/-- Scope and value. -/
abbrev Ident := String × String

/-- The addresses that a decision is about.  IPv4-mapped notation is read as IPv4, also of a
    range, where the length then counts from the 96th bit. -/
def Covers (i : Ident) (a : Addr) : Prop :=
  if isRange i.1 i.2 then ∃ p, parsePrefix i.2 = some p ∧ p.unmap.Holds a.unmap
  else ∃ x, parseAddr i.2 = some x ∧ x.unmap = a.unmap

/-- How specific a decision is: an address more than any range, a range by its length. -/
def specificity (i : Ident) : Int :=
  if isRange i.1 i.2 then
    match parsePrefix i.2 with
    | some p => p.unmap.bits
    | none => -1
  else 129

/-- The address of a prefix is in IPv4-mapped notation. -/
def mapped : Prefix → Bool
  | .v6 a _ => decide (Addr.Mapped a)
  | _ => false

/-- The decision is a range in IPv4-mapped notation. -/
def MappedRange (i : Ident) : Prop := isRange i.1 i.2 = true ∧ (parsePrefix i.2).any mapped
deriving Decidable

/-! ## The maps as a mirror -/

/-- What a decision is stored under. -/
inductive Key where
  | ip (a : Addr)
  | range (p : Prefix)
deriving DecidableEq

/-- The entry a decision is about. -/
def keyOf (i : Ident) : Option Key :=
  if isRange i.1 i.2 then (parsePrefix i.2).map fun p => .range (normalizePrefix p)
  else (parseAddr i.2).map (.ip ·.unmap)

/-- The decision at an entry. -/
def Bouncer.get (b : Bouncer) : Key → Option String
  | .ip a => b.ips.lookup a
  | .range p => b.prefixes.lookup p

/-- The decisions of a batch that are complete enough to count. -/
def deletedIds (decisions : List Decision) : List Ident :=
  decisions.filterMap fun d => d.scope.bind (fun scope => d.value.map (fun value => (scope, value)))

/-- The decisions that name all they need. -/
def newItems (decisions : List Decision) : List (Ident × String) :=
  decisions.filterMap (fun d => d.scope.bind (fun scope => d.value.bind (fun value =>
    d.type.map (fun type => ((scope, value), type)))))

/-- Both maps together, by the key. -/
def Bouncer.erase (b : Bouncer) : Key → Bouncer
  | .ip a => { b with ips := b.ips.erase a }
  | .range p => { b with prefixes := b.prefixes.erase p }

/-- Enters a decision. -/
def Bouncer.insert (b : Bouncer) (type : String) : Key → Bouncer
  | .ip a => { b with ips := b.ips.insert a type }
  | .range p => { b with prefixes := b.prefixes.insert p type }

section

variable (b : Bouncer) (scope value : String) (decisions : List Decision)

open Bouncer

/-- Reading after an entry is erased. -/
theorem Bouncer.get_erase (k k' : Key) :
    (b.erase k).get k' = if k = k' then none else b.get k' := by
  cases k <;> cases k' <;> simp [get, erase, Table.lookup_erase_ite]

/-- Reading after an entry is written. -/
theorem Bouncer.get_insert (type : String) (k k' : Key) :
    (b.insert type k).get k' = if k = k' then some type else b.get k' := by
  cases k <;> cases k' <;> simp [get, insert, Table.lookup_insert_ite]

/-- One turn deletes the key of its decision. -/
theorem deleteOne_eq (type : Option String) :
    deleteOne b ⟨some scope, some value, type⟩ = ((keyOf (scope, value)).map b.erase).getD b := by
  rw [deleteOne, keyOf]
  dsimp only
  split
  · cases parsePrefix value <;> rfl
  · cases parseAddr value <;> rfl

theorem addOne_eq (type : String) : addOne b ⟨some scope, some value, some type⟩ =
    ((keyOf (scope, value)).map (b.insert type)).getD b := by
  rw [addOne, keyOf]
  dsimp only
  split
  · cases parsePrefix value <;> rfl
  · cases parseAddr value <;> rfl

/-- A deletion forgets its key. -/
theorem get_deleteOne (type : Option String) :
    (deleteOne b ⟨some scope, some value, type⟩).get = dropKey keyOf b.get (scope, value) := by
  ext1 k
  rw [deleteOne_eq, dropKey]
  cases keyOf (scope, value) with
  | none => rfl
  | some k' =>
    show (b.erase k').get k = _
    simp [get_erase]

/-- A new decision is what its key stands for. -/
theorem get_addOne (type : String) : (addOne b ⟨some scope, some value, some type⟩).get =
    putKey keyOf b.get ((scope, value), type) := by
  ext1 k
  rw [addOne_eq, putKey]
  cases keyOf (scope, value) with
  | none => rfl
  | some k' =>
    show (b.insert type k').get k = _
    simp [get_insert]

/-- The deletions, one after the other. -/
theorem get_applyDeleted :
    (applyDeleted b decisions).get = (deletedIds decisions).foldl (dropKey keyOf) b.get := by
  rw [deletedIds, foldl_filterMap]
  refine (foldl_hom get fun b d => ?_).symm
  obtain ⟨_ | scope, _ | value, type⟩ := d
  case some.some => exact (get_deleteOne b scope value type).symm
  all_goals rfl

/-- The new decisions, one after the other. -/
theorem get_applyNew :
    (applyNew b decisions).get = (newItems decisions).foldl (putKey keyOf) b.get := by
  rw [newItems, foldl_filterMap]
  refine (foldl_hom get fun b d => ?_).symm
  obtain ⟨_ | scope, _ | value, _ | type⟩ := d
  case some.some.some => exact (get_addOne b scope value type).symm
  all_goals rfl

end

variable {n : Nat} {p : Prefix} {x a : Addr} {i : Ident}

/-! ## What `CheckIP` finds -/

theorem parseUint_le {max : Nat} (h : parseUint s max = some n) : n ≤ max := by grind [parseUint]

/-- A prefix that parses is valid. -/
theorem ne_invalid_of_parsePrefix (h : parsePrefix s = some p) : p ≠ .invalid := by
  unfold parsePrefix at h
  split at h
  · cases h
  split at h
  · cases h
  next addr ha =>
    have hv := isValid_of_parseAddr ha
    split at h
    · cases h
    split at h
    · cases h
    obtain ⟨n, hn, rfl⟩ := map_eq_some_iff.mp h
    have hl := parseUint_le hn
    cases addr with
    | zero => cases hv
    | v4 a => rw [Prefix.ofAddr, dif_pos (show n ≤ 32 from hl)]; rintro ⟨⟩
    | v6 a zone => rw [Prefix.ofAddr, dif_pos (show n ≤ 128 from hl)]; rintro ⟨⟩

/-- For a range that is not in mapped notation the key stands for the range. -/
theorem normalizePrefix_of_not_mapped (hp : mapped p = false) :
    normalizePrefix p = p.masked ∧ p.unmap = p := by
  cases p with
  | invalid => exact ⟨rfl, rfl⟩
  | v4 a bits =>
    refine ⟨?_, rfl⟩
    show (Prefix.ofAddr (.v4 a) bits.val).masked = _
    rw [Prefix.ofAddr, dif_pos (Nat.le_of_lt_succ bits.isLt)]
  | v6 a bits =>
    have ha : ¬ Addr.Mapped a := of_decide_eq_false hp
    constructor
    · show (Prefix.ofAddr (v6 a "").unmap bits.val).masked = _
      rw [unmap, if_neg ha, Prefix.ofAddr, dif_pos (Nat.le_of_lt_succ bits.isLt)]
    · rw [Prefix.unmap, dif_neg fun h => ha h.2]

/-- The loop finds what is stored for the longest prefix. -/
theorem probe_eq_some : ∀ {n : Nat}, probe prefixes addr n = some t → ∃ bits ≤ n,
    prefixes.lookup (Prefix.ofAddr addr bits).masked = some t ∧
      ∀ m ≤ n, bits < m → prefixes.lookup (Prefix.ofAddr addr m).masked = none := by
  intro n
  induction n with
  | zero =>
    intro h
    exact ⟨0, Nat.le_refl 0, h, fun m hm hl => absurd hl (by omega)⟩
  | succ n ih => grind [probe]

/-- The search fails when no prefix of the address is entered. -/
theorem probe_eq_none : ∀ {n : Nat}, probe prefixes addr n = none ↔
    ∀ m ≤ n, prefixes.lookup (Prefix.ofAddr addr m).masked = none := by
  intro n
  induction n with
  | zero =>
    constructor
    · intro h m hm
      obtain rfl := Nat.le_zero.mp hm
      exact h
    · exact fun h => h 0 (Nat.le_refl 0)
  | succ n ih => grind [probe]

theorem bits_masked (p : Prefix) : p.masked.bits = p.bits := by
  cases p <;> rfl

theorem bits_ofAddr (h : Prefix.ofAddr x n ≠ .invalid) : (Prefix.ofAddr x n).bits = n := by
  cases x with
  | zero => exact absurd rfl h
  | v4 a | v6 a zone =>
    rw [Prefix.ofAddr] at h ⊢
    split
    · rfl
    · next hn => exact absurd (dif_neg hn) h

theorem bits_nonneg (h : p ≠ .invalid) : 0 ≤ p.bits := by
  cases p with
  | invalid => exact absurd rfl h
  | v4 a bits | v6 a bits => exact Int.natCast_nonneg _

/-- A prefix that holds an address is no longer than the address. -/
theorem bits_le_of_holds (h : p.Holds x) : p.bits.toNat ≤ maxBits x := by
  cases p with
  | invalid => exact absurd h id
  | v4 a bits =>
    cases x with
    | v4 b => exact Nat.le_of_lt_succ bits.isLt
    | zero | v6 b zone => exact absurd h id
  | v6 a bits =>
    cases x with
    | v6 b zone => exact Nat.le_of_lt_succ bits.isLt
    | zero | v4 b => exact absurd h id

/-- An address decision is stored under its address. -/
theorem covers_ip (h : isRange i.1 i.2 = false) : Covers i a ↔ keyOf i = some (.ip a.unmap) := by
  rw [Covers, keyOf, if_neg (Bool.eq_false_iff.mp h), if_neg (Bool.eq_false_iff.mp h),
    map_eq_some_iff]
  refine exists_congr fun x => and_congr_right fun _ => ?_
  rw [Key.ip.injEq]

/-- An address comes from a decision on an address. -/
theorem not_isRange_of_key (h : keyOf i = some (.ip x)) : isRange i.1 i.2 = false := by
  rw [keyOf] at h
  split at h
  · obtain ⟨p, -, hp⟩ := map_eq_some_iff.mp h
    cases hp
  · next hr => exact Bool.eq_false_iff.mpr hr

/-- A prefix comes from a decision on a range. -/
theorem isRange_of_key (h : keyOf i = some (.range q)) :
    isRange i.1 i.2 ∧ ∃ p, parsePrefix i.2 = some p ∧ normalizePrefix p = q := by
  rw [keyOf] at h
  split at h
  · next hr =>
    obtain ⟨p, hp, hq⟩ := map_eq_some_iff.mp h
    exact ⟨hr, p, hp, Key.range.inj hq⟩
  · obtain ⟨x, -, hx⟩ := map_eq_some_iff.mp h
    cases hx

/-- A range is as specific as its prefix is long. -/
theorem specificity_of_range (h : isRange i.1 i.2) (hp : parsePrefix i.2 = some p) :
    specificity i = p.unmap.bits := by
  rw [specificity, if_pos h, hp]

theorem not_mapped (hm : ¬ MappedRange i) (h : isRange i.1 i.2)
    (hp : parsePrefix i.2 = some p) : mapped p = false := by
  rw [Bool.eq_false_iff]
  intro hma
  exact hm ⟨h, by rw [hp]; exact hma⟩

/-- A range that is not in mapped notation is found with its own length. -/
theorem covers_range (h : isRange i.1 i.2) (hm : ¬ MappedRange i) :
    Covers i a ↔ ∃ n ≤ maxBits a.unmap, specificity i = n ∧
      keyOf i = some (.range (Prefix.ofAddr a.unmap n).masked) := by
  rw [Covers, if_pos h, keyOf, if_pos h]
  constructor
  · rintro ⟨p, hp, hh⟩
    obtain ⟨hn, hu⟩ := normalizePrefix_of_not_mapped (not_mapped hm h hp)
    rw [hu] at hh
    have hv := ne_invalid_of_parsePrefix hp
    refine ⟨p.bits.toNat, bits_le_of_holds hh, ?_, ?_⟩
    · rw [specificity_of_range h hp, hu, Int.toNat_of_nonneg (bits_nonneg hv)]
    · rw [hp, map_some, hn, (Prefix.holds_iff_masked hv _).mp hh]
  · rintro ⟨n, -, hs, hk⟩
    obtain ⟨p, hp, hq⟩ := map_eq_some_iff.mp hk
    obtain ⟨hn, hu⟩ := normalizePrefix_of_not_mapped (not_mapped hm h hp)
    rw [specificity_of_range h hp, hu] at hs
    refine ⟨p, hp, ?_⟩
    rw [hu, Prefix.holds_iff_masked (ne_invalid_of_parsePrefix hp), hs, ← hn]
    exact Key.range.inj hq

/-- A key with a length is one of a range of that length. -/
theorem specificity_of_key (hm : ¬ MappedRange i)
    (hk : keyOf i = some (.range (Prefix.ofAddr a n).masked)) : specificity i = n := by
  obtain ⟨h, p, hp, hq⟩ := isRange_of_key hk
  obtain ⟨hn, hu⟩ := normalizePrefix_of_not_mapped (not_mapped hm h hp)
  rw [hn] at hq
  have hv : Prefix.ofAddr a n ≠ .invalid := by
    intro hi
    rw [hi] at hq
    refine ne_invalid_of_parsePrefix hp ?_
    cases p with
    | invalid => rfl
    | v4 b bits | v6 b bits => cases hq
  rw [specificity_of_range h hp, hu, ← bits_masked, hq, bits_masked, bits_ofAddr hv]

/-- No decision is more specific than one on an address. -/
theorem specificity_le (i : Ident) : specificity i ≤ 129 := by
  have hb : ∀ p : Prefix, p.bits ≤ 129 := by
    intro p
    cases p with
    | invalid => decide
    | v4 a bits | v6 a bits => show (bits.val : Int) ≤ 129; omega
  rw [specificity]
  split
  · split
    · exact hb _
    · decide
  · exact Int.le_refl _

/-! ## Batches -/

/-- The bouncer and, for the statements, the decisions that are active, with their types. -/
structure State where
  bouncer : Bouncer := {}
  active : List (Ident × String) := []

/-- A batch of the stream. -/
structure Batch where
  deleted : List Decision
  new : List Decision

/-- What `consumeStream` does with a batch, under the lock. -/
def step (s : State) (batch : Batch) : Option State :=
  some
    { bouncer := applyNew (applyDeleted s.bouncer batch.deleted) batch.new
      active := Mirror.items s.active (deletedIds batch.deleted) (newItems batch.new) }

/-- `CheckIP` answers for exactly the addresses of active decisions, with the type of the
    most specific one. -/
structure Good (s : State) : Prop where
  found : ∀ a, (checkIP s.bouncer a).isSome ↔ ∃ x ∈ s.active, Covers x.1 a
  best : ∀ a t, checkIP s.bouncer a = some t → ∃ i, (i, t) ∈ s.active ∧ Covers i a ∧
    ∀ x ∈ s.active, Covers x.1 a → specificity x.1 ≤ specificity i

/-- The condition on a batch: no range in IPv4-mapped notation comes, and no decision that
    stays loses its key. -/
def Allowed (s : State) (batch : Batch) : Prop :=
  (∀ y ∈ newItems batch.new, ¬ MappedRange y.1) ∧
    Mirror.Safe keyOf s.active (deletedIds batch.deleted) (newItems batch.new)
deriving Decidable

/-- The maps mirror the decisions, none of which is a range in mapped notation. -/
structure Inv (s : State) : Prop where
  sound : Mirror.Sound keyOf s.active s.bouncer.get
  complete : Mirror.Complete keyOf s.active s.bouncer.get
  plain : ∀ x ∈ s.active, ¬ MappedRange x.1

/-- What a batch does to the entries. -/
theorem get_step (s : State) (batch : Batch) :
    (applyNew (applyDeleted s.bouncer batch.deleted) batch.new).get =
      apply keyOf s.bouncer.get (deletedIds batch.deleted) (newItems batch.new) := by
  rw [get_applyNew, get_applyDeleted]
  rfl

/-- An identity after a batch is one of before or a new one. -/
theorem exists_ident {new : List (Ident × String)} : (∃ x ∈ items l deleted new, x.1 = i) ↔
      (∃ y ∈ new, y.1 = i) ∨ ∃ x ∈ l, x.1 ∉ deleted ∧ x.1 = i := by
  have h := @exists_mem_items Ident Ident String _ some l deleted new i
  simpa only [some.injEq] using h

variable {s : State} {batch : Batch}

/-- A decision that covers an address, and is not in mapped notation, is found. -/
theorem checkIP_ne_none (h : Mirror.Complete keyOf s.active s.bouncer.get) {x : Ident × String}
    (hx : x ∈ s.active) (hm : ¬ MappedRange x.1) (hc : Covers x.1 a)
    (hi : s.bouncer.ips.lookup a.unmap = none) : ∃ n ≤ maxBits a.unmap, specificity x.1 = n ∧
      (s.bouncer.prefixes.lookup (Prefix.ofAddr a.unmap n).masked).isSome := by
  cases hr : isRange x.1.1 x.1.2 with
  | false =>
    have hs := h x hx _ ((covers_ip hr).mp hc)
    rw [Bouncer.get, hi] at hs
    cases hs
  | true =>
    obtain ⟨n, hn, hsp, hk⟩ := (covers_range hr hm).mp hc
    exact ⟨n, hn, hsp, h x hx _ hk⟩

/-- The search returns the most specific decision that covers the address. -/
theorem Inv.best (h : Inv s) (hf : checkIP s.bouncer a = some t) :
    ∃ i, (i, t) ∈ s.active ∧ Covers i a ∧
      ∀ x ∈ s.active, Covers x.1 a → specificity x.1 ≤ specificity i := by
  rw [checkIP] at hf
  cases hip : s.bouncer.ips.lookup a.unmap with
  | some d =>
    rw [hip] at hf
    obtain rfl := Option.some.inj hf
    obtain ⟨i, hi, hk⟩ := h.sound (.ip a.unmap) d hip
    have hr := not_isRange_of_key hk
    refine ⟨i, hi, (covers_ip hr).mpr hk, fun x _ _ => ?_⟩
    have hs : specificity i = 129 := by rw [specificity, if_neg (Bool.eq_false_iff.mp hr)]
    rw [hs]
    exact specificity_le x.1
  | none =>
    rw [hip] at hf
    obtain ⟨n, hn, hl, hmo⟩ := probe_eq_some hf
    obtain ⟨i, hi, hk⟩ := h.sound (.range _) t hl
    have hm := h.plain _ hi
    have hs := specificity_of_key hm hk
    refine ⟨i, hi, ?_, fun x hx hc => ?_⟩
    · exact (covers_range (isRange_of_key hk).1 hm).mpr ⟨n, hn, hs, hk⟩
    · obtain ⟨n', hn', hs', hso⟩ := checkIP_ne_none h.complete hx (h.plain x hx) hc hip
      -- a longer prefix would have been found first
      rw [hs]
      by_contra hlt
      rw [hmo n' hn' (by omega)] at hso
      cases hso

/-- A bouncer that mirrors the active decisions answers from them. -/
theorem Inv.good (h : Inv s) : Good s := by
  refine ⟨fun a => ⟨fun hs => ?_, ?_⟩, fun a t hf => h.best hf⟩
  · obtain ⟨t, ht⟩ := isSome_iff_exists.mp hs
    obtain ⟨i, hi, hc, -⟩ := h.best ht
    exact ⟨_, hi, hc⟩
  · rintro ⟨x, hx, hc⟩
    rw [checkIP]
    cases hip : s.bouncer.ips.lookup a.unmap with
    | some d => rfl
    | none =>
      obtain ⟨n, hn, -, hs⟩ := checkIP_ne_none h.complete hx (h.plain x hx) hc hip
      rw [isSome_iff_ne_none]
      intro hno
      rw [probe_eq_none.mp hno n hn] at hs
      cases hs

/-- What one batch does to the mirror. -/
theorem Inv.step_iff (h : Inv s) (hs' : step s batch = some s') :
    Mirror.Sound keyOf s'.active s'.bouncer.get ∧ (Mirror.Complete keyOf s'.active s'.bouncer.get ↔
        Mirror.Safe keyOf s.active (deletedIds batch.deleted) (newItems batch.new)) ∧
      ((∀ x ∈ s'.active, ¬ MappedRange x.1) ↔ ∀ y ∈ newItems batch.new, ¬ MappedRange y.1) := by
  cases hs'
  rw [get_step]
  refine ⟨h.sound.apply _ _, complete_apply_iff h.complete _ _, ?_⟩
  constructor
  · intro hp y hy hm
    obtain ⟨x, hx, hxy⟩ := exists_ident.mpr (.inl ⟨y, hy, rfl⟩)
    exact hp x hx (hxy ▸ hm)
  · intro hn x hx hm
    rcases exists_ident.mp ⟨x, hx, rfl⟩ with ⟨y, hy, hyx⟩ | ⟨z, hz, -, hzx⟩
    · exact hn y hy (hyx ▸ hm)
    · exact h.plain z hz (hzx ▸ hm)

/-- An allowed batch keeps the mirror. -/
theorem Inv.step (h : Inv s) (ho : Allowed s batch) (hs' : step s batch = some s') : Inv s' := by
  obtain ⟨hs, hc, hp⟩ := h.step_iff hs'
  exact ⟨hs, hc.mpr ho.2, hp.mpr ho.1⟩

/-! ## When the condition is broken -/

/-- `CheckIP` looks for the key. -/
def Asks (a : Addr) (k : Key) : Prop :=
  k = .ip a.unmap ∨ ∃ n ≤ maxBits a.unmap, k = .range (Prefix.ofAddr a.unmap n).masked

/-- An address that no entry is about is not decided on. -/
theorem checkIP_eq_none (h : ∀ k, Asks a k → b.get k = none) : checkIP b a = none := by
  have hi : b.ips.lookup a.unmap = none := h (.ip a.unmap) (.inl rfl)
  rw [checkIP, hi]
  exact probe_eq_none.mpr fun n hn => h _ (.inr ⟨n, hn, rfl⟩)

/-- The batch that deletes every decision with another key. -/
def keepOnly (s : State) (k : Key) : Batch :=
  { deleted := ((s.active.map Prod.fst).filter (keyOf · ≠ some k)).map
      (fun i => ⟨some i.1, some i.2, none⟩)
    new := [] }

/-- The batch that leaves a single key deletes all others. -/
theorem deletedIds_keepOnly (s : State) (k : Key) :
    deletedIds (keepOnly s k).deleted = (s.active.map Prod.fst).filter (keyOf · ≠ some k) := by
  rw [keepOnly, deletedIds, filterMap_map]
  exact filterMap_some

/-- Alone, a decision whose key is gone or is never asked for is missed. -/
theorem leads_bad (hso : Mirror.Sound keyOf m.active m.bouncer.get)
    {x : Ident × String} (hx : x ∈ m.active) (hk : keyOf x.1 = some k) (hc : Covers x.1 a)
    (hm : m.bouncer.get k = none ∨ ¬ Asks a k) : ∃ s', Leads step Allowed m s' ∧ ¬ Good s' := by
  have hid := deletedIds_keepOnly m k
  have ha : Allowed m (keepOnly m k) := by
    refine ⟨fun y hy => absurd hy not_mem_nil, ?_⟩
    rw [hid]
    grind [Mirror.Safe]
  refine ⟨_, Leads.head rfl ha (Leads.refl step Allowed _), fun hg => ?_⟩
  -- the decision stays
  have hst : ∃ y ∈ items m.active (deletedIds (keepOnly m k).deleted)
      (newItems (keepOnly m k).new), y.1 = x.1 := by
    refine exists_ident.mpr (.inr ⟨x, hx, ?_, rfl⟩)
    rw [hid, mem_filter, decide_eq_true_iff]
    exact fun h => h.2 hk
  obtain ⟨y, hy, hyx⟩ := hst
  have hs := (hg.found a).mpr ⟨y, hy, hyx ▸ hc⟩
  -- and nothing is found
  rw [checkIP_eq_none (a := a)] at hs
  · cases hs
  intro k' hak
  rw [get_step, ← not_isSome_iff_eq_none, isSome_apply]
  rintro (⟨z, hz, -⟩ | ⟨hs, hke⟩)
  · cases hz
  · obtain ⟨t, ht⟩ := isSome_iff_exists.mp hs
    by_cases hkk : k' = k
    · subst hkk
      rcases hm with hn | hno
      · cases hn.symm.trans ht
      · exact hno hak
    · obtain ⟨i, hi, hik⟩ := hso k' t ht
      grind

/-- Every decision with a key covers an address. -/
theorem exists_covers (hm : ¬ MappedRange i) (hk : keyOf i = some k) : ∃ a, Covers i a := by
  cases k with
  | ip x =>
    have hr := not_isRange_of_key hk
    rw [keyOf, if_neg (Bool.eq_false_iff.mp hr)] at hk
    obtain ⟨a, ha, -⟩ := map_eq_some_iff.mp hk
    refine ⟨a, ?_⟩
    rw [Covers, if_neg (Bool.eq_false_iff.mp hr)]
    exact ⟨a, ha, rfl⟩
  | range q =>
    obtain ⟨hr, p, hp, -⟩ := isRange_of_key hk
    have hma := not_mapped hm hr hp
    refine ⟨p.addr, ?_⟩
    rw [Covers, if_pos hr]
    refine ⟨p, hp, ?_⟩
    rw [(normalizePrefix_of_not_mapped hma).2]
    cases p with
    | invalid => exact absurd rfl (ne_invalid_of_parsePrefix hp)
    | v4 a bits => exact Agree.refl _ _
    | v6 a bits =>
      have ha : ¬ Addr.Mapped a := of_decide_eq_false hma
      show Prefix.Holds _ (v6 a "").unmap
      rw [unmap, if_neg ha]
      exact Agree.refl _ _

/-- The last bit of the mark of a mapped address changed: no longer mapped, and the same in
    the bits before. -/
theorem not_mapped_flip (hv : Addr.Mapped v) : ¬ Addr.Mapped (v ^^^ (1#128 <<< 32)) := by
  rw [Addr.Mapped] at hv ⊢
  rw [BitVec.ushiftRight_xor_distrib, hv]
  decide

/-- Addresses that differ below a short prefix agree on it. -/
theorem agree_flip (hb : bits < 96) : Agree bits v (v ^^^ (1#128 <<< 32)) := by
  rw [agree_iff]
  intro i hi
  have ho : i - 32 ≠ 0 := by omega
  rw [BitVec.getLsbD_xor, BitVec.getLsbD_shiftLeft]
  simp [ho]

/-- A range in mapped notation has an address for which its key is never asked. -/
theorem exists_missed (h : MappedRange i) : ∃ k a, keyOf i = some k ∧ Covers i a ∧ ¬ Asks a k := by
  obtain ⟨hr, hm⟩ := h
  cases hp : parsePrefix i.2 with
  | none => rw [hp] at hm; cases hm
  | some p =>
    rw [hp] at hm
    cases p with
    | invalid | v4 v bits => cases hm
    | v6 v bits =>
      have hv : Addr.Mapped v := of_decide_eq_true hm
      have hk : keyOf i = some (.range (normalizePrefix (.v6 v bits))) := by
        rw [keyOf, if_pos hr, hp]
        rfl
      have hno : normalizePrefix (.v6 v bits) =
          (Prefix.ofAddr (.v4 (v.setWidth 32)) bits.val).masked := by
        show (Prefix.ofAddr (v6 v "").unmap bits.val).masked = _
        rw [unmap, if_pos hv]
      by_cases hb : 96 ≤ bits.val
      · -- the key is no prefix at all
        refine ⟨_, .v4 (v.setWidth 32), hk, ?_, ?_⟩
        · rw [Covers, if_pos hr]
          refine ⟨_, hp, ?_⟩
          rw [Prefix.unmap, dif_pos ⟨hb, hv⟩]
          exact Agree.refl _ _
        · rw [hno, Prefix.ofAddr, dif_neg (show ¬ bits.val ≤ 32 by omega)]
          rintro (h | ⟨n, hn, h⟩)
          · cases h
          · have hn : n ≤ 32 := hn
            have h : Prefix.invalid = (Prefix.ofAddr (.v4 (v.setWidth 32)) n).masked :=
              Key.range.inj h
            rw [Prefix.ofAddr, dif_pos hn] at h
            cases h
      · -- the key is an IPv4 prefix, or none, and the range has IPv6 addresses
        have hf := not_mapped_flip hv
        have hu : (v6 (v ^^^ (1#128 <<< 32)) "").unmap = .v6 (v ^^^ (1#128 <<< 32)) "" := by
          rw [unmap, if_neg hf]
        refine ⟨_, .v6 (v ^^^ (1#128 <<< 32)) "", hk, ?_, ?_⟩
        · rw [Covers, if_pos hr]
          refine ⟨_, hp, ?_⟩
          rw [Prefix.unmap, dif_neg fun h => hb h.1, hu]
          exact agree_flip (by omega)
        · rw [hno, Asks, hu]
          rintro (h | ⟨n, hn, h⟩)
          · cases h
          · have hn : n ≤ 128 := hn
            rw [Prefix.ofAddr, Prefix.ofAddr] at h
            split at h <;> cases h

/-- From a batch that is not allowed a wrong answer can be reached. -/
theorem Inv.leads_bad {m : State} (h : Inv s) (hno : ¬ Allowed s batch)
    (hm : CrowdSec.step s batch = some m) : ∃ s', Leads CrowdSec.step Allowed m s' ∧ ¬ Good s' := by
  obtain ⟨hs, hco, hp⟩ := h.step_iff hm
  by_cases hne : ∀ y ∈ newItems batch.new, ¬ MappedRange y.1
  · -- a decision has lost its key
    have hl : ¬ Mirror.Complete keyOf m.active m.bouncer.get := fun hc => hno ⟨hne, hco.mp hc⟩
    rw [Mirror.Complete] at hl
    push Not at hl
    obtain ⟨x, hx, k, hk, hn⟩ := hl
    obtain ⟨a, hc⟩ := exists_covers (hp.mpr hne x hx) hk
    refine CrowdSec.leads_bad hs hx hk hc (.inl ?_)
    simpa using hn
  · have hmp : ¬ ∀ x ∈ m.active, ¬ MappedRange x.1 := fun hal => hne (hp.mp hal)
    push Not at hmp
    obtain ⟨x, hx, hma⟩ := hmp
    obtain ⟨k, a, hk, hc, ha⟩ := exists_missed hma
    exact CrowdSec.leads_bad hs hx hk hc (.inr ha)

/-- **What the bouncer answers.**  After every sequence of batches that bring no range in
    IPv4-mapped notation and take no key from a decision that stays, `CheckIP` answers for
    exactly the addresses that an active decision is about, with the type of the most
    specific one.  A batch meets the condition exactly if this stays so in whatever follows. -/
theorem checkIP_exact (batches : List Batch) (s : State)
    (hok : AllowedRun step Allowed {} batches) (hr : run step {} batches = some s) :
    Good s ∧ ∀ batch m, step s batch = some m →
      (Allowed s batch ↔
        ∀ bs s', AllowedRun step Allowed m bs → run step m bs = some s' → Good s') := by
  have h₀ : Inv {} := by
    refine ⟨fun k t hk => ?_, fun x hx => absurd hx not_mem_nil, fun x hx => absurd hx not_mem_nil⟩
    cases k <;> cases hk
  exact run_good_exact (fun s batch s' hs hb hs' => hs.step hb hs') (fun s hs => hs.good)
    (fun s batch m hs hn hm => hs.leads_bad hn hm) h₀ hok hr

/-- A decision of a type. -/
def ban (scope value : String) : Decision := ⟨some scope, some value, some "ban"⟩

/-- A range and an address in it, which goes again. -/
theorem range_and_address :
    ∃ s, run step {} [⟨[], [ban "Range" "10.0.0.0/8", ban "Ip" "10.1.2.3"]⟩,
        ⟨[ban "Ip" "10.1.2.3"], []⟩] = some s ∧ Good s :=
  exists_end rfl fun s hs => (checkIP_exact _ s (by decide) hs).1

/-- A range in IPv4-mapped notation is never found. -/
theorem mapped_range_missed :
    ∃ s, run step {} [⟨[], [ban "Range" "::ffff:10.0.0.0/104"]⟩] = some s ∧ ¬ Good s := by
  refine ⟨_, rfl, fun hg => ?_⟩
  have hf := (hg.found (.v4 0x0a010203#32)).mpr
    ⟨(("Range", "::ffff:10.0.0.0/104"), "ban"), mem_singleton_self _, ?_⟩
  · exact absurd hf (by decide)
  · rw [Covers]
    exact ⟨.v6 0xffff0a000000#128 ⟨104, by decide⟩, by decide, by decide⟩

end CrowdSec

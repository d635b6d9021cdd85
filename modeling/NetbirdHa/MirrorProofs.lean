import NetbirdHa.TableProofs

/-! # A set of items mirrored by keys

Items are known by an identity and carry a value.  They arrive and leave in batches:
some identities are deleted, then some items are put in, in place of those with the
same identity.  A mirror of the set does not keep identities.  It has one value for
each key, and several identities may have one key (or none at all).

What the mirror has is always the value of some item (`Sound`).  That it has something
for every item (`Complete`) is lost exactly by a batch that deletes a key which an item
that stays has too, and that nothing in the batch brings back (`complete_apply_iff`). -/

namespace Mirror

open List

variable {ι κ τ : Type} [DecidableEq ι] [DecidableEq κ] (key : ι → Option κ)

/-! ## The items and the mirror -/

section

variable (l : List (ι × τ)) (g : κ → Option τ) (deleted : List ι) (new : List (ι × τ))

/-- The list without the item's key. -/
def dropItem (i : ι) : List (ι × τ) := l.filter (·.1 ≠ i)

/-- The item is put at the end, under its key once. -/
def putItem (y : ι × τ) : List (ι × τ) := dropItem l y.1 ++ [y]

/-- The items after a batch. -/
def items : List (ι × τ) :=
  new.foldl putItem (deleted.foldl dropItem l)

/-- Forgets what the item's key stands for. -/
def dropKey (i : ι) : κ → Option τ := fun k => if key i = some k then none else g k

/-- The item's key stands for its value. -/
def putKey (y : ι × τ) : κ → Option τ :=
  fun k => if key y.1 = some k then some y.2 else g k

/-- The mirror after a batch. -/
def apply : κ → Option τ :=
  new.foldl (putKey key) (deleted.foldl (dropKey key) g)

/-- What the mirror has is the value of an item with that key. -/
def Sound : Prop :=
  ∀ k t, g k = some t → ∃ i, (i, t) ∈ l ∧ key i = some k

/-- The mirror has something for every item with a key. -/
def Complete : Prop :=
  ∀ x ∈ l, ∀ k, key x.1 = some k → (g k).isSome

/-- The condition on a batch. -/
def Safe : Prop :=
  ∀ i ∈ deleted, ∀ x ∈ l, x.1 ∉ deleted → key x.1 = key i → key i ≠ none →
    ∃ y ∈ new, key y.1 = key i

end

instance (l : List (ι × τ)) (deleted : List ι) (new : List (ι × τ)) :
    Decidable (Safe key l deleted new) :=
  inferInstanceAs (Decidable (∀ i ∈ deleted, ∀ x ∈ l, x.1 ∉ deleted → key x.1 = key i →
    key i ≠ none → ∃ y ∈ new, key y.1 = key i))

variable {key} {l : List (ι × τ)} {g : κ → Option τ}

theorem mem_dropItem : x ∈ dropItem l i ↔ x ∈ l ∧ x.1 ≠ i := by
  rw [dropItem, mem_filter, decide_eq_true_iff]

theorem mem_putItem : x ∈ putItem l y ↔ x ∈ l ∧ x.1 ≠ y.1 ∨ x = y := by
  rw [putItem, mem_append, mem_dropItem, mem_singleton]

/-! ## What the mirror has is right -/

theorem Sound.dropKey (h : Sound key l g) (i : ι) : Sound key (dropItem l i) (dropKey key g i) := by
  grind [Sound, dropItem, dropKey]

theorem Sound.putKey (h : Sound key l g) (y : ι × τ) :
    Sound key (putItem l y) (putKey key g y) := by
  grind [putKey, mem_putItem, Sound]

/-- A batch keeps it so, whatever it deletes. -/
theorem Sound.apply (h : Sound key l g) (deleted : List ι) (new : List (ι × τ)) :
    Sound key (items l deleted new) (apply key g deleted new) := by
  have hdel : Sound key (deleted.foldl dropItem l) (deleted.foldl (Mirror.dropKey key) g) :=
    List.foldl_rel h fun i _ _ _ h => h.dropKey i
  exact List.foldl_rel hdel fun y _ _ _ h => h.putKey y

/-! ## What the mirror lacks -/

omit [DecidableEq κ] in
/-- The keys of the items after a batch. -/
theorem exists_mem_items {deleted : List ι} {new : List (ι × τ)} {k : κ} :
    (∃ x ∈ items l deleted new, key x.1 = some k) ↔
      (∃ y ∈ new, key y.1 = some k) ∨ ∃ x ∈ l, x.1 ∉ deleted ∧ key x.1 = some k := by
  have hdel : ∀ (deleted : List ι) (l : List (ι × τ)) x,
      x ∈ deleted.foldl dropItem l ↔ x ∈ l ∧ x.1 ∉ deleted := by
    intro deleted
    induction deleted with
    | nil => intro l x; simp
    | cons i deleted ih =>
      intro l x
      rw [foldl_cons, ih, mem_dropItem, mem_cons, not_or, and_assoc]
  have hp : ∀ (l : List (ι × τ)) y, (∃ x ∈ putItem l y, key x.1 = some k) ↔
      (∃ x ∈ l, key x.1 = some k) ∨ key y.1 = some k := by
    intro l y
    constructor
    · grind [mem_putItem]
    · rintro (⟨x, hx, hk⟩ | hk)
      all_goals grind [mem_putItem]
  refine (Table.foldl_iff (P := fun l : List (ι × τ) => ∃ x ∈ l, key x.1 = some k)
    hp new _).trans ?_
  rw [or_comm]
  simp only [hdel, and_assoc]

omit [DecidableEq ι] in
/-- The keys of the mirror after a batch. -/
theorem isSome_apply : (apply key g deleted new k).isSome ↔
    (∃ y ∈ new, key y.1 = some k) ∨ (g k).isSome ∧ ∀ i ∈ deleted, key i ≠ some k := by
  have hdel : ∀ (deleted : List ι) (g : κ → Option τ),
      (deleted.foldl (Mirror.dropKey key) g k).isSome ↔
        (g k).isSome ∧ ∀ i ∈ deleted, key i ≠ some k := by
    intro deleted
    induction deleted with
    | nil => intro g; simp
    | cons i deleted ih =>
      intro g
      rw [foldl_cons, ih, Mirror.dropKey, forall_mem_cons]
      split
      · next he => exact iff_of_false (fun h => nomatch h.1) (·.2.1 he)
      · next hn => rw [and_iff_right hn]
  have hp : ∀ (g : κ → Option τ) y, (putKey key g y k).isSome ↔
      (g k).isSome ∨ key y.1 = some k := by
    intro g y
    rw [Mirror.putKey]
    split
    · next he => exact iff_of_true rfl (.inr he)
    · next hn => rw [or_iff_left hn]
  rw [apply, Table.foldl_iff (P := fun g : κ → Option τ => (g k).isSome) hp, hdel, or_comm]

/-- **What a batch may delete.**  A complete mirror stays complete exactly if the batch
    brings back every key that it deletes and an item that stays has. -/
theorem complete_apply_iff (h : Complete key l g) (deleted : List ι) (new : List (ι × τ)) :
    Complete key (items l deleted new) (apply key g deleted new) ↔ Safe key l deleted new := by
  constructor
  · intro hc i hi x hx hs hke hne
    obtain ⟨k, hk⟩ := Option.ne_none_iff_exists'.mp hne
    obtain ⟨x', hx', hk'⟩ := exists_mem_items.mpr (.inr ⟨x, hx, hs, hke.trans hk⟩)
    rcases isSome_apply.mp (hc x' hx' k hk') with ⟨y, hy, hyk⟩ | ⟨-, hno⟩
    · exact ⟨y, hy, hyk.trans hk.symm⟩
    · exact absurd hk (hno i hi)
  · intro hsa x hx k hk
    rcases exists_mem_items.mp ⟨x, hx, hk⟩ with hn | ⟨z, hz, hs, hzk⟩
    all_goals grind [isSome_apply, Complete, Safe]

end Mirror

import NetbirdHa.TableProofs

/-! # Indexes and interned values

A cache keeps two kinds of maps.  An index groups values under keys: it is
built by appending to lists, and holds exactly the pairs it was built from
(`mem_listAt_groupBy`).  An intern table keeps values under keys computed
from them, and others hold the keys only.

Going back from a key to its value is safe as far as the key tells the
values apart (`Interned.resolve`); where it does not, the last value written
wins. -/

namespace Index

open Table List AList

variable {α β : Type}

/-! ## Indexes -/

/-- The list kept under a key; a missing key has none. -/
def listAt (m : GoMap (List β)) (k : String) : List β := (m.lookup k).getD []

/-- Append to the list kept under a key. -/
def addTo (m : GoMap (List β)) (kv : String × β) : GoMap (List β) :=
  m.insert kv.1 (listAt m kv.1 ++ [kv.2])

/-- The index built from pairs of a key and a value. -/
def groupBy (pairs : List (String × β)) : GoMap (List β) := pairs.foldl addTo ∅

variable {m : GoMap (List β)} {k : String} {v : β} {pairs : List (String × β)} {x : α} {xs : List α}
  {key : α → String} {val : α → β}

theorem mem_listAt_addTo : v ∈ listAt (addTo m kv) k ↔ v ∈ listAt m k ∨ (k, v) = kv := by
  obtain ⟨k', v'⟩ := kv
  by_cases hk : k = k'
  · subst hk
    simp [addTo, listAt, lookup_insert]
  · simp [addTo, listAt, lookup_insert_ne hk, hk]

theorem mem_listAt_foldl_addTo :
    v ∈ listAt (pairs.foldl addTo m) k ↔ v ∈ listAt m k ∨ (k, v) ∈ pairs := by
  have hs : ∀ (m : GoMap (List β)) (kv : String × β),
      v ∈ listAt (addTo m kv) k ↔ v ∈ listAt m k ∨ (k, v) = kv := fun _ _ => mem_listAt_addTo
  rw [foldl_iff (P := fun m => v ∈ listAt m k) hs]
  simp

/-- **An index has what it was built from.** -/
theorem mem_listAt_groupBy : v ∈ listAt (groupBy pairs) k ↔ (k, v) ∈ pairs := by
  rw [groupBy, mem_listAt_foldl_addTo]
  simp [listAt]

/-! ## Values under keys -/

/-- Set the key of every element to its value. -/
def setAll (key : α → String) (val : α → β) (xs : List α) (m : GoMap β) : GoMap β :=
  xs.foldl (fun m x => m.insert (key x) (val x)) m

theorem mem_setAll :
    ∀ {xs : List α} {m : GoMap β}, k ∈ setAll key val xs m ↔ k ∈ m ∨ ∃ x ∈ xs, key x = k := by
  intro xs m
  refine foldl_iff (P := fun m : GoMap β => k ∈ m) (fun m x => ?_) xs m
  rw [mem_insert, or_comm, eq_comm]

/-- What is found was there, or is the value of an element. -/
theorem lookup_setAll_imp : ∀ {xs : List α} {m : GoMap β}, (setAll key val xs m).lookup k = some v →
    m.lookup k = some v ∨ ∃ x ∈ xs, key x = k ∧ val x = v := by
  intro xs
  induction xs with
  | nil => intro m h; exact .inl h
  | cons x xs ih =>
    intro m h
    rcases ih (m := m.insert (key x) (val x)) h with h | ⟨y, hy, h⟩
    · rcases of_lookup_insert h with ⟨rfl, rfl⟩ | ⟨-, h⟩
      · exact .inr ⟨x, mem_cons_self, rfl, rfl⟩
      · exact .inl h
    · exact .inr ⟨y, mem_cons_of_mem x hy, h⟩

/-- Elements with distinct keys are all found. -/
theorem lookup_setAll_empty (hn : (xs.map key).Nodup) :
    (setAll key val xs ∅).lookup k = some v ↔ ∃ x ∈ xs, key x = k ∧ val x = v := by
  constructor
  · intro h
    rcases lookup_setAll_imp h with h | h
    · cases h
    · exact h
  · rintro ⟨x, hx, rfl, rfl⟩
    obtain ⟨w, hw⟩ := exists_lookup_of_mem
      (mem_setAll.mpr (.inr ⟨x, hx, rfl⟩) : key x ∈ setAll key val xs ∅)
    rcases lookup_setAll_imp hw with h | ⟨y, hy, hk, rfl⟩
    · cases h
    · rw [hw, inj_on_of_nodup_map hn hy hx hk]

/-! ## Interned values -/

/-- Store values under keys computed from them. -/
def intern (key : α → String) (xs : List α) (m : GoMap α) : GoMap α := setAll key id xs m

/-- Every value of the table stands under its own key, and is one of `S`. -/
def Interned (key : α → String) (S : α → Prop) (m : GoMap α) : Prop :=
  ∀ k x, m.lookup k = some x → S x ∧ key x = k

section

variable {S T : α → Prop} {m : GoMap α}

theorem Interned.empty : Interned key S ∅ := nofun

theorem mem_intern : k ∈ intern key xs m ↔ k ∈ m ∨ ∃ x ∈ xs, key x = k := mem_setAll

theorem Interned.intern (h : Interned key S m) (hxs : ∀ x ∈ xs, S x) :
    Interned key S (intern key xs m) := by
  intro k x hx
  rcases lookup_setAll_imp hx with hx | ⟨y, hy, hk, rfl⟩
  · exact h k x hx
  · exact ⟨hxs y hy, hk⟩

/-- **Keys lead back to the values**, where no other value has the same key. -/
theorem Interned.resolve (h : Interned key S m) (hi : ∀ x y, T x → S y → key x = key y → x = y)
    (hT : ∀ x ∈ xs, T x) (hm : ∀ x ∈ xs, key x ∈ m) : (xs.map key).filterMap m.lookup = xs := by
  rw [filterMap_map]
  conv_rhs => rw [← filterMap_some (l := xs)]
  refine filterMap_congr fun x hx => ?_
  obtain ⟨y, hy⟩ := exists_lookup_of_mem (hm x hx)
  obtain ⟨hS, hk⟩ := h _ y hy
  rw [Function.comp_apply, hy, hi x y (hT x hx) hS hk.symm]

end

end Index

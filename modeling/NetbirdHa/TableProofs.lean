import Mathlib.Data.List.AList

/-! # Tables and accumulating loops

Two things every store-shaped program has: a table whose rows are found by
an identifier they carry, and loops that walk over a list and only add to
what they have.

A table (`Keyed`) is a list of rows with distinct keys; looking a key up and
walking over the rows agree (`get_eq_some`).  For a loop it is enough to say
what one turn adds: `foldl_iff` lifts "one turn makes `P` true or leaves it"
to the whole loop, `foldl_append` does the same for a list that grows. -/

namespace Table

open List AList

/-- A table of rows that carry their own key. -/
structure Keyed (α : Type) (key : α → String) where
  entries : List α
  nodup : (entries.map key).Nodup

variable {α β σ : Type} {key : α → String}

/-- The row with key `k`. -/
def Keyed.get (m : Keyed α key) (k : String) : Option α :=
  m.entries.find? (key · = k)

variable {k : String} {x : α} {f : σ → α → σ} {P : σ → Prop} {l : List α}

theorem Keyed.mem_of_get {m : Keyed α key} (h : m.get k = some x) : x ∈ m.entries :=
  mem_of_find?_eq_some h

/-- The element found has the key. -/
theorem Keyed.key_of_get {m : Keyed α key} (h : m.get k = some x) : key x = k := by
  have := List.find?_some h
  simpa using this

/-- Rows with the same key are the same row. -/
theorem Keyed.eq_of_key {m : Keyed α key} (hx : x ∈ m.entries) (hy : y ∈ m.entries)
    (h : key x = key y) : x = y :=
  inj_on_of_nodup_map m.nodup hx hy h

/-- Looking up and walking over the rows agree. -/
theorem Keyed.get_eq_some {m : Keyed α key} : m.get k = some x ↔ x ∈ m.entries ∧ key x = k := by
  constructor
  · intro h
    exact ⟨Keyed.mem_of_get h, Keyed.key_of_get h⟩
  · rintro ⟨hx, rfl⟩
    cases hf : m.get (key x) with
    | none =>
      have := List.find?_eq_none.mp hf x hx
      simp at this
    | some y =>
      have hy := Keyed.mem_of_get hf
      have hk := Keyed.key_of_get hf
      rw [Keyed.eq_of_key hy hx hk]

/-- Every element is found under its key. -/
theorem Keyed.get_key {m : Keyed α key} (hx : x ∈ m.entries) : m.get (key x) = some x :=
  Keyed.get_eq_some.mpr ⟨hx, rfl⟩

/-- Change the rows of a table or drop them; the keys stay. -/
def Keyed.filterMap (m : Keyed α key) (f : α → Option α)
    (hf : ∀ x y, f x = some y → key y = key x) : Keyed α key where
  entries := m.entries.filterMap f
  nodup := by
    have hsub : ∀ l : List α, ((l.filterMap f).map key).Sublist (l.map key) := by
      intro l
      induction l with
      | nil => exact List.Sublist.refl _
      | cons x l ih =>
        rw [filterMap_cons, map_cons]
        cases hx : f x with
        | none => exact ih.cons _
        | some y =>
          rw [map_cons, hf x y hx]
          exact ih.cons_cons _
    exact (hsub m.entries).nodup m.nodup

/-! ## Loops -/

/-- A loop makes `P` true exactly when it was or some turn makes it so. -/
theorem foldl_iff {Q : α → Prop} (hs : ∀ s x, P (f s x) ↔ P s ∨ Q x) :
    ∀ (l : List α) (s : σ), P (l.foldl f s) ↔ P s ∨ ∃ x ∈ l, Q x := by
  intro l
  induction l with
  | nil => intro s; simp
  | cons x l ih =>
    intro s
    rw [foldl_cons, ih, hs]
    simp [or_assoc]

/-- A list that every turn only appends to. -/
theorem foldl_append (proj : σ → List β) (hs : ∀ s x, proj (f s x) = proj s ++ g x) :
    ∀ (l : List α) (s : σ), proj (l.foldl f s) = proj s ++ l.flatMap g := by
  intro l
  induction l with
  | nil => intro s; simp
  | cons x l ih =>
    intro s
    rw [foldl_cons, ih, hs, flatMap_cons, append_assoc]

/-- What every turn leaves alone, the loop leaves alone. -/
theorem foldl_const (proj : σ → β) (hs : ∀ s x, proj (f s x) = proj s) :
    ∀ (l : List α) (s : σ), proj (l.foldl f s) = proj s :=
  fun l s => l.foldlRecOn (motive := (proj · = proj s)) f rfl fun s' h x _ => (hs s' x).trans h

/-- An invariant of every turn is one of the loop. -/
theorem foldl_invariant :
    ∀ (l : List α) (s : σ), (∀ s, ∀ x ∈ l, P s → P (f s x)) → P s → P (l.foldl f s) :=
  fun l _ hst hs => l.foldlRecOn f hs fun s hs x hx => hst s x hx hs

/-- An invariant that says what has been done. -/
theorem foldl_done {P : List α → σ → Prop} :
    ∀ (l done : List α) (s : σ), (∀ done s, ∀ x ∈ l, P done s → P (x :: done) (f s x)) →
      P done s → ∃ done', (∀ x, x ∈ done' ↔ x ∈ l ∨ x ∈ done) ∧ P done' (l.foldl f s) := by
  intro l
  induction l with
  | nil => intro done s _ hs; exact ⟨done, by simp, hs⟩
  | cons x l ih =>
    intro done s hst hs
    obtain ⟨done', hd, hr⟩ := ih (x :: done) (f s x)
      (fun done s y hy => hst done s y (mem_cons_of_mem x hy))
      (hst done s x mem_cons_self hs)
    refine ⟨done', fun y => ?_, hr⟩
    rw [hd, mem_cons, mem_cons]
    tauto

/-- Where keys are distinct, erasing the first row with a key erases all of them. -/
theorem eraseP_eq_filter (h : (l.map key).Nodup) :
    l.eraseP (fun x => decide (key x = k)) = l.filter (fun x => decide (key x ≠ k)) := by
  induction l with
  | nil => rfl
  | cons x l ih =>
    rw [map_cons, nodup_cons] at h
    by_cases hk : key x = k
    · have hr : ∀ y ∈ l, key y ≠ k := by
        intro y hy hky
        exact h.1 (mem_map.mpr ⟨y, hy, hky.trans hk.symm⟩)
      rw [eraseP_cons_of_pos (by simpa using hk), filter_cons_of_neg (by simpa using hk),
        filter_eq_self.mpr fun y hy => decide_eq_true (hr y hy)]
    · rw [eraseP_cons_of_neg (by simpa using hk), filter_cons_of_pos (by simpa using hk), ih h.2]

/-- In a list that has the elements with `p` first, the first match has `p` as soon as
    some match does. -/
theorem find?_first {p : α → Prop} {q : α → Bool} (hf : l.Pairwise (fun a b => p b → p a))
    {a : α} (ha : l.find? q = some a) (h : ∃ b ∈ l, q b ∧ p b) : p a := by
  obtain ⟨b, hb, hqb, hp⟩ := h
  induction l with
  | nil => cases hb
  | cons x l ih =>
    obtain ⟨hx, hl⟩ := pairwise_cons.mp hf
    by_cases hq : q x
    · -- the match is the head: it has `p`, or comes before one that does
      rw [List.find?_cons_of_pos hq] at ha
      cases ha
      rcases mem_cons.mp hb with rfl | hb
      · exact hp
      · exact hx b hb hp
    · rw [List.find?_cons_of_neg hq] at ha
      rcases mem_cons.mp hb with rfl | hb
      · exact absurd hqb hq
      · exact ih hl ha hb

/-- Two lists with the same elements. -/
def SameSet (l m : List α) : Prop := ∀ x, x ∈ l ↔ x ∈ m

theorem SameSet.refl (l : List α) : SameSet l l := fun _ => Iff.rfl

theorem SameSet.symm (h : SameSet l m) : SameSet m l := fun x => (h x).symm

theorem SameSet.trans (h : SameSet l m) (h' : SameSet m n) : SameSet l n :=
  fun x => (h x).trans (h' x)

theorem SameSet.append (h : SameSet l m) (h' : SameSet l' m') : SameSet (l ++ l') (m ++ m') := by
  intro x
  rw [mem_append, mem_append, h x, h' x]

theorem SameSet.filter (h : SameSet l m) (p : α → Bool) : SameSet (l.filter p) (m.filter p) := by
  intro x
  rw [mem_filter, mem_filter, h x]

/-- A list of results without failures. -/
theorem exists_mapM_id {l : List (Option α)} (h : ∀ x ∈ l, x.isSome) :
    ∃ l', l.mapM id = some l' ∧ ∀ v, v ∈ l' ↔ some v ∈ l := by
  induction l with
  | nil => exact ⟨[], rfl, by simp⟩
  | cons x l ih =>
    obtain ⟨v, rfl⟩ := Option.isSome_iff_exists.mp (h x mem_cons_self)
    obtain ⟨l', hl', hm⟩ := ih fun y hy => h y (mem_cons_of_mem _ hy)
    refine ⟨v :: l', by simp [mapM_cons, hl'], fun w => ?_⟩
    rw [mem_cons, mem_cons, hm, Option.some.injEq]

/-- … and only if all are there. -/
theorem isSome_of_mapM_id {l : List (Option α)} (h : l.mapM id = some l') : ∀ x ∈ l, x.isSome := by
  induction l generalizing l' with
  | nil => exact fun _ hx => absurd hx not_mem_nil
  | cons y l ih =>
    cases y with
    | none => simp at h
    | some v =>
      simp only [mapM_cons, id_eq, Option.bind_eq_bind, Option.bind_some,
        Option.bind_eq_some_iff] at h
      obtain ⟨l₀, hl, -⟩ := h
      exact forall_mem_cons.mpr ⟨rfl, ih hl⟩

/-- A result that was looked at through `f` is there. -/
theorem exists_ok_of_map {x : Except ε α} {f : α → β}
    (h : x.toOption.map f = some b) : ∃ v, x = .ok v ∧ f v = b := by
  cases x with
  | error e => cases h
  | ok v => exact ⟨v, rfl, Option.some.inj h⟩

/-- Reading after a write. -/
theorem lookup_insert_ite [DecidableEq κ] (m : AList fun _ : κ => β) (k k' : κ) (v : β) :
    (m.insert k v).lookup k' = if k = k' then some v else m.lookup k' := by
  split
  · next h => rw [← h, lookup_insert]
  · next h => exact lookup_insert_ne (Ne.symm h)

/-- What is found after an insertion is new, or was there under another key. -/
theorem of_lookup_insert [DecidableEq κ] {m : AList fun _ : κ => β} {k k' : κ} {v v' : β}
    (h : (m.insert k v).lookup k' = some v') :
    k' = k ∧ v' = v ∨ k' ≠ k ∧ m.lookup k' = some v' := by
  rw [lookup_insert_ite] at h
  split at h
  · next hk => exact .inl ⟨hk.symm, (Option.some.inj h).symm⟩
  · next hk => exact .inr ⟨Ne.symm hk, h⟩

/-- Reading after a removal. -/
theorem lookup_erase_ite [DecidableEq κ] (m : AList fun _ : κ => β) (k k' : κ) :
    (m.erase k).lookup k' = if k = k' then none else m.lookup k' := by
  split
  · next h => rw [← h, lookup_erase]
  · next h => exact lookup_erase_ne (Ne.symm h)

/-- A Go map with string keys; walking over it follows the entries. -/
abbrev GoMap (V : Type) := AList (fun _ : String => V)

variable {m : GoMap β}

theorem mem_of_lookup (h : m.lookup k = some v) : k ∈ m :=
  lookup_isSome.mp (Option.isSome_iff_exists.mpr ⟨v, h⟩)

theorem exists_lookup_of_mem (h : k ∈ m) : ∃ v, m.lookup k = some v :=
  Option.isSome_iff_exists.mp (lookup_isSome.mpr h)

/-- Setting a list of keys, each to its own value. -/
def insertAll (f : String → β) (ks : List String) (m : GoMap β) : GoMap β :=
  ks.foldl (fun m k => m.insert k (f k)) m

/-- After setting `ks`, a key of `ks` has its value and any other key its old one. -/
theorem lookup_insertAll (f : String → β) (k : String) : ∀ (ks : List String) (m : GoMap β),
    (insertAll f ks m).lookup k = if k ∈ ks then some (f k) else m.lookup k := by
  intro ks
  induction ks with
  | nil => intro m; rfl
  | cons x ks ih =>
    intro m
    rw [insertAll, foldl_cons, ← insertAll, ih]
    by_cases hk : k ∈ ks
    · rw [if_pos hk, if_pos (mem_cons_of_mem x hk)]
    rw [if_neg hk]
    by_cases hx : k = x
    · subst hx
      rw [lookup_insert, if_pos mem_cons_self]
    · rw [lookup_insert_ne hx, if_neg (by simp [hx, hk])]

/-- The keys after a write of several. -/
theorem mem_insertAll {f : String → β} : k ∈ insertAll f ks m ↔ k ∈ ks ∨ k ∈ m := by
  rw [← lookup_isSome, ← lookup_isSome, lookup_insertAll]
  by_cases hk : k ∈ ks <;> simp [hk]

/-- Setting those of a list of keys that have a value and are not there yet. -/
def insertNew (f : String → Option β) (ks : List String) (m : GoMap β) : GoMap β :=
  ks.foldl (fun m k =>
    match m.lookup k, f k with
    | none, some v => m.insert k v
    | _, _ => m) m

/-- An old key keeps its value; a new one gets its own. -/
theorem lookup_insertNew (f : String → Option β) (k : String) : ∀ (ks : List String) (m : GoMap β),
    (insertNew f ks m).lookup k = (m.lookup k).or (if k ∈ ks then f k else none) := by
  intro ks
  induction ks with
  | nil => intro m; simp [insertNew]
  | cons x ks ih =>
    intro m
    rw [insertNew, foldl_cons, ← insertNew, ih]
    by_cases hx : k = x
    · subst hx
      cases hm : m.lookup k with
      | some v => simp [hm]
      | none =>
        cases hf : f k with
        | some v => simp [lookup_insert]
        | none => simp [hm]
    · have hn : k ∈ x :: ks ↔ k ∈ ks := by simp [hx]
      simp only [hn]
      congr 1
      split
      · exact lookup_insert_ne hx
      · rfl

/-- The keys after a write of those that have a value. -/
theorem mem_insertNew {f : String → Option β} :
    k ∈ insertNew f ks m ↔ k ∈ m ∨ (k ∈ ks ∧ (f k).isSome) := by
  rw [← lookup_isSome, ← lookup_isSome, lookup_insertNew]
  by_cases hk : k ∈ ks <;> simp [hk, Option.isSome_or]

end Table

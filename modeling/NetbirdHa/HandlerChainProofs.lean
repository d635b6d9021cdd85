import NetbirdHa.DnsNameProofs
import NetbirdHa.TransitionProofs

/-! # The chain of DNS handlers

A handler is registered for a pattern, a domain or `*.` and a domain, with a
priority.  The chain is kept in the order in which a query is offered: higher
priorities first, then patterns with more dots.  `dispatch` offers a query to the
entries that match until one does not ask to continue.

* A wildcard matches by the characters of its domain: any name that ends with them
  and has a dot before, at any place (`isHandlerMatch_wildcard_iff`).
* The number of dots tells how deep a domain is, except that the root and a single
  label have one each (`dots_of_below`).  So a single label stands after the root if
  it comes later, and this is the only way in which the order fails. -/

namespace HandlerChain

open DnsName Transition List

/-- The priority of the local resolver. -/
def priorityLocal : Int := 75
/-- The priority of a nameserver group. -/
def priorityUpstream : Int := 50
/-- The priority of the root's resolvers. -/
def priorityDefault : Int := 1
/-- The priority of the fallback. -/
def priorityFallback : Int := -100

/-- An entry of the chain. -/
structure HandlerEntry (H : Type) where
  handler : H
  priority : Int
  pattern : Name
  origPattern : Name
  isWildcard : Bool
  matchSubdomains : Bool
deriving DecidableEq

/-- The handlers of a chain, in the order they are asked. -/
abbrev Chain (H : Type) := List (HandlerEntry H)

variable {H : Type} (lib : Library) (matcher : H → Option Bool)

section

variable (c : List (HandlerEntry H)) (pattern : Name) (handler : H) (priority : Int)

/-- The entry that `AddHandler` puts in the chain.  A handler that is no
    `SubdomainMatcher` does not match subdomains. -/
def newEntry : HandlerEntry H :=
  let pattern := lib.toLower (lib.fqdn pattern)
  let isWildcard := ['*', '.'].isPrefixOf pattern
  { handler, priority
    pattern := if isWildcard then pattern.drop 2 else pattern
    origPattern := pattern
    isWildcard
    matchSubdomains := (matcher handler).getD false }

/-- Where `findHandlerPosition` stops. -/
def stopsAt (new h : HandlerEntry H) : Bool :=
  decide (h.priority < new.priority) ||
    (decide (h.priority = new.priority) && decide (dots h.pattern < dots new.pattern))

/-- `findHandlerPosition`. -/
def findHandlerPosition (new : HandlerEntry H) (c : List (HandlerEntry H)) : Nat :=
  c.findIdx (stopsAt new)

/-- What `removeEntry` looks for. -/
def isEntry (e : HandlerEntry H) : Bool :=
  lib.equalFold e.origPattern pattern && decide (e.priority = priority)

/-- `removeEntry`: the last such entry goes. -/
def removeEntry : List (HandlerEntry H) :=
  (c.reverse.eraseP (isEntry lib pattern priority)).reverse

/-- `AddHandler`: an entry of the same pattern and priority is replaced. -/
def addHandler : List (HandlerEntry H) :=
  let entry := newEntry lib matcher pattern handler priority
  let c := removeEntry lib c entry.origPattern priority
  let pos := findHandlerPosition entry c
  c.take pos ++ entry :: c.drop pos

/-- `RemoveHandler`. -/
def removeHandler : List (HandlerEntry H) :=
  removeEntry lib c (lib.fqdn pattern) priority

/-- `isHandlerMatch`. -/
def isHandlerMatch (qname : Name) (entry : HandlerEntry H) : Bool :=
  if entry.pattern = root then true
  else if entry.isWildcard then
    decide (2 ≤ (labels (trimSuffix qname entry.pattern)).length) && entry.pattern.isSuffixOf qname
  else if entry.matchSubdomains then
    lib.equalFold qname entry.pattern || ('.' :: entry.pattern).isSuffixOf qname
  else lib.equalFold qname entry.pattern

/-- The loop of `dispatch`: the entries that are offered the query, in this order;
    `continues` says which handlers ask to go on. -/
def offers (continues : HandlerEntry H → Bool) (maxPriority : Int) (qname : Name) :
    List (HandlerEntry H) → List (HandlerEntry H)
  | [] => []
  | entry :: rest =>
    if maxPriority < entry.priority then offers continues maxPriority qname rest
    else if !isHandlerMatch lib qname entry then offers continues maxPriority qname rest
    else if continues entry then entry :: offers continues maxPriority qname rest
    else [entry]

/-- `dispatch`: a message without a question is not answered. -/
def dispatch (continues : HandlerEntry H → Bool) (maxPriority : Int) :
    List Name → List (HandlerEntry H)
  | [] => []
  | name :: _ => offers lib continues maxPriority (lib.toLower name) c

end

variable {e new f : HandlerEntry H} {c : Chain H}

/-! ## Wildcards -/

section

variable {lib matcher}

/-- The pattern of a wildcard is the domain after the star. -/
theorem newEntry_wildcard (p : Name) (h : H) (priority : Int) :
    (newEntry lib matcher ('*' :: '.' :: p) h priority).isWildcard ∧
      ((newEntry lib matcher ('*' :: '.' :: p) h priority).pattern = lib.toLower p ∨
        (newEntry lib matcher ('*' :: '.' :: p) h priority).pattern = lib.toLower p ++ ['.']) := by
  have hs : ∀ s : Name, lib.toLower ('*' :: '.' :: s) = '*' :: '.' :: lib.toLower s := by
    intro s
    rw [Library.toLower, map_cons, map_cons, lib.lower_star, lib.lower_dot]
    rfl
  have hl : ∀ q, lib.toLower (lib.fqdn ('*' :: '.' :: p)) = '*' :: '.' :: q →
      (newEntry lib matcher ('*' :: '.' :: p) h priority).isWildcard ∧
        (newEntry lib matcher ('*' :: '.' :: p) h priority).pattern = q := by
    intro q hq
    rw [newEntry, hq]
    exact ⟨rfl, rfl⟩
  rcases lib.fqdn_spec ('*' :: '.' :: p) with ⟨hf, -⟩ | hf
  · exact (hl _ (by rw [hf, hs])).imp_right .inl
  · refine (hl _ ?_).imp_right .inr
    rw [hf, cons_append, cons_append, hs, Library.toLower_append, Library.toLower_dot]
    rfl

/-- A name that the wildcard takes although it does not lie below its domain: any name
    for the root, otherwise one that ends with the characters of the domain where the
    part before them has a dot but not at its end. -/
def Misled (domain qname : Name) : Prop :=
  if domain = root then ¬ ['.', '.'] <:+ qname
  else ∃ x, qname = x ++ domain ∧ '.' ∈ x ∧ ¬ ['.'] <:+ x

/-- A wildcard matches the names that end with its domain and have a dot before it. -/
theorem isHandlerMatch_of_isWildcard (he : e.isWildcard) (hr : e.pattern ≠ root) (q : Name) :
    isHandlerMatch lib q e ↔ ∃ x, q = x ++ e.pattern ∧ '.' ∈ x := by
  rw [isHandlerMatch, if_neg hr, if_pos he, Bool.and_eq_true, decide_eq_true_iff,
    isSuffixOf_iff_suffix, length_labels]
  constructor
  · rintro ⟨hl, x, rfl⟩
    rw [trimSuffix_append] at hl
    exact ⟨x, rfl, dots_pos.mp (by omega)⟩
  · rintro ⟨x, rfl, hd⟩
    rw [trimSuffix_append]
    have := dots_pos.mpr hd
    exact ⟨by omega, suffix_append _ _⟩

/-- A dot and a name at the end, told by where the name starts. -/
theorem dot_cons_suffix_iff (p q : Name) : '.' :: p <:+ q ↔ ∃ x, q = x ++ p ∧ ['.'] <:+ x := by
  constructor
  · rintro ⟨y, rfl⟩
    exact ⟨y ++ ['.'], by simp, suffix_append _ _⟩
  · rintro ⟨-, rfl, y, rfl⟩
    exact ⟨y, by simp⟩

/-- When a wildcard matches the proper subdomains and no other name. -/
theorem match_iff_suffix_iff (he : e.isWildcard) (q : Name) :
    (isHandlerMatch lib q e ↔ '.' :: e.pattern <:+ q) ↔ ¬ Misled e.pattern q := by
  by_cases hr : e.pattern = root
  · have ha : isHandlerMatch lib q e := by rw [isHandlerMatch, if_pos hr]
    rw [Misled, if_pos hr, hr, not_not, iff_true_left ha]
    rfl
  rw [isHandlerMatch_of_isWildcard he hr, dot_cons_suffix_iff, Misled, if_neg hr]
  constructor
  · rintro h ⟨x, hq, hd, hen⟩
    obtain ⟨x', hq', he'⟩ := h.mp ⟨x, hq, hd⟩
    exact hen (append_cancel_right (hq.symm.trans hq') ▸ he')
  · intro h
    constructor
    · rintro ⟨x, hq, hd⟩
      by_contra hno
      exact h ⟨x, hq, hd, fun hen => hno ⟨x, hq, hen⟩⟩
    · rintro ⟨x, hq, hen⟩
      exact ⟨x, hq, hen.subset (mem_singleton_self _)⟩

/-- **What a wildcard matches.**  The handler registered for `*.p` is offered exactly the
    names that end with a dot and `p` (in lower case and fully qualified, which is the
    pattern of the entry) unless the name is one that misleads it. -/
theorem isHandlerMatch_wildcard_iff (lib : Library) (matcher : H → Option Bool) (p q : Name)
    (h : H) (priority : Int) :
    let e := newEntry lib matcher ('*' :: '.' :: p) h priority
    (e.pattern = lib.toLower p ∨ e.pattern = lib.toLower p ++ ['.']) ∧
      ((isHandlerMatch lib (lib.toLower q) e ↔ '.' :: e.pattern <:+ lib.toLower q) ↔
        ¬ Misled e.pattern (lib.toLower q)) := by
  intro e
  obtain ⟨hw, hp⟩ := @newEntry_wildcard H lib matcher p h priority
  exact ⟨hp, match_iff_suffix_iff hw _⟩

/-- The handler of `*.example.com` is offered `www.notexample.com.`. -/
theorem notexample_matches :
    let e := newEntry ascii (fun _ : Unit => none) "*.example.com".toList () priorityUpstream
    isHandlerMatch ascii (ascii.toLower "www.notexample.com.".toList) e = true ∧
      ¬ '.' :: e.pattern <:+ ascii.toLower "www.notexample.com.".toList := by
  decide

end

variable {pattern : Name} {priority : Int}

/-! ## The order of the chain -/

section

variable {lib matcher}

/-- By priority, then by dots. -/
def Sorted (e f : HandlerEntry H) : Prop :=
  f.priority < e.priority ∨ f.priority = e.priority ∧ dots f.pattern ≤ dots e.pattern

/-- The patterns or the priorities differ. -/
def Distinct (lib : Library) (e f : HandlerEntry H) : Prop :=
  ¬ (lib.equalFold e.origPattern f.origPattern ∧ e.priority = f.priority)

/-- The first one comes before the second one: its priority is not lower, and where they
    are equal the second one's pattern is not below the first one's. -/
def ComesFirst (e f : HandlerEntry H) : Prop :=
  f.priority ≤ e.priority ∧ (f.priority = e.priority → ¬ Below f.pattern e.pattern)

/-- The insertion stops at the first entry that may not come before the new one. -/
theorem stopsAt_iff : stopsAt new h ↔ ¬ Sorted h new := by
  rw [stopsAt, Bool.or_eq_true, Bool.and_eq_true, decide_eq_true_iff, decide_eq_true_iff,
    decide_eq_true_iff, Sorted]
  omega

/-- The order is total. -/
theorem Sorted.of_not (h : ¬ Sorted e f) : Sorted f e := by
  rw [Sorted] at h ⊢
  omega

/-- The order is transitive. -/
theorem Sorted.trans (h : Sorted e f) (h' : Sorted f g) : Sorted e g := by
  rw [Sorted] at h h' ⊢
  omega

/-- The new entry goes where its position says. -/
def insertEntry (new : HandlerEntry H) (c : List (HandlerEntry H)) : List (HandlerEntry H) :=
  c.take (findHandlerPosition new c) ++ new :: c.drop (findHandlerPosition new c)

/-- Insertion, by recursion on the chain. -/
theorem insertEntry_cons (new h : HandlerEntry H) (c : Chain H) :
    insertEntry new (h :: c) = if stopsAt new h then new :: h :: c else h :: insertEntry new c := by
  rw [insertEntry, findHandlerPosition, findIdx_cons]
  cases stopsAt new h <;> rfl

/-- Insertion adds the entry. -/
theorem perm_insertEntry (new : HandlerEntry H) (c : Chain H) :
    (insertEntry new c).Perm (new :: c) := by
  refine perm_middle.trans ?_
  rw [take_append_drop]

theorem mem_insertEntry : e ∈ insertEntry new c ↔ e = new ∨ e ∈ c := by
  rw [(perm_insertEntry new c).mem_iff, mem_cons]

/-- The new entry stands after those that are as high up as it is, and before the others. -/
theorem pairwise_insertEntry (hc : c.Pairwise Sorted)
    (hR : c.Pairwise R) (hb : ∀ e ∈ c, Sorted e new → R e new)
    (ha : ∀ e ∈ c, ¬ Sorted e new → R new e) : (insertEntry new c).Pairwise R := by
  induction c with
  | nil => exact pairwise_singleton _ _
  | cons h c ih =>
    rw [insertEntry_cons]
    split
    · next hst =>
      rw [stopsAt_iff] at hst
      refine pairwise_cons.mpr ⟨fun e he => ha e he ?_, hR⟩
      rcases mem_cons.mp he with rfl | he
      · exact hst
      · exact fun hs => hst ((rel_of_pairwise_cons hc he).trans hs)
    · next hst =>
      rw [stopsAt_iff, not_not] at hst
      refine pairwise_cons.mpr ⟨fun e he => ?_, ih hc.of_cons hR.of_cons
        (fun e he => hb e (mem_cons_of_mem _ he))
        (fun e he => ha e (mem_cons_of_mem _ he))⟩
      rcases mem_insertEntry.mp he with rfl | he
      · exact hb h mem_cons_self hst
      · exact rel_of_pairwise_cons hR he

/-- Everything as high up as the new entry stays in front of it. -/
theorem sublist_insertEntry (hc : c.Pairwise Sorted) (he : e ∈ c) (hs : Sorted e new) :
    [e, new].Sublist (insertEntry new c) := by
  induction c with
  | nil => cases he
  | cons h c ih =>
    have hh : Sorted h new := by
      rcases mem_cons.mp he with rfl | he
      · exact hs
      · exact (rel_of_pairwise_cons hc he).trans hs
    grind [insertEntry_cons, stopsAt_iff, mem_insertEntry]

/-- Removal keeps the order. -/
theorem removeEntry_sublist (lib : Library) (c : Chain H) (pattern : Name) (priority : Int) :
    (removeEntry lib c pattern priority).Sublist c := by
  grind [removeEntry]

/-- The entry a pattern and a priority name. -/
theorem isEntry_iff : isEntry lib pattern priority e ↔
    lib.equalFold e.origPattern pattern ∧ e.priority = priority := by
  rw [isEntry, Bool.and_eq_true, decide_eq_true_iff]

/-- Only entries of that pattern and priority go. -/
theorem mem_removeEntry_of_ne (he : e ∈ c) (hn : ¬ isEntry lib pattern priority e) :
    e ∈ removeEntry lib c pattern priority := by
  rw [removeEntry, mem_reverse]
  exact (mem_eraseP_of_neg hn).mpr (mem_reverse.mpr he)

/-- No entry of that pattern and priority is left if there was at most one. -/
theorem not_mem_removeEntry (hc : c.Pairwise (Distinct lib))
    (he : e ∈ removeEntry lib c pattern priority) : ¬ isEntry lib pattern priority e := by
  rw [removeEntry, mem_reverse] at he
  have hr : c.reverse.Pairwise (Distinct lib) := by
    rw [pairwise_reverse]
    refine hc.imp fun h => fun hs => h ⟨lib.equalFold_symm hs.1, hs.2.symm⟩
  generalize c.reverse = l at he hr
  induction l with
  | nil => cases he
  | cons f l ih =>
    by_cases hf : isEntry lib pattern priority f
    · rw [eraseP_cons_of_pos hf] at he
      intro hen
      rw [isEntry_iff] at hf hen
      exact rel_of_pairwise_cons hr he
        ⟨lib.equalFold_trans hf.1 (lib.equalFold_symm hen.1), hf.2.trans hen.2.symm⟩
    · rw [eraseP_cons_of_neg hf] at he
      rcases mem_cons.mp he with rfl | he
      · exact hf
      · exact ih he hr.of_cons

/-- Adding a handler is a removal and an insertion. -/
theorem addHandler_eq (c : Chain H) (pattern : Name) (handler : H) (priority : Int) :
    addHandler lib matcher c pattern handler priority =
      insertEntry (newEntry lib matcher pattern handler priority)
        (removeEntry lib c (newEntry lib matcher pattern handler priority).origPattern priority) :=
  rfl

/-- The chain is sorted and has one entry for each pattern and priority. -/
structure WellFormed (lib : Library) (c : List (HandlerEntry H)) : Prop where
  sorted : c.Pairwise Sorted
  distinct : c.Pairwise (Distinct lib)
  orig : ∀ e ∈ c, e.origPattern = if e.isWildcard then '*' :: '.' :: e.pattern else e.pattern

theorem WellFormed.nil : WellFormed lib ([] : Chain H) :=
  ⟨List.Pairwise.nil, List.Pairwise.nil, fun _ he => absurd he not_mem_nil⟩

section

theorem Distinct.symm (h : Distinct lib e f) : Distinct lib f e :=
  fun hs => h ⟨lib.equalFold_symm hs.1, hs.2.symm⟩

/-- The pattern as it was given, from the entry's own. -/
theorem newEntry_orig (pattern : Name) (handler : H) (priority : Int) :
    let e := newEntry lib matcher pattern handler priority
    e.origPattern = if e.isWildcard then '*' :: '.' :: e.pattern else e.pattern := by
  rw [newEntry]
  dsimp only
  split
  · next hw =>
    obtain ⟨rest, hr⟩ := isPrefixOf_iff_prefix.mp hw
    rw [← hr]
    rfl
  · rfl

/-- What a call does not look for keeps its order. -/
theorem sublist_removeEntry {l : Chain H} (h : l.Sublist c)
    (hl : ∀ e ∈ l, ¬ isEntry lib pattern priority e) :
    l.Sublist (removeEntry lib c pattern priority) := by
  have hr := h.reverse.eraseP (p := isEntry lib pattern priority)
  rw [eraseP_of_forall_not (fun e he => hl e (mem_reverse.mp he))] at hr
  have := hr.reverse
  rwa [reverse_reverse] at this

/-- Adding a handler keeps the order of the entries it does not replace. -/
theorem sublist_addHandler {l : Chain H} (h : l.Sublist c)
    (hl : ∀ e ∈ l, ¬ isEntry lib (lib.toLower (lib.fqdn pattern)) priority e) :
    l.Sublist (addHandler lib matcher c pattern handler priority) := by
  have hr := sublist_removeEntry h hl
  refine hr.trans ?_
  conv_lhs => rw [← take_append_drop (findHandlerPosition
    (newEntry lib matcher pattern handler priority)
    (removeEntry lib c (lib.toLower (lib.fqdn pattern)) priority))
    (removeEntry lib c (lib.toLower (lib.fqdn pattern)) priority)]
  exact List.Sublist.append (List.Sublist.refl _) (sublist_cons_self _ _)

variable (hc : WellFormed lib c)

include hc

/-- Removal keeps the chain well formed. -/
theorem WellFormed.removeEntry (pattern : Name) (priority : Int) :
    WellFormed lib (removeEntry lib c pattern priority) := by
  have hs := removeEntry_sublist lib c pattern priority
  exact ⟨hc.sorted.sublist hs, hc.distinct.sublist hs, fun e he => hc.orig e (hs.subset he)⟩

/-- So does adding a handler. -/
theorem WellFormed.addHandler (pattern : Name) (handler : H) (priority : Int) :
    WellFormed lib (addHandler lib matcher c pattern handler priority) := by
  rw [addHandler_eq]
  have hr := hc.removeEntry (newEntry lib matcher pattern handler priority).origPattern priority
  refine ⟨?_, ?_, fun e he => ?_⟩
  · exact pairwise_insertEntry hr.sorted hr.sorted (fun _ _ h => h) (fun _ _ h => Sorted.of_not h)
  · rw [(perm_insertEntry _ _).pairwise_iff Distinct.symm, pairwise_cons]
    refine ⟨fun e he hs => not_mem_removeEntry hc.distinct he ?_, hr.distinct⟩
    exact isEntry_iff.mpr ⟨lib.equalFold_symm hs.1, hs.2.symm⟩
  · rcases mem_insertEntry.mp he with rfl | he
    · exact newEntry_orig pattern handler priority
    · exact hr.orig e he

theorem mem_removeEntry :
    e ∈ removeEntry lib c pattern priority ↔ e ∈ c ∧ ¬ isEntry lib pattern priority e := by
  constructor
  · intro he
    exact ⟨(removeEntry_sublist lib c pattern priority).subset he,
      not_mem_removeEntry hc.distinct he⟩
  · rintro ⟨he, hn⟩
    exact mem_removeEntry_of_ne he hn

/-- The new entry is there, with the others of other patterns or priorities. -/
theorem mem_addHandler : e ∈ addHandler lib matcher c pattern handler priority ↔
    e = newEntry lib matcher pattern handler priority ∨
      e ∈ c ∧ ¬ isEntry lib (lib.toLower (lib.fqdn pattern)) priority e := by
  rw [addHandler_eq, mem_insertEntry, mem_removeEntry hc]
  rfl

/-- A pattern that is not there need not be removed before it is added. -/
theorem addHandler_removeEntry (pattern : Name) (handler : H) (priority : Int) :
    addHandler lib matcher (removeEntry lib c (lib.toLower (lib.fqdn pattern)) priority) pattern
        handler priority = addHandler lib matcher c pattern handler priority := by
  have hs : ∀ p, removeEntry lib (removeEntry lib c p priority) p priority =
      removeEntry lib c p priority := by
    intro p
    have hn : ∀ e ∈ (removeEntry lib c p priority).reverse, ¬ isEntry lib p priority e :=
      fun e he => not_mem_removeEntry hc.distinct (mem_reverse.mp he)
    conv_lhs => rw [removeEntry, eraseP_of_forall_not hn, reverse_reverse]
  rw [addHandler_eq]
  exact congrArg _ (hs _)

/-- No entry is listed twice. -/
theorem WellFormed.nodup : c.Nodup := by
  refine hc.distinct.imp fun hn he => ?_
  subst he
  exact hn ⟨lib.equalFold_refl _, rfl⟩

/-! ## Dispatch -/

/-- A list up to the first element that does not ask to continue. -/
def upTo {α : Type} (continues : α → Bool) : List α → List α
  | [] => []
  | e :: rest => if continues e then e :: upTo continues rest else [e]

omit hc in
theorem upTo_sublist (continues : α → Bool) (l : List α) : (upTo continues l).Sublist l := by
  induction l with
  | nil => exact List.Sublist.refl _
  | cons e l ih =>
    rw [upTo]
    split
    · exact List.Sublist.cons_cons _ ih
    · exact List.Sublist.cons_cons _ (nil_sublist _)

omit hc in
theorem upTo_true (l : List α) : upTo (fun _ => true) l = l := by
  induction l with
  | nil => rfl
  | cons e l ih => rw [upTo, if_pos rfl, ih]

/-- The entries that a query may be offered to. -/
def eligible (lib : Library) (maxPriority : Int) (qname : Name) (e : HandlerEntry H) : Bool :=
  decide (e.priority ≤ maxPriority) && isHandlerMatch lib qname e

omit hc in
/-- The handlers asked for a name: the eligible ones, up to the first that answers. -/
theorem offers_eq (continues : HandlerEntry H → Bool) (maxPriority : Int) (qname : Name)
    (c : Chain H) : offers lib continues maxPriority qname c =
      upTo continues (c.filter (eligible lib maxPriority qname)) := by
  induction c with
  | nil => rfl
  | cons e c ih =>
    rw [offers, ih, filter_cons, eligible]
    by_cases hp : maxPriority < e.priority
    · rw [if_pos hp, decide_eq_false (Int.not_le.mpr hp), Bool.false_and, if_neg Bool.false_ne_true]
    rw [if_neg hp, decide_eq_true (Int.not_lt.mp hp)]
    cases isHandlerMatch lib qname e with
    | false => rfl
    | true => rfl

/-! ## Histories -/

/-- A call. -/
inductive Op (H : Type) where
  | add (pattern : Name) (handler : H) (priority : Int)
  | remove (pattern : Name) (priority : Int)

section

variable (lib : Library) (matcher : H → Option Bool) (c : List (HandlerEntry H))

/-- What a call leaves of the chain. -/
def apply : Op H → List (HandlerEntry H)
  | .add pattern handler priority => addHandler lib matcher c pattern handler priority
  | .remove pattern priority => removeHandler lib c pattern priority

/-- Every call succeeds. -/
def step (op : Op H) : Option (List (HandlerEntry H)) := some (apply lib matcher c op)

/-- No single label is added while the root is in the chain with the same priority. -/
def Allowed : Op H → Prop
  | .add pattern handler priority =>
    ¬ (TopLevel (newEntry lib matcher pattern handler priority).pattern ∧
      ∃ e ∈ c, e.pattern = root ∧ e.priority = priority)
  | .remove _ _ => True

end

instance (c : List (HandlerEntry H)) : ∀ op, Decidable (Allowed lib matcher c op)
  | .add pattern handler priority => inferInstanceAs (Decidable (¬ (TopLevel
      (newEntry lib matcher pattern handler priority).pattern ∧
        ∃ e ∈ c, e.pattern = root ∧ e.priority = priority)))
  | .remove _ _ => isTrue trivial

/-- Every query is offered to matching handlers in the right order, and no two entries
    have the same pattern and priority. -/
structure Good (lib : Library) (c : List (HandlerEntry H)) : Prop where
  order : ∀ continues maxPriority names,
    (dispatch lib c continues maxPriority names).Pairwise ComesFirst
  distinct : c.Pairwise (Distinct lib)

/-- A single label does not stand after the root. -/
def Clean (e f : HandlerEntry H) : Prop :=
  ¬ (e.pattern = root ∧ TopLevel f.pattern ∧ f.priority = e.priority)

omit hc in
/-- In a clean chain sorted entries stand in the intended order. -/
theorem comesFirst_of_clean (hs : Sorted e f) (hcl : Clean e f) : ComesFirst e f := by
  refine ⟨by rw [Sorted] at hs; omega, fun hp hb => ?_⟩
  rcases dots_of_below hb with hd | ⟨hr, hto⟩
  · rw [Sorted] at hs
    omega
  · exact hcl ⟨hr, hto, hp⟩

/-- An allowed call keeps the chain clean. -/
theorem clean_apply (hcl : c.Pairwise Clean)
    (ho : Allowed lib matcher c op) : (apply lib matcher c op).Pairwise Clean := by
  cases op with
  | remove pattern priority =>
    exact hcl.sublist (removeEntry_sublist lib c (lib.fqdn pattern) priority)
  | add pattern handler priority =>
    show (addHandler lib matcher c pattern handler priority).Pairwise Clean
    have hsu := removeEntry_sublist lib c
      (newEntry lib matcher pattern handler priority).origPattern priority
    refine pairwise_insertEntry (hc.sorted.sublist hsu) (hcl.sublist hsu) ?_ ?_
    · rintro e he - ⟨hr, hto, hp⟩
      exact ho ⟨hto, e, hsu.subset he, hr, hp.symm⟩
    · rintro e - hs ⟨hr, hto, hp⟩
      -- one dot each, so the label would be as high up as the root
      apply hs
      rw [Sorted, hr, dots_root, dots_topLevel hto]
      omega

theorem wellFormed_apply (op : Op H) : WellFormed lib (apply lib matcher c op) := by
  cases op with
  | remove pattern priority => exact hc.removeEntry _ _
  | add pattern handler priority => exact hc.addHandler _ _ _

/-- A clean chain asks its handlers in the intended order. -/
theorem good_of_clean (hcl : c.Pairwise Clean) : Good lib c := by
  have hf : c.Pairwise ComesFirst := (hc.sorted.and hcl).imp fun h => comesFirst_of_clean h.1 h.2
  refine ⟨fun continues maxPriority names => ?_, hc.distinct⟩
  cases names with
  | nil => exact List.Pairwise.nil
  | cons name names =>
    rw [dispatch, offers_eq]
    exact hf.sublist ((upTo_sublist _ _).trans filter_sublist)

omit hc in
/-- The root and a single label are never taken for the same pattern. -/
theorem not_isEntry_of_topLevel
    (he : e.origPattern = if e.isWildcard then '*' :: '.' :: e.pattern else e.pattern)
    (hn : new.origPattern = if new.isWildcard then '*' :: '.' :: new.pattern else new.pattern)
    (hr : e.pattern = root) (hto : TopLevel new.pattern) (priority : Int) :
    ¬ isEntry lib new.origPattern priority e := by
  intro hen
  have hf := (isEntry_iff.mp hen).1
  have hl := lib.length_of_equalFold hf
  obtain ⟨x, hx, hd, hp⟩ := hto
  have hpo := length_pos_iff.mpr hx
  rw [he, hn, hr, hp] at hf hl
  cases hw : e.isWildcard <;> cases hw' : new.isWildcard <;> rw [hw, hw'] at hf hl <;>
    simp only [root, Bool.false_eq_true, if_true, if_false, length_cons, length_append,
      length_nil] at hl
  · omega
  · omega
  · -- the second character of the label would be a dot
    obtain ⟨a, b, rfl⟩ : ∃ a b, x = [a, b] := length_eq_two.mp (by omega)
    have hm := lib.equalFold_iff.mp hf
    simp only [root, if_true, Bool.false_eq_true, if_false, cons_append, nil_append,
      map_cons, List.cons.injEq] at hm
    have hb := lib.fold_dot b hm.2.1.symm
    exact hd (by simp [hb])
  · omega

omit hc in
/-- A name that a new entry matches. -/
theorem exists_match_newEntry (pattern : Name) (handler : H) (priority : Int) :
    let e := newEntry lib matcher pattern handler priority
    e.pattern ≠ root → ∃ q, isHandlerMatch lib (lib.toLower q) e = true := by
  intro e hr
  have hl : ∀ s : Name, lib.toLower ((lib.toLower s).drop 2) = (lib.toLower s).drop 2 := by
    intro s
    rw [Library.toLower, map_drop]
    exact congrArg (List.drop 2) (lib.toLower_toLower s)
  cases hw : e.isWildcard with
  | true =>
    refine ⟨'*' :: '.' :: e.pattern, ?_⟩
    rw [isHandlerMatch_of_isWildcard hw hr]
    refine ⟨['*', '.'], ?_, by simp⟩
    have hp : e.pattern = (lib.toLower (lib.fqdn pattern)).drop 2 := if_pos hw
    rw [Library.toLower, map_cons, map_cons, lib.lower_star, lib.lower_dot, hp]
    exact congrArg ('*' :: '.' :: ·) (hl _)
  | false =>
    refine ⟨lib.fqdn pattern, ?_⟩
    have hp : e.pattern = lib.toLower (lib.fqdn pattern) :=
      if_neg fun h => Bool.false_ne_true (hw.symm.trans h)
    rw [isHandlerMatch, if_neg hr, hw, if_neg Bool.false_ne_true, hp,
      Library.equalFold_refl, Bool.true_or, ite_self]

omit hc in
/-- A query that both of them match is offered to the root first. -/
theorem not_good_of_root_first (hs : [e, new].Sublist c) (hr : e.pattern = root)
    (hp : e.priority = new.priority) (hto : TopLevel new.pattern)
    (hq : isHandlerMatch lib (lib.toLower q) new) : ¬ Good lib c := by
  intro hg
  have ho := hg.order (fun _ => true) new.priority [q]
  rw [dispatch, offers_eq, upTo_true] at ho
  have hpa : [e, new].filter (eligible lib new.priority (lib.toLower q)) = [e, new] := by
    refine filter_eq_self.mpr fun f hf => ?_
    rcases mem_pair.mp hf with rfl | rfl
    · rw [eligible, hp, decide_eq_true (Int.le_refl _), isHandlerMatch, if_pos hr]
      rfl
    · rw [eligible, hq, Bool.and_true]
      exact decide_eq_true (Int.le_refl _)
  have hb := ho.sublist (hpa ▸ hs.filter (eligible lib new.priority (lib.toLower q)))
  have hfi : ComesFirst e new := rel_of_pairwise_cons hb (mem_singleton_self _)
  exact hfi.2 hp.symm (hr ▸ below_root_of_topLevel hto)

/-- A call that is not allowed spoils the order. -/
theorem not_good_apply (hno : ¬ Allowed lib matcher c op) :
    ¬ Good lib (apply lib matcher c op) := by
  cases op with
  | remove pattern priority => exact absurd trivial hno
  | add pattern handler priority =>
    obtain ⟨hto, e, he, hr, hp⟩ := not_not.mp hno
    obtain ⟨q, hq⟩ := exists_match_newEntry pattern handler priority (ne_root_of_topLevel hto)
    have hn := @not_isEntry_of_topLevel H lib e _ (hc.orig e he)
      (newEntry_orig pattern handler priority) hr hto priority
    refine not_good_of_root_first (sublist_insertEntry (hc.removeEntry _ _).sorted
      (mem_removeEntry_of_ne he hn) (.inr ⟨hp.symm, Nat.le_of_eq ?_⟩)) hr hp hto hq
    rw [hr, dots_root, dots_topLevel hto]

end

/-- **Queries are offered in order.**  After every history of calls in which no single label is
    added while the root is registered with the same priority, matching handlers are offered a query
    by priority, and those of equal priority with the lower domain first; no pattern is registered
    twice with a priority.  The next call keeps it so exactly if it meets that condition. -/
theorem dispatch_in_order (lib : Library) (matcher : H → Option Bool) (ops : List (Op H))
    (c : List (HandlerEntry H)) (hok : AllowedRun (step lib matcher) (Allowed lib matcher) [] ops)
    (hr : run (step lib matcher) [] ops = some c) :
    Good lib c ∧ (∀ op, Allowed lib matcher c op ↔ Good lib (apply lib matcher c op)) ∧
      ∀ continues maxPriority name names,
        dispatch lib c continues maxPriority (name :: names) =
          upTo continues (c.filter (eligible lib maxPriority (lib.toLower name))) := by
  have hs : ∀ (c : List (HandlerEntry H)) op c', WellFormed lib c ∧ c.Pairwise Clean →
      Allowed lib matcher c op → step lib matcher c op = some c' →
        WellFormed lib c' ∧ c'.Pairwise Clean := by
    rintro c op _ ⟨hw, hcl⟩ hop hc'
    obtain rfl := Option.some.inj hc'
    exact ⟨wellFormed_apply hw op, clean_apply hw hcl hop⟩
  obtain ⟨hw, hcl⟩ := run_invariant hs ops [] c ⟨WellFormed.nil, List.Pairwise.nil⟩ hok hr
  refine ⟨good_of_clean hw hcl, fun op => ⟨fun hop => ?_, fun hg => ?_⟩, ?_⟩
  · exact good_of_clean (wellFormed_apply hw op) (clean_apply hw hcl hop)
  · by_contra hno
    exact not_good_apply hw hno hg
  · intro continues maxPriority name names
    rw [dispatch, offers_eq]

/-- A single label, the root and a domain below the label, in this order. -/
theorem com_before_root :
    ∃ c, run (step ascii (fun _ : Unit => none)) [] [.add "com".toList () priorityUpstream,
        .add ".".toList () priorityUpstream, .add "example.com".toList () priorityUpstream] =
          some c ∧ Good ascii c :=
  exists_end rfl fun c hc => (dispatch_in_order ascii _ _ c (by decide) hc).1

/-- The root and then a single label: the label's own query goes to the root first. -/
theorem root_before_com :
    ∃ c, run (step ascii (fun _ : Unit => none)) [] [.add ".".toList () priorityUpstream,
        .add "com".toList () priorityUpstream] = some c ∧ ¬ Good ascii c := by
  refine ⟨_, rfl, fun hg => ?_⟩
  have ho := hg.order (fun _ => true) priorityUpstream ["com.".toList]
  have hd : dispatch ascii
      (apply ascii (fun _ => none)
        (apply ascii (fun _ => none) [] (.add ".".toList () priorityUpstream))
        (.add "com".toList () priorityUpstream))
      (fun _ => true) priorityUpstream ["com.".toList] =
        [⟨(), priorityUpstream, root, root, false, false⟩,
          ⟨(), priorityUpstream, "com.".toList, "com.".toList, false, false⟩] := by decide
  have hf := rel_of_pairwise_cons ho (mem_singleton_self _)
  exact hf.2 rfl ⟨"com".toList, by decide, by decide⟩

end

end HandlerChain

import NetbirdHa.DnsUpdateProofs

/-! # Taking an upstream resolver out and putting it back

An upstream resolver whose servers do not answer calls `deactivate`, and `reactivate`
when they do again.  Both go by the domains of its nameserver group, and use the one
priority that the resolver has for the domain it was made for.  Priorities are given out
for each domain, so for another domain of the group this priority may belong to another
group, or to nobody.

`callbacks_iff` says when nothing else is touched and everything comes back.  The
fallback tier belongs to the host, whose decisions are arbitrary here, and is left out.
A handler that comes back is put after those with its priority and depth, and the order
in which the domains come back is the order of a Go map, so a chain with the same
handlers need not be the same list; the theorem has a condition for either. -/

namespace DnsServer

open DnsName HandlerChain List AList

/-! ## The callbacks -/

/-- `removeIndex`: where in the host configuration a domain stands, or -1. -/
abbrev RemoveIndex := AList (fun _ : Name => Int)

/-- What the loop of `deactivate` works on. -/
structure Work where
  domains : List DomainConfig
  chain : List (HandlerEntry Handler)
  removeIndex : RemoveIndex

/-- One turn of the loop over the domains of the host configuration. -/
def deactivateItem (lib : Library) (priority : Int) (w : Work) (item : DomainConfig × Nat) : Work :=
  if item.1.domain ∈ w.removeIndex then
    { domains := w.domains.modify item.2 (fun d => { d with disabled := true })
      chain := deregisterHandler lib w.chain [item.1.domain] priority
      removeIndex := w.removeIndex.insert item.1.domain item.2 }
  else w

/-- The domains of a group, none found yet. -/
def groupIndex (group : NameServerGroup) : RemoveIndex :=
  let m : RemoveIndex := group.domains.foldl (fun m d => m.insert d (-1)) ∅
  if group.primary then m.insert root (-1) else m

/-- `deactivate` of the resolver `u`. -/
def deactivate (lib : Library) (android : Bool) (effect : HostEffect) (u : Upstream) (s : Server) :
    Server × RemoveIndex :=
  let group := u.group
  let w : Work :=
    { domains := s.currentConfig.domains
      chain := if group.primary then deregisterHandler lib s.chain [root] u.priority else s.chain
      removeIndex := groupIndex group }
  let w := s.currentConfig.domains.zipIdx.foldl (deactivateItem lib u.priority) w
  let chain := registerFallback lib effect w.chain
  ({ s with
      currentConfig :=
        { domains := w.domains
          routeAll := if group.primary then false else s.currentConfig.routeAll }
      chain := if android && group.primary && s.hosts then addHostRootZone lib s.hosts chain
        else chain },
    w.removeIndex)

/-- The domain still stands where it was found. -/
def stillAt (domains : List DomainConfig) (entry : Name × Int) : Bool :=
  decide (entry.2 ≠ -1) && decide ((domains[entry.2.toNat]?).map DomainConfig.domain = some entry.1)

/-- One turn of the loop over `removeIndex`. -/
def reactivateItem (lib : Library) (u : Upstream)
    (w : List DomainConfig × List (HandlerEntry Handler))
    (entry : Name × Int) : List DomainConfig × List (HandlerEntry Handler) :=
  if stillAt w.1 entry then
    (w.1.modify entry.2.toNat (fun d => { d with disabled := false }),
      registerHandler lib w.2 [entry.1] (.upstream u) u.priority)
  else w

/-- `reactivate` of the resolver `u`; `order` is the map in the order of the loop. -/
def reactivate (lib : Library) (effect : HostEffect) (u : Upstream) (order : List (Name × Int))
    (s : Server) : Server :=
  let w := order.foldl (reactivateItem lib u) (s.currentConfig.domains, s.chain)
  let chain := if u.group.primary then registerHandler lib w.2 [root] (.upstream u) u.priority
    else w.2
  { s with
    currentConfig :=
      { domains := w.1, routeAll := if u.group.primary then true else s.currentConfig.routeAll }
    chain := registerFallback lib effect chain }

/-- The entries of `removeIndex`, in some order. -/
def RemoveIndex.toList (m : RemoveIndex) : List (Name × Int) := m.entries.map (fun e => (e.1, e.2))

variable {lib : Library} {u : Upstream} {s : Server} {d : Name} {i : Int} {android : Bool}
  {effect : HostEffect} {order : List (Name × Int)} {skip : HandlerEntry Handler → Prop}

/-! ## What the loops do -/

/-- The domains of the host configuration that the group asks for. -/
def hits (u : Upstream) (s : Server) : List Name :=
  (s.currentConfig.domains.map DomainConfig.domain).filter (· ∈ groupIndex u.group)

/-- The root, where the group is a primary one. -/
def rootOf (u : Upstream) : List Name := if u.group.primary then [root] else []

/-- Registering a list in two parts. -/
theorem registerHandler_append (c : Chain Handler) (ds es : List Name)
    (handler : Handler) (priority : Int) : registerHandler lib c (ds ++ es) handler priority =
      registerHandler lib (registerHandler lib c ds handler priority) es handler priority :=
  foldl_append

/-- Changing other fields of an item leaves the domains alone. -/
theorem map_domain_modify (l : List DomainConfig) (i : Nat) (hf : ∀ d, (f d).domain = d.domain) :
    (l.modify i f).map DomainConfig.domain = l.map DomainConfig.domain := by
  refine ext_getElem? fun n => ?_
  grind

/-- What the loop of `deactivate` has done after some items. -/
theorem foldl_deactivateItem (priority : Int) (items : List (DomainConfig × Nat)) (w : Work) :
    let w' := items.foldl (deactivateItem lib priority) w
    w'.domains.map DomainConfig.domain = w.domains.map DomainConfig.domain ∧
    w'.chain = deregisterHandler lib w.chain
      ((items.map (·.1.domain)).filter (· ∈ w.removeIndex)) priority ∧
    (∀ d, d ∈ w'.removeIndex ↔ d ∈ w.removeIndex) ∧
    (∀ d i, w'.removeIndex.lookup d = some i → (∃ item ∈ items, item.1.domain = d ∧ i = item.2) ∨
      w.removeIndex.lookup d = some i ∧ ∀ item ∈ items, item.1.domain ≠ d) := by
  induction items generalizing w with
  | nil => exact ⟨rfl, rfl, fun d => Iff.rfl, fun d i h => .inr ⟨h, by simp⟩⟩
  | cons item items ih =>
    obtain ⟨hn, hc, hk, hl⟩ := ih (deactivateItem lib priority w item)
    have hs : ∀ d, d ∈ (deactivateItem lib priority w item).removeIndex ↔ d ∈ w.removeIndex := by
      intro d
      rw [deactivateItem]
      split
      · next hm =>
        rw [mem_insert]
        exact ⟨fun h => h.elim (· ▸ hm) id, .inr⟩
      · exact Iff.rfl
    rw [foldl_cons]
    refine ⟨?_, ?_, fun d => (hk d).trans (hs d), fun d i hd => ?_⟩
    · rw [hn, deactivateItem]
      split
      · exact map_domain_modify w.domains item.2 fun d => rfl
      · rfl
    · rw [hc]
      simp only [hs]
      rw [map_cons, filter_cons, deactivateItem]
      split
      · next hm =>
        rw [if_pos (decide_eq_true hm)]
        rfl
      · next hm => rw [if_neg (fun h => hm (of_decide_eq_true h))]
    · rcases hl d i hd with ⟨it, hit, hdo, hi⟩ | ⟨hd', hno⟩
      · exact .inl ⟨it, mem_cons_of_mem item hit, hdo, hi⟩
      rw [deactivateItem] at hd'
      split at hd'
      · by_cases hdo : item.1.domain = d
        · rw [hdo, lookup_insert] at hd'
          exact .inl ⟨item, mem_cons_self, hdo, (Option.some.inj hd').symm⟩
        · rw [lookup_insert_ne (hdo ·.symm)] at hd'
          exact .inr ⟨hd', forall_mem_cons.mpr ⟨hdo, hno⟩⟩
      · next hm =>
        refine .inr ⟨hd', forall_mem_cons.mpr ⟨?_, hno⟩⟩
        intro hdo
        exact hm (hdo ▸ lookup_isSome.mp (hd' ▸ rfl))

/-- Where the loop of `deactivate` starts. -/
def startWork (lib : Library) (u : Upstream) (s : Server) : Work :=
  { domains := s.currentConfig.domains
    chain := if u.group.primary then deregisterHandler lib s.chain [root] u.priority else s.chain
    removeIndex := groupIndex u.group }

theorem map_domain_zipIdx (l : List DomainConfig) :
    l.zipIdx.map (·.1.domain) = l.map DomainConfig.domain := by
  have hf : l.zipIdx.map Prod.fst = l := zipIdx_map_fst 0 l
  conv_rhs => rw [← hf, map_map]
  rfl

/-- What `deactivate` leaves in the chain. -/
theorem deactivate_chain (android : Bool) (effect : HostEffect) (s : Server) :
    (deactivate lib android effect u s).1.chain =
      let c := registerFallback lib effect
        (deregisterHandler lib s.chain (rootOf u ++ hits u s) u.priority)
      if android && u.group.primary && s.hosts then addHostRootZone lib s.hosts c else c := by
  obtain ⟨-, hc, -, -⟩ :=
    @foldl_deactivateItem lib u.priority s.currentConfig.domains.zipIdx (startWork lib u s)
  have hro : (startWork lib u s).chain = deregisterHandler lib s.chain (rootOf u) u.priority := by
    rw [startWork, rootOf]
    cases u.group.primary <;> rfl
  rw [hro, map_domain_zipIdx, deregisterHandler, deregisterHandler, ← List.foldl_append] at hc
  rw [deactivate]
  rw [← startWork, hc]
  rfl

/-- Deactivation flags domains and leaves their names. -/
theorem deactivate_domains (android : Bool) (effect : HostEffect) (s : Server) :
    (deactivate lib android effect u s).1.currentConfig.domains.map DomainConfig.domain =
      s.currentConfig.domains.map DomainConfig.domain :=
  (@foldl_deactivateItem lib u.priority s.currentConfig.domains.zipIdx (startWork lib u s)).1

/-- The entry's index still leads to its domain. -/
theorem stillAt_iff : stillAt domains entry ↔
    entry.2 ≠ -1 ∧ (domains.map DomainConfig.domain)[entry.2.toNat]? = some entry.1 := by
  rw [stillAt, Bool.and_eq_true, decide_eq_true_iff, decide_eq_true_iff, List.getElem?_map]

/-- The index as a list of pairs. -/
theorem RemoveIndex.mem_toList {m : RemoveIndex} : (d, i) ∈ m.toList ↔ m.lookup d = some i := by
  rw [RemoveIndex.toList, mem_map]
  constructor
  · rintro ⟨⟨d', i'⟩, hm, he⟩
    obtain ⟨rfl, rfl⟩ := Prod.mk.inj he
    exact mem_lookup_iff.mpr hm
  · intro h
    exact ⟨⟨d, i⟩, mem_lookup_iff.mp h, rfl⟩

/-- The domains that were found are those that are put back. -/
theorem stillAt_deactivate (h : (d, i) ∈ (deactivate lib android effect u s).2.toList) :
    stillAt (deactivate lib android effect u s).1.currentConfig.domains (d, i) ↔ d ∈ hits u s := by
  obtain ⟨-, -, hk, hl⟩ :=
    @foldl_deactivateItem lib u.priority s.currentConfig.domains.zipIdx (startWork lib u s)
  rw [RemoveIndex.mem_toList] at h
  have hke : d ∈ groupIndex u.group := (hk d).mp (lookup_isSome.mp (h ▸ rfl))
  rw [stillAt_iff, deactivate_domains, hits]
  rcases hl d i h with ⟨⟨item, j⟩, hi, rfl, rfl⟩ | ⟨hold, hn⟩
  all_goals grind [map_domain_zipIdx]

/-- Every domain the resolver serves gets an index. -/
theorem exists_index (lib : Library) (android : Bool) (effect : HostEffect) (h : d ∈ hits u s) :
    ∃ i, (d, i) ∈ (deactivate lib android effect u s).2.toList := by
  obtain ⟨-, -, hk, -⟩ :=
    @foldl_deactivateItem lib u.priority s.currentConfig.domains.zipIdx (startWork lib u s)
  have hke : d ∈ groupIndex u.group := of_decide_eq_true (mem_filter.mp h).2
  obtain ⟨i, hi⟩ := Option.isSome_iff_exists.mp (lookup_isSome.mpr ((hk d).mpr hke))
  exact ⟨i, RemoveIndex.mem_toList.mpr hi⟩

/-- The domains that the loop of `reactivate` registers. -/
def found (domains : List DomainConfig) (order : List (Name × Int)) : List Name :=
  (order.filter (stillAt domains)).map Prod.fst

/-- Reactivation registers the domains it still finds, in the order it is given. -/
theorem foldl_reactivateItem (order : List (Name × Int)) (w : List DomainConfig × Chain Handler) :
    (order.foldl (reactivateItem lib u) w).2 =
      registerHandler lib w.2 (found w.1 order) (.upstream u) u.priority := by
  induction order generalizing w with
  | nil => rfl
  | cons entry order ih =>
    rw [foldl_cons, ih, reactivateItem, found, found, filter_cons]
    split
    · have hs : stillAt (w.1.modify entry.2.toNat (fun d => { d with disabled := false })) =
          stillAt w.1 := by
        ext e
        rw [Bool.eq_iff_iff, stillAt_iff, stillAt_iff, map_domain_modify]
        exact fun d => rfl
      rw [hs]
      rfl
    · rfl

/-- What reactivation does to the chain. -/
theorem reactivate_chain (effect : HostEffect) (order : List (Name × Int)) (s : Server) :
    (reactivate lib effect u order s).chain =
      registerFallback lib effect (registerHandler lib s.chain
        (found s.currentConfig.domains order ++ rootOf u) (.upstream u) u.priority) := by
  rw [reactivate]
  rw [registerHandler_append, foldl_reactivateItem, rootOf]
  cases u.group.primary <;> rfl

/-- The domains that are put back are those that were found, and any of them can be the last one. -/
theorem mem_found (ho : order.Perm (deactivate lib android effect u s).2.toList) :
    d ∈ found (deactivate lib android effect u s).1.currentConfig.domains order ↔ d ∈ hits u s := by
  rw [found, mem_map]
  constructor
  · rintro ⟨⟨d', i⟩, hm, rfl⟩
    obtain ⟨hm, hs⟩ := mem_filter.mp hm
    exact (stillAt_deactivate (ho.mem_iff.mp hm)).mp hs
  · intro hd
    obtain ⟨i, hi⟩ := exists_index lib android effect hd
    exact ⟨(d, i), mem_filter.mpr ⟨ho.mem_iff.mpr hi, (stillAt_deactivate hi).mpr hd⟩, rfl⟩

/-- Any domain can come first when the map is walked. -/
theorem exists_order (android : Bool) (effect : HostEffect) (hd : d ∈ hits u s) :
    ∃ order : List (Name × Int), order.Perm (deactivate lib android effect u s).2.toList ∧
      ∃ ds,
        found (deactivate lib android effect u s).1.currentConfig.domains order = ds ++ [d] := by
  obtain ⟨i, hi⟩ := exists_index lib android effect hd
  refine ⟨(deactivate lib android effect u s).2.toList.erase (d, i) ++ [(d, i)], ?_, ?_⟩
  · exact (perm_append_singleton _ _).trans (perm_cons_erase hi).symm
  · rw [found, filter_append, map_append, filter_singleton, (stillAt_deactivate hi).mpr hd]
    exact ⟨_, rfl⟩

/-! ## The handlers before and after -/

section

variable {effect' : HostEffect} {e : HandlerEntry Handler} {c : Chain Handler}

/-- The entry of the resolver for a domain, and the one for the host's own servers. -/
def ownEntry (lib : Library) (u : Upstream) (d : Name) : HandlerEntry Handler :=
  newEntry lib Handler.matcher d (.upstream u) u.priority

/-- The entry of the host's own servers. -/
def hostEntry (lib : Library) : HandlerEntry Handler :=
  newEntry lib Handler.matcher root .hostRoot priorityDefault

/-- `deactivate` puts the host's own servers in. -/
def restores (android : Bool) (u : Upstream) (s : Server) : Bool :=
  android && u.group.primary && s.hosts

/-- Everything that `deactivate` asks for is the resolver's own, and the host's servers
    only take its place or one that they had before. -/
structure Own (lib : Library) (android : Bool) (u : Upstream) (s : Server) : Prop where
  own : ∀ d ∈ rootOf u ++ hits u s, d ≠ [] → ownEntry lib u d ∈ s.chain
  host : restores android u s → u.priority = priorityDefault ∨ hostEntry lib ∈ s.chain

theorem fqdn_of_lower (h : lib.toLower d = d) : lib.toLower (lib.fqdn d) = lib.fqdn d := by
  rcases lib.fqdn_spec d with ⟨hf, -⟩ | hf
  · rw [hf, h]
  · rw [hf, Library.toLower_append, h, Library.toLower_dot, Library.toLower_nil]

/-- Only the root is treated as the root. -/
theorem mem_rootOf (h : d ∈ rootOf u) : d = root ∧ rootOf u = [root] := by
  rw [rootOf] at h ⊢
  split at h
  · next hp => exact ⟨mem_singleton.mp h, if_pos hp⟩
  · cases h

/-- The names registered again are in lower case. -/
theorem Ready.lower_of_mem (hr : Ready lib s) (hd : d ∈ rootOf u ++ hits u s) :
    lib.toLower (lib.fqdn d) = lib.fqdn d := by
  refine fqdn_of_lower ?_
  rcases mem_append.mp hd with hd | hd
  · rw [(mem_rootOf hd).1, root, Library.toLower_dot, Library.toLower_nil]
  · obtain ⟨item, hi, rfl⟩ := mem_map.mp (mem_filter.mp hd).1
    exact hr.lower item hi

theorem isEntry_ownEntry (d : Name) :
    isEntry lib (lib.toLower (lib.fqdn d)) u.priority (ownEntry lib u d) :=
  isEntry_newEntry _ _ _

theorem isEntry_hostEntry : isEntry lib root priorityDefault (hostEntry lib) := by
  have := @isEntry_newEntry lib root .hostRoot priorityDefault
  rwa [pattern_root] at this

theorem hostEntry_priority_ne : (hostEntry lib).priority ≠ priorityFallback :=
  (by decide : priorityDefault ≠ priorityFallback)

/-- A chain has one entry for a pattern and a priority. -/
theorem eq_of_isEntry (hc : WellFormed lib c) (he : e ∈ c)
    (hf : f ∈ c) (hep : isEntry lib p i e) (hfp : isEntry lib p i f) : e = f := by
  have : Std.Symm (@Distinct Handler lib) := ⟨fun _ _ h => h.symm⟩
  by_contra hne
  rw [isEntry_iff] at hep hfp
  exact hc.distinct.forall he hf hne
    ⟨lib.equalFold_trans hep.1 (lib.equalFold_symm hfp.1), hep.2.trans hfp.2.symm⟩

/-- The fallback touches no entry of another priority. -/
theorem mem_registerFallback (hc : WellFormed lib c) (he : e.priority ≠ priorityFallback) :
    e ∈ registerFallback lib effect c ↔ e ∈ c := by
  have hn : ∀ p, ¬ isEntry lib p priorityFallback e := fun p h => he (isEntry_iff.mp h).2
  cases effect with
  | keep => exact Iff.rfl
  | register =>
    rw [registerFallback, mem_registerHandler_single hc, or_iff_right, and_iff_left]
    · exact fun _ => hn _
    · rintro ⟨-, rfl⟩
      exact he rfl
  | deregister =>
    rw [registerFallback, mem_deregisterHandler hc, and_iff_left]
    exact fun d _ _ => hn _

/-- The chain without what `deactivate` asks for. -/
abbrev taken (lib : Library) (effect : HostEffect) (u : Upstream) (s : Server) : Chain Handler :=
  registerFallback lib effect (deregisterHandler lib s.chain (rootOf u ++ hits u s) u.priority)

theorem rootOf_of_restores (h : restores android u s) : root ∈ rootOf u := by
  rw [restores, Bool.and_eq_true, Bool.and_eq_true] at h
  rw [rootOf, if_pos h.1.2]
  exact mem_singleton_self _

section

variable (hr : Ready lib s)

include hr

/-- The chain without the resolver's entries is well formed. -/
theorem Ready.wellFormed_taken : WellFormed lib (taken lib effect u s) :=
  wellFormed_registerFallback (wellFormed_deregisterHandler hr.wellFormed _ _) effect

/-- Deactivation keeps the chain well formed. -/
theorem wellFormed_deactivate : WellFormed lib (deactivate lib android effect u s).1.chain := by
  rw [deactivate_chain]
  split
  · exact wellFormed_addHostRootZone hr.wellFormed_taken s.hosts
  · exact hr.wellFormed_taken

/-- The domains of the host configuration stay in lower case. -/
theorem Ready.of_domains (hw : WellFormed lib s'.chain)
    (hd : s'.currentConfig.domains.map DomainConfig.domain =
      s.currentConfig.domains.map DomainConfig.domain) : Ready lib s' := by
  refine ⟨hw, fun item hi => ?_⟩
  have hm : item.domain ∈ s'.currentConfig.domains.map DomainConfig.domain :=
    mem_map.mpr ⟨item, hi, rfl⟩
  rw [hd] at hm
  obtain ⟨item', hi', hd⟩ := mem_map.mp hm
  rw [← hd]
  exact hr.lower item' hi'

/-- The callbacks keep what every call keeps. -/
theorem ready_deactivate : Ready lib (deactivate lib android effect u s).1 :=
  hr.of_domains (wellFormed_deactivate hr) (deactivate_domains android effect s)

/-- Reactivation keeps the server ready. -/
theorem ready_reactivate (order : List (Name × Int)) :
    Ready lib (reactivate lib effect u order s) := by
  have hn : (reactivate lib effect u order s).currentConfig.domains.map DomainConfig.domain =
      s.currentConfig.domains.map DomainConfig.domain := by
    refine Table.foldl_const (fun w : List DomainConfig × Chain Handler =>
      w.1.map DomainConfig.domain) (fun w entry => ?_) order _
    rw [reactivateItem]
    split
    · exact map_domain_modify w.1 entry.2.toNat fun d => rfl
    · rfl
  refine hr.of_domains ?_ hn
  rw [reactivate_chain]
  exact wellFormed_registerFallback (wellFormed_registerHandler hr.wellFormed _ _ _) effect

/-- What `deactivate` leaves outside the fallback tier. -/
theorem mem_deactivate (he : e.priority ≠ priorityFallback) :
    e ∈ (deactivate lib android effect u s).1.chain ↔ restores android u s ∧ e = hostEntry lib ∨
        (e ∈ s.chain ∧ ∀ d ∈ rootOf u ++ hits u s, d ≠ [] →
          ¬ isEntry lib (lib.fqdn d) u.priority e) ∧
        (restores android u s → ¬ isEntry lib root priorityDefault e) := by
  have hw := wellFormed_deregisterHandler hr.wellFormed (rootOf u ++ hits u s) u.priority
  have hm : e ∈ taken lib effect u s ↔ e ∈ s.chain ∧ ∀ d ∈ rootOf u ++ hits u s, d ≠ [] →
          ¬ isEntry lib (lib.fqdn d) u.priority e := by
    rw [mem_registerFallback hw he, mem_deregisterHandler hr.wellFormed]
  rw [deactivate_chain]
  by_cases hre : (android && u.group.primary && s.hosts) = true
  · have hh : s.hosts := (Bool.and_eq_true _ _ ▸ hre).2
    have hro : root ≠ [] := cons_ne_nil _ _
    rw [if_pos hre, addHostRootZone, if_pos hh,
      mem_registerHandler_single hr.wellFormed_taken, hm, pattern_root,
      forall_prop_of_true hro, and_iff_right hro, restores, hre, and_iff_right rfl,
      forall_prop_of_true rfl]
    rfl
  · rw [if_neg hre, hm, or_iff_right (hre ·.1)]
    exact (and_iff_left fun h => absurd h hre).symm

end

/-- What is taken out is the resolver's own. -/
theorem Own.eq_of_isEntry (h : Own lib android u s) (hr : Ready lib s) (he : e ∈ s.chain)
    (hd : d ∈ rootOf u ++ hits u s) (hn : d ≠ [])
    (hen : isEntry lib (lib.fqdn d) u.priority e) : e = ownEntry lib u d := by
  refine DnsServer.eq_of_isEntry hr.wellFormed he (h.own d hd hn) hen ?_
  rw [← hr.lower_of_mem hd]
  exact isEntry_ownEntry d

/-- What is not asked for stays. -/
theorem Own.mem_deactivate_of_kept (h : Own lib android u s) (hr : Ready lib s)
    (hp : e.priority ≠ priorityFallback) (he : e ∈ s.chain)
    (hk : ∀ d ∈ rootOf u ++ hits u s, d ≠ [] → ¬ isEntry lib (lib.fqdn d) u.priority e) :
    e ∈ (deactivate lib android effect u s).1.chain := by
  rw [mem_deactivate hr hp]
  by_cases hpl : restores android u s ∧ isEntry lib root priorityDefault e
  · -- the host's servers take its place
    obtain ⟨hre, hen⟩ := hpl
    rcases h.host hre with hon | hh
    · refine absurd ?_ (hk root (mem_append_left _ (rootOf_of_restores hre)) (cons_ne_nil _ _))
      rw [root, lib.fqdn_root, hon]
      exact hen
    · exact .inl ⟨hre, DnsServer.eq_of_isEntry hr.wellFormed he hh hen isEntry_hostEntry⟩
  · exact .inr ⟨⟨he, hk⟩, fun hre hen => hpl ⟨hre, hen⟩⟩

/-- Only handlers of the group go. -/
def OnlyGroup (lib : Library) (android : Bool) (effect : HostEffect) (u : Upstream) (s : Server) :
    Prop :=
  ∀ e ∈ s.chain, e.priority ≠ priorityFallback →
    e ∉ (deactivate lib android effect u s).1.chain →
      ∃ v : Upstream, e.handler = .upstream v ∧ v.group = u.group

/-- A resolver whose entries are its own is the only group at them. -/
theorem Own.onlyGroup (h : Own lib android u s) (hr : Ready lib s) :
    OnlyGroup lib android effect u s := by
  intro e he hp hg
  by_contra hother
  refine hg (h.mem_deactivate_of_kept hr hp he fun d hd hn hen => hother ⟨u, ?_, rfl⟩)
  rw [h.eq_of_isEntry hr he hd hn hen]
  rfl

section

variable (lib : Library) (android : Bool) (effect : HostEffect) (u : Upstream) (s : Server)

/-- The chain after both callbacks. -/
def after (effect effect' : HostEffect) (u : Upstream) (order : List (Name × Int)) (s : Server) :
    List (HandlerEntry Handler) :=
  (reactivate lib effect' u order (deactivate lib android effect u s).1).chain

/-- The orders in which Go may walk over the map. -/
def Order (order : List (Name × Int)) : Prop :=
  order.Perm (deactivate lib android effect u s).2.toList

/-- The domains that are put back, the root last. -/
def backs (order : List (Name × Int)) : List Name :=
  found (deactivate lib android effect u s).1.currentConfig.domains order ++ rootOf u

/-- The chain once they are. -/
def putBack (order : List (Name × Int)) : List (HandlerEntry Handler) :=
  registerEach id (fun _ => .upstream u) (fun _ => u.priority) lib
    (backs lib android effect u s order) (deactivate lib android effect u s).1.chain

end

/-- The domains that come back are those the resolver serves. -/
theorem mem_backs (ho : Order lib android effect u s order) :
    d ∈ backs lib android effect u s order ↔ d ∈ rootOf u ++ hits u s := by
  rw [backs, mem_append, mem_append, mem_found ho, or_comm]

theorem after_eq (order : List (Name × Int)) : after lib android effect effect' u order s =
    registerFallback lib effect' (putBack lib android effect u s order) :=
  reactivate_chain effect' order _

/-- Away from the fallback's priority, the chain is what was put back. -/
theorem mem_after (hr : Ready lib s) (he : e.priority ≠ priorityFallback) :
    e ∈ after lib android effect effect' u order s ↔ e ∈ putBack lib android effect u s order := by
  rw [after_eq]
  exact mem_registerFallback (wellFormed_registerEach (wellFormed_deactivate hr) _) he

theorem ownEntry_priority_ne (d : Name) : (ownEntry lib u d).priority ≠ priorityFallback :=
  (Int.ne_of_lt u.above).symm

/-- Outside the fallback tier the handlers are the same. -/
def SameHandlers (c c' : List (HandlerEntry Handler)) : Prop :=
  ∀ e : HandlerEntry Handler, e.priority ≠ priorityFallback → (e ∈ c ↔ e ∈ c')

/-- What is the resolver's own comes back. -/
theorem Own.ownEntry_mem_after (h : Own lib android u s) (hr : Ready lib s)
    (ho : Order lib android effect u s order) (hd : d ∈ rootOf u ++ hits u s) (hn : d ≠ []) :
    ownEntry lib u d ∈ after lib android effect effect' u order s := by
  rw [mem_after hr (ownEntry_priority_ne d)]
  obtain ⟨b, hb, hbn, hta, hm⟩ := @exists_mem_registerEach lib _ Name id
    (fun _ => .upstream u) (fun _ => u.priority) (wellFormed_deactivate hr) _ d
    ((mem_backs ho).mpr hd) hn
  have how := h.own b ((mem_backs ho).mp hb) hbn
  rwa [DnsServer.eq_of_isEntry hr.wellFormed (h.own d hd hn) how (isEntry_ownEntry d) hta.2]

/-- Every entry comes back, and no other. -/
theorem Own.sameHandlers (h : Own lib android u s) (hr : Ready lib s)
    (ho : Order lib android effect u s order) :
    SameHandlers (after lib android effect effect' u order s) s.chain := by
  intro e hp
  constructor
  · intro he
    rcases (mem_registerEach (wellFormed_deactivate hr)).1 ((mem_after hr hp).mp he) with
      ⟨d, hd, hn, rfl⟩ | ⟨he, hno⟩
    · exact h.own d ((mem_backs ho).mp hd) hn
    · rcases (mem_deactivate hr hp).mp he with ⟨hre, rfl⟩ | ⟨⟨he, -⟩, -⟩
      · rcases h.host hre with hon | hh
        · -- the resolver itself stands at the root again
          have hro := mem_append_left (hits u s) (rootOf_of_restores hre)
          refine absurd ⟨cons_ne_nil _ _, ?_⟩ (hno root ((mem_backs ho).mpr hro))
          grind [pattern_root, isEntry_hostEntry]
        · exact hh
      · exact he
  · intro he
    by_cases how : ∃ d ∈ rootOf u ++ hits u s, d ≠ [] ∧ isEntry lib (lib.fqdn d) u.priority e
    · obtain ⟨d, hd, hn, hen⟩ := how
      rw [h.eq_of_isEntry hr he hd hn hen]
      exact h.ownEntry_mem_after hr ho hd hn
    · have hk : ∀ d ∈ rootOf u ++ hits u s, d ≠ [] → ¬ isEntry lib (lib.fqdn d) u.priority e :=
        fun d hd hn hen => how ⟨d, hd, hn, hen⟩
      rw [mem_after hr hp]
      refine (mem_registerEach (wellFormed_deactivate hr)).2
        (h.mem_deactivate_of_kept hr hp he hk) ?_
      rintro d hd ⟨hn, hen⟩
      have hd' := (mem_backs ho).mp hd
      refine hk d hd' hn ?_
      rw [← hr.lower_of_mem hd']
      exact hen

/-- The last registration of a loop is there. -/
theorem mem_registerEach_last (hc : WellFormed lib c) (l : List α) (ha : domain a ≠ []) :
    entryAt domain handler priority lib a ∈
      registerEach domain handler priority lib (l ++ [a]) c := by
  rw [registerEach, foldl_append, foldl_cons]
  exact (mem_registerOne (wellFormed_registerEach hc l)).mpr (.inl ⟨ha, rfl⟩)

/-- The root, put back last, takes the place of nothing but the root. -/
theorem mem_rootOf_of_takes (hr : r ∈ rootOf u) (hn : d ≠ [])
    (h : Takes id (fun _ => u.priority) lib r (ownEntry lib u d)) : d ∈ rootOf u := by
  obtain ⟨rfl, -⟩ := mem_rootOf hr
  have hf := (isEntry_iff.mp h.2).1
  rw [id, pattern_root] at hf
  exact eq_root_of_isEntry hn hf ▸ hr

/-- Each domain can be the last one that is put back, except that the root comes after. -/
theorem exists_ownEntry_mem_after (hr : Ready lib s) (android : Bool) (effect effect' : HostEffect)
    (hd : d ∈ rootOf u ++ hits u s) (hn : d ≠ []) : ∃ order, Order lib android effect u s order ∧
      ownEntry lib u d ∈ after lib android effect effect' u order s := by
  have hw : WellFormed lib (deactivate lib android effect u s).1.chain := wellFormed_deactivate hr
  by_cases hro : d ∈ rootOf u
  · refine ⟨_, List.Perm.refl _, (mem_after hr (ownEntry_priority_ne d)).mpr ?_⟩
    obtain ⟨rfl, hs⟩ := mem_rootOf hro
    rw [putBack, backs, hs]
    exact mem_registerEach_last hw _ hn
  · obtain ⟨order, ho, ds, hds⟩ :=
      @exists_order lib u s d android effect ((mem_append.mp hd).resolve_left hro)
    refine ⟨order, ho, (mem_after hr (ownEntry_priority_ne d)).mpr ?_⟩
    rw [putBack, backs, hds, registerEach, foldl_append]
    refine (mem_registerEach (wellFormed_registerEach hw _)).2 (mem_registerEach_last hw ds hn) ?_
    exact fun r hr hta => hro (mem_rootOf_of_takes hr hn hta)

/-- If for every order everything comes back, what was asked for was the resolver's own. -/
theorem own_of_sameHandlers (hr : Ready lib s) (h : ∀ order, Order lib android effect u s order →
      SameHandlers (after lib android effect effect' u order s) s.chain) : Own lib android u s := by
  refine ⟨fun d hd hn => ?_, fun hre => ?_⟩
  · obtain ⟨order, ho, hm⟩ := exists_ownEntry_mem_after hr android effect effect' hd hn
    exact (h order ho _ (ownEntry_priority_ne d)).mp hm
  · by_cases hon : u.priority = priorityDefault
    · exact .inl hon
    right
    refine (h _ (List.Perm.refl _) _ hostEntry_priority_ne).mp
      ((mem_after hr hostEntry_priority_ne).mpr ?_)
    -- nothing that is put back has the priority of the host's servers
    refine (mem_registerEach (wellFormed_deactivate hr)).2
      ((mem_deactivate hr hostEntry_priority_ne).mpr (.inl ⟨hre, rfl⟩)) ?_
    rintro d - ⟨-, he⟩
    exact hon (isEntry_iff.mp he).2.symm

end

/-! ## The order before and after -/

section

variable {effect' : HostEffect} {e f x : HandlerEntry Handler} {c cur : Chain Handler}

/-- The order of the chain says nothing about the two. -/
def Tie (e f : HandlerEntry Handler) : Prop :=
  e.priority = f.priority ∧ dots e.pattern = dots f.pattern

/-- The one stands before the other. -/
def Before (c : List (HandlerEntry Handler)) (e f : HandlerEntry Handler) : Prop := [e, f].Sublist c

/-- Two entries of a chain are in one order or the other. -/
theorem before_or_before (he : e ∈ c) (hf : f ∈ c) (hn : e ≠ f) : Before c e f ∨ Before c f e := by
  induction c with
  | nil => cases he
  | cons a c ih => grind [Before]

/-- And not in both. -/
theorem before_antisymm (hc : c.Nodup) (he : Before c e f) : ¬ Before c f e := by
  induction c with
  | nil => exact absurd he.subset fun h => not_mem_nil (h mem_cons_self)
  | cons a c ih => grind [Before]

/-- In a sorted chain what is not below stands before. -/
theorem before_of_not_sorted (hc : c.Pairwise Sorted) (he : e ∈ c) (hf : f ∈ c) (hn : e ≠ f)
    (h : ¬ Sorted f e) : Before c e f :=
  (before_or_before he hf hn).resolve_right fun hfe => h (pairwise_iff_forall_sublist.mp hc hfe)

/-- A chain that has, apart from what is skipped, entries of `c` in the order of `c`. -/
structure Fits (lib : Library) (c : List (HandlerEntry Handler))
    (skip : HandlerEntry Handler → Prop)
    (cur : List (HandlerEntry Handler)) : Prop where
  wellFormed : WellFormed lib cur
  order : cur.Pairwise (fun e f => skip e ∨ skip f ∨ Before c e f)
  mem : ∀ e ∈ cur, skip e ∨ e ∈ c

/-- A chain fits itself. -/
theorem Fits.refl (hc : WellFormed lib c) (skip : HandlerEntry Handler → Prop) :
    Fits lib c skip c :=
  ⟨hc, pairwise_iff_forall_sublist.mpr fun h => .inr (.inr h), fun _ he => .inr he⟩

/-- Removing an entry keeps the order of the rest. -/
theorem Fits.removeHandler (h : Fits lib c skip cur) (d : Name) (priority : Int) :
    Fits lib c skip (removeHandler lib cur d priority) := by
  have hs := removeEntry_sublist lib cur (lib.fqdn d) priority
  exact ⟨h.wellFormed.removeEntry _ _, h.order.sublist hs, fun e he => h.mem e (hs.subset he)⟩

/-- An entry goes to its old place if it stood after those with its priority and depth. -/
theorem Fits.addHandler (hc : c.Pairwise Sorted) (h : Fits lib c skip cur) :
    let x := newEntry lib Handler.matcher d handler priority
    skip x ∨ x ∈ c ∧ (∀ e ∈ c, ¬ skip e → Tie e x → e = x ∨ Before c e x) →
      Fits lib c skip (addHandler lib Handler.matcher cur d handler priority) := by
  intro x hx
  refine ⟨h.wellFormed.addHandler _ _ _, ?_, fun e he => ?_⟩
  · have hsu := removeEntry_sublist lib cur x.origPattern priority
    rw [addHandler_eq]
    refine pairwise_insertEntry (h.wellFormed.sorted.sublist hsu) (h.order.sublist hsu) ?_ ?_
    · intro e he (hs : Sorted e x)
      rcases hx with hsk | ⟨hm, hl⟩
      · exact .inr (.inl hsk)
      by_cases hsk : skip e
      · exact .inl hsk
      have hec := (h.mem e (hsu.subset he)).resolve_left hsk
      have hn : e ≠ x := by
        rintro rfl
        exact not_mem_removeEntry h.wellFormed.distinct he (isEntry_newEntry _ _ _)
      by_cases hti : Tie e x
      · exact .inr (.inr ((hl e hec hsk hti).resolve_left hn))
      refine .inr (.inr (before_of_not_sorted hc hec hm hn fun (hs' : Sorted x e) => hti ?_))
      rw [Sorted] at hs hs'
      rw [Tie]
      omega
    · intro e he hs
      rcases hx with hsk | ⟨hm, -⟩
      · exact .inl hsk
      by_cases hsk : skip e
      · exact .inr (.inl hsk)
      have hec := (h.mem e (hsu.subset he)).resolve_left hsk
      refine .inr (.inr (before_of_not_sorted hc hm hec ?_ hs))
      rintro rfl
      exact hs (.inr ⟨rfl, Nat.le_refl _⟩)
  · rcases (mem_addHandler h.wellFormed).mp he with rfl | ⟨he, -⟩
    · exact hx.imp id And.left
    · exact h.mem e he

/-- So does removing several. -/
theorem Fits.deregisterHandler (h : Fits lib c skip cur) (ds : List Name) (priority : Int) :
    Fits lib c skip (deregisterHandler lib cur ds priority) := by
  refine Table.foldl_invariant ds cur (fun cur d _ hc => ?_) h
  split
  · exact hc
  · exact hc.removeHandler d priority

/-- Fewer pairs to compare. -/
theorem Fits.mono (h : Fits lib c skip cur)
    (hs : ∀ e ∈ cur, skip e → skip' e) : Fits lib c skip' cur := by
  refine ⟨h.wellFormed, h.order.imp_of_mem fun {e f} he hf hef => ?_, fun e he => ?_⟩
  · exact hef.imp (hs e he) fun hef => hef.imp (hs f hf) id
  · exact (h.mem e he).imp (hs e he) id

/-- The fallback tier is skipped. -/
theorem Fits.registerFallback (hc : c.Pairwise Sorted)
    (hs : ∀ e, e.priority = priorityFallback → skip e) (h : Fits lib c skip cur) :
    Fits lib c skip (registerFallback lib effect cur) := by
  cases effect with
  | keep => exact h
  | register => exact h.addHandler hc (.inl (hs _ rfl))
  | deregister => exact h.deregisterHandler [root] priorityFallback

/-- The handlers that go and come back stand after those with their priority and depth;
    the root comes back last. -/
structure Ties (lib : Library) (android : Bool) (u : Upstream) (s : Server) : Prop where
  own : ∀ d ∈ hits u s, d ≠ [] → ∀ e ∈ s.chain, Tie e (ownEntry lib u d) →
    e = ownEntry lib u d ∨ Before s.chain e (ownEntry lib u d) ∨
      root ∈ rootOf u ∧ e = ownEntry lib u root
  root : root ∈ rootOf u → ∀ e ∈ s.chain, Tie e (ownEntry lib u root) →
    e = ownEntry lib u root ∨ Before s.chain e (ownEntry lib u root)
  host : restores android u s → u.priority ≠ priorityDefault → ∀ e ∈ s.chain,
    Tie e (hostEntry lib) → e = hostEntry lib ∨ Before s.chain e (hostEntry lib)

/-- What is skipped while the domains are put back: the fallback tier and the root of the
    resolver, which comes after. -/
def Skipped (lib : Library) (u : Upstream) (e : HandlerEntry Handler) : Prop :=
  e.priority = priorityFallback ∨ root ∈ rootOf u ∧ isEntry lib root u.priority e

/-- What deactivation leaves is in the old order. -/
theorem fits_deactivate (hr : Ready lib s) (how : Own lib android u s)
    (hti : Ties lib android u s) :
    Fits lib s.chain (Skipped lib u) (deactivate lib android effect u s).1.chain := by
  have hs := hr.wellFormed.sorted
  have hf : Fits lib s.chain (Skipped lib u) (taken lib effect u s) :=
    ((Fits.refl hr.wellFormed (Skipped lib u)).deregisterHandler (rootOf u ++ hits u s)
      u.priority).registerFallback hs fun e he => .inl he
  rw [deactivate_chain]
  split
  · next hre =>
    rw [addHostRootZone]
    split
    · refine hf.addHandler hs ?_
      by_cases ho : u.priority = priorityDefault
      · refine .inl (.inr ⟨rootOf_of_restores hre, ?_⟩)
        rw [ho]
        exact isEntry_hostEntry
      · refine .inr ⟨(how.host hre).resolve_left ho, fun e he _ htie => ?_⟩
        exact hti.host hre ho e he htie
    · exact hf
  · exact hf

/-- The part of the chain outside the fallback tier. -/
def tiers (c : List (HandlerEntry Handler)) : List (HandlerEntry Handler) :=
  c.filter (·.priority ≠ priorityFallback)

/-- What is put back among it is in the old order too. -/
theorem fits_backs (hr : Ready lib s) (ho : Own lib android u s) (hti : Ties lib android u s)
    (hds : ∀ d ∈ ds, d ∈ hits u s) :
    Fits lib s.chain (Skipped lib u)
      (registerHandler lib (deactivate lib android effect u s).1.chain
      ds (.upstream u) u.priority) := by
  refine Table.foldl_invariant ds _ (fun cur d hd hc => ?_) (fits_deactivate hr ho hti)
  split
  · exact hc
  rename_i hn
  refine hc.addHandler hr.wellFormed.sorted (.inr ⟨?_, fun e he hs htie => ?_⟩)
  · exact ho.own d (mem_append_right _ (hds d hd)) hn
  · refine (hti.own d (hds d hd) hn e he htie).imp id fun h => h.resolve_right ?_
    rintro ⟨hro, rfl⟩
    refine hs (.inr ⟨hro, ?_⟩)
    have := @isEntry_ownEntry lib u root
    rwa [pattern_root] at this

/-- With nothing but the fallback tier skipped. -/
theorem fits_after (hr : Ready lib s) (how : Own lib android u s) (hti : Ties lib android u s)
    (ho : Order lib android effect u s order) : Fits lib s.chain (·.priority = priorityFallback)
      (after lib android effect effect' u order s) := by
  have hs := hr.wellFormed.sorted
  have hl : Fits lib s.chain (Skipped lib u) (registerHandler lib
      (deactivate lib android effect u s).1.chain
      (found (deactivate lib android effect u s).1.currentConfig.domains order) (.upstream u)
      u.priority) := fits_backs hr how hti fun d hd => (mem_found ho).mp hd
  rw [after, reactivate_chain, registerHandler_append]
  refine Fits.registerFallback hs (fun e he => he) ?_
  by_cases hro : root ∈ rootOf u
  · rw [(mem_rootOf hro).2]
    show Fits lib s.chain _ (addHandler lib Handler.matcher _ root (.upstream u) u.priority)
    rw [← addHandler_removeEntry hl.wellFormed, pattern_root]
    have hre := (hl.removeHandler root u.priority)
    rw [HandlerChain.removeHandler, root, lib.fqdn_root] at hre
    -- without the root, nothing but the fallback tier is skipped
    refine (hre.mono fun e he hsk => hsk.resolve_right fun h => ?_).addHandler hs
      (.inr ⟨?_, fun e he _ htie => hti.root hro e he htie⟩)
    · exact not_mem_removeEntry hl.wellFormed.distinct he h.2
    · exact how.own root (mem_append_left _ hro) (cons_ne_nil _ _)
  · have hnil : rootOf u = [] := by
      rw [rootOf] at hro ⊢
      split
      · next hp => exact absurd (if_pos hp ▸ mem_singleton_self _) hro
      · rfl
    rw [hnil]
    exact hl.mono fun e _ hsk => hsk.resolve_right fun h => hro h.1

theorem mem_tiers : e ∈ tiers c ↔ e ∈ c ∧ e.priority ≠ priorityFallback := by
  rw [tiers, mem_filter, decide_eq_true_iff]

/-- The same entries in the same order are the same list. -/
theorem tiers_eq_of_fits (hc : WellFormed lib c)
    (h : Fits lib c (·.priority = priorityFallback) cur) (hs : SameHandlers cur c) :
    tiers cur = tiers c := by
  have hpe : (tiers cur).Perm (tiers c) := by
    refine (perm_ext_iff_of_nodup (h.wellFormed.nodup.filter _) (hc.nodup.filter _)).mpr ?_
    intro e
    show e ∈ tiers cur ↔ e ∈ tiers c
    rw [mem_tiers, mem_tiers]
    exact and_congr_left fun hp => hs e hp
  have hl : (tiers cur).Pairwise (Before c) := by
    refine (h.order.filter _).imp_of_mem fun {e f} he hf hef => ?_
    exact (hef.resolve_left (mem_tiers.mp he).2).resolve_left (mem_tiers.mp hf).2
  have hri : (tiers c).Pairwise (Before c) :=
    pairwise_iff_forall_sublist.mpr fun hsu => hsu.trans filter_sublist
  refine List.Perm.eq_of_pairwise (fun e f _ _ hef hfe => ?_) hl hri hpe
  exact absurd hfe (before_antisymm hc.nodup hef)

/-- Equal lists have the same order. -/
theorem before_of_tiers_eq (h : tiers cur = tiers c) (he : e.priority ≠ priorityFallback)
    (hx : x.priority ≠ priorityFallback) (hex : Before cur e x) : Before c e x := by
  have hb : tiers [e, x] = [e, x] := by
    refine filter_eq_self.mpr fun f hf => decide_eq_true ?_
    rcases mem_pair.mp hf with rfl | rfl
    · exact he
    · exact hx
  have hfi : (tiers [e, x]).Sublist (tiers cur) := hex.filter _
  rw [hb, h] at hfi
  exact hfi.trans filter_sublist

/-- The fallback moves no other entry. -/
theorem before_registerFallback (he : e.priority ≠ priorityFallback)
    (hx : x.priority ≠ priorityFallback) (hex : Before cur e x) :
    Before (registerFallback lib effect cur) e x := by
  have hn : ∀ p, ∀ f ∈ [e, x], ¬ isEntry lib p priorityFallback f := by
    intro p f hf h
    rcases mem_pair.mp hf with rfl | rfl
    · exact he (isEntry_iff.mp h).2
    · exact hx (isEntry_iff.mp h).2
  cases effect with
  | keep => exact hex
  | register => exact sublist_addHandler hex (hn _)
  | deregister => exact sublist_removeEntry hex (hn _)

section

variable {α : Type} {domain : α → Name} {handler : α → Handler} {priority : α → Int}

/-- Registering elsewhere moves no entry. -/
theorem before_registerEach (he : Before cur e x)
    (hno : ∀ a ∈ l, ¬ Takes domain priority lib a e ∧ ¬ Takes domain priority lib a x) :
    Before (registerEach domain handler priority lib l cur) e x := by
  refine Table.foldl_invariant (P := fun cur => Before cur e x) l cur (fun cur a ha he => ?_) he
  obtain ⟨hae, hax⟩ := hno a ha
  show Before (if domain a = [] then cur
    else addHandler lib Handler.matcher cur (domain a) (handler a) (priority a)) e x
  grind [sublist_addHandler, Before, Takes]

/-- The last entry goes after those with its priority and depth. -/
theorem before_registerEach_last (hc : WellFormed lib cur) (ha : domain a ≠ []) :
    let x := entryAt domain handler priority lib a
    let c := registerEach domain handler priority lib (l ++ [a]) cur
    e ∈ c → e ≠ x → Tie e x → Before c e x := by
  intro x c he hn hti
  have hw : WellFormed lib (registerEach domain handler priority lib l cur) :=
    wellFormed_registerEach hc l
  have hl : c = registerHandler lib (registerEach domain handler priority lib l cur) [domain a]
      (handler a) (priority a) := foldl_append
  rw [hl] at he ⊢
  obtain ⟨-, heq⟩ | ⟨hm, hno⟩ := (mem_registerOne hw).mp he
  · exact absurd heq hn
  · show Before (if domain a = [] then _
      else addHandler lib Handler.matcher _ (domain a) (handler a) (priority a)) _ _
    rw [if_neg ha]
    exact sublist_insertEntry (hw.removeEntry _ _).sorted
      (mem_removeEntry_of_ne hm fun h => hno ⟨ha, h⟩)
      (.inr ⟨hti.1.symm, Nat.le_of_eq hti.2.symm⟩)

end

section

variable (hr : Ready lib s) (hall : ∀ order, Order lib android effect u s order →
    tiers (after lib android effect effect' u order s) = tiers s.chain)

include hall in
/-- Equal tiers have the same handlers. -/
theorem sameHandlers_of_tiers_eq (ho : Order lib android effect u s order) :
    SameHandlers (after lib android effect effect' u order s) s.chain := by
  intro e hp
  have hm : ∀ c : Chain Handler, e ∈ tiers c ↔ e ∈ c := fun c => mem_tiers.trans (and_iff_left hp)
  rw [← hm, hall order ho, hm]

include hr hall in
/-- What stands before the other after the domains have been put back stood so before. -/
theorem before_of_backs (ho : Order lib android effect u s order)
    (he : e.priority ≠ priorityFallback) (hx : x.priority ≠ priorityFallback) (hm : e ∈ s.chain)
    (h : e ∈ putBack lib android effect u s order →
      Before (putBack lib android effect u s order) e x) : Before s.chain e x := by
  have hb := (mem_after hr he).mp ((sameHandlers_of_tiers_eq hall ho e he).mpr hm)
  refine before_of_tiers_eq (hall _ ho) he hx ?_
  rw [after_eq]
  exact before_registerFallback he hx (h hb)

include hr hall in
/-- The root comes back after those with its priority and depth. -/
theorem root_of_tiers_eq (hro : root ∈ rootOf u) (he : e ∈ s.chain)
    (hti : Tie e (ownEntry lib u root)) :
    e = ownEntry lib u root ∨ Before s.chain e (ownEntry lib u root) := by
  by_cases heq : e = ownEntry lib u root
  · exact .inl heq
  have hp : e.priority ≠ priorityFallback := hti.1 ▸ ownEntry_priority_ne root
  refine .inr (before_of_backs hr hall (List.Perm.refl _) hp (ownEntry_priority_ne root) he ?_)
  rw [putBack, backs, (mem_rootOf hro).2]
  exact fun hm => before_registerEach_last (wellFormed_deactivate hr) (cons_ne_nil _ _) hm heq hti

include hr hall in
/-- So does every other domain, among those before the root. -/
theorem own_of_tiers_eq (hd : d ∈ hits u s) (hn : d ≠ []) (he : e ∈ s.chain)
    (hti : Tie e (ownEntry lib u d)) : e = ownEntry lib u d ∨ Before s.chain e (ownEntry lib u d) ∨
      root ∈ rootOf u ∧ e = ownEntry lib u root := by
  by_cases hi : d ∈ rootOf u
  · obtain ⟨rfl, -⟩ := mem_rootOf hi
    exact (root_of_tiers_eq hr hall hi he hti).imp id .inl
  by_cases heq : e = ownEntry lib u d
  · exact .inl heq
  by_cases hl : root ∈ rootOf u ∧ e = ownEntry lib u root
  · exact .inr (.inr hl)
  have hp : e.priority ≠ priorityFallback := hti.1 ▸ ownEntry_priority_ne d
  have hw : WellFormed lib (deactivate lib android effect u s).1.chain := wellFormed_deactivate hr
  obtain ⟨order, ho, ds, hds⟩ := @exists_order lib u s d android effect hd
  refine .inr (.inl (before_of_backs hr hall ho hp (ownEntry_priority_ne d) he ?_))
  intro hm
  rw [putBack, backs, hds, registerEach, foldl_append] at hm ⊢
  obtain ⟨r, hr, -, rfl⟩ | ⟨hm, hno⟩ := (mem_registerEach (wellFormed_registerEach hw _)).1 hm
  · obtain ⟨rfl, -⟩ := mem_rootOf hr
    exact absurd ⟨hr, rfl⟩ hl
  · refine before_registerEach (before_registerEach_last hw hn hm heq hti) fun r hr => ?_
    exact ⟨hno r hr, fun hta => hi (mem_rootOf_of_takes hr hn hta)⟩

include hr hall in
/-- The host's servers, where they stay, go to their old place. -/
theorem host_of_tiers_eq (hre : restores android u s) (hon : u.priority ≠ priorityDefault)
    (he : e ∈ s.chain) (hti : Tie e (hostEntry lib)) :
    e = hostEntry lib ∨ Before s.chain e (hostEntry lib) := by
  by_cases heq : e = hostEntry lib
  · exact .inl heq
  have hp : e.priority ≠ priorityFallback := hti.1 ▸ hostEntry_priority_ne
  have hw : WellFormed lib (deactivate lib android effect u s).1.chain := wellFormed_deactivate hr
  -- the priorities differ from the one that is put back
  have ho : ∀ d, ¬ Takes id (fun _ => u.priority) lib d e ∧
      ¬ Takes id (fun _ => u.priority) lib d (hostEntry lib) := by
    refine fun d => ⟨fun h => hon ?_, fun h => hon (isEntry_iff.mp h.2).2.symm⟩
    exact (isEntry_iff.mp h.2).2.symm.trans hti.1
  refine .inr (before_of_backs hr hall (List.Perm.refl _) hp hostEntry_priority_ne he fun hm => ?_)
  refine before_registerEach ?_ fun d _ => ho d
  have hm' : e ∈ (deactivate lib android effect u s).1.chain := by
    obtain ⟨d, -, hn, rfl⟩ | ⟨hm, -⟩ := (mem_registerEach hw).1 hm
    · exact absurd ⟨hn, isEntry_newEntry _ _ _⟩ (ho d).1
    · exact hm
  have hh : s.hosts := (Bool.and_eq_true _ _ ▸ hre).2
  have hc : (deactivate lib android effect u s).1.chain =
      registerEach id (fun _ => .hostRoot) (fun _ => priorityDefault) lib ([] ++ [root])
        (taken lib effect u s) := by
    rw [deactivate_chain]
    dsimp only
    rw [if_pos (show (android && u.group.primary && s.hosts) = true from hre), addHostRootZone,
      if_pos hh]
    rfl
  rw [hc] at hm' ⊢
  exact before_registerEach_last hr.wellFormed_taken (cons_ne_nil _ _) hm' heq hti

end

/-- What happens to a server: its own calls and the callbacks of its upstream resolvers. -/
inductive Event where
  | call (a : Action)
  | deactivate (android : Bool) (effect : HostEffect) (u : Upstream)
  | reactivate (effect : HostEffect) (u : Upstream) (order : List (Name × Int))

/-- One call or callback. -/
def callbackStep (lib : Library) (runtimeIP : Netip.Addr) (hash : Config → Nat) (s : Server) :
    Event → Option Server
  | .call a => step lib runtimeIP hash s a
  | .deactivate android effect u => some (deactivate lib android effect u s).1
  | .reactivate effect u order => some (reactivate lib effect u order s)

/-- **Every server that calls and callbacks lead to** is one that `callbacks_iff` is about. -/
theorem ready_run {runtimeIP : Netip.Addr} {hash : Config → Nat} (events : List Event)
    (hr : Ready lib s) (h : Transition.run (callbackStep lib runtimeIP hash) s events = some s') :
    Ready lib s' := by
  have hstep : ∀ s e s', Ready lib s → True → callbackStep lib runtimeIP hash s e = some s' →
      Ready lib s' := by
    intro s e s' hr _ hs
    cases e with
    | call a => exact ready_step hr hs
    | deactivate android effect u =>
      cases hs
      exact ready_deactivate hr
    | reactivate effect u order =>
      cases hs
      exact ready_reactivate hr order
  exact Transition.run_invariant hstep events s s' hr
    (Transition.allowedRun_of_forall events s fun _ _ _ => trivial) h

/-- **Taking out and putting back.**  Deactivating an upstream resolver takes out only handlers of
    its group, and reactivating it brings back the same handlers in whatever order, exactly if the
    resolver itself stands at every domain of its group that the host configuration has, with its
    own priority, and the host's own servers are only put where it stood or they were.  The list is
    the same, exactly if moreover these entries stand after those with their priority and depth. -/
theorem callbacks_iff (lib : Library) (android : Bool) (effect effect' : HostEffect) (u : Upstream)
    (s : Server) (hr : Ready lib s) :
    ((OnlyGroup lib android effect u s ∧ ∀ order, Order lib android effect u s order →
        SameHandlers (after lib android effect effect' u order s) s.chain) ↔
      Own lib android u s) ∧
    ((OnlyGroup lib android effect u s ∧ ∀ order, Order lib android effect u s order →
        tiers (after lib android effect effect' u order s) = tiers s.chain) ↔
      Own lib android u s ∧ Ties lib android u s) := by
  refine ⟨⟨fun h => own_of_sameHandlers hr h.2, fun h => ?_⟩, ⟨fun h => ⟨?_, ?_⟩, fun h => ?_⟩⟩
  · exact ⟨h.onlyGroup hr, fun order ho => h.sameHandlers hr ho⟩
  · exact own_of_sameHandlers hr fun order ho => sameHandlers_of_tiers_eq h.2 ho
  · exact ⟨fun d hd hn e he hti => own_of_tiers_eq hr h.2 hd hn he hti,
      fun hro e he hti => root_of_tiers_eq hr h.2 hro he hti,
      fun hre hon e he hti => host_of_tiers_eq hr h.2 hre hon he hti⟩
  · refine ⟨h.1.onlyGroup hr, fun order ho => ?_⟩
    exact tiers_eq_of_fits hr.wellFormed (fits_after hr h.1 h.2 ho) (h.1.sameHandlers hr ho)

/-- Two groups that share a domain, a resolver of the first one for it and one of the second
    one for its other domain; both have the priority 50. -/
def firstGroup : NameServerGroup :=
  { id := "first", nameServers := [⟨.v4 0x0a000001#32, udpNameServerType, 53⟩], primary := false
    domains := ["b.example.".toList], searchDomainsEnabled := false }

/-- A second group of servers. -/
def secondGroup : NameServerGroup :=
  { id := "second", nameServers := [⟨.v4 0x0a000002#32, udpNameServerType, 53⟩], primary := false
    domains := ["a.example.".toList, "b.example.".toList], searchDomainsEnabled := false }

/-- The resolver of the first group. -/
def firstResolver : Upstream :=
  { domain := "b.example.".toList, servers := [(.v4 0x0a000001#32, 53)], group := firstGroup
    priority := priorityUpstream, above := by decide }

/-- The resolver of the second group. -/
def secondResolver : Upstream :=
  { domain := "a.example.".toList, servers := [(.v4 0x0a000002#32, 53)], group := secondGroup
    priority := priorityUpstream, above := by decide }

/-- The server after a configuration with these groups. -/
def groupsServer (groups : List NameServerGroup) : Server :=
  updateDNSServer ascii .zero (fun _ => 1) quiet { chain := [] } 1
    { serviceEnable := true, nameServerGroups := groups, customZones := [] }
    (groupNSGroupsByDomain groups)

/-- A server that has just been updated is ready. -/
theorem ready_groupsServer (groups : List NameServerGroup) : Ready ascii (groupsServer groups) := by
  refine ready_updateDNSServer ⟨WellFormed.nil, fun i hi => ?_⟩ _ _ _ _
  cases hi

/-- The resolver of the first group goes and comes back, and the second group keeps its own. -/
theorem first_restored :
    let s := groupsServer [firstGroup, secondGroup]
    OnlyGroup ascii false .keep firstResolver s ∧
      ∀ order, Order ascii false .keep firstResolver s order →
        SameHandlers (after ascii false .keep .keep firstResolver order s) s.chain := by
  refine (callbacks_iff ascii false .keep .keep firstResolver _
    (ready_groupsServer [firstGroup, secondGroup])).1.mpr ⟨by decide, fun h => ?_⟩
  exact absurd h Bool.false_ne_true

/-- With both groups, deactivating the second resolver, which is for `a.example.`, takes out
    what the first group has for `b.example.`. -/
theorem first_group_removed :
    ownEntry ascii secondResolver "a.example.".toList ∈
        (groupsServer [firstGroup, secondGroup]).chain ∧
      ¬ OnlyGroup ascii false .keep secondResolver (groupsServer [firstGroup, secondGroup]) := by
  refine ⟨by decide, fun h => ?_⟩
  obtain ⟨v, hv, hg⟩ := h (ownEntry ascii firstResolver "b.example.".toList) (by decide)
    (by decide) (by decide)
  obtain rfl : firstResolver = v := Handler.upstream.inj hv
  exact absurd hg (by decide)

end

end DnsServer

import NetbirdHa.RefCounterProofs
import Mathlib.Data.List.Dedup
import Mathlib.Data.List.Perm.Basic

/-! # The routes of resolved domains

`DnsInterceptor` and the dynamic `Route` hold references on the prefixes that DNS
answers give: one on the route of each, and one on the allowed IP while there is a
peer.  They differ in what they remember of an answer.  `released_of_fair` says when
nothing is held in the end. -/

namespace DomainRoute

open Transition List RefCounter

/-- What the handler is: an interceptor or a dynamic route, whether routes are kept, and
    which prefix is routed for an address (a fake one on Android). -/
structure Kind (P : Type) where
  interceptor : Bool
  keepRoute : Bool
  routePrefix : P → P

/-- The prefixes are those of all domains, each with its domain. -/
structure Handler (P : Type) where
  domains : List (String × P) := []
  currentPeerKey : String := ""
  routes : Counter P Unit := {}
  allowedIPs : Counter P String := {}

/-- What can happen to the route. -/
inductive Call (P : Type) where
  | answer (domain : String) (newPrefixes : List P)
  | addAllowedIPs (peerKey : String)
  | removeAllowedIPs

theorem eq_none_of_counts (h : Counts c f) (hz : f p = 0) : c.refCountMap p = none := by
  have hp := h p
  rw [hz] at hp
  exact Option.map_eq_none_iff.mp hp

variable {P O : Type} [DecidableEq P] [Inhabited O]

/-- `Increment` of each prefix on a counter that does not fail. -/
def incrementAll (c : Counter P O) (out : O) (ps : List P) : Counter P O :=
  ps.foldl (fun c p => (increment c p (.ok out)).getD c) c

/-- Gives up one reference to each prefix. -/
def decrementAll (c : Counter P O) (ps : List P) : Counter P O := ps.foldl decrement c

/-- `determinePrefixChanges`: what the answer adds and what it no longer has. -/
def determinePrefixChanges (oldPrefixes newPrefixes : List P) : List P × List P :=
  (newPrefixes.filter (· ∉ oldPrefixes), oldPrefixes.dedup.filter (· ∉ newPrefixes))

/-- `combinePrefixes`. -/
def combinePrefixes (oldPrefixes removed added : List P) : List P :=
  (oldPrefixes.filter (· ∉ removed) ++ added).dedup

variable (k : Kind P)

/-- The prefixes whose references an answer gives back. -/
def removedPrefixes (oldPrefixes newPrefixes : List P) : List P :=
  if k.keepRoute then [] else (determinePrefixChanges oldPrefixes newPrefixes).2

/-- The prefixes that the domain has after an answer. -/
def updatedPrefixes (oldPrefixes newPrefixes : List P) : List P :=
  let (toAdd, toRemove) := determinePrefixChanges oldPrefixes newPrefixes
  if k.interceptor then
    if toAdd = [] ∧ toRemove = [] then oldPrefixes
    else if k.keepRoute then oldPrefixes ++ toAdd else newPrefixes
  else combinePrefixes oldPrefixes (removedPrefixes k oldPrefixes newPrefixes) toAdd

/-- `updateDomainPrefixes` of the interceptor, `updateDynamicRoutes` for one domain. -/
def answer (h : Handler P) (domain : String) (newPrefixes : List P) : Handler P :=
  let oldPrefixes := (h.domains.filter (·.1 = domain)).map Prod.snd
  let toAdd := (determinePrefixChanges oldPrefixes newPrefixes).1
  let removed := removedPrefixes k oldPrefixes newPrefixes
  { h with
    domains := (updatedPrefixes k oldPrefixes newPrefixes).map (domain, ·) ++
      h.domains.filter (·.1 ≠ domain)
    routes := decrementAll (incrementAll h.routes () (toAdd.map k.routePrefix))
      (removed.map k.routePrefix)
    allowedIPs := if h.currentPeerKey = "" then h.allowedIPs
      else decrementAll (incrementAll h.allowedIPs h.currentPeerKey toAdd) removed }

/-- `AddAllowedIPs`. -/
def addAllowedIPs (h : Handler P) (peerKey : String) : Handler P :=
  { h with
    allowedIPs := incrementAll h.allowedIPs peerKey (h.domains.map Prod.snd)
    currentPeerKey := peerKey }

/-- `RemoveAllowedIPs`. -/
def removeAllowedIPs (h : Handler P) : Handler P :=
  { h with allowedIPs := decrementAll h.allowedIPs (h.domains.map Prod.snd), currentPeerKey := "" }

/-- `RemoveRoute`. -/
def removeRoute (h : Handler P) : Handler P :=
  { h with
    domains := []
    routes := decrementAll h.routes (h.domains.map (k.routePrefix ·.2))
    allowedIPs := if k.interceptor ∧ h.currentPeerKey ≠ "" then
      decrementAll h.allowedIPs (h.domains.map Prod.snd) else h.allowedIPs }

/-- What a call leaves of the route. -/
def step (h : Handler P) : Call P → Option (Handler P)
  | .answer domain newPrefixes => some (answer k h domain newPrefixes)
  | .addAllowedIPs peerKey => some (addAllowedIPs h peerKey)
  | .removeAllowedIPs => some (removeAllowedIPs h)

/-- No answer repeats an address, and allowed IPs are added for a peer while there is none. -/
def Fair (h : Handler P) : Call P → Prop
  | .answer _ newPrefixes => newPrefixes.Nodup
  | .addAllowedIPs peerKey => peerKey ≠ "" ∧ h.currentPeerKey = ""
  | .removeAllowedIPs => True

/-- One reference is held for each prefix of a domain. -/
structure Exact (h : Handler P) : Prop where
  nodup : h.domains.Nodup
  routes : Counts h.routes fun p => (h.domains.map (k.routePrefix ·.2)).count p
  allowedIPs : Counts h.allowedIPs fun p =>
    if h.currentPeerKey = "" then 0 else (h.domains.map Prod.snd).count p

variable {k} {c : Counter P O} {f : P → Nat}

theorem counts_incrementAll (out : O) (ps : List P) : ∀ {c : Counter P O} {f : P → Nat},
    Counts c f →
    Counts (incrementAll c out ps) fun p => f p + ps.count p := by
  induction ps with
  | nil => intro c f h; exact h
  | cons p ps ih =>
    intro c f h q
    obtain ⟨c', hc, -, h'⟩ : ∃ c', RefCounter.increment c p (.ok out) = some c' ∧ _ ∧ Counts c' _ :=
      h.increment (.inr ⟨out, rfl⟩)
    rw [incrementAll, foldl_cons, hc, Option.getD_some, ← incrementAll, ih h' q]
    by_cases hq : q = p
    · subst hq
      simp only [Function.update_self, count_cons_self]
      congr 1
      omega
    · simp [hq, Ne.symm hq]

/-- What is counted after an answer, if it changes `l` by `added` and `removed` to `m`. -/
theorem counts_change {l m added removed : List P} (out : O) (h : Counts c fun p => l.count p)
    (hp : (l ++ added).Perm (m ++ removed)) :
    Counts (decrementAll (incrementAll c out added) removed) fun p => m.count p := by
  intro p
  have hc := hp.count_eq p
  rw [count_append, count_append] at hc
  rw [decrementAll, Counts.foldl_decrement removed (counts_incrementAll out added h) p]
  dsimp only
  rw [hc, Nat.add_sub_cancel]

/-- The prefixes change by what is acquired and what is given back. -/
theorem perm_updatedPrefixes {old new : List P} (ho : old.Nodup) (hn : new.Nodup) :
    (updatedPrefixes k old new).Nodup ∧ (old ++ (determinePrefixChanges old new).1).Perm
      (updatedPrefixes k old new ++ removedPrefixes k old new) := by
  have hl : (old ++ (determinePrefixChanges old new).1).Nodup :=
    ho.append (hn.filter _) fun p hp hf => by simpa [hp] using (mem_filter.mp hf).2
  have hr : (removedPrefixes k old new).Nodup := by
    rw [removedPrefixes]
    split
    · exact nodup_nil
    · exact (nodup_dedup old).filter _
  have hu : (updatedPrefixes k old new).Nodup := by
    simp only [updatedPrefixes, combinePrefixes]
    split_ifs
    · exact ho
    · exact hl
    · exact hn
    · exact nodup_dedup _
  have hm : ∀ p, (p ∈ old ++ (determinePrefixChanges old new).1 ↔
        p ∈ updatedPrefixes k old new ++ removedPrefixes k old new) ∧
      (p ∈ updatedPrefixes k old new → p ∉ removedPrefixes k old new) := by
    intro p
    simp only [updatedPrefixes, removedPrefixes, combinePrefixes, determinePrefixChanges]
    split_ifs <;> grind [mem_dedup]
  have hd := hu.append hr fun p => (hm p).2
  exact ⟨hu, (perm_ext_iff_of_nodup hl hd).mpr fun p => (hm p).1⟩

theorem perm_domains (g : P → P) {domains : List (String × P)} {upd added removed : List P}
    (hp : ((domains.filter (·.1 = d)).map Prod.snd ++ added).Perm (upd ++ removed)) :
    (domains.map (g ·.2) ++ added.map g).Perm
      ((upd.map (d, ·) ++ domains.filter (·.1 ≠ d)).map (g ·.2) ++ removed.map g) := by
  refine perm_iff_count.mpr fun q => ?_
  have hs := ((filter_append_perm (·.1 = d) domains).map (g ·.2)).count_eq q
  have hq := (hp.map g).count_eq q
  simp only [map_append, map_map, count_append, Function.comp_def, decide_not] at hs hq ⊢
  change _ = count q (map g upd) + _ + _
  omega

theorem Exact.answer {h : Handler P} (he : Exact k h) (d : String) {new : List P} (hn : new.Nodup) :
    Exact k (answer k h d new) := by
  have ho : ((h.domains.filter (·.1 = d)).map Prod.snd).Nodup := by
    refine (he.nodup.filter _).map_on fun x hx y hy hxy => ?_
    simp only [mem_filter, decide_eq_true_eq] at hx hy
    exact Prod.ext (hx.2.trans hy.2.symm) hxy
  obtain ⟨hu, hp⟩ := perm_updatedPrefixes (k := k) ho hn
  refine ⟨?_, counts_change () he.routes (perm_domains k.routePrefix hp), ?_⟩
  · refine (hu.map fun x y hxy => (Prod.mk.inj hxy).2).append (he.nodup.filter _) fun e hm hf => ?_
    obtain ⟨p, -, rfl⟩ := mem_map.mp hm
    simp at hf
  · have ha := he.allowedIPs
    simp only [DomainRoute.answer]
    by_cases hk : h.currentPeerKey = ""
    · simp only [hk, if_true] at ha ⊢
      exact ha
    · simp only [hk, if_false] at ha ⊢
      have hd := perm_domains id hp
      rw [map_id, map_id] at hd
      exact counts_change h.currentPeerKey ha hd

theorem Exact.step {h h' : Handler P} {x : Call P} (he : Exact k h) (hf : Fair h x)
    (hs : step k h x = some h') : Exact k h' := by
  cases x with
  | answer d new => exact Option.some.inj hs ▸ he.answer d hf
  | addAllowedIPs peerKey =>
    cases hs
    refine ⟨he.nodup, he.routes, fun p => ?_⟩
    have := counts_incrementAll peerKey (h.domains.map Prod.snd) he.allowedIPs p
    simpa [addAllowedIPs, hf.1, hf.2] using this
  | removeAllowedIPs =>
    cases hs
    refine ⟨he.nodup, he.routes, fun p => ?_⟩
    have := Counts.foldl_decrement (h.domains.map Prod.snd) he.allowedIPs p
    simp only [removeAllowedIPs, decrementAll, this]
    split <;> simp

/-- **Nothing is held in the end**, if no answer repeats an address and allowed IPs are only
    added for a peer while there is none. -/
theorem released_of_fair (k : Kind P) (calls : List (Call P)) {h : Handler P}
    (hf : AllowedRun (step k) Fair {} calls) (hr : run (step k) {} calls = some h) (p : P) :
    (removeRoute k (removeAllowedIPs h)).routes.refCountMap p = none ∧
      (removeRoute k (removeAllowedIPs h)).allowedIPs.refCountMap p = none := by
  have he : Exact k h := run_invariant (fun _ _ _ he hf hs => he.step hf hs) calls {} h
    ⟨nodup_nil, fun _ => rfl, fun _ => rfl⟩ hf hr
  have hx : Exact k (removeAllowedIPs h) := he.step (x := .removeAllowedIPs) trivial rfl
  refine ⟨eq_none_of_counts (Counts.foldl_decrement _ hx.routes) (Nat.sub_self _), ?_⟩
  rw [removeRoute, if_neg fun hk => hk.2 rfl]
  exact eq_none_of_counts hx.allowedIPs (if_pos rfl)

instance (h : Handler P) : ∀ x, Decidable (Fair h x)
  | .answer _ newPrefixes => inferInstanceAs (Decidable newPrefixes.Nodup)
  | .addAllowedIPs _ => inferInstanceAs (Decidable (_ ∧ _))
  | .removeAllowedIPs => isTrue trivial

/-- An address goes while there is a peer. -/
theorem changed_answer_released : ∃ h, run (step ⟨true, false, id⟩) {}
    [.answer "a" [1, 2], .addAllowedIPs "p", .answer "a" [2, 3]] = some h ∧
      (removeRoute ⟨true, false, id⟩ (removeAllowedIPs h)).routes.refCountMap 1 = none :=
  exists_end rfl fun _ hh => (released_of_fair ⟨true, false, id⟩ _ (by decide) hh 1).1

/-- A dynamic route acquires a repeated address twice and remembers it once; an
    interceptor remembers it twice but gives it back once. -/
theorem repeated_address_held :
    (∃ h, run (step ⟨false, false, id⟩) {} [.answer "a" [1, 1]] = some h ∧
      (removeRoute ⟨false, false, id⟩ (removeAllowedIPs h)).routes.refCountMap 1 ≠ none) ∧
    ∃ h, run (step ⟨true, false, id⟩) {} [.answer "a" [1, 1], .answer "a" [2]] = some h ∧
      (removeRoute ⟨true, false, id⟩ (removeAllowedIPs h)).routes.refCountMap 1 ≠ none :=
  ⟨⟨_, rfl, nofun⟩, _, rfl, nofun⟩

end DomainRoute

import NetbirdHa.DnsServerProofs
import NetbirdHa.RefCounterProofs

/-! # The zones of registered handlers

`RegisterHandler` counts a call for the zone of each domain, `DeregisterHandler`
takes one off.  The handler chain counts nothing: a handler takes the place of one
with the same pattern and priority. -/

namespace ExtraDomains

open DnsName HandlerChain DnsServer Transition List Function

/-- The fields of `DefaultServer` that these calls touch. -/
structure Server where
  handlerChain : List (HandlerEntry Handler) := []
  extraDomains : Name → Option Int := fun _ => none

/-- Registering and deregistering handlers. -/
inductive Call where
  | register (domains : List Name) (handler : Handler) (priority : Int)
  | deregister (domains : List Name) (priority : Int)

/-- A wildcard stands for its zone. -/
def normalizeZone (s : Name) : Name := if ['*', '.'].isPrefixOf s then s.drop 2 else s

variable (lib : Library)

/-- The zone a domain is counted under. -/
def toZone (d : Name) : Name := normalizeZone (lib.fqdn (lib.toLower d))

/-- One registration more. -/
def countUp (m : Name → Option Int) (d : Name) : Name → Option Int :=
  update m (toZone lib d) (some ((m (toZone lib d)).getD 0 + 1))

/-- One registration less; the last one removes the zone. -/
def countDown (m : Name → Option Int) (d : Name) : Name → Option Int :=
  let n := (m (toZone lib d)).getD 0 - 1
  update m (toZone lib d) (if n ≤ 0 then none else some n)

/-- `RegisterHandler` and `DeregisterHandler`. -/
def step (s : Server) : Call → Option Server
  | .register domains handler priority => some
    ⟨registerHandler lib s.handlerChain domains handler priority,
      domains.foldl (countUp lib) s.extraDomains⟩
  | .deregister domains priority => some
    ⟨deregisterHandler lib s.handlerChain domains priority,
      domains.foldl (countDown lib) s.extraDomains⟩

/-- The calls for one domain after the other. -/
def Call.each : Call → List Call
  | .register domains handler priority => domains.map (.register [·] handler priority)
  | .deregister domains priority => domains.map (.deregister [·] priority)

theorem run_each (call : Call) : ∀ s, run (step lib) s call.each = step lib s call := by
  cases call with
  | register domains handler priority | deregister domains priority =>
    induction domains with
    | nil => exact fun s => rfl
    | cons d domains ih => exact fun s => ih _

/-- A domain is registered if it has no handler with this priority, and deregistered if it
    has one. -/
def FairEach (s : Server) : Call → Prop
  | .register [d] _ priority =>
    d ≠ [] ∧ ∀ e ∈ s.handlerChain, ¬ isEntry lib (lib.toLower (lib.fqdn d)) priority e
  | .deregister [d] priority =>
    d ≠ [] ∧ (∃ e ∈ s.handlerChain, isEntry lib (lib.fqdn d) priority e) ∧
      ∀ e ∈ s.handlerChain, isEntry lib (lib.fqdn d) priority e →
        normalizeZone e.origPattern = toZone lib d
  | _ => False

instance (s : Server) : ∀ call, Decidable (FairEach lib s call)
  | .register [_] .. | .deregister [_] .. => inferInstanceAs (Decidable (_ ∧ _))
  | .register [] .. | .register (_ :: _ :: _) .. | .deregister [] .. |
    .deregister (_ :: _ :: _) .. =>
    isFalse id

/-- Each domain of the call when its turn comes. -/
def Fair (s : Server) (call : Call) : Prop := AllowedRun (step lib) (FairEach lib) s call.each
deriving Decidable

/-- The zones of the handlers. -/
def zones (c : List (HandlerEntry Handler)) : List Name :=
  c.map fun e => normalizeZone e.origPattern

/-- Each zone is counted as often as it has handlers. -/
def Counted (s : Server) : Prop :=
  ∀ z, s.extraDomains z = RefCounter.numeral ((zones s.handlerChain).count z)

variable {lib} {s : Server}

theorem zones_addHandler (hc : ∀ s, lib.fqdn (lib.toLower s) = lib.toLower (lib.fqdn s))
    {c : List (HandlerEntry Handler)} (handler : Handler)
    (hn : ∀ e ∈ c, ¬ isEntry lib (lib.toLower (lib.fqdn d)) priority e) :
    (zones (addHandler lib Handler.matcher c d handler priority)).Perm
      (toZone lib d :: zones c) := by
  have hr : removeEntry lib c (lib.toLower (lib.fqdn d)) priority = c := by
    rw [removeEntry, eraseP_of_forall_not fun e he => hn e (mem_reverse.mp he), reverse_reverse]
  rw [toZone, hc]
  exact (((perm_insertEntry _ _).trans (.of_eq (congrArg _ hr))).map _)

theorem zones_removeHandler {c : List (HandlerEntry Handler)}
    (he : ∃ e ∈ c, isEntry lib (lib.fqdn d) priority e)
    (hz : ∀ e ∈ c, isEntry lib (lib.fqdn d) priority e →
      normalizeZone e.origPattern = toZone lib d) :
    (zones c).Perm (toZone lib d :: zones (removeHandler lib c d priority)) := by
  obtain ⟨e, hm, hi⟩ := he
  obtain ⟨a, l, r, -, ha, hc, hr⟩ := exists_of_eraseP (mem_reverse.mpr hm) hi
  have hac : a ∈ c := mem_reverse.mp (hc ▸ mem_append_right _ (mem_cons_self ..))
  have hp : c.Perm (a :: (l ++ r).reverse) := by
    refine (reverse_perm c).symm.trans ?_
    rw [hc]
    exact perm_middle.trans ((reverse_perm _).symm.cons a)
  rw [← hz a hac ha, removeHandler, removeEntry, hr]
  exact hp.map _

theorem counted_each (hc : ∀ s, lib.fqdn (lib.toLower s) = lib.toLower (lib.fqdn s))
    (s : Server) (call : Call) (s' : Server) (h : Counted s) (hf : FairEach lib s call)
    (hs : step lib s call = some s') : Counted s' := by
  intro z
  have hz := h z
  rw [RefCounter.numeral] at hz ⊢
  rcases call with ⟨_ | ⟨d, _ | _⟩, handler, priority⟩ | ⟨_ | ⟨d, _ | _⟩, priority⟩
  all_goals try exact False.elim hf
  · cases hs
    have hp := (zones_addHandler hc handler hf.2).count_eq z
    simp only [registerHandler, foldl_cons, foldl_nil, if_neg hf.1, countUp, hp, count_cons]
    grind
  · cases hs
    have hp := (zones_removeHandler hf.2.1 hf.2.2).count_eq z
    simp only [deregisterHandler, foldl_cons, foldl_nil, if_neg hf.1, countDown]
    by_cases hd : z = toZone lib d
    · subst hd
      grind
    · rw [update_of_ne hd]
      grind

/-- **Zones.**  As long as only domains without a handler are registered and only domains
    with one deregistered, the zones that are captured are those of the domains with a
    handler, and each is counted once for each of these. -/
theorem zones_of_fair (lib : Library)
    (hc : ∀ s, lib.fqdn (lib.toLower s) = lib.toLower (lib.fqdn s)) (calls : List Call) {s : Server}
    (hf : AllowedRun (step lib) (Fair lib) {} calls) (hr : run (step lib) {} calls = some s) :
    (∀ z, s.extraDomains z ≠ none ↔ ∃ e ∈ s.handlerChain, normalizeZone e.origPattern = z) ∧
      Counted s := by
  have hst : ∀ s call s', Counted s → Fair lib s call → step lib s call = some s' → Counted s' := by
    intro s call s' h hf hs
    rw [← run_each] at hs
    exact run_invariant (counted_each hc) call.each s s' h hf hs
  have h : Counted s := run_invariant hst calls {} s (fun z => rfl) hf hr
  refine ⟨fun z => ?_, h⟩
  rw [h z, RefCounter.numeral, ← mem_map, ← zones, ← count_pos_iff, Nat.pos_iff_ne_zero]
  split <;> simp [*]

theorem ascii_fqdn_toLower (s : Name) :
    ascii.fqdn (ascii.toLower s) = ascii.toLower (ascii.fqdn s) := by
  have hs : ['.'] <:+ ascii.toLower s ↔ ['.'] <:+ s := by
    rcases s.eq_nil_or_concat with rfl | ⟨t, c, rfl⟩
    · rfl
    · have hd : '.' = c.toLower ↔ '.' = c :=
        ⟨fun h => (eq_dot_of_toLower h.symm).symm, fun h => h ▸ rfl⟩
      simpa [Library.toLower, ascii, singleton_suffix_append_singleton_iff] using hd
  simp only [ascii] at hs ⊢
  simp only [hs]
  split
  · rfl
  · simp [Library.toLower]

/-- A domain and its wildcard, and then only the domain. -/
theorem wildcard_remains : ∃ s, run (step ascii) {}
    [.register ["a.b".toList, "*.a.b".toList] .hostRoot 1, .deregister ["*.A.b".toList] 1] =
      some s ∧
      (s.extraDomains "a.b.".toList ≠ none ↔
        ∃ e ∈ s.handlerChain, normalizeZone e.origPattern = "a.b.".toList) :=
  exists_end rfl fun _ hs => (zones_of_fair ascii ascii_fqdn_toLower _ (by decide) hs).1 _

/-- Registered twice and deregistered once, a zone stays without a handler; deregistered
    with another priority, a handler stays without its zone. -/
theorem zone_without_handler :
    (∃ s, run (step ascii) {} [.register ["a.b".toList] .hostRoot 1,
      .register ["a.b".toList] .hostRoot 1, .deregister ["a.b".toList] 1] = some s ∧
        s.handlerChain = [] ∧ s.extraDomains "a.b.".toList = some 1) ∧
    ∃ s, run (step ascii) {} [.register ["a.b".toList] .hostRoot 1, .deregister ["a.b".toList] 2] =
      some s ∧ s.handlerChain ≠ [] ∧ s.extraDomains "a.b.".toList = none :=
  ⟨⟨_, rfl, by decide, by decide⟩, _, rfl, by decide, by decide⟩

end ExtraDomains

import NetbirdHa.DnsUpdateProofs

/-! # The context of the local resolver

All configurations share the local resolver, but `updateMux` stops every handler it
remembers from the last one.  Stopping the local resolver cancels its context, and
nothing makes a new one: external names are not looked up any more. -/

namespace DnsServer

open DnsName HandlerChain Transition List AList

/-- A server, and whether the context of its local resolver is cancelled. -/
structure Live where
  server : Server
  cancelled : Bool := false

variable (lib : Library) (runtimeIP : Netip.Addr) (hash : Config → Nat)

/-- The update gets as far as `updateMux`. -/
def Applies (s : Server) (serial : Nat) (config : Config) (grouped : List NsGroupsByDomain) :
    Prop :=
  ¬ s.closed ∧ ¬ serial < s.updateSerial ∧ s.previousConfigHash ≠ hash config ∧
    (buildHandlers runtimeIP config grouped).isSome
deriving Decidable

/-- The local resolver is among the handlers that are stopped. -/
def stopsLocal (s : Server) : Action → Bool
  | .update _ serial config grouped => Applies runtimeIP hash s serial config grouped &&
    (existingOf s.dnsMuxMap).any (·.handler = .localResolver)
  | _ => false

/-- A call of a server that has not been stopped. -/
def liveStep (l : Live) (a : Action) : Option Live :=
  match a with
  | .stop _ => none
  | a => (step lib runtimeIP hash l.server a).map fun s =>
    ⟨s, l.cancelled || stopsLocal runtimeIP hash l.server a⟩

/-- Only a configuration without zones is replaced. -/
def Spares (l : Live) : Action → Prop
  | .update _ serial config grouped =>
    Applies runtimeIP hash l.server serial config grouped → l.server.localZones = []
  | _ => True

/-- Lookups in the context of the resolver. -/
def inContext (cancelled : Bool) (env : LocalResolver.Env) : LocalResolver.Env :=
  if cancelled then { env with lookupNetIP := fun _ _ => .error .other } else env

variable {lib runtimeIP hash} {s : Server} {us : List Wrapper} {config : Config}
  {grouped : List NsGroupsByDomain}

/-- The map has, for each ID, the last handler that has it. -/
theorem lookup_remember (us : List Wrapper) (id : String) :
    (remember us).lookup id = us.reverse.find? (·.handler.id = id) := by
  induction us using List.reverseRecOn with
  | nil => rfl
  | append_singleton us u ih =>
    rw [remember, foldl_append, foldl_cons, foldl_nil, reverse_append,
      reverse_singleton, singleton_append, List.find?_cons]
    by_cases hi : u.handler.id = id
    · rw [hi, lookup_insert, decide_eq_true rfl]
    · rw [lookup_insert_ne (hi ·.symm), decide_eq_false hi]
      exact ih

theorem mem_existingOf {m : Table.GoMap Wrapper} {w : Wrapper} :
    w ∈ existingOf m ↔ ∃ id, m.lookup id = some w := by
  rw [existingOf, mem_map]
  constructor
  · rintro ⟨⟨id, w'⟩, hme, rfl⟩
    exact ⟨id, mem_lookup_iff.mpr hme⟩
  · rintro ⟨id, hi⟩
    exact ⟨⟨id, w⟩, mem_lookup_iff.mp hi, rfl⟩

/-- The ID of the local resolver is its own. -/
theorem handler_of_id {w : Wrapper} (h : w.handler.id = Handler.id .localResolver) :
    w.handler = .localResolver := by
  have hw := w.fromConfig
  cases hh : w.handler with
  | localResolver => rfl
  | upstream u =>
    rw [hh] at h
    have := congrArg (fun s : String => s.toList.head?) h
    simp [Handler.id, upstreamID] at this
  | hostRoot | fallback | other => simp [hh, Handler.ofConfig] at hw

/-- The local resolver is remembered. -/
theorem any_existingOf_remember : (existingOf (remember us)).any (·.handler = .localResolver) =
    us.any (·.handler = .localResolver) := by
  rw [Bool.eq_iff_iff, any_eq_true, any_eq_true]
  constructor
  · rintro ⟨w, hw, hl⟩
    obtain ⟨id, hid⟩ := mem_existingOf.mp hw
    rw [lookup_remember] at hid
    exact ⟨w, mem_reverse.mp (mem_of_find?_eq_some hid), hl⟩
  · rintro ⟨u, hu, hl⟩
    have hid : u.handler.id = Handler.id .localResolver := congrArg _ (of_decide_eq_true hl)
    obtain ⟨w, hw⟩ := Option.isSome_iff_exists.mp (@find?_isSome _ us.reverse
      (·.handler.id = Handler.id .localResolver) |>.mpr ⟨u, by simpa using hu, by simpa⟩)
    refine ⟨w, mem_existingOf.mpr ⟨_, (lookup_remember us _).trans hw⟩, decide_eq_true ?_⟩
    exact handler_of_id (by simpa using find?_some hw)

theorem handler_of_createHandlers {domain : Name} {groups : List NameServerGroup} : ∀ {i : Nat},
    ∀ w ∈ createHandlers runtimeIP domain i groups, w.handler ≠ .localResolver := by
  induction groups with
  | nil => simp [createHandlers]
  | cons g gs ih => grind [createHandlers]

/-- The handlers have the local resolver exactly if there are zones with records. -/
theorem any_buildHandlers (h : buildHandlers runtimeIP config grouped = some us) :
    us.any (·.handler = .localResolver) =
      !(buildLocalHandlerUpdate config.customZones).2.isEmpty := by
  obtain ⟨vs, hv, rfl⟩ := Option.map_eq_some_iff.mp h
  have hvs : vs.any (·.handler = .localResolver) = false := by
    grind [buildUpstreamHandlerUpdate, createHandlersForDomainGroup, handler_of_createHandlers]
  rw [any_append, hvs, buildLocalHandlerUpdate]
  cases config.customZones.filter fun zone => !zone.records.isEmpty <;> simp

/-- The local resolver is remembered exactly if it has zones. -/
def Remembers (s : Server) : Prop :=
  (existingOf s.dnsMuxMap).any (·.handler = .localResolver) = !s.localZones.isEmpty

theorem Remembers.updateDNSServer (h : Remembers s) (env : Surroundings) (serial : Nat) :
    Remembers (updateDNSServer lib runtimeIP hash env s serial config grouped) := by
  have hd : ∀ b, Remembers (disableDNS lib b s) := by
    intro b
    rw [disableDNS]
    split
    · exact h
    · exact h
  rw [DnsServer.updateDNSServer]
  split
  · exact h
  split
  · exact h
  split
  · exact h
  dsimp only
  split
  · exact hd _
  · rename_i ha
    obtain ⟨us, hus, rfl⟩ := Option.map_eq_some_iff.mp ha
    exact any_existingOf_remember.trans (any_buildHandlers hus)

theorem Remembers.step (h : Remembers s) {a : Action} {s' : Server}
    (hs : step lib runtimeIP hash s a = some s') : Remembers s' := by
  cases a with
  | update env serial config grouped =>
    obtain ⟨-, ⟨⟩⟩ := Option.ite_none_right_eq_some.mp hs
    exact h.updateDNSServer env serial
  | register | deregister =>
    obtain ⟨-, ⟨⟩⟩ := Option.ite_none_right_eq_some.mp hs
    exact h
  | updatedHost hosts =>
    cases hs
    rw [onUpdatedHostDNSServer]
    split
    · exact h
    · exact h
  | stop b =>
    cases hs
    rw [disableDNS]
    split
    · exact h
    · exact h

theorem liveStep_eq {l l' : Live} {a : Action} (h : liveStep lib runtimeIP hash l a = some l') :
    ∃ s', step lib runtimeIP hash l.server a = some s' ∧
      ⟨s', l.cancelled || stopsLocal runtimeIP hash l.server a⟩ = l' := by
  cases a with
  | stop b => cases h
  | update | register | deregister | updatedHost => exact Option.map_eq_some_iff.mp h

/-- **The context of the local resolver.**  It is not cancelled exactly if no update is
    applied over a configuration that has zones with records; and it is only then that
    external names are looked up. -/
theorem context_live_iff {c : Chain Handler} (actions : List Action) {l : Live}
    (hr : run (liveStep lib runtimeIP hash) ⟨{ chain := c }, false⟩ actions = some l) :
    (l.cancelled = false ↔ AllowedRun (liveStep lib runtimeIP hash) (Spares runtimeIP hash)
      ⟨{ chain := c }, false⟩ actions) ∧
    ∀ env name qtype,
      (LocalResolver.resolveExternal (inContext l.cancelled env) name qtype).records =
      if l.cancelled then [] else (LocalResolver.resolveExternal env name qtype).records := by
  constructor
  · have h₀ : Remembers { chain := c } := rfl
    have hi : ∀ l a l', Remembers l.server → liveStep lib runtimeIP hash l a = some l' →
        Remembers l'.server := by
      intro l a l' h hs
      obtain ⟨s', hs', rfl⟩ := liveStep_eq hs
      exact h.step hs'
    have hg : ∀ l a l', Remembers l.server → liveStep lib runtimeIP hash l a = some l' →
        (l'.cancelled = false ↔ l.cancelled = false ∧ Spares runtimeIP hash l a) := by
      intro l a l' h hs
      obtain ⟨s', hs', rfl⟩ := liveStep_eq hs
      rw [Bool.or_eq_false_iff]
      refine and_congr_right fun _ => ?_
      cases a with
      | update env serial config grouped => simp [stopsLocal, Spares, show _ = _ from h]
      | register | deregister | updatedHost | stop => exact iff_of_true rfl trivial
    exact (run_good_iff hi hg actions _ l h₀ hr).trans (and_iff_right rfl)
  · intro env name qtype
    cases l.cancelled with
    | false => rfl
    | true =>
      rw [inContext, if_pos rfl, LocalResolver.resolveExternal]
      split
      · rfl
      · rfl

instance (l : Live) : ∀ a, Decidable (Spares runtimeIP hash l a)
  | .update _ serial config grouped =>
    inferInstanceAs
      (Decidable (Applies runtimeIP hash l.server serial config grouped → l.server.localZones = []))
  | .register .. | .deregister .. | .updatedHost _ | .stop _ => isTrue trivial

/-- A zone after a configuration without any. -/
theorem first_zone_live : ∃ l, run (liveStep ascii .zero zonesHash) ⟨{ chain := [] }, false⟩
    [.update quiet 1 (zonesConfig []) [], .update quiet 2 (zonesConfig ["one.example".toList]) []] =
      some l ∧ l.cancelled = false :=
  exists_end rfl fun _ hl => (context_live_iff _ hl).1.mpr (by decide)

/-- A zone and then another one: the resolver that serves it has been stopped. -/
theorem second_zone_cancelled :
    ∃ l, run (liveStep ascii .zero zonesHash) ⟨{ chain := [] }, false⟩
      [.update quiet 1 (zonesConfig ["one.example".toList]) [],
        .update quiet 2 (zonesConfig ["second.example".toList]) []] = some l ∧
      l.server.localZones ≠ [] ∧ l.cancelled = true :=
  ⟨_, rfl, nofun, by decide⟩

end DnsServer

import NetbirdHa.DnsServerProofs

/-! # Configurations one after another

`updateMux` remembers what it has put into the chain by the ID of the handler.  All
zones share the local resolver and its ID, and upstream resolvers of one domain with
the same servers have one ID, so only the last of them is remembered, and taken out,
later.  What has been forgotten stays unless the next configuration has it again.

`registered_exact` says when the domains and priorities in the chain are those of the
latest configuration, after any history of updates, of registrations by others and of
changes on the host. -/

namespace DnsServer

open DnsName HandlerChain Transition List Option

/-! ## Histories -/

/-- A call, with what the host and the map decide.  `register` and `deregister` stand for
    `RegisterHandler`, `DeregisterHandler` and `UpdateServerConfig`, whose priorities are
    above the local one. -/
inductive Action where
  | update (env : Surroundings) (serial : Nat) (config : Config) (grouped : List NsGroupsByDomain)
  | register (domains : List Name) (name : String) (matchSubdomains : Option Bool)
      (priority : Int) (effect : HostEffect)
  | deregister (domains : List Name) (priority : Int) (effect : HostEffect)
  | updatedHost (hosts : Bool)
  | stop (deregisters : Bool)

/-- What an action leaves of the server. -/
def step (lib : Library) (runtimeIP : Netip.Addr) (hash : Config → Nat) (s : Server) :
    Action → Option Server
  | .update env serial config grouped =>
    if grouped.Perm (groupNSGroupsByDomain config.nameServerGroups) then
      some (updateDNSServer lib runtimeIP hash env s serial config grouped)
    else none
  | .register domains name matchSubdomains priority effect =>
    if priorityLocal < priority then
      let chain := registerHandler lib s.chain domains (.other name matchSubdomains) priority
      some { s with chain := registerFallback lib effect chain }
    else none
  | .deregister domains priority effect =>
    if priorityLocal < priority then
      let chain := deregisterHandler lib s.chain domains priority
      some { s with chain := registerFallback lib effect chain }
    else none
  | .updatedHost hosts => some (onUpdatedHostDNSServer lib s hosts)
  | .stop deregisters => some { disableDNS lib deregisters s with closed := true }

variable {lib : Library} {u : Wrapper} {e : HandlerEntry Handler} {us : List Wrapper}
  {priority : Int}

/-! ## The registered pairs -/

section

variable {c : Chain Handler}

/-- The domains and priorities that the chain has from configurations are those of the
    handlers `us`. -/
structure Matches (lib : Library) (us : List Wrapper) (c : List (HandlerEntry Handler)) : Prop where
  only : ∀ e ∈ c, e.handler.ofConfig → ∃ u ∈ us, Carries lib u e
  all : ∀ u ∈ us, u.domain ≠ [] → ∃ e ∈ c, e.handler.ofConfig ∧ Carries lib u e

instance (us : List Wrapper) : Decidable (Matches lib us c) :=
  decidable_of_iff ((∀ e ∈ c, e.handler.ofConfig → ∃ u ∈ us, Carries lib u e) ∧
      ∀ u ∈ us, u.domain ≠ [] → ∃ e ∈ c, e.handler.ofConfig ∧ Carries lib u e)
    ⟨fun h => ⟨h.1, h.2⟩, fun h => ⟨h.only, h.all⟩⟩

/-- Two chains with the same handlers from configurations. -/
def SameConfig (c c' : List (HandlerEntry Handler)) : Prop :=
  ∀ e : HandlerEntry Handler, e.handler.ofConfig → (e ∈ c' ↔ e ∈ c)

/-- Chains with the same configured entries match the same updates. -/
theorem SameConfig.matches_iff (h : SameConfig c c')
    (us : List Wrapper) : Matches lib us c' ↔ Matches lib us c := by
  constructor
  · intro hm
    refine ⟨fun e he hcf => hm.only e ((h e hcf).mpr he) hcf, fun u hu hn => ?_⟩
    obtain ⟨e, he, hcf, hc⟩ := hm.all u hu hn
    exact ⟨e, (h e hcf).mp he, hcf, hc⟩
  · intro hm
    refine ⟨fun e he hcf => hm.only e ((h e hcf).mp he) hcf, fun u hu hn => ?_⟩
    obtain ⟨e, he, hcf, hc⟩ := hm.all u hu hn
    exact ⟨e, (h e hcf).mpr he, hcf, hc⟩

/-- The handlers from configurations lie between the fallback and the local tier. -/
def Tiered (c : List (HandlerEntry Handler)) : Prop :=
  ∀ e ∈ c, e.handler.ofConfig → priorityFallback < e.priority ∧ e.priority ≤ priorityLocal

/-- A chain that matches an update keeps to the configured priorities. -/
theorem Matches.tiered (h : Matches lib us c) : Tiered c := by
  intro e he hcf
  obtain ⟨u, -, hc⟩ := h.only e he hcf
  rw [(isEntry_iff.mp hc.2).2]
  exact ⟨u.above, u.below⟩

/-- A handler that is not configured touches no configured entry. -/
theorem sameConfig_registerHandler (hc : WellFormed lib c)
    (hcf : handler.ofConfig = false) (ho : ∀ e ∈ c, e.handler.ofConfig → e.priority ≠ priority) :
    SameConfig c (registerHandler lib c domains handler priority) := by
  induction domains generalizing c with
  | nil => exact fun e _ => Iff.rfl
  | cons d domains ih =>
    have hon : SameConfig c (registerHandler lib c [d] handler priority) := by
      intro e he
      rw [mem_registerHandler_single hc]
      constructor
      · rintro (⟨-, rfl⟩ | ⟨he, -⟩)
        · exact absurd (hcf.symm.trans he) Bool.false_ne_true
        · exact he
      · exact fun hme => .inr ⟨hme, fun _ hen => ho e hme he (isEntry_iff.mp hen).2⟩
    grind [wellFormed_registerHandler, SameConfig, registerHandler]

/-- Nor does deregistering at a priority of its own. -/
theorem sameConfig_deregisterHandler (hc : WellFormed lib c)
    (ho : ∀ e ∈ c, e.handler.ofConfig → e.priority ≠ priority) :
    SameConfig c (deregisterHandler lib c domains priority) := by
  intro e he
  rw [mem_deregisterHandler hc]
  refine and_iff_left_of_imp fun hme d _ _ hen => ?_
  exact ho e hme he (isEntry_iff.mp hen).2

/-- No configured entry has the fallback's priority. -/
theorem Tiered.ne_fallback (h : Tiered c) :
    ∀ e ∈ c, e.handler.ofConfig → e.priority ≠ priorityFallback := by
  intro e he hc heq
  have := (h e he hc).1
  omega

/-- Nor one above the local resolver's. -/
theorem Tiered.ne_of_lt (h : Tiered c) (hl : priorityLocal < priority) :
    ∀ e ∈ c, e.handler.ofConfig → e.priority ≠ priority := by
  intro e he hc heq
  have := (h e he hc).2
  omega

/-- The fallback touches no configured entry. -/
theorem sameConfig_registerFallback (hc : WellFormed lib c) (ht : Tiered c) (effect : HostEffect) :
    SameConfig c (registerFallback lib effect c) := by
  cases effect with
  | keep => exact fun e _ => Iff.rfl
  | register => exact sameConfig_registerHandler hc rfl ht.ne_fallback
  | deregister => exact sameConfig_deregisterHandler hc ht.ne_fallback

/-- The handler for the host's servers takes the place of the root with its priority. -/
theorem mem_addHostRootZone (hc : WellFormed lib c) (hosts : Bool) (hcf : e.handler.ofConfig) :
    e ∈ addHostRootZone lib hosts c ↔ e ∈ c ∧ ¬ (hosts ∧ isEntry lib root priorityDefault e) := by
  cases hosts with
  | false => simp [addHostRootZone]
  | true =>
    have hr : root ≠ [] := cons_ne_nil _ _
    rw [addHostRootZone, if_pos rfl, mem_registerHandler_single hc, pattern_root,
      forall_prop_of_true hr, and_iff_right rfl]
    refine or_iff_right ?_
    rintro ⟨-, rfl⟩
    exact Bool.false_ne_true hcf

/-- Two lists of handlers with the same domains and priorities. -/
structure SamePairs (lib : Library) (us vs : List Wrapper) : Prop where
  left : ∀ u ∈ us, u.domain ≠ [] → ∃ v ∈ vs, Carries lib v (entryOf lib u)
  right : ∀ v ∈ vs, v.domain ≠ [] → ∃ u ∈ us, Carries lib u (entryOf lib v)

instance (us vs : List Wrapper) : Decidable (SamePairs lib us vs) :=
  decidable_of_iff ((∀ u ∈ us, u.domain ≠ [] → ∃ v ∈ vs, Carries lib v (entryOf lib u)) ∧
      ∀ v ∈ vs, v.domain ≠ [] → ∃ u ∈ us, Carries lib u (entryOf lib v))
    ⟨fun h => ⟨h.1, h.2⟩, fun h => ⟨h.left, h.right⟩⟩

/-- Two updates match one chain when they have the same pairs. -/
theorem Matches.iff_samePairs (h : Matches lib us c) : Matches lib vs c ↔ SamePairs lib us vs := by
  constructor
  · intro h'
    refine ⟨fun u hu hn => ?_, fun v hv hn => ?_⟩
    all_goals grind [carries_congr, carries_entryOf, Matches]
  · intro hs
    refine ⟨fun e he hcf => ?_, fun v hv hn => ?_⟩
    · obtain ⟨u, hu, hc⟩ := h.only e he hcf
      obtain ⟨v, hv, hc'⟩ := hs.left u hu hc.1
      exact ⟨v, hv, (carries_congr hc (carries_entryOf hc.1)).mpr hc'⟩
    · obtain ⟨u, hu, hc⟩ := hs.right v hv hn
      obtain ⟨e, he, hcf, hc'⟩ := h.all u hu hc.1
      exact ⟨e, he, hcf, (carries_congr hc hc').mp (carries_entryOf hn)⟩

end

/-! ## One update -/

section

variable {s : Server}

/-- Nothing of the latest configuration stays behind: each of its handlers is taken out
    with one that is remembered, or its domain and priority are wanted again, or the
    host's own servers take its place. -/
def Cleared (lib : Library) (s : Server) (us : List Wrapper) : Prop :=
  ∀ u ∈ s.latest, u.domain ≠ [] →
    (∃ w ∈ existingOf s.dnsMuxMap, Removes lib w (entryOf lib u)) ∨
    (∃ v ∈ us, Carries lib v (entryOf lib u)) ∨
    (s.hosts ∧ restoresHost (existingOf s.dnsMuxMap) us ∧ u.domain = root ∧
      u.priority = priorityDefault)
deriving Decidable

section

/-- Which handler sits where the host's root zone goes. -/
theorem isEntry_root_entryOf (hn : u.domain ≠ []) :
    isEntry lib root priorityDefault (entryOf lib u) ↔
      u.domain = root ∧ u.priority = priorityDefault := by
  rw [isEntry_iff]
  refine and_congr_left fun _ => ⟨fun h => eq_root_of_isEntry hn h, fun h => ?_⟩
  show lib.equalFold (lib.toLower (lib.fqdn u.domain)) root = true
  rw [h, pattern_root]
  exact lib.equalFold_refl root

variable (hwf : WellFormed lib s.chain)

include hwf

/-- A handler of a configuration stays in the chain unless the host's own take its place. -/
theorem mem_updateMux (hc : e.handler.ofConfig) : e ∈ (updateMux lib s us).chain ↔
    e ∈ registerAll lib us (deregisterAll lib (existingOf s.dnsMuxMap) s.chain) ∧
      ¬ (s.hosts ∧ restoresHost (existingOf s.dnsMuxMap) us ∧
        isEntry lib root priorityDefault e) := by
  grind [wellFormed_registerAll, wellFormed_deregisterAll, updateMux, mem_addHostRootZone]

/-- An update keeps the chain well formed. -/
theorem wellFormed_updateMux (us : List Wrapper) : WellFormed lib (updateMux lib s us).chain := by
  grind [wellFormed_registerAll, wellFormed_deregisterAll, updateMux, wellFormed_addHostRootZone]

/-- The new handlers and only they are there exactly if nothing stays behind. -/
theorem matches_updateMux (hm : Matches lib s.latest s.chain)
    (us : List Wrapper) : Matches lib us (updateMux lib s us).chain ↔ Cleared lib s us := by
  have hw' := wellFormed_deregisterAll hwf (existingOf s.dnsMuxMap)
  constructor
  · intro h u hu hne
    obtain ⟨e, he, hcf, hc⟩ := hm.all u hu hne
    have hue : Carries lib u (entryOf lib u) := carries_entryOf hne
    by_contra hno
    rw [not_or, not_or] at hno
    obtain ⟨hk, hn, hh⟩ := hno
    have hre : ∀ v ∈ us, ¬ Carries lib v e := fun v hv hv' =>
      hn ⟨v, hv, (carries_congr hc hue).mp hv'⟩
    have hme : e ∈ (updateMux lib s us).chain := by
      refine (mem_updateMux hwf hcf).mpr ⟨(mem_registerAll hw').2 ?_ hre, ?_⟩
      · refine (mem_deregisterAll hwf).mpr ⟨he, fun w hw hr => hk ⟨w, hw, ?_⟩⟩
        exact (removes_congr hc hue).mp hr
      · rintro ⟨hho, hrs, hen⟩
        have := (isEntry_root_entryOf hne).mp ((isEntry_congr hc.2 hue.2).mp hen)
        exact hh ⟨hho, hrs, this⟩
    obtain ⟨v, hv, hc'⟩ := h.only e hme hcf
    exact hre v hv hc'
  · intro hcl
    refine ⟨fun e he hcf => ?_, fun v hv hne => ?_⟩
    · obtain ⟨hme, hh⟩ := (mem_updateMux hwf hcf).mp he
      rcases (mem_registerAll hw').1 hme with ⟨v, hv, hvn, rfl⟩ | ⟨hold, hn⟩
      · exact ⟨v, hv, carries_entryOf hvn⟩
      obtain ⟨hme, hk⟩ := (mem_deregisterAll hwf).mp hold
      obtain ⟨u, hu, hc⟩ := hm.only e hme hcf
      have hue : Carries lib u (entryOf lib u) := carries_entryOf hc.1
      rcases hcl u hu hc.1 with ⟨w, hw, hr⟩ | ⟨v, hv, hc'⟩ | hro
      · exact absurd ((removes_congr hc hue).mpr hr) (hk w hw)
      · exact ⟨v, hv, (carries_congr hc hue).mpr hc'⟩
      · refine absurd ⟨hro.1, hro.2.1, ?_⟩ hh
        exact (isEntry_congr hc.2 hue.2).mpr ((isEntry_root_entryOf hc.1).mpr hro.2.2)
    · obtain ⟨x, hx, hxn, hc, hme⟩ := exists_mem_registerEach hw' hv hne
      refine ⟨entryOf lib x, (mem_updateMux hwf x.fromConfig).mpr ⟨hme, ?_⟩, x.fromConfig, hc⟩
      -- the host's servers come back only where no new handler is for the root
      grind [isEntry_root_entryOf, restoresHost]

/-- An update keeps to the configured priorities. -/
theorem tiered_updateMux (hm : Matches lib s.latest s.chain)
    (us : List Wrapper) : Tiered (updateMux lib s us).chain := by
  intro e he hc
  have hw' := wellFormed_deregisterAll hwf (existingOf s.dnsMuxMap)
  rcases (mem_registerAll hw').1 ((mem_updateMux hwf hc).mp he).1 with
    ⟨v, hv, hvne, rfl⟩ | ⟨hold, -⟩
  · exact ⟨v.above, v.below⟩
  · exact hm.tiered e ((mem_deregisterAll hwf).mp hold).1 hc

end

/-- What an accepted configuration leaves. -/
theorem matches_applyConfiguration (hu : buildHandlers runtimeIP config grouped = some us)
    (hs' : applyConfiguration lib runtimeIP env s config grouped = some s')
    (hwf : WellFormed lib s.chain) (hm : Matches lib s.latest s.chain) :
    Matches lib s'.latest s'.chain ↔ Cleared lib s us := by
  rw [applyConfiguration, hu] at hs'
  cases hs'
  have hs := sameConfig_registerFallback (wellFormed_updateMux hwf us)
    (tiered_updateMux hwf hm us) env.fallback
  exact (hs.matches_iff us).trans (matches_updateMux hwf hm us)

/-- Disabling touches no configured entry. -/
theorem sameConfig_disableDNS (hwf : WellFormed lib s.chain) (ht : Tiered s.chain)
    (deregisters : Bool) : SameConfig s.chain (disableDNS lib deregisters s).chain := by
  rw [disableDNS]
  split
  · exact sameConfig_deregisterHandler hwf ht.ne_fallback
  · exact fun e _ => Iff.rfl

end

/-! ## What every call keeps -/

section

variable {runtimeIP : Netip.Addr} {hash : Config → Nat} {s s' : Server}

/-- The chain is well formed and the host configuration has its domains in lower case. -/
structure Ready (lib : Library) (s : Server) : Prop where
  wellFormed : WellFormed lib s.chain
  lower : ∀ item ∈ s.currentConfig.domains, lib.toLower item.domain = item.domain

/-- A configuration gives domains in lower case. -/
theorem lower_dnsConfigToHostDNSConfig (config : Config) :
    ∀ item ∈ (dnsConfigToHostDNSConfig lib config).domains,
      lib.toLower item.domain = item.domain := by
  intro item hi
  rcases mem_append.mp hi with hi | hi
  · obtain ⟨g, -, hi⟩ := mem_flatMap.mp hi
    obtain ⟨d, -, rfl⟩ := mem_map.mp hi
    exact lib.toLower_toLower _
  · obtain ⟨z, -, rfl⟩ := mem_map.mp hi
    exact lib.toLower_toLower _

/-- Disabling keeps the server ready. -/
theorem ready_disableDNS (h : Ready lib s) (deregisters : Bool) :
    Ready lib (disableDNS lib deregisters s) := by
  rw [disableDNS]
  split
  · exact ⟨wellFormed_deregisterHandler h.wellFormed _ _, h.lower⟩
  · exact h

/-- A configuration that is applied keeps the server ready. -/
theorem ready_applyConfiguration (h : Ready lib s)
    (hs' : applyConfiguration lib runtimeIP env s config grouped = some s') : Ready lib s' := by
  rw [applyConfiguration, map_eq_some_iff] at hs'
  obtain ⟨us, -, rfl⟩ := hs'
  refine ⟨wellFormed_registerFallback (wellFormed_updateMux h.wellFormed us) env.fallback, ?_⟩
  split
  all_goals exact lower_dnsConfigToHostDNSConfig config

/-- An update keeps the server ready, whatever becomes of it. -/
theorem ready_updateDNSServer (h : Ready lib s) (env : Surroundings) (serial : Nat)
    (config : Config) (grouped : List NsGroupsByDomain) :
    Ready lib (updateDNSServer lib runtimeIP hash env s serial config grouped) := by
  rw [updateDNSServer]
  split
  · exact h
  split
  · exact h
  split
  · exact ⟨h.wellFormed, h.lower⟩
  have hd := ready_disableDNS h (!config.serviceEnable && env.disables)
  dsimp only
  cases ha : applyConfiguration lib runtimeIP env
      (disableDNS lib (!config.serviceEnable && env.disables) s) config grouped with
  | none => exact hd
  | some m =>
    have hm := ready_applyConfiguration hd ha
    exact ⟨hm.wellFormed, hm.lower⟩

/-- Every action keeps the server ready. -/
theorem ready_step (h : Ready lib s) (hs' : step lib runtimeIP hash s a = some s') :
    Ready lib s' := by
  cases a with
  | update env serial config grouped =>
    rw [step, ite_none_right_eq_some] at hs'
    cases hs'.2
    exact ready_updateDNSServer h env serial config grouped
  | register domains name matchSubdomains priority effect =>
    rw [step, ite_none_right_eq_some] at hs'
    cases hs'.2
    exact ⟨wellFormed_registerFallback (wellFormed_registerHandler h.wellFormed _ _ _) effect,
      h.lower⟩
  | deregister domains priority effect =>
    rw [step, ite_none_right_eq_some] at hs'
    cases hs'.2
    exact ⟨wellFormed_registerFallback (wellFormed_deregisterHandler h.wellFormed _ _) effect,
      h.lower⟩
  | updatedHost hosts =>
    cases hs'
    rw [onUpdatedHostDNSServer]
    split
    · exact ⟨h.wellFormed, h.lower⟩
    · exact ⟨wellFormed_addHostRootZone h.wellFormed hosts, h.lower⟩
  | stop deregisters =>
    cases hs'
    have hd := ready_disableDNS h deregisters
    exact ⟨hd.wellFormed, hd.lower⟩

end

/-! ## Whole histories -/

section

variable {runtimeIP : Netip.Addr} {hash : Config → Nat} {s s' : Server}

/-- The condition on an update, for the handlers built from it.  One that is applied leaves nothing
    behind, and one that is accepted without being applied asks for what is there. -/
def Suits (lib : Library) (hash : Config → Nat) (s : Server) (serial : Nat) (config : Config) :
    Option (List Wrapper) → Prop
  | none => True
  | some us => s.closed ∨ serial < s.updateSerial ∨
      if s.previousConfigHash = hash config then SamePairs lib s.latest us else Cleared lib s us

/-- The condition.  Besides, the host's servers are not put in the place of a handler for
    the root. -/
def Allowed (lib : Library) (runtimeIP : Netip.Addr) (hash : Config → Nat) (s : Server) :
    Action → Prop
  | .update _ serial config grouped =>
    Suits lib hash s serial config (buildHandlers runtimeIP config grouped)
  | .updatedHost hosts =>
    hosts = true → (existingOf s.dnsMuxMap).any (·.domain = root) = false →
      ∀ u ∈ s.latest, ¬ (u.domain = root ∧ u.priority = priorityDefault)
  | _ => True

instance (serial : Nat) (config : Config) : ∀ us, Decidable (Suits lib hash s serial config us)
  | none => isTrue trivial
  | some us => inferInstanceAs (Decidable (s.closed ∨ serial < s.updateSerial ∨
      if s.previousConfigHash = hash config then SamePairs lib s.latest us else Cleared lib s us))

instance (s : Server) : ∀ a, Decidable (Allowed lib runtimeIP hash s a)
  | .update _ serial config grouped =>
    inferInstanceAs (Decidable (Suits lib hash s serial config
      (buildHandlers runtimeIP config grouped)))
  | .updatedHost hosts =>
    inferInstanceAs (Decidable (hosts →
      (existingOf s.dnsMuxMap).any (·.domain = root) = false →
        ∀ u ∈ s.latest, ¬ (u.domain = root ∧ u.priority = priorityDefault)))
  | .register .. => isTrue trivial
  | .deregister .. => isTrue trivial
  | .stop _ => isTrue trivial

section

variable (hwf : WellFormed lib s.chain)

include hwf

variable (hm : Matches lib s.latest s.chain)

include hm

/-- After an update the chain matches the latest configuration exactly if the update was allowed. -/
theorem matches_updateDNSServer (env : Surroundings) (serial : Nat) (config : Config)
    (grouped : List NsGroupsByDomain) :
    Matches lib (updateDNSServer lib runtimeIP hash env s serial config grouped).latest
        (updateDNSServer lib runtimeIP hash env s serial config grouped).chain ↔
      Suits lib hash s serial config (buildHandlers runtimeIP config grouped) := by
  have htr : s.closed ∨ serial < s.updateSerial →
      Suits lib hash s serial config (buildHandlers runtimeIP config grouped) := by
    intro h
    cases buildHandlers runtimeIP config grouped with
    | none => trivial
    | some us => exact or_assoc.mp (.inl h)
  rw [updateDNSServer]
  by_cases hc : s.closed
  · rw [if_pos hc]
    exact iff_of_true hm (htr (.inl hc))
  rw [if_neg hc]
  by_cases hs : serial < s.updateSerial
  · rw [if_pos hs]
    exact iff_of_true hm (htr (.inr hs))
  rw [if_neg hs]
  by_cases hh : s.previousConfigHash = hash config
  · rw [if_pos hh]
    cases buildHandlers runtimeIP config grouped with
    | none => exact iff_of_true hm trivial
    | some us =>
      dsimp only [getD_some, Suits]
      rw [if_pos hh, hm.iff_samePairs, or_iff_right hc, or_iff_right hs]
  · rw [if_neg hh]
    dsimp only
    generalize (!config.serviceEnable && env.disables) = b
    obtain ⟨hl, hma, hho⟩ : (disableDNS lib b s).latest = s.latest ∧
        (disableDNS lib b s).dnsMuxMap = s.dnsMuxMap ∧ (disableDNS lib b s).hosts = s.hosts := by
      cases b <;> exact ⟨rfl, rfl, rfl⟩
    have hw' : WellFormed lib (disableDNS lib b s).chain := by
      rw [disableDNS]
      split
      · exact wellFormed_deregisterHandler hwf _ _
      · exact hwf
    have hm' : Matches lib (disableDNS lib b s).latest (disableDNS lib b s).chain := by
      rw [hl]
      exact ((sameConfig_disableDNS hwf hm.tiered _).matches_iff s.latest).mpr hm
    cases hb : buildHandlers runtimeIP config grouped with
    | none =>
      rw [applyConfiguration, hb]
      exact iff_of_true hm' trivial
    | some us =>
      obtain ⟨m, ha⟩ : ∃ m, applyConfiguration lib runtimeIP env (disableDNS lib b s) config
          grouped = some m := by
        rw [applyConfiguration, hb]
        exact ⟨_, rfl⟩
      rw [ha]
      refine (matches_applyConfiguration hb ha hw' hm').trans ?_
      dsimp only [Suits]
      rw [if_neg hh, or_iff_right hc, or_iff_right hs, Cleared, Cleared, hl, hma, hho]

/-- The same for new servers of the host. -/
theorem matches_updatedHost (hosts : Bool) : Matches lib (onUpdatedHostDNSServer lib s hosts).latest
      (onUpdatedHostDNSServer lib s hosts).chain ↔
    Allowed lib runtimeIP hash s (.updatedHost hosts) := by
  rw [onUpdatedHostDNSServer]
  by_cases hr : (existingOf s.dnsMuxMap).any (·.domain = root) = true
  · rw [if_pos hr]
    exact iff_of_true hm fun _ h => absurd (hr.symm.trans h) Bool.false_ne_true.symm
  rw [if_neg hr]
  have hme {e} := @mem_addHostRootZone lib e s.chain hwf hosts
  constructor
  · rintro h rfl - u hu hd
    -- the handler for the root would have to be in the place of the host's
    have hn : u.domain ≠ [] := fun h => absurd (hd.1.symm.trans h) (cons_ne_nil _ _)
    obtain ⟨e, he, hcf, hc⟩ := h.all u hu hn
    refine ((hme hcf).mp he).2 ⟨rfl, ?_⟩
    exact (isEntry_congr hc.2 (carries_entryOf hn).2).mpr ((isEntry_root_entryOf hn).mpr hd)
  · intro h
    refine ⟨fun e he hcf => hm.only e ((hme hcf).mp he).1 hcf, fun u hu hn => ?_⟩
    obtain ⟨e, he, hcf, hc⟩ := hm.all u hu hn
    refine ⟨e, (hme hcf).mpr ⟨he, ?_⟩, hcf, hc⟩
    rintro ⟨hh, hen⟩
    refine h hh (Bool.eq_false_iff.mpr hr) u hu ?_
    exact (isEntry_root_entryOf hn).mp ((isEntry_congr hc.2 (carries_entryOf hn).2).mp hen)

/-- What one call leaves. -/
theorem matches_step (hs' : step lib runtimeIP hash s a = some s') :
    Matches lib s'.latest s'.chain ↔ Allowed lib runtimeIP hash s a := by
  have hf : ∀ c effect, WellFormed lib c → SameConfig s.chain c →
      Matches lib s.latest (registerFallback lib effect c) := by
    intro c effect hw hs
    have hm' := (hs.matches_iff s.latest).mpr hm
    exact ((sameConfig_registerFallback hw hm'.tiered effect).matches_iff s.latest).mpr hm'
  cases a with
  | update env serial config grouped =>
    rw [step, ite_none_right_eq_some] at hs'
    cases hs'.2
    exact matches_updateDNSServer hwf hm env serial config grouped
  | register domains name matchSubdomains priority effect =>
    rw [step, ite_none_right_eq_some] at hs'
    obtain ⟨hp, hs'⟩ := hs'
    cases hs'
    refine iff_of_true (hf _ _ (wellFormed_registerHandler hwf _ _ _) ?_) trivial
    exact sameConfig_registerHandler hwf rfl (hm.tiered.ne_of_lt hp)
  | deregister domains priority effect =>
    rw [step, ite_none_right_eq_some] at hs'
    obtain ⟨hp, hs'⟩ := hs'
    cases hs'
    refine iff_of_true (hf _ _ (wellFormed_deregisterHandler hwf _ _) ?_) trivial
    exact sameConfig_deregisterHandler hwf (hm.tiered.ne_of_lt hp)
  | updatedHost hosts =>
    cases hs'
    exact matches_updatedHost hwf hm hosts
  | stop deregisters =>
    cases hs'
    refine iff_of_true ?_ trivial
    have hl : (disableDNS lib deregisters s).latest = s.latest := by
      cases deregisters <;> rfl
    show Matches lib (disableDNS lib deregisters s).latest (disableDNS lib deregisters s).chain
    rw [hl]
    exact ((sameConfig_disableDNS hwf hm.tiered deregisters).matches_iff s.latest).mpr hm

end

/-- A server before its first configuration. -/
structure Fresh (lib : Library) (s : Server) : Prop where
  ready : Ready lib s
  free : ∀ e ∈ s.chain, e.handler.ofConfig = false
  map_eq : s.dnsMuxMap = ∅
  latest_eq : s.latest = []

/-- A server that has seen nothing matches. -/
theorem Fresh.matches (h : Fresh lib s) : Matches lib s.latest s.chain := by
  refine ⟨fun e he hc => ?_, fun u hu => ?_⟩
  · exact absurd ((h.free e he).symm.trans hc) Bool.false_ne_true
  · rw [h.latest_eq] at hu
    cases hu

/-- **The chain follows the configurations.**  After every history whose calls meet the condition,
    the domains and priorities that configurations have put into the chain are those of the latest
    one.  The next call keeps it so exactly if it meets the condition too. -/
theorem registered_exact (lib : Library) (runtimeIP : Netip.Addr) (hash : Config → Nat)
    (s₀ s : Server) (actions : List Action) (h₀ : Fresh lib s₀)
    (hok : AllowedRun (step lib runtimeIP hash) (Allowed lib runtimeIP hash) s₀ actions)
    (hr : run (step lib runtimeIP hash) s₀ actions = some s) :
    Matches lib s.latest s.chain ∧ ∀ a s', step lib runtimeIP hash s a = some s' →
      (Matches lib s'.latest s'.chain ↔ Allowed lib runtimeIP hash s a) := by
  have hs : ∀ s a s', Ready lib s ∧ Matches lib s.latest s.chain →
      Allowed lib runtimeIP hash s a → step lib runtimeIP hash s a = some s' →
        Ready lib s' ∧ Matches lib s'.latest s'.chain := by
    rintro s a s' ⟨hre, hm⟩ ha hs'
    exact ⟨ready_step hre hs', (matches_step hre.wellFormed hm hs').mpr ha⟩
  obtain ⟨hre, hm⟩ := run_invariant hs actions s₀ s ⟨h₀.ready, h₀.matches⟩ hok hr
  exact ⟨hm, fun a s' hs' => matches_step hre.wellFormed hm hs'⟩

/-! ## Examples -/

/-- A zone with one record, and a configuration of such zones. -/
def zoneOf (domain : Name) : CustomZone :=
  { domain, records := [LocalResolver.hostRecord], nonAuthoritative := false
    searchDomainDisabled := false }

/-- A configuration of zones alone. -/
def zonesConfig (domains : List Name) : Config :=
  { serviceEnable := true, nameServerGroups := [], customZones := domains.map zoneOf }

/-- Nothing around the server interferes. -/
def quiet : Surroundings := { disables := false, portUnsupported := false, fallback := .keep }

/-- A hash for the configurations above, which is enough to tell them apart. -/
def zonesHash (config : Config) : Nat :=
  1 + (config.customZones.map (·.domain.length)).sum

/-- One zone and then another: the first one goes. -/
theorem one_zone_exact :
    ∃ s, run (step ascii .zero zonesHash) { chain := [] }
        [.update quiet 1 (zonesConfig ["one.example".toList]) [],
          .update quiet 2 (zonesConfig ["second.example".toList]) []] = some s ∧
      Matches ascii s.latest s.chain := by
  refine exists_end rfl fun s hs =>
    (registered_exact ascii .zero zonesHash { chain := [] } s _ ?_ ?_ hs).1
  · exact ⟨⟨WellFormed.nil, fun i hi => absurd hi not_mem_nil⟩,
      fun e he => absurd he not_mem_nil, rfl, rfl⟩
  · decide

/-- Two zones and then none: only the last of them has been remembered, and the other one stays. -/
theorem first_zone_stays :
    ∃ s, run (step ascii .zero zonesHash) { chain := [] }
        [.update quiet 1 (zonesConfig ["one.example".toList, "two.example".toList]) [],
          .update quiet 2 (zonesConfig []) []] = some s ∧
      ¬ Matches ascii s.latest s.chain := by
  exact ⟨_, rfl, by decide⟩

end

end DnsServer

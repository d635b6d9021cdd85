import NetbirdHa.ProxyServerProofs

/-! # Publishing and withdrawing services

After any sequence of calls the tables of the proxy should hold what the mappings
that are still present publish, and nothing else.

Three things stand in the way.  Cleaning up a mapping takes the HTTP mapping and the
protected domain of its host, also where they are another service's.  It takes the
fallback of a TCP service only if the service has no host.  And it does not take what
an HTTP service without a host has published.  A call keeps the tables exact if and
only if it meets none of them (`exact_step_iff`). -/

namespace ProxyServer

open Middleware PortRouter Table Transition List Option AList Function

/-! ## Calls -/

/-- What management asks of the proxy. -/
inductive Call where
  | add (m : ProxyMapping) (env : Env)
  | modify (m : ProxyMapping) (env : Env)
  | remove (m : ProxyMapping)

/-- The mappings that are stored. -/
def Server.present (s : Server) : List ProxyMapping := s.lastMappings.entries.map Sigma.snd

/-- No other service listens on the port. -/
def PortFree (s : Server) (m : ProxyMapping) : Prop :=
  m.mode.isL4 = true → ∀ m' ∈ s.present, m'.id ≠ m.id → m'.mode.isL4 → m'.listenPort ≠ m.listenPort
deriving Decidable

/-- Services have IDs and ports of their own; a mapping may be added again as it is. -/
def WellFormed (s : Server) : Call → Prop
  | .add m _ => (∀ old ∈ s.lastMappings.lookup m.id, old = m) ∧ PortFree s m
  | .modify m _ => PortFree s m
  | .remove _ => True

instance (s : Server) : ∀ call, Decidable (WellFormed s call)
  | .add m _ => inferInstanceAs (Decidable ((∀ old ∈ s.lastMappings.lookup m.id, _) ∧ PortFree s m))
  | .modify m _ => inferInstanceAs (Decidable (PortFree s m))
  | .remove _ => isTrue trivial

/-- A call that succeeds. -/
def succeeded : Server × Option SetupError → Option Server
  | (s, none) => some s
  | (_, some _) => none

/-- A call that succeeds; no other step is taken. -/
def step (cfg : Config) (s : Server) (call : Call) : Option Server :=
  if WellFormed s call then
    match call with
    | .add m env => succeeded (addMapping cfg env s m)
    | .modify m env => succeeded (modifyMapping cfg env s m)
    | .remove m => some (removeMapping cfg s m)
  else none

/-- The mappings that are present, by the ID of their service. -/
abbrev Present := String → Option ProxyMapping

/-- The mappings that should be served after the call. -/
def Call.apply (present : Present) : Call → Present
  | .add m _ => update present m.id (some m)
  | .modify m _ => update present m.id (some m)
  | .remove m => update present m.id none

/-- **The mappings still present** after a sequence of calls. -/
def stillPresent (calls : List Call) : Present := calls.foldl Call.apply (fun _ => none)

/-- The tables are exactly those of the mappings. -/
def Exact (cfg : Config) (present : Present) (s : Server) : Prop :=
  ∀ e, s.Serves cfg e ↔ ∃ id m, present id = some m ∧ Publishes cfg m e

/-! ## What a call must not meet -/

/-- No other service has an HTTP mapping for the host. -/
def Unshared (s : Server) (id host : String) : Prop :=
  ∀ m ∈ s.present, m.id ≠ id → m.ServesHTTP → m.domain ≠ host
deriving Decidable

/-- The domain of what is cleaned up is no other HTTP service's. -/
def CleanupUnshared (s : Server) (m : ProxyMapping) : Prop :=
  ((s.lastMappings.lookup m.id).getD m).domain ≠ "" →
    Unshared s m.id ((s.lastMappings.lookup m.id).getD m).domain
deriving Decidable

/-- What is asked of a call: it shares no host with another service, and the cleanup finds all
    routes of the service's old mapping. -/
def StepAllowed (s : Server) : Call → Prop
  | .add m _ => m.ServesHTTP → Unshared s m.id m.domain
  | .modify m _ =>
    CleanupUnshared s m ∧ (m.ServesHTTP → Unshared s m.id m.domain) ∧
      ∀ old ∈ s.lastMappings.lookup m.id,
        (old.ServesHTTP → old.domain = "" → m.ServesHTTP ∧ m.domain = "") ∧
        (old.mode = .tcp → old.domain ≠ "" → m.mode = .tcp ∧ m.listenPort = old.listenPort)
  | .remove m =>
    CleanupUnshared s m ∧
      ∀ old ∈ s.lastMappings.lookup m.id,
        (old.ServesHTTP → old.domain ≠ "") ∧ (old.mode = .tcp → old.domain = "")

instance (s : Server) : ∀ call, Decidable (StepAllowed s call)
  | .add m _ => inferInstanceAs (Decidable (m.ServesHTTP → Unshared s m.id m.domain))
  | .modify m _ => inferInstanceAs (Decidable (CleanupUnshared s m ∧
      (m.ServesHTTP → Unshared s m.id m.domain) ∧ ∀ old ∈ s.lastMappings.lookup m.id, _))
  | .remove m => inferInstanceAs (Decidable (CleanupUnshared s m ∧
      ∀ old ∈ s.lastMappings.lookup m.id, _))

/-! ## Stored mappings and tracked ports -/

/-- The mappings as the server has stored them. -/
def Server.stored (s : Server) : Present := fun id => s.lastMappings.lookup id

/-- The ports that are tracked for a mapping. -/
def trackedPorts (cfg : Config) (m : ProxyMapping) : List Nat :=
  match m.mode with
  | .tcp => (validatePort m.listenPort).toList
  | .tls => (validatePort m.listenPort).toList.filter (· ≠ cfg.mainPort)
  | _ => []

variable {cfg : Config} {env : Env} {s s' : Server} {m : ProxyMapping} {e : Entry}

section

variable {id : String}

/-- The mappings that are present are the stored ones. -/
theorem mem_present : m ∈ s.present ↔ ∃ id, s.stored id = some m := by
  rw [Server.present, List.mem_map]
  constructor
  · rintro ⟨⟨id, m'⟩, hm, rfl⟩
    exact ⟨id, mem_lookup_iff.mpr hm⟩
  · rintro ⟨id, hl⟩
    exact ⟨⟨id, m⟩, mem_lookup_iff.mp hl, rfl⟩

theorem stored_congr (h : s.lastMappings = s'.lastMappings) : s.stored = s'.stored :=
  funext fun id => congrArg (AList.lookup id) h

/-- Storing a mapping. -/
theorem stored_insert (s : Server) :
    { s with lastMappings := s.lastMappings.insert m.id m }.stored =
      update s.stored m.id (some m) := by
  funext id
  rw [Server.stored]
  by_cases hi : id = m.id
  · rw [hi, update_self, lookup_insert]
  · rw [update_of_ne hi, lookup_insert_ne hi]
    rfl

/-- Forgetting a mapping. -/
theorem stored_erase (s : Server) :
    { s with lastMappings := s.lastMappings.erase m.id }.stored = update s.stored m.id none := by
  funext id
  rw [Server.stored]
  by_cases hi : id = m.id
  · rw [hi, update_self, lookup_erase]
  · rw [update_of_ne hi, lookup_erase_ne hi]
    rfl

theorem tables_setupUDP (h : setupUDPMapping cfg env s m = (s', none)) :
    s'.lastMappings = s.lastMappings ∧ s'.svcPorts = s.svcPorts := by
  rw [setupUDPMapping] at h
  split at h
  · cases h
  split at h
  · cases h
  split at h
  · cases h
  split at h
  · cases h
  split at h
  · cases h
  · cases h
    exact ⟨rfl, rfl⟩

/-- Setting up leaves the stored mappings alone and tracks the ports of the mapping. -/
theorem tables_setup (h : setupMappingRoutes cfg env s m = (s', none))
    (hpo : s.svcPorts m.id = [] ∨ s.svcPorts m.id = trackedPorts cfg m) :
    s'.lastMappings = s.lastMappings ∧ s'.svcPorts = update s.svcPorts m.id (trackedPorts cfg m) ∧
      (m.mode = .tcp → (validatePort m.listenPort).isSome) := by
  -- UDP and HTTP mappings, and TLS on the main port, track nothing
  rw [setupMappingRoutes] at h
  split at h
  · next hm =>
    rw [setupTCPMapping] at h
    split at h
    · cases h
    rename_i port hp
    cases h
    have hv := l4Port_eq_ok hp
    refine ⟨lastMappings_updateRouter _, ?_, fun _ => by rw [hv]; rfl⟩
    rw [trackedPorts, hm]
    rw [svcPorts_updateRouter, hv]
    rfl
  · grind [tables_setupUDP, trackedPorts]
  · next hm =>
    rw [setupTLSMapping] at h
    split at h
    · cases h
    rename_i port hp
    have hv := l4Port_eq_ok hp
    have htr : trackedPorts cfg m = [port].filter (· ≠ cfg.mainPort) := by
      rw [trackedPorts, hm]
      rw [hv]
      rfl
    grind [lastMappings_updateRouter, svcPorts_updateRouter]
  grind [setupHTTPMapping, trackedPorts]

end

/-! ## The invariant of the bookkeeping -/

/-- Mappings are stored under their IDs, their ports are tracked, and no two services
    listen on one port. -/
structure Inv (cfg : Config) (s : Server) : Prop where
  keys : ∀ id m, s.stored id = some m → m.id = id
  ports : ∀ id, s.svcPorts id = ((s.stored id).map (trackedPorts cfg)).getD []
  valid : ∀ id m, s.stored id = some m → m.mode = .tcp → (validatePort m.listenPort).isSome
  distinct : ∀ id id' m m', s.stored id = some m → s.stored id' = some m' → id ≠ id' →
    m.mode.isL4 → m'.mode.isL4 → m.listenPort ≠ m'.listenPort

section

variable {id : String}

theorem stored_init (id : String) : ({} : Server).stored id = none := lookup_empty id

theorem inv_init : Inv cfg {} := by
  refine ⟨?_, ?_, ?_, ?_⟩
  all_goals grind [stored_init]

/-- Storing a mapping with its ports, or forgetting one. -/
theorem Inv.update (hinv : Inv cfg s) (hs : s'.stored = update s.stored id o)
    (hp : s'.svcPorts = update s.svcPorts id ((o.map (trackedPorts cfg)).getD []))
    (ho : ∀ m, o = some m → m.id = id ∧
      (m.mode = .tcp → (validatePort m.listenPort).isSome) ∧ PortFree s m) : Inv cfg s' := by
  -- what is stored is the new mapping or was stored before
  have hk : ∀ i m, s'.stored i = some m → i = id ∧ o = some m ∨ i ≠ id ∧ s.stored i = some m := by
    intro i m hm
    rw [hs] at hm
    by_cases hi : i = id
    · rw [hi, update_self] at hm
      exact .inl ⟨hi, hm⟩
    · rw [update_of_ne hi] at hm
      exact .inr ⟨hi, hm⟩
  have hf : ∀ i m m', o = some m → i ≠ id → s.stored i = some m' → m.mode.isL4 →
      m'.mode.isL4 → m'.listenPort ≠ m.listenPort := by
    intro i m m' hm hi hm' hl hl'
    refine (ho m hm).2.2 hl m' (mem_present.mpr ⟨i, hm'⟩) ?_ hl'
    rw [hinv.keys i m' hm', (ho m hm).1]
    exact hi
  refine ⟨fun i m hm => ?_, fun i => ?_, fun i m hm => ?_, ?_⟩
  · rcases hk i m hm with ⟨rfl, hm⟩ | ⟨-, hm⟩
    · exact (ho m hm).1
    · exact hinv.keys i m hm
  · rw [hs, hp]
    by_cases hi : i = id
    · rw [hi, update_self, update_self]
    · rw [update_of_ne hi, update_of_ne hi]
      exact hinv.ports i
  · rcases hk i m hm with ⟨-, hm⟩ | ⟨-, hm⟩
    · exact (ho m hm).2.1
    · exact hinv.valid i m hm
  · -- two services on one port: one of them is the new one, and its port was free
    intro i i' m₁ m₂ hm₁ hm₂ hn hl₁ hl₂
    rcases hk i m₁ hm₁ with ⟨rfl, hm₁⟩ | ⟨hi, hm₁⟩
    · obtain ⟨hi', hm₂⟩ := (hk i' m₂ hm₂).resolve_left fun h => hn h.1.symm
      exact (hf i' m₁ m₂ hm₁ hi' hm₂ hl₁ hl₂).symm
    · rcases hk i' m₂ hm₂ with ⟨-, hm₂⟩ | ⟨-, hm₂⟩
      · exact hf i m₂ m₁ hm₂ hi hm₁ hl₂ hl₁
      · exact hinv.distinct i i' m₁ m₂ hm₁ hm₂ hn hl₁ hl₂

end

/-! ## Whose entries are touched -/

/-- Another service than `id` publishes the entry. -/
def Others (cfg : Config) (s : Server) (id : String) (e : Entry) : Prop :=
  ∃ id' m', id' ≠ id ∧ s.stored id' = some m' ∧ Publishes cfg m' e

/-- The mapping that is stored under `id` publishes the entry. -/
def Own (cfg : Config) (s : Server) (id : String) (e : Entry) : Prop :=
  ∃ m, s.stored id = some m ∧ Publishes cfg m e

/-- What cleaning up leaves of the entries of a mapping. -/
def Leaks (m : ProxyMapping) : Entry → Prop
  | .fallback _ _ => m.domain ≠ ""
  | .http _ _ => m.domain = ""
  | .auth _ _ => m.domain = ""
  | _ => False

section

variable {c : ProxyMapping} {id : String}

section

/-- The entries of a server that is exact are the service's own and those of others. -/
theorem serves_iff (hexact : Exact cfg s.stored s) (id : String) :
    s.Serves cfg e ↔ Others cfg s id e ∨ Own cfg s id e := by
  rw [hexact e]
  constructor
  · rintro ⟨id', m', hm', hp⟩
    by_cases hi : id' = id
    · exact .inr ⟨m', hi ▸ hm', hp⟩
    · exact .inl ⟨id', m', hi, hm', hp⟩
  · rintro (⟨id', m', -, hm', hp⟩ | ⟨m', hm', hp⟩)
    · exact ⟨id', m', hm', hp⟩
    · exact ⟨id, m', hm', hp⟩

/-- The entries after one mapping is put in the place of another. -/
theorem exists_update (o : Option ProxyMapping) :
    (∃ id' m', update s.stored id o id' = some m' ∧ Publishes cfg m' e) ↔
      Others cfg s id e ∨ ∃ m', o = some m' ∧ Publishes cfg m' e := by
  constructor
  · grind [Others]
  · rintro (⟨id', m', hi, hm', hp⟩ | ⟨m', hm', hp⟩)
    · exact ⟨id', m', by rw [update_of_ne hi, hm'], hp⟩
    · exact ⟨id, m', by rw [update_self, hm'], hp⟩

variable (hinv : Inv cfg s)

include hinv

/-- An entry of the others is not the service's. -/
theorem service_of_others (h : Others cfg s id e) : e.service ≠ id := by
  obtain ⟨id', m', hn, hm', hp⟩ := h
  rw [service_of_publishes hp, hinv.keys id' m' hm']
  exact hn

/-- An entry of its own is the service's. -/
theorem service_of_own (h : Own cfg s id e) : e.service = id := by
  obtain ⟨m, hm, hp⟩ := h
  rw [service_of_publishes hp, hinv.keys id m hm]

/-- The ports that are tracked for a service are those of what is stored. -/
theorem mem_svcPorts (h : port ∈ s.svcPorts id) :
    ∃ m, s.stored id = some m ∧ m.mode.isL4 ∧ validatePort m.listenPort = some port := by
  rw [hinv.ports id] at h
  cases hm : s.stored id with
  | none =>
    rw [hm] at h
    cases h
  | some m => grind [ServiceMode.isL4, trackedPorts]

theorem svcID_of_others (h : Others cfg s id (.udp svcID relay)) : svcID ≠ id := by
  obtain ⟨id', m', hn, hm', -, hs, -⟩ := h
  rw [hs, hinv.keys id' m' hm']
  exact hn

/-- What is present is stored under its own ID. -/
theorem Inv.mem_present_iff : m ∈ s.present ↔ s.stored m.id = some m := by
  rw [mem_present]
  constructor
  · rintro ⟨id, hm⟩
    rw [hinv.keys id m hm]
    exact hm
  · exact fun hm => ⟨m.id, hm⟩

/-- The host is shared exactly if another service publishes an HTTP mapping for it. -/
theorem unshared_iff : Unshared s id host ↔ ∀ mapping, ¬ Others cfg s id (.http host mapping) := by
  constructor
  · rintro hu mapping ⟨id', m', hne, hm', hs, hh, -⟩
    have hi' : m'.id = id' := hinv.keys id' m' hm'
    exact hu m' (mem_present.mpr ⟨id', hm'⟩) (hi' ▸ hne) hs hh.symm
  · rintro hn m' hm' hne hs rfl
    exact hn (protoToMapping cfg m') ⟨m'.id, m', hne, hinv.mem_present_iff.mp hm', hs, rfl, rfl⟩

/-- A domain is protected for a service that has an HTTP mapping for it. -/
theorem not_others_auth (hu : Unshared s id host) : ¬ Others cfg s id (.auth host config) := by
  rintro ⟨id', m', hn, hm', hs, hh, -⟩
  exact (unshared_iff hinv).mp hu (protoToMapping cfg m') ⟨id', m', hn, hm', hs, hh, rfl⟩

/-- **Cleaning up touches others** exactly where they have an HTTP mapping for the host. -/
theorem others_kept_iff (hi : c.id = id) :
    (∀ e, Others cfg s id e → ¬ Removed cfg s c e) ↔ (c.domain ≠ "" → Unshared s id c.domain) := by
  constructor
  · intro hk hh
    rw [unshared_iff hinv]
    intro mapping ho
    exact hk (.http c.domain mapping) ho ⟨hh, rfl⟩
  · intro hu e ho hr
    have hs := service_of_others hinv ho
    cases e with
    | sni port host route => exact hs (hr.2.2.2.trans hi)
    | udp svcID relay => exact svcID_of_others hinv ho (Eq.trans hr hi)
    | http host mapping =>
      obtain ⟨hh, rfl⟩ := hr
      exact (unshared_iff hinv).mp (hu hh) mapping ho
    | auth host config =>
      obtain ⟨hh, rfl⟩ := hr
      exact not_others_auth hinv (hu hh) ho
    | fallback port route =>
      -- the port is tracked for both services
      obtain ⟨id', m', hn, hst, htc, hpo, -⟩ := ho
      obtain ⟨-, p, hp, hsl⟩ := hr
      rw [hi] at hp
      obtain ⟨m, hm, hl, hv⟩ := mem_svcPorts hinv hp
      rw [slot_eq_self hv] at hsl
      subst hsl
      refine hinv.distinct id' id m' m hst hm hn (by rw [htc]; rfl) hl ?_
      rw [(validatePort_eq_some hpo).1, (validatePort_eq_some hv).1]

/-- **Cleaning up leaves** of its own entries what `Leaks` says. -/
theorem removed_iff_not_leaks (hs : s.stored id = some m)
    (hpu : Publishes cfg m e) : Removed cfg s m e ↔ ¬ Leaks m e := by
  have hke : m.id = id := hinv.keys id m hs
  have hp : s.svcPorts m.id = trackedPorts cfg m := by
    rw [hke, hinv.ports id, hs]
    rfl
  cases e with
  | sni port host route =>
    refine ⟨fun _ => not_false, fun _ => ?_⟩
    have hse := service_of_publishes hpu
    obtain ⟨hk, rfl, he⟩ := hpu
    have hd : m.domain ≠ "" := by
      intro hd
      rw [hd, cfg.toLower_empty] at he
      exact he rfl
    refine ⟨hd, ?_, rfl, hse⟩
    rcases hk with ⟨-, hm, -⟩ | ⟨htl, hv, -⟩
    · exact .inl hm
    by_cases hm : port = cfg.mainPort
    · exact .inl hm
    refine .inr ⟨port, ?_, (slot_eq_self hv).symm⟩
    rw [hp, trackedPorts, htl]
    rw [hv]
    simp [hm]
  | fallback port route =>
    obtain ⟨htc, hv, -⟩ := hpu
    rw [Leaks, not_not]
    refine ⟨fun h => h.1, fun h => ⟨h, port, ?_, (slot_eq_self hv).symm⟩⟩
    rw [hp, trackedPorts, htc]
    rw [hv]
    simp
  | udp svcID relay => exact ⟨fun _ => not_false, fun _ => hpu.2.1⟩
  | http host mapping | auth host config => exact ⟨fun h => h.1, fun h => ⟨h, hpu.2.1⟩⟩

/-- **Setting up touches others** exactly where they have an HTTP mapping for the host. -/
theorem others_not_replaced_iff (hf : PortFree s m) :
    (∀ e, Others cfg s m.id e → ¬ Replaced m e) ↔ (m.ServesHTTP → Unshared s m.id m.domain) := by
  constructor
  · intro hk hs
    rw [unshared_iff hinv]
    intro mapping ho
    exact hk (.http m.domain mapping) ho ⟨hs, rfl⟩
  · intro hu e ho hr
    cases e with
    | sni port host route => exact hr
    | udp svcID relay => exact svcID_of_others hinv ho hr.2
    | http host mapping =>
      obtain ⟨hs, rfl⟩ := hr
      exact (unshared_iff hinv).mp (hu hs) mapping ho
    | auth host config =>
      obtain ⟨hs, rfl⟩ := hr
      exact not_others_auth hinv (hu hs) ho
    | fallback port route =>
      obtain ⟨id', m', hn, hst, htc, hp, -⟩ := ho
      have hi' : m'.id = id' := hinv.keys id' m' hst
      refine hf (by rw [hr.1]; rfl) m' (mem_present.mpr ⟨id', hst⟩) (hi' ▸ hn) (by rw [htc]; rfl) ?_
      rw [(validatePort_eq_some hp).1, (validatePort_eq_some hr.2).1]

end

/-- Nothing leaks from a mapping that has a host exactly if it is not TCP. -/
theorem no_leak_iff (hv : m.mode = .tcp → (validatePort m.listenPort).isSome) :
    (∀ e, Publishes cfg m e → ¬ Leaks m e) ↔
      (m.ServesHTTP → m.domain ≠ "") ∧ (m.mode = .tcp → m.domain = "") := by
  constructor
  · intro hn
    refine ⟨fun hs => ?_, fun htc => ?_⟩
    · exact hn (.http m.domain (protoToMapping cfg m)) ⟨hs, rfl, rfl⟩
    · obtain ⟨port, hp⟩ := isSome_iff_exists.mp (hv htc)
      exact not_not.mp (hn (.fallback port (l4Route cfg .tcp m)) ⟨htc, hp, rfl⟩)
  · rintro ⟨hh, htc⟩ e hpu hl
    cases e with
    | sni port host route | udp svcID relay => exact hl
    | fallback port route => exact hl (htc hpu.1)
    | http host mapping | auth host config => exact hh hpu.1 hl

/-- What leaks from a mapping is overwritten by one of the same kind. -/
theorem leak_overwritten_iff (hv : m.mode = .tcp → (validatePort m.listenPort).isSome) :
    (∀ e, Publishes cfg m e → Leaks m e → Replaced c e ∨ Publishes cfg c e) ↔
      (m.ServesHTTP → m.domain = "" → c.ServesHTTP ∧ c.domain = "") ∧
        (m.mode = .tcp → m.domain ≠ "" → c.mode = .tcp ∧ c.listenPort = m.listenPort) := by
  constructor
  · intro ha
    refine ⟨fun hs hd => ?_, fun htc hd => ?_⟩
    · have ho := ha (.http m.domain (protoToMapping cfg m)) ⟨hs, rfl, rfl⟩ hd
      rcases ho with ⟨hs', hh⟩ | ⟨hs', hh, -⟩
      all_goals exact ⟨hs', hh.symm.trans hd⟩
    · obtain ⟨port, hp⟩ := isSome_iff_exists.mp (hv htc)
      have ho := ha (.fallback port (l4Route cfg .tcp m)) ⟨htc, hp, rfl⟩ hd
      have hsa : c.mode = .tcp ∧ validatePort c.listenPort = some port := by
        rcases ho with h | ⟨ht', hp', -⟩
        · exact h
        · exact ⟨ht', hp'⟩
      refine ⟨hsa.1, ?_⟩
      rw [(validatePort_eq_some hsa.2).1, (validatePort_eq_some hp).1]
  · rintro ⟨hht, htc⟩ e hpu hl
    cases e with
    | sni port host route | udp svcID relay => exact hl.elim
    | fallback port route =>
      obtain ⟨ht', hp⟩ := htc hpu.1 hl
      exact .inl ⟨ht', by rw [hp]; exact hpu.2.1⟩
    | http host mapping | auth host config =>
      obtain ⟨hs, hd⟩ := hht hpu.1 hl
      exact .inl ⟨hs, by rw [hpu.2.1, hd]; exact hl⟩

end

/-! ## One call -/

section

variable {id : String}

/-- The stored mappings are not served. -/
theorem serves_withMappings (l : GoMap ProxyMapping) :
    { s with lastMappings := l }.Serves cfg e ↔ s.Serves cfg e := by
  cases e <;> exact Iff.rfl

variable (hinv : Inv cfg s)

include hinv

/-- **When tables are exact** after entries were lost, put in the place of others, and
    added: nothing of the others was touched, and nothing of the service's own is left
    that is not published. -/
theorem exact_iff (ho : ∀ m' ∈ o, m'.id = id) {Lost Over : Entry → Prop}
    (hse : ∀ e, s'.Serves cfg e ↔ (∃ m', o = some m' ∧ Publishes cfg m' e) ∨
      ((Others cfg s id e ∨ Own cfg s id e) ∧ ¬ Lost e) ∧ ¬ Over e) :
    Exact cfg (update s.stored id o) s' ↔
      (∀ e, Others cfg s id e → ¬ Lost e) ∧ (∀ e, Others cfg s id e → ¬ Over e) ∧
        ∀ e, Own cfg s id e → ¬ Lost e → Over e ∨ ∃ m', o = some m' ∧ Publishes cfg m' e := by
  have hne : ∀ e, Others cfg s id e → ¬ ∃ m', o = some m' ∧ Publishes cfg m' e := by
    rintro e hot ⟨m', hm', hp⟩
    exact service_of_others hinv hot ((service_of_publishes hp).trans (ho m' hm'))
  constructor
  · intro hexact
    have hk : ∀ e, Others cfg s id e → ¬ Lost e ∧ ¬ Over e := by
      intro e hot
      have hs := (hexact e).mpr ((exists_update o).mpr (.inl hot))
      rcases (hse e).mp hs with h | h
      · exact absurd h (hne e hot)
      · exact ⟨h.1.2, h.2⟩
    refine ⟨fun e h => (hk e h).1, fun e h => (hk e h).2, fun e how hl => ?_⟩
    by_contra hnot
    obtain ⟨hov, hp⟩ := not_or.mp hnot
    have hs := (hse e).mpr (.inr ⟨⟨.inr how, hl⟩, hov⟩)
    rcases (exists_update o).mp ((hexact e).mp hs) with h | h
    · exact service_of_others hinv h (service_of_own hinv how)
    · exact hp h
  · rintro ⟨hl, hov, how⟩ e
    rw [exists_update]
    grind

/-- What is cleaned up has the ID of the call. -/
theorem id_stored_getD : ((s.lastMappings.lookup m.id).getD m).id = m.id := by
  cases hold : s.lastMappings.lookup m.id with
  | none => rfl
  | some old => exact hinv.keys m.id old hold

/-- Cleaning up for a call leaves of what was stored what `Leaks` says. -/
theorem removed_stored_iff (hold : s.stored m.id = some old) (hp : Publishes cfg old e) :
    Removed cfg s ((s.lastMappings.lookup m.id).getD m) e ↔ ¬ Leaks old e := by
  have hl : s.lastMappings.lookup m.id = some old := hold
  rw [hl]
  exact removed_iff_not_leaks hinv hold hp

/-- So what holds of all that is left of the service holds of what leaks. -/
theorem forall_left_iff {P : Entry → Prop} :
    (∀ e, Own cfg s m.id e → ¬ Removed cfg s ((s.lastMappings.lookup m.id).getD m) e → P e) ↔
      ∀ old ∈ s.lastMappings.lookup m.id, ∀ e, Publishes cfg old e → Leaks old e → P e := by
  constructor
  · intro h old hold e hp hl
    exact h e ⟨old, hold, hp⟩ fun hr => (removed_stored_iff hinv hold hp).mp hr hl
  · rintro h e ⟨old, hold, hp⟩ hr
    rw [removed_stored_iff hinv hold hp, not_not] at hr
    exact h old hold e hp hr

omit hinv in
theorem succeeded_eq_some (h : succeeded x = some s') : x = (s', none) := by
  obtain ⟨s, err⟩ := x
  cases err with
  | none =>
    cases h
    rfl
  | some err => cases h

variable (hexact : Exact cfg s.stored s)

include hexact

/-- **Removing a mapping.** -/
theorem remove_spec : (removeMapping cfg s m).stored = update s.stored m.id none ∧
    Inv cfg (removeMapping cfg s m) ∧
    (Exact cfg (update s.stored m.id none) (removeMapping cfg s m) ↔
      StepAllowed s (.remove m)) := by
  have hi : ((s.lastMappings.lookup m.id).getD m).id = m.id := id_stored_getD hinv
  obtain ⟨hp, hla⟩ := tables_cleanup cfg
    { s with lastMappings := s.lastMappings.erase m.id } ((s.lastMappings.lookup m.id).getD m)
  rw [hi, ← removeMapping] at hp
  have hs : (removeMapping cfg s m).stored = update s.stored m.id none := by
    rw [← stored_erase]
    exact stored_congr hla
  refine ⟨hs, hinv.update hs hp (by rintro _ ⟨⟩), ?_⟩
  have hse : ∀ e, (removeMapping cfg s m).Serves cfg e ↔
      (∃ m', none = some m' ∧ Publishes cfg m' e) ∨ ((Others cfg s m.id e ∨ Own cfg s m.id e) ∧
          ¬ Removed cfg s ((s.lastMappings.lookup m.id).getD m) e) ∧ ¬ False := by
    intro e
    rw [removeMapping, serves_cleanup, serves_withMappings, serves_iff hexact m.id]
    cases e <;> simp [Removed]
  rw [exact_iff hinv (by rintro m' h; cases h) hse, others_kept_iff hinv hi]
  refine and_congr Iff.rfl (Iff.trans (and_iff_right fun _ _ => not_false) ?_)
  rw [forall_left_iff hinv]
  refine forall₂_congr fun old hold => ?_
  rw [← @no_leak_iff cfg old (hinv.valid m.id old hold)]
  simp only [reduceCtorEq, false_and, exists_false, or_false]

/-- The service's own routes are gone after cleaning up. -/
theorem ownRoutes_cleanup :
    OwnRoutes cfg (cleanupMappingRoutes cfg s ((s.lastMappings.lookup m.id).getD m)) m := by
  intro port host route hs hse
  exfalso
  rw [serves_cleanup, serves_iff hexact m.id] at hs
  obtain ⟨ho | ⟨old, hold, hp⟩, hk⟩ := hs
  · exact service_of_others hinv ho hse
  · rw [removed_stored_iff hinv hold hp] at hk
    exact hk not_false

/-- **Modifying a mapping.** -/
theorem modify_spec (hf : PortFree s m) (h : modifyMapping cfg env s m = (s', none)) :
    s'.stored = update s.stored m.id (some m) ∧ Inv cfg s' ∧
      (Exact cfg (update s.stored m.id (some m)) s' ↔ StepAllowed s (.modify m env)) := by
  have hi : ((s.lastMappings.lookup m.id).getD m).id = m.id := id_stored_getD hinv
  obtain ⟨hp, hla⟩ := tables_cleanup cfg s ((s.lastMappings.lookup m.id).getD m)
  rw [hi] at hp
  rw [modifyMapping] at h
  split at h
  · cases h
  rename_i s₁ hse
  cases h
  obtain ⟨hl', hp', hv⟩ := tables_setup hse (.inl (by rw [hp, update_self]))
  have hs : { s₁ with lastMappings := s₁.lastMappings.insert m.id m }.stored =
      update s.stored m.id (some m) := by
    rw [stored_insert, stored_congr (hl'.trans hla)]
  refine ⟨hs, hinv.update hs ?_ (by rintro _ ⟨⟩; exact ⟨rfl, hv, hf⟩), ?_⟩
  · show s₁.svcPorts = _
    rw [hp', hp, update_idem]
    rfl
  · have hsr : ∀ e, { s₁ with lastMappings := s₁.lastMappings.insert m.id m }.Serves cfg e ↔
        (∃ m', some m = some m' ∧ Publishes cfg m' e) ∨ ((Others cfg s m.id e ∨ Own cfg s m.id e) ∧
            ¬ Removed cfg s ((s.lastMappings.lookup m.id).getD m) e) ∧ ¬ Replaced m e := by
      intro e
      rw [serves_withMappings, serves_setup hse (ownRoutes_cleanup hinv hexact),
        serves_cleanup, serves_iff hexact m.id]
      simp
    rw [exact_iff hinv (by rintro m' h; cases h; rfl) hsr, others_kept_iff hinv hi,
      others_not_replaced_iff hinv hf]
    refine and_congr Iff.rfl (and_congr Iff.rfl ?_)
    rw [forall_left_iff hinv]
    refine forall₂_congr fun old hold => ?_
    rw [← @leak_overwritten_iff cfg old m (hinv.valid m.id old hold)]
    simp

/-- **Adding a mapping.** -/
theorem add_spec (hf : ∀ old ∈ s.lastMappings.lookup m.id, old = m) (hfr : PortFree s m)
    (h : addMapping cfg env s m = (s', none)) :
    s'.stored = update s.stored m.id (some m) ∧ Inv cfg s' ∧
      (Exact cfg (update s.stored m.id (some m)) s' ↔ StepAllowed s (.add m env)) := by
  rw [addMapping] at h
  split at h
  · cases h
  split at h
  · cases h
  rename_i s₁ hse
  cases h
  have how : ∀ e, Own cfg s m.id e → Publishes cfg m e := by
    rintro e ⟨old, hold, hpu⟩
    rw [← hf old hold]
    exact hpu
  have hp : s.svcPorts m.id = [] ∨ s.svcPorts m.id = trackedPorts cfg m := by
    rw [hinv.ports m.id]
    cases hold : s.stored m.id with
    | none => exact .inl rfl
    | some old =>
      rw [hf old hold]
      exact .inr rfl
  obtain ⟨hl', hp', hv⟩ := tables_setup hse hp
  have hst : { s₁ with lastMappings := s₁.lastMappings.insert m.id m }.stored =
      update s.stored m.id (some m) := by
    rw [stored_insert, stored_congr hl']
  refine ⟨hst, hinv.update hst hp' (by rintro _ ⟨⟩; exact ⟨rfl, hv, hfr⟩), ?_⟩
  have hr : OwnRoutes cfg s m := by
    intro port host route hs hsr
    rcases (serves_iff hexact m.id).mp hs with ho | ho'
    · exact absurd hsr (service_of_others hinv ho)
    · exact how _ ho'
  have hs : ∀ e, { s₁ with lastMappings := s₁.lastMappings.insert m.id m }.Serves cfg e ↔
      (∃ m', some m = some m' ∧ Publishes cfg m' e) ∨
        ((Others cfg s m.id e ∨ Own cfg s m.id e) ∧ ¬ False) ∧ ¬ Replaced m e := by
    intro e
    rw [serves_withMappings, serves_setup hse hr, serves_iff hexact m.id]
    simp
  rw [exact_iff hinv (by rintro m' h; cases h; rfl) hs, others_not_replaced_iff hinv hfr]
  refine (and_iff_right fun _ _ => not_false).trans (and_iff_left fun e ho' _ => ?_)
  exact .inr ⟨m, rfl, how e ho'⟩

/-- **One call.** -/
theorem exact_step_iff (h : step cfg s call = some s') :
    s'.stored = call.apply s.stored ∧ Inv cfg s' ∧
      (Exact cfg (call.apply s.stored) s' ↔ StepAllowed s call) := by
  unfold step at h
  split at h
  · next hw =>
    cases call with
    | add m env => exact add_spec hinv hexact hw.1 hw.2 (succeeded_eq_some h)
    | modify m env => exact modify_spec hinv hexact hw (succeeded_eq_some h)
    | remove m =>
      cases h
      exact remove_spec hinv hexact
  · cases h

end

/-! ## Sequences of calls -/

theorem exact_init : Exact cfg ({} : Server).stored {} := by
  intro e
  constructor
  · intro hs
    exfalso
    have hr : ∀ port, ({} : Server).routerAt cfg port = {} := by
      intro port
      exact ite_self _
    cases e with
    | sni port host route =>
      rw [Server.Serves, hr] at hs
      exact not_mem_nil hs
    | fallback port route =>
      rw [Server.Serves, hr] at hs
      cases hs
    | udp svcID relay | http host mapping | auth host config => cases hs
  · rintro ⟨id, m, hm, -⟩
    cases hm

/-- What a sequence of allowed calls keeps. -/
theorem run_exact : ∀ (calls : List Call) (s s' : Server), Inv cfg s → Exact cfg s.stored s →
    AllowedRun (step cfg) StepAllowed s calls → run (step cfg) s calls = some s' →
      Inv cfg s' ∧ Exact cfg s'.stored s' ∧ s'.stored = calls.foldl Call.apply s.stored := by
  intro calls
  induction calls with
  | nil =>
    intro s s' hinv hexact _ hr
    cases hr
    exact ⟨hinv, hexact, rfl⟩
  | cons call calls ih => grind [run_cons_eq_some, allowedRun_cons, exact_step_iff]

/-- Where the tables are exact, connections are sent to mappings that are present. -/
theorem serves_of_dispatch (h : (s.routerAt cfg port).dispatch cfg.toLower sni = some route) :
    ∃ e, s.Serves cfg e ∧ e.service = route.serviceID := by
  rw [Router.dispatch, or_eq_some_iff] at h
  rcases h with h | ⟨-, h⟩
  · exact ⟨.sni port (cfg.toLower sni) route, mem_of_lookupRoute h, rfl⟩
  · exact ⟨.fallback port route, h, rfl⟩

/-- **What is removed is gone, and nothing else is.** -/
theorem removed_gone (hinv : Inv cfg s) (hexact : Exact cfg s.stored s)
    (he' : Exact cfg (update s.stored m.id none) s') : (∀ e, s'.Serves cfg e → e.service ≠ m.id) ∧
      ∀ e, e.service ≠ m.id → (s'.Serves cfg e ↔ s.Serves cfg e) := by
  have ho : ∀ e, s'.Serves cfg e ↔ Others cfg s m.id e := by
    intro e
    rw [he' e, exists_update]
    simp
  grind [service_of_others, serves_iff, service_of_own]

/-- **The tables are those of the mappings still present**, after every sequence of calls
    that are allowed; the next call keeps them so exactly if it is allowed; and a removal
    that is takes all that the service publishes and nothing of the others. -/
theorem tables_exact_iff (cfg : Config) (calls : List Call) (s : Server)
    (hok : AllowedRun (step cfg) StepAllowed {} calls) (h : run (step cfg) {} calls = some s) :
    Exact cfg (stillPresent calls) s ∧
      (∀ call s', step cfg s call = some s' →
        (Exact cfg (stillPresent (calls ++ [call])) s' ↔ StepAllowed s call)) ∧
      ∀ m s', step cfg s (.remove m) = some s' → StepAllowed s (.remove m) →
        (∀ e, s'.Serves cfg e → e.service ≠ m.id) ∧
        (∀ e, e.service ≠ m.id → (s'.Serves cfg e ↔ s.Serves cfg e)) ∧
        ∀ port sni route, (s'.routerAt cfg port).dispatch cfg.toLower sni = some route →
          route.serviceID ≠ m.id := by
  obtain ⟨hinv, hexact, hst⟩ := run_exact calls {} s inv_init exact_init hok h
  have hp : s.stored = stillPresent calls := by
    rw [hst, stillPresent]
    exact congrArg (calls.foldl Call.apply) (funext stored_init)
  refine ⟨hp ▸ hexact, fun call s' hs => ?_, fun m s' hs ha => ?_⟩
  · rw [stillPresent, List.foldl_append, List.foldl_cons, ← stillPresent, ← hp]
    exact (exact_step_iff hinv hexact hs).2.2
  · have he' := (exact_step_iff hinv hexact hs).2.2.mpr ha
    obtain ⟨hg, hr⟩ := removed_gone hinv hexact he'
    refine ⟨hg, hr, fun port sni route hd => ?_⟩
    obtain ⟨e, hsr, hse⟩ := serves_of_dispatch hd
    rw [← hse]
    exact hg e hsr

/-- A proxy that listens on 443. -/
def edge : Config where
  mainPort := 443
  decodeBase64 := fun _ => none
  parseURL := some
  toLower := id
  toLower_empty := rfl
  toUpper := id

/-- A web site. -/
def web : ProxyMapping where
  id := "web"
  domain := "app.example"
  mode := .http
  path := [{ path := "/", target := "http://10.0.0.1:8080" }]

/-- A TLS service on a port of its own, for the same domain. -/
def vault : ProxyMapping where
  id := "vault"
  domain := "app.example"
  mode := .tls
  listenPort := 8443
  path := [{ path := "", target := "10.0.0.2:8443" }]

/-- A TCP service; the domain is its cluster's. -/
def db : ProxyMapping where
  id := "db"
  domain := "db.example"
  mode := .tcp
  listenPort := 5432
  path := [{ path := "", target := "10.0.0.3:5432" }]

/-- The web site is added, taken down and removed beside a TCP service. -/
theorem web_removed_beside_db :
    AllowedRun (step edge) StepAllowed {}
        [.add web {}, .add db {}, .modify { web with path := [] } {}, .remove web] ∧
      (run (step edge) {}
        [.add web {}, .add db {}, .modify { web with path := [] } {}, .remove web]).isSome = true ∧
      ∀ s, run (step edge) {}
          [.add web {}, .add db {}, .modify { web with path := [] } {}, .remove web] = some s →
        Exact edge (stillPresent
          [.add web {}, .add db {}, .modify { web with path := [] } {}, .remove web]) s :=
  ⟨by decide, by decide, fun s h => (tables_exact_iff edge _ s (by decide) h).1⟩

/-- **A removed service is still routed to**: the fallback of the TCP service stays.  **And
    a service that was not removed is gone**: with the TLS service of the domain go the
    HTTP mapping and the protected domain of the web site. -/
theorem db_still_routed :
    (∃ s, run (step edge) {} [.add db {}, .remove db] = some s ∧
      ((s.routerAt edge 5432).dispatch edge.toLower "").map Route.serviceID = some "db" ∧
      ¬ Exact edge (stillPresent [.add db {}, .remove db]) s) ∧
      ∃ s, run (step edge) {} [.add web {}, .add vault {}, .remove vault] = some s ∧
        s.mappings "app.example" = none ∧ (s.domains "app.example").isNone ∧
        ¬ Exact edge (stillPresent [.add web {}, .add vault {}, .remove vault]) s := by
  refine ⟨⟨_, rfl, rfl, fun hexact => ?_⟩, ⟨_, rfl, rfl, rfl, fun hexact => ?_⟩⟩
  · obtain ⟨id, m, hm, -⟩ := (hexact (.fallback 5432 (l4Route edge .tcp db))).mp rfl
    simp only [stillPresent, List.foldl, Call.apply, update_none_eq_some, update_some_eq_some,
      reduceCtorEq, false_and, or_false] at hm
    exact hm.2 hm.1.1
  · have hs := (hexact (.http "app.example" (protoToMapping edge web))).mpr
      ⟨"web", web, rfl, ⟨rfl, nofun⟩, rfl, rfl⟩
    cases hs

end ProxyServer

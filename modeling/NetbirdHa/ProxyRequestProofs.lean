import Mathlib.Data.List.Sort
import NetbirdHa.ProxyMappingProofs

/-! # Requests while services change

A request reads two tables of the proxy, one after the other: the middleware looks
its host up among the protected domains and, when it has let the request pass, the
reverse proxy looks the host up among the HTTP mappings.  The worker that handles
calls writes the same tables, one entry at a time and in the same order: cleaning
up removes the domain before the mapping, setting up adds the domain before the
mapping.

A host that is not among the domains passes unchecked.  So a request that comes
between the two removals is forwarded without a check, and so is one that passed
before a mapping was added and looks the host up afterwards.  One that passed under
the entry of an older mapping is forwarded by a newer one that may be stricter.  A
mapping is therefore kept with the entry that it came with (`StepAllowed`). -/

namespace ProxyRequest

open Middleware ProxyServer Table Transition List Option Function

/-! ## What the worker writes -/

/-- One write to the tables that requests read; a mapping comes with the entry of its domain. -/
inductive TableOp where
  | removeDomain (host : String)
  | removeMapping (host : String)
  | addDomain (host : String) (config : DomainConfig)
  | addMapping (host : String) (mapping : Mapping) (config : DomainConfig)

/-- The protected domains and the HTTP mappings. -/
structure Tables where
  domains : String → Option DomainConfig := fun _ => none
  mappings : String → Option Mapping := fun _ => none

/-- The tables after a write. -/
def TableOp.apply (t : Tables) : TableOp → Tables
  | .removeDomain host => { t with domains := update t.domains host none }
  | .removeMapping host => { t with mappings := update t.mappings host none }
  | .addDomain host config => { t with domains := update t.domains host (some config) }
  | .addMapping host mapping _ => { t with mappings := update t.mappings host (some mapping) }

/-- The entries that the mappings came with, after a write. -/
def TableOp.note (entries : String → Option DomainConfig) : TableOp → String → Option DomainConfig
  | .addMapping host _ config => update entries host (some config)
  | _ => entries

section

variable (cfg : Config) (m : ProxyMapping) (s : Server)

/-- The writes of `cleanupMappingRoutes`. -/
def cleanupOps : List TableOp :=
  if m.domain = "" then [] else [.removeDomain m.domain, .removeMapping m.domain]

/-- The writes of `setupMappingRoutes`: those of `updateMapping`, for an HTTP mapping. -/
def setupOps : List TableOp :=
  if m.ServesHTTP then
    match domainConfig cfg m with
    | .error _ => []
    | .ok config => [.addDomain m.domain config, .addMapping m.domain (protoToMapping cfg m) config]
  else []

/-- The writes of setting up, with those of cleaning up if it fails. -/
def setupOrCleanupOps (env : ProxyServer.Env) (s : Server) (m : ProxyMapping) : List TableOp :=
  setupOps cfg m ++ if (setupMappingRoutes cfg env s m).2.isSome then cleanupOps m else []

/-- The writes of a call, in their order. -/
def callOps : Call → List TableOp
  | .add m env => if !env.addPeer then [] else setupOrCleanupOps cfg env s m
  | .modify m env =>
    let old := (s.lastMappings.lookup m.id).getD m
    cleanupOps old ++ setupOrCleanupOps cfg env (cleanupMappingRoutes cfg s old) m
  | .remove m => cleanupOps ((s.lastMappings.lookup m.id).getD m)

/-- The server after a call. -/
def callResult : Call → Server
  | .add m env => (ProxyServer.addMapping cfg env s m).1
  | .modify m env => (modifyMapping cfg env s m).1
  | .remove m => ProxyServer.removeMapping cfg s m

/-- The tables of a server between calls. -/
def tablesOf : Tables := ⟨s.domains, s.mappings⟩

end

section

variable {cfg : Config} {env : ProxyServer.Env} {s : Server} {m : ProxyMapping}

theorem tablesOf_of_tables (h : s.tables = s'.tables) : tablesOf s = tablesOf s' := by
  simp only [Server.tables, Prod.mk.injEq] at h
  rw [tablesOf, tablesOf, h.2.2.1, h.2.2.2.1]

/-- The cleanup as writes to the tables. -/
theorem tablesOf_cleanup (cfg : Config) (s : Server) (m : ProxyMapping) :
    tablesOf (cleanupMappingRoutes cfg s m) = (cleanupOps m).foldl TableOp.apply (tablesOf s) := by
  have hp := tablesOf_of_tables (tables_foldl_cleanupPort cfg m.domain m.id
    ((s.cleanupHost cfg m.domain m.id).svcPorts m.id)
    { s.cleanupHost cfg m.domain m.id with
      svcPorts := update (s.cleanupHost cfg m.domain m.id).svcPorts m.id [] })
  have hh : tablesOf (s.cleanupHost cfg m.domain m.id) =
      (cleanupOps m).foldl TableOp.apply (tablesOf s) := by
    rw [Server.cleanupHost, cleanupOps]
    split
    · rfl
    · rfl
  exact hp.trans hh

/-- A mapping below HTTP writes neither table. -/
theorem tablesOf_setupL4 (hm : m.mode ≠ .http) :
    tablesOf (setupMappingRoutes cfg env s m).1 = tablesOf s := by
  rw [setupMappingRoutes]
  split
  · rw [setupTCPMapping]
    split
    · rfl
    rename_i port _
    have hr : tablesOf (s.updateRouter cfg port (·.setFallback (l4Route cfg .tcp m))) =
        tablesOf s := tablesOf_of_tables (tables_updateRouter _)
    exact hr
  · rw [setupUDPMapping]
    split
    · rfl
    split
    · rfl
    split
    · rfl
    split
    · rfl
    · split
      · rfl
      · rfl
  · rw [setupTLSMapping]
    split
    · rfl
    rename_i port _
    have hr : tablesOf (s.updateRouter cfg port
        (·.addRoute cfg.toLower m.domain (l4Route cfg .tls m))) = tablesOf s :=
      tablesOf_of_tables (tables_updateRouter _)
    split
    · exact hr
    · exact hr
  · next hh => exact absurd hh hm

/-- The setup as writes to the tables. -/
theorem tablesOf_setup (cfg : Config) (env : ProxyServer.Env) (s : Server) (m : ProxyMapping) :
    tablesOf (setupMappingRoutes cfg env s m).1 =
      (setupOps cfg m).foldl TableOp.apply (tablesOf s) := by
  rw [setupOps]
  by_cases hm : m.mode = .http
  · have hse : setupMappingRoutes cfg env s m = setupHTTPMapping cfg s m := by
      rw [setupMappingRoutes, hm]
    rw [hse, setupHTTPMapping]
    by_cases hp : m.path = []
    · rw [if_pos hp, if_neg (·.2 hp)]
      rfl
    rw [if_neg hp, if_pos ⟨hm, hp⟩]
    cases domainConfig cfg m with
    | error err => rfl
    | ok config => rfl
  · rw [tablesOf_setupL4 hm, if_neg (hm ·.1)]
    rfl

/-- Setting up, and cleaning up if that fails. -/
theorem tablesOf_setupOrCleanup (cfg : Config) (env : ProxyServer.Env) (s : Server)
    (m : ProxyMapping) : tablesOf (match setupMappingRoutes cfg env s m with
      | (s, some err) => (cleanupMappingRoutes cfg s m, some err)
      | (s, none) => ({ s with lastMappings := s.lastMappings.insert m.id m }, none)).1 =
      (setupOrCleanupOps cfg env s m).foldl TableOp.apply (tablesOf s) := by
  grind [tablesOf_setup, setupOrCleanupOps, tablesOf_cleanup, tablesOf]

/-- **The writes are the call's**: one after the other, they make the tables what the call
    makes them. -/
theorem tablesOf_callResult (cfg : Config) (s : Server) (call : Call) :
    tablesOf (callResult cfg s call) = (callOps cfg s call).foldl TableOp.apply (tablesOf s) := by
  cases call with
  | add m env =>
    rw [callResult, callOps, ProxyServer.addMapping]
    split
    · rfl
    · exact tablesOf_setupOrCleanup cfg env s m
  | modify m env =>
    rw [callResult, callOps, List.foldl_append, ← tablesOf_cleanup]
    exact tablesOf_setupOrCleanup cfg env _ m
  | remove m =>
    rw [callResult, callOps, ProxyServer.removeMapping, tablesOf_cleanup]
    rfl

end

/-! ## Requests -/

/-- `targetResult`: where a request is forwarded to. -/
structure TargetResult where
  target : PathTarget
  matchedPath : String
  serviceID : String
  accountID : String
  passHostHeader : Bool
  rewriteRedirects : Bool
  stripAuthHeaders : List String
deriving DecidableEq

/-- The paths of a mapping, longest first. -/
def sortedPaths (m : Mapping) : List String :=
  m.paths.keys.insertionSort fun a b => b.utf8ByteSize ≤ a.utf8ByteSize

/-- The target of a mapping for a path. -/
def findTarget (m : Mapping) (path : String) : Option TargetResult :=
  (sortedPaths m).findSome? (fun p =>
    if p.toList.isPrefixOf path.toList then
      (m.paths.lookup p).map (fun target =>
        ⟨target, p, m.id, m.accountID, m.passHostHeader, m.rewriteRedirects, m.stripAuthHeaders⟩)
    else none)

/-- `findTargetForRequest`: the target of the host's mapping. -/
def findTargetForRequest (mappings : String → Option Mapping) (r : Request) : Option TargetResult :=
  (mappings (hostOf r)).bind (findTarget · r.path)

/-- The domain entry that the middleware let a request pass by, and what it was told. -/
structure Check where
  config : DomainConfig
  env : Middleware.Env

/-- Where a request stands.  A request that passed the middleware has been checked, or
    its host was not among the domains; a forwarded one has the entry of the mapping that
    took it. -/
inductive Phase where
  | arrived
  | passed (check : Option Check)
  | forwarded (target : TargetResult) (check : Option Check) (entry : Option DomainConfig)
  | answered

/-- A request on its way through the proxy. -/
structure InFlight where
  request : Request
  phase : Phase := .arrived

/-- The server that the calls so far make, the tables as they are while the worker still
    writes, the entry of its domain that each mapping came with, and the requests. -/
structure State where
  server : Server := {}
  tables : Tables := {}
  entries : String → Option DomainConfig := fun _ => none
  todo : List TableOp := []
  requests : List InFlight := []

/-- A call or a write of the worker, or a step of a request. -/
inductive Action where
  | call (c : Call)
  | write
  | arrive (r : Request)
  | protect (i : Nat) (env : Middleware.Env)
  | lookup (i : Nat)

/-- The middleware reads the domains. -/
def InFlight.protect (q : InFlight) (env : Middleware.Env)
    (domains : String → Option DomainConfig) : Option InFlight :=
  match q.phase with
  | .arrived =>
    match (Middleware.protect env domains q.request).outcome with
    | .forward _ => some { q with phase := .passed ((domains (hostOf q.request)).map (⟨·, env⟩)) }
    | .respond _ => some { q with phase := .answered }
  | _ => none

/-- The reverse proxy reads the mappings. -/
def InFlight.lookup (q : InFlight) (mappings : String → Option Mapping)
    (entries : String → Option DomainConfig) : Option InFlight :=
  match q.phase with
  | .passed check =>
    match findTargetForRequest mappings q.request with
    | some target => some { q with phase := .forwarded target check (entries (hostOf q.request)) }
    | none => some { q with phase := .answered }
  | _ => none

/-- A request takes a step of its own. -/
def advance (s : State) (i : Nat) (f : InFlight → Option InFlight) : Option State :=
  match s.requests[i]? with
  | none => none
  | some q => (f q).map fun q' => { s with requests := s.requests.set i q' }

/-- One step of the worker or of a request. -/
def step (cfg : Config) (s : State) : Action → Option State
  | .call c =>
    if s.todo.isEmpty then
      some { s with server := callResult cfg s.server c, todo := callOps cfg s.server c }
    else none
  | .write =>
    match s.todo with
    | [] => none
    | op :: todo => some
        { s with tables := op.apply s.tables, entries := op.note s.entries, todo := todo }
  | .arrive r => some { s with requests := s.requests ++ [{ request := r }] }
  | .protect i env => advance s i (·.protect env s.tables.domains)
  | .lookup i => advance s i (·.lookup s.tables.mappings s.entries)

/-! ## Being checked -/

/-- The middleware applied the restrictions and the schemes of the entry to the request
    and let it pass. -/
def Check.Admits (check : Check) (r : Request) : Prop :=
  ∃ grounds, (protectDomain check.env r (hostOf r) check.config).outcome = .forward grounds

/-- What is forwarded for a domain was checked under the entry of the mapping that took it. -/
def Good (h : String) (s : State) : Prop :=
  ∀ q ∈ s.requests, hostOf q.request = h →
    ∀ target check entry, q.phase = .forwarded target check entry →
      ∃ c, check = some c ∧ entry = some c.config ∧ c.Admits q.request

/-- The request passed the middleware without a check, or under another entry. -/
def Phase.PassedOtherwise (config : DomainConfig) : Phase → Prop
  | .passed check => check.map Check.config ≠ some config
  | _ => False

/-- The write adds a mapping of the domain that takes a request that passed otherwise. -/
def TableOp.Exposes (h : String) (requests : List InFlight) : TableOp → Prop
  | .addMapping host mapping config => host = h ∧ ∃ q ∈ requests, hostOf q.request = h ∧
      q.phase.PassedOtherwise config ∧ (findTarget mapping q.request.path).isSome
  | _ => False

/-- The middleware lets the request pass. -/
def Passes (env : Middleware.Env) (domains : String → Option DomainConfig) (r : Request) : Prop :=
  ∃ grounds, (Middleware.protect env domains r).outcome = .forward grounds

/-- A request of the domain passes the middleware only while no mapping takes it, or under the
    entry that the mapping of the domain came with; and a mapping of the domain is added only while
    no request that it takes has passed without a check or under another entry. -/
def StepAllowed (h : String) (s : State) : Action → Prop
  | .protect i env => ∀ q ∈ s.requests[i]?, hostOf q.request = h →
      Passes env s.tables.domains q.request →
        findTargetForRequest s.tables.mappings q.request = none ∨
          ∃ config, s.tables.domains h = some config ∧ s.entries h = some config
  | .write => ∀ op ∈ s.todo.head?, ¬ op.Exposes h s.requests
  | _ => True

/-! ## The invariant -/

/-- What is known of a request of the domain: no mapping takes it, or it passed under the entry of
    the mapping. -/
def Sound (mappings : String → Option Mapping) (entries : String → Option DomainConfig)
    (q : InFlight) : Prop :=
  match q.phase with
  | .passed check => findTargetForRequest mappings q.request = none ∨
      ∃ c, check = some c ∧ entries (hostOf q.request) = some c.config ∧ c.Admits q.request
  | .forwarded _ check entry => ∃ c, check = some c ∧ entry = some c.config ∧ c.Admits q.request
  | _ => True

/-- All requests of the domain are sound, and all that passed a check were let in by it. -/
def Inv (h : String) (s : State) : Prop :=
  ∀ q ∈ s.requests, hostOf q.request = h → Sound s.tables.mappings s.entries q ∧
    ∀ c, q.phase = .passed (some c) → c.Admits q.request

section

variable {cfg : Config} {h : String} {s s' : State} {i : Nat} {q q' : InFlight}
  {env : Middleware.Env}

/-- A request's step changes that request. -/
theorem advance_eq_some (hs' : advance s i f = some s') :
    ∃ q q', s.requests[i]? = some q ∧ f q = some q' ∧
      s' = { s with requests := s.requests.set i q' } := by
  rw [advance] at hs'
  split at hs'
  · cases hs'
  · next q hq =>
    obtain ⟨q', hq', hset⟩ := map_eq_some_iff.mp hs'
    exact ⟨q, q', hq, hq', hset.symm⟩

/-- What the middleware does with a request. -/
theorem protect_cases (hq' : q.protect env domains = some q') : q'.request = q.request ∧
    (q'.phase = .answered ∨ domains (hostOf q.request) = none ∧ q'.phase = .passed none ∨
      ∃ config, domains (hostOf q.request) = some config ∧
        q'.phase = .passed (some ⟨config, env⟩) ∧ Check.Admits ⟨config, env⟩ q.request) := by
  rw [InFlight.protect] at hq'
  split at hq'
  · split at hq'
    · next grounds ho =>
      cases hq'
      refine ⟨rfl, .inr ?_⟩
      rw [Middleware.protect] at ho
      cases hd : domains (hostOf q.request) with
      | none => exact .inl ⟨rfl, rfl⟩
      | some config =>
        rw [hd] at ho
        exact .inr ⟨config, rfl, rfl, grounds, ho⟩
    · cases hq'
      exact ⟨rfl, .inl rfl⟩
  · cases hq'

/-- What the reverse proxy does with a request. -/
theorem lookup_cases (hq' : q.lookup mappings entries = some q') :
    q'.request = q.request ∧ ∃ check, q.phase = .passed check ∧
      (q'.phase = .answered ∨ ∃ target, findTargetForRequest mappings q.request = some target ∧
        q'.phase = .forwarded target check (entries (hostOf q.request))) := by
  grind [InFlight.lookup]

/-- A request that moved on is sound, and the others are as before. -/
theorem Inv.set (hi : Inv h s) (hq' : hostOf q'.request = h →
      Sound s.tables.mappings s.entries q' ∧ ∀ c, q'.phase = .passed (some c) →
        c.Admits q'.request) :
    Inv h { s with requests := s.requests.set i q' } := by
  intro p hp hh
  rcases mem_or_eq_of_mem_set hp with hp | rfl
  · exact hi p hp hh
  · exact hq' hh

/-- The authentication step keeps the invariant. -/
theorem inv_protect (hi : Inv h s) (ho : StepAllowed h s (.protect i env))
    (hs' : step cfg s (.protect i env) = some s') : Inv h s' := by
  obtain ⟨q, q', hq, hq', rfl⟩ := advance_eq_some hs'
  refine hi.set fun hh => ?_
  have hpass : q'.phase ≠ .answered → Passes env s.tables.domains q.request := by
    intro hp
    grind [InFlight.protect, Passes]
  obtain ⟨hr, hc⟩ := protect_cases hq'
  rw [hr] at hh ⊢
  have hta := ho q hq hh
  rw [← hh] at hta
  rcases hc with hp | ⟨hd, hp⟩ | ⟨config, hd, hp, ha⟩
  · simp [Sound, hp]
  · -- the host is not among the domains, so no mapping takes the request
    have hno := hta (hpass (by simp [hp]))
    rw [hd] at hno
    refine ⟨?_, by simp [hp]⟩
    rw [Sound, hp, hr]
    exact .inl (hno.resolve_right (by simp))
  · refine ⟨?_, fun c hc => ?_⟩
    · rw [Sound, hp, hr]
      refine (hta (hpass (by simp [hp]))).imp_right ?_
      rintro ⟨config', hd', he⟩
      cases hd.symm.trans hd'
      exact ⟨_, rfl, he, ha⟩
    · rw [hp] at hc
      cases hc
      exact ha

/-- The lookup step keeps the invariant. -/
theorem inv_lookup (hi : Inv h s) (hs' : step cfg s (.lookup i) = some s') : Inv h s' := by
  obtain ⟨q, q', hq, hq', rfl⟩ := advance_eq_some hs'
  refine hi.set fun hh => ?_
  obtain ⟨hr, check, hpa, hc⟩ := lookup_cases hq'
  rw [hr] at hh
  have hs := (hi q (mem_iff_getElem?.mpr ⟨i, hq⟩) hh).1
  rw [Sound, hpa] at hs
  rw [Sound]
  rcases hc with hp | ⟨target, hta, hp⟩
  · simp [hp]
  · rw [hp]
    refine ⟨?_, nofun⟩
    -- a mapping takes the request, so it passed under the entry of that mapping
    rw [hr]
    exact hs.resolve_left (by simp [hta])

/-- A write to one host changes the targets of that host. -/
theorem findTargetForRequest_update : findTargetForRequest (update mappings host o) r =
    if hostOf r = host then o.bind (findTarget · r.path) else findTargetForRequest mappings r := by
  rw [findTargetForRequest, findTargetForRequest]
  split
  · next hh => rw [hh, update_self]
  · next hh => rw [update_of_ne hh]

/-- A write keeps what is known of a request if it does not expose it. -/
theorem sound_apply {op : TableOp} (hs : Sound t.mappings entries q)
    (had : ∀ c, q.phase = .passed (some c) → c.Admits q.request)
    (hop : ∀ host mapping config, op = .addMapping host mapping config →
      host = hostOf q.request → q.phase.PassedOtherwise config →
        findTarget mapping q.request.path = none) :
    Sound (op.apply t).mappings (op.note entries) q := by
  rw [Sound] at hs ⊢
  split
  · next check hp =>
    rw [hp] at hs
    cases op with
    | removeDomain host | addDomain host config => exact hs
    | removeMapping host =>
      rw [TableOp.apply, findTargetForRequest_update]
      split
      · exact .inl rfl
      · exact hs
    | addMapping host mapping config =>
      rw [TableOp.apply, TableOp.note, findTargetForRequest_update]
      split
      · next hh =>
        subst hh
        rw [update_self]
        by_cases hc : check.map Check.config = some config
        · -- the request passed under the entry that the mapping comes with
          obtain ⟨c, rfl, rfl⟩ := Option.map_eq_some_iff.mp hc
          exact .inr ⟨c, rfl, rfl, had c hp⟩
        · refine .inl (hop _ mapping config rfl rfl ?_)
          rw [hp]
          exact hc
      · next hh =>
        rw [update_of_ne hh]
        exact hs
  · next target check entry hp =>
    rw [hp] at hs
    exact hs
  · trivial

theorem write_eq_some (hs' : step cfg s .write = some s') : ∃ op, s.todo.head? = some op ∧
    s' = { s with tables := op.apply s.tables, entries := op.note s.entries
                  todo := s.todo.tail } := by
  rw [step] at hs'
  split at hs'
  · cases hs'
  · next op todo hto =>
    rw [hto]
    exact ⟨op, rfl, (Option.some.inj hs').symm⟩

/-- A write keeps the invariant. -/
theorem inv_write (hi : Inv h s) (ho : StepAllowed h s .write)
    (hs' : step cfg s .write = some s') : Inv h s' := by
  obtain ⟨op, hop, rfl⟩ := write_eq_some hs'
  intro q hq hh
  obtain ⟨hs, had⟩ := hi q hq hh
  refine ⟨sound_apply hs had ?_, had⟩
  rintro host mapping config rfl hs hp
  by_contra htarget
  exact ho _ hop ⟨hs.trans hh, q, hq, hh, hp, isSome_iff_ne_none.mpr htarget⟩

/-- Every allowed step keeps the invariant. -/
theorem inv_step (hi : Inv h s) (ho : StepAllowed h s a)
    (hs' : step cfg s a = some s') : Inv h s' := by
  cases a with
  | call c =>
    rw [step] at hs'
    split at hs'
    · cases hs'
      exact hi
    · cases hs'
  | write => exact inv_write hi ho hs'
  | arrive r =>
    cases hs'
    intro q hq hh
    rcases mem_append.mp hq with hq | hq
    · exact hi q hq hh
    · cases mem_singleton.mp hq
      exact ⟨trivial, nofun⟩
  | protect i env => exact inv_protect hi ho hs'
  | lookup i => exact inv_lookup hi hs'

/-- The invariant rules out an unchecked request. -/
theorem Inv.good (hi : Inv h s) : Good h s := by
  intro q hq hh target check entry hp
  have hs := (hi q hq hh).1
  rw [Sound, hp] at hs
  exact hs

/-! ## A step that is not allowed -/

/-- A request that passed otherwise is forwarded where a mapping takes it. -/
theorem exists_unchecked (target : TargetResult) (check : Option Check)
    (hq : s.requests[i]? = some q) (hh : hostOf q.request = h) (hp : q.phase = .passed check)
    (hta : findTargetForRequest s.tables.mappings q.request = some target)
    (he : ∀ c, check = some c → s.entries h ≠ some c.config) :
    ∃ s', Leads (step cfg) (StepAllowed h) s s' ∧ ¬ Good h s' := by
  let q' : InFlight := { q with phase := .forwarded target check (s.entries h) }
  have hl : q.lookup s.tables.mappings s.entries = some q' := by
    simp only [InFlight.lookup, hp, hta, hh, q']
  have hs : step cfg s (.lookup i) = some { s with requests := s.requests.set i q' } := by
    rw [step, advance, hq]
    dsimp only
    rw [hl]
    rfl
  refine ⟨_, (Leads.refl _ _ _).head hs trivial, fun hg => ?_⟩
  obtain ⟨c, hc, hen, -⟩ := hg q' (mem_set_self hq _) hh target check (s.entries h) rfl
  exact he c hc hen

/-- From a step that is not allowed, an unchecked request can be forwarded. -/
theorem exists_unchecked_of_not_allowed (hn : ¬ StepAllowed h s a)
    (hm : step cfg s a = some m) : ∃ s', Leads (step cfg) (StepAllowed h) m s' ∧ ¬ Good h s' := by
  cases a with
  | call c | arrive r | lookup i => exact absurd trivial hn
  | protect i env =>
    obtain ⟨q, q', hq, hq', rfl⟩ := advance_eq_some hm
    rw [StepAllowed, hq] at hn
    simp only [mem_def, some.injEq, forall_eq', Classical.not_imp, not_or] at hn
    obtain ⟨hh, ⟨grounds, ho⟩, hta, hd⟩ := hn
    obtain ⟨target, hta⟩ := ne_none_iff_exists'.mp hta
    -- the middleware lets the request pass, with the entry that the domain has
    have hp : q' = { q with phase := .passed ((s.tables.domains h).map (⟨·, env⟩)) } := by
      rw [InFlight.protect] at hq'
      split at hq'
      · rw [ho, hh] at hq'
        exact (Option.some.inj hq').symm
      · cases hq'
    subst hp
    refine exists_unchecked (i := i) target _ ((getElem?_set_of_some hq _ i).trans (if_pos rfl)) hh
      rfl hta fun c hc he => hd ?_
    obtain ⟨config, hco, rfl⟩ := Option.map_eq_some_iff.mp hc
    exact ⟨config, hco, he⟩
  | write =>
    obtain ⟨op, hop, rfl⟩ := write_eq_some hm
    simp only [StepAllowed, not_forall, not_not] at hn
    obtain ⟨op', ho', he⟩ := hn
    rw [hop] at ho'
    cases ho'
    cases op with
    | removeDomain host | removeMapping host | addDomain host config => exact he.elim
    | addMapping host mapping config =>
      -- a request that passed before finds the new mapping
      obtain ⟨rfl, q, hq, hh, hu, hta⟩ := he
      obtain ⟨i, hi⟩ := mem_iff_getElem?.mp hq
      obtain ⟨target, hta⟩ := isSome_iff_exists.mp hta
      cases hph : q.phase with
      | passed check =>
        rw [hph] at hu
        refine exists_unchecked target check hi hh hph ?_ ?_
        · rw [TableOp.apply, findTargetForRequest_update, if_pos hh]
          exact hta
        · rintro c rfl hc
          dsimp only [TableOp.note] at hc
          rw [update_self] at hc
          exact hu hc.symm
      | arrived | forwarded target' check entry | answered =>
        rw [hph] at hu
        exact hu.elim

/-- The writes that are left make the tables what the calls make them. -/
theorem synced_step (hs : s.todo.foldl TableOp.apply s.tables = tablesOf s.server)
    (hs' : step cfg s a = some s') :
    s'.todo.foldl TableOp.apply s'.tables = tablesOf s'.server := by
  cases a with
  | call c => grind [step, tablesOf_callResult]
  | write =>
    rw [step] at hs'
    split at hs'
    · cases hs'
    rename_i op todo hto
    cases hs'
    rw [hto] at hs
    exact hs
  | arrive r =>
    cases hs'
    exact hs
  | protect i env | lookup i =>
    obtain ⟨q, q', -, -, rfl⟩ := advance_eq_some hs'
    exact hs

end

/-- **What is forwarded for a domain was checked** under the entry of the mapping that took it, in
    every run whose steps are allowed; and a step that is not may be followed by a request that was
    not.  Between calls the tables are those of the server. -/
theorem forwarded_checked_iff (cfg : Config) (h : String) (as : List Action) (s : State)
    (hok : AllowedRun (step cfg) (StepAllowed h) {} as) (hr : run (step cfg) {} as = some s) :
    s.todo.foldl TableOp.apply s.tables = tablesOf s.server ∧ Good h s ∧
      ∀ a m, step cfg s a = some m → (StepAllowed h s a ↔
        ∀ bs s', AllowedRun (step cfg) (StepAllowed h) m bs → run (step cfg) m bs = some s' →
          Good h s') := by
  have hs : s.todo.foldl TableOp.apply s.tables = tablesOf s.server :=
    run_invariant (fun _ _ _ hs _ hm => synced_step hs hm) as {} s rfl hok hr
  exact ⟨hs, run_good_exact (fun _ _ _ => inv_step) (fun _ hi => hi.good)
    (fun _ _ _ _ => exists_unchecked_of_not_allowed)
    (fun _ hq => absurd hq not_mem_nil) hok hr⟩

/-- A proxy that listens on 443. -/
def gateway : Config where
  mainPort := 443
  decodeBase64 := fun _ => none
  parseURL := some
  toLower := id
  toLower_empty := id_eq ""
  toUpper := id

/-- A wiki that only the local network may use. -/
def wiki : ProxyMapping where
  id := "wiki"
  domain := "wiki.example"
  mode := .http
  path := [{ path := "/", target := "http://10.0.0.1" }]
  accessRestrictions := some { allowedCIDRs := ["10.0.0.0/8"] }

/-- Nobody answers. -/
def quiet : Middleware.Env where
  now := 0
  crypto := { parse := fun _ _ _ _ _ => none }
  geo := none
  authenticate := fun _ _ _ => none
  getOIDCURL := fun _ _ _ => none
  sessionValidator := none

/-- A request from the local network. -/
def inside : Request := { host := "wiki.example", clientIP := .v4 0x0a000007 }

/-- A request from elsewhere. -/
def outside : Request := { host := "wiki.example", clientIP := .v4 0xc0000201 }

/-- The request was forwarded, and whether the middleware checked it. -/
def Phase.forwardedUnchecked : Phase → Option Bool
  | .forwarded _ check _ => some check.isNone
  | _ => none

/-- The wiki is added, one request from inside and one from outside are checked, and the first is
    looked up when a modification has begun. -/
def wikiRun : List Action :=
  [.call (.add wiki {}), .write, .write, .arrive inside, .arrive outside, .protect 0 quiet,
    .protect 1 quiet, .call (.modify wiki {}), .lookup 0]

/-- A request from inside is forwarded, and one from outside is not. -/
theorem wiki_checked :
    ((run (step gateway) {} wikiRun).map (·.requests.map (·.phase.forwardedUnchecked))) =
        some [some false, none] ∧
      ∀ s, run (step gateway) {} wikiRun = some s → Good "wiki.example" s := by
  refine ⟨by decide, fun s hr =>
    (forwarded_checked_iff gateway "wiki.example" wikiRun s ?_ hr).2.1⟩
  refine ⟨trivial, ?_⟩
  rintro _ ⟨⟩
  refine ⟨fun op hop => by cases hop; exact not_false, ?_⟩
  rintro _ ⟨⟩
  refine ⟨?_, ?_⟩
  · rintro op ⟨⟩ ⟨-, q, hq, -⟩
    cases hq
  rintro _ ⟨⟩
  refine ⟨trivial, ?_⟩
  rintro _ ⟨⟩
  refine ⟨trivial, ?_⟩
  rintro _ ⟨⟩
  refine ⟨fun _ _ _ _ => .inr ⟨_, rfl, rfl⟩, ?_⟩
  rintro _ ⟨⟩
  refine ⟨fun _ _ _ _ => .inr ⟨_, rfl, rfl⟩, ?_⟩
  rintro _ ⟨⟩
  refine ⟨trivial, ?_⟩
  rintro _ ⟨⟩
  exact ⟨trivial, fun _ _ => trivial⟩

/-- The wiki without a restriction. -/
def openWiki : ProxyMapping := { wiki with accessRestrictions := none }

/-- **A request from outside is forwarded**: it comes when a modification has removed the
    domain and not yet the mapping; or it passes while anyone may use the wiki, and is looked up
    after a modification has restricted it. -/
theorem wiki_exposed :
    (∃ s, run (step gateway) {}
        [.call (.add wiki {}), .write, .write, .call (.modify wiki {}), .write, .arrive outside,
          .protect 0 quiet, .lookup 0] = some s ∧
      s.requests.map (·.phase.forwardedUnchecked) = [some true] ∧ ¬ Good "wiki.example" s) ∧
    ∃ s, run (step gateway) {}
        [.call (.add openWiki {}), .write, .write, .arrive outside, .protect 0 quiet,
          .call (.modify wiki {}), .write, .write, .write, .write, .lookup 0] = some s ∧
      s.requests.map (·.phase.forwardedUnchecked) = [some false] ∧ ¬ Good "wiki.example" s := by
  refine ⟨⟨_, rfl, by decide, fun hg => ?_⟩, _, rfl, by decide, fun hg => ?_⟩
  · obtain ⟨c, hc, -⟩ := hg _ mem_cons_self rfl _ _ _ rfl
    cases hc
  · obtain ⟨c, hc, he, -⟩ := hg _ mem_cons_self rfl _ _ _ rfl
    cases hc
    -- the entry of the new mapping has restrictions, the one of the check has none
    cases congrArg (fun o : Option DomainConfig => o.map (·.ipRestrictions.isSome)) he

end ProxyRequest

import NetbirdHa.TransitionProofs

/-! # The services that a proxy is told about

A proxy that connects gets the enabled services of its cluster.  From then on it is
told about each change by a notification whose type depends on the change and not on
whether the service is enabled. -/

namespace ServiceNotify

open Transition Function

/-- How a service is reached. -/
inductive Mode where
  | http
  | tcp
  | udp
  | tls
deriving DecidableEq

/-- The fields of a service that its mapping carries. -/
structure Service where
  id : String
  domain : String
  proxyCluster : String
  enabled : Bool
  mode : Mode
  listenPort : Nat

/-- What the proxy is told of a mapping. -/
inductive UpdateType where
  | created
  | modified
  | removed
deriving DecidableEq

/-- A connected proxy, and the capability it reported. -/
structure Conn where
  address : String
  supportsCustomPorts : Option Bool

/-- `proxyAcceptsMapping`: a proxy that says nothing about custom ports gets no mapping that needs
    one. -/
def proxyAcceptsMapping (conn : Conn) (type : UpdateType) (s : Service) : Bool :=
  if type = .removed then true
  else if s.listenPort = 0 ∨ s.mode = .tls then true
  else conn.supportsCustomPorts.isSome

/-- `SendServiceUpdateToCluster` reaches the proxy; without a cluster it is a broadcast. -/
def reaches (conn : Conn) (type : UpdateType) (s : Service) (cluster : String) : Bool :=
  cluster = "" ∨ cluster = conn.address ∧ proxyAcceptsMapping conn type s

/-- What `snapshotServiceMappings` sends. -/
def inSnapshot (conn : Conn) (s : Service) : Bool :=
  s.enabled ∧ s.proxyCluster ≠ "" ∧ s.proxyCluster = conn.address ∧
    proxyAcceptsMapping conn .created s

/-- `sendServiceUpdateNotifications`: the types of the notifications and their clusters. -/
def sendServiceUpdateNotifications (old s : Service) : List (UpdateType × String) :=
  if old.domain ≠ s.domain ∨ old.proxyCluster ≠ s.proxyCluster then
    [(.removed, old.proxyCluster), (.created, s.proxyCluster)]
  else if !s.enabled ∧ old.enabled ≠ s.enabled then [(.removed, s.proxyCluster)]
  else if s.enabled ∧ old.enabled ≠ s.enabled then [(.created, s.proxyCluster)]
  else [(.modified, s.proxyCluster)]

/-- The store, and the services that the proxy serves. -/
structure State where
  services : String → Option Service := fun _ => none
  served : String → Bool := fun _ => false

variable (conn : Conn)

/-- `processMappings` of the notifications that reach the proxy. -/
def processMappings (s : Service) (sent : List (UpdateType × String)) (served : String → Bool) :
    String → Bool :=
  sent.foldl (fun served n =>
    if reaches conn n.1 s n.2 then update served s.id (n.1 ≠ .removed) else served) served

/-- A call that succeeds: an update comes with the cluster that its domain gives. -/
inductive Call where
  | createService (s : Service)
  | updateService (s : Service) (derived : Option String)
  | deleteService (id : String)

/-- A call changes the services and tells the proxies. -/
def step (st : State) : Call → Option State
  | .createService s =>
    if st.services s.id = none then some
      ⟨update st.services s.id (some s),
        processMappings conn s [(.created, s.proxyCluster)] st.served⟩
    else none
  | .updateService s derived => (st.services s.id).map fun old =>
    let s := { s with proxyCluster :=
      if old.domain = s.domain then old.proxyCluster else derived.getD s.proxyCluster }
    ⟨update st.services s.id (some s),
      processMappings conn s (sendServiceUpdateNotifications old s) st.served⟩
  | .deleteService id => (st.services id).map fun s =>
    ⟨update st.services id none, processMappings conn s [(.removed, s.proxyCluster)] st.served⟩

/-- The proxy serves what a new one of its cluster would be sent. -/
def Agrees (st : State) : Prop :=
  ∀ id, st.served id ↔ ∃ s, st.services id = some s ∧ inSnapshot conn s

/-- Services have a cluster and are created enabled; an update of a service that stays
    disabled or is disabled with another domain is not made, nor one after which the proxy
    does not accept the service any more. -/
def Fair (st : State) : Call → Prop
  | .createService s => s.proxyCluster ≠ "" ∧ s.enabled
  | .updateService s derived => ∀ old, st.services s.id = some old →
    if old.domain = s.domain then (s.enabled ∨ old.enabled) ∧
      (proxyAcceptsMapping conn .created old → proxyAcceptsMapping conn .created s)
    else derived.getD s.proxyCluster ≠ "" ∧ s.enabled
  | .deleteService _ => True

/-- Services are stored under their IDs and have a cluster. -/
def Stored (st : State) : Prop :=
  ∀ id s, st.services id = some s → s.id = id ∧ s.proxyCluster ≠ ""

variable {conn} {st st' : State}

/-- Whether the proxy serves the service after these notifications. -/
def told (conn : Conn) (s : Service) (sent : List (UpdateType × String)) (served : Bool) : Bool :=
  sent.foldl (fun b n => if reaches conn n.1 s n.2 then n.1 ≠ .removed else b) served

theorem processMappings_eq (s : Service) (sent : List (UpdateType × String)) :
    ∀ served, processMappings conn s sent served =
      update served s.id (told conn s sent (served s.id)) := by
  induction sent with
  | nil => exact fun served => (update_eq_self _ _).symm
  | cons n sent ih =>
    intro served
    refine (ih _).trans ?_
    by_cases hr : reaches conn n.1 s n.2 <;> simp [told, hr]

/-- One service changes, and the proxy is told as it should be. -/
theorem agrees_put (h : Agrees conn st ∧ Stored st) {v : Option Service}
    (hid : ∀ x, v = some x → x.id = s.id ∧ x.proxyCluster ≠ "")
    (hv : told conn s sent (st.served s.id) ↔ ∃ x, v = some x ∧ inSnapshot conn x) :
    Agrees conn ⟨update st.services s.id v, processMappings conn s sent st.served⟩ ∧
      Stored ⟨update st.services s.id v, processMappings conn s sent st.served⟩ := by
  rw [processMappings_eq]
  constructor
  · intro id
    by_cases hi : id = s.id
    · subst hi
      simpa using hv
    · simpa [hi] using h.1 id
  · intro id x hx
    by_cases hi : id = s.id
    · subst hi
      exact hid x (by simpa using hx)
    · exact h.2 id x (by simpa [hi] using hx)

theorem agrees_step {call : Call} (h : Agrees conn st ∧ Stored st) (hf : Fair conn st call)
    (hs : step conn st call = some st') : Agrees conn st' ∧ Stored st' := by
  cases call with
  | createService s =>
    obtain ⟨hn, ⟨⟩⟩ := Option.ite_none_right_eq_some.mp hs
    refine agrees_put h (fun x hx => Option.some.inj hx ▸ ⟨rfl, hf.1⟩) ?_
    have hold := h.1 s.id
    obtain ⟨hc, he⟩ := hf
    simp [hn] at hold
    simp [told, reaches, inSnapshot, hold, hc, he]
  | updateService s derived =>
    obtain ⟨old, ho, rfl⟩ := Option.map_eq_some_iff.mp hs
    have hf := hf old ho
    have hc := (h.2 s.id old ho).2
    refine agrees_put h (fun x hx => Option.some.inj hx ▸ ⟨rfl, by grind⟩) ?_
    have hold := h.1 s.id
    simp only [told, sendServiceUpdateNotifications]
    grind [reaches, inSnapshot, proxyAcceptsMapping]
  | deleteService id =>
    obtain ⟨s, hsv, rfl⟩ := Option.map_eq_some_iff.mp hs
    obtain ⟨rfl, hc⟩ := h.2 id s hsv
    refine agrees_put h nofun ?_
    have hold := h.1 s.id
    simp only [told]
    grind [reaches, inSnapshot, proxyAcceptsMapping]

/-- **What a proxy serves.**  As long as services have clusters, are created enabled and are
    not updated while they stay disabled, a proxy that has been connected from the start
    serves what a new one of its cluster is sent. -/
theorem served_iff_snapshot (conn : Conn) (calls : List Call) {st : State}
    (hf : AllowedRun (step conn) (Fair conn) {} calls) (hr : run (step conn) {} calls = some st)
    (id : String) : st.served id ↔ ∃ s, st.services id = some s ∧ inSnapshot conn s :=
  (run_invariant (fun _ _ _ h hf hs => agrees_step h hf hs) calls {} st
    ⟨fun id => by simp, nofun⟩ hf hr).1 id

/-- A service of the cluster "c" on the port that it listens to by default. -/
def webService (enabled : Bool) : Service := ⟨"s", "a.c", "c", enabled, .http, 0⟩

/-- A service is disabled. -/
theorem disabled_not_served : ∃ st, run (step ⟨"c", none⟩) {}
    [.createService (webService true), .updateService (webService false) none] = some st ∧
      (st.served "s" ↔ ∃ s, st.services "s" = some s ∧ inSnapshot ⟨"c", none⟩ s) :=
  exists_end rfl fun _ hst => served_iff_snapshot ⟨"c", none⟩ _
    (by simp [AllowedRun, Fair, step, webService, proxyAcceptsMapping]) hst "s"

/-- A service that is created disabled is served. -/
theorem created_disabled_served : ∃ st, run (step ⟨"c", none⟩) {}
    [.createService (webService false)] = some st ∧ st.served "s" ∧
      ∀ s, st.services "s" = some s → inSnapshot ⟨"c", none⟩ s = false :=
  ⟨_, rfl, rfl, fun _ h => Option.some.inj h ▸ rfl⟩

end ServiceNotify

import NetbirdHa.TableProofs
import Mathlib.Data.List.Dedup

/-! # Accounts

The account as the network map computations read it: peers, groups,
policies with their rules, routes, posture checks, networks with their
routers and resources.  Fields that no network map computation reads
(names shown in the UI, creation times, …) are left out.

`Peers`, `Groups` and `Routes` are Go maps whose keys are the IDs of their
values; they are `Keyed` tables here.  What the store and the API handlers
promise about an account is in `StoredAccount`. -/

namespace AccountModel

open Table List

/-- A run-time panic of the Go code. -/
inductive GoPanic where
  | nilDereference
deriving DecidableEq

/-! ## Data -/

/-- `PolicyRuleProtocolType`. -/
inductive Protocol where
  | all
  | tcp
  | udp
  | icmp
  | netbirdSSH
deriving DecidableEq

/-- The text a protocol is stored as. -/
def Protocol.text : Protocol → String
  | .all => "all"
  | .tcp => "tcp"
  | .udp => "udp"
  | .icmp => "icmp"
  | .netbirdSSH => "netbird-ssh"

/-- `PolicyTrafficActionType`. -/
inductive TrafficAction where
  | accept
  | drop
deriving DecidableEq

/-- The text an action is stored as. -/
def TrafficAction.text : TrafficAction → String
  | .accept => "accept"
  | .drop => "drop"

theorem protocol_text_inj {x y : Protocol} (h : x.text = y.text) : x = y := by
  revert h
  cases x <;> cases y <;> decide

theorem action_text_inj {x y : TrafficAction} (h : x.text = y.text) : x = y := by
  revert h
  cases x <;> cases y <;> decide

/-- `ResourceType`; `unset` is the empty string. -/
inductive ResourceType where
  | peer
  | domain
  | host
  | subnet
  | unset
deriving DecidableEq

/-- A resource that a rule or a group names. -/
structure Resource where
  id : String := ""
  type : ResourceType := .unset
deriving DecidableEq

/-- The resource names a peer: `Type == ResourceTypePeer && ID != ""`. -/
def Resource.IsPeer (r : Resource) : Prop := r.type = .peer ∧ r.id ≠ ""
deriving Decidable

/-- `nbpeer.Peer`.  `ip` is the canonical text of the address; `lastLogin` is in
    nanoseconds, `none` when the peer never logged in. -/
structure Peer where
  id : String
  ip : String
  key : String := ""
  userID : String := ""
  wtVersion : String := ""
  sshEnabled : Bool := false
  serverSSHAllowed : Bool := false
  embedded : Bool := false
  loginExpirationEnabled : Bool := false
  lastLogin : Option Int := none
deriving DecidableEq

/-- A group of peers and resources. -/
structure Group where
  id : String
  name : String := ""
  peers : List String := []
  resources : List Resource := []
deriving DecidableEq

/-- The group of all peers is known by its name. -/
def Group.isGroupAll (g : Group) : Bool := g.name = "All"

/-- `RulePortRange`. -/
structure PortRange where
  start : UInt16 := 0
  stop : UInt16 := 0
deriving DecidableEq

/-- One rule of a policy. -/
structure PolicyRule where
  id : String
  policyID : String := ""
  enabled : Bool := true
  action : TrafficAction := .accept
  destinations : List String := []
  destinationResource : Resource := {}
  sources : List String := []
  sourceResource : Resource := {}
  bidirectional : Bool := false
  protocol : Protocol := .all
  ports : List String := []
  portRanges : List PortRange := []
  authorizedGroups : List (String × List String) := []
  authorizedUser : String := ""
deriving DecidableEq

/-- A policy: its rules, and the posture checks its sources must pass. -/
structure Policy where
  id : String
  enabled : Bool := true
  rules : List PolicyRule := []
  sourcePostureChecks : List String := []
deriving DecidableEq

/-- `posture.Checks`: the checks are values of the `Check` interface, so each is
    known only by its answer on a peer.  IDs are never empty. -/
structure Checks where
  id : String
  checks : List (Peer → Bool)
  id_ne : id ≠ ""

/-- `netip.Prefix`: its text and whether it is an IPv6 prefix. -/
structure NetPrefix where
  text : String := "invalid Prefix"
  is6 : Bool := false
deriving DecidableEq

/-- `route.NetworkType`. -/
inductive NetworkType where
  | invalid
  | ipv4
  | ipv6
  | domain
deriving DecidableEq

/-- `route.Route`; a nil domain list is `none`. -/
structure Route where
  id : String
  network : NetPrefix := {}
  domains : Option (List String) := none
  keepRoute : Bool := false
  netID : String := ""
  description : String := ""
  peer : String := ""
  peerID : String := ""
  peerGroups : List String := []
  networkType : NetworkType := .invalid
  masquerade : Bool := false
  metric : Int := 0
  enabled : Bool := true
  groups : List String := []
  accessControlGroups : List String := []
  skipAutoApply : Bool := false
deriving DecidableEq

/-- `routerTypes.NetworkRouter`. -/
structure NetworkRouter where
  networkID : String
  peer : String := ""
  peerGroups : List String := []
  masquerade : Bool := false
  metric : Int := 0
  enabled : Bool := true
deriving DecidableEq

/-- The routers of each network. -/
abbrev Routers := GoMap (GoMap NetworkRouter)

/-- The policies of each resource. -/
abbrev PolicyMap := GoMap (List Policy)

/-- The users of each group. -/
abbrev UserMap := GoMap (List String)

/-- `resourceTypes.NetworkResourceType`. -/
inductive NetworkResourceType where
  | host
  | subnet
  | domain
deriving DecidableEq

/-- `resourceTypes.NetworkResource`. -/
structure NetworkResource where
  id : String
  networkID : String
  name : String := ""
  description : String := ""
  type : NetworkResourceType := .host
  domain : String := ""
  netPrefix : NetPrefix := {}
  enabled : Bool := true
deriving DecidableEq

/-- `User`, as far as `getAllowedUserIDs` reads it. -/
structure User where
  id : String
  blocked : Bool := false
  isServiceUser : Bool := false
deriving DecidableEq

/-- The account's network. -/
structure Network where
  identifier : String := ""
  net : String := ""
  dns : String := ""
  serial : Nat := 0
deriving DecidableEq

/-- `Settings`; durations in nanoseconds. -/
structure Settings where
  peerLoginExpirationEnabled : Bool := false
  peerLoginExpiration : Int := 0
deriving DecidableEq

/-- The parts of an account that the network map reads. -/
structure Account where
  network : Network := {}
  peers : Keyed Peer Peer.id
  users : List User := []
  groups : Keyed Group Group.id
  policies : List Policy := []
  routes : Keyed Route Route.id
  postureChecks : List Checks := []
  networkRouters : List NetworkRouter := []
  networkResources : List NetworkResource := []
  settings : Settings := {}

/-- An account as the store keeps it: addresses are unique in an account (`idx_account_ip`) and keys
    altogether (`idx_peers_key_unique`), and the ID of a network resource is an xid. -/
structure StoredAccount extends Account where
  ips_nodup : (peers.entries.map Peer.ip).Nodup
  keys_nodup : (peers.entries.map Peer.key).Nodup
  resourceIDs : ∀ res ∈ networkResources, ':' ∉ res.id.toList

theorem colon_nil : ∀ res ∈ ([] : List NetworkResource), ':' ∉ res.id.toList := nofun

instance : Coe StoredAccount Account := ⟨StoredAccount.toAccount⟩

variable {p : Peer} {a : Account} {cs : List String} {q c : String}

/-- Peers with the same address are the same. -/
theorem StoredAccount.eq_of_ip (a : StoredAccount) {q : Peer} (hp : p ∈ a.peers.entries)
    (hq : q ∈ a.peers.entries) (h : p.ip = q.ip) : p = q :=
  inj_on_of_nodup_map a.ips_nodup hp hq h

/-- Peers with the same key are the same. -/
theorem StoredAccount.eq_of_key (a : StoredAccount) {q : Peer} (hp : p ∈ a.peers.entries)
    (hq : q ∈ a.peers.entries) (h : p.key = q.key) : p = q :=
  inj_on_of_nodup_map a.keys_nodup hp hq h

/-- The code outside this repository and the clock. -/
structure Env where
  /-- `time.Now()`, in nanoseconds. -/
  now : Int
  /-- `posture.MeetsMinVersion` over `hashicorp/go-version`; `none` is an error. -/
  meetsMinVersion : String → String → Option Bool
  /-- `domain.FromStringList` over `golang.org/x/net/idna`; `none` is an error. -/
  domainFromStringList : List String → Option (List String)
  /-- `List.SafeString` of the same package. -/
  domainSafeString : List String → String

/-- An environment for concrete runs: every version is new enough, every domain well formed. -/
def plainEnv : Env where
  now := 0
  meetsMinVersion := fun _ _ => some true
  domainFromStringList := some
  domainSafeString := ", ".intercalate

/-- The keys of `validatedPeersMap`. -/
abbrev Validated := List String

/-! ## Lookups -/

section

variable (a : Account) (id : String)

/-- `GetPeer`. -/
def Account.getPeer : Option Peer := a.peers.get id

/-- `GetGroup`. -/
def Account.getGroup : Option Group := a.groups.get id

/-- `GetPostureChecks`. -/
def Account.getPostureChecks : Option Checks :=
  a.postureChecks.find? (·.id = id)

/-- `GetPeerGroups`: the IDs of the groups that hold the peer. -/
def Account.getPeerGroups (peerID : String) : List String :=
  (a.groups.entries.filter (peerID ∈ ·.peers)).map Group.id

/-- `LoginExpired`: a nil `LastLogin` is the zero time. -/
def Peer.loginExpired (env : Env) (expiresIn : Int) (p : Peer) : Bool :=
  p.userID ≠ "" && p.loginExpirationEnabled &&
    decide (p.lastLogin.getD (-62135596800000000000) + expiresIn - env.now ≤ 0)

/-- The peer counts as expired under the account's settings. -/
def Settings.peerExpired (s : Settings) (env : Env) (p : Peer) : Bool :=
  s.peerLoginExpirationEnabled && p.loginExpired env s.peerLoginExpiration

/-- `getAllowedUserIDs`: the users who are not blocked, without the service users. -/
def Account.getAllowedUserIDs : List String :=
  (a.users.filter (fun u => !u.blocked && !u.isServiceUser)).map User.id

end

theorem Account.id_of_getPeer {id : String} (h : a.getPeer id = some p) : p.id = id :=
  Keyed.key_of_get h

/-- Peers of one account with the same ID are the same. -/
theorem eq_of_getPeer {q : Peer} (hp : a.getPeer p.id = some p) (hq : a.getPeer q.id = some q)
    (h : p.id = q.id) : p = q := by
  rw [h] at hp
  exact Option.some.inj (hp.symm.trans hq)

theorem Account.id_of_getGroup {id : String} (h : a.getGroup id = some g) : g.id = id :=
  Keyed.key_of_get h

theorem Account.mem_getPeerGroups :
    gid ∈ a.getPeerGroups peerID ↔ ∃ g, a.getGroup gid = some g ∧ peerID ∈ g.peers := by
  grind [Account.getPeerGroups, Account.getGroup, Keyed.get_eq_some]

/-! ## Posture checks -/

namespace Account

/-- The first posture check of a list that the peer fails; unknown IDs are skipped. -/
def firstFailed (a : Account) (p : Peer) : List String → Option String
  | [] => none
  | c :: cs =>
    match a.getPostureChecks c with
    | none => a.firstFailed p cs
    | some ch => if ch.checks.all (· p) then a.firstFailed p cs else some c

/-- `validatePostureChecksOnPeer`: an unknown peer fails. -/
def validatePostureChecksOnPeer (a : Account) (cs : List String) (peerID : String) :
    Bool :=
  match a.getPeer peerID with
  | none => false
  | some p => (a.firstFailed p cs).isNone

/-- `validatePostureChecksOnPeerGetFailed`: the answer, and the check that failed. -/
def validatePostureChecksOnPeerGetFailed (a : Account) (cs : List String)
    (peerID : String) : Bool × String :=
  match a.getPeer peerID with
  | none => (false, "")
  | some p =>
    match a.firstFailed p cs with
    | none => (true, "")
    | some c => (false, c)

theorem checksGetFailed_fst :
    (a.validatePostureChecksOnPeerGetFailed cs q).1 = a.validatePostureChecksOnPeer cs q := by
  grind [validatePostureChecksOnPeerGetFailed, validatePostureChecksOnPeer]

theorem checksOnPeer_eq_true : a.validatePostureChecksOnPeer cs peerID ↔
    ∃ p, a.getPeer peerID = some p ∧ a.firstFailed p cs = none := by
  unfold validatePostureChecksOnPeer
  cases h : a.getPeer peerID with
  | none => simp
  | some p => simp [Option.isNone_iff_eq_none]

/-- Two accounts with the same checks judge a peer alike that both know. -/
theorem checksOnPeer_congr {a' : Account}
    (hc : a'.postureChecks = a.postureChecks) (hq : a'.getPeer q = a.getPeer q) :
    a'.validatePostureChecksOnPeer cs q = a.validatePostureChecksOnPeer cs q := by
  have hf : ∀ (p : Peer) (cs : List String), a'.firstFailed p cs = a.firstFailed p cs := by
    intro p cs
    induction cs with
    | nil => rfl
    | cons c cs ih =>
      rw [firstFailed, firstFailed, ih, getPostureChecks, getPostureChecks, hc]
  simp only [validatePostureChecksOnPeer, hq, hf]

/-- The check reported as failed has an ID of the list, and is one the peer fails. -/
theorem firstFailed_eq_some :
    ∀ {cs : List String}, a.firstFailed p cs = some c → c ∈ cs ∧ a.firstFailed p [c] = some c := by
  intro cs
  induction cs with
  | nil => intro h; cases h
  | cons x cs ih => grind [firstFailed]

/-- A peer passes a list of checks exactly when it passes each of them. -/
theorem firstFailed_eq_none :
    ∀ {cs : List String}, a.firstFailed p cs = none ↔ ∀ c ∈ cs, a.firstFailed p [c] = none := by
  intro cs
  induction cs with
  | nil => simp [firstFailed]
  | cons x cs ih =>
    simp only [forall_mem_cons, ← ih]
    grind [firstFailed]

/-- A check reported as failed fails every list it is on. -/
theorem validatePostureChecksOnPeer_eq_false
    (h : a.validatePostureChecksOnPeerGetFailed cs q = (false, c)) (hc : c ∈ cs') :
    a.validatePostureChecksOnPeer cs' q = false := by
  rw [Bool.eq_false_iff, ne_eq, checksOnPeer_eq_true]
  rintro ⟨p, hp, hn⟩
  rw [validatePostureChecksOnPeerGetFailed, hp] at h
  cases hf : a.firstFailed p cs with
  | none => simp [hf] at h
  | some c' =>
    simp only [hf, Prod.mk.injEq, true_and] at h
    subst h
    have := firstFailed_eq_none.mp hn c' hc
    cases this.symm.trans (firstFailed_eq_some hf).2

/-- A failed check has a nonempty ID. -/
theorem ne_empty_of_firstFailed (h : a.firstFailed p cs = some c) : c ≠ "" := by
  have hc := (firstFailed_eq_some h).2
  simp only [firstFailed] at hc
  cases hx : a.getPostureChecks c with
  | none => simp [hx] at hc
  | some ch =>
    have hi : ch.id = c := by
      have := List.find?_some hx
      simpa using this
    exact hi ▸ ch.id_ne

end Account

/-! ## The checks that a peer is told about -/

section

variable (a : Account) (peerID : String)

namespace Account

/-- The loop over source groups; a group that is missing is an error. -/
def inSourceGroups : List String → Option Bool
  | [] => some false
  | gid :: gids =>
    match a.getGroup gid with
    | none => none
    | some g => if peerID ∈ g.peers then some true else inSourceGroups gids

/-- The source groups of the enabled rules of a policy, in the order of the loops. -/
def ruleSourceGroups (pol : Policy) : List String :=
  (pol.rules.filter (·.enabled)).flatMap (·.sources)

/-- The loop of `getPeerPostureChecks` over the policies. -/
def peerPostureChecksIDs : List Policy → Option (List String)
  | [] => some []
  | pol :: pols =>
    if !pol.enabled || pol.sourcePostureChecks = [] then peerPostureChecksIDs pols
    else
      -- `processPeerPostureChecks`
      (a.inSourceGroups peerID (ruleSourceGroups pol)).bind
        fun found => (peerPostureChecksIDs pols).map
          ((if found then pol.sourcePostureChecks else []) ++ ·)

/-- `getPeerPostureChecks`, in some order. -/
def getPeerPostureChecks : Option (List Checks) :=
  (a.peerPostureChecksIDs peerID a.policies).map fun ids => a.postureChecks.filter (·.id ∈ ids)

/-- The group exists and holds the peer. -/
def inGroup (gid : String) : Bool := (a.getGroup gid).any (peerID ∈ ·.peers)

/-- The peer is in a source group of the rule. -/
def inSources (rule : PolicyRule) : Bool := rule.sources.any (a.inGroup peerID)

/-- Of each enabled policy with checks, the source groups exist up to the first that holds the
    peer. -/
def SourcesFound (policies : List Policy) : Prop :=
  ∀ pol ∈ policies, pol.enabled → pol.sourcePostureChecks ≠ [] →
    ∀ gid ∈ (ruleSourceGroups pol).takeWhile (!a.inGroup peerID ·), (a.getGroup gid).isSome

end Account

/-- The checks of the policies with an enabled rule of this kind. -/
def checksOf (source : PolicyRule → Bool) (policies : List Policy) : List String :=
  (policies.filter fun pol => pol.enabled && pol.rules.any fun rule =>
    rule.enabled && source rule).flatMap (·.sourcePostureChecks)

variable {a peerID}

/-- What the loop over source groups finds, unless a group that it looks up is missing. -/
theorem inSourceGroups_eq_some {b : Bool} :
    a.inSourceGroups peerID gids = some b ↔
      (∀ gid ∈ gids.takeWhile (!a.inGroup peerID ·), (a.getGroup gid).isSome) ∧
        gids.any (a.inGroup peerID) = b := by
  induction gids with
  | nil => simp [Account.inSourceGroups]
  | cons gid gids ih =>
    rw [Account.inSourceGroups]
    cases hg : a.getGroup gid with
    | none => simp [Account.inGroup, hg]
    | some g =>
      by_cases hp : peerID ∈ g.peers
      · simp [Account.inGroup, hg, hp]
      · simp [Account.inGroup, hg, hp, ih]

/-- A policy has the peer in a source group of an enabled rule. -/
theorem any_ruleSourceGroups (pol : Policy) :
    (Account.ruleSourceGroups pol).any (a.inGroup peerID) =
    pol.rules.any fun rule => rule.enabled && a.inSources peerID rule := by
  rw [Account.ruleSourceGroups, any_flatMap, any_filter]
  rfl

/-- What the loop over the policies collects, unless a group that it looks up is missing. -/
theorem peerPostureChecksIDs_eq_some {ids : List String} :
    a.peerPostureChecksIDs peerID policies = some ids ↔
      a.SourcesFound peerID policies ∧ checksOf (a.inSources peerID) policies = ids := by
  induction policies generalizing ids with
  | nil => simp [Account.peerPostureChecksIDs, Account.SourcesFound, checksOf]
  | cons pol policies ih =>
    rw [Account.peerPostureChecksIDs, Account.SourcesFound, forall_mem_cons]
    split
    · rename_i hn
      rw [ih]
      have hc : checksOf (a.inSources peerID) (pol :: policies) =
          checksOf (a.inSources peerID) policies := by
        grind [checksOf]
      rw [hc]
      refine and_congr_left fun _ => ⟨fun h => ⟨fun he hc => ?_, h⟩, fun h => h.2⟩
      grind
    · rename_i hn
      have hc : checksOf (a.inSources peerID) (pol :: policies) =
          (if (Account.ruleSourceGroups pol).any (a.inGroup peerID) then pol.sourcePostureChecks
            else []) ++ checksOf (a.inSources peerID) policies := by
        rw [any_ruleSourceGroups]
        grind [checksOf]
      simp only [Option.bind_eq_some_iff, Option.map_eq_some_iff, inSourceGroups_eq_some, ih, hc]
      grind [Account.SourcesFound]

end

/-- **The checks that a peer is told about** are all those of policies with the peer as a source,
    exactly if the source groups that are looked up exist, and the checks of policies that name
    the peer are also asked for by policies with a group of it. -/
theorem postureChecks_returned_iff (a : Account) (peerID : String) :
    (∃ checks, a.getPeerPostureChecks peerID = some checks ∧ ∀ c ∈ a.postureChecks,
        c.id ∈ checksOf (a.inSources peerID) a.policies ∨
          c.id ∈ checksOf (·.sourceResource = ⟨peerID, .peer⟩) a.policies → c ∈ checks) ↔
      a.SourcesFound peerID a.policies ∧
        ∀ c ∈ a.postureChecks, c.id ∈ checksOf (·.sourceResource = ⟨peerID, .peer⟩) a.policies →
          c.id ∈ checksOf (a.inSources peerID) a.policies := by
  simp only [Account.getPeerPostureChecks, Option.map_eq_some_iff, peerPostureChecksIDs_eq_some]
  constructor
  · rintro ⟨_, ⟨_, ⟨hf, rfl⟩, rfl⟩, h⟩
    refine ⟨hf, fun c hc hn => ?_⟩
    exact of_decide_eq_true (mem_filter.mp (h c hc (.inr hn))).2
  · rintro ⟨hf, h⟩
    refine ⟨_, ⟨_, ⟨hf, rfl⟩, rfl⟩, fun c hc ha => mem_filter.mpr ⟨hc, decide_eq_true ?_⟩⟩
    exact ha.elim id (h c hc)

/-- One policy with one check and one rule. -/
def checkedAccount (rule : PolicyRule) : Account where
  peers := ⟨[], by decide⟩
  groups := ⟨[{ id := "g", peers := ["p"] }], by decide⟩
  routes := ⟨[], by decide⟩
  policies := [{ id := "a", rules := [rule], sourcePostureChecks := ["c"] }]
  postureChecks := [⟨"c", [], by decide⟩]

/-- The peer is not told about the check if the rule names it. -/
theorem no_postureCheck_of_name :
    (checkedAccount { id := "r", sourceResource := ⟨"p", .peer⟩ }).getPeerPostureChecks "p" =
      some [] := rfl

end AccountModel

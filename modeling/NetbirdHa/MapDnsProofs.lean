import NetbirdHa.NetipProofs
import NetbirdHa.SymmetryProofs

/-! # The DNS configuration of a network map

Both computations of a network map end with the DNS configuration: whether the
peer's DNS is managed, the records of the peers it has, the zones distributed to
its groups and its nameserver groups.

The account takes the records of the peers that the map lists.  The components take
those of the peers that the policies lead to, before the peers of network resources
are known, and also of embedded peers, which no map lists.  Nameservers are told
apart by address in the one and by text in the other.  `dns_agrees_iff` says that
nothing else can differ. -/

namespace MapDns

open AccountModel Agreement Components Connection Netip List Routes Table Account

/-- `nbdns.SimpleRecord`; the class is always the same. -/
structure SimpleRecord where
  name : String
  type : Nat
  ttl : Int
  rData : String
deriving DecidableEq

/-- `nbdns.CustomZone`. -/
structure CustomZone where
  domain : String := ""
  records : List SimpleRecord := []
  searchDomainDisabled : Bool := false
  nonAuthoritative : Bool := false
deriving DecidableEq

/-- The types a record may have. -/
inductive RecordType where
  | a
  | aaaa
  | cname
  | unknown

/-- `records.Record`. -/
structure Record where
  name : String
  type : RecordType
  content : String
  ttl : Int := 300

/-- `zones.Zone`. -/
structure Zone where
  domain : String
  enabled : Bool := true
  enableSearchDomain : Bool := false
  distributionGroups : List String := []
  records : List Record := []

/-- `nbdns.NameServerGroup`, with the addresses of its servers. -/
structure NameServerGroup where
  name : String
  enabled : Bool := true
  groups : List String := []
  nameServers : List Addr := []
deriving DecidableEq

/-- An account with what its peers resolve names with. -/
structure DnsAccount extends Account where
  nameServerGroups : List NameServerGroup := []
  disabledManagementGroups : List String := []
  zones : List Zone := []

/-- `nbdns.Config`; its `CustomZones` are the peers' zone and then the account zones. -/
structure Config where
  serviceEnable : Bool := false
  peersZone : Option CustomZone := none
  accountZones : List CustomZone := []
  nameServerGroups : List NameServerGroup := []

variable (fqdn : String → String) (a : DnsAccount) (zone : CustomZone) (vp : Validated)

/-- The record as it is sent; `fqdn` is `dns.Fqdn`. -/
def Record.simple (r : Record) : Option SimpleRecord :=
  match r.type with
  | .a => some ⟨fqdn r.name, 1, r.ttl, r.content⟩
  | .aaaa => some ⟨fqdn r.name, 28, r.ttl, r.content⟩
  | .cname => some ⟨fqdn r.name, 5, r.ttl, fqdn r.content⟩
  | .unknown => none

/-- `filterPeerAppliedZones`: the enabled zones with records that are distributed to one of the
    peer's groups. -/
def filterPeerAppliedZones (zones : List Zone) (peerGroups : List String) : List CustomZone :=
  (zones.filter fun z => z.enabled && z.records ≠ [] &&
    z.distributionGroups.any (· ∈ peerGroups)).map fun z =>
      { domain := fqdn z.domain
        records := z.records.filterMap (·.simple fqdn)
        searchDomainDisabled := !z.enableSearchDomain
        nonAuthoritative := true }

/-- The configuration of a peer with these groups (`getPeerDNSManagementStatus`): the zones
    go by the groups `zoneGroups`. -/
def config (peerGroups zoneGroups : List String) (peersZone : Option CustomZone)
    (nameServerGroups : List NameServerGroup) : Config :=
  if a.disabledManagementGroups.any (· ∈ peerGroups) then {}
  else ⟨true, peersZone, filterPeerAppliedZones fqdn a.zones zoneGroups, nameServerGroups⟩

/-! ## Over the account -/

/-- `filterZoneRecordsForPeers`: the records of the peer and of those it may know of. -/
def filterZoneRecordsForPeers (peer : Peer) (peersToConnect expiredPeers : List Peer) :
    List SimpleRecord :=
  zone.records.filter (·.rData ∈ (peer :: (peersToConnect ++ expiredPeers)).map Peer.ip)

/-- `IP.Equal` takes an IPv4 address and its IPv6 form for the same. -/
def peerIsNameserver (peer : Peer) (nsGroup : NameServerGroup) : Bool :=
  nsGroup.nameServers.any (peer.ip = ·.unmap.text)

/-- `getPeerNSGroups`. -/
def getPeerNSGroups (peer : Peer) : List NameServerGroup :=
  a.nameServerGroups.filter fun g =>
    g.enabled && g.groups.any (· ∈ a.getPeerGroups peer.id) && !peerIsNameserver peer g

/-- The DNS configuration of `GetPeerNetworkMap` with the map `nm`. -/
def accountConfig (t : String) (nm : LegacyMap.NetworkMap) : Config :=
  match a.getPeer t with
  | none => {}
  | some peer =>
    let records := filterZoneRecordsForPeers zone peer nm.peers nm.offlinePeers
    if t ∉ vp then {}
    else config fqdn a (a.getPeerGroups t) (a.getPeerGroups t)
      (if zone.domain = "" then none else some { domain := zone.domain, records })
      (getPeerNSGroups a peer)

/-! ## Over the components -/

/-- `filterDNSRecordsByPeers`, over the peers of the components. -/
def filterDNSRecordsByPeers (peers : GoMap (Option Peer)) : List SimpleRecord :=
  zone.records.filter (·.rData ∈ (peers.entries.filterMap Sigma.snd).map Peer.ip)

/-- `peerIsNameserver`, by text. -/
def peerIsNameserverText (peerIP : String) (nsGroup : NameServerGroup) : Bool :=
  nsGroup.nameServers.any (peerIP = ·.text)

/-- The nameserver groups picked for the components, and of them those of the peer. -/
def getPeerNSGroupsFromGroups (c : NetworkMapComponents) (relevant : GoMap (Option Group)) :
    List NameServerGroup :=
  match Calculate.getPeerInfo c c.peerID with
  | none => []
  | some peer =>
    (a.nameServerGroups.filter fun g => g.enabled && g.groups.any (· ∈ relevant)).filter
      fun g => g.enabled && g.groups.any (· ∈ Calculate.getPeerGroups c c.peerID) &&
        !peerIsNameserverText peer.ip g

/-- The DNS configuration of `Calculate`. -/
def calculateConfig (c : NetworkMapComponents) : Config :=
  let relevant := getPeersGroupsPoliciesRoutes a.toAccount vp c.peerID
    ((a.getPeer c.peerID).any (·.sshEnabled))
  let allDNSRecords := filterDNSRecordsByPeers zone relevant.peers
  config fqdn a (Calculate.getPeerGroups c c.peerID) (a.getPeerGroups c.peerID)
    (if zone.domain ≠ "" ∧ allDNSRecords ≠ [] then
      some { domain := zone.domain, records := allDNSRecords }
    else none)
    (getPeerNSGroupsFromGroups a c relevant.groups)

/-! ## Both -/

variable (env : Env) (t : String) (rp : PolicyMap) (rr : Routers) (gu : UserMap)

/-- The DNS configuration of `GetPeerNetworkMap`. -/
def accountDns : Except GoPanic Config :=
  (LegacyMap.getPeerNetworkMap env a.toAccount t vp rp rr gu).map (accountConfig fqdn a zone vp t)

/-- The DNS configuration of `GetPeerNetworkMapFromComponents`. -/
def componentsDns : Except GoPanic Config :=
  (getPeerNetworkMapComponents a.toAccount t vp rp rr gu).map fun oc =>
    (oc.map (calculateConfig fqdn a zone vp)).getD {}

/-- The records of the peers' zone. -/
def Config.records (d : Config) : List SimpleRecord := (d.peersZone.map (·.records)).getD []

/-- The same flag, records, account zones and nameserver groups. -/
def Config.Same (d d' : Config) : Prop :=
  d.serviceEnable = d'.serviceEnable ∧ SameSet d.records d'.records ∧
    d.accountZones = d'.accountZones ∧ SameSet d.nameServerGroups d'.nameServerGroups

/-- The side names the peer, or the peer is not embedded. -/
def Counts (res : Resource) (q : String) : Prop :=
  res.IsPeer ∨ ∀ p, a.getPeer q = some p → p.embedded = false

/-- A rule has the target on one side and `q` on the other, and both count. -/
def ListedByRule (q : String) : Prop :=
  ∃ pr ∈ activeRules a.policies,
    ((InSources a.toAccount vp t pr.1 pr.2 ∧ Counts a pr.2.sourceResource t) ∧
      OnSide a.toAccount vp t pr.2.destinationResource pr.2.destinations [] q ∧
        Counts a pr.2.destinationResource q) ∨
    ((InDestinations a.toAccount vp t pr.2 ∧ Counts a pr.2.destinationResource t) ∧
      OnSide a.toAccount vp t pr.2.sourceResource pr.2.sources pr.1.sourcePostureChecks q ∧
        Counts a pr.2.sourceResource q)

/-- A source of a resource that the target routes, or a router of one it is a client of. -/
def ResourcePeerOf (q : String) : Prop :=
  LegacySource a.toAccount rp rr t q ∨ LegacyRouter a.toAccount rp rr t q

/-- The record has the address of the peer. -/
def HasAddress (r : SimpleRecord) (q : String) : Prop := ∃ p, a.getPeer q = some p ∧ p.ip = r.rData

/-- Where the two can differ, another peer has the address of the record, too. -/
structure RecordsClear : Prop where
  /-- A peer of a resource with a record, or another one with its address, is one that rules
      lead to. -/
  resources : ∀ r ∈ zone.records, ∀ q, ResourcePeerOf a t rp rr q → HasAddress a r q →
    ∃ q', (q' = t ∨ RulePeer a.toAccount vp t q') ∧ HasAddress a r q'
  /-- A peer that rules lead to with a record, or another one with its address, counts in a rule or
      is one of a resource. -/
  embedded : ∀ r ∈ zone.records, ∀ q, RulePeer a.toAccount vp t q → HasAddress a r q →
    ∃ q', (q' = t ∨ ListedByRule a vp t q' ∨ ResourcePeerOf a t rp rr q') ∧ HasAddress a r q'

/-- No nameserver group of the peer has the peer's address in another form only. -/
def NameserversClear (peer : Peer) : Prop :=
  ∀ g ∈ a.nameServerGroups, g.enabled → (∃ gid ∈ g.groups, gid ∈ a.getPeerGroups peer.id) →
    (peerIsNameserver peer g ↔ peerIsNameserverText peer.ip g)

variable {fqdn a zone vp env t rp rr gu} {c : NetworkMapComponents} {peer : Peer} {ssh : Bool}

open Config

/-! ## The peers that the map of the account lists -/

theorem account_found_iff {res : Resource} {groups checks : List String}
    (ht : a.getPeer t = some peer) : (LegacyMap.side a.toAccount vp t res groups checks).2 ↔
      Stands a.toAccount vp t res groups checks ∧ Counts a res t := by
  by_cases hr : res.IsPeer
  · simp [LegacyMap.side_direct_found hr, ht, Stands, Counts, hr]
  · simp [LegacyMap.side_groups_found hr ht, Stands, Counts, hr, ht, and_comm, and_assoc]

theorem mem_account_side_iff {res : Resource} {groups checks : List String} {p : Peer} :
    p ∈ (LegacyMap.side a.toAccount vp t res groups checks).1 ↔
      (a.getPeer p.id = some p ∧ p.id ≠ t) ∧
        OnSide a.toAccount vp t res groups checks p.id ∧ Counts a res p.id := by
  by_cases hr : res.IsPeer
  · rw [LegacyMap.mem_side_direct hr]
    simp only [OnSide, Counts, hr, if_true, true_or, and_true]
    grind [id_of_getPeer]
  · rw [LegacyMap.mem_side_groups hr]
    simp only [OnSide, Counts, hr, if_false, false_or]
    grind

/-- The peers that rules connect the target to. -/
theorem mem_account_aclPeers_iff {p : Peer} (ht : a.getPeer t = some peer) :
    p ∈ (legacyGen env a.toAccount vp gu peer).peers ↔
      (a.getPeer p.id = some p ∧ p.id ≠ t) ∧ ListedByRule a vp t p.id := by
  rw [mem_legacy_aclPeers ht]
  simp only [mem_facing, LegacyMap.sides, account_found_iff ht, mem_account_side_iff,
    ListedByRule, InSources, InDestinations]
  grind

/-- **The peers of the map**, online or not: those of rules and those of resources. -/
theorem mem_map_peers_iff {nm : LegacyMap.NetworkMap} {p : Peer} (ht : a.getPeer t = some peer)
    (hv : t ∈ vp) (hnm : LegacyMap.getPeerNetworkMap env a.toAccount t vp rp rr gu = .ok nm) :
    p ∈ nm.peers ++ nm.offlinePeers ↔ (a.getPeer p.id = some p ∧ p.id ≠ t) ∧
      (ListedByRule a vp t p.id ∨ ResourcePeerOf a t rp rr p.id) := by
  cases hm : (legacySync env a.toAccount t rp rr).routes.mapM id with
  | none => simp [LegacyMap.getPeerNetworkMap, ht, hv, hm] at hnm
  | some routes =>
    have hs := isSome_of_mapM_id hm
    obtain ⟨_, hm', hr⟩ := exists_mapM_id hs
    cases hm.symm.trans hm'
    rw [LegacyMap.map_of_routes ht hv hm] at hnm
    cases hnm
    have hacl := fun p => @mem_account_aclPeers_iff a vp env t gu peer p ht
    dsimp only
    rw [mem_append, mem_addNetworksRoutingPeers, mem_filter, mem_filter, hacl]
    constructor
    · rintro ((⟨h, -⟩ | ⟨q, hq, hne, -, hp⟩) | ⟨h, -⟩)
      · exact ⟨h.1, .inl h.2⟩
      · obtain rfl := id_of_getPeer hp
        exact ⟨⟨hp, hne⟩, .inr ((legacyExtra_iff hr hs hp hne).mp hq)⟩
      · exact ⟨h.1, .inl h.2⟩
    · rintro ⟨hp, h⟩
      by_cases ha : ListedByRule a vp t p.id
      · cases he : a.settings.peerExpired env p with
        | true => exact .inr ⟨⟨hp, ha⟩, rfl⟩
        | false => exact .inl (.inl ⟨⟨hp, ha⟩, rfl⟩)
      · -- it is not among those of the rules, so it is added
        refine .inl (.inr ⟨p.id, (legacyExtra_iff hr hs hp.1 hp.2).mpr (h.resolve_left ha), hp.2,
          fun x hx hi => ha ?_, hp.1⟩)
        have hx' : x ∈ (legacyGen env a.toAccount vp gu peer).peers := by
          rcases mem_append.mp hx with hx | hx <;> exact (mem_filter.mp hx).1
        exact hi ▸ ((hacl x).mp hx').2

/-! ## Records and nameservers -/

theorem mem_filterDNSRecordsByPeers :
    r ∈ filterDNSRecordsByPeers zone (getPeersGroupsPoliciesRoutes a.toAccount vp t ssh).peers ↔
      r ∈ zone.records ∧
        ∃ q, (q = t ∨ RulePeer a.toAccount vp t q) ∧ HasAddress a r q := by
  have hl : ∀ q v, ⟨q, v⟩ ∈ (getPeersGroupsPoliciesRoutes a.toAccount vp t ssh).peers.entries ↔
      (q = t ∨ RulePeer a.toAccount vp t q) ∧ a.getPeer q = v := by
    intro q v
    rw [← @mem_relevant_peers a.toAccount vp t q ssh, ← AList.mem_lookup_iff]
    simp [getPeersGroupsPoliciesRoutes, lookup_insertAll, mem_insertAll, or_false]
  simp only [filterDNSRecordsByPeers, mem_filter, decide_eq_true_eq, mem_map, mem_filterMap]
  refine and_congr_right fun _ => ⟨?_, ?_⟩
  · rintro ⟨p, ⟨⟨q, v⟩, hm, rfl⟩, hi⟩
    exact ⟨q, ((hl q _).mp hm).1, p, ((hl q _).mp hm).2, hi⟩
  · rintro ⟨q, hq, p, hp, hi⟩
    exact ⟨p, ⟨⟨q, some p⟩, (hl q _).mpr ⟨hq, hp⟩, rfl⟩, hi⟩

theorem same_records_iff :
    SameSet (((if zone.domain = "" then none else some { domain := zone.domain, records := l }).map
        CustomZone.records).getD [])
      (((if zone.domain ≠ "" ∧ l' ≠ [] then some { domain := zone.domain, records := l' }
        else none).map CustomZone.records).getD []) ↔ (zone.domain ≠ "" → SameSet l l') := by
  by_cases hz : zone.domain = ""
  · simp [hz, SameSet.refl]
  · by_cases hl : l' = [] <;> simp [hz, hl]

/-- The groups of the peer are all relevant, so only the texts make a difference. -/
theorem same_nameServerGroups_iff (k : Knows a.toAccount vp rp rr t c)
    (hp : a.getPeer t = some peer) : SameSet (getPeerNSGroups a peer) (getPeerNSGroupsFromGroups a c
      (getPeersGroupsPoliciesRoutes a.toAccount vp t ssh).groups) ↔ NameserversClear a peer := by
  have hi : Calculate.getPeerInfo c c.peerID = some peer := by
    rw [k.peerID]
    exact (Calculate.getPeerInfo_eq_some k).mpr ⟨.inl rfl, hp⟩
  rw [getPeerNSGroupsFromGroups, hi, k.peerID, getPeerNSGroups]
  simp only [SameSet, mem_filter, Bool.and_eq_true, any_eq_true, decide_eq_true_eq,
    Bool.not_eq_true', mem_getPeerGroups k, mem_relevant_groups, id_of_getPeer hp,
    NameserversClear]
  have hb : ∀ {G E M R : Prop} {n m : Bool}, (M → R) →
      ((G ∧ (E ∧ M) ∧ n = false ↔ (G ∧ E ∧ R) ∧ (E ∧ M) ∧ m = false) ↔ (G → E → M → (n ↔ m))) := by
    intro G E M R n m h
    cases n <;> cases m <;> simp <;> tauto
  refine forall_congr' fun g => hb ?_
  rintro ⟨gid, hg, hm⟩
  exact ⟨gid, hg, .inl hm⟩

theorem ok_of_map {x : Except ε α} (h : x.map f = .ok b) : ∃ v, x = .ok v ∧ f v = b := by
  cases x with
  | error e => cases h
  | ok v => exact ⟨v, rfl, Except.ok.inj h⟩

/-- A rule whose peers count leads to them. -/
theorem rulePeer_of_listed {q : String} (h : ListedByRule a vp t q) :
    RulePeer a.toAccount vp t q := by
  obtain ⟨pr, hpr, h⟩ := h
  exact ⟨pr, hpr, h.imp (fun h => ⟨h.1.1, h.2.1⟩) fun h => ⟨h.1.1, h.2.1⟩⟩

/-- The records of the peers that the map lists. -/
theorem mem_filterZoneRecordsForPeers {nm : LegacyMap.NetworkMap} (hp : a.getPeer t = some peer)
    (hv : t ∈ vp) (hnm : LegacyMap.getPeerNetworkMap env a.toAccount t vp rp rr gu = .ok nm) :
    r ∈ filterZoneRecordsForPeers zone peer nm.peers nm.offlinePeers ↔ r ∈ zone.records ∧
      ∃ q, (q = t ∨ ListedByRule a vp t q ∨ ResourcePeerOf a t rp rr q) ∧ HasAddress a r q := by
  simp only [filterZoneRecordsForPeers, mem_filter, decide_eq_true_eq, mem_map, mem_cons,
    mem_map_peers_iff hp hv hnm]
  refine and_congr_right fun _ => ⟨?_, ?_⟩
  · rintro ⟨p, rfl | ⟨hg, hl⟩, hi⟩
    · exact ⟨t, .inl rfl, p, hp, hi⟩
    · exact ⟨p.id, .inr hl, p, hg.1, hi⟩
  · rintro ⟨q, hq, p, hg, hi⟩
    obtain rfl := id_of_getPeer hg
    by_cases ht : p.id = t
    · exact ⟨p, .inl (Option.some.inj (hg.symm.trans (ht ▸ hp))), hi⟩
    · exact ⟨p, .inr ⟨⟨hg, ht⟩, hq.resolve_left ht⟩, hi⟩

/-- The records agree exactly if no difference between the peers shows in them. -/
theorem same_peer_records_iff {nm : LegacyMap.NetworkMap} (hp : a.getPeer t = some peer)
    (hv : t ∈ vp) (hnm : LegacyMap.getPeerNetworkMap env a.toAccount t vp rp rr gu = .ok nm) :
    SameSet (filterZoneRecordsForPeers zone peer nm.peers nm.offlinePeers)
      (filterDNSRecordsByPeers zone (getPeersGroupsPoliciesRoutes a.toAccount vp t ssh).peers) ↔
        RecordsClear a zone vp t rp rr := by
  simp only [SameSet, mem_filterZoneRecordsForPeers hp hv hnm, mem_filterDNSRecordsByPeers,
    and_congr_right_iff]
  constructor
  · intro h
    exact ⟨fun r hr q hq ha => (h r hr).mp ⟨q, .inr (.inr hq), ha⟩,
      fun r hr q hq ha => (h r hr).mpr ⟨q, .inr hq, ha⟩⟩
  · intro h r hr
    constructor
    · rintro ⟨q, rfl | hq | hq, ha⟩
      · exact ⟨q, .inl rfl, ha⟩
      · exact ⟨q, .inr (rulePeer_of_listed hq), ha⟩
      · exact h.resources r hr q hq ha
    · rintro ⟨q, rfl | hq, ha⟩
      · exact ⟨q, .inl rfl, ha⟩
      · exact h.embedded r hr q hq ha

/-- **The DNS configurations.**  Records and nameserver groups agree exactly where no peer of a
    resource and no embedded peer makes a difference to the records, and no nameserver is the peer
    in another form; all else agrees. -/
theorem dns_agrees_iff {d d' : Config} (hd : accountDns fqdn a zone vp env t rp rr gu = .ok d)
    (hd' : componentsDns fqdn a zone vp t rp rr gu = .ok d') :
    d.Same d' ↔ ∀ peer, a.getPeer t = some peer → t ∈ vp →
      a.disabledManagementGroups.any (· ∈ a.getPeerGroups t) = false →
        (zone.domain ≠ "" → RecordsClear a zone vp t rp rr) ∧ NameserversClear a peer := by
  obtain ⟨nm, hnm, rfl⟩ := ok_of_map hd
  obtain ⟨oc, ho, rfl⟩ := ok_of_map hd'
  have hm : Calculate.getPeerNetworkMapFromComponents env a.toAccount t vp rp rr gu = _ :=
    congrArg (Except.map _) ho
  obtain ⟨hn, -⟩ | ⟨c, hc, k, -⟩ := Calculate.map_cases hm
  · rw [Calculate.components_none hn] at ho
    cases ho
    have he : accountConfig fqdn a zone vp t nm = {} := by grind [accountConfig]
    rw [he]
    refine iff_of_true ⟨rfl, SameSet.refl _, rfl, SameSet.refl _⟩ fun peer hp hv => ?_
    exact absurd ⟨hv, by simp [hp]⟩ hn
  · cases ho.symm.trans hc
    obtain ⟨peer, hp⟩ := k.target
    simp only [accountConfig, hp, k.isValidated, not_true_eq_false, if_false, Option.map_some,
      Option.getD_some, calculateConfig, k.peerID]
    simp only [config, mem_getPeerGroups k]
    cases a.disabledManagementGroups.any (· ∈ a.getPeerGroups t) with
    | true => simp [Config.Same, records, SameSet.refl]
    | false =>
      simp only [Config.Same, records, Bool.false_eq_true, if_false]
      rw [same_records_iff, same_nameServerGroups_iff k hp,
        same_peer_records_iff hp k.isValidated hnm]
      grind

/-- Two routers of a network whose only source is the second one. -/
def routersDns : DnsAccount := { toAccount := Symmetry.routersAccount ["p2"] }

/-- A zone with the records. -/
def zoneOf (records : List SimpleRecord) : CustomZone := { domain := "example.", records }

/-- The record of peer `one`. -/
def ownRecord : SimpleRecord := ⟨"one", 1, 300, "100.64.0.1"⟩

/-- A peer, and behind another one that a rule leads to a resource. -/
def pairDns : DnsAccount :=
  { toAccount := pairAccount false [{ id := "res", networkID := "n" }] }

/-- The records of both. -/
def pairZone : CustomZone := zoneOf [ownRecord, ⟨"two", 1, 300, "100.64.0.2"⟩]

/-- Both configurations have both records. -/
theorem pair_records_agree :
    let rp := getResourcePoliciesMap pairDns.toAccount
    let rr := getResourceRoutersMap pairDns.toAccount
    ∃ d d', accountDns id pairDns pairZone ["p1", "p2"] plainEnv "p1" rp rr ∅ = .ok d ∧
      componentsDns id pairDns pairZone ["p1", "p2"] "p1" rp rr ∅ = .ok d' ∧
        d.records = pairZone.records ∧ d.Same d' := by
  have hl : ListedByRule pairDns ["p1", "p2"] "p1" "p2" := by
    refine ⟨_, mem_cons_self, .inl ⟨⟨?_, .inr ?_⟩, ?_, .inr ?_⟩⟩
    · unfold InSources Stands
      decide +kernel
    · rintro _ ⟨⟩
      rfl
    · unfold OnSide
      decide +kernel
    · rintro _ ⟨⟩
      rfl
  obtain ⟨d, hd, hr⟩ := exists_ok_of_map (f := records) (b := pairZone.records)
    (x := accountDns id pairDns pairZone ["p1", "p2"] plainEnv "p1"
      (getResourcePoliciesMap pairDns.toAccount) (getResourceRoutersMap pairDns.toAccount) ∅)
    (by decide +kernel)
  obtain ⟨d', hd', -⟩ := exists_ok_of_map (f := serviceEnable) (b := true)
    (x := componentsDns id pairDns pairZone ["p1", "p2"] "p1"
      (getResourcePoliciesMap pairDns.toAccount) (getResourceRoutersMap pairDns.toAccount) ∅)
    (by decide +kernel)
  refine ⟨d, d', hd, hd', hr, (dns_agrees_iff hd hd').mpr fun _ _ _ _ =>
    ⟨fun _ => ⟨fun r hr _ _ _ => ?_, fun r hr _ _ _ => ?_⟩, fun g hg => nomatch hg⟩⟩
  · rcases mem_pair.mp hr with rfl | rfl
    · exact ⟨"p1", .inl rfl, _, rfl, rfl⟩
    · exact ⟨"p2", .inr (rulePeer_of_listed hl), _, rfl, rfl⟩
  · rcases mem_pair.mp hr with rfl | rfl
    · exact ⟨"p1", .inl rfl, _, rfl, rfl⟩
    · exact ⟨"p2", .inr (.inl hl), _, rfl, rfl⟩

/-- The source is a peer of the first router; its record is missing from the configuration
    of the components. -/
theorem source_without_record :
    let zone := zoneOf [ownRecord, ⟨"two", 1, 300, "100.64.0.2"⟩]
    let rp := Routes.getResourcePoliciesMap routersDns.toAccount
    let rr := Routes.getResourceRoutersMap routersDns.toAccount
    (accountDns id routersDns zone ["p1", "p2"] plainEnv "p1" rp rr ∅).toOption.map records =
        some zone.records ∧
      (componentsDns id routersDns zone ["p1", "p2"] "p1" rp rr ∅).toOption.map records =
        some [ownRecord] := by
  decide +kernel

end MapDns

import NetbirdHa.SidesProofs

/-! # Only validated peers

A peer reaches the map of the components through a policy, as a router of a
network resource, or as a source of one.  Every way but one asks for
validation: a rule that names a peer directly does not.  So all peers of the
map are validated exactly when no unvalidated peer is named opposite the
target (`onlyValidated_iff`).

There is no map at all, but a panic, if a group is gone that routes or policies
still name (`map_isOk_iff`); the account's own computation skips such a group. -/

namespace Calculate

open Table AccountModel Routes LegacyMap Components List Account

section

variable {env : Env} {a : Account} {vp : Validated} {rp : PolicyMap} {rr : Routers} {t : String}
  {c : NetworkMapComponents}

/-- A known peer is validated, or named opposite the target. -/
theorem validated_of_known (ht : t ∈ vp) (h : Known a vp rp rr t q) :
    q ∈ vp ∨ FacesDirectly a vp t q := by
  rcases h with rfl | ⟨pr, hp, ⟨hi, ho⟩ | ⟨hi, ho⟩⟩ | ⟨res, -, pol, -, h⟩
  · exact .inl ht
  · rw [OnSide] at ho
    split at ho
    · next hr => exact .inr ⟨pr, hp, .inl ⟨hi, hr, ho.symm⟩⟩
    · exact .inl ho.2.1.1
  · rw [OnSide] at ho
    split at ho
    · next hr => exact .inr ⟨pr, hp, .inr ⟨hi, hr, ho.symm⟩⟩
    · exact .inl ho.2.1.1
  · rcases h with ⟨-, hv, -⟩ | ⟨pol', -, -, hu⟩
    · exact .inl hv
    · exact .inl hu.1

/-- A peer named opposite the target is known. -/
theorem known_of_facesDirectly (h : FacesDirectly a vp t q) : Known a vp rp rr t q := by
  obtain ⟨pr, hp, ⟨hin, hr, hi⟩ | ⟨hin, hr, hi⟩⟩ := h
  · exact .inr (.inl ⟨pr, hp, .inl ⟨hin, by rw [OnSide, if_pos hr]; exact hi.symm⟩⟩)
  · exact .inr (.inl ⟨pr, hp, .inr ⟨hin, by rw [OnSide, if_pos hr]; exact hi.symm⟩⟩)

variable (k : Knows a vp rp rr t c)

include k

theorem getPeerOrRouter_eq_some (h : getPeerOrRouter c q = some p) : a.getPeer q = some p := by
  rcases Option.or_eq_some_iff.mp h with h | ⟨-, h⟩
  · exact ((getPeerInfo_eq_some k).mp h).2
  · exact k.routerPeers q p h

/-- The routes to resources lead through known peers. -/
theorem known_of_mem_routes (h : r ∈ (getNetworkResourcesRoutesToSync env c t).routes) :
    Known a vp rp rr t r.peerID := by
  have hm : ∀ {res : NetworkResource} {q : String} {router : NetworkRouter},
      r ∈ getNetworkResourcesRoutes env c res q router → Known a vp rp rr t r.peerID := by
    intro res q router hr
    rw [getNetworkResourcesRoutes] at hr
    split at hr
    · cases hr
    cases hi : getPeerInfo c q with
    | none => rw [hi] at hr; cases hr
    | some p =>
      rw [hi] at hr
      obtain ⟨hk, hp⟩ := (getPeerInfo_eq_some k).mp hi
      rw [mem_singleton.mp hr, networkResourceToRoute_peerID, id_of_getPeer hp]
      exact hk
  obtain ⟨res, -, -, ⟨router, -, hr⟩ | ⟨-, q, router, -, hr⟩⟩ := mem_sync_routes.mp h
  · exact hm hr
  · exact hm hr

/-- Every peer of the map is a known peer of the account. -/
theorem known_of_mem_peers (h : p ∈ (calculate env c).peers ++ (calculate env c).offlinePeers) :
    Known a vp rp rr t p.id ∧ a.getPeer p.id = some p := by
  have ha : ∀ {p : Peer}, p ∈ (componentGen env c t).peers →
      Known a vp rp rr t p.id ∧ a.getPeer p.id = some p := by
    grind [mem_aclPeers, known_of_mem_facing]
  simp only [calculate, k.peerID] at h
  rcases mem_append.mp h with h | h
  · rcases mem_addNetworksRoutingPeers.mp h with h | ⟨q, hq, -, -, hp⟩
    · exact ha (mem_filter.mp h).1
    have hp' := getPeerOrRouter_eq_some k hp
    obtain rfl := id_of_getPeer hp'
    refine ⟨?_, hp'⟩
    rcases hq with ⟨-, hq⟩ | hq
    · obtain ⟨res, -, -, -, pol, -, -, hv⟩ := mem_sync_sourcePeers.mp hq
      exact ((validate_eq_true k).mp hv).1
    · obtain ⟨r, hr, hi⟩ := mem_map.mp hq
      rw [← hi]
      exact known_of_mem_routes k hr
  · exact ha (mem_filter.mp h).1

/-- The peers that policies connect to are peers of the map, online or not. -/
theorem mem_peers_of_aclPeers (h : p ∈ (componentGen env c t).peers) :
    p ∈ (calculate env c).peers ++ (calculate env c).offlinePeers := by
  simp only [calculate, k.peerID]
  grind [mem_addNetworksRoutingPeers]

/-- A peer named opposite the target is one that policies connect to. -/
theorem mem_aclPeers_of_direct (hp : a.getPeer q = some p) (hq : q ≠ t)
    (h : FacesDirectly a vp t q) : p ∈ (componentGen env c t).peers := by
  obtain ⟨pr, hpr, hd⟩ := id h
  exact (mem_aclPeers k).mpr ⟨pr, hpr, relevant_of_sides hpr (hd.imp And.left And.left),
    mem_facing_of_direct k hp hq (known_of_facesDirectly h) hd⟩

end

/-! ## The result -/

/-- The map has validated peers only: online, offline, and behind the addresses of
    its firewall rules. -/
def OnlyValidated (a : Account) (vp : Validated) (nm : NetworkMap) : Prop :=
  (∀ p ∈ nm.peers ++ nm.offlinePeers, p.id ∈ vp) ∧
    ∀ fr ∈ nm.firewallRules, ∀ p ∈ a.peers.entries, p.ip = fr.peerIP → p.id ∈ vp

/-- No unvalidated peer of the account is named opposite the target. -/
def DirectPeersValidated (a : Account) (vp : Validated) (t : String) : Prop :=
  ∀ q, FacesDirectly a vp t q → (a.getPeer q).isSome → q ∈ vp

section

variable {env : Env} {a : StoredAccount} {vp : Validated}
  {rp : PolicyMap} {rr : Routers} {t : String} {c : NetworkMapComponents}

theorem onlyValidated_calculate (k : Knows a vp rp rr t c) :
    OnlyValidated a vp (calculate env c) ↔ DirectPeersValidated a vp t := by
  constructor
  · rintro ⟨hpe, -⟩ q hf hs
    obtain ⟨p, hp⟩ := Option.isSome_iff_exists.mp hs
    obtain rfl := id_of_getPeer hp
    by_cases hn : p.id = t
    · rw [hn]
      exact k.isValidated
    · exact hpe p (mem_peers_of_aclPeers k (mem_aclPeers_of_direct k hp hn hf))
  · intro h
    have hva : ∀ p : Peer, p ∈ (calculate env c).peers ++ (calculate env c).offlinePeers →
        p.id ∈ vp := by
      intro p hp
      obtain ⟨hk, hg⟩ := known_of_mem_peers k hp
      rcases validated_of_known k.isValidated hk with hv | hf
      · exact hv
      · exact h p.id hf (by simp [hg])
    refine ⟨hva, ?_⟩
    intro fr hfr p hp hi
    simp only [calculate, k.peerID] at hfr
    obtain ⟨p', hp', hi'⟩ := origin_of_mem_firewallRules k hfr
    have hm := mem_peers_of_aclPeers k hp'
    have hg := Keyed.mem_of_get (known_of_mem_peers k hm).2
    rw [a.eq_of_ip hp hg (hi.trans hi')]
    exact hva p' hm

/-- **The map has validated peers only, exactly when no unvalidated peer is named opposite the
    target.**  A target that is not in the account or not validated has an empty map. -/
theorem onlyValidated_iff {gu : GoMap (List String)} {nm : NetworkMap}
    (h : getPeerNetworkMapFromComponents env a.toAccount t vp rp rr gu = .ok nm) :
    OnlyValidated a.toAccount vp nm ↔
      (t ∈ vp ∧ (a.getPeer t).isSome → DirectPeersValidated a.toAccount vp t) := by
  rcases map_cases h with ⟨hv, rfl⟩ | ⟨c, -, k, rfl⟩
  · exact iff_of_true ⟨nofun, nofun⟩ (absurd · hv)
  · obtain ⟨p, hp⟩ := k.target
    rw [onlyValidated_calculate k]
    exact ⟨fun h _ => h, fun h => h ⟨k.isValidated, by simp [hp]⟩⟩

end

/-- A rule from the group of `p1` to the peer `p2`. -/
def directAccount : StoredAccount where
  peers := ⟨[{ id := "p1", key := "k1", ip := "100.64.0.1" },
    { id := "p2", key := "k2", ip := "100.64.0.2" }], by decide⟩
  groups := ⟨[{ id := "g", peers := ["p1"] }], by decide⟩
  policies :=
    [{ id := "pol"
       rules :=
         [{ id := "r", sources := ["g"], destinationResource := { id := "p2", type := .peer } }] }]
  routes := ⟨[], nodup_nil⟩
  ips_nodup := by decide
  keys_nodup := by decide
  resourceIDs := colon_nil

/-- With both peers validated, so is every peer of the map. -/
theorem onlyValidated_named_peer :
    ∃ nm, getPeerNetworkMapFromComponents plainEnv directAccount.toAccount "p1" ["p1", "p2"]
        (getResourcePoliciesMap directAccount.toAccount)
        (getResourceRoutersMap directAccount.toAccount) ∅ = .ok nm ∧
      nm.peers.map Peer.id = ["p2"] ∧ OnlyValidated directAccount.toAccount ["p1", "p2"] nm := by
  refine (exists_ok_of_map (f := fun nm => nm.peers.map Peer.id) (by decide +kernel)).imp
    fun nm hn => ⟨hn.1, hn.2, (onlyValidated_iff hn.1).mpr fun _ q _ hq => ?_⟩
  obtain ⟨p, hp⟩ := Option.isSome_iff_exists.mp hq
  have ha : ∀ p ∈ directAccount.peers.entries, p.id ∈ ["p1", "p2"] := by decide
  rw [← id_of_getPeer hp]
  exact ha p (Keyed.mem_of_get hp)

/-- The rule connects `p1` to `p2`, though `p2` is not validated. -/
theorem named_peer_not_validated :
    ∃ nm, getPeerNetworkMapFromComponents plainEnv directAccount.toAccount "p1" ["p1"]
        (getResourcePoliciesMap directAccount.toAccount)
        (getResourceRoutersMap directAccount.toAccount) ∅ = .ok nm ∧
      ¬ OnlyValidated directAccount.toAccount ["p1"] nm := by
  refine (exists_ok_of_map (f := fun nm => nm.peers.map Peer.id) (b := ["p2"])
    (by decide +kernel)).imp fun nm hn => ⟨hn.1, fun h => ?_⟩
  obtain ⟨p, hp, hi⟩ := mem_map.mp (hn.2 ▸ mem_singleton_self "p2")
  have hv := h.1 p (mem_append_left _ hp)
  rw [hi] at hv
  exact absurd hv (by decide)

/-- **When there is a map.**  The components take the groups they need as they find
    them, and reading a group that is not there is a panic. -/
theorem map_isOk_iff {env : Env} {a : Account} {vp : Validated} {rp : GoMap (List Policy)}
    {rr : GoMap (GoMap NetworkRouter)} {t : String} {gu : GoMap (List String)} :
    (getPeerNetworkMapFromComponents env a t vp rp rr gu).isOk ↔
      (t ∈ vp ∧ (a.getPeer t).isSome →
        ∀ gid, RelevantGroup a vp t gid → (a.getGroup gid).isSome) := by
  constructor
  · intro ho hv gid hgi
    cases hm : getPeerNetworkMapFromComponents env a t vp rp rr gu with
    | error e => rw [hm] at ho; cases ho
    | ok nm =>
      rcases map_cases hm with ⟨hn, -⟩ | ⟨c, -, k, -⟩
      · exact absurd hv hn
      · exact Option.isSome_iff_exists.mpr (k.groupsExist gid (.inl hgi))
  · intro hg
    rw [getPeerNetworkMapFromComponents]
    by_cases hv : t ∈ vp ∧ (a.getPeer t).isSome
    · obtain ⟨p, hp⟩ := Option.isSome_iff_exists.mp hv.2
      obtain ⟨c, hc⟩ : ∃ c, getPeerNetworkMapComponents a t vp rp rr gu = .ok (some c) := by
        refine components_isOk hp hv.1 fun gid hgi => Option.isSome_iff_exists.mp ?_
        -- what a resource adds is looked up first
        rcases hgi with hgi | ⟨res, -, policies, -, pol, -, -, hgi⟩
        · exact hg hv gid hgi
        · exact hgi
      rw [hc]
      rfl
    · rw [components_none hv]
      rfl

/-- A disabled route that names a group which is gone. -/
theorem no_map_for_gone_group :
    let a := { directAccount.toAccount with
      routes := ⟨[{ id := "r", enabled := false, groups := ["gone"] }], by decide⟩ }
    (LegacyMap.getPeerNetworkMap plainEnv a "p1" ["p1"] ∅ ∅ ∅).isOk ∧
      (getPeerNetworkMapFromComponents plainEnv a "p1" ["p1"] ∅ ∅ ∅).isOk = false := by
  decide +kernel

end Calculate

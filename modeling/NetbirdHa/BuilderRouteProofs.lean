import NetbirdHa.BuilderIDProofs

/-! # Routes of the builder

A routing peer serves the routes that name it, and a copy of every route that
has it in a peer group.  The builder finds the enabled ones through its
indexes, and they are those of the account; disabled routes it does not know.

The ID of a route tells the route, over all peers of the account. -/

namespace Builder

open Table AccountModel GroupPeers Routes LegacyMap Text List Account

/-- The route that a routing peer serves for `r`: a copy under an ID of its own if
    a peer group of `r` has it, `r` itself if `r` names it. -/
def ServedAs (a : Account) (p : Peer) (r x : Route) : Prop :=
  (InGroups a.getGroup r.peerGroups p.id ∧
      x = { r with peer := p.key, peerGroups := [], id := r.id ++ ":" ++ p.id }) ∨
    (r.peer = p.id ∧ x = { r with peer := p.key })

variable {q : String} {p p' : Peer} {r x x' : Route} {res : NetworkResource}
  {router : NetworkRouter}

section

variable {a : IndexedAccount} {g : UserMap}

theorem colon_mem_append (s t : String) : ':' ∈ (s ++ ":" ++ t).toList := by simp [colon_toList]

/-- The candidates for the routes of a peer, before the key is written on them. -/
def Candidate (a : Account) (q : String) (r x : Route) : Prop :=
  (InGroups a.getGroup r.peerGroups q ∧
      x = { r with peer := q, peerGroups := [], id := r.id ++ ":" ++ q }) ∨
    (r.peer = q ∧ x = r)

/-- Candidates with the same ID are the same. -/
theorem candidate_inj (hr : r ∈ a.routes.entries) (hr' : r' ∈ a.routes.entries)
    (hx : Candidate a q r x) (hx' : Candidate a q r' x') (h : x.id = x'.id) : x = x' := by
  have he : r.id = r'.id → r = r' := Keyed.eq_of_key hr hr'
  rcases hx with ⟨-, rfl⟩ | ⟨-, rfl⟩ <;> rcases hx' with ⟨-, rfl⟩ | ⟨-, rfl⟩
  · have hi : r.id = r'.id := by simpa [String.append_left_inj] using h
    rw [he hi]
  · refine absurd ?_ (a.routeIDs_colon x' hr')
    rw [← h]
    exact colon_mem_append _ _
  · refine absurd ?_ (a.routeIDs_colon x hr)
    rw [h]
    exact colon_mem_append _ _
  · exact he h

theorem mem_routeCandidates : x ∈ routeCandidates a.getGroup q r ↔ Candidate a q r x := by
  rw [routeCandidates, mem_append, mem_filterMap, Candidate]
  refine or_congr ?_ ?_
  · constructor
    · rintro ⟨gid, hgi, h⟩
      cases hg : a.getGroup gid with
      | none => rw [hg] at h; cases h
      | some grp =>
        rw [hg] at h
        obtain ⟨hq, hx⟩ := Option.ite_none_right_eq_some.mp h
        exact ⟨⟨gid, hgi, grp, hg, hq⟩, (Option.some.inj hx).symm⟩
    · rintro ⟨⟨gid, hgi, grp, hg, hq⟩, rfl⟩
      refine ⟨gid, hgi, ?_⟩
      rw [hg]
      exact if_pos hq
  · rw [mem_ite_nil_right, mem_singleton]

/-- The routes that the account takes for a peer, before it looks which are enabled. -/
theorem mem_legacy_taken :
    y ∈ firstByKey Route.id [] (a.routes.entries.flatMap (routeCandidates a.getGroup q)) ↔
      ∃ r ∈ a.routes.entries, Candidate a q r y := by
  generalize hl : a.routes.entries.flatMap (routeCandidates a.getGroup q) = l
  have hc : ∀ y, y ∈ l ↔ ∃ r ∈ a.routes.entries, Candidate a q r y := by
    intro y
    rw [← hl, mem_flatMap]
    exact exists_congr fun r => and_congr_right fun _ => mem_routeCandidates
  have hi : ∀ y ∈ l, ∀ z ∈ l, y.id = z.id → y = z := by
    intro y hy z hz
    obtain ⟨r, hr, hy⟩ := (hc y).mp hy
    obtain ⟨r', hr', hz⟩ := (hc z).mp hz
    exact candidate_inj hr hr' hy hz
  rw [mem_firstByKey hi, hc]

variable (hp : a.getPeer q = some p)

include hp

/-- The candidates of the builder are those of the enabled routes. -/
theorem mem_routeCandidatesOf :
    x ∈ routeCandidatesOf (idx a g) q ↔ ∃ r ∈ a.routes.entries, r.enabled ∧ Candidate a q r x := by
  have hn : q ≠ "" := by
    rw [← id_of_getPeer hp]
    exact a.peerIDs_ne p (Keyed.mem_of_get hp)
  simp only [routeCandidatesOf, mem_append, mem_flatMap, mem_map, mem_groupToRoutes,
    mem_peerToRoutes hp hn, mem_peerToGroups, Candidate, mem_getPeerGroups]
  constructor
  · rintro (⟨gid, hgi, r, ⟨hr, he, hm⟩, rfl⟩ | ⟨hr, he, rfl⟩)
    · refine ⟨r, hr, he, .inl ⟨⟨gid, hm, ?_⟩, rfl⟩⟩
      refine hgi.resolve_right ?_
      rintro ⟨rfl, -⟩
      refine a.notMem_usedGroupIDs hp (mem_append_right _ ?_)
      exact mem_flatMap.mpr ⟨r, hr, mem_append_left _ hm⟩
    · exact ⟨x, hr, he, .inr ⟨rfl, rfl⟩⟩
  · rintro ⟨r, hr, he, ⟨⟨gid, hm, hg⟩, rfl⟩ | ⟨hpe, rfl⟩⟩
    · exact .inl ⟨gid, .inl hg, r, ⟨hr, he, hm⟩, rfl⟩
    · exact .inr ⟨hr, he, hpe⟩

theorem servedAs_iff : (∃ y, Candidate a q r y ∧ y.enabled ∧ { y with peer := p.key } = x) ↔
      r.enabled ∧ ServedAs a p r x := by
  obtain rfl := id_of_getPeer hp
  rw [ServedAs]
  constructor
  · grind [Candidate]
  · rintro ⟨he, ⟨hi, rfl⟩ | ⟨hpe, rfl⟩⟩
    · exact ⟨_, .inl ⟨hi, rfl⟩, he, rfl⟩
    · exact ⟨r, .inr ⟨hpe, rfl⟩, he, rfl⟩

/-- **The routes of a routing peer**, for the builder. -/
theorem mem_getRoutingPeerRoutes : x ∈ (getRoutingPeerRoutes (idx a g) q).1 ↔
    ∃ r ∈ a.routes.entries, r.enabled ∧ ServedAs a p r x := by
  have hi : ∀ y ∈ routeCandidatesOf (idx a g) q,
      ∀ z ∈ routeCandidatesOf (idx a g) q, y.id = z.id → y = z := by
    intro y hy z hz
    obtain ⟨r, hr, -, hy⟩ := (mem_routeCandidatesOf hp).mp hy
    obtain ⟨r', hr', -, hz⟩ := (mem_routeCandidatesOf hp).mp hz
    exact candidate_inj hr hr' hy hz
  simp only [getRoutingPeerRoutes, lookup_globalPeers, hp, mem_map, mem_filter,
    mem_firstByKey hi, mem_routeCandidatesOf hp]
  constructor
  · rintro ⟨y, ⟨⟨r, hr, -, hc⟩, he⟩, rfl⟩
    exact ⟨r, hr, (servedAs_iff hp).mp ⟨y, hc, he, rfl⟩⟩
  · rintro ⟨r, hr, hs⟩
    obtain ⟨y, hc, he, rfl⟩ := (servedAs_iff hp).mpr hs
    exact ⟨y, ⟨⟨r, hr, hs.1, hc⟩, he⟩, rfl⟩

/-- … and for the account. -/
theorem mem_legacy_getRoutingPeerRoutes : x ∈ (LegacyMap.getRoutingPeerRoutes a q).1 ↔
    ∃ r ∈ a.routes.entries, r.enabled ∧ ServedAs a p r x := by
  simp only [LegacyMap.getRoutingPeerRoutes, hp, routingPeerRoutes, mem_map, mem_filter,
    mem_legacy_taken]
  constructor
  · rintro ⟨y, ⟨⟨r, hr, hc⟩, he⟩, rfl⟩
    exact ⟨r, hr, (servedAs_iff hp).mp ⟨y, hc, he, rfl⟩⟩
  · rintro ⟨r, hr, hs⟩
    obtain ⟨y, hc, he, rfl⟩ := (servedAs_iff hp).mpr hs
    exact ⟨y, ⟨⟨r, hr, hc⟩, he⟩, rfl⟩

/-- The disabled routes of a routing peer, for the account. -/
theorem mem_legacy_disabled : x ∈ (LegacyMap.getRoutingPeerRoutes a q).2 ↔
    ∃ r ∈ a.routes.entries, r.enabled = false ∧ Candidate a q r x := by
  have he : ∀ {r y : Route}, Candidate a q r y → y.enabled = r.enabled := by
    rintro r y (⟨-, rfl⟩ | ⟨-, rfl⟩) <;> rfl
  simp only [LegacyMap.getRoutingPeerRoutes, hp, routingPeerRoutes, mem_map, mem_filter,
    mem_legacy_taken, Bool.not_eq_true', Bool.false_eq_true, if_false, exists_eq_right]
  grind

/-- The builder keeps no disabled routes. -/
theorem disabled_nil : (getRoutingPeerRoutes (idx a g) q).2 = [] := by
  simp only [getRoutingPeerRoutes, lookup_globalPeers, hp]
  refine filter_eq_nil_iff.mpr fun x hx => ?_
  obtain ⟨r, -, he, ⟨-, rfl⟩ | ⟨-, rfl⟩⟩ :=
    (mem_routeCandidatesOf hp).mp (mem_of_mem_firstByKey hx) <;> simp [he]

/-- No own route is left out of the view. -/
theorem mem_ownRoutes :
    x ∈ ownRoutes (idx a g) q ↔ ∃ r ∈ a.routes.entries, r.enabled ∧ ServedAs a p r x := by
  rw [ownRoutes, mem_filter, mem_getRoutingPeerRoutes hp]
  refine and_iff_left_of_imp ?_
  rintro ⟨r, hr, -, hs⟩
  have hpe : x.peerID = "" := by rcases hs with ⟨-, rfl⟩ | ⟨-, rfl⟩ <;> exact a.routes_peerID r hr
  simp [hpe]

end

/-! ## Routers of resources -/

section

variable {a : Account}

/-- The router map has enabled entries only, each for the peers that it stands for. -/
theorem router_of_lookup (h : (routingPeers (getResourceRoutersMap a) res).lookup q = some router) :
    router ∈ a.networkRouters ∧ router.enabled ∧ q ∈ routerPeerIDs a router := by
  have hi : ∀ nid m, (getResourceRoutersMap a).lookup nid = some m →
      ∀ q router, m.lookup q = some router →
        router ∈ a.networkRouters ∧ router.enabled ∧ q ∈ routerPeerIDs a router := by
    refine foldl_invariant (P := fun ms : Routers => ∀ nid m,
      ms.lookup nid = some m → ∀ q router, m.lookup q = some router →
        router ∈ a.networkRouters ∧ router.enabled ∧ q ∈ routerPeerIDs a router)
      _ _ ?_ nofun
    intro ms entry he ih nid m hm q router hr
    rcases of_lookup_insert hm with ⟨rfl, rfl⟩ | ⟨-, hm⟩
    · rw [lookup_insertAll] at hr
      split at hr
      · next hq =>
        cases hr
        obtain ⟨hme, hen⟩ := mem_filter.mp he
        exact ⟨hme, hen, hq⟩
      · cases hold : ms.lookup entry.networkID with
        | none => rw [hold] at hr; cases hr
        | some m => rw [hold] at hr; exact ih _ m hold q router hr
    · exact ih nid m hm q router hr
  rw [routingPeers] at h
  cases hm : (getResourceRoutersMap a).lookup res.networkID with
  | none => rw [hm] at h; cases h
  | some m => rw [hm] at h; exact hi _ m hm q router h

theorem enabled_of_lookup
    (h : (routingPeers (getResourceRoutersMap a) res).lookup q = some router) :
    router.enabled := (router_of_lookup h).2.1

theorem filter_enabled : (((getResourceRoutersMap a).lookup res.networkID).bind (·.lookup q)).filter
    (·.enabled) = (routingPeers (getResourceRoutersMap a) res).lookup q := by
  rw [bind_lookup_routers]
  cases h : (routingPeers (getResourceRoutersMap a) res).lookup q with
  | none => rfl
  | some router => simp [Option.filter, enabled_of_lookup h]

end

/-! ## Routes and their IDs -/

/-- Where a route of a map comes from: a routing peer serves it, or it leads to a
    resource through one of its routers. -/
def Origin (env : Env) (a : Account) (x : Route) : Prop :=
  ∃ p, a.getPeer p.id = some p ∧
    ((∃ r ∈ a.routes.entries, r.enabled ∧ ServedAs a p r x) ∨ ∃ res ∈ a.networkResources, ∃ router,
        (routingPeers (getResourceRoutersMap a) res).lookup p.id = some router ∧
          toRoute env res p router = some x)

section

variable {env : Env} {a : IndexedAccount}

/-- An ID of two parts tells both, if the first has no colon. -/
theorem split_id {x x' y y' : String} (hx : ':' ∉ x.toList) (hx' : ':' ∉ x'.toList)
    (h : x ++ ":" ++ y = x' ++ ":" ++ y') : x = x' ∧ y = y' := by
  rw [String.append_assoc, String.append_assoc] at h
  exact append_sep_inj colon_toList hx hx' h

theorem servedAs_inj {r' : Route} (hp : a.getPeer p.id = some p) (hp' : a.getPeer p'.id = some p')
    (hr : r ∈ a.routes.entries) (hr' : r' ∈ a.routes.entries) (hx : ServedAs a p r x)
    (hx' : ServedAs a p' r' x') (h : x.id = x'.id) : r = r' ∧ p = p' ∧ x = x' := by
  have hc := a.routeIDs_colon r hr
  have hc' := a.routeIDs_colon r' hr'
  grind [split_id, Keyed.eq_of_key, colon_mem_append, ServedAs]

theorem servedAs_ne_resource (hr : r ∈ a.routes.entries) (hre : res ∈ a.networkResources)
    (hx : ServedAs a p r x) (hx' : toRoute env res p' router = some x') : x.id ≠ x'.id := by
  rw [(toRoute_id hx').1]
  intro h
  rcases hx with ⟨-, rfl⟩ | ⟨-, rfl⟩
  · obtain ⟨hi, -⟩ := split_id (a.routeIDs_colon r hr) (a.resourceIDs res hre) h
    exact a.routeIDs_kind r hr res hre hi
  · exact absurd (h.symm ▸ colon_mem_append _ _ : ':' ∈ r.id.toList) (a.routeIDs_colon r hr)

/-- Resource routes with the same ID lead to the same resource through the same peer. -/
theorem resource_inj (hp : a.getPeer p.id = some p) (hp' : a.getPeer p'.id = some p')
    (hr : res ∈ a.networkResources) (hr' : res' ∈ a.networkResources)
    (hx : toRoute env res p router = some x) (hx' : toRoute env res' p' router' = some x')
    (h : x.id = x'.id) : res = res' ∧ p = p' := by
  rw [(toRoute_id hx).1, (toRoute_id hx').1] at h
  obtain ⟨hi, hpi⟩ := split_id (a.resourceIDs res hr) (a.resourceIDs res' hr') h
  exact ⟨inj_on_of_nodup_map a.resourceIDs_nodup hr hr' hi, eq_of_getPeer hp hp' hpi⟩

/-- **The ID of a route tells the route.** -/
theorem origin_inj (hx : Origin env a x) (hx' : Origin env a x') (h : x.id = x'.id) : x = x' := by
  obtain ⟨p, hp, ⟨r, hr, -, hx⟩ | ⟨res, hre, router, hl, hx⟩⟩ := hx <;>
    obtain ⟨p', hp', ⟨r', hr', -, hx'⟩ | ⟨res', hre', router', hl', hx'⟩⟩ := hx'
  · exact (servedAs_inj hp hp' hr hr' hx hx' h).2.2
  · exact absurd h (servedAs_ne_resource hr hre' hx hx')
  · exact absurd h.symm (servedAs_ne_resource hr' hre hx' hx)
  · obtain ⟨rfl, rfl⟩ := resource_inj hp hp' hre hre' hx hx' h
    cases hl.symm.trans hl'
    exact Option.some.inj (hx.symm.trans hx')

end

end Builder

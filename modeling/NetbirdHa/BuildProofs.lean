import NetbirdHa.BuilderProofs

/-! # What the builder has built

Building the views of a peer reads the indexes only, and writes the views of
this peer and the tables of rules and routes that all peers share.  So every
view is what the indexes make it (`Built`), whenever it was built, and a map
reads back the rules and routes of its view as far as no other peer has
written under the same IDs. -/

namespace Builder

open Table Index AccountModel FirewallRules List Account

/-- The indexes of a cache, without views and tables. -/
def indexes (c : NetworkMapCache) : NetworkMapCache :=
  { c with
    globalRoutes := ∅
    globalRules := ∅
    globalRouteRules := ∅
    peerACLs := ∅
    peerRoutes := ∅
    peerSSH := ∅
    acgToRoutes := ∅
    noACGRoutes := ∅ }

section

variable (env : Env) (c : NetworkMapCache) (a : Account) (validated : Validated) (p : Peer)

/-- The firewall rules of a peer's view. -/
def viewRules : List FirewallRule := (getPeerConnectionResources env c a validated p).gen.rules

/-- The routes to resources of a peer's view. -/
def resourceRoutes : List Route := (getNetworkResourcesForPeer env c a validated p).routes

/-- The routes that a peer's view takes over from connected peers. -/
def viewInherited : List Route :=
  inheritedRoutes env c p.id ((connectedPeers env c a validated p).map Peer.id)

/-- The ACL view of a peer. -/
def aclViewOf : PeerACLView where
  connectedPeerIDs := (connectedPeers env c a validated p).map Peer.id
  firewallRuleIDs := (viewRules env c a validated p).map generateFirewallRuleID

/-- The routes view of a peer. -/
def routesViewOf : PeerRoutesView where
  ownRouteIDs := (ownRoutes c p.id).map Route.id
  networkResourceIDs := (resourceRoutes env c a validated p).map Route.id
  inheritedRouteIDs := (viewInherited env c a validated p).map Route.id
  routeFirewallRuleIDs := (routeRules env c a validated p).map generateRouteFirewallRuleID

/-- All routes of a peer's view. -/
def viewRoutes : List Route :=
  ownRoutes c p.id ++ viewInherited env c a validated p ++ resourceRoutes env c a validated p

end

/-! ## One peer -/

section

variable {env : Env} {c : NetworkMapCache} {a : Account} {vp : Validated} {p : Peer} {q : String}

theorem updateACGIndexForPeer_eq (routes : List Route) :
    ∃ acgs no, updateACGIndexForPeer c q routes =
      { c with acgToRoutes := acgs, noACGRoutes := no } := by
  refine foldl_invariant (P := fun c' => ∃ acgs no,
    c' = { c with acgToRoutes := acgs, noACGRoutes := no }) _ _ ?_ ?_
  all_goals grind

/-- Building the views of a peer, field by field. -/
theorem buildPeerViews_eq (hp : a.getPeer q = some p) : ∃ acgs no ssh, buildPeerViews env a vp c q =
      { c with
        globalRoutes := intern Route.id (viewRoutes env c a vp p) c.globalRoutes
        globalRules := intern generateFirewallRuleID (viewRules env c a vp p) c.globalRules
        globalRouteRules := intern generateRouteFirewallRuleID (routeRules env c a vp p)
          c.globalRouteRules
        peerACLs := c.peerACLs.insert q (aclViewOf env c a vp p)
        peerRoutes := c.peerRoutes.insert q (routesViewOf env c a vp p)
        peerSSH := ssh
        acgToRoutes := acgs
        noACGRoutes := no } := by
  obtain rfl := id_of_getPeer hp
  obtain ⟨acgs, no, ha⟩ := @updateACGIndexForPeer_eq (buildPeerACLView env c a vp p.id) p.id
    ((getRoutingPeerRoutes (buildPeerACLView env c a vp p.id) p.id).1 ++
      resourceRoutes env (buildPeerACLView env c a vp p.id) a vp p)
  refine ⟨acgs, no, (buildPeerACLView env c a vp p.id).peerSSH, ?_⟩
  rw [buildPeerViews, buildPeerRoutesView, hp]
  simp only [resourceRoutes] at ha
  simp only [ha]
  simp only [buildPeerACLView, hp, AList.lookup_insert]
  rfl

theorem indexes_buildPeerViews : indexes (buildPeerViews env a vp c q) = indexes c := by
  cases hp : a.getPeer q with
  | none => rw [buildPeerViews, buildPeerRoutesView, buildPeerACLView, hp]
  | some p =>
    obtain ⟨acgs, no, ssh, h⟩ := @buildPeerViews_eq env c a vp p q hp
    rw [h]
    rfl

end

/-! ## All peers -/

/-- The cache after the views of `done` are built: every view is what the indexes
    `c₀` make it, and the tables have nothing but rules and routes of views. -/
structure Built (env : Env) (a : Account) (validated : Validated) (c₀ : NetworkMapCache)
    (done : List String) (c : NetworkMapCache) : Prop where
  indexes : indexes c = indexes c₀
  acl : ∀ p, a.getPeer p.id = some p → p.id ∈ done →
    c.peerACLs.lookup p.id = some (aclViewOf env c₀ a validated p)
  views : ∀ p, a.getPeer p.id = some p → p.id ∈ done →
    c.peerRoutes.lookup p.id = some (routesViewOf env c₀ a validated p)
  rules : Interned generateFirewallRuleID
    (fun r => ∃ p, a.getPeer p.id = some p ∧ r ∈ viewRules env c₀ a validated p) c.globalRules
  routes : Interned Route.id
    (fun r => ∃ p, a.getPeer p.id = some p ∧ r ∈ viewRoutes env c₀ a validated p) c.globalRoutes
  routeRules : Interned generateRouteFirewallRuleID
    (fun r => ∃ p, a.getPeer p.id = some p ∧ r ∈ routeRules env c₀ a validated p) c.globalRouteRules
  stored : ∀ p, a.getPeer p.id = some p → p.id ∈ done →
    (∀ r ∈ viewRules env c₀ a validated p, generateFirewallRuleID r ∈ c.globalRules) ∧
    (∀ r ∈ viewRoutes env c₀ a validated p, r.id ∈ c.globalRoutes) ∧
    ∀ r ∈ Builder.routeRules env c₀ a validated p,
      generateRouteFirewallRuleID r ∈ c.globalRouteRules

section

variable {env : Env} {a : Account} {vp : Validated} {c₀ c : NetworkMapCache} {done : List String}

theorem built_nil (h₀ : c₀ = indexes c₀) : Built env a vp c₀ [] c₀ where
  indexes := rfl
  acl := nofun
  views := nofun
  rules := by rw [h₀]; exact Interned.empty
  routes := by rw [h₀]; exact Interned.empty
  routeRules := by rw [h₀]; exact Interned.empty
  stored := nofun

/-- A table of views with the view of one more peer. -/
theorem lookup_insert_view {m : GoMap β} {view : Peer → β} (hp : a.getPeer p.id = some p)
    (hm : ∀ p', a.getPeer p'.id = some p' → p'.id ∈ done → m.lookup p'.id = some (view p')) :
    ∀ p', a.getPeer p'.id = some p' → p'.id ∈ p.id :: done →
      (m.insert p.id (view p)).lookup p'.id = some (view p') := by
  intro p' hp' hme
  by_cases hi : p'.id = p.id
  · rw [eq_of_getPeer hp' hp hi]
    exact AList.lookup_insert _
  · exact (AList.lookup_insert_ne hi).trans (hm p' hp' ((mem_cons.mp hme).resolve_left hi))

/-- The views of one more peer. -/
theorem Built.step (h : Built env a vp c₀ done c)
    (hp : a.getPeer q = some p) : Built env a vp c₀ (q :: done) (buildPeerViews env a vp c q) := by
  obtain rfl := id_of_getPeer hp
  obtain ⟨acgs, no, ssh, he⟩ := @buildPeerViews_eq env c a vp p p.id hp
  -- views depend on the indexes only
  have hc : ∀ {γ : Type} (f : NetworkMapCache → γ),
      f (Builder.indexes c) = f (Builder.indexes c₀) := fun f => congrArg f h.indexes
  have hru : viewRules env c a vp p = viewRules env c₀ a vp p :=
    hc (viewRules env · a vp p)
  have hro : viewRoutes env c a vp p = viewRoutes env c₀ a vp p :=
    hc (viewRoutes env · a vp p)
  have hrr : Builder.routeRules env c a vp p = Builder.routeRules env c₀ a vp p :=
    hc (Builder.routeRules env · a vp p)
  have ha : aclViewOf env c a vp p = aclViewOf env c₀ a vp p := hc (aclViewOf env · a vp p)
  have hv : routesViewOf env c a vp p = routesViewOf env c₀ a vp p :=
    hc (routesViewOf env · a vp p)
  rw [hru, hro, hrr, ha, hv] at he
  refine ⟨indexes_buildPeerViews.trans h.indexes, ?_, ?_, ?_, ?_, ?_, ?_⟩
  · rw [he]
    exact lookup_insert_view hp h.acl
  · rw [he]
    exact lookup_insert_view hp h.views
  · rw [he]
    exact h.rules.intern fun r hr => ⟨p, hp, hr⟩
  · rw [he]
    exact h.routes.intern fun r hr => ⟨p, hp, hr⟩
  · rw [he]
    exact h.routeRules.intern fun r hr => ⟨p, hp, hr⟩
  · intro p' hp' hm
    by_cases hi : p'.id = p.id
    · grind [mem_intern]
    · obtain ⟨h1, h2, h3⟩ := h.stored p' hp' ((mem_cons.mp hm).resolve_left hi)
      grind [mem_intern]

/-- **Building the views of peers one after the other.** -/
theorem Built.run (h : Built env a vp c₀ done c) (ids : List String)
    (hi : ∀ q ∈ ids, (a.getPeer q).isSome) : ∃ done', (∀ q, q ∈ done' ↔ q ∈ ids ∨ q ∈ done) ∧
      Built env a vp c₀ done' (ids.foldl (buildPeerViews env a vp) c) := by
  refine foldl_done ids done c (fun done c q hq h => ?_) h
  obtain ⟨p, hp⟩ := Option.isSome_iff_exists.mp (hi q hq)
  exact h.step hp

end

/-- The cache of a new builder. -/
theorem built_initialBuild (env : Env) (a : Account) (vp : Validated) (groupIDToUserIDs : UserMap) :
    ∃ done, (∀ p, a.getPeer p.id = some p → p.id ∈ done) ∧
      Built env a vp (idx a groupIDToUserIDs) done (initialBuild env a vp groupIDToUserIDs) := by
  have hs : Built env a vp (idx a groupIDToUserIDs) [] (idx a groupIDToUserIDs) := built_nil rfl
  obtain ⟨done, hd, hb⟩ := hs.run (a.peers.entries.map Peer.id) (by
    intro q hq
    obtain ⟨p, hp, rfl⟩ := mem_map.mp hq
    exact Option.isSome_iff_exists.mpr ⟨p, Keyed.get_key hp⟩)
  refine ⟨done, fun p hp => (hd p.id).mpr (.inl ?_), hb⟩
  exact mem_map_of_mem (Keyed.mem_of_get hp)

end Builder

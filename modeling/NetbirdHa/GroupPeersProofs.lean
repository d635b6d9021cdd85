import NetbirdHa.AccountProofs

/-! # The peers of a list of groups

A policy rule names groups; its peers are found by walking over them.  One
group alone stands for its peers, and a group named "All" ends the walk and
stands for the whole list.  The account, the components and the first pass
over the account all walk this way, over different tables of groups, so the
walk takes the lookup as a parameter.

Whether a peer is found depends on "All" only if "All" misses the peer
(`mem_uniquePeerIDs`).  Walking over groups that were cut
down finds what is left of the original walk, unless an "All" among them was
cut away while others were not (`mem_unique_restricts`). -/

namespace GroupPeers

open AccountModel List Account

/-- The walk of `getUniquePeerIDsFromGroupsIDs`; `single` says that the list has one group only. -/
def uniqueLoop (getGroup : String → Option Group) (single : Bool) :
    List String → List String → List String
  | [], acc => acc
  | gid :: gids, acc =>
    match getGroup gid with
    | none => uniqueLoop getGroup single gids acc
    | some g =>
      if g.isGroupAll || single then g.peers
      else uniqueLoop getGroup single gids (acc ∪ g.peers)

/-- The members that the walk gets to see: up to and with the group that ends it. -/
def seenLoop (getGroup : String → Option Group) (single : Bool) :
    List String → List String → List String
  | [], acc => acc
  | gid :: gids, acc =>
    match getGroup gid with
    | none => seenLoop getGroup single gids acc
    | some g =>
      if g.isGroupAll || single then acc ∪ g.peers
      else seenLoop getGroup single gids (acc ∪ g.peers)

section

variable (getGroup : String → Option Group) (groups : List String) (q : String)

/-- `getUniquePeerIDsFromGroupsIDs`: a single group is not searched for repeated peers. -/
def getUniquePeerIDsFromGroupsIDs : List String :=
  uniqueLoop getGroup (groups.length = 1) groups []

/-- A listed group holds the peer. -/
def InGroups : Prop :=
  ∃ gid ∈ groups, ∃ g, getGroup gid = some g ∧ q ∈ g.peers

/-- Every listed group named "All" holds the peer. -/
def AllHas : Prop :=
  ∀ gid ∈ groups, ∀ g, getGroup gid = some g → g.isGroupAll → q ∈ g.peers

end

variable {getGroup getGroup' : String → Option Group} {single : Bool} {q gid : String}
  {gids acc acc' groups : List String}

/-- The group of all peers, and a single group, end the loop. -/
theorem uniqueLoop_cons_stop (h : getGroup gid = some g) (hs : (g.isGroupAll || single) = true) :
    uniqueLoop getGroup single (gid :: gids) acc = g.peers := by
  rw [uniqueLoop, h]
  exact if_pos hs

/-- Membership in the first group or a later one. -/
theorem inGroups_cons : InGroups getGroup (gid :: gids) q ↔
    (∃ g, getGroup gid = some g ∧ q ∈ g.peers) ∨ InGroups getGroup gids q := by
  simp [InGroups]

/-- The walk finds only members of the listed groups. -/
theorem mem_uniqueLoop_imp (h : q ∈ uniqueLoop getGroup single gids acc) :
    q ∈ acc ∨ InGroups getGroup gids q := by
  fun_induction uniqueLoop getGroup single gids acc with
  | case1 => exact .inl h
  | case2 gid gids acc hg ih =>
    rw [inGroups_cons]
    exact (ih h).imp_right .inr
  | case3 gid gids acc g hg hs =>
    rw [inGroups_cons]
    exact .inr (.inl ⟨g, hg, h⟩)
  | case4 gid gids acc g hg hs ih => grind [inGroups_cons]

/-- Where no "All" misses the peer, a walk over several groups finds it in any. -/
theorem mem_uniqueLoop_of_allHas (ha : AllHas getGroup gids q)
    (h : q ∈ acc ∨ InGroups getGroup gids q) : q ∈ uniqueLoop getGroup false gids acc := by
  fun_induction uniqueLoop getGroup false gids acc with
  | case1 => exact h.resolve_right fun ⟨_, hm, _⟩ => not_mem_nil hm
  | case2 gid gids acc hg ih => grind [inGroups_cons, AllHas]
  | case3 gid gids acc g hg hs => exact ha gid mem_cons_self g hg (by simpa using hs)
  | case4 gid gids acc g hg hs ih => grind [inGroups_cons, AllHas]

/-- The loop lists only members. -/
theorem inGroups_of_mem_unique (h : q ∈ getUniquePeerIDsFromGroupsIDs getGroup groups) :
    InGroups getGroup groups q :=
  (mem_uniqueLoop_imp h).resolve_left not_mem_nil

/-- **The walk finds exactly the members** of the listed groups, when no listed
    "All" misses the peer. -/
theorem mem_uniquePeerIDs (ha : AllHas getGroup groups q) :
    q ∈ getUniquePeerIDsFromGroupsIDs getGroup groups ↔ InGroups getGroup groups q := by
  refine ⟨inGroups_of_mem_unique, fun h => ?_⟩
  unfold getUniquePeerIDsFromGroupsIDs
  by_cases hl : groups.length = 1
  · -- one group alone stands for its peers
    obtain ⟨gid, rfl⟩ := length_eq_one_iff.mp hl
    obtain ⟨gid', hm, g, hg, hq⟩ := h
    obtain rfl := mem_singleton.mp hm
    rw [uniqueLoop_cons_stop hg (by simp)]
    exact hq
  · rw [decide_eq_false hl]
    exact mem_uniqueLoop_of_allHas ha (.inr h)

/-! ## Two walks side by side -/

/-- Two tables of groups agree about `q`: where `b` holds, a listed group of the
    second has it if that of the first has it, and otherwise it has not; a group
    may be missing in the second if it would not have it. -/
def Agrees (b : Prop) (q : String) (getGroup getGroup' : String → Option Group)
    (groups : List String) : Prop :=
  ∀ gid ∈ groups,
    (∀ g, getGroup gid = some g →
      (∃ g', getGroup' gid = some g' ∧ g'.isGroupAll = g.isGroupAll ∧
        (q ∈ g'.peers ↔ q ∈ g.peers ∧ b)) ∨
      (getGroup' gid = none ∧ ¬ (q ∈ g.peers ∧ b))) ∧
    (getGroup gid = none → getGroup' gid = none)

section

variable {b : Prop}

theorem Agrees.tail (h : Agrees b q getGroup getGroup' (gid :: gids)) :
    Agrees b q getGroup getGroup' gids :=
  fun x hx => h x (mem_cons_of_mem gid hx)

/-- Two readings of the groups that agree on a peer agree on its membership. -/
theorem Agrees.inGroups (h : Agrees b q getGroup getGroup' groups) :
    InGroups getGroup' groups q ↔ InGroups getGroup groups q ∧ b := by
  constructor
  · rintro ⟨gid, hm, g', hg', hq⟩
    cases hg : getGroup gid with
    | none => cases ((h gid hm).2 hg).symm.trans hg'
    | some g =>
      rcases (h gid hm).1 g hg with ⟨g'', hg'', -, hi⟩ | ⟨hn, -⟩
      · cases hg'.symm.trans hg''
        obtain ⟨hq, hb⟩ := hi.mp hq
        exact ⟨⟨gid, hm, g, hg, hq⟩, hb⟩
      · cases hn.symm.trans hg'
  · rintro ⟨⟨gid, hm, g, hg, hq⟩, hb⟩
    rcases (h gid hm).1 g hg with ⟨g', hg', -, hi⟩ | ⟨-, hn⟩
    · exact ⟨gid, hm, g', hg', hi.mpr ⟨hq, hb⟩⟩
    · exact absurd ⟨hq, hb⟩ hn

/-- What the first walk finds the second finds. -/
theorem Agrees.mem_uniqueLoop (h : Agrees b q getGroup getGroup' gids) (hb : b)
    (ha : q ∈ acc → q ∈ acc') (hq : q ∈ uniqueLoop getGroup single gids acc) :
    q ∈ uniqueLoop getGroup' single gids acc' := by
  fun_induction uniqueLoop getGroup single gids acc generalizing acc' with
  | case1 => exact ha hq
  | case2 gid gids acc hg ih =>
    rw [uniqueLoop, (h gid mem_cons_self).2 hg]
    exact ih h.tail ha hq
  | case3 gid gids acc g hg hs => grind [uniqueLoop_cons_stop, Agrees]
  | case4 gid gids acc g hg hs ih => grind [Agrees, uniqueLoop]

/-- Where no group that ends the first walk is missing, the second finds nothing else. -/
theorem Agrees.mem_loops (h : Agrees b q getGroup getGroup' gids)
    (hst : ∀ gid ∈ gids, ∀ g, getGroup gid = some g → (g.isGroupAll || single) = true →
      getGroup' gid ≠ none) (ha : q ∈ acc' ↔ q ∈ acc ∧ b) :
    (q ∈ uniqueLoop getGroup' single gids acc' ↔ q ∈ uniqueLoop getGroup single gids acc ∧ b) ∧
    (q ∈ seenLoop getGroup' single gids acc' ↔ q ∈ seenLoop getGroup single gids acc ∧ b) := by
  induction gids generalizing acc acc' with
  | nil => exact ⟨ha, ha⟩
  | cons gid gids ih =>
    have hst' := fun x hx => hst x (mem_cons_of_mem gid hx)
    obtain ⟨hs, hn⟩ := h gid mem_cons_self
    cases hg : getGroup gid with
    | none =>
      simp only [uniqueLoop, seenLoop, hg, hn hg]
      exact ih h.tail hst' ha
    | some g =>
      rcases hs g hg with ⟨g', hg', hal, hi⟩ | ⟨hg', hno⟩
      · have hu : q ∈ acc' ∪ g'.peers ↔ q ∈ acc ∪ g.peers ∧ b := by
          rw [mem_union_iff, mem_union_iff, ha, hi, or_and_right]
        simp only [uniqueLoop, seenLoop, hg, hg', hal]
        split
        · exact ⟨hi, hu⟩
        · exact ih h.tail hst' hu
      · have hgo : ¬ (g.isGroupAll || single) = true := fun he => hst gid mem_cons_self g hg he hg'
        simp only [uniqueLoop, seenLoop, hg, hg', hgo]
        refine ih h.tail hst' ?_
        rw [mem_union_iff, or_and_right, ha, or_iff_left hno]

end

/-! ## Walking over restricted groups -/

/-- The groups of `getGroup'` are those of `getGroup` cut down to the peers of
    `P`; a group left empty is gone. -/
def Restricts (P : String → Prop) (getGroup getGroup' : String → Option Group)
    (groups : List String) : Prop :=
  ∀ gid ∈ groups,
    (∀ g, getGroup gid = some g → (∃ q ∈ g.peers, P q) →
        ∃ g', getGroup' gid = some g' ∧ g'.isGroupAll = g.isGroupAll ∧
          ∀ q, q ∈ g'.peers ↔ q ∈ g.peers ∧ P q) ∧
    (∀ g, getGroup gid = some g → (¬ ∃ q ∈ g.peers, P q) → getGroup' gid = none) ∧
    (getGroup gid = none → getGroup' gid = none)

/-- A listed "All" keeps a member, or covers what is kept of the other listed groups. -/
def AllKept (P : String → Prop) (getGroup : String → Option Group) (groups : List String) :
    Prop :=
  ∀ gid ∈ groups, ∀ g, getGroup gid = some g → g.isGroupAll →
    (∃ m ∈ g.peers, P m) ∨ ∀ q, P q → InGroups getGroup groups q → q ∈ g.peers

section

variable {P : String → Prop}

/-- A restriction agrees with the original on the peers it keeps. -/
theorem Restricts.agrees (hr : Restricts P getGroup getGroup' groups) (q : String) :
    Agrees (P q) q getGroup getGroup' groups := by
  intro gid hm
  obtain ⟨hke, hgo, hn⟩ := hr gid hm
  refine ⟨fun g hg => ?_, hn⟩
  by_cases hP : ∃ m ∈ g.peers, P m
  all_goals grind

/-- **Cutting the groups down cuts down what the walk finds**, when every listed
    "All" keeps a member or covers the rest. -/
theorem mem_unique_restricts (hr : Restricts P getGroup getGroup' groups)
    (hk : AllKept P getGroup groups) : q ∈ getUniquePeerIDsFromGroupsIDs getGroup' groups ↔
      q ∈ getUniquePeerIDsFromGroupsIDs getGroup groups ∧ P q := by
  rw [getUniquePeerIDsFromGroupsIDs, getUniquePeerIDsFromGroupsIDs]
  by_cases hl : groups.length = 1
  · -- one group alone stands for its peers
    obtain ⟨gid, rfl⟩ := length_eq_one_iff.mp hl
    have hi : ∀ {get : String → Option Group},
        q ∈ uniqueLoop get ([gid].length = 1) [gid] [] ↔ InGroups get [gid] q := by
      grind [InGroups, uniqueLoop]
    rw [hi, hi]
    exact (hr.agrees q).inGroups
  · rw [decide_eq_false hl]
    refine ⟨fun h => ?_, fun ⟨h, hP⟩ => (hr.agrees q).mem_uniqueLoop hP id h⟩
    have hin := (mem_uniqueLoop_imp h).resolve_left not_mem_nil
    obtain ⟨hin, hPq⟩ := (hr.agrees q).inGroups.mp hin
    -- an "All" of which nothing is kept would hold the peer that was found
    have hst : ∀ gid ∈ groups, ∀ g, getGroup gid = some g → (g.isGroupAll || false) = true →
        getGroup' gid ≠ none := by
      intro gid hm g hg hs hn
      have hP : ∃ m ∈ g.peers, P m :=
        (hk gid hm g hg (by simpa using hs)).elim id fun hc => ⟨q, hc q hPq hin, hPq⟩
      obtain ⟨g', hg', -⟩ := (hr gid hm).1 g hg hP
      cases hn.symm.trans hg'
    exact ((hr.agrees q).mem_loops hst (by simp)).1.mp h

end

/-- `getGroup'` has cut-down groups of `getGroup`, among them all that hold `x`. -/
structure Keeps (x : String) (getGroup getGroup' : String → Option Group) : Prop where
  cut : ∀ gid g', getGroup' gid = some g' →
    ∃ g, getGroup gid = some g ∧ g'.isGroupAll = g.isGroupAll ∧ ∀ q ∈ g'.peers, q ∈ g.peers
  kept : ∀ gid g, getGroup gid = some g → x ∈ g.peers → ∃ g', getGroup' gid = some g' ∧ x ∈ g'.peers

section

variable {x : String}

variable (h : Keeps x getGroup getGroup')

include h

/-- A reading that keeps a peer agrees with the original on it. -/
theorem Keeps.agrees (groups : List String) : Agrees True x getGroup getGroup' groups := by
  intro gid _
  refine ⟨fun g hg => ?_, fun hg => ?_⟩
  · cases hg' : getGroup' gid with
    | none =>
      refine .inr ⟨rfl, fun ⟨hx, _⟩ => ?_⟩
      obtain ⟨g', hso, -⟩ := h.kept gid g hg hx
      cases hg'.symm.trans hso
    | some g' =>
      obtain ⟨g₁, hg₁, hal, hsub⟩ := h.cut gid g' hg'
      cases hg.symm.trans hg₁
      refine .inl ⟨g', rfl, hal, fun hx => ⟨hsub x hx, trivial⟩, fun ⟨hx, _⟩ => ?_⟩
      obtain ⟨g'', hg'', hx''⟩ := h.kept gid g hg hx
      cases hg'.symm.trans hg''
      exact hx''
  · refine Option.eq_none_iff_forall_ne_some.mpr fun g' hg' => ?_
    obtain ⟨g, hg₁, -⟩ := h.cut gid g' hg'
    cases hg.symm.trans hg₁

theorem Keeps.inGroups : InGroups getGroup' groups x ↔ InGroups getGroup groups x :=
  (h.agrees groups).inGroups.trans (and_iff_left trivial)

/-- A peer whose groups are all kept is still found. -/
theorem Keeps.mem_unique (hx : x ∈ getUniquePeerIDsFromGroupsIDs getGroup groups) :
    x ∈ getUniquePeerIDsFromGroupsIDs getGroup' groups :=
  (h.agrees groups).mem_uniqueLoop trivial id hx

/-- … and found nowhere else, unless a listed "All" misses it. -/
theorem Keeps.mem_unique_iff (ha : InGroups getGroup groups x → AllHas getGroup groups x) :
    x ∈ getUniquePeerIDsFromGroupsIDs getGroup' groups ↔
      x ∈ getUniquePeerIDsFromGroupsIDs getGroup groups := by
  refine ⟨fun hx => ?_, h.mem_unique⟩
  have hi := h.inGroups.mp (inGroups_of_mem_unique hx)
  exact (mem_uniquePeerIDs (ha hi)).mpr hi

end

/-! ## `getAllPeersFromGroups`

The account and the components keep different peers of the groups; which
ones is the parameter `keep`. -/

/-- The peers of the groups that `keep` keeps, the given one apart; and whether
    the given one is among them. -/
def getAllPeersFromGroups (getGroup : String → Option Group) (keep : String → Option Peer)
    (groups : List String) (peerID : String) : List Peer × Bool :=
  let kept := (getUniquePeerIDsFromGroupsIDs getGroup groups).filterMap keep
  (kept.filter (·.id ≠ peerID), kept.any (·.id = peerID))

section

variable {keep : String → Option Peer} {peerID : String}

/-- The peers of the groups, the peer itself left out. -/
theorem mem_getAllPeersFromGroups : p ∈ (getAllPeersFromGroups getGroup keep groups peerID).1 ↔
    (∃ q ∈ getUniquePeerIDsFromGroupsIDs getGroup groups, keep q = some p) ∧ p.id ≠ peerID := by
  simp [getAllPeersFromGroups]

/-- The peer itself is found among them. -/
theorem getAllPeersFromGroups_found : (getAllPeersFromGroups getGroup keep groups peerID).2 ↔
    ∃ q ∈ getUniquePeerIDsFromGroupsIDs getGroup groups, ∃ p, keep q = some p ∧ p.id = peerID := by
  grind [getAllPeersFromGroups]

end

/-! ## `getPeersFromGroups`

The first pass over the account walks the groups once more, checks every
member as it goes, and writes down which posture check a member fails. -/

/-- What the walk has found so far. -/
structure Scan where
  filtered : List String := []
  found : Bool := false
  failed : List (String × String) := []

section

variable (a : Account) (validated : Validated) (checks : List String) (peerID : String)

/-- One member of a group. -/
def scanPeer (s : Scan) (pid : String) : Scan :=
  match a.getPeer pid with
  | none => s
  | some peer =>
    if peer.id ∉ validated then s
    else
      let answer := a.validatePostureChecksOnPeerGetFailed checks peer.id
      if !answer.1 && answer.2 ≠ "" then
        { s with failed := s.failed ++ [(answer.2, peer.id)] }
      else if peer.id = peerID then { s with found := true }
      else { s with filtered := s.filtered ++ [peer.id] }

/-- One member of a group, unless it was seen before. -/
def scanUnseen (s : Scan × List String) (pid : String) : Scan × List String :=
  if pid ∈ s.2 then s else (scanPeer a validated checks peerID s.1 pid, pid :: s.2)

/-- The walk: "All", or a group alone, starts afresh and ends it. -/
def scanLoop (a : Account) (validated : Validated) (checks : List String) (peerID : String)
    (single : Bool) : List String → Scan × List String → Scan
  | [], s => s.1
  | gid :: gids, s =>
    match a.getGroup gid with
    | none => scanLoop a validated checks peerID single gids s
    | some g =>
      if g.isGroupAll || single then
        g.peers.foldl (scanPeer a validated checks peerID)
          { s.1 with filtered := [], found := false }
      else
        scanLoop a validated checks peerID single gids
          (g.peers.foldl (scanUnseen a validated checks peerID) s)

/-- `getPeersFromGroups`: the members kept, whether the given peer is one, and
    the failures to be written down. -/
def getPeersFromGroups (groups : List String) (peerID : String) : Scan :=
  scanLoop a validated checks peerID (groups.length = 1) groups ({}, [])

/-- The peer exists, is validated and passes the checks. -/
def Usable (q : String) : Prop :=
  q ∈ validated ∧ a.validatePostureChecksOnPeer checks q
deriving Decidable

/-- The peer exists, is validated, and `c` is the first check it fails. -/
def FailsAt (q c : String) : Prop :=
  q ∈ validated ∧ ∃ p, a.getPeer q = some p ∧ a.firstFailed p checks = some c

end

/-- The scan has looked at the peers `A` for the result and at the peers `B` for the failures. -/
structure Tracks (a : Account) (validated : Validated) (checks : List String)
    (peerID : String) (s : Scan) (A B : String → Prop) : Prop where
  filtered : ∀ q, q ∈ s.filtered ↔ A q ∧ Usable a validated checks q ∧ q ≠ peerID
  found : s.found ↔ A peerID ∧ Usable a validated checks peerID
  failed : ∀ c q, (c, q) ∈ s.failed ↔ B q ∧ FailsAt a validated checks q c

section

variable {a : Account} {vp : Validated} {checks : List String} {peerID : String}

/-- A validated peer passes the checks, or fails a first one. -/
theorem usable_or_failsAt (checks : List String) (hp : a.getPeer q = some p) (hv : q ∈ vp) :
    (a.firstFailed p checks = none ∧ Usable a vp checks q) ∨
      ∃ c, a.firstFailed p checks = some c ∧ FailsAt a vp checks q c := by
  cases hf : a.firstFailed p checks with
  | none => exact .inl ⟨rfl, hv, checksOnPeer_eq_true.mpr ⟨p, hp, hf⟩⟩
  | some c => exact .inr ⟨c, rfl, hv, p, hp, hf⟩

/-- There is one first failure. -/
theorem failsAt_unique (h : FailsAt a vp checks q c) (h' : FailsAt a vp checks q c') : c = c' := by
  obtain ⟨-, p, hp, hf⟩ := h
  obtain ⟨-, p', hp', hf'⟩ := h'
  cases hp.symm.trans hp'
  exact Option.some.inj (hf.symm.trans hf')

/-- What one member does to the scan. -/
theorem scanPeer_eq (s : Scan) (pid : String) :
    (¬ Usable a vp checks pid ∧ (∀ c, ¬ FailsAt a vp checks pid c) ∧
        scanPeer a vp checks peerID s pid = s) ∨
    (∃ c, FailsAt a vp checks pid c ∧ scanPeer a vp checks peerID s pid =
          { s with failed := s.failed ++ [(c, pid)] }) ∨ (Usable a vp checks pid ∧ pid = peerID ∧
        scanPeer a vp checks peerID s pid = { s with found := true }) ∨
    (Usable a vp checks pid ∧ pid ≠ peerID ∧
        scanPeer a vp checks peerID s pid = { s with filtered := s.filtered ++ [pid] }) := by
  unfold scanPeer
  cases hp : a.getPeer pid with
  | none =>
    left
    refine ⟨?_, ?_, rfl⟩
    · rintro ⟨-, hu⟩
      obtain ⟨p, hp', -⟩ := checksOnPeer_eq_true.mp hu
      cases hp.symm.trans hp'
    · rintro c ⟨-, p, hp', -⟩
      cases hp.symm.trans hp'
  | some peer =>
    obtain rfl := id_of_getPeer hp
    by_cases hv : peer.id ∈ vp
    · simp only [hv, not_true_eq_false, if_false]
      rcases usable_or_failsAt checks hp hv with ⟨hf, hu⟩ | ⟨c, hf, hfa⟩
      · simp only [Account.validatePostureChecksOnPeerGetFailed, hp, hf]
        by_cases hi : peer.id = peerID
        · exact .inr (.inr (.inl ⟨hu, hi, by simp [hi]⟩))
        · exact .inr (.inr (.inr ⟨hu, hi, by simp [hi]⟩))
      · have hn := ne_empty_of_firstFailed hf
        simp only [Account.validatePostureChecksOnPeerGetFailed, hp, hf]
        exact .inr (.inl ⟨c, hfa, by simp [hn]⟩)
    · left
      exact ⟨fun h => hv h.1, fun c h => hv h.1, by simp [hv]⟩

/-- One peer is scanned. -/
theorem tracks_scanPeer (h : Tracks a vp checks peerID s A B) (pid : String) :
    Tracks a vp checks peerID (scanPeer a vp checks peerID s pid)
      (fun q => q = pid ∨ A q) (fun q => q = pid ∨ B q) := by
  have hc := @scanPeer_eq a vp checks peerID s pid
  have hn : ∀ c, FailsAt a vp checks pid c → ¬ Usable a vp checks pid := by
    grind [checksOnPeer_eq_true, FailsAt, Usable]
  obtain ⟨hfi, hfo, hfa⟩ := h
  rcases hc with ⟨hu, hf, he⟩ | ⟨c, hf, he⟩ | ⟨hu, hi, he⟩ | ⟨hu, hi, he⟩
  all_goals
    rw [he]
    refine ⟨fun q => ?_, ?_, fun c' q => ?_⟩
    · grind
    · grind
    · grind [failsAt_unique]

/-- The sets tracked, up to equivalence. -/
theorem Tracks.congr (h : Tracks a vp checks peerID s A B)
    (hA : ∀ q, A q ↔ A' q) (hB : ∀ q, B q ↔ B' q) : Tracks a vp checks peerID s A' B' where
  filtered := fun q => by rw [h.filtered, hA]
  found := by rw [h.found, hA]
  failed := fun c q => by rw [h.failed, hB]

/-- A group scanned member by member. -/
theorem tracks_foldl_scanPeer :
    ∀ (l : List String) {s : Scan} {A B : String → Prop}, Tracks a vp checks peerID s A B →
      Tracks a vp checks peerID (l.foldl (scanPeer a vp checks peerID) s)
        (fun q => q ∈ l ∨ A q) (fun q => q ∈ l ∨ B q) := by
  intro l
  induction l with
  | nil =>
    intro s A B h
    exact h.congr (fun q => by simp) fun q => by simp
  | cons x l ih =>
    intro s A B h
    refine (ih (tracks_scanPeer h x)).congr (fun q => ?_) fun q => ?_
    · rw [mem_cons]; tauto
    · rw [mem_cons]; tauto

/-- A group scanned member by member, skipping those seen before. -/
theorem tracks_foldl_scanUnseen : ∀ (l : List String) {s : Scan × List String},
    Tracks a vp checks peerID s.1 (· ∈ s.2) (· ∈ s.2) →
    Tracks a vp checks peerID (l.foldl (scanUnseen a vp checks peerID) s).1
      (fun q => q ∈ s.2 ∨ q ∈ l) (fun q => q ∈ s.2 ∨ q ∈ l) ∧
    ∀ q, q ∈ (l.foldl (scanUnseen a vp checks peerID) s).2 ↔ q ∈ s.2 ∨ q ∈ l := by
  intro l
  induction l with
  | nil =>
    intro s h
    exact ⟨h.congr (fun q => by simp) (fun q => by simp), fun q => by simp⟩
  | cons x l ih =>
    intro s h
    rw [foldl_cons]
    by_cases hx : x ∈ s.2
    · have hs : scanUnseen a vp checks peerID s x = s := if_pos hx
      grind
    · have hs : scanUnseen a vp checks peerID s x =
          (scanPeer a vp checks peerID s.1 x, x :: s.2) := if_neg hx
      have hst : Tracks a vp checks peerID
          (scanPeer a vp checks peerID s.1 x) (· ∈ x :: s.2) (· ∈ x :: s.2) :=
        (tracks_scanPeer h x).congr (fun q => by rw [mem_cons]) (fun q => by rw [mem_cons])
      grind

/-- The walk looks at the peers of `uniqueLoop` for the result and at those of
    `seenLoop` for the failures. -/
theorem tracks_scanLoop : ∀ (gids : List String) {s : Scan × List String} {acc : List String},
    Tracks a vp checks peerID s.1 (· ∈ s.2) (· ∈ s.2) → (∀ q, q ∈ s.2 ↔ q ∈ acc) →
    Tracks a vp checks peerID (scanLoop a vp checks peerID single gids s)
      (· ∈ uniqueLoop a.getGroup single gids acc) (· ∈ seenLoop a.getGroup single gids acc) := by
  intro gids
  induction gids with
  | nil =>
    intro s acc h ha
    exact h.congr ha ha
  | cons gid gids ih =>
    intro s acc h ha
    cases hg : a.getGroup gid with
    | none =>
      simp only [scanLoop, uniqueLoop, seenLoop, hg]
      exact ih h ha
    | some g =>
      by_cases hs : (g.isGroupAll || single) = true
      · simp only [scanLoop, uniqueLoop, seenLoop, hg, hs, if_true]
        -- the result starts afresh, the failures written down stay
        have h0 : Tracks a vp checks peerID
            { s.1 with filtered := [], found := false } (fun _ => False) (· ∈ s.2) :=
          ⟨fun q => by simp, by simp, h.failed⟩
        refine (tracks_foldl_scanPeer g.peers h0).congr (fun q => by simp) fun q => ?_
        rw [mem_union_iff, ha]
        tauto
      · simp only [scanLoop, uniqueLoop, seenLoop, hg, hs, if_false, Bool.false_eq_true]
        obtain ⟨h1, h2⟩ := tracks_foldl_scanUnseen g.peers h
        refine ih (h1.congr (fun q => (h2 q).symm) (fun q => (h2 q).symm)) fun q => ?_
        rw [h2, mem_union_iff, ha]

/-- The whole scan tracks the members of the groups. -/
theorem tracks_getPeersFromGroups (groups : List String) :
    Tracks a vp checks peerID (getPeersFromGroups a vp checks groups peerID)
      (· ∈ getUniquePeerIDsFromGroupsIDs a.getGroup groups)
      (· ∈ seenLoop a.getGroup (groups.length = 1) groups []) :=
  tracks_scanLoop groups ⟨fun q => by simp, by simp, fun c q => by simp⟩ fun q => Iff.rfl

end

/-- What the walk finds it has seen. -/
theorem mem_seenLoop_of_mem_uniqueLoop (h : q ∈ uniqueLoop getGroup single gids acc) :
    q ∈ seenLoop getGroup single gids acc := by
  fun_induction uniqueLoop getGroup single gids acc with
  | case1 => exact h
  | case2 gid gids acc hg ih => simpa only [seenLoop, hg] using ih h
  | case3 gid gids acc g hg hs =>
    simp only [seenLoop, hg, hs, if_true]
    exact mem_union_iff.mpr (.inr h)
  | case4 gid gids acc g hg hs ih => simpa [seenLoop, hg, hs] using ih h

/-! ## Walking over copies -/

/-- The groups of `getGroup'` are copies of those of `getGroup` with the peers of
    `P` only; unlike restricted groups they stay even if empty. -/
def Copies (P : String → Prop) (getGroup getGroup' : String → Option Group)
    (groups : List String) : Prop :=
  ∀ gid ∈ groups,
    (∀ g, getGroup gid = some g → ∃ g', getGroup' gid = some g' ∧
      g'.isGroupAll = g.isGroupAll ∧ ∀ q, q ∈ g'.peers ↔ q ∈ g.peers ∧ P q) ∧
    (getGroup gid = none → getGroup' gid = none)

section

variable {P : String → Prop}

theorem uniqueLoop_map (f : String → String) : ∀ (gids acc : List String),
    uniqueLoop getGroup single (gids.map f) acc =
      uniqueLoop (fun gid => getGroup (f gid)) single gids acc := by
  intro gids
  induction gids with
  | nil => intro acc; rfl
  | cons gid gids ih =>
    intro acc
    simp only [map_cons, uniqueLoop, ih]

theorem seenLoop_map (f : String → String) : ∀ (gids acc : List String),
    seenLoop getGroup single (gids.map f) acc =
      seenLoop (fun gid => getGroup (f gid)) single gids acc := by
  intro gids
  induction gids with
  | nil => intro acc; rfl
  | cons gid gids ih =>
    intro acc
    simp only [map_cons, seenLoop, ih]

theorem inGroups_map (f : String → String) :
    InGroups getGroup (groups.map f) q ↔ InGroups (fun gid => getGroup (f gid)) groups q := by
  simp [InGroups]

variable (h : Copies P getGroup getGroup' groups)

include h

/-- Copies of the groups agree with them on the peers they keep. -/
theorem Copies.agrees (q : String) : Agrees (P q) q getGroup getGroup' groups := by
  refine fun gid hm => ⟨fun g hg => .inl ?_, (h gid hm).2⟩
  obtain ⟨g', hg', hal, hp⟩ := (h gid hm).1 g hg
  exact ⟨g', hg', hal, hp q⟩

theorem inGroups_copies : InGroups getGroup' groups q ↔ InGroups getGroup groups q ∧ P q :=
  (h.agrees q).inGroups

/-- Both loops, over copies. -/
theorem mem_loops_copies :
    (q ∈ uniqueLoop getGroup' single groups [] ↔ q ∈ uniqueLoop getGroup single groups [] ∧ P q) ∧
    (q ∈ seenLoop getGroup' single groups [] ↔ q ∈ seenLoop getGroup single groups [] ∧ P q) := by
  refine (h.agrees q).mem_loops (fun gid hm g hg _ hn => ?_) (by simp)
  obtain ⟨g', hg', -⟩ := (h gid hm).1 g hg
  cases hn.symm.trans hg'

/-- The members of copies are the members that are kept. -/
theorem mem_unique_copies : q ∈ getUniquePeerIDsFromGroupsIDs getGroup' groups ↔
    q ∈ getUniquePeerIDsFromGroupsIDs getGroup groups ∧ P q :=
  (mem_loops_copies h).1

end

end GroupPeers

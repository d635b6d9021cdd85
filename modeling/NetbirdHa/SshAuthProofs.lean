import Mathlib.Algebra.Group.Nat.Defs
import Mathlib.Data.Finset.Card
import NetbirdHa.TableProofs

/-! # Who may log in over SSH

The management server sends, for each machine user, the users that may log in
under that name: `buildAuthorizedUsersProto` numbers the users in the order it
comes across them and sends the hashes once, and for each machine user the
numbers, which have 32 bits.  The client's `Authorizer` looks for the hash of a user,
and for its place in the list of the machine user or of the wildcard.

The numbers stand for the users as long as there are enough of them
(`authorize_iff`); with more than 2³² users two share a number, and one is let in
for the other (`shared_number_granted`). -/

namespace SshAuth

open Table List UInt32

variable {H : Type}

/-- `auth.Wildcard`. -/
def wildcard : String := "*"

/-- The number of a user: its place among those numbered so far. -/
def number (ids : List String) (userID : String) : UInt32 := UInt32.ofNat (ids.idxOf userID)

/-- One user of a machine user; a new one gets the next number. -/
def addUser (s : List String × List UInt32) (userID : String) : List String × List UInt32 :=
  let ids := if userID ∈ s.1 then s.1 else s.1 ++ [userID]
  (ids, s.2 ++ [number ids userID])

/-- The users numbered and the numbers of each machine user; the keys of a map are
    distinct, so the order of the assignments does not matter. -/
def numberAll (ids : List String) :
    List (Sigma fun _ : String => List String) → List String × (String → Option (List UInt32))
  | [] => (ids, fun _ => none)
  | x :: rest =>
    let s := x.2.foldl addUser (ids, [])
    let r := numberAll s.1 rest
    (r.1, Function.update r.2 x.1 (some s.2))

/-- `buildAuthorizedUsersProto`. -/
def buildAuthorizedUsersProto (hash : String → H) (authorizedUsers : GoMap (List String)) :
    List H × (String → Option (List UInt32)) :=
  let r := numberAll [] authorizedUsers.entries
  (r.1.map hash, r.2)

/-- Why a login is refused. -/
inductive AuthError where
  | emptyUserID | userNotAuthorized | noMachineUserMapping | userNotMappedToOSUser
deriving DecidableEq

/-- The users who may log in, and as whom. -/
structure Authorizer (H : Type) where
  authorizedUsers : List H
  machineUsers : String → Option (List UInt32)

namespace Authorizer

/-- `Update`: a machine user without numbers is left out. -/
def update (config : List H × (String → Option (List UInt32))) : Authorizer H :=
  ⟨config.1, fun osUser => (config.2 osUser).filter (· ≠ [])⟩

/-- `checkMachineUserMapping`: the wildcard user first. -/
def checkMachineUserMapping (a : Authorizer H) (osUsername : String) (userIndex : Nat) :
    Except AuthError String :=
  if ∃ indexes ∈ a.machineUsers wildcard, UInt32.ofNat userIndex ∈ indexes then
    .ok s!"granted via wildcard (index: {userIndex})"
  else
    match a.machineUsers osUsername with
    | none => .error .noMachineUserMapping
    | some indexes =>
      if UInt32.ofNat userIndex ∈ indexes then .ok s!"granted (index: {userIndex})"
      else .error .userNotMappedToOSUser

/-- The place of the first equal hash is looked for. -/
def authorize [DecidableEq H] (hash : String → H) (a : Authorizer H)
    (jwtUserID osUsername : String) : Except AuthError String :=
  if jwtUserID = "" then .error .emptyUserID
  else if hash jwtUserID ∉ a.authorizedUsers then .error .userNotAuthorized
  else a.checkMachineUserMapping osUsername (a.authorizedUsers.idxOf (hash jwtUserID))

end Authorizer

open Authorizer

variable {ids ids' users : List String} {u o : String} {m : GoMap (List String)}

/-- Users numbered later change no number. -/
theorem number_grown (h : ids <+: ids') (hu : u ∈ ids) : number ids' u = number ids u := by
  obtain ⟨rest, rfl⟩ := h
  rw [number, number, idxOf_append_of_mem hu]

theorem addUsers (users : List String) : ∀ (ids : List String) (l : List UInt32),
    let s := users.foldl addUser (ids, l)
    ids <+: s.1 ∧ users ⊆ s.1 ∧ s.2 = l ++ users.map (number s.1) := by
  induction users with
  | nil => intro ids l; simp
  | cons u users ih =>
    intro ids l
    have hp : ids <+: (addUser (ids, l) u).1 ∧ u ∈ (addUser (ids, l) u).1 := by
      unfold addUser
      split
      · exact ⟨prefix_rfl, ‹_›⟩
      · exact ⟨prefix_append .., by simp⟩
    obtain ⟨hp', hs, hi⟩ := ih (addUser (ids, l) u).1 (addUser (ids, l) u).2
    refine ⟨hp.1.trans hp', cons_subset.mpr ⟨hp'.subset hp.2, hs⟩, hi.trans ?_⟩
    rw [map_cons, foldl_cons, number_grown hp' hp.2, addUser, append_assoc, singleton_append]

/-- **What is sent.**  One numbering serves all machine users. -/
theorem numberAll_spec (l : List (Sigma fun _ : String => List String)) : ∀ ids : List String,
    let r := numberAll ids l
    ids <+: r.1 ∧ ∀ o, r.2 o = (dlookup o l).map (·.map (number r.1)) ∧
      ∀ users ∈ dlookup o l, users ⊆ r.1 := by
  induction l with
  | nil => intro ids; exact ⟨prefix_rfl, fun o => ⟨rfl, by simp⟩⟩
  | cons x l ih =>
    intro ids
    obtain ⟨hp, hs, hi⟩ := addUsers x.2 ids []
    obtain ⟨hp', hr⟩ := ih (x.2.foldl addUser (ids, [])).1
    refine ⟨hp.trans hp', fun o => ?_⟩
    by_cases ho : o = x.1
    · subst ho
      rw [dlookup_cons_eq]
      refine ⟨(Function.update_self ..).trans (congrArg some (hi.trans ?_)), ?_⟩
      · exact map_congr_left fun u hu => (number_grown hp' (hs hu)).symm
      · rintro users ⟨⟩
        exact fun u hu => hp'.subset (hs hu)
    · rw [dlookup_cons_ne _ _ ho]
      exact ⟨(Function.update_of_ne ho ..).trans (hr o).1, (hr o).2⟩

/-- The users of the map, once each. -/
def distinctUsers (m : GoMap (List String)) : List String := (m.entries.flatMap (·.2)).dedup

/-- Numbering the users of one machine user numbers each once, and no others. -/
theorem nodup_addUsers (users : List String) : ∀ (ids : List String) (l : List UInt32), ids.Nodup →
    (users.foldl addUser (ids, l)).1.Nodup ∧
      ∀ u ∈ (users.foldl addUser (ids, l)).1, u ∈ ids ∨ u ∈ users := by
  induction users with
  | nil => exact fun ids l hn => ⟨hn, fun u hu => .inl hu⟩
  | cons v users ih =>
    intro ids l hn
    have ha : (addUser (ids, l) v).1.Nodup ∧ ∀ u ∈ (addUser (ids, l) v).1, u ∈ ids ∨ u = v := by
      by_cases hv : v ∈ ids
      · simp only [addUser, hv, if_true]
        exact ⟨hn, fun u hu => .inl hu⟩
      · simp only [addUser, hv, if_false, mem_append, mem_singleton]
        exact ⟨hn.append (nodup_singleton v) (disjoint_singleton.mpr hv), fun u hu => hu⟩
    obtain ⟨hn', hs⟩ := ih _ (addUser (ids, l) v).2 ha.1
    refine ⟨hn', fun u hu => ?_⟩
    rcases hs u hu with hu | hu
    · rcases ha.2 u hu with hu | rfl
      · exact .inl hu
      · exact .inr mem_cons_self
    · exact .inr (mem_cons_of_mem v hu)

/-- … and so does numbering all. -/
theorem nodup_numberAll (l : List (Sigma fun _ : String => List String)) :
    ∀ ids : List String, ids.Nodup →
      (numberAll ids l).1.Nodup ∧ ∀ u ∈ (numberAll ids l).1, u ∈ ids ∨ u ∈ l.flatMap (·.2) := by
  induction l with
  | nil => exact fun ids hn => ⟨hn, fun u hu => .inl hu⟩
  | cons x l ih =>
    intro ids hn
    obtain ⟨ha, hs⟩ := nodup_addUsers x.2 ids [] hn
    obtain ⟨hn', hs'⟩ := ih _ ha
    refine ⟨hn', fun u hu => ?_⟩
    rw [flatMap_cons, mem_append]
    rcases hs' u hu with hu | hu
    · exact (hs u hu).imp_right .inl
    · exact .inr (.inr hu)

/-- No more users are numbered than the map has. -/
theorem length_numberAll_le (m : GoMap (List String)) :
    (numberAll [] m.entries).1.length ≤ (distinctUsers m).length := by
  obtain ⟨hn, hs⟩ := nodup_numberAll m.entries [] nodup_nil
  refine (hn.subperm fun u hu => ?_).length_le
  exact mem_dedup.mpr ((hs u hu).resolve_left not_mem_nil)

theorem checkMachineUserMapping_isOk {a : Authorizer H} : (a.checkMachineUserMapping o i).isOk ↔
    ∃ k ∈ [o, wildcard], ∃ indexes ∈ a.machineUsers k, ofNat i ∈ indexes := by
  rw [checkMachineUserMapping, exists_mem_cons_iff, exists_mem_cons_iff]
  by_cases hw : ∃ indexes ∈ a.machineUsers wildcard, ofNat i ∈ indexes
  · rw [if_pos hw]
    exact iff_of_true rfl (.inr (.inl hw))
  rw [if_neg hw]
  cases ho : a.machineUsers o with
  | none => simpa [Except.isOk, Except.toBool] using hw
  | some indexes =>
    by_cases hm : ofNat i ∈ indexes
    · simp [Except.isOk, Except.toBool, hm]
    · simpa [Except.isOk, Except.toBool, hm] using hw

variable [DecidableEq H] {hash : String → H}

theorem idxOf_map_hash (hi : Function.Injective hash) :
    (ids.map hash).idxOf (hash u) = ids.idxOf u := by
  induction ids with
  | nil => rfl
  | cons v ids ih => by_cases h : v = u <;> simp [h, hi.ne, ih]

/-- Who is let in, by the numbers. -/
theorem authorize_iff_number (hi : Function.Injective hash) (hu : u ≠ "") :
    ((update (buildAuthorizedUsersProto hash m)).authorize hash u o).isOk ↔
      u ∈ (numberAll [] m.entries).1 ∧ ∃ k ∈ [o, wildcard], ∃ users ∈ m.lookup k, ∃ v ∈ users,
        number (numberAll [] m.entries).1 v = number (numberAll [] m.entries).1 u := by
  have hs := (numberAll_spec m.entries []).2
  by_cases hm : u ∈ (numberAll [] m.entries).1
  · have hm' : hash u ∈ (update (buildAuthorizedUsersProto hash m)).authorizedUsers :=
      mem_map_of_mem hm
    rw [authorize, if_neg hu, if_neg (not_not.mpr hm'), checkMachineUserMapping_isOk,
      and_iff_right hm]
    refine exists_congr fun k => and_congr_right fun _ => ?_
    simp only [update, buildAuthorizedUsersProto, idxOf_map_hash hi, (hs k).1, AList.lookup]
    cases dlookup k m.entries with
    | none => simp
    | some users => by_cases hn : users = [] <;> simp [hn, number]
  · have hm' : hash u ∉ (update (buildAuthorizedUsersProto hash m)).authorizedUsers :=
      fun h => hm ((mem_map_of_injective hi).mp h)
    rw [authorize, if_neg hu, if_pos hm']
    simp [hm, Except.isOk, Except.toBool]

/-- **Who is let in.**  With no more users than numbers, those the map gives access
    under the name or under the wildcard. -/
theorem authorize_iff (hinj : Function.Injective hash)
    (hlen : (distinctUsers m).length ≤ 2 ^ 32) (hu : u ≠ "") :
    ((update (buildAuthorizedUsersProto hash m)).authorize hash u o).isOk ↔
      ∃ k ∈ [o, wildcard], ∃ users ∈ m.lookup k, u ∈ users := by
  rw [authorize_iff_number hinj hu]
  have ha := fun k users hus => ((numberAll_spec m.entries []).2 k).2 users hus
  replace hlen := (length_numberAll_le m).trans hlen
  constructor
  · rintro ⟨hm, k, hk, users, hus, v, hv, hn⟩
    have hvi := (idxOf_lt_length_of_mem (ha k users hus hv)).trans_le hlen
    have hui := (idxOf_lt_length_of_mem hm).trans_le hlen
    have he := congrArg toNat hn
    rw [number, number, toNat_ofNat', toNat_ofNat', Nat.mod_eq_of_lt hvi,
      Nat.mod_eq_of_lt hui] at he
    exact ⟨k, hk, users, hus, (idxOf_inj (ha k users hus hv)).mp he ▸ hv⟩
  · rintro ⟨k, hk, users, hus, hu⟩
    exact ⟨ha k users hus hu, k, hk, users, hus, u, hu, rfl⟩

/-- Machine users that each have one user, of the same name. -/
def ownUsers (names : List String) : GoMap (List String) := insertAll (fun o => [o]) names ∅

theorem authorize_own :
    ((update (buildAuthorizedUsersProto id (ownUsers ["u", "v"]))).authorize id "v" "v").isOk :=
  (authorize_iff (fun _ _ h => h) (by decide) (by decide)).mpr
    ⟨"v", by decide, ["v"], by decide, by decide⟩

/-- Where there are more names than numbers, one is let in under the name of another. -/
theorem exists_shared_number {names : List String} (hn : names.Nodup)
    (hle : 2 ^ 32 < names.length) (he : "" ∉ names) (hs : wildcard ∉ names) : ∃ u o, u ≠ "" ∧
      ((update (buildAuthorizedUsersProto id (ownUsers names))).authorize id u o).isOk ∧
      ∀ k ∈ [o, wildcard], ∀ users ∈ (ownUsers names).lookup k, u ∉ users := by
  have hl : ∀ k, (ownUsers names).lookup k = if k ∈ names then some [k] else none :=
    fun k => lookup_insertAll ..
  obtain ⟨u, hu, o, ho, hne, hnu⟩ := Finset.exists_ne_map_eq_of_card_lt_of_maps_to
    (s := names.toFinset) (t := Finset.range (2 ^ 32))
    (f := fun u => (numberAll [] (ownUsers names).entries).1.idxOf u % 2 ^ 32)
    (by rwa [Finset.card_range, toFinset_card_of_nodup hn])
    (fun u _ => Finset.mem_range.mpr (Nat.mod_lt _ (Nat.two_pow_pos 32)))
  rw [mem_toFinset] at hu ho
  have hu0 : u ≠ "" := fun h => he (h ▸ hu)
  refine ⟨u, o, hu0,
    (authorize_iff_number Function.injective_id hu0).mpr ⟨?_, o, mem_cons_self, [o],
    (hl o).trans (if_pos ho), o, mem_cons_self, ?_⟩, fun k hk users hus => ?_⟩
  · exact ((numberAll_spec _ []).2 u).2 [u] ((hl u).trans (if_pos hu)) mem_cons_self
  · exact UInt32.toNat_inj.mp
      (by rw [number, number, UInt32.toNat_ofNat', UInt32.toNat_ofNat', hnu])
  grind

/-- Of 2³² + 1 users that each have one machine user, one is let in under the name of another. -/
theorem shared_number_granted : ∃ m : GoMap (List String), ∃ u o, u ≠ "" ∧
    ((update (buildAuthorizedUsersProto id m)).authorize id u o).isOk ∧
    ∀ k ∈ [o, wildcard], ∀ users ∈ m.lookup k, u ∉ users := by
  have hl : ∀ n, ∀ s ∈ (range n).map fun i => String.ofList (replicate (i + 2) 'a'),
      1 < s.length := by
    intro n s hs
    obtain ⟨i, -, rfl⟩ := mem_map.mp hs
    simp
  refine ⟨_, @exists_shared_number ((range (2 ^ 32 + 1)).map fun i =>
    String.ofList (replicate (i + 2) 'a')) ?_ ?_ (fun h => ?_) (fun h => ?_)⟩
  · refine nodup_range.map fun i j h => ?_
    simpa using congrArg String.length h
  · rw [length_map, length_range]
    exact Nat.lt_succ_self _
  all_goals exact absurd (hl _ _ h) (by decide)

end SshAuth

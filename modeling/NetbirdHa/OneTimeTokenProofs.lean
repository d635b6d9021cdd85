import NetbirdHa.TransitionProofs

/-! # One-time tokens

`ValidateAndConsume` looks a token up in the cache, checks what it finds against
the IDs it was given, deletes the entry and reports success.  The cache is shared
by all instances; each of its operations is atomic, and the call takes one
step per operation.

One token, stored once by `GenerateToken`, and any number of calls that present
it. -/

namespace OneTimeToken

open Transition List Option

/-- `tokenMetadata`, as far as it is checked. -/
structure Metadata where
  serviceID : String
  accountID : String
  expiresAt : Int
deriving DecidableEq

/-- Where a call stands; `returned none` is success. -/
inductive Phase where
  | get
  /-- The entry was found. -/
  | validate
  | delete
  | returned (err : Option String)
deriving DecidableEq

/-- One validation, and how far it is. -/
structure Call where
  accountID : String
  serviceID : String
  phase : Phase := .get
deriving DecidableEq

/-- The entry of the token is in the cache, and the calls so far. -/
structure State where
  stored : Bool := true
  calls : List Call := []
deriving DecidableEq

/-- The atomic steps.  The arguments say what the cache answers and what the clock shows. -/
inductive Action where
  | call (accountID serviceID : String)
  | get (k : Nat) (ok : Bool)
  | validate (k : Nat) (now : Int)
  /-- `Delete` is carried out, or fails. -/
  | delete (k : Nat) (ok : Bool)
  /-- the entry's TTL runs out. -/
  | expire
deriving DecidableEq

section

variable (entry : Option Metadata)

section

variable (s : State) (c : Call) (now : Int)

/-- The checks of `ValidateAndConsume` on the entry, `none` if its text is not the
    JSON of a `tokenMetadata`: the text of the error, if there is one. -/
def validate : Option String :=
  match entry with
  | none => some "invalid token metadata"
  | some md =>
    if md.expiresAt < now then some "token expired"
    else if md.accountID ≠ c.accountID then some "account ID mismatch"
    else if md.serviceID ≠ c.serviceID then some "service ID mismatch"
    else none

/-- The call after its checks. -/
def validated : Call :=
  match validate entry c now with
  | none => { c with phase := .delete }
  | some err => { c with phase := .returned (some err) }

/-- `Get`; an error of the cache is taken for a token that is not there. -/
def looked (stored : Bool) (c : Call) (ok : Bool) : Call :=
  { c with phase := if stored && ok then .validate else .returned (some "invalid token") }

/-- One atomic step; `none` when it is not enabled. -/
def step : Action → Option State
  | .call accountID serviceID => some { s with calls := s.calls ++ [{ accountID, serviceID }] }
  | .get k ok =>
    (s.calls[k]?).bind (fun c =>
      if c.phase = .get then some { s with calls := s.calls.set k (looked s.stored c ok) }
      else none)
  | .validate k now =>
    (s.calls[k]?).bind (fun c =>
      if c.phase = .validate then some { s with calls := s.calls.set k (validated entry c now) }
      else none)
  | .delete k ok =>
    -- an error is only logged
    (s.calls[k]?).bind (fun c =>
      if c.phase = .delete then
        some { stored := s.stored && !ok,
               calls := s.calls.set k { c with phase := .returned none } }
      else none)
  | .expire => some { s with stored := false }

/-- At most one call has succeeded. -/
def SingleUse : Prop :=
  ∀ (i j : Nat) c d, s.calls[i]? = some c → s.calls[j]? = some d →
    c.phase = .returned none → d.phase = .returned none → i = j

/-- The IDs the call was given are those of the token. -/
def Call.Matches : Prop :=
  entry.any (fun md => md.accountID == c.accountID && md.serviceID == c.serviceID) = true
deriving Decidable

/-- The call has found the entry and will succeed, unless the token expires first. -/
def Call.Holds : Prop :=
  (c.phase = .validate ∨ c.phase = .delete) ∧ c.Matches entry
deriving Decidable

/-- The condition on a step, in the state before it.  A call with the token's IDs finds
    the entry only while no other such call is between its `Get` and its `Delete`;
    and a `Delete` does not fail while the entry is there. -/
def StepAllowed : Action → Prop
  | .get k ok => s.stored → ok → ∀ c ∈ s.calls[k]?, c.Matches entry → ∀ d ∈ s.calls, ¬ d.Holds entry
  | .delete _ ok => s.stored → ok
  | _ => True

end

instance (s : State) : (a : Action) → Decidable (StepAllowed entry s a)
  | .get k ok => inferInstanceAs (Decidable (s.stored → ok → ∀ c ∈ s.calls[k]?,
      c.Matches entry → ∀ d ∈ s.calls, ¬ d.Holds entry))
  | .delete _ ok => inferInstanceAs (Decidable (s.stored → ok))
  | .call _ _ | .validate _ _ | .expire => isTrue trivial

/-! ## The invariant -/

/-- The call has used the token, or holds it. -/
def Call.Claims (c : Call) : Prop :=
  c.phase = .returned none ∨ c.Holds entry

/-- One call at most has used the token or holds it; what passed the checks has the
    token's IDs; and the entry of a used token is gone. -/
structure Inv (s : State) : Prop where
  single : ∀ (i j : Nat) c d, s.calls[i]? = some c → s.calls[j]? = some d → c.Claims entry →
    d.Claims entry → i = j
  checked : ∀ (i : Nat) c, s.calls[i]? = some c → c.phase = .delete → c.Matches entry
  gone : ∀ (i : Nat) c, s.calls[i]? = some c → c.phase = .returned none → s.stored = false

end

variable {k i : Nat} {d : Call}

section

variable {entry : Option Metadata} {s s' : State} {c : Call}

/-- A call passes the checks only with the token's IDs. -/
theorem matches_of_validate (h : validate entry c now = none) : c.Matches entry := by
  unfold validate at h
  grind [Call.Matches]

/-- … and with them it passes as long as the token has not expired. -/
theorem validate_of_matches (h : c.Matches entry) : ∃ now, validate entry c now = none := by
  cases entry with
  | none => cases h
  | some md =>
    simp only [Call.Matches, any_some, Bool.and_eq_true, beq_iff_eq] at h
    exact ⟨md.expiresAt, by simp [validate, h.1, h.2]⟩

/-- Replacing one call keeps the invariant if the new record claims the token only
    where the old one did, or nobody else does. -/
theorem Inv.set (hI : Inv entry s) (hk : s.calls[k]? = some c)
    (hcl : c'.Claims entry → c.Claims entry ∨ ∀ (j : Nat) d, j ≠ k → s.calls[j]? = some d →
      ¬ d.Claims entry)
    (hch : c'.phase = .delete → c'.Matches entry) (hs : s.stored = false → b = false)
    (hg : c'.phase = .returned none → b = false) :
    Inv entry { stored := b, calls := s.calls.set k c' } := by
  have ho : ∀ (j : Nat) d, j ≠ k → s.calls[j]? = some d → c'.Claims entry → ¬ d.Claims entry := by
    intro j d hne hj hc' hd
    rcases hcl hc' with hc | hn
    · exact hne (hI.single j k d c hj hk hd hc)
    · exact hn j d hne hj hd
  constructor
  · intro i j x y hi hj hx hy
    rw [getElem?_set_of_some hk] at hi hj
    split at hi <;> split at hj
    · rename_i h₁ h₂
      exact h₁.trans h₂.symm
    · rename_i h₁ h₂
      cases hi
      exact absurd hy (ho j y h₂ hj hx)
    · rename_i h₁ h₂
      cases hj
      exact absurd hx (ho i x h₁ hi hy)
    · exact hI.single i j x y hi hj hx hy
  · exact forall_set hk (fun j d _ hd => hI.checked j d hd) hch
  · exact forall_set hk (fun j d _ hd hr => hs (hI.gone j d hd hr)) hg

/-- **One step** of an allowed run keeps the invariant. -/
theorem inv_step (hI : Inv entry s) (ho : StepAllowed entry s a)
    (h : step entry s a = some s') : Inv entry s' := by
  cases a with
  | call accountID serviceID =>
    cases h
    have hold : ∀ (i : Nat) c, (s.calls ++ [({ accountID, serviceID } : Call)])[i]? = some c →
        c.Claims entry → s.calls[i]? = some c :=
      forall_concat (fun _ _ h _ => h) fun hc => by simp [Call.Claims, Call.Holds] at hc
    refine ⟨fun i j c d hi hj hc hd => ?_, forall_concat hI.checked nofun,
      forall_concat hI.gone nofun⟩
    exact hI.single i j c d (hold i c hi hc) (hold j d hj hd) hc hd
  | expire =>
    cases h
    exact ⟨hI.single, hI.checked, fun _ _ _ _ => rfl⟩
  | get k ok =>
    obtain ⟨c, hk, hp, h⟩ := bind_ite_eq_some.mp h
    cases h
    cases hf : s.stored && ok with
    | false =>
      refine hI.set hk (absurd · ?_) ?_ id ?_ <;>
      simp [looked, hf, Call.Claims, Call.Holds]
    | true =>
      rw [Bool.and_eq_true] at hf
      refine hI.set hk (fun hc => .inr fun j d _ hj hd => ?_) ?_ id ?_
      · -- nobody has used the token, and nobody holds it
        rcases hc with hc | hc
        · simp [looked, hf] at hc
        rcases hd with hd | hd
        · have := hI.gone j d hj hd
          rw [hf.1] at this
          cases this
        · exact ho hf.1 hf.2 c hk hc.2 d (mem_of_getElem? hj) hd
      · simp [looked, hf]
      · simp [looked, hf]
  | validate k now =>
    obtain ⟨c, hk, hp, h⟩ := bind_ite_eq_some.mp h
    cases h
    cases he : validate entry c now with
    | none =>
      have hm := matches_of_validate he
      refine hI.set hk (fun _ => .inl (.inr ⟨.inl hp, hm⟩)) (fun _ => ?_) id ?_
      · rw [validated, he]
        exact hm
      · simp [validated, he]
    | some err => refine hI.set hk ?_ ?_ id ?_ <;> simp [validated, he, Call.Claims, Call.Holds]
  | delete k ok =>
    obtain ⟨c, hk, hp, h⟩ := bind_ite_eq_some.mp h
    cases h
    have hg : (s.stored && !ok) = false := by
      cases hs : s.stored with
      | false => rfl
      | true => rw [ho hs]; rfl
    refine hI.set hk (fun _ => .inl (.inr ⟨.inr hp, hI.checked k c hk hp⟩)) nofun
      (fun _ => hg) fun _ => hg

theorem inv_init : Inv entry {} := ⟨nofun, nofun, nofun⟩

end

/-! ## The condition is exact -/

section

variable {entry : Option Metadata} {s : State} {c : Call}

theorem step_delete (entry : Option Metadata) (ok : Bool) (hk : s.calls[k]? = some c)
    (hp : c.phase = .delete) : step entry s (.delete k ok) = some
      { stored := s.stored && !ok, calls := s.calls.set k { c with phase := .returned none } } := by
  simp only [step, hk, bind_some, hp, if_true]

/-- A call that holds the token can succeed, whatever the others do. -/
theorem exists_success (hk : s.calls[k]? = some c) (hc : c.Holds entry) :
    ∃ s', Leads (step entry) (StepAllowed entry) s s' ∧
      s'.calls[k]? = some { c with phase := .returned none } ∧
      ∀ j, j ≠ k → s'.calls[j]? = s.calls[j]? := by
  rcases hc with ⟨hp | hp, hm⟩
  · obtain ⟨now, hn⟩ := validate_of_matches hm
    have h₁ : step entry s (.validate k now) =
        some { s with calls := s.calls.set k { c with phase := .delete } } := by
      simp only [step, hk, bind_some, hp, if_true, validated, hn]
    have hk' : (s.calls.set k { c with phase := .delete })[k]? =
        some { c with phase := .delete } := by rw [getElem?_set_of_some hk, if_pos rfl]
    have h₂ := step_delete entry true
      (s := { s with calls := s.calls.set k { c with phase := .delete } }) hk' rfl
    refine ⟨_, ((Leads.refl _ _ _).head h₂ fun _ => rfl).head h₁ trivial, ?_, fun j hj => ?_⟩
    · rw [getElem?_set_of_some hk', if_pos rfl]
    · rw [getElem?_set_of_some hk', if_neg hj, getElem?_set_of_some hk, if_neg hj]
  · have h := step_delete entry true hk hp
    refine ⟨_, (Leads.refl _ _ _).head h fun _ => rfl, ?_, fun j hj => ?_⟩
    · rw [getElem?_set_of_some hk, if_pos rfl]
    · rw [getElem?_set_of_some hk, if_neg hj]

/-- A call that holds the token beside another that has used it can succeed too. -/
theorem exists_second_success (hn : i ≠ k) (hi : s.calls[i]? = some d)
    (hd : d.phase = .returned none) (hk : s.calls[k]? = some c) (hc : c.Holds entry) :
    ∃ s', Leads (step entry) (StepAllowed entry) s s' ∧ ¬ SingleUse s' := by
  grind [exists_success, SingleUse]

/-- While the entry of a used token is there, a call that looks it up can succeed. -/
theorem exists_success_of_get (hs : s.stored) (hne : i ≠ k) (hi : s.calls[i]? = some d)
    (hd : d.phase = .returned none) (hk : s.calls[k]? = some c) (hp : c.phase = .get)
    (hm : c.Matches entry) (hn : ∀ x ∈ s.calls, ¬ x.Holds entry) :
    ∃ s', Leads (step entry) (StepAllowed entry) s s' ∧ ¬ SingleUse s' := by
  have h : step entry s (.get k true) =
      some { s with calls := s.calls.set k { c with phase := .validate } } := by
    simp [step, hk, bind_some, hp, looked, hs]
  obtain ⟨s', hl, hb⟩ := exists_second_success (d := d)
    (s := { s with calls := s.calls.set k { c with phase := .validate } })
    (c := { c with phase := .validate }) hne
    (by rw [getElem?_set_of_some hk, if_neg hne, hi]) hd
    (by rw [getElem?_set_of_some hk, if_pos rfl])
    (show Call.Holds entry _ from ⟨.inl rfl, hm⟩)
  exact ⟨s', hl.head h fun _ _ _ _ _ => hn, hb⟩

/-- … and such a call can always come. -/
theorem exists_late_success (he : entry = some md) (hs : s.stored) (hi : s.calls[i]? = some d)
    (hd : d.phase = .returned none) (hn : ∀ x ∈ s.calls, ¬ x.Holds entry) :
    ∃ s', Leads (step entry) (StepAllowed entry) s s' ∧ ¬ SingleUse s' := by
  have hlt : i < s.calls.length := (List.getElem?_eq_some_iff.mp hi).1
  let late : Call := { accountID := md.accountID, serviceID := md.serviceID }
  have h : step entry s (.call md.accountID md.serviceID) =
      some { s with calls := s.calls ++ [late] } := rfl
  have hn' : ∀ x ∈ s.calls ++ [late], ¬ x.Holds entry := by
    intro x hx
    rcases mem_append.mp hx with hx | hx
    · exact hn x hx
    · rw [mem_singleton.mp hx]
      simp [Call.Holds, late]
  obtain ⟨s', hl, hb⟩ := exists_success_of_get (c := late)
    (s := { s with calls := s.calls ++ [late] }) hs (Nat.ne_of_lt hlt)
    ((List.getElem?_append_left hlt).trans hi) hd List.getElem?_concat_length rfl
    (by simp [Call.Matches, he, late]) hn'
  exact ⟨s', hl.head h trivial, hb⟩

/-- A step that is not allowed can be followed by a second success. -/
theorem exists_success_of_not_allowed (hI : Inv entry s)
    (h : ¬ StepAllowed entry s a) (hs : step entry s a = some m) :
    ∃ s', Leads (step entry) (StepAllowed entry) m s' ∧ ¬ SingleUse s' := by
  cases a with
  | call accountID serviceID | validate k now | expire => exact absurd trivial h
  | get k ok =>
    simp only [StepAllowed, not_forall, not_not] at h
    obtain ⟨hst, rfl, c, hk, hm, d, hd, hh⟩ := h
    obtain ⟨j, hj⟩ := mem_iff_getElem?.mp hd
    obtain ⟨c', hk', hs⟩ := bind_eq_some_iff.mp hs
    cases hk.symm.trans hk'
    obtain ⟨hph, hs⟩ := ite_none_right_eq_some.mp hs
    cases hs
    have hn : j ≠ k := by
      rintro rfl
      cases hk.symm.trans hj
      rcases hh.1 with hp | hp <;> cases hph.symm.trans hp
    have hg := getElem?_set_of_some hk (looked s.stored c true)
    obtain ⟨m, hf, hdo, hsa⟩ := exists_success
      (s := { s with calls := s.calls.set k (looked s.stored c true) })
      ((hg j).trans ((if_neg hn).trans hj)) hh
    have hc : (looked s.stored c true).Holds entry := by
      rw [hst]
      exact ⟨.inl rfl, hm⟩
    obtain ⟨s', hs, hb⟩ := exists_second_success hn hdo rfl
      ((hsa k (Ne.symm hn)).trans ((hg k).trans (if_pos rfl))) hc
    exact ⟨s', hf.trans hs, hb⟩
  | delete k ok =>
    simp only [StepAllowed, Classical.not_imp, Bool.not_eq_true] at h
    obtain ⟨hst, rfl⟩ := h
    obtain ⟨c, hk, hph, hs⟩ := bind_ite_eq_some.mp hs
    cases hs
    have hm := hI.checked k c hk hph
    obtain ⟨md, he⟩ : ∃ md, entry = some md := by
      cases entry with
      | none => cases hm
      | some md => exact ⟨md, rfl⟩
    refine exists_late_success he (by rw [hst]; rfl) (i := k)
      (d := { c with phase := .returned none }) ?_ rfl ?_
    · rw [getElem?_set_of_some hk, if_pos rfl]
    · intro x hx hh
      obtain ⟨j, hj⟩ := mem_iff_getElem?.mp hx
      rw [getElem?_set_of_some hk] at hj
      split at hj
      · cases hj
        rcases hh.1 with hp | hp <;> cases hp
      · rename_i hn
        exact hn (hI.single j k x c hj hk (.inr hh) (.inr ⟨.inr hph, hm⟩))

end

/-- **A token is used once**, if the lookups of the calls that have its IDs do not overlap and no
    deletion fails; and a step that breaks this can be followed by a second success. -/
theorem singleUse_iff_allowed (entry : Option Metadata) (as : List Action) (s : State)
    (hok : AllowedRun (step entry) (StepAllowed entry) {} as)
    (h : run (step entry) {} as = some s) :
    SingleUse s ∧ ∀ a m, step entry s a = some m →
      (StepAllowed entry s a ↔ ∀ bs s', AllowedRun (step entry) (StepAllowed entry) m bs →
        run (step entry) m bs = some s' → SingleUse s') :=
  run_good_exact (fun _ _ _ => inv_step) (fun _ hI i j c d hi hj hc hd =>
    hI.single i j c d hi hj (.inl hc) (.inl hd))
    (fun _ _ _ => exists_success_of_not_allowed) inv_init hok h

/-- A token of service `svc` of account `acc`. -/
def sample : Metadata := { serviceID := "svc", accountID := "acc", expiresAt := 10 }

/-- One call after the other: the second finds no entry. -/
theorem second_call_refused :
    ∃ s, run (step (some sample)) {} [.call "acc" "svc", .call "acc" "svc", .get 0 true,
        .validate 0 5, .delete 0 true, .get 1 true] = some s ∧ SingleUse s :=
  exists_end rfl fun s hs => (singleUse_iff_allowed (some sample) _ s (by decide) hs).1

/-- Two calls find the entry before either deletes it; and a call finds the entry that
    another failed to delete. -/
theorem token_used_twice :
    (∃ s, run (step (some sample)) {} [.call "acc" "svc", .call "acc" "svc", .get 0 true,
        .get 1 true, .validate 0 5, .validate 1 5, .delete 0 true, .delete 1 true] = some s ∧
      ¬ SingleUse s) ∧
    ∃ s, run (step (some sample)) {} [.call "acc" "svc", .get 0 true, .validate 0 5,
        .delete 0 false, .call "acc" "svc", .get 1 true, .validate 1 5, .delete 1 true] = some s ∧
      ¬ SingleUse s :=
  ⟨⟨_, rfl, fun h => nomatch h 0 1 _ _ rfl rfl rfl rfl⟩,
    _, rfl, fun h => nomatch h 0 1 _ _ rfl rfl rfl rfl⟩

end OneTimeToken

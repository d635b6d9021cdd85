import NetbirdHa.TransitionProofs

/-! # Peers added with one setup key

`AddPeer` checks the key before anything else, without a lock.  What counts is the
second check: inside the transaction that inserts the peer the key is read again with
a lock that is held until the transaction ends, and only a key that is still valid is
counted up and the peer committed with it.  A transaction that runs into a taken
address or label is rolled back and tried again, up to ten times.

`uses_bounded` holds for every interleaving of any number of calls: between the locked
read and the commit nobody else commits, so the count that was checked is the count
that is raised. -/

namespace KeyUse

open Transition

/-- `SetupKey`; no expiry is `none`. -/
structure SetupKey where
  oneOff : Bool
  usageLimit : Int
  usedTimes : Nat := 0
  revoked : Bool := false
  expiresAt : Option Int := none
deriving DecidableEq

section

variable (s : State) (key : SetupKey) (now : Int)

/-- The limit as `IsOverUsed` takes it. -/
def SetupKey.limit : Int := if key.oneOff then 1 else key.usageLimit

/-- `IsOverUsed`: a limit of zero is no limit. -/
def SetupKey.isOverUsed : Bool := 0 < key.limit && key.limit ≤ key.usedTimes

/-- `IsExpired`. -/
def SetupKey.isExpired : Bool := key.expiresAt.any (· < now)

/-- `IsValid`. -/
def SetupKey.isValid : Bool :=
  !key.revoked && !key.isExpired now && !key.isOverUsed

/-- How far a call of `AddPeer` is; the number is that of the attempts left. -/
inductive Phase where
  | start
  | attempts (left : Nat)
  /-- In the transaction, with the peer inserted. -/
  | inserted (left : Nat)
  /-- In the transaction, with the key locked, found valid and counted up. -/
  | counted (left : Nat)
  | added
  | refused
deriving DecidableEq

/-- What is committed, who holds the lock, and the calls. -/
structure State where
  key : SetupKey
  peers : List Nat := []
  lock : Option Nat := none
  calls : List Phase
deriving DecidableEq

/-- What a registration does next. -/
inductive Action where
  /-- `handleSetupKeyAddedPeer`. -/
  | check (i : Nat) (now : Int)
  /-- `AddPeerToAccount`; the unique constraints may refuse the row. -/
  | insert (i : Nat) (taken : Bool)
  /-- The locked `GetSetupKeyBySecret`, `IsValid` and `IncrementSetupKeyUsage`. -/
  | count (i : Nat) (now : Int)
  /-- Any other failure of the transaction; it may be one that is tried again. -/
  | fail (i : Nat) (again : Bool)
  | commit (i : Nat)

/-- How often a free address is sought. -/
def maxAttempts : Nat := 10

/-- The call goes on; the lock is given up with the transaction. -/
def State.leave (i : Nat) (phase : Phase) : State :=
  { s with lock := if s.lock = some i then none else s.lock, calls := s.calls.set i phase }

/-- One registration takes its next step. -/
def step : Action → Option State
  | .check i now =>
    match s.calls[i]? with
    | some .start =>
      some (s.leave i (if s.key.isValid now then .attempts maxAttempts else .refused))
    | _ => none
  | .insert i taken =>
    match s.calls[i]? with
    | some (.attempts (left + 1)) =>
      some (s.leave i (if taken then .attempts left else .inserted left))
    | some (.attempts 0) => some (s.leave i .refused)
    | _ => none
  | .count i now =>
    match s.calls[i]? with
    | some (.inserted left) =>
      if s.lock ≠ none then none
      else if s.key.isValid now then
        some { s with lock := some i, calls := s.calls.set i (.counted left) }
      else some (s.leave i .refused)
    | _ => none
  | .fail i again =>
    match s.calls[i]? with
    | some (.inserted left) | some (.counted left) =>
      some (s.leave i (if again then .attempts left else .refused))
    | _ => none
  | .commit i =>
    match s.calls[i]? with
    | some (.counted _) =>
      some { s.leave i .added with
        key := { s.key with usedTimes := s.key.usedTimes + 1 }, peers := s.peers ++ [i] }
    | _ => none

end

/-- Whoever has counted the key up holds the lock, and there was room. -/
structure Inv (limit : Int) (s : State) : Prop where
  limit_eq : s.key.limit = limit
  used : s.key.usedTimes = s.peers.length
  bounded : 0 < limit → (s.peers.length : Int) ≤ limit
  holder : ∀ (i : Nat) (c : Phase), s.calls[i]? = some c → ∀ left, c = .counted left →
    s.lock = some i
  room : s.lock ≠ none → 0 < limit → (s.peers.length : Int) < limit

variable {limit : Int} {s s' : State} {i : Nat} {c phase : Phase}

/-- Leaving for a phase without the lock. -/
theorem Inv.leave (h : Inv limit s) (hc : s.calls[i]? = some c)
    (hp : ∀ left, phase ≠ .counted left) : Inv limit (s.leave i phase) := by
  refine ⟨h.limit_eq, h.used, h.bounded, ?_, ?_⟩
  · refine forall_set hc (fun j z hj hz left hle => ?_) (fun left hle => absurd hle (hp left))
    have hl := h.holder j z hz left hle
    exact (if_neg (by rw [hl]; simpa using hj)).trans hl
  · intro hl
    refine h.room fun hn => hl ?_
    simp [State.leave, hn]

theorem inv_step (s : State) (a : Action) (s' : State) (h : Inv limit s) (hs : step s a = some s') :
    Inv limit s' := by
  cases a with
  | check i now | insert i taken | fail i again =>
    simp only [step] at hs
    split at hs <;> cases hs
    all_goals
      refine h.leave ‹_› fun left => ?_
      first | split <;> simp | simp
  | count i now =>
    simp only [step] at hs
    split at hs
    · rename_i left hc
      split at hs
      · cases hs
      rename_i hlo
      split at hs
      · rename_i hv
        cases hs
        -- nobody else has the key locked, and the count just read is below the limit
        refine ⟨h.limit_eq, h.used, h.bounded, ?_, fun _ hp => ?_⟩
        · refine forall_set hc (fun j z hj hz l hl => ?_) (fun _ _ => rfl)
          exact absurd (h.holder j z hz l hl) (by simp [not_not.mp hlo])
        · rw [SetupKey.isValid, SetupKey.isOverUsed, h.limit_eq, h.used] at hv
          grind
      · cases hs
        exact h.leave hc (by simp)
    · cases hs
  | commit i =>
    simp only [step] at hs
    split at hs
    · rename_i left hc
      cases hs
      have hlo := h.holder i _ hc left rfl
      have hr := h.room (by simp [hlo])
      have hle : Inv limit (s.leave i .added) := h.leave hc (by simp)
      have hn : (s.leave i .added).lock = none := if_pos hlo
      refine ⟨h.limit_eq, by simp [h.used], fun hp => ?_, hle.holder, fun hne => ?_⟩
      · simp only [List.length_append, List.length_singleton]
        omega
      · exact absurd hn hne
    · cases hs

/-- **One key, any number of calls.**  The count is the number of peers committed with
    the key, and never above its limit. -/
theorem uses_bounded {key : SetupKey} {n : Nat} {actions : List Action} (hnew : key.usedTimes = 0)
    (hr : run step { key, calls := List.replicate n .start } actions = some s) :
    s.key.usedTimes = s.peers.length ∧ (0 < key.limit → (s.peers.length : Int) ≤ key.limit) := by
  have hi : Inv key.limit { key, calls := List.replicate n .start } := by
    refine ⟨rfl, hnew, fun hp => by simp; omega, fun i c hc left hl => ?_, fun h => absurd rfl h⟩
    rw [List.eq_of_mem_replicate (List.mem_of_getElem? hc)] at hl
    cases hl
  have h := @run_invariant _ _ step (fun _ _ => True) _ (fun s a s' h _ hs => inv_step s a s' h hs)
    actions _ s hi (allowedRun_of_forall _ _ fun _ _ _ => trivial) hr
  exact ⟨h.used, h.bounded⟩

/-- Two calls pass the first check of a one-off key; the second one is refused under the lock. -/
theorem uses_bounded_one_off :
    let s : State := ⟨⟨true, 0, 1, false, none⟩, [0], none, [.added, .refused]⟩
    s.key.usedTimes = s.peers.length ∧ (0 < (1 : Int) → (s.peers.length : Int) ≤ 1) :=
  @uses_bounded _ ⟨true, 0, 0, false, none⟩ 2 [.check 0 0, .check 1 0, .insert 0 false,
    .insert 1 false, .count 0 0, .commit 0, .count 1 0] rfl (by decide)

end KeyUse

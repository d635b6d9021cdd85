import NetbirdHa.TableProofs
import Mathlib.Tactic.Linarith

/-! # The login filter

`loginFilter` bans a peer that logs in too often, and refuses one that changes
its metadata too often.  This is the filter without Redis: one map of peer
states behind a mutex, so `CheckAndAddLogin` is one atomic step.

Times are nanoseconds since the Unix epoch.  A call reads the clock up to three
times, and the readings are part of the call. -/

namespace LoginFilter

open Table List

/-- `time.Minute`. -/
def minute : Int := 60 * 10 ^ 9

/-- The zero `time.Time`: January 1 of year 1. -/
def zeroTime : Int := -62135596800 * 10 ^ 9

/-- `math.MaxUint64`. -/
def maxUint64 : Nat := 2 ^ 64 - 1

/-- The limits of the filter. -/
structure LfConfig where
  reconnThreshold : Int
  baseBlockDuration : Int
  reconnLimitForBan : Nat
  metaChangeLimit : Nat

/-- `initCfg`: the defaults. -/
def initCfg : LfConfig where
  reconnThreshold := 5 * minute
  baseBlockDuration := 10 * minute
  reconnLimitForBan := 30
  metaChangeLimit := 3

/-- What the filter remembers of a peer. -/
structure PeerState where
  currentHash : UInt64 := 0
  sessionCounter : Nat := 0
  sessionStart : Int := zeroTime
  lastSeen : Int := zeroTime
  isBanned : Bool := false
  banLevel : Nat := 0
  banExpiresAt : Int := zeroTime
  metaChangeCounter : Nat := 0
  metaChangeWindowStart : Int := zeroTime
deriving DecidableEq

/-- The clock readings of one call: for the ban, for the metadata window, and of
    `addLoginUnderLock`. -/
structure Readings where
  banCheck : Int
  metaCheck : Int
  added : Int
deriving DecidableEq

/-- One call of `CheckAndAddLogin`. -/
structure Call where
  wgPubKey : String
  metaHash : UInt64
  clock : Readings
deriving DecidableEq

section

variable (cfg : LfConfig)

section

variable (st : PeerState) (metaHash : UInt64) (now : Int) (logged : GoMap PeerState) (c : Call)

/-- `allowLoginUnderLock` for a known state. -/
def allowState (r : Readings) : Bool :=
  if st.isBanned ∧ r.banCheck < st.banExpiresAt then false
  else if metaHash ≠ st.currentHash then
    !(r.metaCheck < st.metaChangeWindowStart + cfg.reconnThreshold ∧
      cfg.metaChangeLimit ≤ st.metaChangeCounter)
  else true

/-- `allowLoginUnderLock`; a peer that is not known is allowed. -/
def allowLogin (st : Option PeerState) (metaHash : UInt64) (r : Readings) : Bool :=
  match st with
  | none => true
  | some st => allowState cfg st metaHash r

/-- The state of a peer that logs in for the first time. -/
def newState : PeerState where
  currentHash := metaHash
  sessionCounter := 1
  sessionStart := now
  lastSeen := now
  metaChangeWindowStart := now
  metaChangeCounter := 1

/-- A ban that is over is lifted, and its level forgotten after a quiet time. -/
def settle : PeerState :=
  let st := if st.isBanned ∧ st.banExpiresAt < now then { st with isBanned := false } else st
  if 0 < st.banLevel ∧ 2 * cfg.baseBlockDuration < now - st.lastSeen then
    { st with banLevel := 0 }
  else st

/-- A login with other metadata starts a new session. -/
def changeMeta : PeerState :=
  let st := if st.metaChangeWindowStart + cfg.reconnThreshold < now then
      { st with metaChangeWindowStart := now, metaChangeCounter := 1 }
    else { st with metaChangeCounter := st.metaChangeCounter + 1 }
  { st with currentHash := metaHash, sessionCounter := 1, sessionStart := now, lastSeen := now }

/-- The ban of a level: twice as long as the one before.  The code computes it with
    floats, which are exact on the levels that occur (`banLevel_le`). -/
def backoff (level : Nat) : Int := cfg.baseBlockDuration * 2 ^ (level - 1)

/-- A login with the same metadata counts, and may be one too many. -/
def countLogin : PeerState :=
  let n := (if maxUint64 - 1000 < st.sessionCounter then 0 else st.sessionCounter) + 1
  if cfg.reconnLimitForBan < n ∧ now - st.sessionStart < cfg.reconnThreshold then
    { st with
      isBanned := true
      banLevel := st.banLevel + 1
      banExpiresAt := now + backoff cfg (st.banLevel + 1)
      sessionCounter := 0
      sessionStart := now
      lastSeen := now }
  else { st with sessionCounter := n, lastSeen := now }

/-- `addLoginUnderLock`. -/
def addLogin (st : Option PeerState) (metaHash : UInt64) (now : Int) : PeerState :=
  match st with
  | none => newState metaHash now
  | some st =>
    let st := settle cfg st now
    if metaHash ≠ st.currentHash then changeMeta cfg st metaHash now else countLogin cfg st now

/-- The state of a peer after a call for it. -/
def loginState (st : Option PeerState) (metaHash : UInt64) (r : Readings) : Option PeerState :=
  if allowLogin cfg st metaHash r then some (addLogin cfg st metaHash r.added) else st

/-- `CheckAndAddLogin`: the answer. -/
def checkLogin : Bool :=
  allowLogin cfg (logged.lookup c.wgPubKey) c.metaHash c.clock

/-- `CheckAndAddLogin`: the map after it. -/
def recordLogin : GoMap PeerState :=
  if checkLogin cfg logged c then
    logged.insert c.wgPubKey (addLogin cfg (logged.lookup c.wgPubKey) c.metaHash c.clock.added)
  else logged

/-- The map after a sequence of calls. -/
def loggedAfter (calls : List Call) : GoMap PeerState :=
  calls.foldl (recordLogin cfg) logged

end

/-- How many calls for the peer are accepted. -/
def accepted (p : String) : GoMap PeerState → List Call → Nat
  | _, [] => 0
  | logged, c :: calls =>
    (if c.wgPubKey = p ∧ checkLogin cfg logged c then 1 else 0) +
      accepted p (recordLogin cfg logged c) calls

end

/-- The peer is banned at that time. -/
def BannedAt (st : Option PeerState) (now : Int) : Prop :=
  ∃ x, st = some x ∧ x.isBanned ∧ now < x.banExpiresAt

instance (st : Option PeerState) (now : Int) : Decidable (BannedAt st now) :=
  decidable_of_iff (st.any (fun x => x.isBanned ∧ now < x.banExpiresAt)) (by
    cases st with
    | none => simp [BannedAt]
    | some x => simp [BannedAt])

/-- The clock never goes back, within a call and from call to call. -/
def ClockMonotone : Int → List Readings → Prop
  | _, [] => True
  | t, r :: rs => t ≤ r.banCheck ∧ r.banCheck ≤ r.metaCheck ∧ r.metaCheck ≤ r.added ∧
      ClockMonotone r.added rs

instance : ∀ (t : Int) (rs : List Readings), Decidable (ClockMonotone t rs)
  | _, [] => inferInstanceAs (Decidable True)
  | _, r :: rs =>
    have := instDecidableClockMonotone r.added rs
    inferInstanceAs (Decidable (_ ∧ _ ∧ _ ∧ _))

/-! ## One peer

Calls for other peers do not matter, so a peer that keeps its metadata is
described by the clock readings of its own calls. -/

section

variable (cfg : LfConfig) (metaHash : UInt64)

/-- The state of the peer after calls with these readings. -/
def stateAfter (st : Option PeerState) (rs : List Readings) : Option PeerState :=
  rs.foldl (fun st r => loginState cfg st metaHash r) st

/-- How many of them are accepted. -/
def acceptedIn : Option PeerState → List Readings → Nat
  | _, [] => 0
  | st, r :: rs =>
    (if allowLogin cfg st metaHash r then 1 else 0) + acceptedIn (loginState cfg st metaHash r) rs

/-- The readings of the calls for a peer. -/
def clocks (p : String) (calls : List Call) : List Readings :=
  (calls.filter (·.wgPubKey = p)).map Call.clock

variable {cfg metaHash} {p : String}

theorem stateAfter_cons (st : Option PeerState) (r : Readings) (rs : List Readings) :
    stateAfter cfg metaHash st (r :: rs) =
      stateAfter cfg metaHash (loginState cfg st metaHash r) rs := rfl

/-- A peer's clock readings, call by call. -/
theorem clocks_append (calls calls' : List Call) :
    clocks p (calls ++ calls') = clocks p calls ++ clocks p calls' := by
  rw [clocks, filter_append, map_append, clocks, clocks]

/-- A call for another peer leaves the state alone. -/
theorem lookup_recordLogin_ne (hc : c.wgPubKey ≠ p) :
    (recordLogin cfg logged c).lookup p = logged.lookup p := by
  rw [recordLogin]
  split
  · exact AList.lookup_insert_ne (Ne.symm hc)
  · rfl

/-- A call changes the state of its own peer. -/
theorem lookup_recordLogin_self (logged : GoMap PeerState) (c : Call) :
    (recordLogin cfg logged c).lookup c.wgPubKey =
      loginState cfg (logged.lookup c.wgPubKey) c.metaHash c.clock := by
  rw [recordLogin, loginState, checkLogin]
  split
  · exact AList.lookup_insert _
  · rfl

/-- The state of a peer, and how many of its calls are accepted, depend on its own calls. -/
theorem own_calls : ∀ (calls : List Call) (logged : GoMap PeerState),
    (∀ c ∈ calls, c.wgPubKey = p → c.metaHash = metaHash) →
    (loggedAfter cfg logged calls).lookup p =
        stateAfter cfg metaHash (logged.lookup p) (clocks p calls) ∧ accepted cfg p logged calls =
        acceptedIn cfg metaHash (logged.lookup p) (clocks p calls) := by
  intro calls
  induction calls with
  | nil => intro logged _; exact ⟨rfl, rfl⟩
  | cons c calls ih =>
    intro logged hs
    obtain ⟨hl, ha⟩ := ih (recordLogin cfg logged c) fun x hx => hs x (mem_cons_of_mem c hx)
    rw [accepted, ha]
    by_cases hc : c.wgPubKey = p
    · have hm := hs c mem_cons_self hc
      rw [← hc, ← hm] at hl ⊢
      rw [clocks, filter_cons_of_pos (by simp), map_cons, ← clocks, stateAfter_cons, acceptedIn,
        ← lookup_recordLogin_self, checkLogin]
      exact ⟨hl, by simp only [true_and]⟩
    · rw [lookup_recordLogin_ne hc] at hl ⊢
      rw [clocks, filter_cons_of_neg (by simpa using hc), ← clocks, if_neg (hc ·.1), Nat.zero_add]
      exact ⟨hl, rfl⟩

/-- Leaving calls out keeps the clock monotone. -/
theorem ClockMonotone.sublist (hs : rs.Sublist rs') :
    ∀ {t t' : Int}, t ≤ t' → ClockMonotone t' rs' → ClockMonotone t rs := by
  induction hs with
  | slnil => intro _ _ _ _; trivial
  | cons r _ ih =>
    intro t t' ht h
    obtain ⟨h1, h2, h3, hr⟩ := h
    exact ih (by omega) hr
  | cons_cons r _ ih =>
    intro t t' ht h
    obtain ⟨h1, h2, h3, hr⟩ := h
    exact ⟨by omega, h2, h3, ih (Int.le_refl _) hr⟩

/-- No reading lies before the start. -/
theorem clock_le : ∀ {rs : List Readings} {t : Int}, ClockMonotone t rs → ∀ {r}, r ∈ rs →
    t ≤ r.banCheck ∧ r.banCheck ≤ r.added := by
  intro rs
  induction rs with
  | nil => intro t _ r hr; cases hr
  | cons x rs ih => grind [ClockMonotone]

/-- One peer's readings are monotone if all are. -/
theorem ClockMonotone.clocks
    (h : ClockMonotone t (calls.map Call.clock)) : ClockMonotone t (clocks p calls) :=
  h.sublist (filter_sublist.map _) (Int.le_refl t)

end

/-! ## Sessions

The filter keeps one counter and one start time.  The start time is set when the
peer is first seen and when it is banned, and never again while the metadata
stay the same.  So a peer is banned only in the threshold after its first login
(`Fresh`); from then on every login that is accepted comes too late for the
start time (`Stale`), and once one has come, no ban is left (`Quiet`). -/

/-- What the limits of a configuration have to do with each other. -/
structure LfConfig.Sane (cfg : LfConfig) : Prop where
  threshold_le : cfg.reconnThreshold ≤ cfg.baseBlockDuration
  duration_pos : 0 < cfg.baseBlockDuration
  limit_pos : 0 < cfg.reconnLimitForBan
  limit_le : cfg.reconnLimitForBan ≤ maxUint64 - 1000

/-- The defaults are sane. -/
theorem initCfg_sane : initCfg.Sane := ⟨by decide, by decide, by decide, by decide⟩

/-- The peer has logged in `n` times since it was first seen, not too often yet. -/
structure Fresh (cfg : LfConfig) (metaHash : UInt64) (n : Nat) (start : Int) (st : PeerState) :
    Prop where
  hash : st.currentHash = metaHash
  counter : st.sessionCounter = n
  start : st.sessionStart = start
  free : st.isBanned = false
  pos : 1 ≤ n
  le : n ≤ cfg.reconnLimitForBan

/-- Every login that is accepted after `t` is late. -/
structure Stale (cfg : LfConfig) (metaHash : UInt64) (t : Int) (st : PeerState) : Prop where
  hash : st.currentHash = metaHash
  lapsed : ∀ now, t ≤ now → (st.isBanned → st.banExpiresAt ≤ now) →
    cfg.reconnThreshold ≤ now - st.sessionStart

/-- The session has lapsed at `t`, and so has any ban. -/
structure Quiet (cfg : LfConfig) (metaHash : UInt64) (t : Int) (st : PeerState) : Prop where
  hash : st.currentHash = metaHash
  lapsed : cfg.reconnThreshold ≤ t - st.sessionStart
  free : st.isBanned → st.banExpiresAt ≤ t

/-- The peer is banned from `t` on, for longer than a session lasts. -/
structure Banned (cfg : LfConfig) (metaHash : UInt64) (t : Int) (st : PeerState) : Prop where
  hash : st.currentHash = metaHash
  banned : st.isBanned
  start : st.sessionStart = t
  expires : t + cfg.baseBlockDuration ≤ st.banExpiresAt

section

variable {cfg : LfConfig} {metaHash : UInt64} {st : PeerState} {n : Nat} {t start : Int}
  {r : Readings}

/-- Settling touches the ban and its level only. -/
theorem settle_eq (now : Int) :
    ∃ b l, settle cfg st now = { st with isBanned := b, banLevel := l } ∧ (b → st.isBanned) := by
  rw [settle]
  by_cases hb : st.isBanned ∧ st.banExpiresAt < now
  · simp only [if_pos hb]
    split
    · exact ⟨false, 0, rfl, nofun⟩
    · exact ⟨false, st.banLevel, rfl, nofun⟩
  · simp only [if_neg hb]
    split
    · exact ⟨st.isBanned, 0, rfl, id⟩
    · exact ⟨st.isBanned, st.banLevel, rfl, id⟩

/-- No ban is shorter than the base. -/
theorem le_backoff (hcfg : cfg.Sane) (level : Nat) : cfg.baseBlockDuration ≤ backoff cfg level := by
  have hpo : (0 : Int) < 2 ^ (level - 1) := Int.pow_pos (by decide)
  have hp := hcfg.duration_pos
  rw [backoff]
  nlinarith

/-- With the same metadata a login is refused only during a ban. -/
theorem allowLogin_same (hh : st.currentHash = metaHash) :
    allowLogin cfg (some st) metaHash r ↔ (st.isBanned → st.banExpiresAt ≤ r.banCheck) := by
  rw [allowLogin, allowState]
  by_cases hba : st.isBanned ∧ r.banCheck < st.banExpiresAt
  · rw [if_pos hba]
    exact ⟨nofun, fun h => absurd hba.2 (Int.not_lt.mpr (h hba.1))⟩
  · rw [if_neg hba, if_neg (· hh.symm)]
    exact ⟨fun _ hb => Int.not_lt.mp fun hl => hba ⟨hb, hl⟩, fun _ => rfl⟩

/-- A refused login changes nothing. -/
theorem loginState_refused (h : allowLogin cfg (some st) metaHash r = false) :
    loginState cfg (some st) metaHash r = some st := by
  rw [loginState, h]
  rfl

/-- A login with the same metadata is counted. -/
theorem loginState_counted (hh : st.currentHash = metaHash)
    (h : allowLogin cfg (some st) metaHash r) : ∃ b l, loginState cfg (some st) metaHash r =
        some (countLogin cfg { st with isBanned := b, banLevel := l } r.added) ∧
      (b → st.isBanned) := by
  obtain ⟨b, l, hs, hb⟩ := @settle_eq cfg st r.added
  refine ⟨b, l, ?_, hb⟩
  rw [loginState, h, if_pos rfl, addLogin]
  simp [hs, hh, ne_eq]

/-- A counted login bans the peer, or changes no more than its counter. -/
theorem countLogin_cases {now : Int} : countLogin cfg st now = { st with
          isBanned := true
          banLevel := st.banLevel + 1
          banExpiresAt := now + backoff cfg (st.banLevel + 1)
          sessionCounter := 0
          sessionStart := now
          lastSeen := now } ∨
      ∃ m, countLogin cfg st now = { st with sessionCounter := m, lastSeen := now } := by
  by_cases ho : cfg.reconnLimitForBan <
      (if maxUint64 - 1000 < st.sessionCounter then 0 else st.sessionCounter) + 1 ∧
        now - st.sessionStart < cfg.reconnThreshold
  · exact .inl (if_pos ho)
  · exact .inr ⟨_, if_neg ho⟩

/-- A login that is not one too many in time keeps the session. -/
theorem countLogin_late {now : Int} (h : cfg.reconnThreshold ≤ now - st.sessionStart) :
    ∃ m, countLogin cfg st now = { st with sessionCounter := m, lastSeen := now } :=
  ⟨_, if_neg fun ho => absurd ho.2 (Int.not_lt.mpr h)⟩

variable (hcfg : cfg.Sane)

include hcfg

/-- Below the limit it counts on. -/
theorem countLogin_early (h : st.sessionCounter < cfg.reconnLimitForBan) : countLogin cfg st now =
    { st with sessionCounter := st.sessionCounter + 1, lastSeen := now } := by
  have hm := hcfg.limit_le
  have hc : ¬ maxUint64 - 1000 < st.sessionCounter := by omega
  rw [countLogin]
  simp only [if_neg hc]
  rw [if_neg (by omega)]

/-- … and one that is bans the peer. -/
theorem countLogin_over (hh : st.currentHash = metaHash)
    (h : st.sessionCounter = cfg.reconnLimitForBan)
    (hi : now - st.sessionStart < cfg.reconnThreshold) :
    Banned cfg metaHash now (countLogin cfg st now) := by
  have hm := hcfg.limit_le
  have hc : ¬ maxUint64 - 1000 < st.sessionCounter := by omega
  rw [countLogin]
  simp only [if_neg hc]
  rw [if_pos (by omega)]
  exact ⟨hh, rfl, rfl, Int.add_le_add_left (le_backoff hcfg _) _⟩

/-! ## One login -/

omit hcfg in
/-- The first ban has the first level. -/
theorem level_of_login (hh : st.currentHash = metaHash) (hf : st.isBanned = false)
    (hl : st.banLevel = 0) (hn : loginState cfg (some st) metaHash r = some st') :
    st'.isBanned = false ∧ st'.banLevel = 0 ∨
      st'.isBanned ∧ st'.banExpiresAt = st'.sessionStart + backoff cfg 1 := by
  have hs : settle cfg st r.added = st := by simp [settle, hf, hl]
  have ha : allowLogin cfg (some st) metaHash r :=
    (allowLogin_same hh).mpr fun hb => nomatch hf.symm.trans hb
  rw [loginState, ha, if_pos rfl, addLogin] at hn
  simp only [hs, hh, ne_eq, not_true, if_false, Option.some.injEq] at hn
  rcases @countLogin_cases cfg st r.added with hb | ⟨m, hc⟩
  · rw [← hn, hb, hl]
    exact .inr ⟨rfl, rfl⟩
  · rw [← hn, hc]
    exact .inl ⟨hf, hl⟩

/-- The first login of a peer. -/
theorem fresh_new (now : Int) : Fresh cfg metaHash 1 now (newState metaHash now) :=
  ⟨rfl, rfl, rfl, rfl, Nat.le_refl 1, hcfg.limit_pos⟩

/-- A fresh session: the login counts, or bans the peer, or the session has lapsed. -/
theorem Fresh.login (h : Fresh cfg metaHash n start st) : allowLogin cfg (some st) metaHash r ∧
    ∃ st', loginState cfg (some st) metaHash r = some st' ∧
      ((n < cfg.reconnLimitForBan ∧ Fresh cfg metaHash (n + 1) start st') ∨
        (n = cfg.reconnLimitForBan ∧ Banned cfg metaHash r.added st') ∨
          (n = cfg.reconnLimitForBan ∧ cfg.reconnThreshold ≤ r.added - start ∧
            Quiet cfg metaHash r.added st')) := by
  have ha : allowLogin cfg (some st) metaHash r :=
    (allowLogin_same h.hash).mpr fun hb => nomatch h.free.symm.trans hb
  obtain ⟨b, l, hn, hb⟩ := loginState_counted h.hash ha
  have hf : b = false := by
    rw [Bool.eq_false_iff]
    exact fun hbt => nomatch h.free.symm.trans (hb hbt)
  subst hf
  refine ⟨ha, _, hn, ?_⟩
  rcases Nat.lt_or_eq_of_le h.le with hlt | he
  · grind [countLogin_early, Fresh]
  refine .inr ?_
  by_cases hi : r.added - start < cfg.reconnThreshold
  · refine .inl ⟨he, countLogin_over hcfg h.hash (h.counter.trans he) ?_⟩
    rw [h.start]
    exact hi
  have hl := Int.not_lt.mp hi
  refine .inr ⟨he, hl, ?_⟩
  obtain ⟨m, hm⟩ := @countLogin_late cfg { st with isBanned := false, banLevel := l } r.added (by
    rw [h.start]
    exact hl)
  rw [hm]
  refine ⟨h.hash, ?_, nofun⟩
  rw [h.start]
  exact hl

omit hcfg in
/-- A stale session: the login is refused, or no ban is left after it. -/
theorem Stale.login (h : Stale cfg metaHash t st) (ht : t ≤ r.banCheck)
    (hr : r.banCheck ≤ r.added) :
    (allowLogin cfg (some st) metaHash r = false ∧ loginState cfg (some st) metaHash r = some st) ∨
      (allowLogin cfg (some st) metaHash r ∧ ∃ st', loginState cfg (some st) metaHash r = some st' ∧
          Quiet cfg metaHash r.added st') := by
  cases ha : allowLogin cfg (some st) metaHash r with
  | false => exact .inl ⟨rfl, loginState_refused ha⟩
  | true =>
    refine .inr ⟨rfl, ?_⟩
    obtain ⟨b, l, hn, hb⟩ := loginState_counted h.hash ha
    have hf := (allowLogin_same h.hash).mp ha
    have hl : cfg.reconnThreshold ≤ r.added - st.sessionStart :=
      h.lapsed r.added (by omega) fun hba => by have := hf hba; omega
    obtain ⟨m, hm⟩ := @countLogin_late cfg { st with isBanned := b, banLevel := l } r.added hl
    refine ⟨_, hn, ?_⟩
    rw [hm]
    exact ⟨h.hash, hl, fun hbt => Int.le_trans (hf (hb hbt)) hr⟩

omit hcfg in
/-- A quiet peer is stale. -/
theorem Quiet.stale (h : Quiet cfg metaHash t st) : Stale cfg metaHash t st where
  hash := h.hash
  lapsed := fun now ht _ => by have := h.lapsed; omega

/-- So is a banned one. -/
theorem Banned.stale (h : Banned cfg metaHash t st) : Stale cfg metaHash t st where
  hash := h.hash
  lapsed := fun now _ he => by
    have := he h.banned
    have := h.start
    have := h.expires
    have := hcfg.threshold_le
    omega

/-! ## Many logins -/

variable {v : Int}

omit hcfg in
/-- As long as the ban lasts every login is refused. -/
theorem refused_run (hh : st.currentHash = metaHash) (hb : st.isBanned) :
    ∀ rs : List Readings, (∀ r ∈ rs, r.banCheck < st.banExpiresAt) →
      acceptedIn cfg metaHash (some st) rs = 0 ∧
        stateAfter cfg metaHash (some st) rs = some st := by
  intro rs
  induction rs with
  | nil => intro _; exact ⟨rfl, rfl⟩
  | cons r rs ih => grind [allowLogin_same, acceptedIn, stateAfter_cons, loginState_refused]

omit hcfg in
/-- A quiet peer is not banned. -/
theorem Quiet.not_bannedAt (h : Quiet cfg metaHash t st) (ht : t ≤ v) : ¬ BannedAt (some st) v := by
  rintro ⟨x, hx, hb, hl⟩
  obtain rfl : st = x := Option.some.inj hx
  have := h.free hb
  omega

omit hcfg in
/-- After a stale state nobody is banned any more, once a login is accepted or if nobody was. -/
theorem Stale.run : ∀ (rs : List Readings) {t : Int} {st : PeerState}, Stale cfg metaHash t st →
    ClockMonotone t rs → (∀ r ∈ rs, r.added ≤ v) →
    0 < acceptedIn cfg metaHash (some st) rs ∨ ¬ BannedAt (some st) v →
      ¬ BannedAt (stateAfter cfg metaHash (some st) rs) v := by
  intro rs
  induction rs with
  | nil => intro t st _ _ _ hp; exact hp.resolve_left (Nat.lt_irrefl 0)
  | cons r rs ih =>
    intro t st h hc hrs hp
    obtain ⟨h1, h2, h3, hr⟩ := hc
    obtain ⟨hv, hr'⟩ := forall_mem_cons.mp hrs
    rw [acceptedIn] at hp
    rw [stateAfter_cons]
    rcases h.login h1 (by omega) with ⟨ha, hn⟩ | ⟨-, st', hn, hq⟩
    · rw [hn, ha] at hp
      rw [hn]
      exact ih h (hr.sublist (List.Sublist.refl _) (by omega)) hr' (by simpa using hp)
    · rw [hn]
      exact ih hq.stale hr hr' (.inr (hq.not_bannedAt hv))

/-- A session that starts in a short window: as many logins as the limit and one
    more, and the peer has its first ban at the end of the window. -/
theorem Fresh.run_banned (hsh : v - start < cfg.reconnThreshold) :
    ∀ (rs : List Readings) {n : Nat} {st : PeerState}, Fresh cfg metaHash n start st →
      st.banLevel = 0 → (∀ r ∈ rs, start ≤ r.added ∧ r.banCheck ≤ r.added ∧ r.added ≤ v) →
      cfg.reconnLimitForBan < n + acceptedIn cfg metaHash (some st) rs →
        ∃ x, stateAfter cfg metaHash (some st) rs = some x ∧ (x.isBanned ∧ v < x.banExpiresAt) ∧
          x.banExpiresAt = x.sessionStart + backoff cfg 1 := by
  intro rs
  induction rs with
  | nil =>
    intro n st h _ _ hm
    have := h.le
    simp only [acceptedIn] at hm
    omega
  | cons r rs ih =>
    intro n st h hl hr hm
    obtain ⟨⟨hr1, hr2, hr3⟩, hr'⟩ := forall_mem_cons.mp hr
    obtain ⟨ha, st', hn, hc⟩ := @Fresh.login cfg metaHash st n start r hcfg h
    rw [acceptedIn, ha, hn, if_pos rfl] at hm
    rw [stateAfter_cons, hn]
    have hle := level_of_login h.hash h.free hl hn
    rcases hc with ⟨-, hf⟩ | ⟨-, hb⟩ | ⟨-, hla, -⟩
    · obtain ⟨-, hl'⟩ := hle.resolve_right fun h => by simp [hf.free] at h
      exact ih hf hl' hr' (by omega)
    · -- the ban outlasts the window
      have he : v < st'.banExpiresAt := by
        have := hb.expires
        have := hcfg.threshold_le
        omega
      obtain ⟨-, hs⟩ := @refused_run cfg metaHash st' hb.hash hb.banned rs
        fun x hx => by have := hr' x hx; omega
      rw [hs]
      exact ⟨st', rfl, ⟨hb.banned, he⟩, (hle.resolve_left fun h => by simp [hb.banned] at h).2⟩
    · omega

/-- A session that had started before: with one login more than that, it has lapsed
    and the peer is not banned. -/
theorem Fresh.run_free (hs : v - u < cfg.reconnThreshold) :
    ∀ (rs : List Readings) {n : Nat} {t : Int} {st : PeerState}, Fresh cfg metaHash n start st →
      ClockMonotone t rs → (∀ r ∈ rs, u ≤ r.banCheck ∧ r.added ≤ v) →
      cfg.reconnLimitForBan + 1 < n + acceptedIn cfg metaHash (some st) rs →
        ¬ BannedAt (stateAfter cfg metaHash (some st) rs) v := by
  intro rs
  induction rs with
  | nil =>
    intro n t st h _ _ hm
    have := h.le
    simp only [acceptedIn] at hm
    omega
  | cons r rs ih =>
    intro n t st h hcl hrs hm
    obtain ⟨h1, h2, h3, hr⟩ := hcl
    obtain ⟨⟨hr1, hr2⟩, hr'⟩ := forall_mem_cons.mp hrs
    obtain ⟨ha, st', hn, hc⟩ := @Fresh.login cfg metaHash st n start r hcfg h
    rw [acceptedIn, ha, hn, if_pos rfl] at hm
    rw [stateAfter_cons, hn]
    rcases hc with ⟨-, hf⟩ | ⟨he, hb⟩ | ⟨-, -, hq⟩
    · exact ih hf hr hr' (by omega)
    · -- a ban would have refused the login that is still to come
      obtain ⟨hz, -⟩ := @refused_run cfg metaHash st' hb.hash hb.banned rs fun x hx => by
        have := hr' x hx
        have := hb.expires
        have := hcfg.threshold_le
        have := clock_le hr hx
        omega
      omega
    · exact hq.stale.run rs hr (fun x hx => (hr' x hx).2) (.inr (hq.not_bannedAt hr2))

/-- A known peer stays known. -/
theorem known_run : ∀ (rs rs' : List Readings) {t : Int} {st : PeerState},
    ((∃ n start, Fresh cfg metaHash n start st) ∨ Stale cfg metaHash t st) →
    ClockMonotone t (rs ++ rs') → ∃ t' st', stateAfter cfg metaHash (some st) rs = some st' ∧
      ((∃ n start, Fresh cfg metaHash n start st') ∨ Stale cfg metaHash t' st') ∧
        ClockMonotone t' rs' := by
  intro rs rs'
  induction rs with
  | nil => intro t st h hc; exact ⟨t, st, rfl, h, hc⟩
  | cons r rs ih =>
    intro t st h hc
    obtain ⟨h1, h2, h3, hr⟩ := hc
    rw [stateAfter_cons]
    rcases h with ⟨n, start, hf⟩ | hs
    · obtain ⟨-, st', hn, hca⟩ := @Fresh.login cfg metaHash st n start r hcfg hf
      rw [hn]
      rcases hca with ⟨-, hf'⟩ | ⟨-, hb⟩ | ⟨-, -, hq⟩
      · exact ih (.inl ⟨n + 1, start, hf'⟩) hr
      · exact ih (.inr (hb.stale hcfg)) hr
      · exact ih (.inr hq.stale) hr
    · rcases hs.login h1 (by omega) with ⟨-, hn⟩ | ⟨-, st', hn, hq⟩ <;> rw [hn]
      · exact ih (.inr hs) (hr.sublist (List.Sublist.refl _) (by omega))
      · exact ih (.inr hq.stale) hr

omit hcfg in
/-- The first login of a peer is accepted. -/
theorem first_login (r : Readings) : allowLogin cfg none metaHash r ∧
    loginState cfg none metaHash r = some (newState metaHash r.added) := ⟨rfl, rfl⟩

/-- Too many logins in a window, the first of them the first of the peer. -/
theorem first_window (hs : v - u < cfg.reconnThreshold) (ws : List Readings)
    (hc : ClockMonotone t ws) (hw : ∀ r ∈ ws, u ≤ r.banCheck ∧ r.added ≤ v)
    (hm : cfg.reconnLimitForBan < acceptedIn cfg metaHash none ws) :
    ∃ x, stateAfter cfg metaHash none ws = some x ∧ (x.isBanned ∧ v < x.banExpiresAt) ∧
      x.banExpiresAt = x.sessionStart + backoff cfg 1 := by
  cases ws with
  | nil => exact absurd hm (Nat.not_lt_zero _)
  | cons w ws =>
    obtain ⟨h1, h2, h3, hre⟩ := hc
    obtain ⟨hu, hv⟩ := hw w mem_cons_self
    obtain ⟨ha, hn⟩ := @first_login cfg metaHash w
    rw [acceptedIn, ha, hn, if_pos rfl] at hm
    rw [stateAfter_cons, hn]
    refine (fresh_new hcfg w.added).run_banned hcfg (by omega) ws rfl ?_ hm
    intro r hr
    have := clock_le hre hr
    have := hw r (mem_cons_of_mem w hr)
    omega

/-- **A window with too many logins**: the peer is banned at its end exactly if its
    first login is among them. -/
theorem banned_iff_first (hs : v - u < cfg.reconnThreshold) (rs ws : List Readings)
    (hc : ClockMonotone t (rs ++ ws)) (hw : ∀ r ∈ ws, u ≤ r.banCheck ∧ r.added ≤ v)
    (hm : cfg.reconnLimitForBan < acceptedIn cfg metaHash (stateAfter cfg metaHash none rs) ws) :
    BannedAt (stateAfter cfg metaHash none (rs ++ ws)) v ↔ rs = [] := by
  rw [stateAfter, List.foldl_append, ← stateAfter, ← stateAfter]
  cases rs with
  | nil =>
    obtain ⟨x, hx, hb, -⟩ := first_window hcfg hs ws hc hw hm
    exact iff_of_true ⟨x, hx, hb⟩ rfl
  | cons r rs =>
    refine iff_of_false ?_ nofun
    obtain ⟨h1, h2, h3, hre⟩ := hc
    obtain ⟨-, hn⟩ := @first_login cfg metaHash r
    rw [stateAfter_cons, hn] at hm ⊢
    obtain ⟨t', st, hst, hk, hc'⟩ :=
      known_run hcfg rs ws (.inl ⟨1, r.added, fresh_new hcfg r.added⟩) hre
    rw [hst] at hm ⊢
    rcases hk with ⟨n, start, hf⟩ | hsl
    · have := hf.pos
      exact hf.run_free hcfg hs ws hc' hw (by omega)
    · exact hsl.run ws hc' (fun x hx => (hw x hx).2) (.inl (by omega))

end

/-- **Too many logins in a short window**, in the filter as it is set up: the peer is
    banned at the end of the window exactly if it had not logged in before. -/
theorem banned_iff_not_seen_before (before window : List Call) (p : String) (metaHash : UInt64)
    (t u v : Int) (hclock : ClockMonotone t ((before ++ window).map Call.clock))
    (hsame : ∀ c ∈ before ++ window, c.wgPubKey = p → c.metaHash = metaHash)
    (hwindow : ∀ c ∈ window, c.wgPubKey = p → u ≤ c.clock.banCheck ∧ c.clock.added ≤ v)
    (hshort : v - u < initCfg.reconnThreshold)
    (hmany : initCfg.reconnLimitForBan < accepted initCfg p (loggedAfter initCfg ∅ before) window) :
    BannedAt ((loggedAfter initCfg ∅ (before ++ window)).lookup p) v ↔
      ∀ c ∈ before, c.wgPubKey ≠ p := by
  have hb : ∀ c ∈ before, c.wgPubKey = p → c.metaHash = metaHash :=
    fun c hc => hsame c (mem_append_left _ hc)
  rw [(own_calls window _ fun c hc => hsame c (mem_append_right _ hc)).2,
    (own_calls before _ hb).1] at hmany
  have hcl := hclock.clocks (p := p)
  rw [clocks_append] at hcl
  have hno : (∀ c ∈ before, c.wgPubKey ≠ p) ↔ clocks p before = [] := by simp [clocks]
  rw [(own_calls _ _ hsame).1, clocks_append, hno]
  refine banned_iff_first initCfg_sane hshort _ _ hcl ?_ hmany
  intro r hr
  obtain ⟨c, hc, rfl⟩ := mem_map.mp hr
  obtain ⟨hc, hp⟩ := mem_filter.mp hc
  exact hwindow c hc (by simpa using hp)

/-- The `i`-th of a series of logins, one second apart. -/
def loginAt (start : Int) (i : Nat) : Call :=
  let now := start + i * 10 ^ 9
  { wgPubKey := "p", metaHash := 1, clock := ⟨now, now, now⟩ }

/-- A new peer that logs in 31 times in half a minute is banned. -/
theorem banned_new_peer :
    BannedAt ((loggedAfter initCfg ∅ ((List.range 31).map (loginAt 0))).lookup "p") (30 * 10 ^ 9) :=
  (banned_iff_not_seen_before [] ((List.range 31).map (loginAt 0)) "p" 1 0 0 (30 * 10 ^ 9)
    (by decide +kernel) (by decide +kernel) (by decide +kernel) (by decide) (by decide +kernel)).mpr
    nofun

/-- A peer that had logged in ten minutes earlier may do so a hundred times. -/
theorem not_banned_known_peer :
    initCfg.reconnLimitForBan < accepted initCfg "p" (loggedAfter initCfg ∅ [loginAt 0 0])
        ((List.range 100).map (loginAt (10 * minute))) ∧
      (100 * 10 ^ 9 : Int) < initCfg.reconnThreshold ∧
      ¬ BannedAt ((loggedAfter initCfg ∅ ([loginAt 0 0] ++
        (List.range 100).map (loginAt (10 * minute)))).lookup "p")
          (10 * minute + 100 * 10 ^ 9) := by
  decide +kernel

/-! ## Ban levels

A ban of the third level outlasts the quiet time after which levels are
forgotten, so there is no fourth. -/

/-- The level is at most three, and three only while its ban lasts; the ban is over four base
    durations after the last login. -/
structure LevelBounded (cfg : LfConfig) (st : PeerState) : Prop where
  le : st.banLevel ≤ 3
  last : st.banLevel = 3 → st.isBanned ∧ st.lastSeen + 4 * cfg.baseBlockDuration ≤ st.banExpiresAt
  ban : st.isBanned → st.banExpiresAt ≤ st.lastSeen + 4 * cfg.baseBlockDuration

section

variable {cfg : LfConfig} {st : PeerState} {metaHash : UInt64}

/-- Once the ban is over the third level is forgotten. -/
theorem LevelBounded.settle (hcfg : cfg.Sane) (h : LevelBounded cfg st)
    (hf : st.isBanned → st.banExpiresAt ≤ now) : (settle cfg st now).banLevel ≤ 2 := by
  have hp := hcfg.duration_pos
  have hl : st.banLevel = 3 → 2 * cfg.baseBlockDuration < now - st.lastSeen := by
    intro h3
    obtain ⟨hb, he⟩ := h.last h3
    have := hf hb
    omega
  have hle := h.le
  grind [settle]

/-- A ban that stands after settling is one that ends at this instant. -/
theorem settle_expires (hf : st.isBanned → st.banExpiresAt ≤ now)
    (hb : (settle cfg st now).isBanned) : (settle cfg st now).banExpiresAt ≤ now := by
  grind [settle]

/-- A login that finds no ban keeps the bounds. -/
theorem levelBounded_add (hcfg : cfg.Sane) (h : LevelBounded cfg st)
    (hf : st.isBanned → st.banExpiresAt ≤ now) :
    LevelBounded cfg (addLogin cfg (some st) metaHash now) := by
  have hl := h.settle hcfg hf
  have hd := hcfg.duration_pos
  have he := @settle_expires cfg st now hf
  rw [addLogin]
  generalize settle cfg st now = s at hl he ⊢
  split
  · -- other metadata: level and ban stay
    rw [changeMeta]
    split <;> exact ⟨by dsimp only; omega, fun h3 => by dsimp only at h3; omega,
      fun hb => by have := he hb; dsimp only; omega⟩
  · rcases @countLogin_cases cfg s now with hb | ⟨m, hc⟩
    · rw [hb]
      refine ⟨Nat.succ_le_succ hl, fun h3 => ⟨rfl, ?_⟩, fun _ => ?_⟩
      · have h3' : s.banLevel + 1 = 3 := h3
        dsimp only
        rw [h3', backoff]
        omega
      · -- at most two doublings of the base duration
        have hp : (2 : Int) ^ s.banLevel ≤ 2 ^ 2 := pow_le_pow_right₀ (by decide) hl
        have := Int.mul_le_mul_of_nonneg_left hp hd.le
        dsimp only
        rw [backoff, Nat.add_sub_cancel]
        omega
    · rw [hc]
      refine ⟨Nat.le_succ_of_le hl, fun h3 => absurd h3 (Nat.ne_of_lt (Nat.lt_succ_of_le hl)),
        fun hb => ?_⟩
      have := he hb
      dsimp only
      omega

/-- The bounds hold along any sequence of calls. -/
theorem levelBounded_loggedAfter (hcfg : cfg.Sane) :
    ∀ (calls : List Call) (logged : GoMap PeerState) (t : Int),
      ClockMonotone t (calls.map Call.clock) →
      (∀ p st, logged.lookup p = some st → LevelBounded cfg st) →
      ∀ p st, (loggedAfter cfg logged calls).lookup p = some st → LevelBounded cfg st := by
  intro calls
  induction calls with
  | nil => intro logged t _ h p st hs; exact h p st hs
  | cons c calls ih =>
    intro logged t hc h p st hs
    obtain ⟨h1, h2, h3, hr⟩ := hc
    refine ih (recordLogin cfg logged c) c.clock.added hr (fun q x hx => ?_) p st hs
    by_cases hq : c.wgPubKey = q
    · subst hq
      rw [lookup_recordLogin_self, loginState] at hx
      split at hx
      · rename_i ha
        cases hx
        cases hold : logged.lookup c.wgPubKey with
        | none => exact ⟨Nat.zero_le 3, nofun, nofun⟩
        | some y => grind [levelBounded_add, allowLogin, allowState]
      · exact h _ x hx
    · rw [lookup_recordLogin_ne hq] at hx
      exact h q x hx

/-- **No ban level above three and no ban longer than four base durations**, after any sequence
    of calls of a new filter.  While a peer is banned, the time of its last login is that of the
    ban. -/
theorem banLevel_le (hcfg : cfg.Sane) (calls : List Call) (t : Int)
    (hclock : ClockMonotone t (calls.map Call.clock)) (p : String) (st : PeerState)
    (hs : (loggedAfter cfg ∅ calls).lookup p = some st) :
    st.banLevel ≤ 3 ∧
      (st.isBanned → st.banExpiresAt ≤ st.lastSeen + 4 * cfg.baseBlockDuration) := by
  have h := levelBounded_loggedAfter hcfg calls ∅ t hclock (fun _ _ hn => nomatch hn) p st hs
  exact ⟨h.le, h.ban⟩

end

set_option maxRecDepth 4096 in
/-- A burst of logins, and the ban that it brings. -/
theorem banLevel_le_burst :
    ∃ st, (loggedAfter initCfg ∅ ((range 31).map (loginAt 0))).lookup "p" = some st ∧
      st.isBanned ∧ st.banLevel ≤ 3 ∧
        st.banExpiresAt ≤ st.lastSeen + 4 * initCfg.baseBlockDuration :=
  have h := banLevel_le initCfg_sane ((range 31).map (loginAt 0)) 0 (by decide +kernel) "p" _ rfl
  ⟨_, rfl, rfl, h.1, h.2 rfl⟩

/-! ## One ban after the other

With the same metadata a session starts again only at a ban, and the ban outlasts it. -/

/-- More logins than the limit in less than the threshold, the first of them no later
    than a base duration after the last ban. -/
structure Burst (cfg : LfConfig) (metaHash : UInt64) (st : Option PeerState) (u v : Int)
    (rs : List Readings) : Prop where
  short : v - u < cfg.reconnThreshold
  window : ∀ r ∈ rs, u ≤ r.banCheck ∧ r.added ≤ v
  many : cfg.reconnLimitForBan < acceptedIn cfg metaHash st rs
  resumes : ∀ x ∈ st, ∀ r ∈ rs.head?,
    x.banExpiresAt ≤ r.banCheck ∧ r.added ≤ x.banExpiresAt + cfg.baseBlockDuration

/-- **The ban of the last burst.**  A peer that keeps its metadata and goes too far again
    and again is banned for the duration of as many doublings as it did so before, exactly
    if it had not done so before. -/
theorem ban_doubled_iff (metaHash : UInt64) (t u v : Int) (rss : List (List Readings))
    (rs : List Readings) (hclock : ClockMonotone t (rss ++ [rs]).flatten)
    (hbursts : ∀ l ws l', rss = l ++ ws :: l' →
      ∃ u v, Burst initCfg metaHash (stateAfter initCfg metaHash none l.flatten) u v ws)
    (hlast : Burst initCfg metaHash (stateAfter initCfg metaHash none rss.flatten) u v rs) :
    (∃ x, stateAfter initCfg metaHash none (rss ++ [rs]).flatten = some x ∧
      (x.isBanned ∧ v < x.banExpiresAt) ∧
      x.banExpiresAt = x.sessionStart + initCfg.baseBlockDuration * 2 ^ rss.length) ↔ rss = [] := by
  obtain ⟨hs, hw, hm, -⟩ := hlast
  rw [flatten_append, flatten_singleton] at hclock ⊢
  constructor
  · rintro ⟨x, hx, hb, -⟩
    have hnil := (banned_iff_first initCfg_sane hs rss.flatten rs hclock hw hm).mp ⟨x, hx, hb⟩
    cases rss with
    | nil => rfl
    | cons ws rss =>
      -- a burst has logins
      obtain ⟨u', v', hb⟩ := hbursts [] ws rss rfl
      obtain rfl : ws = [] := (append_eq_nil_iff.mp hnil).1
      exact absurd hb.many (Nat.not_lt_zero _)
  · rintro rfl
    exact first_window initCfg_sane hs rs hclock hw hm

/-- Thirty-one logins, one second apart. -/
def burstAt (start : Int) : List Readings := (List.range 31).map fun i => (loginAt start i).clock

/-- The burst is one by the definition. -/
theorem burst_burstAt (start : Int) (hm : 30 < acceptedIn initCfg 1 st (burstAt start))
    (hr : ∀ x ∈ st, x.banExpiresAt ≤ start ∧ start ≤ x.banExpiresAt + initCfg.baseBlockDuration) :
    Burst initCfg 1 st start (start + 30 * 10 ^ 9) (burstAt start) := by
  refine ⟨?_, fun r hr => ?_, hm, fun x hx r hr' => ?_⟩
  · rw [add_sub_cancel_left]
    decide
  · obtain ⟨i, hi, rfl⟩ := mem_map.mp hr
    have := mem_range.mp hi
    simp only [loginAt]
    omega
  · obtain rfl : (loginAt start 0).clock = r := Option.some.inj hr'
    simpa [loginAt] using hr x hx

/-- The first burst brings the first ban. -/
theorem first_burst_banned :
    ∃ x, stateAfter initCfg 1 none [burstAt 0].flatten = some x ∧
      (x.isBanned ∧ 30 * 10 ^ 9 < x.banExpiresAt) ∧
      x.banExpiresAt = x.sessionStart + initCfg.baseBlockDuration * 2 ^ 0 := by
  refine (ban_doubled_iff 1 0 0 (30 * 10 ^ 9) [] (burstAt 0) (by decide +kernel) ?_ ?_).mpr rfl
  · exact fun l ws l' h => absurd h.symm (append_ne_nil_of_right_ne_nil _ (cons_ne_nil _ _))
  · exact burst_burstAt 0 (by decide +kernel) nofun

/-- **The defect.**  A second burst, two minutes after the ban, brings no other ban. -/
theorem second_burst_not_banned :
    Burst initCfg 1 none 0 (30 * 10 ^ 9) (burstAt 0) ∧
      Burst initCfg 1 (stateAfter initCfg 1 none (burstAt 0)) (12 * minute)
        (12 * minute + 30 * 10 ^ 9) (burstAt (12 * minute)) ∧
      ¬ BannedAt (stateAfter initCfg 1 none [burstAt 0, burstAt (12 * minute)].flatten)
        (12 * minute + 30 * 10 ^ 9) :=
  ⟨burst_burstAt 0 (by decide +kernel) nofun,
    burst_burstAt _ (by decide +kernel) (by decide +kernel), by decide +kernel⟩

end LoginFilter

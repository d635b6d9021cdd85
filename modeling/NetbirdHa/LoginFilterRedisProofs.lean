import NetbirdHa.LoginFilterProofs

/-! # The login filter with Redis

With Redis, `allowLoginUnderLock` looks for the state of a peer in the map of
its instance first, then in a hash that all instances share, where
`syncToRedis` writes it.  A field that is missing from the hash comes back as
the error `redis.Nil`, and every error refuses the login.  So the hash never
gets its first field.

Redis is healthy and the login lock is free: calls come one after the other.
`encoding/json` is a parameter; nothing is ever encoded. -/

namespace LoginFilter

open Table

variable {I : Type}

/-- The maps of all instances, and the Redis hash. -/
structure Shared (I : Type) where
  logged : I → GoMap PeerState
  hash : GoMap String

/-- Nothing known anywhere. -/
def Shared.init : Shared I where
  logged := fun _ => ∅
  hash := ∅

/-- What happens to the filters: a call on an instance, the ticker of
    `cleanupStaleEntries` there, or the TTL of the hash running out. -/
inductive Op (I : Type) where
  | login (i : I) (c : Call)
  | cleanup (i : I) (now : Int)
  | expire

section

variable [DecidableEq I] (cfg : LfConfig) (marshal : PeerState → Option String)
  (unmarshal : String → Option PeerState)

section

variable (s : Shared I) (i : I) (c : Call)

/-- Write the state of a peer into the map of an instance. -/
def Shared.setLogged (p : String) (st : PeerState) : Shared I :=
  { s with logged := Function.update s.logged i ((s.logged i).insert p st) }

/-- `allowLoginUnderLock` with Redis. -/
def redisAllow : Bool × Shared I :=
  match (s.logged i).lookup c.wgPubKey with
  | some st => (allowState cfg st c.metaHash c.clock, s)
  | none =>
    match s.hash.lookup c.wgPubKey with
    | none => (false, s) -- `redis.Nil`
    | some data =>
      match (if data ≠ "" then unmarshal data else none) with
      | some st => (allowState cfg st c.metaHash c.clock, s.setLogged i c.wgPubKey st)
      | none => (true, s)

/-- `addLoginUnderLock` with `syncToRedis`. -/
def redisAdd : Shared I :=
  let st := addLogin cfg ((s.logged i).lookup c.wgPubKey) c.metaHash c.clock.added
  let s := s.setLogged i c.wgPubKey st
  match marshal st with
  | none => s
  | some data => { s with hash := s.hash.insert c.wgPubKey data }

/-- `CheckAndAddLogin` with Redis. -/
def redisLogin : Bool × Shared I :=
  let r := redisAllow cfg unmarshal s i c
  if r.1 then (true, redisAdd cfg marshal r.2 i c) else (false, r.2)

/-- `cleanupStaleEntries`. -/
def cleanup (logged : GoMap PeerState) (now : Int) : GoMap PeerState :=
  logged.entries.foldl (fun m e =>
    if e.2.isBanned ∧ now < e.2.banExpiresAt then m
    else if 2 * cfg.baseBlockDuration < now - e.2.lastSeen then m.erase e.1 else m) logged

/-- … on one instance. -/
def Shared.cleanup (now : Int) : Shared I :=
  { s with logged := Function.update s.logged i (LoginFilter.cleanup cfg (s.logged i) now) }

end

/-- The answers to the calls, with Redis. -/
def redisAnswers : Shared I → List (Op I) → List Bool
  | _, [] => []
  | s, .login i c :: ops =>
    let r := redisLogin cfg marshal unmarshal s i c
    r.1 :: redisAnswers r.2 ops
  | s, .cleanup i now :: ops => redisAnswers (s.cleanup cfg i now) ops
  | s, .expire :: ops => redisAnswers { s with hash := ∅ } ops

/-- The calls. -/
def logins (ops : List (Op I)) : List Call :=
  ops.filterMap (fun op => match op with
    | .login _ c => some c
    | _ => none)

/-- The answers to the calls, without Redis. -/
def localAnswers : GoMap PeerState → List Call → List Bool
  | _, [] => []
  | logged, c :: calls => checkLogin cfg logged c :: localAnswers (recordLogin cfg logged c) calls

end

section

variable [DecidableEq I] {cfg : LfConfig} {marshal : PeerState → Option String}
  {unmarshal : String → Option PeerState}

/-- **Every login is refused.** -/
theorem redisAnswers_init :
    ∀ ops : List (Op I), redisAnswers cfg marshal unmarshal Shared.init ops =
      List.replicate (logins ops).length false := by
  intro ops
  induction ops with
  | nil => rfl
  | cons op ops ih =>
    cases op with
    | login i c => exact congrArg (false :: ·) ih
    | cleanup i now =>
      have hc : (Shared.init : Shared I).cleanup cfg i now = Shared.init :=
        congrArg (Shared.mk · ∅) (Function.update_eq_self i fun _ => ∅)
      rw [redisAnswers, hc]
      exact ih
    | expire => exact ih

/-- **The filter with Redis answers as the one without exactly if nobody logs in**: the
    first login is accepted without Redis and refused with it. -/
theorem redisAnswers_eq_local_iff (ops : List (Op I)) :
    redisAnswers cfg marshal unmarshal Shared.init ops = localAnswers cfg ∅ (logins ops) ↔
      logins ops = [] := by
  rw [redisAnswers_init]
  cases logins ops with
  | nil => exact iff_of_true rfl rfl
  | cons c calls =>
    refine iff_of_false (fun h => ?_) nofun
    cases (List.cons.inj h).1

end

/-- One login of a new peer: refused with Redis, accepted without. -/
theorem redis_refuses_first_login :
    redisAnswers initCfg (fun _ => some "\x7b\x7d") (fun _ => some {}) (Shared.init : Shared String)
        [.login "i" (loginAt 0 0)] = [false] ∧
      localAnswers initCfg ∅ [loginAt 0 0] = [true] :=
  ⟨rfl, rfl⟩

end LoginFilter

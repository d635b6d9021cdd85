import NetbirdHa.NetipProofs
import NetbirdHa.TransitionProofs

/-! # Fake addresses for routed domains

`AllocateFakeIP` gives every real address a fake one of 240.0.0.0/8.  It goes round the
usable addresses from the one after its last, and stops when it comes back to where it
started.  So it fails only when it has met every address, and all of them are in use. -/

namespace FakeIP

open Netip Function Transition

/-- 240.0.0.1, the first usable address. -/
def baseIP : BitVec 32 := 0xf0000001#32

/-- 240.255.255.254, the last usable address. -/
def maxIP : BitVec 32 := 0xf0fffffe#32

/-- The address is usable. -/
def Usable (ip : BitVec 32) : Prop := baseIP ≤ ip ∧ ip ≤ maxIP
deriving Decidable

/-- `Manager`; its next address is always a usable one. -/
structure Manager where
  nextIP : BitVec 32 := baseIP
  allocated : BitVec 32 → Option (BitVec 32) := fun _ => none
  fakeToReal : BitVec 32 → Option (BitVec 32) := fun _ => none
  usable : Usable nextIP := by decide

/-- The address after this one, wrapping at the boundary. -/
def advance (ip : BitVec 32) : BitVec 32 := if maxIP ≤ ip then baseIP else ip + 1

/-- How many addresses are usable. -/
def size : Nat := 0xfffffe

/-- The loop of `AllocateFakeIP` from `ip` on: the address it finds, if any, and the next one.
    It is given as many turns as there are addresses. -/
def scan (inUse : BitVec 32 → Bool) (startIP : BitVec 32) : Nat → BitVec 32 →
    Option (BitVec 32) × BitVec 32
  | 0, ip => (none, ip)
  | turns + 1, ip =>
    if !inUse ip then (some ip, advance ip)
    else if advance ip = startIP then (none, advance ip)
    else scan inUse startIP turns (advance ip)

/-! ## Going round -/

/-- The usable address at an offset. -/
def addrAt (offset : Nat) : BitVec 32 := baseIP + BitVec.ofNat 32 offset

section

variable {ip startIP : BitVec 32} {inUse : BitVec 32 → Bool} {i j k turns : Nat}

theorem toNat_addrAt (h : j < size) : (addrAt j).toNat = 0xf0000001 + j := by
  have hs : size = 0xfffffe := rfl
  simp only [addrAt, baseIP, BitVec.toNat_add, BitVec.toNat_ofNat]
  omega

/-- The usable addresses are those at the offsets below `size`. -/
theorem usable_iff : Usable ip ↔ ∃ j < size, ip = addrAt j := by
  have hs : size = 0xfffffe := rfl
  constructor
  · rintro ⟨hb, hm⟩
    have hb' : 0xf0000001 ≤ ip.toNat := hb
    have hm' : ip.toNat ≤ 0xf0fffffe := hm
    have hj : ip.toNat - 0xf0000001 < size := by omega
    refine ⟨ip.toNat - 0xf0000001, hj, BitVec.eq_of_toNat_eq ?_⟩
    rw [toNat_addrAt hj]
    omega
  · rintro ⟨j, hj, rfl⟩
    have ht := toNat_addrAt hj
    constructor
    · show 0xf0000001 ≤ (addrAt j).toNat
      omega
    · show (addrAt j).toNat ≤ 0xf0fffffe
      omega

theorem addrAt_inj (hi : i < size) (hj : j < size) : addrAt i = addrAt j ↔ i = j := by
  refine ⟨fun h => ?_, fun h => h ▸ rfl⟩
  have := congrArg BitVec.toNat h
  rw [toNat_addrAt hi, toNat_addrAt hj] at this
  omega

/-- One address on. -/
theorem advance_addrAt (hj : j < size) : advance (addrAt j) = addrAt ((j + 1) % size) := by
  have hs : size = 0xfffffe := rfl
  have ht := toNat_addrAt hj
  have hle : maxIP ≤ addrAt j ↔ j + 1 = size := by
    show 0xf0fffffe ≤ (addrAt j).toNat ↔ _
    omega
  rw [advance]
  by_cases hl : j + 1 = size
  · rw [if_pos (hle.mpr hl), hl, Nat.mod_self]
    rfl
  · rw [if_neg (mt hle.mp hl), Nat.mod_eq_of_lt (by omega)]
    refine BitVec.eq_of_toNat_eq ?_
    rw [toNat_addrAt (by omega), BitVec.toNat_add, ht]
    show (0xf0000001 + j + 1) % 2 ^ 32 = _
    omega

/-- The next address is usable again. -/
theorem usable_advance (h : Usable ip) : Usable (advance ip) := by
  obtain ⟨j, hj, rfl⟩ := usable_iff.mp h
  exact usable_iff.mpr ⟨_, Nat.mod_lt _ (by decide), advance_addrAt hj⟩

/-- What the loop finds is usable and free, and it leaves off at a usable address. -/
theorem scan_found (h : Usable ip) : Usable (scan inUse startIP turns ip).2 ∧
    ∀ f ∈ (scan inUse startIP turns ip).1, Usable f ∧ inUse f = false := by
  induction turns generalizing ip with
  | zero => exact ⟨h, nofun⟩
  | succ turns ih =>
    rw [scan]
    cases hu : inUse ip with
    | false =>
      refine ⟨usable_advance h, ?_⟩
      rintro f ⟨⟩
      exact ⟨h, hu⟩
    | true =>
      simp only [Bool.not_true, Bool.false_eq_true, if_false]
      split
      · exact ⟨usable_advance h, nofun⟩
      · exact ih (usable_advance h)

/-- The address after the one of turn `k`. -/
theorem advance_round (i k : Nat) :
    advance (addrAt ((i + k) % size)) = addrAt ((i + (k + 1)) % size) := by
  rw [advance_addrAt (Nat.mod_lt _ (by decide)), Nat.mod_add_mod, Nat.add_assoc]

/-- The loop comes back to its start in its last turn, and not before. -/
theorem round_eq_start_iff (hi : i < size) (hk : k < size) :
    addrAt ((i + (k + 1)) % size) = addrAt i ↔ k + 1 = size := by
  rw [addrAt_inj (Nat.mod_lt _ (by decide)) hi]
  constructor
  · intro h
    by_contra hne
    by_cases hw : i + (k + 1) < size
    · rw [Nat.mod_eq_of_lt hw] at h
      omega
    · rw [Nat.mod_eq_sub_mod (by omega), Nat.mod_eq_of_lt (by omega)] at h
      omega
  · intro h
    rw [h, Nat.add_mod_right, Nat.mod_eq_of_lt hi]

/-- The loop ends by itself: more turns than there are addresses change nothing. -/
theorem scan_add (n : Nat) (hi : i < size) (hk : k + turns = size) (hp : 0 < turns) :
    scan inUse (addrAt i) (turns + n) (addrAt ((i + k) % size)) =
      scan inUse (addrAt i) turns (addrAt ((i + k) % size)) := by
  induction turns generalizing k with
  | zero => cases hp
  | succ turns ih =>
    rw [Nat.add_right_comm, scan, scan, advance_round]
    by_cases hl : k + 1 = size
    · have hstop := (round_eq_start_iff hi (by omega)).mpr hl
      simp only [hstop, if_true]
    · rw [ih (by omega) (by omega)]

/-- After `k` turns, the loop fails exactly if the addresses it has not met are in use. -/
theorem scan_eq_none (inUse : BitVec 32 → Bool) (hi : i < size) (hk : k + turns = size) :
    (scan inUse (addrAt i) turns (addrAt ((i + k) % size))).1 = none ↔
      ∀ m, k ≤ m → m < size → inUse (addrAt ((i + m) % size)) := by
  induction turns generalizing k with
  | zero => exact iff_of_true rfl fun m hm hl => absurd hl (by omega)
  | succ turns ih =>
    have hstop := round_eq_start_iff (k := k) hi (by omega)
    rw [scan, advance_round]
    cases hu : inUse (addrAt ((i + k) % size)) with
    | false =>
      refine iff_of_false nofun fun h => ?_
      have := h k (Nat.le_refl k) (by omega)
      rw [hu] at this
      cases this
    | true =>
      simp only [Bool.not_true, Bool.false_eq_true, if_false, hstop]
      have hsplit : (∀ m, k ≤ m → m < size → inUse (addrAt ((i + m) % size))) ↔
          ∀ m, k + 1 ≤ m → m < size → inUse (addrAt ((i + m) % size)) := by
        refine ⟨fun h m hm => h m (by omega), fun h m hm hl => ?_⟩
        rcases Nat.eq_or_lt_of_le hm with rfl | hm
        · exact hu
        · exact h m hm hl
      rw [hsplit]
      split
      · next hl => exact iff_of_true rfl fun m hm hlt => absurd hlt (by omega)
      · exact ih (by omega)

/-- **The loop meets every usable address**: it fails exactly if all are in use. -/
theorem scan_eq_none_iff (inUse : BitVec 32 → Bool) (h : Usable startIP) :
    (scan inUse startIP size startIP).1 = none ↔ ∀ f, Usable f → inUse f := by
  obtain ⟨i, hi, rfl⟩ := usable_iff.mp h
  have hz := scan_eq_none inUse hi (Nat.zero_add size)
  rw [Nat.add_zero, Nat.mod_eq_of_lt hi] at hz
  rw [hz]
  constructor
  · intro hall f hf
    obtain ⟨j, hj, rfl⟩ := usable_iff.mp hf
    -- the turn in which the loop comes past the address
    have hm := hall ((j + (size - i)) % size) (Nat.zero_le _) (Nat.mod_lt _ (by decide))
    have he : i + (j + (size - i)) = j + size := by omega
    rwa [Nat.add_mod_mod, he, Nat.add_mod_right, Nat.mod_eq_of_lt hj] at hm
  · intro hall m _ _
    exact hall _ (usable_iff.mpr ⟨_, Nat.mod_lt _ (by decide), rfl⟩)

end

/-! ## The manager -/

/-- `AllocateFakeIP`: the manager, and the fake address or the error. -/
def allocateFakeIP (m : Manager) : Addr → Manager × Except String (BitVec 32)
  | .v4 realIP =>
    match m.allocated realIP with
    | some fakeIP => (m, .ok fakeIP)
    | none =>
      let inUse := fun ip => (m.fakeToReal ip).isSome
      let next := (scan inUse m.nextIP size m.nextIP).2
      have hn : Usable next := (scan_found m.usable).1
      match (scan inUse m.nextIP size m.nextIP).1 with
      | some currentIP =>
        ({ nextIP := next
           allocated := update m.allocated realIP (some currentIP)
           fakeToReal := update m.fakeToReal currentIP (some realIP)
           usable := hn }, .ok currentIP)
      | none =>
        ({ m with nextIP := next, usable := hn },
          .error "no more fake IPs available in 240.0.0.0/8 block")
  | _ => (m, .error "only IPv4 addresses supported")

/-- One call. -/
def step (m : Manager) (realIP : Addr) : Option Manager := some (allocateFakeIP m realIP).1

/-- The maps are mutually inverse, and the fake addresses are usable. -/
structure Inverse (m : Manager) : Prop where
  inverse : ∀ realIP fakeIP, m.allocated realIP = some fakeIP ↔ m.fakeToReal fakeIP = some realIP
  usable : ∀ realIP fakeIP, m.allocated realIP = some fakeIP → Usable fakeIP

section

variable {m m' : Manager} {realIP : Addr}

/-- What a call does to the maps: nothing, or it enters a free address for a new one. -/
theorem allocateFakeIP_cases (m : Manager) (realIP : Addr) :
    ((allocateFakeIP m realIP).1.allocated = m.allocated ∧
        (allocateFakeIP m realIP).1.fakeToReal = m.fakeToReal) ∨
      ∃ r f, m.allocated r = none ∧ m.fakeToReal f = none ∧ Usable f ∧
        (allocateFakeIP m realIP).1.allocated = update m.allocated r (some f) ∧
        (allocateFakeIP m realIP).1.fakeToReal = update m.fakeToReal f (some r) := by
  cases realIP with
  | zero => exact .inl ⟨rfl, rfl⟩
  | v6 a zone => exact .inl ⟨rfl, rfl⟩
  | v4 r =>
    rw [allocateFakeIP]
    cases hr : m.allocated r with
    | some f => exact .inl ⟨rfl, rfl⟩
    | none =>
      dsimp only
      split
      · next f hf =>
        obtain ⟨hu, hfree⟩ := (scan_found m.usable).2 f hf
        exact .inr ⟨r, f, hr, Option.not_isSome_iff_eq_none.mp (by simp [hfree]), hu, rfl, rfl⟩
      · exact .inl ⟨rfl, rfl⟩

/-- A call keeps the maps inverse. -/
theorem inverse_step (h : Inverse m) (hs : step m realIP = some m') : Inverse m' := by
  cases hs
  rcases allocateFakeIP_cases m realIP with ⟨ha, hf⟩ | ⟨r, f, hr, hff, hu, ha, hf⟩
  · exact ⟨ha ▸ hf ▸ h.inverse, ha ▸ h.usable⟩
  constructor
  · intro r' f'
    rw [ha, hf, update_apply, update_apply]
    by_cases hr' : r' = r <;> by_cases hf' : f' = f
    · simp [hr', hf']
    · have hne : m.fakeToReal f' ≠ some r := fun h' => by simp [(h.inverse r f').mpr h'] at hr
      simp [hr', hf', hne, Ne.symm hf']
    · have hne : m.allocated r' ≠ some f := fun h' => by simp [(h.inverse r' f).mp h'] at hff
      simp [hr', hf', hne, Ne.symm hr']
    · simpa [hr', hf'] using h.inverse r' f'
  · intro r' f' h'
    rw [ha, update_apply] at h'
    split at h'
    · cases h'
      exact hu
    · exact h.usable r' f' h'

/-- A call takes no fake address back. -/
theorem kept_step {r f : BitVec 32} (hk : m.allocated r = some f)
    (hs : step m realIP = some m') : m'.allocated r = some f := by
  cases hs
  rcases allocateFakeIP_cases m realIP with ⟨ha, -⟩ | ⟨r', f', hr', -, -, ha, -⟩
  · rwa [ha]
  · have hne : r ≠ r' := by
      rintro rfl
      simp [hk] at hr'
    rwa [ha, update_of_ne hne]

end

end FakeIP

import NetbirdHa.BlockProofs

/-! # Addresses for new peers

`AllocatePeerIP` draws host addresses of the network at random, and when its attempts are
used up it goes through all of them in order.  So it finds a free one whenever there is one,
whatever it draws. -/

namespace PeerIP

open Netip List

/-- An IPv4 network with a prefix of at least one bit. -/
structure IPNet where
  ip : BitVec 32
  ones : Nat
  pos : 0 < ones
  le : ones ≤ 32

/-- `ipToUint32`; what is no IPv4 address counts as zero. -/
def ipToUint32 (ip : List UInt8) : BitVec 32 :=
  match (Addr.ofSlice ip).map Addr.unmap with
  | some (.v4 a) => a
  | _ => 0

/-- `uint32ToIP`: the four bytes of an address. -/
def uint32ToIP (n : BitVec 32) : List UInt8 := (Addr.v4 n).asSlice

variable (net : IPNet) (takenIps : List (List UInt8)) (draw : Nat → Nat) {n : BitVec 32}

/-- The first address of the network. -/
def IPNet.baseIP : BitVec 32 := mask net.ones net.ip

/-- It fits into 32 bits, since the prefix is not empty. -/
def IPNet.totalIPs : Nat := 2 ^ (32 - net.ones)

/-- The last address of the network. -/
def IPNet.broadcast : BitVec 32 := net.baseIP + BitVec.ofNat 32 net.totalIPs - 1

/-- The addresses that are not given out. -/
def taken : List (BitVec 32) :=
  net.baseIP :: net.broadcast :: takenIps.map ipToUint32

/-- `len(taken)` is that of a set. -/
def maxAttempts : Nat := (net.totalIPs - (taken net takenIps).dedup.length) / 100

/-- The address at an offset. -/
def IPNet.addrAt (offset : Nat) : BitVec 32 := net.baseIP + BitVec.ofNat 32 offset

/-- The candidates in their order; `draw` gives the random numbers. -/
def candidates : List (BitVec 32) :=
  (range (maxAttempts net takenIps)).map (fun i => net.addrAt (draw i % (net.totalIPs - 2) + 1)) ++
    (range' 1 (net.totalIPs - 2)).map net.addrAt

/-- `AllocatePeerIP`; the error is `none`. -/
def allocatePeerIP : Option (List UInt8) :=
  ((candidates net takenIps draw).find? (· ∉ taken net takenIps)).map uint32ToIP

/-- An address of the network that is not its first or last. -/
def IPNet.Host (n : BitVec 32) : Prop :=
  Agree net.ones net.ip n ∧ n ≠ net.baseIP ∧ n ≠ net.broadcast

/-- The address is in the list, as four bytes or as sixteen. -/
def Taken (n : BitVec 32) : Prop :=
  ∃ ip ∈ takenIps, (Addr.ofSlice ip).map Addr.unmap = some (.v4 n)

variable {net} {takenIps} {draw} {o : Nat}

theorem toNat_baseIP : net.baseIP.toNat = net.ip.toNat / net.totalIPs * net.totalIPs :=
  toNat_mask ..

/-- The network ends below `2 ^ 32`. -/
theorem baseIP_add_le : net.baseIP.toNat + net.totalIPs ≤ 2 ^ 32 := by
  obtain ⟨k, hk⟩ : net.totalIPs ∣ 2 ^ 32 := Nat.pow_dvd_pow 2 (Nat.sub_le ..)
  have hlt : net.ip.toNat / net.totalIPs < k := Nat.div_lt_of_lt_mul (hk ▸ net.ip.isLt)
  rw [toNat_baseIP, hk, ← Nat.succ_mul, Nat.mul_comm]
  exact Nat.mul_le_mul_left _ hlt

theorem totalIPs_pos : 0 < net.totalIPs := Nat.two_pow_pos _

theorem totalIPs_lt : net.totalIPs < 2 ^ 32 :=
  Nat.pow_lt_pow_right (by decide) (Nat.sub_lt (by decide) net.pos)

theorem toNat_addrAt (h : o < net.totalIPs) : (net.addrAt o).toNat = net.baseIP.toNat + o := by
  have := @baseIP_add_le net
  rw [IPNet.addrAt, BitVec.toNat_add, BitVec.toNat_ofNat]
  omega

theorem toNat_broadcast : net.broadcast.toNat = net.baseIP.toNat + net.totalIPs - 1 := by
  have := @baseIP_add_le net
  have := @totalIPs_pos net
  have := @totalIPs_lt net
  rw [IPNet.broadcast, BitVec.toNat_sub, BitVec.toNat_add, BitVec.toNat_ofNat]
  simp only [BitVec.ofNat_eq_ofNat, BitVec.toNat_ofNat]
  omega

/-- The host addresses are those at the offsets between the first and the last. -/
theorem host_iff : net.Host n ↔ ∃ o, 0 < o ∧ o + 1 < net.totalIPs ∧ net.addrAt o = n := by
  have hle := @baseIP_add_le net
  have hag : Agree net.ones net.ip n ↔
      net.baseIP.toNat ≤ n.toNat ∧ n.toNat < net.baseIP.toNat + net.totalIPs := by
    rw [agree_iff_div, eq_comm, ← IPNet.totalIPs, Nat.div_eq_iff totalIPs_pos, toNat_baseIP]
    have := @totalIPs_pos net
    omega
  rw [IPNet.Host, hag, ne_eq, ne_eq, ← BitVec.toNat_inj, ← BitVec.toNat_inj, toNat_broadcast]
  constructor
  · rintro ⟨⟨hb, hl⟩, hn, hc⟩
    refine ⟨n.toNat - net.baseIP.toNat, by omega, by omega, BitVec.eq_of_toNat_eq ?_⟩
    rw [toNat_addrAt (by omega)]
    omega
  · rintro ⟨o, ho, hl, rfl⟩
    rw [toNat_addrAt (by omega)]
    omega

/-- What is tried are host addresses, and all of them. -/
theorem mem_candidates : n ∈ candidates net takenIps draw ↔ net.Host n := by
  rw [host_iff, candidates, mem_append, mem_map, mem_map]
  constructor
  · rintro (⟨i, hi, rfl⟩ | ⟨o, ho, rfl⟩)
    · -- there are attempts only in a network of more than a hundred addresses
      have ht : 0 < maxAttempts net takenIps := (Nat.zero_le i).trans_lt (mem_range.mp hi)
      rw [maxAttempts] at ht
      have := Nat.mod_lt (draw i) (show 0 < net.totalIPs - 2 by omega)
      exact ⟨_, Nat.succ_pos _, by omega, rfl⟩
    · rw [mem_range'_1] at ho
      exact ⟨o, by omega, by omega, rfl⟩
  · rintro ⟨o, ho, hl, rfl⟩
    exact .inr ⟨o, mem_range'_1.mpr (by omega), rfl⟩

/-- An address that is no IPv4 address counts as zero, which is no host address. -/
theorem notMem_taken (h : net.Host n) : n ∉ taken net takenIps ↔ ¬ Taken takenIps n := by
  have hz : n ≠ 0 := by
    rintro rfl
    refine h.2.1 ?_
    rw [IPNet.baseIP, mask_eq_iff.mpr h.1]
    simp [mask]
  have hi : ∀ ip, n = ipToUint32 ip ↔ (Addr.ofSlice ip).map Addr.unmap = some (.v4 n) := by
    intro ip
    rw [ipToUint32]
    split <;> grind
  simp [taken, Taken, h.2.1, h.2.2, eq_comm, hi]

/-- **A free address for a peer.**  Whatever is drawn, the bytes are a host address of the
    network that is not taken, and there is none exactly if all of these are taken. -/
theorem allocatePeerIP_spec :
    (∀ ip, allocatePeerIP net takenIps draw = some ip →
        ∃ n, Addr.ofSlice ip = some (.v4 n) ∧ net.Host n ∧ ¬ Taken takenIps n) ∧
      (allocatePeerIP net takenIps draw = none ↔ ∀ n, net.Host n → Taken takenIps n) := by
  constructor
  · intro ip h
    obtain ⟨n, hf, rfl⟩ := Option.map_eq_some_iff.mp h
    have hh := mem_candidates.mp (mem_of_find?_eq_some hf)
    have ht : n ∉ taken net takenIps := by simpa using find?_some hf
    exact ⟨n, ofSlice_asSlice n, hh, (notMem_taken hh).mp ht⟩
  · rw [allocatePeerIP, Option.map_eq_none_iff, find?_eq_none]
    refine forall_congr' fun n => ?_
    rw [mem_candidates]
    refine imp_congr_right fun hh => ?_
    rw [decide_eq_true_iff, notMem_taken hh, not_not]

end PeerIP

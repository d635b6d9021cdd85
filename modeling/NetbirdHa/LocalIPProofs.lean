import NetbirdHa.NetipProofs
import NetbirdHa.TableProofs

/-! # Local addresses of the userspace firewall

`UpdateLocalIPs` sets a bit for every IPv4 address of the host, in a bitmap that
the first byte of the address selects; `IsLocalIP` tests the bit.  The bit is
found by the number `low`, made of the other three bytes.

Three bytes do not fit into 16 bits, and the second of them is shifted by 4
instead of 8, so different addresses share a bit.  The answer is right exactly if
no local address shares the bit of one that is not local (`Shares`). -/

namespace LocalIP

open Netip Table Function BitVec

/-! ## Bitmaps -/

/-- `ipv4LowBitmap`: 8192 words. -/
abbrev IPv4LowBitmap := Fin 8192 → BitVec 32

/-- `ipv4Bitmap`: a bitmap for each first byte, or nil. -/
abbrev IPv4Bitmap := BitVec 8 → Option IPv4LowBitmap

section

variable (bitmap : IPv4Bitmap) (a : BitVec 32) (l : BitVec 16)

/-- A byte of an address in network order. -/
def byte (i : Nat) : BitVec 8 := a.extractLsb' (8 * (3 - i)) 8

/-- The first byte, which picks the page. -/
def high : BitVec 8 := byte a 0

/-- The other three bytes as the code packs them. -/
def low : BitVec 16 :=
  (byte a 1).setWidth 16 <<< 8 ||| (byte a 2).setWidth 16 <<< 4 ||| (byte a 3).setWidth 16

/-- The word a packed address is in. -/
def index : Fin 8192 := ⟨l.toNat / 32, by omega⟩

/-- The bit of the word. -/
def bit : Nat := l.toNat % 32

/-- One bit more. -/
def setBit (words : IPv4LowBitmap) (l : BitVec 16) : IPv4LowBitmap :=
  update words (index l) (words (index l) ||| 1#32 <<< bit l)

/-- `setBitInBitmap`; the list of addresses that it keeps is for the log. -/
def setBitInBitmap (ip : Addr) : IPv4Bitmap :=
  match ip with
  | .v4 a => update bitmap (high a) (some (setBit ((bitmap (high a)).getD fun _ => 0) (low a)))
  | _ => bitmap

/-- `checkBitmapBit`. -/
def checkBitmapBit : Bool :=
  match bitmap (high a) with
  | none => false
  | some words => words (index (low a)) &&& 1#32 <<< bit (low a) != 0

end

/-! ## Updates -/

/-- `net.Addr`: an IP with or without a network, or something else. -/
inductive NetAddr where
  | ipNet (ip : List UInt8)
  | ipAddr (ip : List UInt8)
  | other
deriving DecidableEq

/-- The address, if it is one; a 16-byte IPv4 address is unmapped. -/
def NetAddr.addr : NetAddr → Option Addr
  | .ipNet ip => (Addr.ofSlice ip).map Addr.unmap
  | .ipAddr ip => (Addr.ofSlice ip).map Addr.unmap
  | .other => none

section

variable (bitmap : IPv4Bitmap) (iface : Option Addr)
  (interfaces : Option (List (Option (List NetAddr))))

/-- `processInterface`; the addresses of the interface, or an error. -/
def processInterface (addrs : Option (List NetAddr)) : IPv4Bitmap :=
  match addrs with
  | none => bitmap
  | some addrs => (addrs.filterMap NetAddr.addr).foldl setBitInBitmap bitmap

/-- All of 127.0.0.0/8. -/
def loopback : IPv4Bitmap := fun h => if h = 127 then some fun _ => 0xffffffff else none

/-- `UpdateLocalIPs`: the address of the WireGuard interface, if there is one, and the
    interfaces of the host, unless listing them fails. -/
def updateLocalIPs : IPv4Bitmap :=
  (interfaces.getD []).foldl processInterface (iface.toList.foldl setBitInBitmap loopback)

/-- `IsLocalIP`: no IPv6 address is local. -/
def isLocalIP : Addr → Bool
  | .v4 a => checkBitmapBit bitmap a
  | _ => false

/-- The addresses of all interfaces. -/
def interfaceAddrs : List Addr :=
  iface.toList ++ (interfaces.getD []).flatMap fun addrs => (addrs.getD []).filterMap NetAddr.addr

end

/-! ## Bits -/

section

variable {words : IPv4LowBitmap} {l l' : BitVec 16}

/-- Index and bit tell the number. -/
theorem eq_of_index_bit (hi : index l = index l') (hb : bit l = bit l') : l = l' := by
  have hd : l.toNat / 32 = l'.toNat / 32 := congrArg Fin.val hi
  have hm : l.toNat % 32 = l'.toNat % 32 := hb
  refine eq_of_toNat_eq ?_
  omega

/-- The mask tests one bit of a word. -/
theorem and_mask_ne_zero (word : BitVec 32) (hn : n < 32) :
    (word &&& 1#32 <<< n != 0) = word.getLsbD n := by
  rw [← twoPow_eq, and_twoPow]
  have hne : BitVec.twoPow 32 n ≠ 0#32 := by
    intro hz
    have hb := congrArg (·.getLsbD n) hz
    simp [hn] at hb
  cases word.getLsbD n
  · simp
  · simp [hne]

/-- **Setting a bit** sets it and no other. -/
theorem setBit_getLsbD : (setBit words l (index l')).getLsbD (bit l') =
    ((words (index l')).getLsbD (bit l') || decide (l = l')) := by
  have hl : bit l < 32 := Nat.mod_lt _ (by decide)
  by_cases hi : index l' = index l
  · rw [setBit, hi, update_self, getLsbD_or, ← twoPow_eq]
    congr 1
    -- in the same word the bits are the same exactly for the same number
    grind [eq_of_index_bit]
  · rw [setBit, update_of_ne hi]
    have hn : l ≠ l' := by
      rintro rfl
      exact hi rfl
    simp [hn]

end

/-- The bit of an address. -/
def HasBit (bitmap : IPv4Bitmap) (a : BitVec 32) : Prop := checkBitmapBit bitmap a = true

/-- Two addresses share their bit. -/
def SameBit (a b : BitVec 32) : Prop := high a = high b ∧ low a = low b
deriving Decidable

section

variable {bitmap : IPv4Bitmap} {ip : Addr} {a : BitVec 32}

theorem hasBit_iff : HasBit bitmap a ↔
    ∃ words ∈ bitmap (high a), (words (index (low a))).getLsbD (bit (low a)) := by
  rw [HasBit, checkBitmapBit]
  cases bitmap (high a) with
  | none => simp
  | some words =>
    have hl : bit (low a) < 32 := Nat.mod_lt _ (by decide)
    simp only [and_mask_ne_zero _ hl, Option.mem_some_iff, exists_eq_left']

/-- One address more. -/
theorem hasBit_setBitInBitmap :
    HasBit (setBitInBitmap bitmap ip) a ↔ HasBit bitmap a ∨ ∃ b, ip = .v4 b ∧ SameBit b a := by
  cases ip with
  | zero | v6 b zone => simp [setBitInBitmap]
  | v4 b =>
    rw [hasBit_iff, hasBit_iff, setBitInBitmap]
    by_cases hh : high b = high a
    · rw [hh, update_self]
      simp only [Option.mem_some_iff, exists_eq_left', setBit_getLsbD, Bool.or_eq_true,
        decide_eq_true_eq]
      refine or_congr ?_ ?_
      · cases bitmap (high a) with
        | none | some words => simp
      grind [SameBit]
    grind [SameBit]

/-- Many addresses, one after the other. -/
theorem hasBit_foldl (ips : List Addr) (bitmap : IPv4Bitmap) :
    HasBit (ips.foldl setBitInBitmap bitmap) a ↔
      HasBit bitmap a ∨ ∃ b, Addr.v4 b ∈ ips ∧ SameBit b a := by
  have hf := foldl_iff (f := setBitInBitmap) (P := fun bitmap => HasBit bitmap a)
    (fun _ _ => hasBit_setBitInBitmap) ips bitmap
  grind

theorem updateLocalIPs_eq (iface : Option Addr)
    (interfaces : Option (List (Option (List NetAddr)))) :
    updateLocalIPs iface interfaces =
      (interfaceAddrs iface interfaces).foldl setBitInBitmap loopback := by
  have hp : ∀ (l : List (Option (List NetAddr))) (bitmap : IPv4Bitmap),
      l.foldl processInterface bitmap =
        (l.flatMap (fun addrs => (addrs.getD []).filterMap NetAddr.addr)).foldl setBitInBitmap
          bitmap := by
    intro l bitmap
    rw [List.foldl_flatMap]
    congr
    funext bitmap addrs
    cases addrs <;> rfl
  rw [updateLocalIPs, interfaceAddrs, List.foldl_append, hp]

theorem hasBit_loopback : HasBit loopback a ↔ high a = 127 := by
  rw [hasBit_iff, loopback]
  by_cases h : high a = 127
  · have hl : bit (low a) < 32 := Nat.mod_lt _ (by decide)
    have ho : (0xffffffff#32).getLsbD (bit (low a)) := by
      show (BitVec.allOnes 32).getLsbD (bit (low a)) = true
      rw [getLsbD_allOnes, decide_eq_true hl]
    simpa [h] using ho
  · rw [if_neg h]
    simpa using h

/-- **Which addresses are taken for local ones**: loopback addresses, and those that
    share their bit with an interface address. -/
theorem isLocalIP_iff (iface : Option Addr) (interfaces : Option (List (Option (List NetAddr)))) :
    isLocalIP (updateLocalIPs iface interfaces) (.v4 a) ↔
      high a = 127 ∨ ∃ b, Addr.v4 b ∈ interfaceAddrs iface interfaces ∧ SameBit b a := by
  show HasBit _ a ↔ _
  rw [updateLocalIPs_eq, hasBit_foldl, hasBit_loopback]

end

/-- An address that is neither a loopback nor an interface address shares its bit with
    an interface address. -/
def Shares (addrs : List Addr) (a : BitVec 32) : Prop :=
  high a ≠ 127 ∧ Addr.v4 a ∉ addrs ∧ ∃ b, Addr.v4 b ∈ addrs ∧ SameBit b a

/-- **When `IsLocalIP` is right** about an IPv4 address: exactly if the address does
    not share the bit of another that is local. -/
theorem isLocalIP_exact_iff (iface : Option Addr)
    (interfaces : Option (List (Option (List NetAddr)))) (a : BitVec 32) :
    (isLocalIP (updateLocalIPs iface interfaces) (.v4 a) ↔
        high a = 127 ∨ Addr.v4 a ∈ interfaceAddrs iface interfaces) ↔
      ¬ Shares (interfaceAddrs iface interfaces) a := by
  rw [isLocalIP_iff]
  constructor
  · rintro hi ⟨hh, hm, hs⟩
    exact (hi.mp (.inr hs)).elim hh hm
  · intro hn
    constructor
    · grind [Shares]
    · rintro (hh | hm)
      · exact .inl hh
      · exact .inr ⟨a, hm, rfl, rfl⟩

/-- With the interface address 10.0.1.0, 10.0.0.16 passes for local. -/
theorem neighbour_taken_for_local :
    isLocalIP (updateLocalIPs none (some [some [.ipNet [10, 0, 1, 0]]])) (.v4 0x0a000010) ∧
      high 0x0a000010 ≠ 127 ∧
      Addr.v4 0x0a000010 ∉ interfaceAddrs none (some [some [.ipNet [10, 0, 1, 0]]]) := by
  decide

end LocalIP

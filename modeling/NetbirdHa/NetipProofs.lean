import Mathlib.Algebra.GroupWithZero.Nat
import Mathlib.Data.List.Basic

/-! # IP addresses and prefixes

Addresses and prefixes of Go's `netip`: an IPv4 address, an IPv6 address with a
zone, or the zero value, which is no address.  A prefix holds the addresses of
its own family that agree with it in its first bits; a zoned address is in none.

The texts are read as `ParseAddr`, `ParseAddrPort` and `ParsePrefix` read them,
character by character, and written as `String` writes them. -/

namespace Netip

open List

/-- `Addr`; an empty zone is no zone. -/
inductive Addr where
  | zero
  | v4 (a : BitVec 32)
  | v6 (a : BitVec 128) (zone : String)
deriving DecidableEq

/-- `Prefix`; the zone of the address is gone. -/
inductive Prefix where
  | invalid
  | v4 (a : BitVec 32) (bits : Fin 33)
  | v6 (a : BitVec 128) (bits : Fin 129)
deriving DecidableEq

instance neZero33 : NeZero 33 := ⟨by decide⟩

namespace Addr

/-- `Addr.IsValid`. -/
def isValid : Addr → Bool
  | .zero => false
  | _ => true

/-- `Addr.Is4`. -/
def is4 : Addr → Bool
  | .v4 _ => true
  | _ => false

/-- `Addr.Is6`; an IPv4-mapped address counts. -/
def is6 : Addr → Bool
  | .v6 _ _ => true
  | _ => false

/-- The address with its zone, if it is an IPv6 address. -/
def zone : Addr → String
  | .v6 _ zone => zone
  | _ => ""

/-- `::ffff:a.b.c.d`. -/
def Mapped (a : BitVec 128) : Prop := a >>> 32 = 0xffff#128
deriving Decidable

/-- `Unmap`: the zone goes too. -/
def unmap : Addr → Addr
  | .v6 a zone => if Mapped a then .v4 (a.setWidth 32) else .v6 a zone
  | x => x

theorem unmap_unmap (x : Addr) : x.unmap.unmap = x.unmap := by
  cases x with
  | zero => rfl
  | v4 a => rfl
  | v6 a zone =>
    by_cases h : Mapped a
    · rw [unmap, if_pos h]
      rfl
    · rw [unmap, if_neg h, unmap, if_neg h]

/-- `Compare`: by family, then by value, then by zone. -/
def compare : Addr → Addr → Ordering
  | .zero, .zero => .eq
  | .zero, _ => .lt
  | .v4 _, .zero => .gt
  | .v4 a, .v4 b => Ord.compare a.toNat b.toNat
  | .v4 _, .v6 _ _ => .lt
  | .v6 a zone, .v6 b zone' => (Ord.compare a.toNat b.toNat).then (Ord.compare zone zone')
  | .v6 _ _, _ => .gt

/-- `Next`: the zero value after the last address. -/
def next : Addr → Addr
  | .zero => .zero
  | .v4 a => if a = BitVec.allOnes 32 then .zero else .v4 (a + 1)
  | .v6 a zone => if a = BitVec.allOnes 128 then .zero else .v6 (a + 1) zone

/-- The four bytes of `As4`, which panics on other addresses. -/
def as4 : Addr → Option (BitVec 32)
  | .v4 a => some a
  | .v6 a _ => if Mapped a then some (a.setWidth 32) else none
  | .zero => none

end Addr

/-! ## Prefixes -/

/-- The first bits of two words agree. -/
def Agree {w : Nat} (bits : Nat) (a b : BitVec w) : Prop := (a ^^^ b) >>> (w - bits) = 0
deriving Decidable

/-- The first bits of a word, and zeros. -/
def mask {w : Nat} (bits : Nat) (a : BitVec w) : BitVec w := (a >>> (w - bits)) <<< (w - bits)

theorem agree_iff {a b : BitVec w} :
    Agree bits a b ↔ ∀ i, w - bits ≤ i → a.getLsbD i = b.getLsbD i := by
  rw [Agree]
  constructor
  · intro h i hi
    have hb := congrArg (fun v => v.getLsbD (i - (w - bits))) h
    grind
  grind

/-- Masking does not change what a prefix agrees with. -/
theorem agree_mask {a b : BitVec w} : Agree bits (mask bits a) b ↔ Agree bits a b := by
  rw [agree_iff, agree_iff]
  refine forall_congr' fun i => imp_congr_right fun hi => ?_
  have hb : (mask bits a).getLsbD i = a.getLsbD i := by
    rw [mask, BitVec.getLsbD_shiftLeft, BitVec.getLsbD_ushiftRight, Nat.add_sub_cancel' hi]
    by_cases hw : i < w
    · simp [hw, Nat.not_lt.mpr hi]
    · simp [hw, BitVec.getLsbD_of_ge a i (Nat.not_lt.mp hw)]
  rw [hb]

namespace Prefix

/-- `PrefixFrom`. -/
def ofAddr : Addr → Nat → Prefix
  | .zero, _ => .invalid
  | .v4 a, bits => if h : bits ≤ 32 then .v4 a ⟨bits, Nat.lt_succ_of_le h⟩ else .invalid
  | .v6 a _, bits => if h : bits ≤ 128 then .v6 a ⟨bits, Nat.lt_succ_of_le h⟩ else .invalid

/-- `Prefix.Contains`: an address with a zone is in no prefix. -/
def contains : Prefix → Addr → Bool
  | .v4 a bits, .v4 b => decide (Agree bits.val a b)
  | .v6 a bits, .v6 b zone => decide (zone = "") && decide (Agree bits.val a b)
  | _, _ => false

/-- `Prefix.Masked`. -/
def masked : Prefix → Prefix
  | .invalid => .invalid
  | .v4 a bits => .v4 (mask bits.val a) bits
  | .v6 a bits => .v6 (mask bits.val a) bits

@[simp] theorem contains_masked (p : Prefix) (x : Addr) : p.masked.contains x = p.contains x := by
  cases p with
  | invalid => rfl
  | v4 a bits =>
    cases x with
    | v4 b => exact decide_eq_decide.mpr agree_mask
    | zero => rfl
    | v6 b zone => rfl
  | v6 a bits =>
    cases x with
    | v6 b zone =>
      show (decide _ && decide _) = (decide _ && decide _)
      rw [decide_eq_decide.mpr agree_mask]
    | zero => rfl
    | v4 b => rfl

/-- `Prefix.IsValid`. -/
def isValid : Prefix → Bool
  | .invalid => false
  | _ => true

/-- A prefix in IPv4-mapped notation as the IPv4 prefix that it stands for. -/
def unmap : Prefix → Prefix
  | .v6 a bits =>
    if h : 96 ≤ bits.val ∧ Addr.Mapped a then .v4 (a.setWidth 32) ⟨bits.val - 96, by omega⟩
    else .v6 a bits
  | p => p

/-- The address is in the prefix, whatever its zone. -/
def Holds : Prefix → Addr → Prop
  | .v4 a bits, .v4 b => Agree bits.val a b
  | .v6 a bits, .v6 b _ => Agree bits.val a b
  | _, _ => False

instance : ∀ (p : Prefix) (x : Addr), Decidable (p.Holds x)
  | .v4 a bits, .v4 b => inferInstanceAs (Decidable (Agree bits.val a b))
  | .v6 a bits, .v6 b _ => inferInstanceAs (Decidable (Agree bits.val a b))
  | .invalid, _ => isFalse id
  | .v4 _ _, .zero => isFalse id
  | .v4 _ _, .v6 _ _ => isFalse id
  | .v6 _ _, .zero => isFalse id
  | .v6 _ _, .v4 _ => isFalse id

theorem contains_iff {p : Prefix} : p.contains x ↔ p.Holds x ∧ x.zone = "" := by
  cases p <;> cases x <;> simp [contains, Holds, Addr.zone, and_comm]

/-- An address that agrees with a mapped one in its first 96 bits is mapped. -/
theorem mapped_of_agree {bits : Nat} (hb : 96 ≤ bits)
    (h : Agree bits a b) (ha : Addr.Mapped a) : Addr.Mapped b := by
  grind [Addr.Mapped, agree_iff]

/-- So a prefix in mapped notation has no address that is written as it is. -/
theorem holds_unmap {p : Prefix} {x : Addr} (h : p.Holds x.unmap) : p.unmap.Holds x.unmap := by
  cases p with
  | invalid | v4 a bits => exact h
  | v6 a bits =>
    rw [unmap]
    split
    · next hm =>
      -- the address would be mapped, and is not after `unmap`
      exfalso
      cases x with
      | zero | v4 b => exact h
      | v6 b zone =>
        by_cases hb : Addr.Mapped b
        · rw [Addr.unmap, if_pos hb] at h
          exact h
        · rw [Addr.unmap, if_neg hb] at h
          exact hb (mapped_of_agree hm.1 h hm.2)
    · exact h

/-- `Prefix.Addr`. -/
def addr : Prefix → Addr
  | .invalid => .zero
  | .v4 a _ => .v4 a
  | .v6 a _ => .v6 a ""

/-- `Prefix.Bits`. -/
def bits : Prefix → Int
  | .invalid => -1
  | .v4 _ bits => bits.val
  | .v6 _ bits => bits.val

end Prefix

/-! ## Reading texts -/

/-- `parseIPv4Fields`: the fields so far, the value and the number of digits of the current one. -/
def parseIPv4Fields : List Char → Nat → Nat → List Nat → Option (List Nat)
  | [], val, _, fields => if fields.length < 3 then none else some (fields ++ [val])
  | c :: rest, val, digLen, fields =>
    if c.isDigit then
      -- a field does not start with a zero
      if digLen = 1 ∧ val = 0 then none
      else if 255 < val * 10 + (c.toNat - 48) then none
      else parseIPv4Fields rest (val * 10 + (c.toNat - 48)) (digLen + 1) fields
    else if c = '.' then
      if digLen = 0 ∨ rest = [] then none
      else if fields.length = 3 then none
      else parseIPv4Fields rest 0 0 (fields ++ [val])
    else none

/-- Bytes in network order. -/
def ofBytes (w : Nat) (bytes : List Nat) : BitVec w :=
  BitVec.ofNat w (bytes.foldl (fun n b => n * 256 + b) 0)

/-- The bytes of a word in network order. -/
def toBytes {w : Nat} (n : Nat) (a : BitVec w) : List UInt8 :=
  (List.range n).map fun i => UInt8.ofNat (a.toNat / 256 ^ (n - 1 - i))

/-- `AsSlice`: none for the zero value. -/
def Addr.asSlice : Addr → List UInt8
  | .zero => []
  | .v4 a => toBytes 4 a
  | .v6 a _ => toBytes 16 a

/-- `AddrFromSlice`. -/
def Addr.ofSlice (b : List UInt8) : Option Addr :=
  if b.length = 4 then some (.v4 (ofBytes 32 (b.map UInt8.toNat)))
  else if b.length = 16 then some (.v6 (ofBytes 128 (b.map UInt8.toNat)) "")
  else none

theorem ofSlice_asSlice (a : BitVec 32) : Addr.ofSlice (Addr.v4 a).asSlice = some (.v4 a) := by
  have hb : ofBytes 32 ((toBytes 4 a).map UInt8.toNat) = a := by
    apply BitVec.eq_of_toNat_eq
    simp only [ofBytes, toBytes, range_succ, range_zero, nil_append, cons_append,
      map_cons, map_nil, foldl_cons, foldl_nil, UInt8.toNat_ofNat', BitVec.toNat_ofNat]
    omega
  have hl : (toBytes 4 a).length = 4 := by rw [toBytes, length_map, length_range]
  rw [Addr.asSlice, Addr.ofSlice, if_pos hl, hb]

/-- `parseIPv4`. -/
def parseIPv4 (s : List Char) : Option Addr :=
  (parseIPv4Fields s 0 0 []).map fun fields => .v4 (ofBytes 32 fields)

/-- The value of one hexadecimal digit, in either case. -/
def hexDigit? (c : Char) : Option Nat :=
  if c.isDigit then some (c.toNat - 48)
  else if 'a' ≤ c ∧ c ≤ 'f' then some (c.toNat - 87)
  else if 'A' ≤ c ∧ c ≤ 'F' then some (c.toNat - 55)
  else none

/-- A group of at most four digits: how many, their value, and what follows. -/
def parseHex : List Char → Nat → Nat → Option (Nat × Nat × List Char)
  | [], off, acc => some (off, acc, [])
  | c :: rest, off, acc =>
    match hexDigit? c with
    | none => some (off, acc, c :: rest)
    | some d => if 3 < off then none else parseHex rest (off + 1) (acc * 16 + d)

/-- The loop of `parseIPv6` for at most `n` more groups: what is left of the text, the
    bytes, and where the ellipsis stands. -/
def parseGroups : Nat → List Char → List Nat → Option Nat →
    Option (List Char × List Nat × Option Nat)
  | 0, s, bytes, ellipsis => some (s, bytes, ellipsis)
  | n + 1, s, bytes, ellipsis =>
    match parseHex s 0 0 with
    | none => none
    | some (off, acc, rest) =>
      if off = 0 then none
      else if rest.head? = some '.' then
        -- an IPv4 address at the end
        if ellipsis.isNone ∧ bytes.length ≠ 12 ∨ 12 < bytes.length then none
        else (parseIPv4Fields s 0 0 []).map (fun fields => ([], bytes ++ fields, ellipsis))
      else
        let bytes := bytes ++ [acc / 256, acc % 256]
        match rest with
        | [] => some ([], bytes, ellipsis)
        | ':' :: ':' :: rest =>
          if ellipsis.isSome then none
          else if rest = [] then some ([], bytes, some bytes.length)
          else parseGroups n rest bytes (some bytes.length)
        | ':' :: c :: rest => parseGroups n (c :: rest) bytes ellipsis
        | _ => none

/-- The ellipsis stands for at least one group of zeros. -/
def expand (bytes : List Nat) : Option Nat → Option (List Nat)
  | none => if bytes.length < 16 then none else some bytes
  | some e =>
    if bytes.length < 16 then
      some (bytes.take e ++ List.replicate (16 - bytes.length) 0 ++ bytes.drop e)
    else none

/-- The whole text has to be used up. -/
def usedUp : Option (List Char × List Nat × Option Nat) → Option (List Nat)
  | some ([], bytes, ellipsis) => expand bytes ellipsis
  | _ => none

/-- `parseIPv6`: a zone follows a percent sign and is not empty. -/
def parseIPv6 (s : List Char) : Option Addr :=
  let text := s.takeWhile (· ≠ '%')
  let zone := (s.dropWhile (· ≠ '%')).drop 1
  if '%' ∈ s ∧ zone = [] then none
  else
    let addr (bytes : List Nat) : Addr := .v6 (ofBytes 128 bytes) (String.ofList zone)
    match text with
    | [':', ':'] => some (addr [])
    | ':' :: ':' :: rest => (usedUp (parseGroups 8 rest [] (some 0))).map addr
    | text => (usedUp (parseGroups 8 text [] none)).map addr

/-- `ParseAddr`: the first dot, colon or percent sign tells what it is. -/
def parseAddr (s : String) : Option Addr :=
  match s.toList.find? (fun c => c = '.' ∨ c = ':' ∨ c = '%') with
  | some '.' => parseIPv4 s.toList
  | some ':' => parseIPv6 s.toList
  | _ => none

/-- The text before and after the last of a separator. -/
def splitLast (sep : Char) (s : List Char) : Option (List Char × List Char) :=
  if sep ∈ s then
    some ((s.reverse.dropWhile (· ≠ sep)).tail.reverse, (s.reverse.takeWhile (· ≠ sep)).reverse)
  else none

/-- `strconv.ParseUint` with a bound. -/
def parseUint (s : List Char) (max : Nat) : Option Nat :=
  if s = [] ∨ s.any (!·.isDigit) then none
  else
    let n := s.foldl (fun n c => n * 10 + (c.toNat - 48)) 0
    if n ≤ max then some n else none

/-- `ParsePrefix`. -/
def parsePrefix (s : String) : Option Prefix :=
  match splitLast '/' s.toList with
  | none => none
  | some (ip, bits) =>
    match parseAddr (String.ofList ip) with
    | none => none
    | some addr =>
      if addr.zone ≠ "" then none
      -- no sign and no leading zeros
      else if 1 < bits.length ∧ bits.head? = some '0' then none
      else (parseUint bits (if addr.is6 then 128 else 32)).map (Prefix.ofAddr addr)

/-- `ParseAddrPort`. -/
def parseAddrPort (s : String) : Option (Addr × Nat) :=
  match splitLast ':' s.toList with
  | none => none
  | some (ip, port) =>
    let brackets := ip.head? = some '['
    if brackets ∧ (ip.length < 2 ∨ ip.getLast? ≠ some ']') then none
    else
      match parseUint port 65535,
          parseAddr (String.ofList (if brackets then (ip.drop 1).dropLast else ip)) with
      | some n, some addr => if addr.is6 = decide brackets then some (addr, n) else none
      | _, _ => none

/-- `SplitHostPort` of the package `net`. -/
def splitHostPort (s : String) : Option (String × String) :=
  match splitLast ':' s.toList with
  | none => none
  | some ('[' :: rest, port) =>
    -- the first closing bracket stands right before the colon
    if rest = rest.takeWhile (· ≠ ']') ++ [']'] ∧ '[' ∉ rest ++ port ∧ ']' ∉ port then
      some (String.ofList rest.dropLast, String.ofList port)
    else none
  | some (host, port) =>
    if ':' ∈ host ∨ '[' ∈ host ++ port ∨ ']' ∈ host ++ port then none
    else some (String.ofList host, String.ofList port)

/-! ## Writing texts -/

/-- A group of an IPv6 address, without leading zeros. -/
def hexText (n : Nat) : String := String.ofList (Nat.toDigits 16 n)

/-- The sixteen-bit groups of an IPv6 address. -/
def groups (a : BitVec 128) : List Nat :=
  (List.range 8).map fun i => (a.toNat >>> (16 * (7 - i))) % 65536

/-- How many zeros a list starts with. -/
def zeroRun (l : List Nat) : Nat := (l.takeWhile (· = 0)).length

/-- The first of the longest runs of at least two zero groups. -/
def longestRun (l : List Nat) : Option (Nat × Nat) :=
  (List.range l.length).foldl (fun best i =>
    let n := zeroRun (l.drop i)
    if 2 ≤ n ∧ (best.map Prod.snd).getD 0 < n then some (i, n) else best) none

/-- Four decimal fields. -/
def textV4 (a : BitVec 32) : String :=
  ".".intercalate ((List.range 4).map (fun i => toString ((a.toNat >>> (8 * (3 - i))) % 256)))

/-- The longest run of zero groups becomes a double colon. -/
def textV6 (a : BitVec 128) : String :=
  if Addr.Mapped a then "::ffff:" ++ textV4 (a.setWidth 32)
  else
    let hex (l : List Nat) := ":".intercalate (l.map hexText)
    match longestRun (groups a) with
    | none => hex (groups a)
    | some (i, n) => hex ((groups a).take i) ++ "::" ++ hex ((groups a).drop (i + n))

/-- `String` of an address. -/
def Addr.text : Addr → String
  | .zero => "invalid IP"
  | .v4 a => textV4 a
  | .v6 a zone => textV6 a ++ if zone = "" then "" else "%" ++ zone

/-- `String` of a prefix. -/
def Prefix.text : Prefix → String
  | .invalid => "invalid Prefix"
  | .v4 a bits => textV4 a ++ "/" ++ toString bits.val
  | .v6 a bits => textV6 a ++ "/" ++ toString bits.val

example : parseAddr "fe80::1%eth0" = some (.v6 0xfe800000000000000000000000000001 "eth0") := by
  decide
example : parseAddr "10.1.02.3" = none := by decide
example : parsePrefix "2001:db8::/32" = some (.v6 0x20010db8000000000000000000000000 32) := by
  decide
example : splitHostPort "::1:443" = none := by decide

end Netip

import NetbirdHa.NetipProofs

/-! # The address of a client behind proxies

`ResolveClientIP` walks the `X-Forwarded-For` list from the right.  Proxies
append to the list, so what a trusted proxy has written stands right of what the
client has sent.  Elements that are blank or no address are skipped, and so are
the addresses of trusted proxies; the first address left is the client's.

Nothing left of that address is looked at (`resolveClientIP_append`).  The
elements that are skipped for not being addresses stop nobody. -/

namespace TrustedProxy

open Netip List

/-- `unicode.IsSpace`. -/
def isSpace (c : Char) : Bool :=
  c.toNat ∈ [0x09, 0x0a, 0x0b, 0x0c, 0x0d, 0x20, 0x85, 0xa0, 0x1680, 0x2028, 0x2029, 0x202f,
    0x205f, 0x3000] || (0x2000 ≤ c.toNat && c.toNat ≤ 0x200a)

/-- `strings.TrimSpace`. -/
def trimSpace (s : List Char) : List Char :=
  ((s.dropWhile isSpace).reverse.dropWhile isSpace).reverse

/-- `strings.Split` at the commas. -/
def elements (xff : String) : List (List Char) := xff.toList.splitOn ','

/-- The address that an element is, unmapped. -/
def elementAddr (part : List Char) : Option Addr :=
  (parseAddr (String.ofList (trimSpace part))).map Addr.unmap

/-- `isTrustedAddr`. -/
def isTrustedAddr (addr : Addr) (trusted : List Prefix) : Bool :=
  addr.isValid && trusted.any (·.contains addr)

/-- `extractHostIP`: the address of a host and port, or of a host alone. -/
def extractHostIP (hostPort : String) : Addr :=
  match parseAddrPort hostPort with
  | some (addr, _) => addr.unmap
  | none =>
    match parseAddr hostPort with
    | some addr => addr.unmap
    | none => .zero

/-- The loop over the elements, from the right: the first address outside the trusted prefixes. -/
def firstUntrusted (trusted : List Prefix) : List (List Char) → Option Addr
  | [] => none
  | part :: parts =>
    match elementAddr part with
    | none => firstUntrusted trusted parts
    | some addr => if isTrustedAddr addr trusted then firstUntrusted trusted parts else some addr

/-- `ResolveClientIP`. -/
def resolveClientIP (remoteAddr xff : String) (trusted : List Prefix) : Addr :=
  let remoteIP := extractHostIP remoteAddr
  if trusted = [] ∨ isTrustedAddr remoteIP trusted = false then remoteIP
  else if xff = "" then remoteIP
  else
    match firstUntrusted trusted (elements xff).reverse with
    | some addr => addr
    | none => ((elements xff).head?.bind elementAddr).getD remoteIP

/-- The element is an address in a trusted prefix. -/
def Trusted (trusted : List Prefix) (part : List Char) : Prop :=
  ∃ addr ∈ elementAddr part, isTrustedAddr addr trusted
deriving Decidable

/-- The element is an address outside the trusted prefixes. -/
def Outside (trusted : List Prefix) (part : List Char) : Prop :=
  ∃ addr ∈ elementAddr part, isTrustedAddr addr trusted = false
deriving Decidable

section

variable {trusted : List Prefix} {part : List Char} {left right : List (List Char)}

/-- The walk ends at an address outside at the latest. -/
theorem firstUntrusted_append (hp : Outside trusted part) (before after : List (List Char)) :
    firstUntrusted trusted (before ++ part :: after) =
      firstUntrusted trusted (before ++ [part]) := by
  induction before with
  | nil =>
    obtain ⟨addr, ha, hu⟩ := hp
    grind [firstUntrusted]
  | cons x before ih => rw [cons_append, cons_append, firstUntrusted, firstUntrusted, ih]

theorem isSome_firstUntrusted (hp : Outside trusted part) (before : List (List Char)) :
    (firstUntrusted trusted (before ++ [part])).isSome := by
  induction before with
  | nil =>
    obtain ⟨addr, ha, hu⟩ := hp
    show (firstUntrusted trusted [part]).isSome = true
    rw [firstUntrusted, Option.mem_def.mp ha]
    simp [hu]
  | cons x before ih =>
    rw [cons_append, firstUntrusted]
    split
    · exact ih
    · split
      · exact ih
      · rfl

/-- **What is resolved from a header**, given an address outside in it: the elements
    left of that do not matter. -/
theorem resolveClientIP_append
    (he : elements xff = left ++ part :: right) (hp : Outside trusted part) :
    resolveClientIP remoteAddr xff trusted =
      if trusted = [] ∨ isTrustedAddr (extractHostIP remoteAddr) trusted = false then
        extractHostIP remoteAddr
      else (firstUntrusted trusted (right.reverse ++ [part])).getD .zero := by
  have hx : xff ≠ "" := by
    -- the only element of the empty header is blank
    rintro rfl
    have hs : left ++ part :: right = [[]] := he.symm.trans rfl
    obtain ⟨-, hri⟩ := append_eq_singleton_iff.mp hs |>.elim id
      fun h => absurd h.2 (cons_ne_nil _ _)
    obtain ⟨addr, ha, -⟩ := hp
    rw [(List.cons.inj hri).1] at ha
    cases ha
  have hr : (elements xff).reverse = right.reverse ++ part :: left.reverse := by
    rw [he]
    simp
  obtain ⟨addr, ha⟩ := Option.isSome_iff_exists.mp (isSome_firstUntrusted hp right.reverse)
  rw [resolveClientIP, hr, firstUntrusted_append hp, if_neg hx, ha]
  rfl

end

/-- **A client cannot reach past an address**: two headers that agree from an address
    outside the trusted prefixes on give the same result. -/
theorem resolveClientIP_eq_of_same_end (trusted : List Prefix) (remoteAddr xff xff' : String)
    (left left' right : List (List Char)) (part : List Char)
    (hxff : elements xff = left ++ part :: right) (hxff' : elements xff' = left' ++ part :: right)
    (hpart : Outside trusted part) :
    resolveClientIP remoteAddr xff trusted = resolveClientIP remoteAddr xff' trusted := by
  rw [resolveClientIP_append hxff hpart, resolveClientIP_append hxff' hpart]

/-- 10.0.0.0/8. -/
def internal : List Prefix := [.v4 0x0a000000 8]

/-- The client's own entry left of the address does not count. -/
theorem spoofed_entry_ignored :
    resolveClientIP "10.0.0.9:443" "1.2.3.4, 203.0.113.50, 10.0.0.1" internal =
      resolveClientIP "10.0.0.9:443" "5.6.7.8, 203.0.113.50, 10.0.0.1" internal :=
  resolveClientIP_eq_of_same_end internal "10.0.0.9:443" _ _ ["1.2.3.4".toList]
    ["5.6.7.8".toList] [" 10.0.0.1".toList] " 203.0.113.50".toList (by decide) (by decide)
      (by decide)

/-- Left of an element that is no address it does. -/
theorem spoofed_entry_taken :
    elements "1.2.3.4,unknown,10.0.0.1" =
        ["1.2.3.4".toList] ++ "unknown".toList :: ["10.0.0.1".toList] ∧
      elements "5.6.7.8,unknown,10.0.0.1" =
        ["5.6.7.8".toList] ++ "unknown".toList :: ["10.0.0.1".toList] ∧
      ¬ Trusted internal "unknown".toList ∧ Trusted internal "10.0.0.1".toList ∧
      resolveClientIP "10.0.0.9:443" "1.2.3.4,unknown,10.0.0.1" internal = .v4 0x01020304 ∧
      resolveClientIP "10.0.0.9:443" "5.6.7.8,unknown,10.0.0.1" internal = .v4 0x05060708 := by
  decide

end TrustedProxy

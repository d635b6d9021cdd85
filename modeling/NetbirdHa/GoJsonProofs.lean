import Mathlib.Data.List.Basic

/-! # JSON texts as `encoding/json` reads and writes them

Go strings are byte lists.  Reading follows the scanner and `unquote` of the
standard library: white space, the number grammar, string escapes with
surrogate pairs, and U+FFFD for every byte that is not UTF-8.  Writing
follows `appendString` with HTML escaping on, and base64 for `[]byte`. -/

namespace GoJson

/-- A Go string or `[]byte`. -/
abbrev Bytes := List UInt8

/-- The bytes of an ASCII literal. -/
def ascii (s : String) : Bytes := s.toList.map (UInt8.ofNat ·.toNat)

/-- A JSON value; strings are unquoted, numbers keep their text. -/
inductive Json where
  | null
  | bool (b : Bool)
  | number (text : Bytes)
  | string (s : Bytes)
  | array (elems : List Json)
  | object (members : List (Bytes × Json))

/-! ## UTF-8 -/

/-- U+FFFD. -/
def replacement : Bytes := [0xef, 0xbf, 0xbd]

/-- `b` is in `[lo, hi]`. -/
def within (lo hi b : UInt8) : Bool := lo ≤ b && b ≤ hi

/-- The number of bytes of the UTF-8 sequence a text starts with, `0` when its
    first byte starts none (`utf8.DecodeRune`). -/
def runeSize : Bytes → Nat
  | [] => 0
  | b0 :: bs =>
    if b0 < 0x80 then 1
    else if within 0xc2 0xdf b0 then
      match bs with
      | b1 :: _ => if within 0x80 0xbf b1 then 2 else 0
      | _ => 0
    else if within 0xe0 0xef b0 then
      match bs with
      | b1 :: b2 :: _ =>
        let lo := if b0 = 0xe0 then 0xa0 else 0x80
        let hi := if b0 = 0xed then 0x9f else 0xbf
        if within lo hi b1 && within 0x80 0xbf b2 then 3 else 0
      | _ => 0
    else if within 0xf0 0xf4 b0 then
      match bs with
      | b1 :: b2 :: b3 :: _ =>
        let lo := if b0 = 0xf0 then 0x90 else 0x80
        let hi := if b0 = 0xf4 then 0x8f else 0xbf
        if within lo hi b1 && within 0x80 0xbf b2 && within 0x80 0xbf b3 then 4 else 0
      | _ => 0
    else 0

/-- The UTF-8 text of a code point (`utf8.AppendRune`). -/
def encodeRune (r : Nat) : Bytes :=
  if r < 0x80 then [UInt8.ofNat r]
  else if r < 0x800 then
    [UInt8.ofNat (0xc0 + r / 0x40), UInt8.ofNat (0x80 + r % 0x40)]
  else if r < 0x10000 then
    [UInt8.ofNat (0xe0 + r / 0x1000), UInt8.ofNat (0x80 + r / 0x40 % 0x40),
     UInt8.ofNat (0x80 + r % 0x40)]
  else
    [UInt8.ofNat (0xf0 + r / 0x40000), UInt8.ofNat (0x80 + r / 0x1000 % 0x40),
     UInt8.ofNat (0x80 + r / 0x40 % 0x40), UInt8.ofNat (0x80 + r % 0x40)]

/-! ## Reading -/

/-- White space between tokens. -/
def skipSpace (bs : Bytes) : Bytes :=
  bs.dropWhile fun b => b = 0x20 || b = 0x09 || b = 0x0a || b = 0x0d

/-- The value of a hexadecimal digit. -/
def hexValue (b : UInt8) : Option Nat :=
  if within 0x30 0x39 b then some (b.toNat - 0x30)
  else if within 0x61 0x66 b then some (b.toNat - 0x57)
  else if within 0x41 0x46 b then some (b.toNat - 0x37)
  else none

/-- Four hexadecimal digits. -/
def hex4 (a b c d : UInt8) : Option Nat := do
  let a ← hexValue a
  let b ← hexValue b
  let c ← hexValue c
  let d ← hexValue d
  return ((a * 16 + b) * 16 + c) * 16 + d

/-- A piece of a string literal: a byte, or a `\u` escape. -/
inductive Piece where
  | byte (b : UInt8)
  | code (u : Nat)

/-- The byte a one-letter escape stands for. -/
def escapeByte (b : UInt8) : Option UInt8 :=
  if b = 0x22 || b = 0x5c || b = 0x2f then some b
  else if b = 0x62 then some 0x08
  else if b = 0x66 then some 0x0c
  else if b = 0x6e then some 0x0a
  else if b = 0x72 then some 0x0d
  else if b = 0x74 then some 0x09
  else none

/-- Scan a string literal after its opening quote. -/
def scanString : Bytes → Option (List Piece × Bytes)
  | [] => none
  | 0x22 :: bs => some ([], bs)
  | 0x5c :: 0x75 :: a :: b :: c :: d :: bs => do
      let u ← hex4 a b c d
      let (ps, rest) ← scanString bs
      return (.code u :: ps, rest)
  | 0x5c :: e :: bs => do
      let b ← escapeByte e
      let (ps, rest) ← scanString bs
      return (.byte b :: ps, rest)
  | b :: bs =>
    if b < 0x20 || b = 0x5c then none
    else do
      let (ps, rest) ← scanString bs
      return (.byte b :: ps, rest)

/-- The leading bytes of a list of pieces. -/
def leadingBytes : List Piece → Bytes
  | .byte b :: ps => b :: leadingBytes ps
  | _ => []

/-- The code point of a surrogate pair. -/
def surrogatePair (hi lo : Nat) : Option Nat :=
  if 0xd800 ≤ hi ∧ hi < 0xdc00 ∧ 0xdc00 ≤ lo ∧ lo < 0xe000 then
    some ((hi - 0xd800) * 0x400 + (lo - 0xdc00) + 0x10000)
  else none

/-- `unquote`: the Go string of a literal; `n` bounds the pieces. -/
def unquote : Nat → List Piece → Bytes
  | 0, _ => []
  | _, [] => []
  | n + 1, .code u :: ps =>
    if 0xd800 ≤ u ∧ u < 0xe000 then
      match ps with
      | .code v :: ps' =>
        match surrogatePair u v with
        | some r => encodeRune r ++ unquote n ps'
        | none => replacement ++ unquote n ps
      | _ => replacement ++ unquote n ps
    else encodeRune u ++ unquote n ps
  | n + 1, .byte b :: ps =>
    match runeSize (b :: leadingBytes ps) with
    | 0 => replacement ++ unquote n ps
    | k + 1 => b :: leadingBytes (ps.take k) ++ unquote n (ps.drop k)

/-- A string literal after its opening quote. -/
def parseString (bs : Bytes) : Option (Bytes × Bytes) :=
  (scanString bs).map fun (ps, rest) => (unquote ps.length ps, rest)

/-- A digit. -/
def isDigit (b : UInt8) : Bool := within 0x30 0x39 b

/-- One digit or more. -/
def digits (bs : Bytes) : Option (Bytes × Bytes) :=
  match bs.span isDigit with
  | ([], _) => none
  | (ds, rest) => some (ds, rest)

/-- The integer part: `0`, or digits that do not start with `0`. -/
def parseInt : Bytes → Option (Bytes × Bytes)
  | 0x30 :: bs => some ([0x30], bs)
  | bs => digits bs

/-- The fraction, if there is one. -/
def parseFrac : Bytes → Option (Bytes × Bytes)
  | 0x2e :: bs => (digits bs).map (fun (ds, rest) => (0x2e :: ds, rest))
  | bs => some ([], bs)

/-- The exponent, if there is one. -/
def parseExp : Bytes → Option (Bytes × Bytes)
  | e :: bs =>
    if e = 0x65 || e = 0x45 then
      match bs with
      | s :: bs' =>
        if s = 0x2b || s = 0x2d then
          (digits bs').map (fun (ds, rest) => (e :: s :: ds, rest))
        else (digits bs).map (fun (ds, rest) => (e :: ds, rest))
      | [] => none
    else some ([], e :: bs)
  | [] => some ([], [])

/-- A number. -/
def parseNumber (bs : Bytes) : Option (Bytes × Bytes) := do
  let (sign, bs) : Bytes × Bytes := match bs with
    | 0x2d :: bs => ([0x2d], bs)
    | bs => ([], bs)
  let (i, bs) ← parseInt bs
  let (f, bs) ← parseFrac bs
  let (e, bs) ← parseExp bs
  return (sign ++ i ++ f ++ e, bs)

/-- The deepest nesting `encoding/json` reads. -/
def maxNestingDepth : Nat := 10000

mutual

/-- A value at nesting depth `d`; `n` bounds the recursion. -/
def parseValue (n d : Nat) (bs : Bytes) : Option (Json × Bytes) :=
  match n with
  | 0 => none
  | n + 1 =>
    match skipSpace bs with
    | 0x7b :: bs =>
      if maxNestingDepth ≤ d then none
      else match skipSpace bs with
        | 0x7d :: bs => some (.object [], bs)
        | bs => (parseMembers n (d + 1) bs).map fun (ms, rest) => (.object ms, rest)
    | 0x5b :: bs =>
      if maxNestingDepth ≤ d then none
      else match skipSpace bs with
        | 0x5d :: bs => some (.array [], bs)
        | bs => (parseElems n (d + 1) bs).map fun (es, rest) => (.array es, rest)
    | 0x22 :: bs => (parseString bs).map fun (s, rest) => (.string s, rest)
    | 0x6e :: 0x75 :: 0x6c :: 0x6c :: bs => some (.null, bs)
    | 0x74 :: 0x72 :: 0x75 :: 0x65 :: bs => some (.bool true, bs)
    | 0x66 :: 0x61 :: 0x6c :: 0x73 :: 0x65 :: bs => some (.bool false, bs)
    | bs => (parseNumber bs).map fun (t, rest) => (.number t, rest)

/-- The elements of an array, up to its closing bracket. -/
def parseElems (n d : Nat) (bs : Bytes) : Option (List Json × Bytes) :=
  match n with
  | 0 => none
  | n + 1 => do
      let (v, bs) ← parseValue n d bs
      match skipSpace bs with
      | 0x2c :: bs =>
        let (vs, rest) ← parseElems n d bs
        return (v :: vs, rest)
      | 0x5d :: bs => return ([v], bs)
      | _ => none

/-- The members of an object, up to its closing brace. -/
def parseMembers (n d : Nat) (bs : Bytes) : Option (List (Bytes × Json) × Bytes) :=
  match n with
  | 0 => none
  | n + 1 =>
    match skipSpace bs with
    | 0x22 :: bs => do
        let (k, bs) ← parseString bs
        match skipSpace bs with
        | 0x3a :: bs =>
          let (v, bs) ← parseValue n d bs
          match skipSpace bs with
          | 0x2c :: bs =>
            let (ms, rest) ← parseMembers n d bs
            return ((k, v) :: ms, rest)
          | 0x7d :: bs => return ([(k, v)], bs)
          | _ => none
        | _ => none
    | _ => none

end

/-- A whole text is one value. -/
def parse (bs : Bytes) : Option Json := do
  let (v, rest) ← parseValue (2 * bs.length + 1) 0 bs
  if skipSpace rest = [] then some v else none

/-! ## Member names

A member fills the field whose name it folds to: letter case is ignored, and
the two letters outside ASCII that fold into it are U+017F and U+212A. -/

/-- `foldName`, on the names that can fold to an ASCII one. -/
def foldName : Bytes → Bytes
  | 0xc5 :: 0xbf :: bs => 0x53 :: foldName bs
  | 0xe2 :: 0x84 :: 0xaa :: bs => 0x4b :: foldName bs
  | b :: bs => (if within 0x61 0x7a b then b - 0x20 else b) :: foldName bs
  | [] => []

/-! ## base64 -/

/-- The standard alphabet. -/
def base64Char (n : Nat) : UInt8 :=
  if n < 26 then UInt8.ofNat (0x41 + n)
  else if n < 52 then UInt8.ofNat (0x61 + (n - 26))
  else if n < 62 then UInt8.ofNat (0x30 + (n - 52))
  else if n = 62 then 0x2b
  else 0x2f

/-- `base64.StdEncoding.Encode`. -/
def base64Encode : Bytes → Bytes
  | [] => []
  | [a] =>
    let v := a.toNat * 16
    [base64Char (v / 64), base64Char (v % 64), 0x3d, 0x3d]
  | [a, b] =>
    let v := (a.toNat * 256 + b.toNat) * 4
    [base64Char (v / 4096), base64Char (v / 64 % 64), base64Char (v % 64), 0x3d]
  | a :: b :: c :: bs =>
    let v := (a.toNat * 256 + b.toNat) * 256 + c.toNat
    base64Char (v / 262144) :: base64Char (v / 4096 % 64) :: base64Char (v / 64 % 64)
      :: base64Char (v % 64) :: base64Encode bs

/-- The value of a letter of the alphabet. -/
def base64Value (b : UInt8) : Option Nat :=
  if within 0x41 0x5a b then some (b.toNat - 0x41)
  else if within 0x61 0x7a b then some (b.toNat - 0x61 + 26)
  else if within 0x30 0x39 b then some (b.toNat - 0x30 + 52)
  else if b = 0x2b then some 62
  else if b = 0x2f then some 63
  else none

/-- Quanta of four letters; only the last one is padded. -/
def base64Quanta : Bytes → Option Bytes
  | [] => some []
  | [a, b, 0x3d, 0x3d] => do
      let a ← base64Value a
      let b ← base64Value b
      return [UInt8.ofNat (a * 4 + b / 16)]
  | [a, b, c, 0x3d] => do
      let a ← base64Value a
      let b ← base64Value b
      let c ← base64Value c
      return [UInt8.ofNat (a * 4 + b / 16), UInt8.ofNat (b % 16 * 16 + c / 4)]
  | a :: b :: c :: d :: bs => do
      let a ← base64Value a
      let b ← base64Value b
      let c ← base64Value c
      let d ← base64Value d
      let rest ← base64Quanta bs
      return UInt8.ofNat (a * 4 + b / 16) :: UInt8.ofNat (b % 16 * 16 + c / 4)
        :: UInt8.ofNat (c % 4 * 64 + d) :: rest
  | _ => none

/-- `base64.StdEncoding.Decode`: line breaks are skipped. -/
def base64Decode (bs : Bytes) : Option Bytes :=
  base64Quanta (bs.filter (fun b => b ≠ 0x0a && b ≠ 0x0d))

/-! ## Writing -/

/-- The lower-case hexadecimal digit of `n`. -/
def hexChar (n : UInt8) : UInt8 := if n < 10 then 0x30 + n else 0x57 + n

/-- One ASCII byte of a string literal, HTML escaping on. -/
def quoteByte (b : UInt8) : Bytes :=
  if b = 0x22 || b = 0x5c then [0x5c, b]
  else if b = 0x08 then [0x5c, 0x62]
  else if b = 0x0c then [0x5c, 0x66]
  else if b = 0x0a then [0x5c, 0x6e]
  else if b = 0x0d then [0x5c, 0x72]
  else if b = 0x09 then [0x5c, 0x74]
  else if b < 0x20 || b = 0x3c || b = 0x3e || b = 0x26 then
    [0x5c, 0x75, 0x30, 0x30, hexChar (b >>> 4), hexChar (b &&& 0x0f)]
  else [b]

/-- The inside of a string literal; `n` bounds the bytes. -/
def quoteBytes : Nat → Bytes → Bytes
  | 0, _ => []
  | _, [] => []
  | n + 1, b :: bs =>
    match runeSize (b :: bs) with
    | 0 => ascii "\\ufffd" ++ quoteBytes n bs
    | 1 => quoteByte b ++ quoteBytes n bs
    | k + 1 =>
      let r := b :: bs.take k
      -- U+2028 and U+2029 are escaped, every other rune is copied
      let out := if r = [0xe2, 0x80, 0xa8] then ascii "\\u2028"
        else if r = [0xe2, 0x80, 0xa9] then ascii "\\u2029" else r
      out ++ quoteBytes n (bs.drop k)

/-- `appendString`. -/
def quote (s : Bytes) : Bytes := 0x22 :: quoteBytes s.length s ++ [0x22]

/-- Put commas between members and braces around them. -/
def object (members : List Bytes) : Bytes :=
  0x7b :: (members.intersperse [0x2c]).flatten ++ [0x7d]

/-- One member of an object. -/
def member (name : String) (value : Bytes) : Bytes :=
  quote (ascii name) ++ 0x3a :: value

end GoJson

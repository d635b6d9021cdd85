import Mathlib.Algebra.GroupWithZero.Nat
import Mathlib.Data.List.Basic

/-! # HMAC-SHA256 in hexadecimal

SHA-256 over byte lists, HMAC over it, and the lower-case hexadecimal text
of a tag.  The chaining state is a record of eight words, so the width of a
digest is part of its type; what a verifier needs from it is that the text
of a tag is never empty (`hexEncode_hmac_ne_nil`).  The text tells the bytes
(`hexText_inj`). -/

namespace HmacSha256

/-- The eight chaining words. -/
structure Words where
  a : UInt32
  b : UInt32
  c : UInt32
  d : UInt32
  e : UInt32
  f : UInt32
  g : UInt32
  h : UInt32
deriving DecidableEq

/-- The initial chaining words. -/
def initial : Words :=
  ⟨0x6a09e667, 0xbb67ae85, 0x3c6ef372, 0xa54ff53a, 0x510e527f, 0x9b05688c, 0x1f83d9ab, 0x5be0cd19⟩

/-- The sixty-four round constants. -/
def roundConstants : List UInt32 :=
  [0x428a2f98, 0x71374491, 0xb5c0fbcf, 0xe9b5dba5, 0x3956c25b, 0x59f111f1, 0x923f82a4, 0xab1c5ed5,
   0xd807aa98, 0x12835b01, 0x243185be, 0x550c7dc3, 0x72be5d74, 0x80deb1fe, 0x9bdc06a7, 0xc19bf174,
   0xe49b69c1, 0xefbe4786, 0x0fc19dc6, 0x240ca1cc, 0x2de92c6f, 0x4a7484aa, 0x5cb0a9dc, 0x76f988da,
   0x983e5152, 0xa831c66d, 0xb00327c8, 0xbf597fc7, 0xc6e00bf3, 0xd5a79147, 0x06ca6351, 0x14292967,
   0x27b70a85, 0x2e1b2138, 0x4d2c6dfc, 0x53380d13, 0x650a7354, 0x766a0abb, 0x81c2c92e, 0x92722c85,
   0xa2bfe8a1, 0xa81a664b, 0xc24b8b70, 0xc76c51a3, 0xd192e819, 0xd6990624, 0xf40e3585, 0x106aa070,
   0x19a4c116, 0x1e376c08, 0x2748774c, 0x34b0bcb5, 0x391c0cb3, 0x4ed8aa4a, 0x5b9cca4f, 0x682e6ff3,
   0x748f82ee, 0x78a5636f, 0x84c87814, 0x8cc70208, 0x90befffa, 0xa4506ceb, 0xbef9a3f7, 0xc67178f2]

/-- Rotate right by `n`. -/
def rotr (x n : UInt32) : UInt32 := (x >>> n) ||| (x <<< (32 - n))

section

variable (s : Words) (block : List UInt8) (x : UInt32)

/-- The first small function of the message schedule. -/
def smallSigma0 : UInt32 := rotr x 7 ^^^ rotr x 18 ^^^ (x >>> 3)

/-- The second small function of the message schedule. -/
def smallSigma1 : UInt32 := rotr x 17 ^^^ rotr x 19 ^^^ (x >>> 10)

/-- The first large function of the rounds. -/
def bigSigma0 : UInt32 := rotr x 2 ^^^ rotr x 13 ^^^ rotr x 22

/-- The second large function of the rounds. -/
def bigSigma1 : UInt32 := rotr x 6 ^^^ rotr x 11 ^^^ rotr x 25

/-- A big-endian word. -/
def word (b0 b1 b2 b3 : UInt8) : UInt32 :=
  (b0.toUInt32 <<< 24) ||| (b1.toUInt32 <<< 16) ||| (b2.toUInt32 <<< 8) ||| b3.toUInt32

/-- The words of a block. -/
def blockWords : List UInt8 → List UInt32
  | b0 :: b1 :: b2 :: b3 :: bs => word b0 b1 b2 b3 :: blockWords bs
  | _ => []

/-- Extend the schedule by `n` words; the newest word stands first. -/
def extend : Nat → List UInt32 → List UInt32
  | 0, ws => ws
  | n + 1, ws =>
    extend n ((smallSigma1 (ws.getD 1 0) + ws.getD 6 0 + smallSigma0 (ws.getD 14 0)
      + ws.getD 15 0) :: ws)

/-- The message schedule of a block. -/
def schedule : List UInt32 :=
  (extend 48 (blockWords block).reverse).reverse

/-- One round. -/
def round (kw : UInt32 × UInt32) : Words :=
  let t1 := s.h + bigSigma1 s.e + ((s.e &&& s.f) ^^^ (~~~ s.e &&& s.g)) + kw.1 + kw.2
  let t2 := bigSigma0 s.a + ((s.a &&& s.b) ^^^ (s.a &&& s.c) ^^^ (s.b &&& s.c))
  ⟨t1 + t2, s.a, s.b, s.c, s.d + t1, s.e, s.f, s.g⟩

/-- Add two chaining states word by word. -/
def Words.add (s t : Words) : Words :=
  ⟨s.a + t.a, s.b + t.b, s.c + t.c, s.d + t.d, s.e + t.e, s.f + t.f, s.g + t.g, s.h + t.h⟩

/-- Compress one block. -/
def compress : Words :=
  s.add ((roundConstants.zip (schedule block)).foldl round s)

/-- The eight bytes of a bit length, most significant first. -/
def lengthBytes (n : Nat) : List UInt8 :=
  [56, 48, 40, 32, 24, 16, 8, 0].map fun s => UInt8.ofNat (n / 2 ^ s)

/-- The padded message. -/
def pad (msg : List UInt8) : List UInt8 :=
  msg ++ 0x80 :: List.replicate ((119 - msg.length % 64) % 64) 0 ++ lengthBytes (8 * msg.length)

/-- Compress `n` blocks of sixty-four bytes. -/
def compressBlocks : Nat → Words → List UInt8 → Words
  | 0, s, _ => s
  | n + 1, s, bs => compressBlocks n (compress s (bs.take 64)) (bs.drop 64)

/-- The bytes of a word, most significant first. -/
def wordBytes (w : UInt32) : List UInt8 :=
  [(w >>> 24).toUInt8, (w >>> 16).toUInt8, (w >>> 8).toUInt8, w.toUInt8]

/-- The bytes of a chaining state. -/
def Words.bytes : List UInt8 :=
  wordBytes s.a ++ wordBytes s.b ++ wordBytes s.c ++ wordBytes s.d
    ++ wordBytes s.e ++ wordBytes s.f ++ wordBytes s.g ++ wordBytes s.h

end

/-- SHA-256. -/
def sha256 (msg : List UInt8) : List UInt8 :=
  (compressBlocks ((pad msg).length / 64) initial (pad msg)).bytes

/-- The HMAC key as one block: a long key is hashed first. -/
def blockKey (key : List UInt8) : List UInt8 :=
  let k := if 64 < key.length then sha256 key else key
  k ++ List.replicate (64 - k.length) 0

/-- HMAC-SHA256 of `msg` under `key`. -/
def hmac (key msg : List UInt8) : List UInt8 :=
  sha256 ((blockKey key).map (· ^^^ 0x5c) ++ sha256 ((blockKey key).map (· ^^^ 0x36) ++ msg))

/-- A lower-case hexadecimal digit. -/
def hexDigit (n : UInt8) : UInt8 := if n < 10 then 0x30 + n else 0x57 + n

/-- Two digits for every byte. -/
def hexEncode : List UInt8 → List UInt8
  | [] => []
  | b :: bs => hexDigit (b >>> 4) :: hexDigit (b &&& 0x0f) :: hexEncode bs

/-- The digits as text. -/
def hexText (bytes : List UInt8) : String :=
  String.ofList ((hexEncode bytes).map (Char.ofNat ·.toNat))

/-! ## Widths -/

@[simp] theorem sha256_length (msg : List UInt8) : (sha256 msg).length = 32 := rfl

@[simp] theorem hmac_length (key msg : List UInt8) : (hmac key msg).length = 32 := sha256_length _

@[simp] theorem hexEncode_length (bs : List UInt8) : (hexEncode bs).length = 2 * bs.length := by
  induction bs with
  | nil => rfl
  | cons b bs ih =>
    simp only [hexEncode, List.length_cons, ih]
    omega

/-- The text of a tag is never empty. -/
theorem hexEncode_hmac_ne_nil (key msg : List UInt8) : hexEncode (hmac key msg) ≠ [] := by
  intro h
  have hl := congrArg List.length h
  rw [hexEncode_length, hmac_length] at hl
  exact absurd hl (by decide)

/-! ## Reading digits -/

/-- The number of a digit. -/
def unhexDigit (c : UInt8) : UInt8 := if c < 0x3a then c - 0x30 else c - 0x57

/-- The digits of a byte tell the byte. -/
theorem unhexDigit_hexDigit (b : UInt8) :
    unhexDigit (hexDigit (b >>> 4)) <<< 4 ||| unhexDigit (hexDigit (b &&& 0x0f)) = b := by
  have ha : ∀ n < 256, unhexDigit (hexDigit (UInt8.ofNat n >>> 4)) <<< 4 |||
      unhexDigit (hexDigit (UInt8.ofNat n &&& 0x0f)) = UInt8.ofNat n := by
    decide +kernel
  have hb := ha b.toNat b.toNat_lt
  rwa [UInt8.ofNat_toNat] at hb

theorem hexEncode_inj (h : hexEncode bs = hexEncode cs) : bs = cs := by
  induction bs generalizing cs with
  | nil =>
    cases cs with
    | nil => rfl
    | cons c cs => cases h
  | cons b bs ih =>
    cases cs with
    | nil => cases h
    | cons c cs => grind [unhexDigit_hexDigit, hexEncode]

theorem hexText_inj (h : hexText bs = hexText cs) : bs = cs := by
  have hc : Function.Injective (fun b : UInt8 => Char.ofNat b.toNat) := by
    have ha : ∀ n < 256, (Char.ofNat n).toNat = n := by decide +kernel
    intro b c hb
    have htn := congrArg Char.toNat hb
    rw [ha _ b.toNat_lt, ha _ c.toNat_lt] at htn
    exact UInt8.toNat_inj.mp htn
  refine hexEncode_inj (List.map_injective_iff.mpr hc ?_)
  simpa [hexText] using congrArg String.toList h

end HmacSha256

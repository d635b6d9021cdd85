import Mathlib.Data.List.Basic

/-! # Slices

Go's `copy` and slicing on lists, for messages that are assembled in a buffer
piece by piece and taken apart by offsets.  A buffer is written as the pieces it
consists of; an operation at the offset of a piece replaces or returns it. -/

namespace GoSlice

open List

variable {α : Type}

/-- `copy(buf[off:], src)`. -/
def copyAt (buf : List α) (off : Nat) (src : List α) : List α :=
  buf.take off ++ src.take (buf.length - off) ++ buf.drop (off + src.length)

/-- `buf[lo:hi]`. -/
def slice (buf : List α) (lo hi : Nat) : List α := (buf.take hi).drop lo

/-- Copying over a piece of its length replaces the piece. -/
theorem copyAt_append (ho : off = a.length)
    (hs : src.length = b.length) : copyAt (a ++ (b ++ c)) off src = a ++ (src ++ c) := by
  have hta : src.take ((a ++ (b ++ c)).length - a.length) = src := by
    rw [take_of_length_le]
    simp only [length_append]
    omega
  grind [copyAt]

/-- Copying to the start of a stretch of one value moves the stretch on. -/
theorem copyAt_replicate (ho : off = a.length) (hs : src.length ≤ n) (x : α) :
    copyAt (a ++ replicate n x) off src = (a ++ src) ++ replicate (n - src.length) x := by
  have hn : replicate n x = replicate src.length x ++ replicate (n - src.length) x := by
    rw [replicate_append_replicate, Nat.add_sub_cancel' hs]
  rw [hn, copyAt_append ho length_replicate.symm, append_assoc]

/-- Slicing at the ends of a piece returns the piece. -/
theorem slice_append (hl : lo = a.length)
    (hh : hi = a.length + b.length) : slice (a ++ (b ++ c)) lo hi = b := by
  subst hl hh
  rw [slice, ← append_assoc, ← length_append, take_left, drop_left]

end GoSlice

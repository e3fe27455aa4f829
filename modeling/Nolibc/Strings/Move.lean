import Nolibc.Foundation.Move
import Nolibc.Machine

/-!
# Moving memory

The generic `memmove` of `string.h`.  It counts a position up or down, from
one in front of the block or from behind it, so that the position wraps before
the first byte is copied.  Pointers and sizes are words of the same width.
-/

set_option autoImplicit false

namespace Nolibc.Strings.Move

open Nolibc.Machine
open Nolibc.Foundation.Move

variable {bits : Nat}

/-- `while (len) { pos += dir; dst[pos] = src[pos]; len--; }` -/
def moveLoop (dst src dir : BitVec bits) :
    Nat → BitVec bits → (Nat → Byte) → Nat → Byte
  | 0, _, memory => memory
  | len + 1, pos, memory =>
      let pos := pos + dir
      moveLoop dst src dir len pos
        (Function.update memory (dst + pos).toNat
          (memory (src + pos).toNat))

/-- `memmove`: the memory it leaves, and its result. -/
def memmove (memory : Nat → Byte) (dst src len : BitVec bits) :
    (Nat → Byte) × BitVec bits :=
  let (pos, dir) : BitVec bits × BitVec bits :=
    if dst < src then (-1, 1) else (len, -1)
  (moveLoop dst src dir len.toNat pos memory, dst)

/-! ## Words -/

/-- Within its block a pointer does not wrap. -/
theorem toNat_add_ofNat
    {base : BitVec bits} {offset : Nat}
    (fits : base.toNat + offset < 2 ^ bits) :
    (base + BitVec.ofNat bits offset).toNat = base.toNat + offset := by
  have small : offset < 2 ^ bits :=
    Nat.lt_of_le_of_lt (Nat.le_add_left _ _) fits
  rw [BitVec.toNat_add, BitVec.toNat_ofNat, Nat.mod_eq_of_lt small,
    Nat.mod_eq_of_lt fits]

theorem ofNat_succ (offset : Nat) :
    BitVec.ofNat bits (offset + 1) = BitVec.ofNat bits offset + 1 := by
  rw [BitVec.ofNat_add]
  rfl

/-! ## The loop -/

section Loop

variable (memory : Nat → Byte) {dst src : BitVec bits}

/-- Counting up, the loop extends the block that was copied. -/
theorem moveLoop_up
    {len : Nat} (dstFits : dst.toNat + len ≤ 2 ^ bits)
    (srcFits : src.toNat + len ≤ 2 ^ bits)
    (below : dst.toNat ≤ src.toNat)
    {count left : Nat} (whole : count + left = len) :
    moveLoop dst src 1 left (BitVec.ofNat bits count - 1)
        (moved memory dst.toNat src.toNat count) =
      moved memory dst.toNat src.toNat len := by
  induction left generalizing count with
  | zero => rw [moveLoop, ← whole, Nat.add_zero]
  | succ left induction =>
      have step := moved_forward memory count (Or.inr below)
      rw [moveLoop, BitVec.sub_add_cancel, toNat_add_ofNat (by omega),
        toNat_add_ofNat (by omega)]
      have next : BitVec.ofNat bits count =
          BitVec.ofNat bits (count + 1) - 1 := by
        rw [ofNat_succ, BitVec.add_sub_cancel]
      rw [step, next]
      exact induction (by omega)

/-- Counting down, the loop extends it in front. -/
theorem moveLoop_down
    {len : Nat} (dstFits : dst.toNat + len ≤ 2 ^ bits)
    (srcFits : src.toNat + len ≤ 2 ^ bits)
    (above : src.toNat ≤ dst.toNat)
    {count left : Nat} (whole : left + count = len) :
    moveLoop dst src (-1) left (BitVec.ofNat bits left)
        (moved memory (dst.toNat + left) (src.toNat + left) count) =
      moved memory dst.toNat src.toNat len := by
  induction left generalizing count with
  | zero =>
      rw [moveLoop, ← whole, Nat.zero_add, Nat.add_zero, Nat.add_zero]
  | succ left induction =>
      have step := moved_backward memory count
        (Or.inl (Nat.add_le_add_right above left))
      have position : BitVec.ofNat bits (left + 1) + -1 =
          BitVec.ofNat bits left := by
        rw [ofNat_succ, ← BitVec.sub_eq_add_neg, BitVec.add_sub_cancel]
      rw [moveLoop, position, toNat_add_ofNat (by omega),
        toNat_add_ofNat (by omega), ← Nat.add_assoc, ← Nat.add_assoc, step]
      exact induction (by omega)

end Loop

/-- Where neither block wraps around, `memmove` moves the block. -/
theorem memmove_eq
    (memory : Nat → Byte) {dst src len : BitVec bits}
    (dstFits : dst.toNat + len.toNat ≤ 2 ^ bits)
    (srcFits : src.toNat + len.toNat ≤ 2 ^ bits) :
    memmove memory dst src len =
      (moved memory dst.toNat src.toNat len.toNat, dst) := by
  unfold memmove
  by_cases up : dst < src
  · have below : dst.toNat ≤ src.toNat := Nat.le_of_lt up
    have ran := moveLoop_up memory dstFits srcFits below
      (Nat.zero_add len.toNat)
    have start : BitVec.ofNat bits 0 - 1 = -1 := BitVec.zero_sub _
    rw [moved_zero, start] at ran
    rw [if_pos up]
    exact congrArg (·, dst) ran
  · have above : src.toNat ≤ dst.toNat := Nat.le_of_not_lt up
    have ran := moveLoop_down memory dstFits srcFits above
      (Nat.add_zero len.toNat)
    rw [moved_zero, BitVec.ofNat_toNat, BitVec.setWidth_eq] at ran
    rw [if_neg up]
    exact congrArg (·, dst) ran

end Nolibc.Strings.Move

import Nolibc.Stdio.Formats

/-!
# Buffers of a fixed size

`__nolibc_printf` builds the text of a number in `tmpbuf`, which has 21 bytes,
and `strerror` has a static buffer of 18.  Neither has a byte to spare: the
longest texts are those of `ULLONG_MAX` and `LLONG_MIN`, and of `INT_MIN`
behind `errno=`.
-/

set_option autoImplicit false

namespace Nolibc.Stdio.Buffers

open Nolibc.Machine
open Nolibc.Stdlib.Itoa
open Nolibc.Stdio.Printf
open Nolibc.Stdio.Formats

/-- What is in the static buffer of `strerror`. -/
def strerrorBuf (errnum : Errno) : List Byte :=
  ascii "errno=" ++ (i64toaR (errnum.signExtend 64)).buffer

/-- What is stored to a buffer stays inside its size, and is a text with a NUL
behind it. -/
structure Fits (size : Nat) (stored : List Byte) : Prop where
  inside : stored.length ≤ size
  terminated : ∃ behind, stored = textOf stored ++ 0 :: behind

theorem fits_of_text
    {size : Nat} {text : List Byte} (noNul : (0 : Byte) ∉ text)
    (short : text.length < size) : Fits size (text ++ [0]) where
  inside := by
    rw [List.length_append, List.length_singleton]
    omega
  terminated := ⟨[], by rw [textOf_append_nul noNul]⟩

/-- A text without a NUL in front makes a buffer longer. -/
theorem Fits.behind
    {size : Nat} {stored front : List Byte} (fits : Fits size stored)
    (noNul : (0 : Byte) ∉ front) :
    Fits (front.length + size) (front ++ stored) where
  inside := by
    have inside := fits.inside
    rw [List.length_append]
    omega
  terminated := by
    rcases fits.terminated with ⟨behind, split⟩
    exact ⟨behind, by rw [textOf_append noNul, List.append_assoc, ← split]⟩

theorem Fits.mono
    {small large : Nat} {stored : List Byte} (fits : Fits small stored)
    (less : small ≤ large) : Fits large stored :=
  ⟨Nat.le_trans fits.inside less, fits.terminated⟩

/-! ## The conversions -/

/-- The digits of a word, or a sign and those of its magnitude. -/
theorem fits_i64toaR
    {size count : Nat} (input : BitVec 64) (positive : 0 < count)
    (small : input.toInt.natAbs < 10 ^ count) (room : count + 2 ≤ size) :
    Fits size (i64toaR input).buffer := by
  have most := signedDecimal_length_le positive small
  rw [i64toaR_eq]
  apply fits_of_text (signedDecimal_noNul _)
  split_ifs at most <;> omega

theorem fits_u64toaR (input : BitVec 64) :
    Fits 21 (u64toaR input.toNat).buffer := by
  have most := decimal_length_le (by decide : 0 < 20)
    (input.isLt.trans (by decide : 2 ^ 64 < 10 ^ 20))
  rw [u64toaR_eq input.isLt]
  exact fits_of_text (decimal_noNul _) (by omega)

example :
    (u64toaR (2 ^ 64 - 1)).buffer.length = 21 ∧
      (i64toaR (BitVec.intMin 64)).buffer.length = 21 ∧
      (i64toaR ((BitVec.intMin 32).signExtend 64)).buffer.length = 12 := by
  decide +kernel

theorem fits_u64tohR (target : Target) (input : BitVec 64) :
    Fits 17 (u64tohR target input.toNat).buffer := by
  have most := hexadecimal_length_le (by decide : 0 < 16)
    (input.isLt.trans_le (by decide : 2 ^ 64 ≤ 16 ^ 16))
  rw [u64tohR_eq target input.isLt]
  exact fits_of_text (hexadecimal_noNul _) (by omega)

theorem fits_char (c : Byte) : Fits 2 [c, 0] where
  inside := Nat.le_refl 2
  terminated := by
    by_cases nul : c = 0
    · exact ⟨[0], by simp [nul, textOf]⟩
    · exact ⟨[], by simp [nul, textOf]⟩

/-- What is stored for a conversion, of any value, fits into `tmpbuf`. -/
theorem fits_convert (target : Target) (c : Byte) (v : BitVec 64) :
    Fits 21 (convert target c v) := by
  have magnitude : v.toInt.natAbs < 10 ^ 19 := by
    have range : v.toInt < 2 ^ (64 - 1) := BitVec.toInt_lt
    have negative := BitVec.le_toInt v
    omega
  have digits := fits_u64tohR target v
  have noNul : (0 : Byte) ∉ ascii "0x" := by decide
  unfold convert
  split_ifs
  · exact (fits_char _).mono (by decide)
  · exact fits_i64toaR v (by decide) magnitude (by decide)
  · exact fits_u64toaR v
  · exact (digits.behind noNul).mono (by decide)
  · exact digits.mono (by decide)

theorem fits_strerrorBuf (errnum : Errno) : Fits 18 (strerrorBuf errnum) := by
  have same : (errnum.signExtend 64).toInt = errnum.toInt :=
    BitVec.toInt_signExtend_of_le (by decide)
  have magnitude : (errnum.signExtend 64).toInt.natAbs < 10 ^ 10 := by
    have range : errnum.toInt < 2 ^ (32 - 1) := BitVec.toInt_lt
    have negative := BitVec.le_toInt errnum
    omega
  have noNul : (0 : Byte) ∉ ascii "errno=" := by decide
  exact (fits_i64toaR (errnum.signExtend 64) (by decide) magnitude
    (by decide : 10 + 2 ≤ 12)).behind noNul

/-- A conversion returns the index at which it stores the NUL, the last one. -/
theorem ret_succ (target : Target) (v : BitVec 64) :
    (i64toaR v).ret + 1 = (i64toaR v).buffer.length ∧
      (u64toaR v.toNat).ret + 1 = (u64toaR v.toNat).buffer.length ∧
      (u64tohR target v.toNat).ret + 1 =
        (u64tohR target v.toNat).buffer.length := by
  rw [i64toaR_eq, u64toaR_eq v.isLt, u64tohR_eq target v.isLt]
  simp

/--
For every conversion of a number, every length modifier and every value, what
is stored to `tmpbuf` is a text and a NUL inside its 21 bytes, for a pointer
with the `0x` in front; and so are the text and the NUL of `strerror` inside
their 18 bytes, for every number.  The stores go on from index to index, up to
the one that is returned.
-/
theorem buffers_fit (target : Target) :
    (∀ (lpref c : Byte) (v : BitVec 64), Fits 21 (tmpbuf target lpref c v)) ∧
      (∀ (lpref : Byte) (v : BitVec 64),
        tmpbuf target lpref 'p'.toUInt8 v =
          ascii "0x" ++ tmpbuf target lpref 'x'.toUInt8 v) ∧
      (∀ errnum : Errno, Fits 18 (strerrorBuf errnum) ∧
        strerror errnum = textOf (strerrorBuf errnum)) ∧
      ∀ v : BitVec 64,
        (i64toaR v).ret + 1 = (i64toaR v).buffer.length ∧
          (u64toaR v.toNat).ret + 1 = (u64toaR v.toNat).buffer.length ∧
          (u64tohR target v.toNat).ret + 1 =
            (u64tohR target v.toNat).buffer.length := by
  refine ⟨fun lpref c v => fits_convert target c _, fun lpref v => rfl,
    fun errnum => ⟨fits_strerrorBuf errnum, rfl⟩, fun v => ret_succ target v⟩

end Nolibc.Stdio.Buffers

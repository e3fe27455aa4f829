import Nolibc.Stdlib.Conversions
import Nolibc.Stdlib.Numerals

/-!
# The texts of integers

What the conversions of `stdlib.h` write, said without the loops: the digits
of the canonical numeral behind at most a sign, and a NUL, in a buffer of the
documented size.  The parser of the same type reads every text back, from
`LONG_MIN` to `ULONG_MAX`.
-/

set_option autoImplicit false

namespace Nolibc.Stdlib.IntegerText

open Nolibc.Machine
open Nolibc.Foundation.Numeral
open Nolibc.Stdlib.Itoa
open Nolibc.Stdlib.Strtox
open Nolibc.Stdlib.Saturation
open Nolibc.Stdlib.NumberGrammar
open Nolibc.Stdlib.Conversions
open Nolibc.Stdlib.Numerals

/-! ## Texts -/

/-- The digits of a value in a base, as lowercase characters. -/
def IsNumeral (base value : Nat) (text : List Byte) : Prop :=
  ∃ digits, Canonical base value digits ∧ text = digits.map digitByte

/-- The decimal text of an integer: a sign before a negative one only. -/
def IsDecimal (value : Int) (text : List Byte) : Prop :=
  ∃ digits, IsNumeral 10 value.natAbs digits ∧
    text = if value < 0 then '-'.toUInt8 :: digits else digits

theorem isNumeral_toDigits
    {base : Nat} (large : 1 < base) (value : Nat) :
    IsNumeral base value ((Nat.toDigits base value).map Char.toUInt8) := by
  rcases exists_canonical_toDigits large value with
    ⟨digits, canonical, written⟩
  exact ⟨digits, canonical, by rw [written, map_digitByte]⟩

theorem isDecimal_signedDecimal (value : Int) :
    IsDecimal value (signedDecimal value) :=
  ⟨decimal value.natAbs, isNumeral_toDigits (by decide) value.natAbs, rfl⟩

/-! ## Decimal conversions -/

/--
The buffer holds the decimal text of `value` and a NUL within `size` bytes,
the result is the length of the text, and a parser takes the text for `value`.
-/
def WritesDecimal (target : Target) (function : Function) (size : Nat)
    (value : Int) (converted : Itoa.Converted) : Prop :=
  ∃ text : CString,
    IsDecimal value text.bytes ∧
    converted.buffer = text.bytes ++ [0] ∧
    converted.ret = text.length ∧
    converted.buffer.length ≤ size ∧
    ∀ errnum, function.call target text.start (10 : Nat) errnum =
      .ok ⟨value, text.start.add converted.ret, errnum⟩

/-- The documented size of the buffer of `utoa_r`. -/
def utoaSize (target : Target) : Nat :=
  match target.dataModel with
  | .lp64 => 21
  | .ilp32 => 11

/-- The documented size of the buffer of `itoa_r`. -/
def itoaSize (target : Target) : Nat :=
  match target.dataModel with
  | .lp64 => 21
  | .ilp32 => 12

/-- An integer between the limits of a type is in its range, and kept by it. -/
theorem inRange_of_limits
    {type : IntegerType} (standard : Standard type) {value : Int}
    (low : type.min ≤ value) (high : value ≤ type.max) :
    InRange type (decide (value < 0)) value.natAbs ∧
      valueIn type (decide (value < 0)) value.natAbs = value := by
  have same : denoted (decide (value < 0)) value.natAbs = value := by
    unfold denoted
    by_cases negative : value < 0
    · rw [if_pos (decide_eq_true negative)]
      omega
    · rw [if_neg (by simpa using negative)]
      omega
  unfold InRange valueIn
  rw [same]
  rcases type with ⟨signed, bits⟩
  cases signed with
  | true => exact ⟨⟨low, high⟩, rfl⟩
  | false =>
      have natural : 0 ≤ value := low
      have topmost : IntegerType.max ⟨false, bits⟩ < 2 ^ bits :=
        Nat.sub_lt (Nat.two_pow_pos bits) Nat.one_pos
      have small : value < 2 ^ bits :=
        Int.lt_of_le_of_lt high (by exact_mod_cast topmost)
      constructor
      · change value.natAbs ≤ IntegerType.max ⟨false, bits⟩
        omega
      · exact Int.emod_eq_of_lt natural small

/-- The decimal text of a value that its type has, read back. -/
theorem writesDecimal
    (target : Target) (function : Function) {size : Nat} {value : Int}
    (low : (function.type target).min ≤ value)
    (high : value ≤ (function.type target).max)
    (fits : (signedDecimal value).length + 1 ≤ size) :
    WritesDecimal target function size value
      ⟨signedDecimal value ++ [0], (signedDecimal value).length⟩ := by
  rcases decimalNumber_eq value with ⟨bytes, magnitude, minus⟩
  rcases inRange_of_limits (function.type_standard target) low high with
    ⟨inRange, kept⟩
  refine ⟨⟨signedDecimal value, signedDecimal_noNul value⟩,
    isDecimal_signedDecimal value, rfl, rfl, ?_, ?_⟩
  · rw [List.length_append]
    exact fits
  · intro errnum
    have read := strto_of_number target function (Or.inr (by decide))
      ⟨signedDecimal value, signedDecimal_noNul value⟩ (decimalNumber value)
      (by rw [bytes, List.append_nil])
      ⟨rfl, fun _ automatic => absurd automatic (by decide)⟩
      (by rw [minus, magnitude]; exact inRange) errnum
    rw [minus, magnitude, kept, bytes] at read
    exact read

/-- A value of an unsigned type, in a buffer for its longest numeral. -/
theorem writesDecimal_unsigned
    (target : Target) (function : Function) {bits count : Nat}
    (type : function.type target = ⟨false, bits⟩) {value : Nat}
    (small : value < 2 ^ bits) (positive : 0 < count)
    (enough : 2 ^ bits ≤ 10 ^ count) :
    WritesDecimal target function (count + 1) value
      ⟨decimal value ++ [0], (decimal value).length⟩ := by
  have unsigned : signedDecimal value = decimal value := by
    rw [signedDecimal, if_neg (Int.natCast_nonneg value).not_gt]
    rfl
  rw [← unsigned]
  apply writesDecimal
  · rw [type]
    exact Int.natCast_nonneg value
  · rw [type]
    exact Int.ofNat_le.mpr (Nat.le_sub_one_of_lt small)
  · rw [unsigned]
    exact Nat.succ_le_succ
      (decimal_length_le positive (small.trans_le enough))

/-- A value of a signed type, in a buffer for its lowest value. -/
theorem writesDecimal_signed
    (target : Target) (function : Function) {bits count : Nat}
    (type : function.type target = ⟨true, bits⟩) (input : BitVec bits)
    (positive : 0 < count) (enough : 2 ^ (bits - 1) < 10 ^ count) :
    WritesDecimal target function (count + 2) input.toInt
      ⟨signedDecimal input.toInt ++ [0],
        (signedDecimal input.toInt).length⟩ := by
  have standard := function.type_standard target
  rw [type] at standard
  have limits : -(2 ^ (bits - 1) : Int) ≤ input.toInt ∧
      input.toInt ≤ (2 ^ (bits - 1) - 1 : Nat) ∧
      input.toInt.natAbs ≤ 2 ^ (bits - 1) := by
    have low := input.le_toInt
    have high := input.toInt_lt
    rcases standard with rfl | rfl
    · norm_num at low high ⊢
      omega
    · norm_num at low high ⊢
      omega
  rcases limits with ⟨low, high, magnitude⟩
  apply writesDecimal
  · rw [type]
    exact low
  · rw [type]
    exact high
  · have length :=
      signedDecimal_length_le positive (magnitude.trans_lt enough)
    split_ifs at length <;> omega

/--
Every conversion writes the decimal text of its value and a NUL into a buffer
of the documented size, returns the length of the text, and the parser of its
type reads the value back.
-/
theorem decimal_conversions (target : Target) :
    (∀ input : BitVec 64,
      WritesDecimal target .strtoull 21 input.toNat
        (u64toaR input.toNat)) ∧
    (∀ input : BitVec 64,
      WritesDecimal target .strtoll 21 input.toInt (i64toaR input)) ∧
    (∀ input : BitVec target.longBits,
      WritesDecimal target .strtoul (utoaSize target) input.toNat
        (utoaR target input.toNat)) ∧
    ∀ input : BitVec target.longBits,
      WritesDecimal target .strtol (itoaSize target) input.toInt
        (itoaR target input) := by
  refine ⟨?_, ?_, ?_, ?_⟩
  · intro input
    rw [u64toaR_eq input.isLt]
    exact writesDecimal_unsigned target .strtoull rfl input.isLt
      (by decide : 0 < 20) (by decide)
  · intro input
    rw [i64toaR_eq]
    exact writesDecimal_signed target .strtoll rfl input
      (by decide : 0 < 19) (by decide)
  · intro input
    rw [utoaR_eq target input.isLt]
    rcases target with ⟨_ | _, charSigned⟩
    · exact writesDecimal_unsigned ⟨.ilp32, charSigned⟩ .strtoul rfl
        input.isLt (by decide : 0 < 10) (by decide : 2 ^ 32 ≤ 10 ^ 10)
    · exact writesDecimal_unsigned ⟨.lp64, charSigned⟩ .strtoul rfl
        input.isLt (by decide : 0 < 20) (by decide : 2 ^ 64 ≤ 10 ^ 20)
  · intro input
    rw [itoaR_eq]
    rcases target with ⟨_ | _, charSigned⟩
    · exact writesDecimal_signed ⟨.ilp32, charSigned⟩ .strtol rfl input
        (by decide : 0 < 10) (by decide : 2 ^ 31 < 10 ^ 10)
    · exact writesDecimal_signed ⟨.lp64, charSigned⟩ .strtol rfl input
        (by decide : 0 < 19) (by decide : 2 ^ 63 < 10 ^ 19)

/-! ## Hexadecimal conversions -/

/-- The buffer holds the hexadecimal text of `value` and a NUL. -/
def WritesHexadecimal (value : Nat) (converted : Itoa.Converted) : Prop :=
  ∃ text : CString,
    IsNumeral 16 value text.bytes ∧
    converted.buffer = text.bytes ++ [0] ∧
    converted.ret = text.length ∧
    converted.ret ≤ 16

theorem writesHexadecimal {value : Nat} (small : value < 2 ^ 64) :
    WritesHexadecimal value
      ⟨hexadecimal value ++ [0], (hexadecimal value).length⟩ := by
  refine ⟨⟨hexadecimal value, hexadecimal_noNul value⟩,
    isNumeral_toDigits (by decide) value, rfl, rfl, ?_⟩
  exact hexadecimal_length_le (by decide) (small.trans_eq (by decide))

/--
`utoh_r` agrees with `u64toh_r` on every `unsigned long`, and `u64toh_r` with
itself on any two targets, whichever of its branches they compile: they write
the hexadecimal text of their value.
-/
theorem hexadecimal_conversions :
    (∀ (target : Target) (input : BitVec target.longBits),
      utohR target input.toNat = u64tohR target input.toNat) ∧
    (∀ (first second : Target) (input : BitVec 64),
      u64tohR first input.toNat = u64tohR second input.toNat) ∧
    (∀ (target : Target) (input : BitVec 64),
      WritesHexadecimal input.toNat (u64tohR target input.toNat)) ∧
    ∀ (target : Target) (input : BitVec target.longBits),
      WritesHexadecimal input.toNat (utohR target input.toNat) := by
  have wide (target : Target) (input : BitVec target.longBits) :
      input.toNat < 2 ^ 64 := by
    refine input.isLt.trans_le (Nat.pow_le_pow_right (by decide) ?_)
    rcases target.longBits_cases with bits | bits <;> omega
  refine ⟨?_, ?_, ?_, ?_⟩
  · intro target input
    rw [utohR_eq target input.isLt, u64tohR_eq target (wide target input)]
  · intro first second input
    rw [u64tohR_eq first input.isLt, u64tohR_eq second input.isLt]
  · intro target input
    rw [u64tohR_eq target input.isLt]
    exact writesHexadecimal input.isLt
  · intro target input
    rw [utohR_eq target input.isLt]
    exact writesHexadecimal (wide target input)

end Nolibc.Stdlib.IntegerText

import Mathlib.Algebra.Group.Int.Defs
import Mathlib.Algebra.Group.Nat.Defs
import Mathlib.Data.List.Basic

/-!
# Words

A word is stored as its base-256 digits, from the least significant one on a
little-endian machine and from the most significant one on a big-endian
machine.  The lowest bits of a word are taken or cleared with a mask.
-/

set_option autoImplicit false

namespace Nolibc.Foundation.Word

/-- The order in which the bytes of a word are stored. -/
inductive Endian where
  | little
  | big
  deriving DecidableEq, Repr

/-- The `count` low digits of a value, least significant first. -/
def littleDigits : Nat → Nat → List UInt8
  | 0, _ => []
  | count + 1, value =>
      UInt8.ofNat value :: littleDigits count (value / 256)

/-- The number of base 256 digits, the lowest first. -/
def ofLittleDigits : List UInt8 → Nat
  | [] => 0
  | digit :: rest => digit.toNat + 256 * ofLittleDigits rest

@[simp]
theorem littleDigits_length (count value : Nat) :
    (littleDigits count value).length = count := by
  induction count generalizing value with
  | zero => rfl
  | succ count induction => simp [littleDigits, induction]

theorem ofLittleDigits_littleDigits
    {count value : Nat} (small : value < 256 ^ count) :
    ofLittleDigits (littleDigits count value) = value := by
  induction count generalizing value with
  | zero =>
      have zero : value = 0 := by simpa using small
      rw [zero]
      rfl
  | succ count induction =>
      have smaller : value / 256 < 256 ^ count := by
        rw [Nat.div_lt_iff_lt_mul (by decide), ← Nat.pow_succ]
        exact small
      rw [littleDigits, ofLittleDigits, induction smaller,
        UInt8.toNat_ofNat']
      exact Nat.mod_add_div value 256

/-- The bytes of a word of `count` bytes. -/
def encode (endian : Endian) (count value : Nat) : List UInt8 :=
  match endian with
  | .little => littleDigits count value
  | .big => (littleDigits count value).reverse

/-- The word stored as these bytes. -/
def decode (endian : Endian) (bytes : List UInt8) : Nat :=
  match endian with
  | .little => ofLittleDigits bytes
  | .big => ofLittleDigits bytes.reverse

@[simp]
theorem encode_length (endian : Endian) (count value : Nat) :
    (encode endian count value).length = count := by
  cases endian with
  | little => simp [encode]
  | big => simp [encode]

theorem decode_encode
    (endian : Endian) {count value : Nat} (small : value < 256 ^ count) :
    decode endian (encode endian count value) = value := by
  cases endian with
  | little => exact ofLittleDigits_littleDigits small
  | big =>
      rw [encode, decode, List.reverse_reverse]
      exact ofLittleDigits_littleDigits small

/-! ## Masks -/

section Masks

variable {width : Nat} (word : BitVec width) (count : Nat)

/-- The lowest bits are a remainder. -/
theorem toNat_and_low (inside : count ≤ width) :
    (word &&& BitVec.ofNat width (2 ^ count - 1)).toNat =
      word.toNat % 2 ^ count := by
  have fits : 2 ^ count - 1 < 2 ^ width :=
    Nat.lt_of_lt_of_le (Nat.sub_lt (Nat.two_pow_pos count) Nat.one_pos)
      (Nat.pow_le_pow_right Nat.two_pos inside)
  rw [BitVec.toNat_and, BitVec.toNat_ofNat, Nat.mod_eq_of_lt fits,
    Nat.and_two_pow_sub_one_eq_mod]

/-- To clear the lowest bits is to shift them out. -/
theorem and_not_low :
    word &&& ~~~BitVec.ofNat width (2 ^ count - 1) =
      (word >>> count) <<< count := by
  apply BitVec.eq_of_getLsbD_eq
  intro index here
  rw [BitVec.getLsbD_and, BitVec.getLsbD_not, BitVec.getLsbD_ofNat,
    Nat.testBit_two_pow_sub_one, BitVec.getLsbD_shiftLeft,
    BitVec.getLsbD_ushiftRight]
  by_cases low : index < count
  · simp [here, low]
  · have back : count + (index - count) = index := by omega
    simp [here, low, back]

/-- Without the lowest bits, a multiple is left. -/
theorem toNat_and_not_low :
    (word &&& ~~~BitVec.ofNat width (2 ^ count - 1)).toNat =
      2 ^ count * (word.toNat / 2 ^ count) := by
  have less : 2 ^ count * (word.toNat / 2 ^ count) < 2 ^ width :=
    Nat.lt_of_le_of_lt (Nat.mul_div_le word.toNat (2 ^ count)) word.isLt
  rw [and_not_low, BitVec.toNat_shiftLeft, BitVec.toNat_ushiftRight,
    Nat.shiftRight_eq_div_pow, Nat.shiftLeft_eq, Nat.mul_comm,
    Nat.mod_eq_of_lt less]

end Masks

end Nolibc.Foundation.Word

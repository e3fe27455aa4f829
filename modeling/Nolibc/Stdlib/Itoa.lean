import Mathlib.Tactic.IntervalCases
import Nolibc.Foundation.Numeral
import Nolibc.Machine

/-!
# Integer to ASCII conversion

`u64toa_r`, `i64toa_r` and `u64toh_r` of `stdlib.h`, and the same conversions
of a `long`.  A conversion fills its buffer from the first byte, so the buffer
is the list of the bytes stored so far and the next store goes to the index
`digits`.

The specification is the canonical numeral of the standard library: the
division-free loops write `Nat.toDigits`, then a NUL, and return the number of
characters before it.  What the loops share is `DigitLoop`: a turn either
writes the digit of its position or skips a leading zero.
-/

set_option autoImplicit false

namespace Nolibc.Stdlib.Itoa

open Nolibc.Machine
open Nolibc.Foundation.Numeral

/-! ## Reference numerals -/

/-- Canonical decimal text of a natural number. -/
def decimal (value : Nat) : List Byte :=
  (Nat.toDigits 10 value).map Char.toUInt8

/-- Canonical lowercase hexadecimal text of a natural number. -/
def hexadecimal (value : Nat) : List Byte :=
  (Nat.toDigits 16 value).map Char.toUInt8

/-- Canonical decimal text of an integer. -/
def signedDecimal (value : Int) : List Byte :=
  if value < 0 then
    '-'.toUInt8 :: decimal value.natAbs
  else
    decimal value.natAbs

theorem decimal_length_le
    {value count : Nat} (positive : 0 < count) (small : value < 10 ^ count) :
    (decimal value).length ≤ count := by
  rw [decimal, List.length_map]
  exact Nat.toDigits_length 10 value count positive small

theorem signedDecimal_length_le
    {value : Int} {count : Nat} (positive : 0 < count)
    (small : value.natAbs < 10 ^ count) :
    (signedDecimal value).length ≤
      if value < 0 then count + 1 else count := by
  unfold signedDecimal
  split_ifs
  · exact Nat.succ_le_succ (decimal_length_le positive small)
  · exact decimal_length_le positive small

theorem hexadecimal_length_le
    {value count : Nat} (positive : 0 < count) (small : value < 16 ^ count) :
    (hexadecimal value).length ≤ count := by
  rw [hexadecimal, List.length_map]
  exact Nat.toDigits_length 16 value count positive small

/-! ## The conversions -/

/-- What a conversion leaves behind: the buffer, NUL included, and its
result. -/
structure Converted where
  buffer : List Byte
  ret : Nat
  deriving DecidableEq, Repr

/-- The variables of the conversion loops that live across turns. -/
structure Progress where
  input : Nat
  digits : Nat
  buffer : List Byte

/-- `buffer[digits++] = byte`. -/
def Progress.put (progress : Progress) (byte : Byte) : Progress :=
  { progress with
    digits := progress.digits + 1
    buffer := progress.buffer ++ [byte] }

/-- `'0' + dig`, stored to a `char`. -/
def digitChar (dig : Nat) : Byte :=
  UInt8.ofNat ('0'.toNat + dig)

/-- `buffer[digits] = 0; return digits`. -/
def Progress.finish (progress : Progress) : Converted :=
  ⟨progress.buffer ++ [0], progress.digits⟩

/-- `for (dig = 0, lim = 1; dig < pos; dig++) lim *= 10`. -/
def limitOf : Nat → Nat
  | 0 => 1
  | pos + 1 => limitOf pos * 10 % 2 ^ 64

/--
`for (dig = 0; in >= lim; dig++) in -= lim`.  The limit is positive, so that
`input` turns are enough.
-/
def subtractLoop (lim : Nat) : Nat → Nat → Nat → Nat × Nat
  | 0, dig, input => (dig, input)
  | turns + 1, dig, input =>
      if lim ≤ input then
        subtractLoop lim turns (dig + 1) (input - lim)
      else
        (dig, input)

/-- One turn of the `do` loop of `u64toa_r`. -/
def u64toaTurn (pos : Nat) (progress : Progress) : Progress :=
  let lim := limitOf pos
  if progress.digits ≠ 0 ∨ lim ≤ progress.input ∨ pos = 0 then
    let (dig, input) :=
      subtractLoop lim progress.input 0 progress.input
    { progress with input := input }.put (digitChar dig)
  else
    progress

/-- The turns from position `pos` down to zero. -/
def u64toaLoop : Nat → Progress → Progress
  | 0, progress => u64toaTurn 0 progress
  | pos + 1, progress =>
      u64toaLoop pos (u64toaTurn (pos + 1) progress)

/-- `u64toa_r`. -/
def u64toaR (input : Nat) : Converted :=
  (u64toaLoop 19 ⟨input, 0, []⟩).finish

/-- `i64toa_r`: a sign in front of the magnitude. -/
def i64toaR (input : BitVec 64) : Converted :=
  if input.toInt < 0 then
    let converted := u64toaR (-input).toNat
    ⟨'-'.toUInt8 :: converted.buffer, 1 + converted.ret⟩
  else
    u64toaR input.toNat

/-- The same limit, computed in an `unsigned long`. -/
def longLimitOf (target : Target) : Nat → Nat
  | 0 => 1
  | pos + 1 => longLimitOf target pos * 10 % 2 ^ target.longBits

/-- The body of a decimal loop, behind the computation of the limit. -/
def limitTurn (lim pos : Nat) (progress : Progress) : Progress :=
  if progress.digits ≠ 0 ∨ lim ≤ progress.input ∨ pos = 0 then
    let (dig, input) :=
      subtractLoop lim progress.input 0 progress.input
    { progress with input := input }.put (digitChar dig)
  else
    progress

/-- One turn of the `do` loop of `utoa_r`. -/
def utoaTurn (target : Target) (pos : Nat) (progress : Progress) : Progress :=
  limitTurn (longLimitOf target pos) pos progress

/-- The loop of `utoa_r`, down to position 0. -/
def utoaLoop (target : Target) : Nat → Progress → Progress
  | 0, progress => utoaTurn target 0 progress
  | pos + 1, progress =>
      utoaLoop target pos (utoaTurn target (pos + 1) progress)

/-- `(~0UL > 0xfffffffful) ? 19 : 9`. -/
def utoaStart (target : Target) : Nat :=
  if target.sizeMax > 0xffffffff then 19 else 9

/-- `utoa_r`. -/
def utoaR (target : Target) (input : Nat) : Converted :=
  (utoaLoop target (utoaStart target) ⟨input, 0, []⟩).finish

/-- `itoa_r`: a sign in front of the magnitude. -/
def itoaR (target : Target) (input : BitVec target.longBits) : Converted :=
  if input.toInt < 0 then
    let converted := utoaR target (-input).toNat
    ⟨'-'.toUInt8 :: converted.buffer, 1 + converted.ret⟩
  else
    utoaR target input.toNat

/--
The digit at bit `pos`.  On 32-bit platforms the code picks a half word first
to avoid a 64-bit shift.
-/
def hexDigitAt (target : Target) (input pos : Nat) : Nat :=
  match target.dataModel with
  | .lp64 => (input >>> pos) &&& 0xF
  | .ilp32 =>
      let half := (if pos ≥ 32 then input >>> 32 else input) % 2 ^ 32
      (half >>> (pos &&& 31)) &&& 0xF

/-- One turn of the `do` loop of `u64toh_r`, for bit `4 * nibble`. -/
def u64tohTurn (target : Target) (nibble : Nat)
    (progress : Progress) : Progress :=
  let dig := hexDigitAt target progress.input (4 * nibble)
  let dig := if dig > 9 then dig + ('a'.toNat - '0'.toNat - 10) else dig
  if dig ≠ 0 ∨ progress.digits ≠ 0 ∨ nibble = 0 then
    progress.put (digitChar dig)
  else
    progress

/-- The loop of `u64toh_r`, down to nibble 0. -/
def u64tohLoop (target : Target) : Nat → Progress → Progress
  | 0, progress => u64tohTurn target 0 progress
  | nibble + 1, progress =>
      u64tohLoop target nibble (u64tohTurn target (nibble + 1) progress)

/-- `u64toh_r`. -/
def u64tohR (target : Target) (input : Nat) : Converted :=
  (u64tohLoop target 15 ⟨input, 0, []⟩).finish

/--
One turn of the `do` loop of `utoh_r`.  The digit is taken off the input, in
64 bits and back to an `unsigned long`, before it becomes a letter.
-/
def utohTurn (target : Target) (nibble : Nat)
    (progress : Progress) : Progress :=
  let pos := 4 * nibble
  let dig := progress.input >>> pos
  let input :=
    (progress.input + (2 ^ 64 - dig <<< pos % 2 ^ 64)) % 2 ^ 64 %
      2 ^ target.longBits
  let progress := { progress with input := input }
  if dig ≠ 0 ∨ progress.digits ≠ 0 ∨ nibble = 0 then
    progress.put
      (digitChar
        (if dig > 9 then dig + ('a'.toNat - '0'.toNat - 10) else dig))
  else
    progress

/-- The loop of `utoh_r`, down to nibble 0. -/
def utohLoop (target : Target) : Nat → Progress → Progress
  | 0, progress => utohTurn target 0 progress
  | nibble + 1, progress =>
      utohLoop target nibble (utohTurn target (nibble + 1) progress)

/-- The nibble at `(~0UL > 0xfffffffful) ? 60 : 28`. -/
def utohStart (target : Target) : Nat :=
  if target.sizeMax > 0xffffffff then 15 else 7

/-- `utoh_r`. -/
def utohR (target : Target) (input : Nat) : Converted :=
  (utohLoop target (utohStart target) ⟨input, 0, []⟩).finish

/-! ## Digits as bytes -/

/-- The character of a digit, as a byte. -/
def digitByte (digit : Nat) : Byte :=
  (Nat.digitChar digit).toUInt8

theorem digitChar_decimal
    {digit : Nat} (small : digit < 10) :
    digitChar digit = digitByte digit := by
  interval_cases digit <;> rfl

theorem digitChar_hexadecimal
    {digit : Nat} (small : digit < 16) :
    digitChar
        (if digit > 9 then digit + ('a'.toNat - '0'.toNat - 10)
          else digit) =
      digitByte digit := by
  interval_cases digit <;> rfl

theorem map_digitByte (digits : List Nat) :
    digits.map digitByte =
      (digits.map Nat.digitChar).map Char.toUInt8 := by
  rw [List.map_map]
  rfl

theorem digitByte_ne_zero
    {digit : Nat} (small : digit < 16) : digitByte digit ≠ 0 := by
  interval_cases digit <;> decide

/-- No numeral in a base up to sixteen has a NUL in it. -/
theorem toDigits_noNul
    {base : Nat} (large : 1 < base) (small : base ≤ 16) (value : Nat) :
    (0 : Byte) ∉ (Nat.toDigits base value).map Char.toUInt8 := by
  intro member
  obtain ⟨char, digits, equal⟩ := List.mem_map.mp member
  obtain ⟨digit, digitLt, rfl⟩ :=
    exists_digit_of_mem_toDigits large digits
  exact digitByte_ne_zero (digitLt.trans_le small) equal

theorem decimal_noNul (value : Nat) : (0 : Byte) ∉ decimal value :=
  toDigits_noNul (by decide) (by decide) value

theorem hexadecimal_noNul (value : Nat) :
    (0 : Byte) ∉ hexadecimal value :=
  toDigits_noNul (by decide) (by decide) value

theorem signedDecimal_noNul (value : Int) :
    (0 : Byte) ∉ signedDecimal value := by
  unfold signedDecimal
  split_ifs
  · simp [decimal_noNul]
  · exact decimal_noNul _

namespace Progress

@[simp]
theorem put_input (progress : Progress) (byte : Byte) :
    (progress.put byte).input = progress.input :=
  rfl

@[simp]
theorem put_digits (progress : Progress) (byte : Byte) :
    (progress.put byte).digits = progress.digits + 1 :=
  rfl

@[simp]
theorem put_buffer (progress : Progress) (byte : Byte) :
    (progress.put byte).buffer = progress.buffer ++ [byte] :=
  rfl

end Progress

/-! ## Loops over the positions -/

/--
A loop that writes the digits of its input in a base, from a position down to
zero.  Behind the digit of a position it may keep the input or any part of it
that still has the digits below.
-/
structure DigitLoop (base : Nat) (turn loop : Nat → Progress → Progress)
    (Fits : Nat → Nat → Prop) (left : Nat → Nat → Nat) : Prop where
  last : ∀ progress, loop 0 progress = turn 0 progress
  next : ∀ pos progress,
    loop (pos + 1) progress = loop pos (turn (pos + 1) progress)
  turn_eq : ∀ {pos : Nat} {progress : Progress}, Fits pos progress.input →
    turn pos progress =
      if progress.digits ≠ 0 ∨
          progress.input / base ^ pos % base ≠ 0 ∨ pos = 0 then
        { progress with input := left pos progress.input }.put
          (digitByte (progress.input / base ^ pos % base))
      else
        progress
  left_mod : ∀ pos input,
    left pos input % base ^ pos = input % base ^ pos
  fits_left : ∀ {pos input : Nat}, Fits (pos + 1) input →
    Fits pos (left (pos + 1) input)
  fits_skipped : ∀ {pos input : Nat}, Fits (pos + 1) input →
    input / base ^ (pos + 1) % base = 0 → Fits pos input

/-- The digits of the positions up to one, seen from the one above. -/
theorem padded_mod (base pos input : Nat) :
    padded base (pos + 1) (input % base ^ (pos + 1)) =
      input / base ^ pos % base ::
        padded base pos (input % base ^ pos) := by
  rw [padded_succ, pow_succ, Nat.mod_mul_right_div_self, Nat.mod_mul_right_mod]

namespace DigitLoop

variable {base : Nat} {turn loop : Nat → Progress → Progress}
  {Fits : Nat → Nat → Prop} {left : Nat → Nat → Nat}
  (digitLoop : DigitLoop base turn loop Fits left)

include digitLoop

/-- Once a digit is out, every remaining position is written. -/
theorem started
    {pos : Nat} (progress : Progress) (fits : Fits pos progress.input)
    (nonzero : progress.digits ≠ 0) :
    (loop pos progress).buffer =
        progress.buffer ++
          (padded base (pos + 1)
            (progress.input % base ^ (pos + 1))).map digitByte ∧
      (loop pos progress).digits = progress.digits + (pos + 1) := by
  induction pos generalizing progress with
  | zero =>
      rw [digitLoop.last, digitLoop.turn_eq fits, if_pos (Or.inl nonzero),
        padded_mod]
      simp [padded]
  | succ pos induction =>
      have remaining := induction
        ({ progress with input := left (pos + 1) progress.input }.put
          (digitByte (progress.input / base ^ (pos + 1) % base)))
        (digitLoop.fits_left fits) (Nat.succ_ne_zero _)
      rw [digitLoop.next, digitLoop.turn_eq fits, if_pos (Or.inl nonzero),
        remaining.1, remaining.2, padded_mod base (pos + 1),
        Progress.put_input, digitLoop.left_mod]
      constructor
      · simp
      · simp only [Progress.put_digits]
        omega

/-- From an empty buffer the leading zeros are skipped. -/
theorem fresh {pos input : Nat} (fits : Fits pos input) :
    (loop pos ⟨input, 0, []⟩).buffer =
        (trimmed base (pos + 1) (input % base ^ (pos + 1))).map digitByte ∧
      (loop pos ⟨input, 0, []⟩).digits =
        (trimmed base (pos + 1) (input % base ^ (pos + 1))).length := by
  have first : turn pos ⟨input, 0, []⟩ = _ := digitLoop.turn_eq fits
  induction pos with
  | zero =>
      rw [digitLoop.last, first, if_pos (Or.inr (Or.inr rfl)), trimmed,
        if_pos (Or.inr rfl), padded_mod]
      exact ⟨rfl, rfl⟩
  | succ pos induction =>
      have digit := congrArg List.head? (padded_mod base (pos + 1) input)
      rw [padded_succ, List.head?_cons, List.head?_cons,
        Option.some.injEq] at digit
      rw [digitLoop.next, first, trimmed, digit]
      by_cases leadingZero : input / base ^ (pos + 1) % base = 0
      · have fewer := digitLoop.fits_skipped fits leadingZero
        have skipped :
            input % base ^ (pos + 1 + 1) = input % base ^ (pos + 1) := by
          rw [pow_succ, Nat.mod_mul, leadingZero, Nat.mul_zero, Nat.add_zero]
        rw [if_neg (by simp [leadingZero]), if_neg (by simp [leadingZero]),
          skipped]
        exact induction fewer (digitLoop.turn_eq fewer)
      · have remaining := digitLoop.started
          ({ (⟨input, 0, []⟩ : Progress) with
              input := left (pos + 1) input }.put
            (digitByte (input / base ^ (pos + 1) % base)))
          (digitLoop.fits_left fits) (Nat.succ_ne_zero _)
        rw [if_pos (Or.inr (Or.inl leadingZero)),
          if_pos (Or.inl leadingZero), padded_length, remaining.1,
          remaining.2, padded_mod base (pos + 1), Progress.put_input,
          digitLoop.left_mod]
        constructor
        · simp
        · simp only [Progress.put_digits]
          omega

/-- From a position above its digits, a value is written as its numeral. -/
theorem finish_eq
    {pos input : Nat} (large : 1 < base) (fits : Fits pos input)
    (bounded : input < base ^ (pos + 1)) :
    (loop pos ⟨input, 0, []⟩).finish =
      ⟨(Nat.toDigits base input).map Char.toUInt8 ++ [0],
        ((Nat.toDigits base input).map Char.toUInt8).length⟩ := by
  have written := digitLoop.fresh fits
  rw [Nat.mod_eq_of_lt bounded] at written
  have canonical : (trimmed base (pos + 1) input).map digitByte =
      (Nat.toDigits base input).map Char.toUInt8 := by
    rw [map_digitByte, trimmed_eq_toDigits large (Nat.succ_pos pos) bounded]
  rw [Progress.finish, written.1, written.2, canonical, ← canonical,
    List.length_map]

end DigitLoop

/-! ## Decimal conversion -/

theorem limitOf_eq {pos : Nat} (small : pos ≤ 19) :
    limitOf pos = 10 ^ pos := by
  induction pos with
  | zero => rfl
  | succ pos induction =>
      rw [limitOf, induction (by omega), ← pow_succ]
      apply Nat.mod_eq_of_lt
      calc
        10 ^ (pos + 1) ≤ 10 ^ 19 :=
          Nat.pow_le_pow_right (by decide) small
        _ < 2 ^ 64 := by decide

theorem subtractLoop_eq
    {lim : Nat} (positive : 0 < lim)
    {turns input : Nat} (enough : input ≤ turns) (dig : Nat) :
    subtractLoop lim turns dig input =
      (dig + input / lim, input % lim) := by
  induction turns generalizing input dig with
  | zero =>
      have isZero : input = 0 := by omega
      simp [subtractLoop, isZero]
  | succ turns induction =>
      rw [subtractLoop]
      split_ifs with atLeast
      · rw [induction (by omega), Nat.mod_eq_sub_mod atLeast,
          Nat.div_eq_sub_div positive atLeast]
        congr 1
        omega
      · have smaller : input < lim := by omega
        rw [Nat.div_eq_of_lt smaller, Nat.mod_eq_of_lt smaller]
        rfl

/-- What the positions of a decimal loop below a limit rest on. -/
def DecimalFits (top pos input : Nat) : Prop :=
  pos ≤ top ∧ input < 10 ^ (pos + 1)

/-- The turn at the limit of its position, without the loop inside. -/
theorem limitTurn_eq
    {pos : Nat} {progress : Progress}
    (small : progress.input < 10 ^ (pos + 1)) :
    limitTurn (10 ^ pos) pos progress =
      if progress.digits ≠ 0 ∨
          progress.input / 10 ^ pos % 10 ≠ 0 ∨ pos = 0 then
        { progress with input := progress.input % 10 ^ pos }.put
          (digitByte (progress.input / 10 ^ pos % 10))
      else
        progress := by
  have positive : 0 < 10 ^ pos := Nat.pow_pos (by decide)
  have digitLt : progress.input / 10 ^ pos < 10 := by
    rw [Nat.div_lt_iff_lt_mul positive, ← pow_succ']
    exact small
  have reached :
      10 ^ pos ≤ progress.input ↔ progress.input / 10 ^ pos ≠ 0 := by
    rw [Ne, Nat.div_eq_zero_iff_lt positive]
    omega
  simp only [limitTurn, reached, Nat.mod_eq_of_lt digitLt,
    subtractLoop_eq positive (Nat.le_refl progress.input), Nat.zero_add,
    digitChar_decimal digitLt]

/-- A decimal loop whose limits do not wrap up to its first position. -/
theorem decimalLoop
    {turn loop : Nat → Progress → Progress} {limit : Nat → Nat} {top : Nat}
    (turns : ∀ pos progress,
      turn pos progress = limitTurn (limit pos) pos progress)
    (exact : ∀ pos, pos ≤ top → limit pos = 10 ^ pos)
    (last : ∀ progress, loop 0 progress = turn 0 progress)
    (next : ∀ pos progress,
      loop (pos + 1) progress = loop pos (turn (pos + 1) progress)) :
    DigitLoop 10 turn loop (DecimalFits top)
      fun pos input => input % 10 ^ pos where
  last := last
  next := next
  turn_eq := by
    intro pos progress fits
    rw [turns, exact pos fits.1, limitTurn_eq fits.2]
  left_mod := fun pos input => Nat.mod_mod input (10 ^ pos)
  fits_left := by
    intro pos input fits
    exact ⟨Nat.le_of_succ_le fits.1,
      Nat.mod_lt _ (Nat.pow_pos (by decide))⟩
  fits_skipped := by
    intro pos input fits leadingZero
    have digitLt : input / 10 ^ (pos + 1) < 10 := by
      rw [Nat.div_lt_iff_lt_mul (Nat.pow_pos (by decide)), ← pow_succ']
      exact fits.2
    rw [Nat.mod_eq_of_lt digitLt,
      Nat.div_eq_zero_iff_lt (Nat.pow_pos (by decide))] at leadingZero
    exact ⟨Nat.le_of_succ_le fits.1, leadingZero⟩

theorem u64toaLoop_decimal :
    DigitLoop 10 u64toaTurn u64toaLoop (DecimalFits 19)
      fun pos input => input % 10 ^ pos :=
  decimalLoop (fun _ _ => rfl) (fun _ => limitOf_eq) (fun _ => rfl)
    (fun _ _ => rfl)

/-- `u64toa_r` writes the canonical decimal text and returns its length. -/
theorem u64toaR_eq {input : Nat} (small : input < 2 ^ 64) :
    u64toaR input =
      ⟨decimal input ++ [0], (decimal input).length⟩ := by
  have bounded : input < 10 ^ (19 + 1) :=
    small.trans (by decide)
  exact u64toaLoop_decimal.finish_eq (by decide)
    ⟨Nat.le_refl 19, bounded⟩ bounded

/-- The first position is the highest digit an `unsigned long` can have. -/
theorem utoaStart_bounds (target : Target) :
    10 ^ utoaStart target < 2 ^ target.longBits ∧
      2 ^ target.longBits < 10 ^ (utoaStart target + 1) := by
  unfold utoaStart Target.sizeMax
  rcases target.longBits_cases with bits | bits
  · rw [bits]
    decide
  · rw [bits]
    decide

theorem longLimitOf_eq
    (target : Target) {pos : Nat} (inside : pos ≤ utoaStart target) :
    longLimitOf target pos = 10 ^ pos := by
  induction pos with
  | zero => rfl
  | succ pos induction =>
      rw [longLimitOf, induction (Nat.le_of_succ_le inside), ← pow_succ]
      apply Nat.mod_eq_of_lt
      calc
        10 ^ (pos + 1) ≤ 10 ^ utoaStart target :=
          Nat.pow_le_pow_right (by decide) inside
        _ < 2 ^ target.longBits := (utoaStart_bounds target).1

theorem utoaLoop_decimal (target : Target) :
    DigitLoop 10 (utoaTurn target) (utoaLoop target)
      (DecimalFits (utoaStart target)) fun pos input => input % 10 ^ pos :=
  decimalLoop (fun _ _ => rfl) (fun _ => longLimitOf_eq target)
    (fun _ => rfl) (fun _ _ => rfl)

/-- `utoa_r` writes the canonical decimal text and returns its length. -/
theorem utoaR_eq
    (target : Target) {input : Nat} (small : input < 2 ^ target.longBits) :
    utoaR target input =
      ⟨decimal input ++ [0], (decimal input).length⟩ := by
  have bounded := small.trans (utoaStart_bounds target).2
  exact (utoaLoop_decimal target).finish_eq (by decide)
    ⟨Nat.le_refl _, bounded⟩ bounded

/-- The magnitude of a signed word is its negation in the unsigned type. -/
theorem toNat_magnitude {width : Nat} (input : BitVec width) :
    (if input.toInt < 0 then (-input).toNat else input.toNat) =
      input.toInt.natAbs := by
  have value := BitVec.toInt_eq_toNat_cond input
  have range := input.isLt
  split_ifs with negative
  · rw [BitVec.toNat_neg]
    split_ifs at value with small
    · omega
    · rw [Nat.mod_eq_of_lt (by omega)]
      omega
  · split_ifs at value <;> omega

/-- `i64toa_r` writes the canonical signed text and returns its length. -/
theorem i64toaR_eq (input : BitVec 64) :
    i64toaR input =
      ⟨signedDecimal input.toInt ++ [0],
        (signedDecimal input.toInt).length⟩ := by
  have magnitude := toNat_magnitude input
  unfold i64toaR signedDecimal
  split_ifs at magnitude ⊢ with negative
  · rw [u64toaR_eq (-input).isLt, magnitude]
    simp [Nat.add_comm]
  · rw [u64toaR_eq input.isLt, magnitude]

/-- `itoa_r` writes the canonical signed text and returns its length. -/
theorem itoaR_eq (target : Target) (input : BitVec target.longBits) :
    itoaR target input =
      ⟨signedDecimal input.toInt ++ [0],
        (signedDecimal input.toInt).length⟩ := by
  have magnitude := toNat_magnitude input
  unfold itoaR signedDecimal
  split_ifs at magnitude ⊢ with negative
  · rw [utoaR_eq target (-input).isLt, magnitude]
    simp [Nat.add_comm]
  · rw [utoaR_eq target input.isLt, magnitude]

/-! ## Hexadecimal conversion -/

/-- Both shift strategies read the same digit. -/
theorem hexDigitAt_eq
    (target : Target) {input nibble : Nat}
    (small : input < 2 ^ 64) (bounded : nibble ≤ 15) :
    hexDigitAt target input (4 * nibble) = input / 16 ^ nibble % 16 := by
  have power : 2 ^ (4 * nibble) = 16 ^ nibble :=
    pow_mul 2 4 nibble
  have lowBits (value : Nat) : value &&& 0xF = value % 16 :=
    Nat.and_two_pow_sub_one_eq_mod value 4
  have shiftBits (value : Nat) : value &&& 31 = value % 32 :=
    Nat.and_two_pow_sub_one_eq_mod value 5
  unfold hexDigitAt
  cases target.dataModel with
  | lp64 =>
      simp only [lowBits, Nat.shiftRight_eq_div_pow, power]
  | ilp32 =>
      simp only [lowBits, shiftBits, Nat.shiftRight_eq_div_pow]
      clear power
      interval_cases nibble <;> simp <;> omega

/-- A nonzero digit stays so when it becomes the offset of a letter. -/
theorem letter_ne_zero_iff (digit : Nat) :
    (if digit > 9 then digit + ('a'.toNat - '0'.toNat - 10)
      else digit) ≠ 0 ↔ digit ≠ 0 := by
  split_ifs <;> omega

theorem u64tohLoop_hexadecimal (target : Target) :
    DigitLoop 16 (u64tohTurn target) (u64tohLoop target)
      (fun nibble input => nibble ≤ 15 ∧ input < 2 ^ 64)
      fun _ input => input where
  last := fun _ => rfl
  next := fun _ _ => rfl
  turn_eq := by
    rintro nibble progress ⟨bounded, small⟩
    have digitLt : progress.input / 16 ^ nibble % 16 < 16 :=
      Nat.mod_lt _ (by decide)
    simp only [u64tohTurn, hexDigitAt_eq target small bounded,
      letter_ne_zero_iff, digitChar_hexadecimal digitLt, or_left_comm]
  left_mod := fun _ _ => rfl
  fits_left := fun fits => ⟨Nat.le_of_succ_le fits.1, fits.2⟩
  fits_skipped := fun fits _ => ⟨Nat.le_of_succ_le fits.1, fits.2⟩

/-- `u64toh_r` writes the canonical hexadecimal text on both data models. -/
theorem u64tohR_eq
    (target : Target) {input : Nat} (small : input < 2 ^ 64) :
    u64tohR target input =
      ⟨hexadecimal input ++ [0], (hexadecimal input).length⟩ := by
  have bounded : input < 16 ^ (15 + 1) :=
    small.trans_eq (by decide)
  exact (u64tohLoop_hexadecimal target).finish_eq (by decide)
    ⟨Nat.le_refl 15, small⟩ bounded

theorem utohStart_eq (target : Target) :
    2 ^ target.longBits = 16 ^ (utohStart target + 1) := by
  unfold utohStart Target.sizeMax
  rcases target.longBits_cases with bits | bits
  · rw [bits]
    decide
  · rw [bits]
    decide

/-- Taking the shifted digit off leaves the bits below it. -/
theorem take_digit
    (target : Target) (nibble : Nat) {input : Nat}
    (small : input < 2 ^ target.longBits) :
    (input + (2 ^ 64 -
        input >>> (4 * nibble) <<< (4 * nibble) % 2 ^ 64)) % 2 ^ 64 %
        2 ^ target.longBits =
      input % 16 ^ nibble := by
  have power : 2 ^ (4 * nibble) = 16 ^ nibble :=
    pow_mul 2 4 nibble
  have wide : 2 ^ target.longBits ≤ 2 ^ 64 := by
    apply Nat.pow_le_pow_right (by decide)
    rcases target.longBits_cases with bits | bits <;> omega
  have split := Nat.div_add_mod input (16 ^ nibble)
  rw [Nat.shiftRight_eq_div_pow, Nat.shiftLeft_eq, power, Nat.mul_comm]
  generalize 16 ^ nibble * (input / 16 ^ nibble) = high at split ⊢
  have borrow : input + (2 ^ 64 - high) = input % 16 ^ nibble + 2 ^ 64 := by
    omega
  rw [Nat.mod_eq_of_lt (by omega : high < 2 ^ 64), borrow,
    Nat.add_mod_right, Nat.mod_eq_of_lt (by omega),
    Nat.mod_eq_of_lt (by omega)]

theorem utohLoop_hexadecimal (target : Target) :
    DigitLoop 16 (utohTurn target) (utohLoop target)
      (fun nibble input =>
        input < 16 ^ (nibble + 1) ∧ input < 2 ^ target.longBits)
      fun nibble input => input % 16 ^ nibble where
  last := fun _ => rfl
  next := fun _ _ => rfl
  turn_eq := by
    rintro nibble progress ⟨topmost, small⟩
    have positive : 0 < 16 ^ nibble := Nat.pow_pos (by decide)
    have digitLt : progress.input / 16 ^ nibble < 16 := by
      rw [Nat.div_lt_iff_lt_mul positive, ← pow_succ']
      exact topmost
    have digit : progress.input >>> (4 * nibble) =
        progress.input / 16 ^ nibble := by
      rw [Nat.shiftRight_eq_div_pow, pow_mul]
      rfl
    have taken := take_digit target nibble small
    rw [digit] at taken
    simp only [utohTurn, digit, taken, Nat.mod_eq_of_lt digitLt,
      digitChar_hexadecimal digitLt, or_left_comm]
    split_ifs with writes
    case pos => rfl
    case neg =>
      -- A digit that is not written is zero, and leaves the input as it is.
      have leadingZero : progress.input / 16 ^ nibble = 0 := by
        by_contra nonzero
        exact writes (Or.inr (Or.inl nonzero))
      rw [Nat.div_eq_zero_iff_lt positive] at leadingZero
      rw [Nat.mod_eq_of_lt leadingZero]
  left_mod := fun nibble input => Nat.mod_mod input (16 ^ nibble)
  fits_left := by
    rintro nibble input ⟨topmost, small⟩
    exact ⟨Nat.mod_lt _ (Nat.pow_pos (by decide)),
      Nat.lt_of_le_of_lt (Nat.mod_le _ _) small⟩
  fits_skipped := by
    rintro nibble input ⟨topmost, small⟩ leadingZero
    have positive : 0 < 16 ^ (nibble + 1) := Nat.pow_pos (by decide)
    have digitLt : input / 16 ^ (nibble + 1) < 16 := by
      rw [Nat.div_lt_iff_lt_mul positive, ← pow_succ']
      exact topmost
    rw [Nat.mod_eq_of_lt digitLt,
      Nat.div_eq_zero_iff_lt positive] at leadingZero
    exact ⟨leadingZero, small⟩

/-- `utoh_r` writes the canonical hexadecimal text of an `unsigned long`. -/
theorem utohR_eq
    (target : Target) {input : Nat} (small : input < 2 ^ target.longBits) :
    utohR target input =
      ⟨hexadecimal input ++ [0], (hexadecimal input).length⟩ := by
  have bounded : input < 16 ^ (utohStart target + 1) :=
    small.trans_eq (utohStart_eq target)
  exact (utohLoop_hexadecimal target).finish_eq (by decide)
    ⟨bounded, small⟩ bounded

end Nolibc.Stdlib.Itoa

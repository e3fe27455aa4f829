import Nolibc.Stdlib.Conversions

/-!
# `atol` and `strtol`

`atol` is a loop of its own and not a call of `strtol`: it takes one `-`, and
stops at the first byte of which the difference to `'0'`, as an
`unsigned long`, is above nine.  White space and a `+` stop it like any other
byte, where `strtol` steps over them.  `atol_agrees_iff` says on which numbers
in range the two agree.
-/

set_option autoImplicit false

namespace Nolibc.Stdlib.Atol

open Nolibc.Machine
open Nolibc.Ctype
open Nolibc.Foundation
open Nolibc.Foundation.Horner
open Nolibc.Stdlib.Strtox
open Nolibc.Stdlib.Saturation
open Nolibc.Stdlib.NumberGrammar
open Nolibc.Stdlib.Conversions

/-! ## The code -/

/-- The variables of the digit loop. -/
structure AtolScan where
  s : Pointer
  ret : Nat

/-- One turn of `while (1)`, which a `break` leaves. -/
def atolTurn (target : Target) (scan : AtolScan) :
    Except Fault (AtolScan ⊕ Nat) := do
  let c ← scan.s.load
  let d :=
    ((target.charToInt c - '0'.toNat) % 2 ^ target.longBits).toNat
  if d > 9 then
    pure (.inr scan.ret)
  else
    let ret := scan.ret * 10 % 2 ^ target.longBits
    pure (.inl ⟨scan.s.add 1, (ret + d) % 2 ^ target.longBits⟩)

/-- `atol`. -/
def atol (target : Target) (s : Pointer) : Except Fault Int := do
  let c ← s.load
  let neg : Bool := decide (c = '-'.toUInt8)
  let s := if neg then s.add 1 else s
  let ret ← Loop.run Fault.diverged (atolTurn target)
    (s.string.length + 1) ⟨s, 0⟩
  let ret := BitVec.ofNat target.longBits ret
  return (if neg then -ret else ret).toInt

/-- `atoi`: the result of `atol` as an `int`. -/
def atoi (target : Target) (s : Pointer) : Except Fault Int := do
  let value ← atol target s
  return intOfLong value

/-! ## What the loop reads -/

theorem digitIn_ten (c : Byte) :
    digitIn 10 c =
      if 48 ≤ c.toNat ∧ c.toNat ≤ 57 then some (c.toNat - 48) else none := by
  have zero : '0'.toNat = 48 := rfl
  have lowerA : 'a'.toNat = 97 := rfl
  have upperA : 'A'.toNat = 65 := rfl
  simp only [digitIn, digitWorth, UInt8.le_iff_toNat_le, Char.toUInt8, zero,
    lowerA, upperA]
  split_ifs <;> simp_all
  omega

/-- The difference of a digit to `'0'` is its value. -/
theorem difference_digit
    (target : Target) {c : Byte} {digit : Nat}
    (found : digitIn 10 c = some digit) :
    ((target.charToInt c - '0'.toNat) % 2 ^ target.longBits).toNat = digit ∧
      digit ≤ 9 := by
  have zero : '0'.toNat = 48 := rfl
  rw [digitIn_ten] at found
  split_ifs at found with inside
  rw [Option.some.injEq] at found
  have value : target.charToInt c = c.toNat :=
    target.charToInt_of_lt (by omega)
  rw [value, zero]
  rcases target.longBits_cases with bits | bits <;> rw [bits] <;> omega

/-- The difference of any other byte is above nine, if need be by wrapping. -/
theorem difference_other
    (target : Target) {c : Byte} (notFound : digitIn 10 c = none) :
    9 < ((target.charToInt c - '0'.toNat) % 2 ^ target.longBits).toNat := by
  have zero : '0'.toNat = 48 := rfl
  have range := c.toNat_lt
  rw [digitIn_ten] at notFound
  split_ifs at notFound with inside
  rw [zero]
  rcases target.longBits_cases with bits | bits <;> rw [bits] <;>
    rcases target.charToInt_eq c with value | ⟨value, large⟩ <;>
    rw [value] <;> omega

theorem atolTurn_digit
    (target : Target) {s : Pointer} {c : Byte} {text : List Byte}
    (points : s.Points (c :: text)) {digit : Nat}
    (found : digitIn 10 c = some digit) (ret : Nat) :
    atolTurn target ⟨s, ret⟩ =
      .ok (.inl ⟨s.add 1,
        wrapDigit (2 ^ target.longBits) 10 ret digit⟩) := by
  rcases difference_digit target found with ⟨difference, small⟩
  simp only [atolTurn, points.load, deref_cons, difference,
    if_neg (Nat.not_lt.mpr small), Nat.mod_add_mod, bind, Except.bind, pure,
    Except.pure]
  rfl

theorem atolTurn_other
    (target : Target) {s : Pointer} {text : List Byte}
    (points : s.Points text) (notFound : digitIn 10 (deref text) = none)
    (ret : Nat) :
    atolTurn target ⟨s, ret⟩ = .ok (.inr ret) := by
  have above := difference_other target notFound
  simp only [atolTurn, points.load, gt_iff_lt, if_pos above, bind,
    Except.bind, pure, Except.pure]

/-- The loop takes the digits its text starts with into the word. -/
theorem atolLoop_eq
    (target : Target) {s : Pointer} {text : List Byte}
    (points : s.Points text) (ret : Nat) :
    Loop.run Fault.diverged (atolTurn target) (s.string.length + 1)
        ⟨s, ret⟩ =
      .ok (wrapped (2 ^ target.longBits) 10 ret (digits 10 text)) := by
  have run {turns : Nat} (enough : text.length < turns) :
      Loop.run Fault.diverged (atolTurn target) turns ⟨s, ret⟩ =
        .ok (wrapped (2 ^ target.longBits) 10 ret (digits 10 text)) := by
    induction turns generalizing s text ret with
    | zero => exact absurd enough (Nat.not_lt_zero _)
    | succ turns induction =>
        cases found : digitIn 10 (deref text) with
        | none =>
            rw [Loop.run_exit (atolTurn_other target points found ret),
              (digits_eq_nil_iff 10 text).mpr found]
            rfl
        | some digit =>
            cases text with
            | nil =>
                have worthless : digitIn 10 0 = none := by decide
                exact absurd (worthless.symm.trans found)
                  (Option.some_ne_none digit).symm
            | cons c text =>
                rw [deref_cons] at found
                rw [Loop.run_continue
                    (atolTurn_digit target points found ret),
                  induction points.step _ (by simpa using enough),
                  digits, found]
                rfl
  exact run (Nat.lt_succ_of_le points.length_le)

/-- What is behind the sign `atol` knows. -/
def behindMinus (text : List Byte) : List Byte :=
  if deref text = '-'.toUInt8 then text.drop 1 else text

/-- A call never leaves the string and reads the digits behind a `-`. -/
theorem atol_eq (target : Target) (string : CString) :
    atol target string.start =
      .ok (
        let ret := BitVec.ofNat target.longBits
          (wrapped (2 ^ target.longBits) 10 0
            (digits 10 (behindMinus string.bytes)))
        (if deref string.bytes = '-'.toUInt8 then -ret else ret).toInt) := by
  have points := Pointer.points_start string
  have moved :
      (if deref string.bytes = '-'.toUInt8 then
        string.start.add 1
      else
        string.start).Points (behindMinus string.bytes) := by
    unfold behindMinus
    split_ifs with minus
    · apply points.drop
      cases bytes : string.bytes with
      | nil =>
          rw [bytes] at minus
          exact absurd minus (by decide)
      | cons c rest => simp
    · exact points
  have loop := atolLoop_eq target moved 0
  simp only [atol, points.load, decide_eq_true_eq, loop, bind, Except.bind,
    pure, Except.pure]

/-! ## Agreement with `strtol` -/

/-- The call returns what `strtol(s, NULL, 10)` returns. -/
def AgreesWithStrtol (target : Target) (string : CString) : Prop :=
  ∃ value, atol target string.start = .ok value ∧
    ∀ errnum, ∃ converted,
      strtol target string.start 10 errnum = .ok converted ∧
        converted.ret = value

/-- The number a string starts with is one that a `long` has. -/
def LeadingInRange (target : Target) (string : CString) : Prop :=
  InRange (.long target) (subject 10 string.bytes).minus
    (magnitude (subject 10 string.bytes).numeral)

/-- A numeral denotes zero when all its digits do. -/
theorem horner_eq_zero_iff
    {base : Nat} (positive : 0 < base) (value : Nat) (digits : List Nat) :
    horner base value digits = 0 ↔
      value = 0 ∧ ∀ digit ∈ digits, digit = 0 := by
  induction digits generalizing value with
  | nil => simp [horner]
  | cons digit rest induction =>
      rw [horner, induction, Nat.add_eq_zero_iff, Nat.mul_eq_zero,
        or_iff_left (Nat.ne_of_gt positive), List.forall_mem_cons, and_assoc]

/-- `strtol` returns the number when it is in range. -/
theorem strtol_of_inRange
    (target : Target) {string : CString}
    (inRange : LeadingInRange target string) (errnum : Errno) :
    ∃ converted, strtol target string.start 10 errnum = .ok converted ∧
      converted.ret =
        denoted (subject 10 string.bytes).minus
          (magnitude (subject 10 string.bytes).numeral) := by
  have standard : Standard (.long target) := target.longBits_cases
  have called := strto_points target standard (by decide : 10 ≤ 36)
    (Pointer.points_start string) errnum
  have positive : 0 < (reading 10 string.bytes).numeral.base :=
    (by decide : 0 < 10)
  exact ⟨_, called, (converted_of_inRange standard positive inRange).1⟩

theorem bound_lt_long (target : Target) (minus : Bool) :
    bound (.long target) minus < 2 ^ target.longBits := by
  rcases target with ⟨_ | _, charSigned⟩ <;> cases minus <;>
    simp only [bound, IntegerType.long, IntegerType.max, Target.longBits] <;>
    decide

/-- In a `long`, a magnitude in range and its negation are exact. -/
theorem toInt_of_inRange
    (target : Target) {minus : Bool} {magnitude : Nat}
    (inRange : InRange (.long target) minus magnitude) :
    (if minus then
        -BitVec.ofNat target.longBits magnitude
      else
        BitVec.ofNat target.longBits magnitude).toInt =
      denoted minus magnitude := by
  have signed :
      (if minus then
        -BitVec.ofNat target.longBits magnitude
      else
        BitVec.ofNat target.longBits magnitude) =
        BitVec.ofInt target.longBits (denoted minus magnitude) := by
    cases minus with
    | false => exact (BitVec.ofInt_natCast _ magnitude).symm
    | true =>
        rw [if_pos rfl, denoted, if_pos rfl, BitVec.ofInt_neg,
          BitVec.ofInt_natCast]
  have positive : 0 < target.longBits := by
    rcases target.longBits_cases with bits | bits <;> omega
  have topmost : 2 ^ (target.longBits - 1) - 1 < 2 ^ (target.longBits - 1) :=
    Nat.sub_lt (Nat.two_pow_pos _) Nat.one_pos
  rcases inRange with ⟨low, high⟩
  rw [signed]
  exact BitVec.toInt_ofInt_eq_self positive low
    (Int.lt_of_le_of_lt high (by exact_mod_cast topmost))

section Agreement

variable {target : Target} {string : CString}

/-- Without white space and `+` in front, `atol` reads the number. -/
theorem atol_of_plain
    (notWhite : deref string.bytes ∉ whiteSpace)
    (notPlus : deref string.bytes ≠ '+'.toUInt8)
    (inRange : LeadingInRange target string) :
    atol target string.start =
      .ok (denoted (subject 10 string.bytes).minus
        (magnitude (subject 10 string.bytes).numeral)) := by
  have blank := spaces_of_stop notWhite
  have minus : (subject 10 string.bytes).minus =
      decide (deref string.bytes = '-'.toUInt8) := by
    rw [subject, blank.2]
  have behind : unsigned string.bytes = behindMinus string.bytes := by
    rw [unsigned, blank.2, signLength, behindMinus]
    simp only [notPlus, false_or]
    split_ifs
    · rfl
    · rfl
  have value : magnitude (subject 10 string.bytes).numeral =
      horner 10 0 (digits 10 (behindMinus string.bytes)) := by
    rw [← behind]
    rfl
  have small : horner 10 0 (digits 10 (behindMinus string.bytes)) ≤
      bound (.long target) (subject 10 string.bytes).minus := by
    rw [← value]
    exact le_bound inRange
  have exact := (wrapped_of_le (by decide) small
    (bound_lt_long target (subject 10 string.bytes).minus)).1
  have converted := toInt_of_inRange target inRange
  rw [atol_eq, exact, ← value, ← converted, minus]
  simp only [decide_eq_true_eq]

/-- The number a string starts with is one that an `int` has. -/
def LeadingInInt (string : CString) : Prop :=
  InRange ⟨true, 32⟩ (subject 10 string.bytes).minus
    (magnitude (subject 10 string.bytes).numeral)

/-- What an `int` has, a `long` has. -/
theorem LeadingInInt.inRange
    (inInt : LeadingInInt string) (target : Target) :
    LeadingInRange target string := by
  have wider :
      (IntegerType.long target).min ≤ IntegerType.min ⟨true, 32⟩ ∧
        (IntegerType.max ⟨true, 32⟩ : Int) ≤
          (IntegerType.long target).max := by
    rcases target with ⟨_ | _, _ | _⟩ <;> decide
  rcases inInt with ⟨low, high⟩
  exact ⟨le_trans wider.1 low, le_trans high wider.2⟩

/-- A number that an `int` has is not changed by the conversion of `atoi`. -/
theorem atoi_of_plain
    (notWhite : deref string.bytes ∉ whiteSpace)
    (notPlus : deref string.bytes ≠ '+'.toUInt8)
    (inInt : LeadingInInt string) :
    atoi target string.start =
      .ok (denoted (subject 10 string.bytes).minus
        (magnitude (subject 10 string.bytes).numeral)) := by
  have read : atol target string.start = _ :=
    atol_of_plain notWhite notPlus (inInt.inRange target)
  rcases inInt with ⟨low, high⟩
  simp only [atoi, read, bind, Except.bind, pure, Except.pure,
    intOfLong_of_range low (Int.lt_of_le_of_lt high (by decide))]

/-- At white space or a `+` it stops, and returns zero. -/
theorem atol_of_stopped
    (stopped : deref string.bytes ∈ whiteSpace ∨
      deref string.bytes = '+'.toUInt8) :
    atol target string.start = .ok 0 := by
  have other : digitIn 10 (deref string.bytes) = none ∧
      deref string.bytes ≠ '-'.toUInt8 := by
    rcases stopped with white | plus
    · generalize deref string.bytes = first at white ⊢
      revert first
      decide
    · rw [plus]
      decide
  have none := (digits_eq_nil_iff 10 string.bytes).mpr other.1
  simp only [atol_eq, behindMinus, if_neg other.2, none, wrapped]
  rcases target.longBits_cases with bits | bits <;> rw [bits] <;> rfl

/--
On a number in range, `atol` agrees with `strtol` exactly when neither white
space nor a `+` is in front of it, or it is zero (or missing) anyway.
-/
theorem atol_agrees_iff (inRange : LeadingInRange target string) :
    AgreesWithStrtol target string ↔
      deref string.bytes ∉ whiteSpace ∧
          deref string.bytes ≠ '+'.toUInt8 ∨
        ∀ digit ∈ (subject 10 string.bytes).numeral.digits, digit = 0 := by
  have zero_iff : denoted (subject 10 string.bytes).minus
        (magnitude (subject 10 string.bytes).numeral) = 0 ↔
      ∀ digit ∈ (subject 10 string.bytes).numeral.digits, digit = 0 := by
    have digits := horner_eq_zero_iff (by decide : 0 < 10) 0
      (subject 10 string.bytes).numeral.digits
    rw [eq_self_iff_true, true_and] at digits
    rw [← digits, denoted]
    split_ifs
    · exact Int.neg_eq_zero.trans Int.natCast_eq_zero
    · exact Int.natCast_eq_zero
  by_cases plain : deref string.bytes ∉ whiteSpace ∧
      deref string.bytes ≠ '+'.toUInt8
  · refine ⟨fun _ => Or.inl plain, fun _ => ?_⟩
    exact ⟨_, atol_of_plain plain.1 plain.2 inRange,
      strtol_of_inRange target inRange⟩
  · have stopped : deref string.bytes ∈ whiteSpace ∨
        deref string.bytes = '+'.toUInt8 := by
      rwa [not_and_or, not_not, not_not] at plain
    rw [or_iff_right plain, ← zero_iff]
    constructor
    · rintro ⟨value, called, agrees⟩
      rcases strtol_of_inRange target inRange 0 with
        ⟨converted, read, ret⟩
      rcases agrees 0 with ⟨other, same, equal⟩
      rw [atol_of_stopped stopped, Except.ok.injEq] at called
      rw [read, Except.ok.injEq] at same
      rw [← ret, same, equal, called]
    · intro zero
      refine ⟨0, atol_of_stopped stopped, ?_⟩
      rw [← zero]
      exact strtol_of_inRange target inRange

end Agreement

theorem atol_agrees_iff_lowest :
    AgreesWithStrtol .x86_64 (.ofAscii "-9223372036854775808;") ↔
      deref (CString.ofAscii "-9223372036854775808;").bytes ∉ whiteSpace ∧
          deref (CString.ofAscii "-9223372036854775808;").bytes ≠
            '+'.toUInt8 ∨
        ∀ digit ∈ (subject 10
            (CString.ofAscii "-9223372036854775808;").bytes).numeral.digits,
          digit = 0 :=
  atol_agrees_iff (by unfold LeadingInRange; decide)

/-- `atol("+5")` is 0, where `strtol` returns 5. -/
theorem atol_stops_at_plus :
    LeadingInRange .x86_64 (.ofAscii "+5") ∧
      ¬ AgreesWithStrtol .x86_64 (.ofAscii "+5") := by
  refine ⟨by unfold LeadingInRange; decide, ?_⟩
  rintro ⟨value, called, agrees⟩
  have stopped : atol .x86_64 (CString.ofAscii "+5").start = .ok 0 := by
    decide
  have read : strtol .x86_64 (CString.ofAscii "+5").start 10 0 =
      .ok ⟨5, ⟨.ofAscii "+5", 2⟩, 0⟩ := by
    decide
  rcases agrees 0 with ⟨converted, same, ret⟩
  rw [stopped, Except.ok.injEq] at called
  rw [read, Except.ok.injEq] at same
  rw [← same, ← called] at ret
  exact absurd ret (by decide)

end Nolibc.Stdlib.Atol

import Nolibc.Stdlib.Itoa
import Nolibc.Stdlib.NumberGrammar

/-!
# Canonical numerals as numbers

The texts written by the conversions of `stdlib.h` are numbers of the grammar
the numeric parsers are measured against, and denote the value that was
written.
-/

set_option autoImplicit false

namespace Nolibc.Stdlib.Numerals

open Nolibc.Machine
open Nolibc.Foundation.Horner
open Nolibc.Foundation.Numeral
open Nolibc.Stdlib.Itoa
open Nolibc.Stdlib.Strtox
open Nolibc.Stdlib.NumberGrammar

/-! ## Digits -/

theorem digitWorth_digitByte
    {digit : Nat} (small : digit < 16) :
    digitWorth (digitByte digit) = some digit := by
  interval_cases digit <;> decide

/-- The byte of a digit is read as that digit. -/
theorem digitIn_digitByte
    {base digit : Nat} (small : base ≤ 16) (below : digit < base) :
    digitIn base (digitByte digit) = some digit := by
  have worth := digitWorth_digitByte (Nat.lt_of_lt_of_le below small)
  rw [digitIn, worth, Option.filter_some, decide_eq_true below, if_pos rfl]

/-- The canonical numeral of a value is a run of digits that denotes it. -/
theorem toDigits_run
    (base : Nat) (large : 1 < base) (small : base ≤ 16) (value : Nat) :
    Digits base ((Nat.toDigits base value).map Char.toUInt8) ∧
      horner base 0
          (worths base ((Nat.toDigits base value).map Char.toUInt8)) =
        value := by
  constructor
  · intro c member
    rcases List.mem_map.mp member with ⟨char, inDigits, rfl⟩
    rcases exists_digit_of_mem_toDigits large inDigits with
      ⟨digit, below, rfl⟩
    have found := digitIn_digitByte small below
    exact Option.isSome_iff_exists.mpr ⟨digit, found⟩
  · induction value using Nat.strong_induction_on with
    | h value induction =>
        have single {digit : Nat} (below : digit < base) :
            worths base ([Nat.digitChar digit].map Char.toUInt8) =
              [digit] :=
          List.filterMap_cons_some (digitIn_digitByte small below)
        rw [Nat.toDigits_eq_if large]
        split
        case isTrue below =>
          rw [single below, horner, horner, Nat.zero_mul, Nat.zero_add]
        case isFalse above =>
          have smaller : value / base < value :=
            Nat.div_lt_self (by omega) large
          have last := single (Nat.mod_lt value (by omega : 0 < base))
          have split : worths base
              ((Nat.toDigits base (value / base) ++
                [Nat.digitChar (value % base)]).map Char.toUInt8) =
              worths base
                  ((Nat.toDigits base (value / base)).map Char.toUInt8) ++
                [value % base] := by
            rw [List.map_append, worths, List.filterMap_append]
            exact congrArg (_ ++ ·) last
          rw [split, horner_append, induction _ smaller, horner, horner,
            Nat.mul_comm, Nat.div_add_mod]

/-! ## Numbers -/

/-- The decimal text of an integer, as a number. -/
def decimalNumber (value : Int) : NumberText 10 where
  blanks := []
  sign := if value < 0 then .minus else .none
  effective := 10
  radix := []
  run := decimal value.natAbs
  white := fun _ member => absurd member List.not_mem_nil
  spelling := .given (by decide)
  nonempty := fun empty => Nat.toDigits_ne_nil (List.map_eq_nil_iff.mp empty)
  digits := (toDigits_run _ (by decide) (by decide) value.natAbs).1

/-- The hexadecimal text of a value, without or with a prefix. -/
def hexadecimalNumber (radix : List Byte) (value : Nat)
    (spelled : radix = [] ∨ radix = ascii "0x") : NumberText 16 where
  blanks := []
  sign := .none
  effective := 16
  radix := radix
  run := hexadecimal value
  white := fun _ member => absurd member List.not_mem_nil
  spelling := by
    rcases spelled with rfl | rfl
    · exact .given (by decide)
    · exact .hexadecimal (Or.inr rfl) (Or.inl rfl)
  nonempty := fun empty => Nat.toDigits_ne_nil (List.map_eq_nil_iff.mp empty)
  digits := (toDigits_run _ (by decide) (by decide) value).1

theorem decimalNumber_eq (value : Int) :
    (decimalNumber value).bytes = signedDecimal value ∧
      (decimalNumber value).magnitude = value.natAbs ∧
      (decimalNumber value).minus = decide (value < 0) := by
  refine ⟨?_, (toDigits_run 10 (by decide) (by decide) value.natAbs).2,
    ?_⟩
  · by_cases negative : value < 0
    · simp only [NumberText.bytes, decimalNumber, signedDecimal,
        if_pos negative, List.nil_append]
      rfl
    · simp only [NumberText.bytes, decimalNumber, signedDecimal,
        if_neg negative, List.nil_append]
      rfl
  · by_cases negative : value < 0
    · simp [NumberText.minus, decimalNumber, negative]
    · simp [NumberText.minus, decimalNumber, negative]

theorem hexadecimalNumber_eq
    (radix : List Byte) (value : Nat)
    (spelled : radix = [] ∨ radix = ascii "0x") :
    (hexadecimalNumber radix value spelled).bytes =
        radix ++ hexadecimal value ∧
      (hexadecimalNumber radix value spelled).magnitude = value ∧
      (hexadecimalNumber radix value spelled).minus = false :=
  ⟨rfl, (toDigits_run 16 (by decide) (by decide) value).2, rfl⟩

end Nolibc.Stdlib.Numerals

import Mathlib.Data.List.Basic

/-!
# Reading a numeral into a machine word

A numeral is read digit by digit, multiplying what was read by the base.  In a
machine word the running value wraps.  A common way to notice that it did is
to compare the new running value with a limit and with the previous one;
`Noticed` says on the numeral itself, without running anything, when this test
succeeds at some digit.

The test is complete when no in-range value can wrap within one digit, and
`noticed_of_no_wrap` is that result.  In general it is not.
-/

set_option autoImplicit false

namespace Nolibc.Foundation.Horner

/-- The number denoted by digits read behind a value. -/
def horner (base : Nat) : Nat → List Nat → Nat
  | value, [] => value
  | value, digit :: rest => horner base (value * base + digit) rest

theorem horner_append
    (base value : Nat) (first second : List Nat) :
    horner base value (first ++ second) =
      horner base (horner base value first) second := by
  induction first generalizing value with
  | nil => rfl
  | cons digit rest induction => exact induction _

/-- Reading digits never makes a number smaller. -/
theorem le_horner
    {base : Nat} (positive : 0 < base) (value : Nat) (digits : List Nat) :
    value ≤ horner base value digits := by
  induction digits generalizing value with
  | nil => exact Nat.le_refl value
  | cons digit rest induction =>
      calc
        value ≤ value * base := Nat.le_mul_of_pos_right value positive
        _ ≤ value * base + digit := Nat.le_add_right _ _
        _ ≤ horner base value (digit :: rest) := induction _

/-- One digit read into a word. -/
def wrapDigit (modulus base value digit : Nat) : Nat :=
  (value * base + digit) % modulus

theorem wrapDigit_mod (modulus base value digit : Nat) :
    wrapDigit modulus base (value % modulus) digit =
      (value * base + digit) % modulus := by
  rw [wrapDigit, Nat.add_mod, Nat.mod_mul_mod, ← Nat.add_mod]

/-- The word after reading digits behind a word. -/
def wrapped (modulus base : Nat) : Nat → List Nat → Nat
  | value, [] => value
  | value, digit :: rest =>
      wrapped modulus base (wrapDigit modulus base value digit) rest

/-- The test made at one digit: above the limit, or below the previous word. -/
def Suspect (limit previous next : Nat) : Prop :=
  limit < next ∨ next < previous

instance (limit previous next : Nat) :
    Decidable (Suspect limit previous next) :=
  inferInstanceAs (Decidable (_ ∨ _))

/-- Whether the test succeeds at some digit read behind a word. -/
def suspected (modulus limit base : Nat) : Nat → List Nat → Bool
  | _, [] => false
  | value, digit :: rest =>
      decide (Suspect limit value (wrapDigit modulus base value digit)) ||
        suspected modulus limit base
          (wrapDigit modulus base value digit) rest

/--
Some digit of the numeral takes the residue of the number read so far above
the limit or below the residue without that digit.
-/
def Noticed (modulus limit base value : Nat) (digits : List Nat) : Prop :=
  ∃ read digit rest, digits = read ++ digit :: rest ∧
    Suspect limit (horner base value read % modulus)
      (horner base value (read ++ [digit]) % modulus)

/-- The test run on the word succeeds when the numeral is noticed. -/
theorem suspected_iff (modulus limit base value : Nat) (digits : List Nat) :
    suspected modulus limit base (value % modulus) digits = true ↔
      Noticed modulus limit base value digits := by
  induction digits generalizing value with
  | nil => simp [suspected, Noticed]
  | cons digit rest induction =>
      rw [suspected, Bool.or_eq_true, decide_eq_true_eq, wrapDigit_mod,
        induction]
      constructor
      · rintro (here | ⟨read, later, more, rfl, suspect⟩)
        · exact ⟨[], digit, rest, rfl, here⟩
        · exact ⟨digit :: read, later, more, rfl, suspect⟩
      · rintro ⟨read, later, more, split, suspect⟩
        cases read with
        | nil =>
            rw [List.nil_append, List.cons.injEq] at split
            rcases split with ⟨rfl, rfl⟩
            exact Or.inl suspect
        | cons first read =>
            rw [List.cons_append, List.cons.injEq] at split
            rcases split with ⟨rfl, rfl⟩
            exact Or.inr ⟨read, later, more, rfl, suspect⟩

/-- A leading zero makes no difference. -/
theorem noticed_zero_cons
    (modulus limit base : Nat) (digits : List Nat) :
    Noticed modulus limit base 0 (0 :: digits) ↔
      Noticed modulus limit base 0 digits := by
  rw [← suspected_iff, ← suspected_iff]
  simp [suspected, Suspect, wrapDigit]

/--
When no value up to the limit can wrap within one digit, the first digit that
takes the number above the limit is noticed.
-/
theorem noticed_of_no_wrap
    {modulus limit base value : Nat} {digits : List Nat}
    (roomy : limit * base + base ≤ modulus)
    (legal : ∀ digit ∈ digits, digit < base)
    (inRange : value ≤ limit)
    (outOfRange : limit < horner base value digits) :
    Noticed modulus limit base value digits := by
  induction digits generalizing value with
  | nil =>
      rw [horner] at outOfRange
      omega
  | cons digit rest induction =>
      have small : digit < base := legal digit (by simp)
      have scaled : value * base ≤ limit * base :=
        Nat.mul_le_mul_right base inRange
      by_cases exceeds : limit < value * base + digit
      · refine ⟨[], digit, rest, rfl, Or.inl ?_⟩
        rw [List.nil_append, horner, horner, Nat.mod_eq_of_lt (by omega)]
        exact exceeds
      · rcases induction
            (fun other member => legal other (by simp [member]))
            (Nat.le_of_not_lt exceeds) outOfRange with
          ⟨read, later, more, rfl, suspect⟩
        exact ⟨digit :: read, later, more, rfl, suspect⟩

/-- A numeral within a limit that fits the word is read without a wrap. -/
theorem wrapped_of_le
    {modulus limit base value : Nat} {digits : List Nat}
    (positive : 0 < base) (inRange : horner base value digits ≤ limit)
    (fits : limit < modulus) :
    wrapped modulus base value digits = horner base value digits ∧
      suspected modulus limit base value digits = false := by
  induction digits generalizing value with
  | nil => exact ⟨rfl, rfl⟩
  | cons digit rest induction =>
      have next := le_horner positive (value * base + digit) rest
      have atLeast : value ≤ value * base + digit :=
        Nat.le_trans (Nat.le_mul_of_pos_right value positive)
          (Nat.le_add_right _ _)
      have small : value * base + digit ≤ limit :=
        Nat.le_trans next inRange
      have word : wrapDigit modulus base value digit =
          value * base + digit :=
        Nat.mod_eq_of_lt (Nat.lt_of_le_of_lt small fits)
      have unsuspicious :
          ¬ Suspect limit value (value * base + digit) := by
        rintro (above | below)
        · exact absurd small (Nat.not_le_of_lt above)
        · exact absurd atLeast (Nat.not_le_of_lt below)
      rcases induction inRange with ⟨value_eq, none⟩
      rw [wrapped, suspected, word, horner, value_eq, none,
        decide_eq_false unsuspicious]
      exact ⟨rfl, rfl⟩

end Nolibc.Foundation.Horner

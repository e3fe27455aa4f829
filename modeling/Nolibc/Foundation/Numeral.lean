import Mathlib.Data.Nat.Digits.Lemmas
import Mathlib.Tactic.Ring

/-!
# Positional numerals, most significant digit first

`Nat.toDigits` builds a numeral from its least significant digit.  Code that
avoids divisions works the other way: it visits the positions from the highest
one down, skips the leading zeros, and keeps the digit of position zero even
when it is zero.  `trimmed` is that algorithm on numbers, and
`trimmed_eq_toDigits` says that it writes the canonical numeral as soon as the
number of positions is large enough.
-/

set_option autoImplicit false

namespace Nolibc.Foundation.Numeral

/-- The digits of the positions below `positions`, leading zeros included. -/
def padded (base : Nat) : Nat → Nat → List Nat
  | 0, _ => []
  | position + 1, value =>
      value / base ^ position ::
        padded base position (value % base ^ position)

/-- The same digits without the leading zeros; position zero is kept. -/
def trimmed (base : Nat) : Nat → Nat → List Nat
  | 0, _ => []
  | position + 1, value =>
      if value / base ^ position ≠ 0 ∨ position = 0 then
        padded base (position + 1) value
      else
        trimmed base position value

theorem padded_succ (base position value : Nat) :
    padded base (position + 1) value =
      value / base ^ position ::
        padded base position (value % base ^ position) :=
  rfl

theorem padded_length (base positions value : Nat) :
    (padded base positions value).length = positions := by
  induction positions generalizing value with
  | zero => rfl
  | succ position induction =>
      simp [padded, induction]

/--
Writing the padded digits of a remainder after the numeral of the leading part
gives the numeral of the whole.
-/
theorem toDigits_append_padded
    {base : Nat} (large : 1 < base)
    (positions : Nat) {leading value : Nat}
    (nonzero : 0 < leading) (small : value < base ^ positions) :
    Nat.toDigits base leading ++
        (padded base positions value).map Nat.digitChar =
      Nat.toDigits base (leading * base ^ positions + value) := by
  induction positions generalizing leading value with
  | zero =>
      have isZero : value = 0 := by simpa using small
      simp [padded, isZero]
  | succ position induction =>
      have positive : 0 < base ^ position :=
        Nat.pow_pos (by omega)
      have digitLt : value / base ^ position < base := by
        rw [Nat.div_lt_iff_lt_mul positive, ← pow_succ']
        exact small
      have step :
          Nat.toDigits base leading ++
              [Nat.digitChar (value / base ^ position)] =
            Nat.toDigits base
              (base * leading + value / base ^ position) := by
        rw [← Nat.toDigits_append_toDigits large nonzero digitLt,
          Nat.toDigits_of_lt_base digitLt]
      have leadingPositive :
          0 < base * leading + value / base ^ position :=
        Nat.add_pos_left (Nat.mul_pos (by omega) nonzero) _
      have regroup :
          (base * leading + value / base ^ position) * base ^ position +
              value % base ^ position =
            leading * base ^ (position + 1) + value := by
        have division := Nat.div_add_mod value (base ^ position)
        calc
          (base * leading + value / base ^ position) * base ^ position +
                value % base ^ position
              = leading * base ^ (position + 1) +
                (base ^ position * (value / base ^ position) +
                  value % base ^ position) := by ring
          _ = leading * base ^ (position + 1) + value := by rw [division]
      rw [padded, List.map_cons, ← List.singleton_append,
        ← List.append_assoc, step,
        induction leadingPositive (Nat.mod_lt _ positive), regroup]

/-- The digits visited from the highest position are the canonical numeral. -/
theorem trimmed_eq_toDigits
    {base : Nat} (large : 1 < base)
    {positions value : Nat} (some_position : 0 < positions)
    (small : value < base ^ positions) :
    (trimmed base positions value).map Nat.digitChar =
      Nat.toDigits base value := by
  induction positions with
  | zero => omega
  | succ position induction =>
      have positive : 0 < base ^ position :=
        Nat.pow_pos (by omega)
      by_cases zeroDigit : value / base ^ position = 0
      · have smaller : value < base ^ position := by
          rwa [Nat.div_eq_zero_iff_lt positive] at zeroDigit
        by_cases last : position = 0
        · subst last
          have isZero : value = 0 := by simpa using smaller
          simp [trimmed, padded, isZero]
        · rw [trimmed, if_neg (by simp [zeroDigit, last])]
          exact induction (by omega) smaller
      · have digitLt : value / base ^ position < base := by
          rw [Nat.div_lt_iff_lt_mul positive, ← pow_succ']
          exact small
        rw [trimmed, if_pos (Or.inl zeroDigit), padded, List.map_cons,
          ← List.singleton_append, ← Nat.toDigits_of_lt_base digitLt,
          toDigits_append_padded large position
            (Nat.pos_of_ne_zero zeroDigit) (Nat.mod_lt _ positive),
          Nat.mul_comm, Nat.div_add_mod]

/-- The characters of a numeral are digits of its base. -/
theorem exists_digit_of_mem_toDigits
    {base : Nat} (large : 1 < base) {value : Nat} {char : Char}
    (member : char ∈ Nat.toDigits base value) :
    ∃ digit, digit < base ∧ char = Nat.digitChar digit := by
  induction value using Nat.strong_induction_on with
  | h value induction =>
      rw [Nat.toDigits_eq_if large] at member
      split_ifs at member with small
      · exact ⟨value, small, by simpa using member⟩
      · rcases List.mem_append.mp member with front | last
        · exact induction (value / base)
            (Nat.div_lt_self (by omega) large) front
        · exact ⟨value % base, Nat.mod_lt _ (by omega),
            by simpa using last⟩

/-! ## Canonical numerals -/

/-- The digits of a value, the most significant first, no leading zero. -/
structure Canonical (base value : Nat) (digits : List Nat) : Prop where
  below : ∀ digit ∈ digits, digit < base
  nonempty : digits ≠ []
  noLeadingZero : digits.head? = some 0 → digits = [0]
  denotes : Nat.ofDigits base digits.reverse = value

theorem toDigits_eq_map_digits
    {base : Nat} (large : 1 < base) {value : Nat} (nonzero : value ≠ 0) :
    Nat.toDigits base value =
      (Nat.digits base value).reverse.map Nat.digitChar := by
  induction value using Nat.strong_induction_on with
  | h value induction =>
      rw [Nat.toDigits_eq_if large]
      split_ifs with small
      · rw [Nat.digits_of_lt base value nonzero small]
        rfl
      · have quotient : value / base ≠ 0 := by
          rw [Ne, Nat.div_eq_zero_iff_lt (by omega)]
          exact small
        have smaller : value / base < value :=
          Nat.div_lt_self (by omega) large
        rw [induction _ smaller quotient,
          Nat.digits_def' large (Nat.pos_of_ne_zero nonzero),
          List.reverse_cons, List.map_append]
        rfl

/-- `Nat.toDigits` writes the canonical numeral. -/
theorem exists_canonical_toDigits
    {base : Nat} (large : 1 < base) (value : Nat) :
    ∃ digits, Canonical base value digits ∧
      Nat.toDigits base value = digits.map Nat.digitChar := by
  by_cases zero : value = 0
  · subst zero
    refine ⟨[0], ⟨?_, List.cons_ne_nil 0 [], fun _ => rfl, rfl⟩,
      Nat.toDigits_zero base⟩
    intro digit member
    rw [List.mem_singleton.mp member]
    omega
  · have nonempty : Nat.digits base value ≠ [] :=
      Nat.digits_ne_nil_iff_ne_zero.mpr zero
    refine ⟨(Nat.digits base value).reverse, ⟨?_, ?_, ?_, ?_⟩,
      toDigits_eq_map_digits large zero⟩
    · intro digit member
      exact Nat.digits_lt_base large (List.mem_reverse.mp member)
    · exact fun empty => nonempty (List.reverse_eq_nil_iff.mp empty)
    · intro leading
      rw [List.head?_reverse, List.getLast?_eq_some_getLast nonempty,
        Option.some.injEq] at leading
      exact absurd leading (Nat.getLast_digit_ne_zero base zero)
    · rw [List.reverse_reverse]
      exact Nat.ofDigits_digits base value

end Nolibc.Foundation.Numeral

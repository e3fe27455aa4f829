import Nolibc.Stdlib.Strtox

/-!
# Saturation of the numeric parsers

The C standard takes the longest numeral behind the white space and the sign,
and asks for the limit of the type and `ERANGE` when its magnitude is out of
range.  The code looks for an overflow after the fact, in a running value that
wraps at `2 ^ 64`.

`strto_saturates_iff` says for which texts this works.  Two defects show: a
64-bit running value can wrap to a larger value below the limit, and behind a
`-` the unsigned functions negate the limit they saturate to.
-/

set_option autoImplicit false

namespace Nolibc.Stdlib.Saturation

open Nolibc.Machine
open Nolibc.Ctype
open Nolibc.Foundation.Horner
open Nolibc.Stdlib.Strtox

/-! ## The subject sequence of the C standard -/

/-- Whether a text starts with a hexadecimal prefix and a digit behind it. -/
def startsHexadecimal (text : List Byte) : Prop :=
  (ascii "0x" <+: text ∨ ascii "0X" <+: text) ∧
    digits 16 (text.drop 2) ≠ []

instance (text : List Byte) : Decidable (startsHexadecimal text) :=
  inferInstanceAs (Decidable (_ ∧ _))

/-- The numeral which a text without white space and sign starts with. -/
def numeral (base : Nat) (text : List Byte) : Numeral :=
  if (base = 0 ∨ base = 16) ∧ startsHexadecimal text then
    ⟨16, digits 16 (text.drop 2)⟩
  else if base = 0 then
    if deref text = '0'.toUInt8 then
      ⟨8, digits 8 text⟩
    else
      ⟨10, digits 10 text⟩
  else
    ⟨base, digits base text⟩

/-- The number a numeral denotes. -/
def magnitude (numeral : Numeral) : Nat :=
  horner numeral.base 0 numeral.digits

/-- The subject sequence: an optional `-` and a numeral. -/
structure Subject where
  minus : Bool
  numeral : Numeral

/-- The sign and the numeral that a text has behind its white space. -/
def subject (base : Nat) (text : List Byte) : Subject :=
  let signed := afterSpaces text
  { minus := decide (deref signed = '-'.toUInt8)
    numeral := numeral base (signed.drop (signLength signed)) }

theorem digitIn_x (base : Nat) (small : base ≤ 16) :
    digitIn base 'x'.toUInt8 = none ∧ digitIn base 'X'.toUInt8 = none := by
  have lower : digitWorth 'x'.toUInt8 = some 33 := by decide
  have upper : digitWorth 'X'.toUInt8 = some 33 := by decide
  simp only [digitIn, lower, upper]
  constructor
  · simpa using by omega
  · simpa using by omega

theorem digitIn_zero {base : Nat} (positive : 0 < base) :
    digitIn base '0'.toUInt8 = some 0 := by
  have worth : digitWorth '0'.toUInt8 = some 0 := by decide
  rw [digitIn, worth, Option.filter_some, decide_eq_true positive,
    if_pos rfl]

/-- A prefix without a digit behind it denotes zero. -/
theorem digits_zero_x
    {base : Nat} (positive : 0 < base) (small : base ≤ 16)
    {text : List Byte}
    (prefixed : ascii "0x" <+: text ∨ ascii "0X" <+: text) :
    digits base text = [0] := by
  rcases digitIn_x base small with ⟨lower, upper⟩
  rcases prefixed with ⟨rest, rfl⟩ | ⟨rest, rfl⟩
  · change digits base ('0'.toUInt8 :: 'x'.toUInt8 :: rest) = [0]
    simp only [digits, digitIn_zero positive, lower]
  · change digits base ('0'.toUInt8 :: 'X'.toUInt8 :: rest) = [0]
    simp only [digits, digitIn_zero positive, upper]

theorem deref_eq_zero_char_iff (text : List Byte) :
    deref text = '0'.toUInt8 ↔ ascii "0" <+: text := by
  cases text with
  | nil => simp [ascii]
  | cons c rest =>
      change c = '0'.toUInt8 ↔ ['0'.toUInt8] <+: c :: rest
      rw [List.cons_prefix_cons]
      constructor
      · rintro rfl
        exact ⟨rfl, List.nil_prefix⟩
      · rintro ⟨equal, _⟩
        exact equal.symm

/-- The numeral as the code reads it. -/
def codeNumeral (base : Nat) (text : List Byte) : Numeral :=
  ⟨(codePrefix base text).1,
    digits (codePrefix base text).1 (text.drop (codePrefix base text).2)⟩

/-- A prefix which the standard does not accept leaves a zero. -/
theorem magnitude_of_lone_base
    {base : Nat} (selected : base = 0 ∨ base = 16) {text : List Byte}
    (prefixed : ascii "0x" <+: text ∨ ascii "0X" <+: text)
    (lone : digits 16 (text.drop 2) = []) :
    magnitude (numeral base text) = 0 := by
  have rejected : ¬ ((base = 0 ∨ base = 16) ∧ startsHexadecimal text) :=
    fun accepted => accepted.2.2 lone
  have zero : deref text = '0'.toUInt8 := by
    rcases prefixed with ⟨rest, rfl⟩ | ⟨rest, rfl⟩
    · rfl
    · rfl
  rw [numeral, if_neg rejected]
  rcases selected with rfl | rfl
  · rw [if_pos rfl, if_pos zero, magnitude,
      digits_zero_x (by decide) (by decide) prefixed]
    rfl
  · rw [if_neg (by decide), magnitude,
      digits_zero_x (by decide) (by decide) prefixed]
    rfl

/--
The code reads the numeral of the standard, or an octal one without its
leading zero, or the standard's numeral denotes zero.
-/
theorem codeNumeral_cases (base : Nat) (text : List Byte) :
    codeNumeral base text = numeral base text ∨
      (∃ read, codeNumeral base text = ⟨8, read⟩ ∧
        numeral base text = ⟨8, 0 :: read⟩) ∨
      magnitude (numeral base text) = 0 := by
  by_cases hexadecimal : (base = 0 ∨ base = 16) ∧
      (ascii "0x" <+: text ∨ ascii "0X" <+: text)
  · rcases hexadecimal with ⟨selected, prefixed⟩
    by_cases lone : digits 16 (text.drop 2) = []
    · exact Or.inr (Or.inr
        (magnitude_of_lone_base selected prefixed lone))
    · have accepted :
          (base = 0 ∨ base = 16) ∧ startsHexadecimal text :=
        ⟨selected, prefixed, lone⟩
      left
      rw [codeNumeral, codePrefix, if_pos ⟨selected, prefixed⟩, numeral,
        if_pos accepted]
  · have rejected : ¬ ((base = 0 ∨ base = 16) ∧ startsHexadecimal text) :=
      fun accepted => hexadecimal ⟨accepted.1, accepted.2.1⟩
    rw [codeNumeral, codePrefix, if_neg hexadecimal, numeral,
      if_neg rejected]
    by_cases automatic : base = 0
    · rw [if_pos automatic, if_pos automatic]
      by_cases octal : ascii "0" <+: text
      · have zero := (deref_eq_zero_char_iff text).mpr octal
        rw [if_pos octal, if_pos zero]
        rcases octal with ⟨rest, rfl⟩
        right
        left
        refine ⟨digits 8 rest, rfl, ?_⟩
        change (⟨8, digits 8 ('0'.toUInt8 :: rest)⟩ : Numeral) = _
        rw [digits, digitIn_zero (by decide)]
      · have nonzero := (deref_eq_zero_char_iff text).not.mpr octal
        rw [if_neg octal, if_neg nonzero]
        exact Or.inl rfl
    · rw [if_neg automatic, if_neg automatic]
      exact Or.inl rfl

/-- On a positive number the test of the code says what is noticed. -/
theorem suspected_reading_iff
    (base : Nat) {text : List Byte}
    (positive : 0 < magnitude (subject base text).numeral)
    (limit : Nat) :
    suspected (2 ^ 64) limit (reading base text).numeral.base 0
        (reading base text).numeral.digits = true ↔
      Noticed (2 ^ 64) limit (subject base text).numeral.base 0
        (subject base text).numeral.digits := by
  have test := suspected_iff (2 ^ 64) limit
    (reading base text).numeral.base 0 (reading base text).numeral.digits
  rw [Nat.zero_mod] at test
  rw [test]
  have code : (reading base text).numeral =
      codeNumeral base ((afterSpaces text).drop
        (signLength (afterSpaces text))) := rfl
  have standard : (subject base text).numeral =
      numeral base ((afterSpaces text).drop
        (signLength (afterSpaces text))) := rfl
  rw [standard] at positive ⊢
  rw [code]
  rcases codeNumeral_cases base
      ((afterSpaces text).drop (signLength (afterSpaces text))) with
    same | ⟨read, octal, leadingZero⟩ | zero
  · rw [same]
  · rw [octal, leadingZero]
    exact (noticed_zero_cons (2 ^ 64) limit 8 read).symm
  · omega

/-! ## The limits of a type -/

/-- The greatest magnitude in range behind a sign. -/
def bound (type : IntegerType) (minus : Bool) : Nat :=
  if type.signed && minus then 2 ^ (type.bits - 1) else type.max

/-- The limit the standard asks for behind a sign. -/
def saturated (type : IntegerType) (minus : Bool) : Int :=
  if type.signed && minus then type.min else type.max

/-- The widths of the types the family converts to. -/
def Standard (type : IntegerType) : Prop :=
  type.bits = 32 ∨ type.bits = 64

theorem codeLimit_eq
    {type : IntegerType} (standard : Standard type) (minus : Bool) :
    codeLimit type.min type.max minus = bound type minus := by
  rcases type with ⟨signed, bits⟩
  cases signed with
  | false => rfl
  | true =>
      cases minus with
      | false => simp [codeLimit, bound]
      | true =>
          rcases standard with rfl | rfl
          · rfl
          · rfl

/-- What the code returns when it saturates. -/
def saturating (type : IntegerType) (minus : Bool) : Int :=
  type.ofUnsigned
    (if minus then negate (bound type minus) else bound type minus)

/-- Only an unsigned function behind a `-` returns something else. -/
theorem saturating_eq_iff
    {type : IntegerType} (standard : Standard type) (minus : Bool) :
    saturating type minus = saturated type minus ↔
      ¬ (type.signed = false ∧ minus = true) := by
  rcases type with ⟨signed, bits⟩
  rcases standard with rfl | rfl <;> revert signed minus <;> decide

/-! ## The functions of the family -/

/-- The functions of the family. -/
inductive Function where
  | strtol
  | strtoul
  | strtoll
  | strtoull
  | strtoimax
  | strtoumax
  deriving DecidableEq, Repr

namespace Function

/-- The type of the result. -/
def type (target : Target) : Function → IntegerType
  | strtol => .long target
  | strtoul => .unsignedLong target
  | strtoll | strtoimax => .longLong
  | strtoull | strtoumax => .unsignedLongLong

/-- The function of a name. -/
def call (target : Target) :
    Function → Pointer → Int → Errno → Except Fault (Converted Int)
  | strtol => Strtox.strtol target
  | strtoul => Strtox.strtoul target
  | strtoll => Strtox.strtoll target
  | strtoull => Strtox.strtoull target
  | strtoimax => Strtox.strtoimax target
  | strtoumax => Strtox.strtoumax target

theorem call_eq (function : Function) (target : Target) :
    function.call target = strto (function.type target) target := by
  cases function <;> rfl

theorem type_standard (function : Function) (target : Target) :
    Standard (function.type target) := by
  cases function with
  | strtol => exact target.longBits_cases
  | strtoul => exact target.longBits_cases
  | strtoll => exact Or.inr rfl
  | strtoull => exact Or.inr rfl
  | strtoimax => exact Or.inr rfl
  | strtoumax => exact Or.inr rfl

end Function

/-! ## When the code saturates -/

/-- A call of the family, by whether its numeral is noticed. -/
theorem strto_eq
    (target : Target) {type : IntegerType} (standard : Standard type)
    {base : Nat} (legal : base ≤ 36) (string : CString) (errnum : Errno) :
    let read := reading base string.bytes
    strto type target string.start base errnum =
      .ok (if suspected (2 ^ 64) (bound type read.minus)
            read.numeral.base 0 read.numeral.digits then
          ⟨saturating type read.minus, string.start.add read.consumed,
            ERANGE⟩
        else
          ⟨type.ofUnsigned
            (if read.minus then
              negate
                (wrapped (2 ^ 64) read.numeral.base 0 read.numeral.digits)
            else
              wrapped (2 ^ 64) read.numeral.base 0 read.numeral.digits),
            string.start.add read.consumed, errnum⟩) := by
  intro read
  rw [strto, strtox_eq target (Pointer.points_start string) legal]
  simp only [codeLimit_eq standard, bind, Except.bind, pure, Except.pure,
    saturating]
  split_ifs
  · rfl
  · rfl
  · rfl
  · rfl

/-- A call that does for every `errno` what the standard asks for. -/
def Saturates (target : Target) (function : Function) (base : Nat)
    (string : CString) : Prop :=
  ∀ errnum, ∃ converted,
    function.call target string.start base errnum = .ok converted ∧
      converted.ret =
        saturated (function.type target)
          (subject base string.bytes).minus ∧
      converted.errnum = ERANGE

theorem saturates_iff
    (target : Target) (function : Function) (string : CString)
    {base : Nat} (legal : base ≤ 36) :
    Saturates target function base string ↔
      saturating (function.type target) (subject base string.bytes).minus =
          saturated (function.type target)
            (subject base string.bytes).minus ∧
        suspected (2 ^ 64)
          (bound (function.type target) (subject base string.bytes).minus)
          (reading base string.bytes).numeral.base 0
          (reading base string.bytes).numeral.digits = true := by
  have called := strto_eq target (function.type_standard target) legal
    string
  have sameSign : (reading base string.bytes).minus =
      (subject base string.bytes).minus := rfl
  simp only [sameSign] at called
  rw [Saturates, function.call_eq target]
  constructor
  · intro saturates
    rcases saturates 0 with ⟨converted, equal, ret, errno⟩
    rw [called, Except.ok.injEq] at equal
    by_cases suspect : suspected (2 ^ 64)
        (bound (function.type target) (subject base string.bytes).minus)
        (reading base string.bytes).numeral.base 0
        (reading base string.bytes).numeral.digits = true
    · rw [if_pos suspect] at equal
      subst equal
      exact ⟨ret, suspect⟩
    · rw [if_neg suspect] at equal
      subst equal
      exact absurd errno (show (0 : Errno) ≠ ERANGE by decide)
  · rintro ⟨same, suspect⟩ errnum
    refine ⟨_, called errnum, ?_⟩
    rw [if_pos suspect]
    exact ⟨same, rfl⟩

/--
Out of range, the code saturates exactly when the function is not an unsigned
one behind a `-` and some digit takes the number read so far, modulo `2 ^ 64`,
above the limit or below its value without that digit.
-/
theorem strto_saturates_iff
    (target : Target) (function : Function) (string : CString)
    {base : Nat} (legal : base = 0 ∨ 2 ≤ base ∧ base ≤ 36)
    (outOfRange :
      bound (function.type target) (subject base string.bytes).minus <
        magnitude (subject base string.bytes).numeral) :
    Saturates target function base string ↔
      ¬ ((function.type target).signed = false ∧
          (subject base string.bytes).minus = true) ∧
        Noticed (2 ^ 64)
          (bound (function.type target)
            (subject base string.bytes).minus)
          (subject base string.bytes).numeral.base 0
          (subject base string.bytes).numeral.digits := by
  have atMost : base ≤ 36 := by omega
  rw [saturates_iff target function string atMost,
    saturating_eq_iff (function.type_standard target),
    suspected_reading_iff base (Nat.zero_lt_of_lt outOfRange)]

/--
`strtoull` on thirty billion billion: the running value wraps to a larger one
and nothing is noticed.
-/
theorem strtoull_misses_overflow :
    bound .unsignedLongLong
        (subject 10 (CString.ofAscii "30000000000000000000").bytes).minus <
      magnitude
        (subject 10 (CString.ofAscii "30000000000000000000").bytes).numeral ∧
    ¬ Saturates .x86_64 .strtoull 10 (.ofAscii "30000000000000000000") := by
  constructor
  · decide
  · intro saturates
    rcases saturates 0 with ⟨converted, called, _, errno⟩
    have computed :
        Function.call .x86_64 .strtoull
          (CString.ofAscii "30000000000000000000").start (10 : Nat) 0 =
        .ok ⟨11553255926290448384,
          ⟨.ofAscii "30000000000000000000", 20⟩, 0⟩ := by
      decide
    rw [computed, Except.ok.injEq] at called
    subst called
    exact absurd errno (show (0 : Errno) ≠ ERANGE by decide)

theorem strto_saturates_iff_twenty_nines :
    Saturates .x86_64 .strtoul 10 (.ofAscii "99999999999999999999") ↔
      ¬ ((Function.strtoul.type .x86_64).signed = false ∧
          (subject 10
            (CString.ofAscii "99999999999999999999").bytes).minus = true) ∧
        Noticed (2 ^ 64)
          (bound (Function.strtoul.type .x86_64)
            (subject 10
              (CString.ofAscii "99999999999999999999").bytes).minus)
          (subject 10
            (CString.ofAscii "99999999999999999999").bytes).numeral.base 0
          (subject 10
            (CString.ofAscii "99999999999999999999").bytes).numeral.digits :=
  strto_saturates_iff .x86_64 .strtoul (.ofAscii "99999999999999999999")
    (by decide) (by decide)

/-! ## Where nothing can be missed -/

theorem digits_lt
    {base digit : Nat} {text : List Byte}
    (member : digit ∈ digits base text) : digit < base := by
  induction text with
  | nil => simp [digits] at member
  | cons c rest induction =>
      rw [digits] at member
      cases found : digitIn base c with
      | none => simp [found] at member
      | some value =>
          have worth : digitWorth c = some value ∧ value < base := by
            simpa [digitIn, Option.filter_eq_some_iff] using found
          rw [found, List.mem_cons] at member
          rcases member with rfl | member
          · exact worth.2
          · exact induction member

/-- The digits of a numeral are digits of its base, which is at most 36. -/
theorem numeral_legal
    {base : Nat} (legal : base ≤ 36) (text : List Byte) :
    (numeral base text).base ≤ 36 ∧
      ∀ digit ∈ (numeral base text).digits,
        digit < (numeral base text).base := by
  unfold numeral
  split_ifs with hexadecimal automatic octal
  · exact ⟨(by decide : 16 ≤ 36), fun _ => digits_lt⟩
  · exact ⟨(by decide : 8 ≤ 36), fun _ => digits_lt⟩
  · exact ⟨(by decide : 10 ≤ 36), fun _ => digits_lt⟩
  · exact ⟨legal, fun _ => digits_lt⟩

/--
A 32-bit limit leaves room for one more digit in the 64-bit running value, so
a function with a 32-bit result misses no overflow.
-/
theorem saturates_of_narrow
    (target : Target) (function : Function) (string : CString)
    {base : Nat} (legal : base ≤ 36)
    (narrow : (function.type target).bits = 32)
    (outOfRange :
      bound (function.type target) (subject base string.bytes).minus <
        magnitude (subject base string.bytes).numeral)
    (notNegated :
      ¬ ((function.type target).signed = false ∧
        (subject base string.bytes).minus = true)) :
    Saturates target function base string := by
  rw [saturates_iff target function string legal,
    saturating_eq_iff (function.type_standard target),
    suspected_reading_iff base (Nat.zero_lt_of_lt outOfRange)]
  refine ⟨notNegated, ?_⟩
  rcases numeral_legal legal ((afterSpaces string.bytes).drop
      (signLength (afterSpaces string.bytes))) with ⟨atMost, inBase⟩
  apply noticed_of_no_wrap
  · have limit :
        bound (function.type target) (subject base string.bytes).minus ≤
          2 ^ 32 := by
      unfold bound IntegerType.max
      rw [narrow]
      split_ifs <;> decide
    have product := Nat.mul_le_mul limit atMost
    have base36 : (subject base string.bytes).numeral.base ≤ 36 := atMost
    calc
      _ ≤ 2 ^ 32 * 36 + 36 := Nat.add_le_add product base36
      _ ≤ 2 ^ 64 := by decide
  · exact inBase
  · exact Nat.zero_le _
  · exact outOfRange

end Nolibc.Stdlib.Saturation

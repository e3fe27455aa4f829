import Nolibc.Stdlib.NumberGrammar

/-!
# What the numeric parsers convert

`strto_of_number` says that a delimited number in range is converted exactly,
and `strto_ends_iff` when `*endptr` is the end of the longest number: the code
moves through white space, sign and prefix before it sees a digit, and never
moves back.
-/

set_option autoImplicit false

namespace Nolibc.Stdlib.Conversions

open Nolibc.Machine
open Nolibc.Ctype
open Nolibc.Foundation.Horner
open Nolibc.Stdlib.Strtox
open Nolibc.Stdlib.Saturation
open Nolibc.Stdlib.NumberGrammar

/-! ## Values -/

/-- The number denoted by a sign and a magnitude. -/
def denoted (minus : Bool) (magnitude : Nat) : Int :=
  if minus then -magnitude else magnitude

/-- In range is the number, and for an unsigned type its magnitude. -/
def InRange (type : IntegerType) (minus : Bool) (magnitude : Nat) : Prop :=
  if type.signed then
    type.min ≤ denoted minus magnitude ∧ denoted minus magnitude ≤ type.max
  else
    magnitude ≤ type.max

instance (type : IntegerType) (minus : Bool) (magnitude : Nat) :
    Decidable (InRange type minus magnitude) :=
  inferInstanceAs (Decidable
    (if type.signed then
      type.min ≤ denoted minus magnitude ∧
        denoted minus magnitude ≤ type.max
    else
      magnitude ≤ type.max))

/-- The number in the type; an unsigned type negates modulo its width. -/
def valueIn (type : IntegerType) (minus : Bool) (magnitude : Nat) : Int :=
  if type.signed then
    denoted minus magnitude
  else
    denoted minus magnitude % 2 ^ type.bits

theorem le_bound
    {type : IntegerType} {minus : Bool} {magnitude : Nat}
    (inRange : InRange type minus magnitude) :
    magnitude ≤ bound type minus := by
  rcases type with ⟨signed, bits⟩
  cases signed with
  | false => exact inRange
  | true =>
      rcases inRange with ⟨low, high⟩
      cases minus with
      | false =>
          simp only [denoted, Bool.false_eq_true, if_false] at high
          exact Int.ofNat_le.mp high
      | true =>
          simp only [denoted, IntegerType.min, if_true] at low
          have negated := Int.neg_le_neg low
          rw [Int.neg_neg, Int.neg_neg] at negated
          exact Int.ofNat_le.mp (by exact_mod_cast negated)

theorem bound_lt
    {type : IntegerType} (standard : Standard type) (minus : Bool) :
    bound type minus < 2 ^ 64 := by
  rcases type with ⟨signed, bits⟩
  rcases standard with rfl | rfl <;> revert signed minus <;> decide

/-- A number in range has its value when it is negated in an `uintmax_t`. -/
theorem ofUnsigned_eq
    {type : IntegerType} (standard : Standard type) {minus : Bool}
    {magnitude : Nat} (inRange : InRange type minus magnitude) :
    type.ofUnsigned (if minus then negate magnitude else magnitude) =
      valueIn type minus magnitude := by
  have inBound := le_bound inRange
  have small := Nat.lt_of_le_of_lt inBound (bound_lt standard minus)
  rcases type with ⟨signed, bits⟩
  cases signed with
  | false =>
      rcases standard with rfl | rfl <;> cases minus <;>
        simp [IntegerType.ofUnsigned, valueIn, denoted, negate] <;> omega
  | true =>
      rcases standard with rfl | rfl <;> cases minus <;>
        simp [bound, IntegerType.max] at inBound <;>
        simp [IntegerType.ofUnsigned, valueIn, denoted, negate,
          BitVec.toInt_eq_toNat_bmod, Int.bmod_def] <;> omega

/-! ## Calls anywhere in a string -/

/-- Whether the test of the code succeeds while a text is read. -/
def overflowed (type : IntegerType) (base : Nat) (text : List Byte) : Bool :=
  let read := reading base text
  suspected (2 ^ 64) (bound type read.minus) read.numeral.base 0
    read.numeral.digits

/-- The value a text is converted to. -/
def converted (type : IntegerType) (base : Nat) (text : List Byte) : Int :=
  let read := reading base text
  let val :=
    if overflowed type base text then
      bound type read.minus
    else
      wrapped (2 ^ 64) read.numeral.base 0 read.numeral.digits
  type.ofUnsigned (if read.minus then negate val else val)

/-- A call of the family wherever its text stands in a string. -/
theorem strto_points
    (target : Target) {type : IntegerType} (standard : Standard type)
    {base : Nat} (legal : base ≤ 36) {nptr : Pointer} {text : List Byte}
    (points : nptr.Points text) (errnum : Errno) :
    strto type target nptr base errnum =
      .ok ⟨converted type base text,
        nptr.add (reading base text).consumed,
        if overflowed type base text then ERANGE else errnum⟩ := by
  rw [strto, strtox_eq target points legal]
  simp only [codeLimit_eq standard, bind, Except.bind, pure, Except.pure]
  rfl

theorem digits_length_le (base : Nat) (text : List Byte) :
    (Strtox.digits base text).length ≤ text.length := by
  rcases digits_split base text with ⟨run, rest, rfl, all, stop⟩
  rw [digits_run all stop, worths_length all, List.length_append]
  exact Nat.le_add_right _ _

/-- No call consumes more than its text. -/
theorem consumed_le (base : Nat) (text : List Byte) :
    (reading base text).consumed ≤ text.length := by
  have blanks : (spaces text).length + (afterSpaces text).length =
      text.length := by
    rw [← List.length_append, spaces, afterSpaces,
      List.takeWhile_append_dropWhile]
  have signed := signLength_le (afterSpaces text)
  have skipped := codePrefix_le base (unsigned text)
  have digits := digits_length_le (codeNumeral base (unsigned text)).base
    ((unsigned text).drop (codePrefix base (unsigned text)).2)
  have behind : (unsigned text).length =
      (afterSpaces text).length - signLength (afterSpaces text) :=
    List.length_drop
  rw [List.length_drop] at digits
  rw [(reading_eq base text).2, codeLength]
  have same : (codeNumeral base (unsigned text)).digits =
      Strtox.digits (codeNumeral base (unsigned text)).base
        ((unsigned text).drop (codePrefix base (unsigned text)).2) := rfl
  rw [same]
  omega

/-! ## Delimited numbers -/

/--
The text behind a number does not continue it, and where the number has no
prefix its start is not that of one.
-/
structure Delimited {base : Nat} (number : NumberText base)
    (rest : List Byte) : Prop where
  maximal : digitIn number.effective (deref rest) = none
  plain : number.radix = [] → base = 0 ∨ base = 16 →
    ¬ StartsWithX (number.run ++ rest)

/-- The code reads a delimited number, and nothing else. -/
theorem reading_number
    {base : Nat} {number : NumberText base} {rest : List Byte}
    (delimited : Delimited number rest) :
    (reading base (number.bytes ++ rest)).minus = number.minus ∧
      (reading base (number.bytes ++ rest)).numeral.base =
        number.effective ∧
      magnitude (reading base (number.bytes ++ rest)).numeral =
        number.magnitude ∧
      (reading base (number.bytes ++ rest)).consumed =
        number.bytes.length := by
  rcases number.parts rest with ⟨blanks, signed, minus, behind⟩
  rcases reading_eq base (number.bytes ++ rest) with ⟨numeral, consumed⟩
  rcases codeNumeral_of_spelling number.spelling number.nonempty
      number.digits delimited.maximal delimited.plain with
    ⟨effective, value, length⟩
  rw [numeral, consumed, behind, effective, value, length, blanks, signed]
  refine ⟨decide_eq_decide.mpr minus, rfl, rfl, ?_⟩
  simp only [NumberText.bytes, List.length_append, Nat.add_assoc]

/-- The base in effect has a digit. -/
theorem effective_pos {base : Nat} (number : NumberText base) :
    0 < number.effective := by
  rcases List.exists_mem_of_ne_nil number.run number.nonempty with
    ⟨c, member⟩
  rcases Option.isSome_iff_exists.mp (number.digits c member) with
    ⟨digit, found⟩
  have worth : digitWorth c = some digit ∧ digit < number.effective := by
    simpa [digitIn, Option.filter_eq_some_iff] using found
  exact Nat.zero_lt_of_lt worth.2

/-- A text whose digits denote a number in range is converted to it. -/
theorem converted_of_inRange
    {type : IntegerType} (standard : Standard type) {base : Nat}
    {text : List Byte} (positive : 0 < (reading base text).numeral.base)
    (inRange : InRange type (reading base text).minus
      (magnitude (reading base text).numeral)) :
    converted type base text =
        valueIn type (reading base text).minus
          (magnitude (reading base text).numeral) ∧
      overflowed type base text = false := by
  rcases wrapped_of_le positive (le_bound inRange)
      (bound_lt standard (reading base text).minus) with
    ⟨exact, unsuspected⟩
  have settled : overflowed type base text = false := unsuspected
  refine ⟨?_, settled⟩
  rw [converted, settled]
  simp only [Bool.false_eq_true, if_false, exact]
  exact ofUnsigned_eq standard inRange

/-- A delimited number in range is converted to its value. -/
theorem converted_number
    {type : IntegerType} (standard : Standard type) {base : Nat}
    {number : NumberText base} {rest : List Byte}
    (delimited : Delimited number rest)
    (inRange : InRange type number.minus number.magnitude) :
    converted type base (number.bytes ++ rest) =
        valueIn type number.minus number.magnitude ∧
      overflowed type base (number.bytes ++ rest) = false := by
  rcases reading_number delimited with ⟨minus, effective, value, _⟩
  have positive := effective_pos number
  rw [← effective] at positive
  rw [← minus, ← value] at inRange ⊢
  exact converted_of_inRange standard positive inRange

/--
A delimited number in range of the result is returned exactly, `*endptr` is
behind its last digit and `errno` is left alone.
-/
theorem strto_of_number
    (target : Target) (function : Function) {base : Nat}
    (legal : base = 0 ∨ 2 ≤ base ∧ base ≤ 36) (string : CString)
    (number : NumberText base) {rest : List Byte}
    (split : string.bytes = number.bytes ++ rest)
    (delimited : Delimited number rest)
    (inRange : InRange (function.type target) number.minus
      number.magnitude)
    (errnum : Errno) :
    function.call target string.start base errnum =
      .ok ⟨valueIn (function.type target) number.minus number.magnitude,
        string.start.add number.bytes.length, errnum⟩ := by
  have atMost : base ≤ 36 := by omega
  have standard := function.type_standard target
  rcases converted_number standard delimited inRange with
    ⟨value, settled⟩
  rcases reading_number delimited with ⟨_, _, _, consumed⟩
  rw [function.call_eq target, strto_points target standard atMost
    (Pointer.points_start string), split, value, settled, consumed]
  rfl

/-- `LLONG_MIN`, of which the magnitude is above `LLONG_MAX`. -/
def lowestLongLong : NumberText 0 :=
  { blanks := ascii " "
    sign := .minus
    effective := 16
    radix := ascii "0x"
    run := ascii "8000000000000000"
    white := by decide
    spelling := .hexadecimal (Or.inl rfl) (Or.inl rfl)
    nonempty := by decide
    digits := by decide }

theorem strto_of_number_lowest :
    Function.strtoll.call .x86_64
        (CString.ofAscii " -0x8000000000000000, ").start (0 : Nat) 0 =
      .ok ⟨valueIn (Function.strtoll.type .x86_64) lowestLongLong.minus
          lowestLongLong.magnitude,
        (CString.ofAscii " -0x8000000000000000, ").start.add
          lowestLongLong.bytes.length, 0⟩ :=
  strto_of_number .x86_64 .strtoll (Or.inl rfl)
    (.ofAscii " -0x8000000000000000, ") lowestLongLong rfl
    ⟨by decide, fun bare => absurd bare (by decide)⟩ (by decide) 0

/-! ## The end of the longest number -/

/-- Where the longest number of a text ends; its start when there is none. -/
def EndsNumber (base : Nat) (text : List Byte) (length : Nat) : Prop :=
  IsGreatest (numberLengths base text) length ∨
    numberLengths base text = ∅ ∧ length = 0

/-- The numeral of the standard in a text that only looks hexadecimal. -/
theorem numeral_of_lone
    {base : Nat} {text : List Byte} (lone : LonePrefix base text) :
    (numeral base text).digits = [0] ∧ numeralLength base text = 1 := by
  rcases lone with ⟨selected, letter, none⟩
  have rejected : ¬ ((base = 0 ∨ base = 16) ∧ startsHexadecimal text) :=
    fun accepted => accepted.2.2 none
  have zero : deref text = '0'.toUInt8 := by
    rcases letter with ⟨rest, rfl⟩ | ⟨rest, rfl⟩
    · rfl
    · rfl
  have digits : (numeral base text).digits = [0] := by
    rw [numeral, if_neg rejected]
    rcases selected with rfl | rfl
    · rw [if_pos rfl, if_pos zero]
      exact digits_zero_x (by decide) (by decide) letter
    · rw [if_neg (by decide)]
      exact digits_zero_x (by decide) (by decide) letter
  refine ⟨digits, ?_⟩
  rw [numeralLength, if_neg rejected, digits]
  rfl

theorem afterSpaces_of_spaces_nil
    {text : List Byte} (unspaced : spaces text = []) :
    afterSpaces text = text := by
  have split : spaces text ++ afterSpaces text = text :=
    List.takeWhile_append_dropWhile
  rwa [unspaced] at split

/-- When the code ends where the longest number does. -/
theorem endsNumber_consumed_iff (base : Nat) (text : List Byte) :
    EndsNumber base text (reading base text).consumed ↔
      ¬ LonePrefix base (unsigned text) ∧
        ((numberLengths base text).Nonempty ∨
          spaces text = [] ∧ signLength text = 0) := by
  rw [(reading_eq base text).2, codeLength_eq]
  by_cases found : (subject base text).numeral.digits = []
  · have empty := numberLengths_eq_empty found
    have short : numeralLength base (unsigned text) = 0 :=
      numeralLength_of_digits_nil found
    have plain : ¬ LonePrefix base (unsigned text) := by
      intro lone
      have one := (numeral_of_lone lone).2
      omega
    have never (length : Nat) :
        ¬ IsGreatest (numberLengths base text) length := by
      rintro ⟨member, _⟩
      rw [empty] at member
      exact member
    have barren : ¬ (numberLengths base text).Nonempty := by
      rw [empty]
      exact Set.not_nonempty_empty
    rw [EndsNumber, or_iff_right (never _), and_iff_right empty,
      and_iff_right plain, or_iff_right barren, if_neg plain, short]
    constructor
    · intro zero
      have unspaced : spaces text = [] :=
        List.eq_nil_of_length_eq_zero (by omega)
      rw [afterSpaces_of_spaces_nil unspaced] at zero
      exact ⟨unspaced, by omega⟩
    · rintro ⟨unspaced, unsignedText⟩
      rw [unspaced, afterSpaces_of_spaces_nil unspaced, unsignedText]
      rfl
  · have greatest := isGreatest_numberLengths found
    have inhabited : (numberLengths base text).Nonempty :=
      ⟨_, greatest.1⟩
    have ends_iff (length : Nat) : EndsNumber base text length ↔
        length = (spaces text).length + signLength (afterSpaces text) +
          numeralLength base (unsigned text) := by
      constructor
      · rintro (longest | ⟨empty, _⟩)
        · exact longest.unique greatest
        · exact absurd empty inhabited.ne_empty
      · rintro rfl
        exact Or.inl greatest
    rw [ends_iff, and_iff_left (Or.inl inhabited)]
    split_ifs with lone
    · have one := (numeral_of_lone lone).2
      constructor
      · intro equal
        omega
      · intro plain
        exact absurd lone plain
    · exact ⟨fun _ => lone, fun _ => rfl⟩

/-- A text without digits is converted to zero. -/
theorem converted_of_digits_nil
    {type : IntegerType} (standard : Standard type) {base : Nat}
    {text : List Byte} (none : (reading base text).numeral.digits = []) :
    converted type base text = 0 := by
  have zero (minus : Bool) :
      type.ofUnsigned (if minus then negate 0 else 0) = 0 := by
    rcases type with ⟨signed, bits⟩
    rcases standard with rfl | rfl <;> revert signed minus <;> decide
  rw [converted, overflowed, none]
  exact zero _

/--
A call that does for every `errno` what the standard asks of `*endptr` and of
a text without a number, or with a prefix that has no digit behind it.
-/
def StoresEnd (target : Target) (function : Function) (base : Nat)
    (string : CString) : Prop :=
  ∀ errnum, ∃ converted length,
    function.call target string.start base errnum = .ok converted ∧
      converted.endptr = string.start.add length ∧
      EndsNumber base string.bytes length ∧
      (numberLengths base string.bytes = ∅ → converted.ret = 0) ∧
      (LonePrefix base (unsigned string.bytes) →
        converted.ret = 0 ∧
          length = (spaces string.bytes).length +
            signLength (afterSpaces string.bytes) + 1)

/-- Without a number, and not misled by a prefix, the code sees no digit. -/
theorem reading_digits_nil
    {base : Nat} {text : List Byte}
    (plain : ¬ LonePrefix base (unsigned text))
    (empty : numberLengths base text = ∅) :
    (reading base text).numeral.digits = [] := by
  have absent : (subject base text).numeral.digits = [] := by
    by_contra found
    have member := (isGreatest_numberLengths found).1
    rw [empty] at member
    exact member
  have short : numeralLength base (unsigned text) = 0 :=
    numeralLength_of_digits_nil absent
  have length := codeLength_eq base (unsigned text)
  rw [if_neg plain, short, codeLength] at length
  rw [(reading_eq base text).1]
  exact List.eq_nil_of_length_eq_zero (Nat.add_eq_zero_iff.mp length).2

/--
`*endptr` is the end of the longest number exactly when no prefix without a
digit misleads the code, and the string starts with a number or else has
neither white space nor a sign to step over.
-/
theorem strto_ends_iff
    (target : Target) (function : Function) {base : Nat}
    (legal : base = 0 ∨ 2 ≤ base ∧ base ≤ 36) (string : CString) :
    StoresEnd target function base string ↔
      ¬ LonePrefix base (unsigned string.bytes) ∧
        ((numberLengths base string.bytes).Nonempty ∨
          spaces string.bytes = [] ∧ signLength string.bytes = 0) := by
  have atMost : base ≤ 36 := by omega
  have standard := function.type_standard target
  have called := strto_points target standard atMost
    (Pointer.points_start string)
  rw [← endsNumber_consumed_iff, StoresEnd, function.call_eq target]
  constructor
  · intro stores
    rcases stores 0 with ⟨_, length, equal, endptr, ends, _⟩
    rw [called, Except.ok.injEq] at equal
    subst equal
    have offsets : 0 + (reading base string.bytes).consumed =
        0 + length :=
      congrArg Pointer.offset endptr
    rw [← Nat.add_left_cancel offsets] at ends
    exact ends
  · intro ends errnum
    have plain := ((endsNumber_consumed_iff base string.bytes).mp ends).1
    refine ⟨_, _, called errnum, rfl, ends, ?_, ?_⟩
    · intro empty
      exact converted_of_digits_nil standard
        (reading_digits_nil plain empty)
    · intro lone
      exact absurd lone plain

/-- On a lone sign `strtol` stores the end of the sign. -/
theorem strtol_consumes_sign :
    numberLengths 10 (CString.ofAscii "-").bytes = ∅ ∧
      ¬ StoresEnd .x86_64 .strtol 10 (.ofAscii "-") := by
  have empty : numberLengths 10 (CString.ofAscii "-").bytes = ∅ :=
    numberLengths_eq_empty (by decide)
  refine ⟨empty, ?_⟩
  intro stores
  rcases stores 0 with ⟨converted, length, called, endptr, ends, _⟩
  have computed :
      Function.call .x86_64 .strtol (CString.ofAscii "-").start (10 : Nat)
          0 =
        .ok ⟨0, ⟨.ofAscii "-", 1⟩, 0⟩ := by
    decide
  rw [computed, Except.ok.injEq] at called
  subst called
  have offset : 1 = 0 + length := congrArg Pointer.offset endptr
  rcases ends with ⟨member, _⟩ | ⟨_, zero⟩
  · rw [empty] at member
    exact member
  · omega

theorem strto_ends_iff_octal :
    StoresEnd .arm .strtoul 0 (.ofAscii " +0178") ↔
      ¬ LonePrefix 0 (unsigned (CString.ofAscii " +0178").bytes) ∧
        ((numberLengths 0 (CString.ofAscii " +0178").bytes).Nonempty ∨
          spaces (CString.ofAscii " +0178").bytes = [] ∧
            signLength (CString.ofAscii " +0178").bytes = 0) :=
  strto_ends_iff .arm .strtoul (Or.inl rfl) (.ofAscii " +0178")

end Nolibc.Stdlib.Conversions

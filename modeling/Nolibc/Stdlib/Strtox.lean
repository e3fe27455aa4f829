import Nolibc.Ctype
import Nolibc.Foundation.Horner
import Nolibc.Foundation.Loop
import Nolibc.Strings.Compare

/-!
# Numeric parsing

`__strtox` reads white space, a sign, a base prefix and digits into an
`uintmax_t`, and the functions of the `strtol` family are calls of it with the
limits of their type.  Its loops run on a pointer that reads byte by byte, so
that reading past the NUL would show.

`strtox_eq` states what a call does in terms of the bytes it is given.  That
reading is the one of the code; what the C standard calls the subject sequence
is defined elsewhere.
-/

set_option autoImplicit false

namespace Nolibc.Stdlib.Strtox

open Nolibc.Machine
open Nolibc.Ctype
open Nolibc.Strings.Compare
open Nolibc.Foundation
open Nolibc.Foundation.Horner

/-! ## The code -/

/-- `while (isspace(*nptr)) nptr++;` -/
def spaceTurn (target : Target) (nptr : Pointer) :
    Except Fault (Pointer ⊕ Pointer) := do
  let c ← nptr.load
  if isspace (target.charToInt c) then
    pure (.inl (nptr.add 1))
  else
    pure (.inr nptr)

/-- The loop over white space. -/
def spaceLoop (target : Target) (nptr : Pointer) : Except Fault Pointer :=
  Loop.run Fault.diverged (spaceTurn target) (nptr.string.length + 1) nptr

/-- `strncmp(nptr, literal, strlen(literal)) == 0` -/
def startsWith (nptr : Pointer) (literal : CString) :
    Except Fault Bool := do
  let diff ← strncmp nptr literal.start literal.length
  pure (decide (diff = 0))

/-- The base in effect and the first byte behind its prefix. -/
def basePrefix (nptr : Pointer) (base : Int) :
    Except Fault (Int × Pointer) := do
  if base = 0 ∨ base = 16 then
    if ← startsWith nptr (.ofAscii "0x") then
      return (16, nptr.add 2)
    if ← startsWith nptr (.ofAscii "0X") then
      return (16, nptr.add 2)
  if base = 0 then
    if ← startsWith nptr (.ofAscii "0") then
      return (8, nptr.add 1)
    return (10, nptr)
  return (base, nptr)

/-- The value of a digit or a letter, when `c` is one. -/
def digitValue (c : Int) : Option Int :=
  if '0'.toNat ≤ c ∧ c ≤ '9'.toNat then
    some (c - '0'.toNat)
  else if 'a'.toNat ≤ c ∧ c ≤ 'z'.toNat then
    some (c - 'a'.toNat + 10)
  else if 'A'.toNat ≤ c ∧ c ≤ 'Z'.toNat then
    some (c - 'A'.toNat + 10)
  else
    none

/-- The variables of the digit loop. -/
structure Scan where
  nptr : Pointer
  val : Nat
  overflow : Bool

/-- One turn of `while (*nptr)`; every `goto out` leaves the loop. -/
def digitTurn (target : Target) (base : Int) (limit : Nat) (scan : Scan) :
    Except Fault (Scan ⊕ Scan) := do
  let c ← scan.nptr.load
  if c = 0 then
    pure (.inr scan)
  else
    match digitValue (target.charToInt c) with
    | none => pure (.inr scan)
    | some digit =>
        if digit ≥ base then
          pure (.inr scan)
        else
          let oldVal := scan.val
          let scaled := scan.val * base.toNat % 2 ^ 64
          let val := (scaled + digit.toNat) % 2 ^ 64
          pure (.inl
            { nptr := scan.nptr.add 1
              val
              overflow :=
                scan.overflow || decide (val > limit ∨ val < oldVal) })

/-- The loop over the digits. -/
def digitLoop (target : Target) (base : Int) (limit : Nat) (scan : Scan) :
    Except Fault Scan :=
  Loop.run Fault.diverged (digitTurn target base limit)
    (scan.nptr.string.length + 1) scan

/-- `-value` in an `uintmax_t`. -/
def negate (value : Nat) : Nat :=
  (2 ^ 64 - value) % 2 ^ 64

/--
What a call returns, stores through `endptr` (when that is not `NULL`) and
leaves in `errno`.
-/
structure Converted (Value : Type) where
  ret : Value
  endptr : Pointer
  errnum : Errno
  deriving DecidableEq

/-- `__strtox`. -/
def strtox (target : Target) (nptr : Pointer) (base : Int)
    (lowerLimit : Int) (upperLimit : Nat) (errnum : Errno) :
    Except Fault (Converted Nat) := do
  if base < 0 ∨ base > 36 then
    return ⟨0, nptr, EINVAL⟩
  let signed : Bool := decide (lowerLimit ≠ 0)
  let nptr ← spaceLoop target nptr
  let sign ← nptr.load
  let neg : Bool := decide (sign = '-'.toUInt8)
  let nptr :=
    if sign = '+'.toUInt8 ∨ sign = '-'.toUInt8 then nptr.add 1 else nptr
  let limit :=
    if signed && neg then (-lowerLimit % 2 ^ 64).toNat else upperLimit
  let (base, nptr) ← basePrefix nptr base
  let scan ← digitLoop target base limit ⟨nptr, 0, false⟩
  let val := if scan.overflow then limit else scan.val
  return ⟨if neg then negate val else val, scan.nptr,
    if scan.overflow then ERANGE else errnum⟩

/-- An integer type of C. -/
structure IntegerType where
  signed : Bool
  bits : Nat

namespace IntegerType

/-- `long` -/
def long (target : Target) : IntegerType :=
  ⟨true, target.longBits⟩

/-- `unsigned long` -/
def unsignedLong (target : Target) : IntegerType :=
  ⟨false, target.longBits⟩

/-- `long long`, and `intmax_t` -/
def longLong : IntegerType :=
  ⟨true, 64⟩

/-- `unsigned long long`, and `uintmax_t` -/
def unsignedLongLong : IntegerType :=
  ⟨false, 64⟩

/-- The `_MIN` of the type. -/
def min (type : IntegerType) : Int :=
  if type.signed then -(2 ^ (type.bits - 1)) else 0

/-- The `_MAX` of the type. -/
def max (type : IntegerType) : Nat :=
  if type.signed then 2 ^ (type.bits - 1) - 1 else 2 ^ type.bits - 1

/-- The conversion of an `uintmax_t` to the type. -/
def ofUnsigned (type : IntegerType) (value : Nat) : Int :=
  if type.signed then
    (BitVec.ofNat type.bits value).toInt
  else
    (value % 2 ^ type.bits : Nat)

end IntegerType

/-- A function of the family: `__strtox` with the limits of its type. -/
def strto (type : IntegerType) (target : Target) (nptr : Pointer)
    (base : Int) (errnum : Errno) : Except Fault (Converted Int) := do
  let converted ← strtox target nptr base type.min type.max errnum
  return ⟨type.ofUnsigned converted.ret, converted.endptr,
    converted.errnum⟩

/-- `strtol` -/
def strtol (target : Target) (nptr : Pointer) (base : Int)
    (errnum : Errno) : Except Fault (Converted Int) :=
  strto (.long target) target nptr base errnum

/-- `strtoul` -/
def strtoul (target : Target) (nptr : Pointer) (base : Int)
    (errnum : Errno) : Except Fault (Converted Int) :=
  strto (.unsignedLong target) target nptr base errnum

/-- `strtoll` -/
def strtoll (target : Target) (nptr : Pointer) (base : Int)
    (errnum : Errno) : Except Fault (Converted Int) :=
  strto .longLong target nptr base errnum

/-- `strtoull` -/
def strtoull (target : Target) (nptr : Pointer) (base : Int)
    (errnum : Errno) : Except Fault (Converted Int) :=
  strto .unsignedLongLong target nptr base errnum

/-- `strtoimax` -/
def strtoimax (target : Target) (nptr : Pointer) (base : Int)
    (errnum : Errno) : Except Fault (Converted Int) :=
  strto .longLong target nptr base errnum

/-- `strtoumax` -/
def strtoumax (target : Target) (nptr : Pointer) (base : Int)
    (errnum : Errno) : Except Fault (Converted Int) :=
  strto .unsignedLongLong target nptr base errnum

/-! ## The reading of the code -/

/-- The value of a byte as a digit in some base. -/
def digitWorth (c : Byte) : Option Nat :=
  if '0'.toUInt8 ≤ c ∧ c ≤ '9'.toUInt8 then
    some (c.toNat - '0'.toNat)
  else if 'a'.toUInt8 ≤ c ∧ c ≤ 'z'.toUInt8 then
    some (c.toNat - 'a'.toNat + 10)
  else if 'A'.toUInt8 ≤ c ∧ c ≤ 'Z'.toUInt8 then
    some (c.toNat - 'A'.toNat + 10)
  else
    none

/-- The value of a byte as a digit of a base. -/
def digitIn (base : Nat) (c : Byte) : Option Nat :=
  (digitWorth c).filter (· < base)

/-- The digits a text starts with. -/
def digits (base : Nat) : List Byte → List Nat
  | [] => []
  | c :: rest =>
      match digitIn base c with
      | none => []
      | some digit => digit :: digits base rest

/-- A numeral: its base and its digits. -/
structure Numeral where
  base : Nat
  digits : List Nat
  deriving DecidableEq

/-- The white space a text starts with, and what is behind it. -/
def spaces (text : List Byte) : List Byte :=
  text.takeWhile (· ∈ whiteSpace)

/-- What is left of a text behind its white space. -/
def afterSpaces (text : List Byte) : List Byte :=
  text.dropWhile (· ∈ whiteSpace)

/-- How many bytes the sign at the head of a text takes. -/
def signLength (text : List Byte) : Nat :=
  if deref text = '+'.toUInt8 ∨ deref text = '-'.toUInt8 then 1 else 0

/-- What the code reads as a base prefix: the base and the prefix. -/
def codePrefix (base : Nat) (text : List Byte) : Nat × Nat :=
  if (base = 0 ∨ base = 16) ∧
      (ascii "0x" <+: text ∨ ascii "0X" <+: text) then
    (16, 2)
  else if base = 0 then
    if ascii "0" <+: text then (8, 1) else (10, 0)
  else
    (base, 0)

/-- A text as the code reads it, in the order of the bytes it consumes. -/
structure Reading where
  minus : Bool
  numeral : Numeral
  consumed : Nat

/-- What `__strtox` reads of a text. -/
def reading (base : Nat) (text : List Byte) : Reading :=
  let signed := afterSpaces text
  let unsigned := signed.drop (signLength signed)
  let (base, skipped) := codePrefix base unsigned
  let digits := digits base (unsigned.drop skipped)
  { minus := decide (deref signed = '-'.toUInt8)
    numeral := ⟨base, digits⟩
    consumed :=
      (spaces text).length + signLength signed + skipped + digits.length }

/-! ## The loops read what the reading says -/

/-- Behind the white space is a byte of another kind, or the NUL. -/
theorem deref_afterSpaces (text : List Byte) :
    deref (afterSpaces text) ∉ whiteSpace := by
  cases behind : afterSpaces text with
  | nil => decide
  | cons c rest =>
      have dropped : text.dropWhile (· ∈ whiteSpace) = c :: rest := behind
      have nonempty : text.dropWhile (· ∈ whiteSpace) ≠ [] := by
        rw [dropped]
        exact List.cons_ne_nil c rest
      have first := List.head_dropWhile_not (· ∈ whiteSpace) nonempty
      simp only [dropped, List.head_cons] at first
      exact of_decide_eq_false first

theorem spaceLoop_eq
    (target : Target) {nptr : Pointer} {text : List Byte}
    (points : nptr.Points text) :
    spaceLoop target nptr = .ok (nptr.add (spaces text).length) ∧
      (nptr.add (spaces text).length).Points (afterSpaces text) := by
  have whole : nptr.Points (spaces text ++ afterSpaces text) := by
    rw [spaces, afterSpaces, List.takeWhile_append_dropWhile]
    exact points
  have advance {front rest : List Byte} {c : Byte}
      (split : spaces text = front ++ c :: rest) :
      spaceTurn target (nptr.add front.length) =
        .ok (.inl (nptr.add (front ++ [c]).length)) := by
    have here : nptr.Points (front ++ c :: (rest ++ afterSpaces text)) := by
      simpa [split] using whole
    have member : c ∈ spaces text := by simp [split]
    have space : c ∈ whiteSpace :=
      of_decide_eq_true (List.all_eq_true.mp List.all_takeWhile c member)
    have recognized := (isspace_charToInt target c).mpr space
    rw [List.length_append, List.length_singleton]
    simp only [spaceTurn, here.add.load, deref_cons, recognized, if_true,
      bind, Except.bind, pure, Except.pure]
    rfl
  have leave : spaceTurn target (nptr.add (spaces text).length) =
      .ok (.inr (nptr.add (spaces text).length)) := by
    have rejected :
        ¬ isspace (target.charToInt (deref (afterSpaces text))) = true := by
      rw [isspace_charToInt]
      exact deref_afterSpaces text
    simp only [spaceTurn, whole.add.load, bind, Except.bind,
      if_neg rejected, pure, Except.pure]
  have enough : (spaces text).length < nptr.string.length + 1 := by
    have fits := whole.length_le
    rw [List.length_append] at fits
    omega
  constructor
  · exact Loop.run_scan _ (fun front _ => nptr.add front.length) advance leave
      enough
  · exact whole.add

theorem signLength_le (text : List Byte) :
    signLength text ≤ text.length := by
  unfold signLength
  cases text with
  | nil => simp
  | cons c rest =>
      rw [List.length_cons]
      split_ifs <;> omega

theorem startsWith_eq
    {nptr : Pointer} {text : List Byte} (points : nptr.Points text)
    (literal : CString) :
    startsWith nptr literal =
      .ok (decide (literal.bytes <+: text)) := by
  rcases strncmp_literal points (Pointer.points_start literal) with
    ⟨diff, compared, prefixed⟩
  simp [startsWith, CString.length, compared, prefixed, bind, Except.bind,
    pure, Except.pure]

theorem codePrefix_le (base : Nat) (text : List Byte) :
    (codePrefix base text).2 ≤ text.length := by
  unfold codePrefix
  split_ifs with hexadecimal automatic octal
  · rcases hexadecimal.2 with lower | upper
    · exact lower.length_le
    · exact upper.length_le
  · exact octal.length_le
  · exact Nat.zero_le _
  · exact Nat.zero_le _

/-- The tests on the text decide the base and what is stepped over. -/
theorem basePrefix_eq
    {nptr : Pointer} {text : List Byte} (points : nptr.Points text)
    (base : Nat) :
    basePrefix nptr base =
      .ok ((codePrefix base text).1,
        nptr.add (codePrefix base text).2) := by
  have stays : nptr.add 0 = nptr := rfl
  have zero : ((base : Int) = 0) ↔ base = 0 := by omega
  have sixteen : ((base : Int) = 16) ↔ base = 16 := by omega
  have octalTest := startsWith_eq points (.ofAscii "0")
  have lowerTest := startsWith_eq points (.ofAscii "0x")
  have upperTest := startsWith_eq points (.ofAscii "0X")
  change _ = Except.ok (decide (ascii "0" <+: text)) at octalTest
  change _ = Except.ok (decide (ascii "0x" <+: text)) at lowerTest
  change _ = Except.ok (decide (ascii "0X" <+: text)) at upperTest
  simp only [basePrefix, octalTest, lowerTest, upperTest, zero, sixteen,
    bind, Except.bind, pure, Except.pure, decide_eq_true_eq]
  unfold codePrefix
  by_cases hexadecimal : base = 0 ∨ base = 16
  · by_cases lower : ascii "0x" <+: text
    · simp [hexadecimal, lower]
    · by_cases upper : ascii "0X" <+: text
      · simp [hexadecimal, lower, upper]
      · by_cases automatic : base = 0
        · by_cases octal : ascii "0" <+: text
          · simp [automatic, lower, upper, octal]
          · simp [automatic, lower, upper, octal, stays]
        · simp [lower, upper, automatic, stays]
  · rcases not_or.mp hexadecimal with ⟨notAutomatic, notSixteen⟩
    simp [notAutomatic, notSixteen, stays]

/-- A `char` has its value as a digit whatever its signedness. -/
theorem digitValue_charToInt (target : Target) (c : Byte) :
    digitValue (target.charToInt c) =
      (digitWorth c).map fun worth : Nat => (worth : Int) := by
  have range := c.toNat_lt
  have zero : '0'.toNat = 48 := rfl
  have nine : '9'.toNat = 57 := rfl
  have lowerA : 'a'.toNat = 97 := rfl
  have lowerZ : 'z'.toNat = 122 := rfl
  have upperA : 'A'.toNat = 65 := rfl
  have upperZ : 'Z'.toNat = 90 := rfl
  simp only [digitValue, digitWorth, UInt8.le_iff_toNat_le,
    Char.toUInt8, zero, nine, lowerA, lowerZ, upperA, upperZ]
  rcases target.charToInt_eq c with value | ⟨value, large⟩ <;>
    rw [value] <;> simp <;> split_ifs <;> simp <;> omega

/-- A turn at a digit of the base takes it into the word. -/
theorem digitTurn_digit
    (target : Target) {nptr : Pointer} {c : Byte} {text : List Byte}
    (points : nptr.Points (c :: text)) {base digit : Nat}
    (found : digitIn base c = some digit)
    (limit val : Nat) (overflow : Bool) :
    digitTurn target base limit ⟨nptr, val, overflow⟩ =
      .ok (.inl ⟨nptr.add 1, wrapDigit (2 ^ 64) base val digit,
        overflow ||
          decide (Suspect limit val
            (wrapDigit (2 ^ 64) base val digit))⟩) := by
  have nonzero : c ≠ 0 := points.ne_zero
  have worth : digitWorth c = some digit ∧ digit < base := by
    simpa [digitIn, Option.filter_eq_some_iff] using found
  have small : ¬ ((digit : Int) ≥ base) := by
    have below := worth.2
    omega
  simp only [digitTurn, points.load, deref_cons, if_neg nonzero,
    digitValue_charToInt, worth.1, Option.map_some, small, if_false,
    Int.toNat_natCast, Nat.mod_add_mod, bind, Except.bind, pure,
    Except.pure]
  rfl

/-- A turn at a byte that is no digit of the base leaves the loop. -/
theorem digitTurn_other
    (target : Target) {nptr : Pointer} {c : Byte} {text : List Byte}
    (points : nptr.Points (c :: text)) {base : Nat}
    (notFound : digitIn base c = none)
    (limit val : Nat) (overflow : Bool) :
    digitTurn target base limit ⟨nptr, val, overflow⟩ =
      .ok (.inr ⟨nptr, val, overflow⟩) := by
  have nonzero : c ≠ 0 := points.ne_zero
  simp only [digitTurn, points.load, deref_cons, if_neg nonzero,
    digitValue_charToInt, bind, Except.bind, pure, Except.pure]
  cases worth : digitWorth c with
  | none => rfl
  | some value =>
      have large : base ≤ value := by
        simpa [digitIn, worth] using notFound
      simp [large]

theorem digitTurn_nul
    (target : Target) {nptr : Pointer} (points : nptr.Points [])
    (base : Int) (limit val : Nat) (overflow : Bool) :
    digitTurn target base limit ⟨nptr, val, overflow⟩ =
      .ok (.inr ⟨nptr, val, overflow⟩) := by
  simp [digitTurn, points.load, bind, Except.bind, pure, Except.pure]

/-- The digit loop reads the digits of its base and wraps as it goes. -/
theorem digitLoop_eq
    (target : Target) {nptr : Pointer} {text : List Byte}
    (points : nptr.Points text) (base limit val : Nat) (overflow : Bool) :
    digitLoop target base limit ⟨nptr, val, overflow⟩ =
      .ok ⟨nptr.add (digits base text).length,
        wrapped (2 ^ 64) base val (digits base text),
        overflow ||
          suspected (2 ^ 64) limit base val (digits base text)⟩ := by
  have run {turns : Nat} (enough : text.length < turns) :
      Loop.run Fault.diverged (digitTurn target base limit) turns
          ⟨nptr, val, overflow⟩ =
        .ok ⟨nptr.add (digits base text).length,
          wrapped (2 ^ 64) base val (digits base text),
          overflow ||
            suspected (2 ^ 64) limit base val (digits base text)⟩ := by
    induction turns generalizing nptr text val overflow with
    | zero => omega
    | succ turns induction =>
        cases text with
        | nil =>
            rw [Loop.run_exit (digitTurn_nul target points _ _ _ _)]
            simp [digits, wrapped, suspected, Pointer.add]
        | cons c text =>
            cases found : digitIn base c with
            | none =>
                rw [Loop.run_exit
                  (digitTurn_other target points found _ _ _)]
                simp [digits, found, wrapped, suspected, Pointer.add]
            | some digit =>
                rw [Loop.run_continue
                    (digitTurn_digit target points found _ _ _),
                  induction points.step _ _ (by simpa using enough)]
                simp [digits, found, wrapped, suspected, Pointer.add,
                  Nat.add_assoc, Nat.add_comm 1, Bool.or_assoc]
  exact run (Nat.lt_succ_of_le points.length_le)

/-- The greatest magnitude the code takes to be in range. -/
def codeLimit (lowerLimit : Int) (upperLimit : Nat) (minus : Bool) : Nat :=
  if decide (lowerLimit ≠ 0) && minus then
    (-lowerLimit % 2 ^ 64).toNat
  else
    upperLimit

/--
A call of `__strtox` reads its text: it never leaves the string, `*endptr` is
behind what was consumed, and the value and `errno` are those of the wrapped
accumulator.
-/
theorem strtox_eq
    (target : Target) {nptr : Pointer} {text : List Byte}
    (points : nptr.Points text) {base : Nat} (legal : base ≤ 36)
    (lowerLimit : Int) (upperLimit : Nat) (errnum : Errno) :
    strtox target nptr base lowerLimit upperLimit errnum =
      let read := reading base text
      let limit := codeLimit lowerLimit upperLimit read.minus
      let overflow := suspected (2 ^ 64) limit read.numeral.base 0
        read.numeral.digits
      let val :=
        if overflow then
          limit
        else
          wrapped (2 ^ 64) read.numeral.base 0 read.numeral.digits
      .ok ⟨if read.minus then negate val else val,
        nptr.add read.consumed, if overflow then ERANGE else errnum⟩ := by
  have accepted : ¬ ((base : Int) < 0 ∨ (base : Int) > 36) := by omega
  rcases spaceLoop_eq target points with ⟨spaced, atSign⟩
  have atPrefix := atSign.drop (signLength_le (afterSpaces text))
  have atDigits := atPrefix.drop (codePrefix_le base _)
  have stepped :
      (if deref (afterSpaces text) = '+'.toUInt8 ∨
          deref (afterSpaces text) = '-'.toUInt8 then
        (nptr.add (spaces text).length).add 1
      else
        nptr.add (spaces text).length) =
      (nptr.add (spaces text).length).add
        (signLength (afterSpaces text)) := by
    unfold signLength
    split_ifs
    · rfl
    · rfl
  simp only [strtox, if_neg accepted, spaced, atSign.load, stepped,
    basePrefix_eq atPrefix, digitLoop_eq target atDigits, bind,
    Except.bind, pure, Except.pure, Bool.false_or]
  simp only [reading, codeLimit, Pointer.add, Nat.add_assoc,
    decide_eq_true_eq]

end Nolibc.Stdlib.Strtox

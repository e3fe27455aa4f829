import Nolibc.Stdio.Formats
import Nolibc.Stdio.Scanf
import Nolibc.Stdio.Snprintf
import Nolibc.Stdlib.Numerals
import Nolibc.Strings

/-!
# Scanning what was printed

The directives which `vsprintf` and `vsscanf` share print integers and
pointers and read them back.  A `Value` is such a directive with its argument;
a format joins them by white space, of which a scan takes any amount.

The two engines share nothing but the texts of the numbers.  `Value.number`
says that such a text is a number of the grammar, and `scan_value` that it is
scanned as the value it was printed from.
-/

set_option autoImplicit false

namespace Nolibc.Stdio.RoundTrip

open Nolibc.Machine
open Nolibc.Ctype
open Nolibc.Foundation
open Nolibc.Stdlib.Itoa
open Nolibc.Stdlib.Strtox
open Nolibc.Stdlib.Saturation
open Nolibc.Stdlib.NumberGrammar
open Nolibc.Stdlib.Conversions
open Nolibc.Stdlib.Numerals
open Nolibc.Strings
open Nolibc.Stdio.Printf (Arg)
open Nolibc.Stdio.Formats
open Nolibc.Stdio.Snprintf
open Nolibc.Stdio.Scanf

/-! ## Values -/

/-- The length prefixes both engines know. -/
inductive Length where
  | none
  | l
  | ll
  deriving DecidableEq, Repr

/-- The width of an integer of this length. -/
def Length.bits (target : Target) : Length → Nat
  | .none => 32
  | .l => target.longBits
  | .ll => 64

/-- What the engines have counted in `lpref` behind the modifier. -/
def Length.lpref : Length → Nat
  | .none => 0
  | .l => 1
  | .ll => 2

/-- A directive with the value it prints, or stores. -/
inductive Value (target : Target) where
  | integer (length : Length) (conversion : LongConversion)
      (value : BitVec (length.bits target))
  | pointer (value : BitVec target.longBits)

variable {target : Target}

theorem nil_unknown : ∀ c ∈ ([] : List Byte), isUnknownModifier c = true :=
  fun _ member => absurd member List.not_mem_nil

/-- No modifier that is skipped. -/
def noModifiers : Modifiers :=
  ⟨[], nil_unknown⟩

/-- No digit of a width. -/
def noWidth : Width :=
  ⟨[], fun _ member => absurd member List.not_mem_nil, by decide⟩

/-- The conversion of an `int` with a letter that takes modifiers. -/
def plainConversion (value : BitVec 32) :
    LongConversion → PlainConversion target
  | .signed => .signed value
  | .unsigned => .unsigned value
  | .hex => .hex value

/-- The item of a `printf` format. -/
def Value.item : Value target → Item target
  | .integer .none conversion value =>
      .plain noModifiers noWidth (plainConversion value conversion)
  | .integer .l conversion value => .long noModifiers (.l value) conversion
  | .integer .ll conversion value =>
      .long noModifiers (.ll value) conversion
  | .pointer value => .plain noModifiers noWidth (.pointer value)

/-- The conversion of a `scanf` format. -/
def Value.letter : Value target → Letter
  | .integer _ .signed _ => .signed
  | .integer _ .unsigned _ => .unsigned
  | .integer _ .hex _ => .hexadecimal
  | .pointer _ => .pointer

/-- What the scanner has counted in `lpref` for a value. -/
def Value.lpref : Value target → Nat
  | .integer length _ _ => length.lpref
  | .pointer _ => 0

/-- The value as a number. -/
def Value.toInt : Value target → Int
  | .integer _ .signed value => value.toInt
  | .integer _ .unsigned value => value.toNat
  | .integer _ .hex value => value.toNat
  | .pointer value => value.toNat

/-- The text of the value, as a number of the grammar. -/
def Value.number : (value : Value target) → NumberText value.letter.base
  | .integer _ .signed value => decimalNumber value.toInt
  | .integer _ .unsigned value => decimalNumber value.toNat
  | .integer _ .hex value => hexadecimalNumber [] value.toNat (Or.inl rfl)
  | .pointer value =>
      hexadecimalNumber (ascii "0x") value.toNat (Or.inr rfl)

/-! ## Both engines at one directive -/

theorem leftpad_noWidth (text : List Byte) :
    text.leftpad (decimalValue noWidth.digits) ' '.toUInt8 = text := by
  have empty : decimalValue noWidth.digits - text.length = 0 :=
    Nat.zero_sub _
  rw [List.leftpad, empty]
  rfl

/-- The text that is printed. -/
theorem Value.item_reference (value : Value target) :
    value.item.reference = value.number.bytes := by
  have unsigned (magnitude : Nat) :
      decimal magnitude = (decimalNumber magnitude).bytes := by
    rw [(decimalNumber_eq magnitude).1, signedDecimal,
      if_neg (Int.not_lt.mpr (Int.natCast_nonneg magnitude))]
    rfl
  cases value with
  | integer length conversion value =>
      have same : (Value.integer length conversion value).item.reference =
          conversion.reference value := by
        cases length with
        | none =>
            cases conversion with
            | signed => exact leftpad_noWidth _
            | unsigned => exact leftpad_noWidth _
            | hex => exact leftpad_noWidth _
        | l => rfl
        | ll => rfl
      rw [same]
      cases conversion with
      | signed => exact (decimalNumber_eq value.toInt).1.symm
      | unsigned => exact unsigned value.toNat
      | hex => rfl
  | pointer value => exact leftpad_noWidth _

/-- The directive that is scanned. -/
theorem Value.readFormat_item (value : Value target) (rest : List Byte) :
    readFormat .text (value.item.source ++ rest) =
      .number value.lpref value.letter :: readFormat .text rest := by
  cases value with
  | integer length conversion value =>
      cases length <;> cases conversion <;> rfl
  | pointer value => rfl

theorem Value.number_eq (value : Value target) :
    value.number.magnitude = value.toInt.natAbs ∧
      value.number.minus = decide (value.toInt < 0) := by
  have positive (magnitude : Nat) :
      false = decide ((magnitude : Int) < 0) :=
    (decide_eq_false (Int.not_lt.mpr (Int.natCast_nonneg _))).symm
  cases value with
  | integer length conversion value =>
      cases conversion with
      | signed => exact (decimalNumber_eq value.toInt).2
      | unsigned => exact (decimalNumber_eq value.toNat).2
      | hex =>
          exact ⟨(hexadecimalNumber_eq [] value.toNat (Or.inl rfl)).2.1,
            positive value.toNat⟩
  | pointer value =>
      exact ⟨(hexadecimalNumber_eq (ascii "0x") value.toNat
        (Or.inr rfl)).2.1, positive value.toNat⟩

theorem denoted_natAbs (value : Int) :
    denoted (decide (value < 0)) value.natAbs = value := by
  unfold denoted
  by_cases negative : value < 0
  · rw [decide_eq_true negative, if_pos rfl]
    omega
  · rw [decide_eq_false negative, if_neg (by decide)]
    omega

theorem Length.bits_cases (length : Length) (target : Target) :
    length.bits target = 32 ∨ length.bits target = 64 := by
  cases length with
  | none => exact Or.inl rfl
  | l => exact target.longBits_cases
  | ll => exact Or.inr rfl

theorem toInt_range
    {bits : Nat} (standard : bits = 32 ∨ bits = 64) (value : BitVec bits) :
    -2 ^ 63 ≤ value.toInt ∧ value.toInt ≤ 2 ^ 63 - 1 := by
  have low := value.le_toInt
  have high : value.toInt < 2 ^ (bits - 1) := BitVec.toInt_lt
  rcases standard with rfl | rfl <;> omega

theorem toNat_range
    {bits : Nat} (standard : bits = 32 ∨ bits = 64) (value : BitVec bits) :
    value.toNat ≤ 2 ^ 64 - 1 := by
  have below := value.isLt
  rcases standard with rfl | rfl <;> omega

/-- An unsigned value in a type that is wide enough. -/
theorem unsigned_inRange
    {type : IntegerType} (notSigned : type.signed = false) {value : Nat}
    (fits : value ≤ 2 ^ type.bits - 1) :
    InRange type (decide ((value : Int) < 0)) (value : Int).natAbs ∧
      valueIn type (decide ((value : Int) < 0)) (value : Int).natAbs =
        value := by
  have small : value < 2 ^ type.bits :=
    Nat.lt_of_le_of_lt fits
      (Nat.sub_lt (Nat.two_pow_pos _) Nat.zero_lt_one)
  rw [InRange, valueIn, IntegerType.max, notSigned]
  simp only [Bool.false_eq_true, if_false]
  refine ⟨fits, ?_⟩
  rw [denoted_natAbs]
  exact Int.emod_eq_of_lt (Int.natCast_nonneg value)
    (by exact_mod_cast small)

/-- The text of a value is in range of the parser that reads it. -/
theorem Value.inRange (value : Value target) :
    InRange (value.letter.type target) value.number.minus
        value.number.magnitude ∧
      valueIn (value.letter.type target) value.number.minus
          value.number.magnitude =
        value.toInt := by
  rw [value.number_eq.1, value.number_eq.2]
  cases value with
  | integer length conversion value =>
      have standard := length.bits_cases target
      cases conversion with
      | signed =>
          have range := toInt_range standard value
          rw [InRange, valueIn, denoted_natAbs]
          exact ⟨range, rfl⟩
      | unsigned => exact unsigned_inRange rfl (toNat_range standard value)
      | hex => exact unsigned_inRange rfl (toNat_range standard value)
  | pointer value =>
      exact unsigned_inRange rfl (Nat.le_sub_one_of_lt value.isLt)

theorem convert_signed
    {kind : ObjectKind} {bits : Nat} (type : kind.type target = ⟨true, bits⟩)
    (value : BitVec bits) :
    kind.convert target value.toInt = value.toInt := by
  rw [ObjectKind.convert, type]
  exact congrArg BitVec.toInt (BitVec.ofInt_toInt)

theorem convert_unsigned
    {kind : ObjectKind} {bits : Nat}
    (type : kind.type target = ⟨false, bits⟩) (value : BitVec bits) :
    kind.convert target value.toNat = value.toNat := by
  rw [ObjectKind.convert, type]
  exact Int.emod_eq_of_lt (Int.natCast_nonneg _)
    (by exact_mod_cast value.isLt)

/-- The object a value is stored to keeps it. -/
theorem Value.convert_toInt (value : Value target) :
    (value.letter.kind value.lpref).convert target value.toInt =
      value.toInt := by
  cases value with
  | integer length conversion value =>
      cases conversion with
      | signed =>
          refine convert_signed ?_ value
          cases length <;> rfl
      | unsigned =>
          refine convert_unsigned ?_ value
          cases length <;> rfl
      | hex =>
          refine convert_unsigned ?_ value
          cases length <;> rfl
  | pointer value => exact convert_unsigned rfl value

/-- A run of digits is no prefix when no letter follows it. -/
theorem not_startsWithX
    {run rest : List Byte} (nonempty : run ≠ []) (all : Digits 16 run)
    (ended : digitWorth (deref rest) = none) :
    ¬ StartsWithX (run ++ rest) := by
  intro letter
  have short := run_length_le_one (by decide) (by decide) all letter
  have behind : digitWorth (deref ((run ++ rest).drop 1)) ≠ none := by
    rcases letter with ⟨more, split⟩ | ⟨more, split⟩
    · rw [← split]
      exact (by decide : digitWorth 'x'.toUInt8 ≠ none)
    · rw [← split]
      exact (by decide : digitWorth 'X'.toUInt8 ≠ none)
  cases run with
  | nil => exact nonempty rfl
  | cons c run =>
      have single : run = [] := List.eq_nil_of_length_eq_zero (by
        rw [List.length_cons] at short
        omega)
      rw [single] at behind
      exact behind ended

theorem Value.delimited
    (value : Value target) {rest : List Byte}
    (ended : digitWorth (deref rest) = none) :
    Delimited value.number rest where
  maximal := digitIn_of_worth ended
  plain := by
    intro bare selected
    cases value with
    | integer length conversion value =>
        cases conversion with
        | signed => exact absurd selected (by decide : ¬ (10 = 0 ∨ 10 = 16))
        | unsigned =>
            exact absurd selected (by decide : ¬ (10 = 0 ∨ 10 = 16))
        | hex =>
            exact not_startsWithX
              (hexadecimalNumber [] value.toNat (Or.inl rfl)).nonempty
              (hexadecimalNumber [] value.toNat (Or.inl rfl)).digits ended
    | pointer value => exact absurd bare (by decide : ascii "0x" ≠ [])

/-- Where a value is stored, and as what type. -/
def Value.destination (value : Value target) (address : Nat) : Destination :=
  ⟨value.letter.kind value.lpref, address⟩

/-- The text of a value is scanned as the value. -/
theorem Value.scan_number
    (value : Value target) (address : Nat) {rest : List Byte}
    (ended : digitWorth (deref rest) = none) (list : List Directive)
    (matched : Nat) (args : List Destination)
    (assigned : List Assignment) (errnum : Errno) :
    scan target never (.number value.lpref value.letter :: list)
        (value.number.bytes ++ rest)
        ⟨matched, value.destination address :: args, assigned, errnum⟩ =
      scan target never list rest
        ⟨matched + 1, args,
          assigned ++ [⟨value.destination address, value.toInt⟩],
          errnum⟩ := by
  have delimited := value.delimited ended
  rcases converted_number (value.letter.type_standard target) delimited
      value.inRange.1 with ⟨read, settled⟩
  have consumed := (reading_number delimited).2.2.2
  have kind : (value.destination address).kind =
      value.letter.kind value.lpref := rfl
  rw [value.inRange.2] at read
  rw [scan, never, if_neg Bool.false_ne_true, Progress.number, read,
    settled, if_neg Bool.false_ne_true, consumed, List.drop_left,
    Progress.assign_eq target kind, value.convert_toInt]

/-! ## Formats -/

/-- White space between two directives. -/
structure Gap where
  bytes : List Byte
  nonempty : bytes ≠ []
  white : ∀ c ∈ bytes, c ∈ whiteSpace

theorem plain_of_white {c : Byte} (white : c ∈ whiteSpace) :
    c ≠ 0 ∧ c ≠ '%'.toUInt8 := by
  constructor
  · rintro rfl
    exact absurd white (by decide)
  · rintro rfl
    exact absurd white (by decide)

/-- The items of white space. -/
def blanks (target : Target) (bytes : List Byte)
    (white : ∀ c ∈ bytes, c ∈ whiteSpace) : List (Item target) :=
  bytes.pmap (fun c space => .literal c (plain_of_white space)) white

/-- A value with the object it is scanned to. -/
structure Field (target : Target) where
  value : Value target
  address : Nat

/-- Where the value of a field is stored. -/
def Field.destination (field : Field target) : Destination :=
  field.value.destination field.address

/-- What the scanner stores for a field. -/
def Field.assignment (field : Field target) : Assignment :=
  ⟨field.destination, field.value.toInt⟩

/-- The items of the fields behind the first. -/
def moreItems : List (Gap × Field target) → List (Item target)
  | [] => []
  | (gap, field) :: rest =>
      blanks target gap.bytes gap.white ++
        field.value.item :: moreItems rest

/-- A format of at least one field. -/
structure Joined (target : Target) where
  first : Field target
  rest : List (Gap × Field target)

namespace Joined

/-- The items of the format. -/
def items (joined : Joined target) : List (Item target) :=
  joined.first.value.item :: moreItems joined.rest

/-- The fields, without what is between them. -/
def fields (joined : Joined target) : List (Field target) :=
  joined.first :: joined.rest.map Prod.snd

/-- The format both calls are given. -/
def format (joined : Joined target) : CString :=
  formatString joined.items

/-- The arguments of `vsprintf`. -/
def values (joined : Joined target) : List (Arg target) :=
  arguments joined.items

/-- The arguments of `vsscanf`. -/
def destinations (joined : Joined target) : List Destination :=
  joined.fields.map Field.destination

/-- The text that is printed. -/
def text (joined : Joined target) : List Byte :=
  reference joined.items

end Joined

/-! ## The printed text -/

theorem blanks_eq
    {bytes : List Byte} (white : ∀ c ∈ bytes, c ∈ whiteSpace) :
    source (blanks target bytes white) = bytes ∧
      reference (blanks target bytes white) = bytes := by
  induction bytes with
  | nil => exact ⟨rfl, rfl⟩
  | cons c bytes induction =>
      rcases induction fun other member =>
          white other (List.mem_cons_of_mem c member) with
        ⟨spelled, printed⟩
      exact ⟨congrArg (c :: ·) spelled, congrArg (c :: ·) printed⟩

/-- What the fields behind the first look like, in the format and in print. -/
theorem moreItems_cons
    (gap : Gap) (field : Field target) (rest : List (Gap × Field target)) :
    source (moreItems ((gap, field) :: rest)) =
        gap.bytes ++ (field.value.item.source ++ source (moreItems rest)) ∧
      reference (moreItems ((gap, field) :: rest)) =
        gap.bytes ++
          (field.value.number.bytes ++ reference (moreItems rest)) := by
  rcases blanks_eq gap.white with ⟨spelled, printed⟩
  constructor
  · rw [moreItems, source, List.flatMap_append, ← source, spelled]
    rfl
  · rw [moreItems, reference, List.flatMap_append, ← reference, printed,
      ← field.value.item_reference]
    rfl

theorem Joined.text_eq (joined : Joined target) :
    joined.text =
      joined.first.value.number.bytes ++
        reference (moreItems joined.rest) := by
  rw [← joined.first.value.item_reference]
  rfl

/-- Behind a field stands white space or the end. -/
theorem moreItems_ended (rest : List (Gap × Field target)) :
    digitWorth (deref (reference (moreItems rest))) = none := by
  cases rest with
  | nil => exact (by decide : digitWorth 0 = none)
  | cons pair rest =>
      rcases pair with ⟨gap, field⟩
      rw [(moreItems_cons gap field rest).2]
      cases bytes : gap.bytes with
      | nil => exact absurd bytes gap.nonempty
      | cons c more =>
          have white := gap.white c
          rw [bytes] at white
          exact digitWorth_white c (white List.mem_cons_self)

/-- White space before the text of a value is skipped up to it. -/
theorem Value.afterSpaces_number
    (value : Value target) {blanks : List Byte}
    (white : ∀ c ∈ blanks, c ∈ whiteSpace) (rest : List Byte) :
    afterSpaces (blanks ++ (value.number.bytes ++ rest)) =
      value.number.bytes ++ rest := by
  have unspaced : spaces (value.number.bytes ++ rest) = [] := by
    rw [(value.number.parts rest).1]
    cases value with
    | integer length conversion value => cases conversion <;> rfl
    | pointer value => rfl
  have stop := deref_afterSpaces (value.number.bytes ++ rest)
  rw [afterSpaces_of_spaces_nil unspaced] at stop
  exact (spaces_append white stop).2

/-- The fields behind the first are scanned one by one. -/
theorem scan_moreItems
    (rest : List (Gap × Field target)) (matched : Nat)
    (assigned : List Assignment) (errnum : Errno) :
    scan target never (readFormat .text (source (moreItems rest)))
        (reference (moreItems rest))
        ⟨matched, rest.map fun pair => pair.2.destination, assigned,
          errnum⟩ =
      .ok ⟨(matched + rest.length : Nat),
        assigned ++ rest.map fun pair => pair.2.assignment, errnum⟩ := by
  induction rest generalizing matched assigned with
  | nil =>
      rw [List.map_nil, List.map_nil, List.append_nil]
      rfl
  | cons pair rest induction =>
      rcases pair with ⟨gap, field⟩
      rcases moreItems_cons gap field rest with ⟨spelled, printed⟩
      have count : gap.bytes.length = gap.bytes.length - 1 + 1 := by
        have positive := List.length_pos_of_ne_nil gap.nonempty
        omega
      rw [spelled, printed, readFormat_blanks gap.white, count, scan_white,
        field.value.afterSpaces_number gap.white,
        field.value.readFormat_item, List.map_cons, List.map_cons]
      have scanned := field.value.scan_number field.address
        (moreItems_ended rest) (readFormat .text (source (moreItems rest)))
        matched (rest.map fun pair => pair.2.destination) assigned errnum
      rw [Field.destination, scanned, induction, List.append_assoc,
        List.length_cons, Nat.add_assoc, Nat.add_comm 1]
      rfl

/-- The whole text is scanned as the values it was printed from. -/
theorem scan_joined (joined : Joined target) (errnum : Errno) :
    scan target never (directives joined.format) joined.text
        ⟨0, joined.destinations, [], errnum⟩ =
      .ok ⟨joined.fields.length, joined.fields.map Field.assignment,
        errnum⟩ := by
  have printed := joined.text_eq
  rcases joined with ⟨field, rest⟩
  have spelled : directives (Joined.format ⟨field, rest⟩) =
      readFormat .text (field.value.item.source ++
        source (moreItems rest)) := rfl
  have destinations : Joined.destinations ⟨field, rest⟩ =
      field.destination :: rest.map fun pair => pair.2.destination := by
    rw [Joined.destinations, Joined.fields, List.map_cons, List.map_map]
    rfl
  have scanned := field.value.scan_number field.address
    (moreItems_ended rest) (readFormat .text (source (moreItems rest))) 0
    (rest.map fun pair => pair.2.destination) [] errnum
  rw [spelled, printed, field.value.readFormat_item, destinations,
    Field.destination, scanned, scan_moreItems, Joined.fields,
    List.map_cons, List.map_map, List.length_cons, List.length_map,
    Nat.zero_add, Nat.add_comm 1]
  rfl

/-! ## The round trip -/

/-- No value prints a NUL. -/
theorem Value.number_noNul (value : Value target) :
    (0 : Byte) ∉ value.number.bytes := by
  cases value with
  | integer length conversion value =>
      have signed (number : Int) :
          (0 : Byte) ∉ (decimalNumber number).bytes := by
        rw [(decimalNumber_eq number).1]
        exact signedDecimal_noNul number
      cases conversion with
      | signed => exact signed value.toInt
      | unsigned => exact signed value.toNat
      | hex => exact hexadecimal_noNul value.toNat
  | pointer value =>
      have split : (Value.pointer value).number.bytes =
          ascii "0x" ++ hexadecimal value.toNat := rfl
      rw [split]
      intro member
      rcases List.mem_append.mp member with inRadix | inDigits
      · exact absurd inRadix (by decide)
      · exact hexadecimal_noNul value.toNat inDigits

theorem moreItems_noNul (rest : List (Gap × Field target)) :
    (0 : Byte) ∉ reference (moreItems rest) := by
  induction rest with
  | nil => exact List.not_mem_nil
  | cons pair rest induction =>
      rcases pair with ⟨gap, field⟩
      rw [(moreItems_cons gap field rest).2]
      intro member
      rcases List.mem_append.mp member with inGap | behind
      · exact (plain_of_white (gap.white 0 inGap)).1 rfl
      · rcases List.mem_append.mp behind with inNumber | later
        · exact field.value.number_noNul inNumber
        · exact induction later

/-- The printed text as a C string. -/
def Joined.string (joined : Joined target) : CString where
  bytes := joined.text
  noNul := by
    rw [joined.text_eq]
    intro member
    rcases List.mem_append.mp member with inNumber | later
    · exact joined.first.value.number_noNul inNumber
    · exact moreItems_noNul joined.rest later

/--
Printing values with `vsprintf` and scanning the string that is left with
`vsscanf` and the same format counts every directive, stores the values back
and leaves `errno` alone.
-/
theorem vsscanf_vsprintf
    (joined : Joined target) (short : joined.text.length < 2 ^ 31)
    (buf : Nat → Byte) (errnum : Errno) :
    ∃ written string,
      vsprintf joined.format joined.values errnum = .ok written ∧
        HoldsString (bufferAfter buf written) string ∧
        vsscanf target string joined.format joined.destinations errnum =
          .ok ⟨joined.fields.length, joined.fields.map Field.assignment,
            errnum⟩ := by
  rcases piecesOf_items errnum joined.items [] [] with
    ⟨list, resolved, rendered⟩
  rw [List.append_nil] at resolved
  rw [List.nil_append] at rendered
  have pieces : Pieces.pieces errnum joined.format joined.values =
      .ok list := by
    have opened : Pieces.piecesOf errnum
        (Nolibc.Stdio.Directives.directives joined.format)
        joined.values = .ok (list, []) := resolved
    rw [Pieces.pieces, opened]
    rfl
  have total : (Pieces.render list).length < 2 ^ 31 := by
    rw [rendered]
    exact short
  have wide : 2 ^ 31 ≤ 2 ^ target.longBits := by
    rcases target.longBits_cases with bits | bits <;> rw [bits] <;> decide
  refine ⟨_, joined.string, vsprintf_eq pieces total, ?_, ?_⟩
  · rw [rendered]
    exact holdsString_of_stores buf _ joined.string
      (Nat.le_trans (Nat.le_of_lt short) wide)
  · rw [vsscanf_eq]
    exact scan_joined joined errnum

/-- Three fields of `%d`, `%lx` and `%p`, the first of them `INT_MIN`. -/
def sampleJoined : Joined .x86_64 where
  first := ⟨.integer .none .signed 0x80000000, 0⟩
  rest :=
    [(⟨ascii " \n", by decide, by decide⟩, ⟨.integer .l .hex 255, 8⟩),
      (⟨ascii "\t", by decide, by decide⟩, ⟨.pointer 4096, 16⟩)]

example : sampleJoined.format.bytes = ascii "%d \n%lx\t%p" := by decide

theorem vsscanf_vsprintf_sample :
    ∃ written string,
      vsprintf sampleJoined.format sampleJoined.values 0 = .ok written ∧
        HoldsString (bufferAfter (fun _ => 0xAA) written) string ∧
        vsscanf .x86_64 string sampleJoined.format
            sampleJoined.destinations 0 =
          .ok ⟨sampleJoined.fields.length,
            sampleJoined.fields.map Field.assignment, 0⟩ :=
  vsscanf_vsprintf sampleJoined (by decide) (fun _ => 0xAA) 0

end Nolibc.Stdio.RoundTrip

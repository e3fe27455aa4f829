import Mathlib.Order.Bounds.Basic
import Nolibc.Stdlib.Saturation

/-!
# The grammar of numbers

What forms a number in a base, as a grammar that knows nothing of the code:
white space, a sign, a base prefix and a run of digits.  `NumberText` is a
text of the grammar, with the conditions as its fields.

Two readings are compared with it.  `reading` is that of the code, and
`subject` that of the C standard; both find the parts of a text that starts
with a number, and differ where a prefix has no digit behind it.
-/

set_option autoImplicit false

namespace Nolibc.Stdlib.NumberGrammar

open Nolibc.Machine
open Nolibc.Ctype
open Nolibc.Foundation.Horner
open Nolibc.Stdlib.Strtox
open Nolibc.Stdlib.Saturation

/-! ## The grammar -/

/-- A run of digits of a base. -/
def Digits (base : Nat) (run : List Byte) : Prop :=
  ∀ c ∈ run, (digitIn base c).isSome = true

instance (base : Nat) (run : List Byte) : Decidable (Digits base run) :=
  inferInstanceAs (Decidable (∀ c ∈ run, _))

/-- The values of a run of digits. -/
def worths (base : Nat) (run : List Byte) : List Nat :=
  run.filterMap (digitIn base)

/-- The sign in front of a number, if there is one. -/
inductive Sign where
  | none
  | plus
  | minus
  deriving DecidableEq, Repr

/-- A sign as it is written. -/
def Sign.bytes : Sign → List Byte
  | .none => []
  | .plus => ['+'.toUInt8]
  | .minus => ['-'.toUInt8]

/-- Whether a text starts with `0x` or `0X`. -/
def StartsWithX (text : List Byte) : Prop :=
  ascii "0x" <+: text ∨ ascii "0X" <+: text

instance (text : List Byte) : Decidable (StartsWithX text) :=
  inferInstanceAs (Decidable (_ ∨ _))

/-- The base in effect, and the prefix, for the base asked for and a run. -/
inductive Spelling (base : Nat) (run : List Byte) :
    Nat → List Byte → Prop where
  | hexadecimal {radix : List Byte}
      (selected : base = 0 ∨ base = 16)
      (letter : radix = ascii "0x" ∨ radix = ascii "0X") :
      Spelling base run 16 radix
  | octal (automatic : base = 0) (zero : deref run = '0'.toUInt8) :
      Spelling base run 8 []
  | decimal (automatic : base = 0) (nonzero : deref run ≠ '0'.toUInt8) :
      Spelling base run 10 []
  | given (fixed : base ≠ 0) : Spelling base run base []

theorem Spelling.radix_cases
    {base effective : Nat} {run radix : List Byte}
    (spelling : Spelling base run effective radix) :
    radix = [] ∨ radix = ascii "0x" ∨ radix = ascii "0X" := by
  cases spelling with
  | hexadecimal selected letter => exact Or.inr letter
  | octal automatic zero => exact Or.inl rfl
  | decimal automatic nonzero => exact Or.inl rfl
  | given fixed => exact Or.inl rfl

/-- A number in a base, as it is written. -/
structure NumberText (base : Nat) where
  blanks : List Byte
  sign : Sign
  effective : Nat
  radix : List Byte
  run : List Byte
  white : ∀ c ∈ blanks, c ∈ whiteSpace
  spelling : Spelling base run effective radix
  nonempty : run ≠ []
  digits : Digits effective run

namespace NumberText

variable {base : Nat}

/-- A number as it is written. -/
def bytes (number : NumberText base) : List Byte :=
  number.blanks ++ (number.sign.bytes ++ (number.radix ++ number.run))

/-- The number without its sign. -/
def magnitude (number : NumberText base) : Nat :=
  horner number.effective 0 (worths number.effective number.run)

/-- The number has a minus sign. -/
def minus (number : NumberText base) : Bool :=
  decide (number.sign = .minus)

end NumberText

/-! ## Digits -/

theorem digitWorth_white :
    ∀ c ∈ whiteSpace, digitWorth c = none := by
  decide

theorem digitIn_of_worth
    {base : Nat} {c : Byte} (worthless : digitWorth c = none) :
    digitIn base c = none := by
  rw [digitIn, worthless, Option.filter_none]

theorem worths_length
    {base : Nat} {run : List Byte} (all : Digits base run) :
    (worths base run).length = run.length := by
  induction run with
  | nil => rfl
  | cons c run induction =>
      have later := induction fun other member =>
        all other (List.mem_cons_of_mem c member)
      rcases Option.isSome_iff_exists.mp (all c List.mem_cons_self) with
        ⟨digit, worth⟩
      rw [worths, List.filterMap_cons_some worth, List.length_cons,
        List.length_cons]
      exact congrArg (· + 1) later

/-- A run of digits is read whole. -/
theorem digits_append
    {base : Nat} {run : List Byte} (all : Digits base run)
    (rest : List Byte) :
    Strtox.digits base (run ++ rest) =
      worths base run ++ Strtox.digits base rest := by
  induction run with
  | nil => rfl
  | cons c run induction =>
      have later := induction fun other member =>
        all other (List.mem_cons_of_mem c member)
      rcases Option.isSome_iff_exists.mp (all c List.mem_cons_self) with
        ⟨digit, worth⟩
      rw [worths, List.filterMap_cons_some worth, List.cons_append,
        Strtox.digits, worth]
      exact congrArg (digit :: ·) later

/-- A text whose first byte is no digit has none. -/
theorem digits_eq_nil_iff (base : Nat) (text : List Byte) :
    Strtox.digits base text = [] ↔ digitIn base (deref text) = none := by
  cases text with
  | nil =>
      have worthless : digitWorth 0 = none := by decide
      rw [deref_nil, digitIn_of_worth worthless]
      simp [Strtox.digits]
  | cons c rest =>
      rw [deref_cons, Strtox.digits]
      cases digitIn base c with
      | none => simp
      | some digit => simp

/-- The digits of a run end where it ends. -/
theorem digits_run
    {base : Nat} {run rest : List Byte} (all : Digits base run)
    (stop : digitIn base (deref rest) = none) :
    Strtox.digits base (run ++ rest) = worths base run := by
  rw [digits_append all, (digits_eq_nil_iff base rest).mpr stop,
    List.append_nil]

/-- The digits of a text are those of its longest run. -/
theorem digits_split (base : Nat) (text : List Byte) :
    ∃ run rest, text = run ++ rest ∧ Digits base run ∧
      digitIn base (deref rest) = none := by
  induction text with
  | nil =>
      have worthless : digitWorth 0 = none := by decide
      refine ⟨[], [], rfl, ?_, digitIn_of_worth worthless⟩
      intro c member
      exact absurd member List.not_mem_nil
  | cons c text induction =>
      cases worth : digitIn base c with
      | none =>
          refine ⟨[], c :: text, rfl, ?_, worth⟩
          intro other member
          exact absurd member List.not_mem_nil
      | some digit =>
          rcases induction with ⟨run, rest, split, all, stop⟩
          refine ⟨c :: run, rest, by rw [split, List.cons_append], ?_,
            stop⟩
          intro other member
          rcases List.mem_cons.mp member with rfl | inRun
          · rw [worth]
            rfl
          · exact all other inRun

/-! ## The parts of a text -/

/-- What is behind the white space and the sign of a text. -/
def unsigned (text : List Byte) : List Byte :=
  (afterSpaces text).drop (signLength (afterSpaces text))

/-- A text that does not start with white space has none in front. -/
theorem spaces_of_stop
    {rest : List Byte} (stop : deref rest ∉ whiteSpace) :
    spaces rest = [] ∧ afterSpaces rest = rest := by
  cases rest with
  | nil => exact ⟨rfl, rfl⟩
  | cons c rest =>
      have different : ¬ decide (c ∈ whiteSpace) = true :=
        fun member => stop (of_decide_eq_true member)
      exact ⟨List.takeWhile_cons_of_neg different,
        List.dropWhile_cons_of_neg different⟩

theorem spaces_append
    {blanks rest : List Byte} (white : ∀ c ∈ blanks, c ∈ whiteSpace)
    (stop : deref rest ∉ whiteSpace) :
    spaces (blanks ++ rest) = blanks ∧ afterSpaces (blanks ++ rest) = rest := by
  have all : ∀ c ∈ blanks, decide (c ∈ whiteSpace) = true :=
    fun c member => decide_eq_true (white c member)
  rcases spaces_of_stop stop with ⟨front, behind⟩
  rw [spaces] at front
  rw [afterSpaces] at behind
  constructor
  · rw [spaces, List.takeWhile_append_of_pos all, front, List.append_nil]
  · rw [afterSpaces, List.dropWhile_append_of_pos all, behind]

/-- A digit is neither white space nor a sign. -/
theorem not_blank_of_worth
    {c : Byte} (worth : (digitWorth c).isSome = true) :
    c ∉ whiteSpace ∧ c ≠ '+'.toUInt8 ∧ c ≠ '-'.toUInt8 := by
  refine ⟨?_, ?_, ?_⟩
  · intro white
    rw [digitWorth_white c white] at worth
    exact absurd worth (by decide)
  · rintro rfl
    exact absurd worth (by decide)
  · rintro rfl
    exact absurd worth (by decide)

theorem worth_of_digitIn
    {base : Nat} {c : Byte} (digit : (digitIn base c).isSome = true) :
    (digitWorth c).isSome = true := by
  cases worth : digitWorth c with
  | none =>
      rw [digitIn_of_worth worth] at digit
      exact digit
  | some value => rfl

/-- Behind a sign stands a byte that is neither white space nor a sign. -/
theorem signed_parts
    (sign : Sign) {body : List Byte} (plain : deref body ∉ whiteSpace)
    (noPlus : deref body ≠ '+'.toUInt8)
    (noMinus : deref body ≠ '-'.toUInt8) :
    deref (sign.bytes ++ body) ∉ whiteSpace ∧
      signLength (sign.bytes ++ body) = sign.bytes.length ∧
      (deref (sign.bytes ++ body) = '-'.toUInt8 ↔ sign = .minus) := by
  cases sign with
  | none =>
      refine ⟨plain, ?_, ?_⟩
      · exact if_neg (not_or.mpr ⟨noPlus, noMinus⟩)
      · constructor
        · intro minus
          exact absurd minus noMinus
        · intro impossible
          exact absurd impossible (by decide)
  | plus =>
      refine ⟨?_, if_pos (Or.inl rfl), ?_⟩
      · exact (by decide : '+'.toUInt8 ∉ whiteSpace)
      · constructor
        · intro impossible
          exact absurd impossible (by decide : '+'.toUInt8 ≠ '-'.toUInt8)
        · intro impossible
          exact absurd impossible (by decide)
  | minus =>
      refine ⟨?_, if_pos (Or.inr rfl), fun _ => rfl, fun _ => rfl⟩
      exact (by decide : '-'.toUInt8 ∉ whiteSpace)

namespace NumberText

variable {base : Nat} (number : NumberText base)

/-- The first byte behind the sign is a digit of some base. -/
theorem worth_first (rest : List Byte) :
    (digitWorth (deref (number.radix ++ (number.run ++ rest)))).isSome =
      true := by
  have inRun : (digitWorth (deref (number.run ++ rest))).isSome = true := by
    cases run : number.run with
    | nil => exact absurd run number.nonempty
    | cons c more =>
        apply worth_of_digitIn
        apply number.digits
        rw [run]
        exact List.mem_cons_self
  rcases number.spelling.radix_cases with none | lower | upper
  · rw [none]
    exact inRun
  · rw [lower]
    exact (by decide : (digitWorth '0'.toUInt8).isSome = true)
  · rw [upper]
    exact (by decide : (digitWorth '0'.toUInt8).isSome = true)

/-- A text that starts with a number has the parts of the number. -/
theorem parts (rest : List Byte) :
    spaces (number.bytes ++ rest) = number.blanks ∧
      signLength (afterSpaces (number.bytes ++ rest)) =
        number.sign.bytes.length ∧
      (deref (afterSpaces (number.bytes ++ rest)) = '-'.toUInt8 ↔
        number.sign = .minus) ∧
      unsigned (number.bytes ++ rest) =
        number.radix ++ (number.run ++ rest) := by
  rcases not_blank_of_worth (number.worth_first rest) with
    ⟨plain, noPlus, noMinus⟩
  rcases signed_parts number.sign plain noPlus noMinus with
    ⟨stop, signed, minus⟩
  have split : number.bytes ++ rest =
      number.blanks ++ (number.sign.bytes ++
        (number.radix ++ (number.run ++ rest))) := by
    simp only [bytes, List.append_assoc]
  rcases spaces_append number.white stop with ⟨front, behind⟩
  rw [unsigned, split, front, behind, signed]
  exact ⟨rfl, rfl, minus, List.drop_left⟩

end NumberText

/-! ## The reading of the code -/

/-- How many bytes the code takes for the prefix and the digits. -/
def codeLength (base : Nat) (text : List Byte) : Nat :=
  (codePrefix base text).2 + (codeNumeral base text).digits.length

theorem reading_eq (base : Nat) (text : List Byte) :
    (reading base text).numeral = codeNumeral base (unsigned text) ∧
      (reading base text).consumed =
        (spaces text).length + signLength (afterSpaces text) +
          codeLength base (unsigned text) := by
  refine ⟨rfl, ?_⟩
  rw [codeLength, ← Nat.add_assoc]
  rfl

/-- A prefix of the base asked for is seen when a run starts the text. -/
theorem startsWithX_of_letter
    {radix : List Byte} (letter : radix = ascii "0x" ∨ radix = ascii "0X")
    (rest : List Byte) :
    StartsWithX (radix ++ rest) ∧ radix.length = 2 := by
  rcases letter with rfl | rfl
  · exact ⟨Or.inl (List.prefix_append _ rest), rfl⟩
  · exact ⟨Or.inr (List.prefix_append _ rest), rfl⟩

/--
The code reads a number that is delimited: the next byte is no digit of its
base, and where no prefix is meant nothing looks like one.
-/
theorem codeNumeral_of_spelling
    {base effective : Nat} {run radix rest : List Byte}
    (spelling : Spelling base run effective radix) (nonempty : run ≠ [])
    (all : Digits effective run)
    (stop : digitIn effective (deref rest) = none)
    (plain : radix = [] → base = 0 ∨ base = 16 →
      ¬ StartsWithX (run ++ rest)) :
    (codeNumeral base (radix ++ (run ++ rest))).base = effective ∧
      magnitude (codeNumeral base (radix ++ (run ++ rest))) =
        horner effective 0 (worths effective run) ∧
      codeLength base (radix ++ (run ++ rest)) =
        radix.length + run.length := by
  have read := digits_run all stop
  have length := worths_length all
  cases spelling with
  | hexadecimal selected letter =>
      rcases startsWithX_of_letter letter (run ++ rest) with
        ⟨starts, two⟩
      have found : codePrefix base (radix ++ (run ++ rest)) = (16, 2) :=
        if_pos ⟨selected, starts⟩
      have behind : (radix ++ (run ++ rest)).drop 2 = run ++ rest :=
        List.drop_left' two
      rw [codeLength, magnitude, codeNumeral, found]
      simp only [behind, read, length, two]
      exact ⟨trivial, trivial, trivial⟩
  | octal automatic zero =>
      have noLetter := plain rfl (Or.inl automatic)
      cases run with
      | nil => exact absurd rfl nonempty
      | cons c run =>
          rw [deref_cons] at zero
          subst zero
          have starts : ascii "0" <+: '0'.toUInt8 :: run ++ rest :=
            List.prefix_append ['0'.toUInt8] (run ++ rest)
          have found : codePrefix base ('0'.toUInt8 :: run ++ rest) =
              (8, 1) := by
            rw [codePrefix, if_neg fun both => noLetter both.2,
              if_pos automatic, if_pos starts]
          have zeroWorth : digitIn 8 '0'.toUInt8 = some 0 :=
            digitIn_zero (by decide)
          rw [worths, List.filterMap_cons_some zeroWorth,
            List.cons_append, Strtox.digits, zeroWorth,
            List.cons.injEq] at read
          rw [worths, List.filterMap_cons_some zeroWorth,
            List.length_cons, List.length_cons] at length
          rw [List.nil_append, codeLength, magnitude, codeNumeral, found,
            worths, List.filterMap_cons_some zeroWorth]
          simp only [List.cons_append, List.drop_succ_cons, List.drop_zero,
            read.2, horner, List.length_cons, List.length_nil]
          refine ⟨trivial, trivial, ?_⟩
          omega
  | decimal automatic nonzero =>
      have noLetter := plain rfl (Or.inl automatic)
      have other : ¬ ascii "0" <+: run ++ rest := by
        rwa [← deref_eq_zero_char_iff, deref_append nonempty]
      have found : codePrefix base (run ++ rest) = (10, 0) := by
        rw [codePrefix, if_neg fun both => noLetter both.2,
          if_pos automatic, if_neg other]
      rw [List.nil_append, codeLength, magnitude, codeNumeral, found]
      simp only [List.drop_zero, read, length, List.length_nil]
      exact ⟨trivial, trivial, trivial⟩
  | given fixed =>
      have noLetter : ¬ ((base = 0 ∨ base = 16) ∧
          StartsWithX (run ++ rest)) :=
        fun both => plain rfl both.1 both.2
      have found : codePrefix base (run ++ rest) = (base, 0) :=
        (if_neg noLetter).trans (if_neg fixed)
      rw [List.nil_append, codeLength, magnitude, codeNumeral, found]
      simp only [List.drop_zero, read, length, List.length_nil]
      exact ⟨trivial, trivial, trivial⟩

/-! ## The reading of the standard -/

/-- A prefix without a digit behind it, in a base that has the prefix. -/
def LonePrefix (base : Nat) (text : List Byte) : Prop :=
  (base = 0 ∨ base = 16) ∧ StartsWithX text ∧
    Strtox.digits 16 (text.drop 2) = []

instance (base : Nat) (text : List Byte) : Decidable (LonePrefix base text) :=
  inferInstanceAs (Decidable (_ ∧ _))

/-- How many bytes the prefix and the digits of the numeral take. -/
def numeralLength (base : Nat) (text : List Byte) : Nat :=
  if (base = 0 ∨ base = 16) ∧ startsHexadecimal text then
    2 + (Strtox.digits 16 (text.drop 2)).length
  else
    (numeral base text).digits.length

/-- The code takes as many bytes as the numeral has, unless it is misled. -/
theorem codeLength_eq (base : Nat) (text : List Byte) :
    codeLength base text =
      if LonePrefix base text then
        2
      else
        numeralLength base text := by
  by_cases letter : (base = 0 ∨ base = 16) ∧ StartsWithX text
  · have found : codePrefix base text = (16, 2) := if_pos letter
    rw [codeLength, codeNumeral, found]
    by_cases lone : Strtox.digits 16 (text.drop 2) = []
    · rw [if_pos ⟨letter.1, letter.2, lone⟩, lone]
      rfl
    · have accepted : (base = 0 ∨ base = 16) ∧ startsHexadecimal text :=
        ⟨letter.1, letter.2, lone⟩
      rw [if_neg fun misled : LonePrefix base text => lone misled.2.2,
        numeralLength, if_pos accepted]
  · have rejected : ¬ ((base = 0 ∨ base = 16) ∧ startsHexadecimal text) :=
      fun accepted => letter ⟨accepted.1, accepted.2.1⟩
    rw [if_neg fun misled : LonePrefix base text =>
      letter ⟨misled.1, misled.2.1⟩, numeralLength, if_neg rejected]
    by_cases automatic : base = 0
    · by_cases zero : deref text = '0'.toUInt8
      · have starts := (deref_eq_zero_char_iff text).mp zero
        have found : codePrefix base text = (8, 1) :=
          (if_neg letter).trans ((if_pos automatic).trans (if_pos starts))
        rw [codeLength, codeNumeral, found, numeral, if_neg rejected,
          if_pos automatic, if_pos zero]
        cases text with
        | nil => exact absurd zero (by decide)
        | cons c text =>
            rw [deref_cons] at zero
            rw [zero, Strtox.digits, digitIn_zero (by decide)]
            exact Nat.add_comm 1 _
      · have starts := (deref_eq_zero_char_iff text).not.mp zero
        have found : codePrefix base text = (10, 0) :=
          (if_neg letter).trans ((if_pos automatic).trans (if_neg starts))
        rw [codeLength, codeNumeral, found, numeral, if_neg rejected,
          if_pos automatic, if_neg zero]
        exact Nat.zero_add _
    · have found : codePrefix base text = (base, 0) :=
        (if_neg letter).trans (if_neg automatic)
      rw [codeLength, codeNumeral, found, numeral, if_neg rejected,
        if_neg automatic]
      exact Nat.zero_add _

/-- A text of which the numeral has digits starts with a spelled number. -/
theorem exists_spelling
    (base : Nat) {text : List Byte}
    (found : (numeral base text).digits ≠ []) :
    ∃ effective radix run rest,
      text = radix ++ (run ++ rest) ∧
        Spelling base run effective radix ∧ run ≠ [] ∧
        Digits effective run ∧
        radix.length + run.length = numeralLength base text := by
  -- the run of a base at the start of some part of the text
  have run_of {effective : Nat} {part : List Byte}
      (present : Strtox.digits effective part ≠ []) :
      ∃ run rest, part = run ++ rest ∧ run ≠ [] ∧
        Digits effective run ∧ deref run = deref part ∧
        run.length = (Strtox.digits effective part).length := by
    rcases digits_split effective part with ⟨run, rest, rfl, all, stop⟩
    have read := digits_run all stop
    have nonempty : run ≠ [] := by
      rintro rfl
      exact present read
    exact ⟨run, rest, rfl, nonempty, all, (deref_append nonempty rest).symm,
      by rw [read, worths_length all]⟩
  unfold numeralLength
  split_ifs with accepted
  · rcases run_of accepted.2.2 with
      ⟨run, rest, split, nonempty, all, _, length⟩
    rcases accepted with ⟨selected, letter, _⟩
    have divided : ∃ radix, (radix = ascii "0x" ∨ radix = ascii "0X") ∧
        text = radix ++ text.drop 2 := by
      rcases letter with ⟨behind, rfl⟩ | ⟨behind, rfl⟩
      · exact ⟨ascii "0x", Or.inl rfl, rfl⟩
      · exact ⟨ascii "0X", Or.inr rfl, rfl⟩
    rcases divided with ⟨radix, spelled, whole⟩
    refine ⟨16, radix, run, rest, ?_, .hexadecimal selected spelled,
      nonempty, all, ?_⟩
    · rw [← split]
      exact whole
    · rw [(startsWithX_of_letter spelled []).2, length]
  · rw [numeral, if_neg accepted] at found ⊢
    by_cases automatic : base = 0
    · rw [if_pos automatic] at found ⊢
      by_cases zero : deref text = '0'.toUInt8
      · rw [if_pos zero] at found ⊢
        rcases run_of found with
          ⟨run, rest, split, nonempty, all, first, length⟩
        exact ⟨8, [], run, rest, split,
          .octal automatic (first.trans zero), nonempty, all,
          (Nat.zero_add _).trans length⟩
      · rw [if_neg zero] at found ⊢
        rcases run_of found with
          ⟨run, rest, split, nonempty, all, first, length⟩
        have nonzero : deref run ≠ '0'.toUInt8 := first ▸ zero
        exact ⟨10, [], run, rest, split, .decimal automatic nonzero,
          nonempty, all, (Nat.zero_add _).trans length⟩
    · rw [if_neg automatic] at found ⊢
      rcases run_of found with
        ⟨run, rest, split, nonempty, all, _, length⟩
      exact ⟨base, [], run, rest, split, .given automatic, nonempty, all,
        (Nat.zero_add _).trans length⟩

theorem run_length_le
    {base : Nat} {run : List Byte} (all : Digits base run)
    (rest : List Byte) :
    run.length ≤ (Strtox.digits base (run ++ rest)).length := by
  rw [digits_append all, List.length_append, worths_length all]
  exact Nat.le_add_right _ _

/-- Before a letter `x` there is room for a single digit. -/
theorem run_length_le_one
    {base : Nat} (positive : 0 < base) (small : base ≤ 16)
    {run rest : List Byte} (all : Digits base run)
    (letter : StartsWithX (run ++ rest)) :
    run.length ≤ 1 := by
  have fits := run_length_le all rest
  rw [digits_zero_x positive small letter] at fits
  exact fits

/-- No spelled number at the start of a text is longer than its numeral. -/
theorem spelling_length_le
    {base effective : Nat} {run radix : List Byte} (rest : List Byte)
    (spelling : Spelling base run effective radix) (nonempty : run ≠ [])
    (all : Digits effective run) :
    radix.length + run.length ≤
      numeralLength base (radix ++ (run ++ rest)) := by
  have fits := run_length_le all rest
  have positive := List.length_pos_of_ne_nil nonempty
  cases spelling with
  | hexadecimal selected letter =>
      rcases startsWithX_of_letter letter (run ++ rest) with
        ⟨starts, two⟩
      have behind : (radix ++ (run ++ rest)).drop 2 = run ++ rest :=
        List.drop_left' two
      have accepted : (base = 0 ∨ base = 16) ∧
          startsHexadecimal (radix ++ (run ++ rest)) := by
        refine ⟨selected, starts, ?_⟩
        rw [behind]
        exact List.ne_nil_of_length_pos (Nat.lt_of_lt_of_le positive fits)
      rw [numeralLength, if_pos accepted, behind]
      omega
  | octal automatic zero =>
      rw [List.nil_append, List.length_nil, Nat.zero_add, numeralLength]
      split_ifs with accepted
      · have short := run_length_le_one (by decide) (by decide) all
          accepted.2.1
        omega
      · have first : deref (run ++ rest) = '0'.toUInt8 := by
          rw [deref_append nonempty, zero]
        rw [numeral, if_neg accepted, if_pos automatic, if_pos first]
        exact fits
  | decimal automatic nonzero =>
      have first : deref (run ++ rest) ≠ '0'.toUInt8 := by
        rwa [deref_append nonempty]
      have rejected : ¬ ((base = 0 ∨ base = 16) ∧
          startsHexadecimal (run ++ rest)) := by
        rintro ⟨_, ⟨behind, split⟩ | ⟨behind, split⟩, _⟩
        · exact first (split ▸ rfl)
        · exact first (split ▸ rfl)
      rw [List.nil_append, List.length_nil, Nat.zero_add, numeralLength,
        if_neg rejected, numeral, if_neg rejected, if_pos automatic,
        if_neg first]
      exact fits
  | given fixed =>
      rw [List.nil_append, List.length_nil, Nat.zero_add, numeralLength]
      split_ifs with accepted
      · rcases accepted.1 with automatic | sixteen
        · exact absurd automatic fixed
        · have short := run_length_le_one (Nat.pos_of_ne_zero fixed)
            (Nat.le_of_eq sixteen) all accepted.2.1
          omega
      · rw [numeral, if_neg accepted, if_neg fixed]
        exact fits

/-! ## The longest number of a text -/

/-- The lengths of the numbers a text starts with. -/
def numberLengths (base : Nat) (text : List Byte) : Set Nat :=
  { length | ∃ (number : NumberText base) (rest : List Byte),
      text = number.bytes ++ rest ∧ length = number.bytes.length }

/-- A text is its white space, a sign and what is behind them. -/
theorem sign_split (text : List Byte) :
    ∃ sign : Sign,
      text = spaces text ++ (sign.bytes ++ unsigned text) ∧
        sign.bytes.length = signLength (afterSpaces text) := by
  have whole : text = spaces text ++ afterSpaces text :=
    (List.takeWhile_append_dropWhile).symm
  have signed : ∃ sign : Sign,
      afterSpaces text = sign.bytes ++ unsigned text ∧
        sign.bytes.length = signLength (afterSpaces text) := by
    unfold unsigned
    cases afterSpaces text with
    | nil => exact ⟨.none, rfl, rfl⟩
    | cons c rest =>
        by_cases plus : c = '+'.toUInt8
        · subst plus
          exact ⟨.plus, rfl, rfl⟩
        · by_cases minus : c = '-'.toUInt8
          · subst minus
            exact ⟨.minus, rfl, rfl⟩
          · have unmarked : signLength (c :: rest) = 0 :=
              if_neg (not_or.mpr ⟨plus, minus⟩)
            rw [unmarked]
            exact ⟨.none, rfl, rfl⟩
  rcases signed with ⟨sign, split, length⟩
  refine ⟨sign, ?_, length⟩
  rw [← split]
  exact whole

theorem numeralLength_of_digits_nil
    {base : Nat} {text : List Byte}
    (none : (numeral base text).digits = []) :
    numeralLength base text = 0 := by
  unfold numeralLength
  split_ifs with accepted
  · rw [numeral, if_pos accepted] at none
    exact absurd none accepted.2.2
  · rw [none]
    rfl

/-- The white space, the sign and the numeral are the longest number. -/
theorem isGreatest_numberLengths
    {base : Nat} {text : List Byte}
    (found : (subject base text).numeral.digits ≠ []) :
    IsGreatest (numberLengths base text)
      ((spaces text).length + signLength (afterSpaces text) +
        numeralLength base (unsigned text)) := by
  constructor
  · rcases sign_split text with ⟨sign, split, signed⟩
    rcases exists_spelling base found with
      ⟨effective, radix, run, rest, body, spelling, nonempty, all, length⟩
    have white : ∀ c ∈ spaces text, c ∈ whiteSpace := fun c member =>
      of_decide_eq_true (List.all_eq_true.mp List.all_takeWhile c member)
    refine ⟨⟨spaces text, sign, effective, radix, run, white, spelling,
      nonempty, all⟩, rest, ?_, ?_⟩
    · have behind : unsigned text = radix ++ (run ++ rest) := body
      rw [behind] at split
      rw [NumberText.bytes, List.append_assoc, List.append_assoc,
        List.append_assoc]
      exact split
    · have same : numeralLength base (unsigned text) =
          radix.length + run.length := length.symm
      rw [same, ← signed]
      simp only [NumberText.bytes, List.length_append, Nat.add_assoc]
  · rintro length ⟨number, rest, rfl, rfl⟩
    rcases number.parts rest with ⟨blanks, signed, _, behind⟩
    have bounded := spelling_length_le rest number.spelling number.nonempty
      number.digits
    rw [blanks, signed, behind, NumberText.bytes, List.length_append,
      List.length_append, List.length_append]
    omega

/-- Without a digit a text starts with no number. -/
theorem numberLengths_eq_empty
    {base : Nat} {text : List Byte}
    (none : (subject base text).numeral.digits = []) :
    numberLengths base text = ∅ := by
  rw [Set.eq_empty_iff_forall_notMem]
  rintro length ⟨number, rest, rfl, rfl⟩
  rcases number.parts rest with ⟨_, _, _, behind⟩
  have bounded := spelling_length_le rest number.spelling number.nonempty
    number.digits
  have positive := List.length_pos_of_ne_nil number.nonempty
  have zero : numeralLength base (unsigned (number.bytes ++ rest)) = 0 :=
    numeralLength_of_digits_nil none
  rw [behind] at zero
  omega

end Nolibc.Stdlib.NumberGrammar

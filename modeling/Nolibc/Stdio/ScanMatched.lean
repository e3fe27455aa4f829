import Nolibc.Stdio.Scanf

/-!
# Conversions that match nothing

A number directive should end the scan when its text has no digit to convert.
`vsscanf` never compares the end pointer of the parser with where it started,
so that it stores a zero, counts it, and goes on.  `scansMatched_iff` says that
nothing else is wrong: a scan is as it should be exactly when it meets no such
directive.
-/

set_option autoImplicit false

namespace Nolibc.Stdio.ScanMatched

open Nolibc.Machine
open Nolibc.Ctype
open Nolibc.Stdlib.Strtox
open Nolibc.Stdio.Scanf

variable {target : Target}

/-! ## Matching arguments -/

/-- The object a directive stores to, if it stores. -/
def demand : Directive → Option ObjectKind
  | .number lpref letter => some (letter.kind lpref)
  | _ => none

/-- The pointers start with the ones the directives store through. -/
def MatchesDirectives (list : List Directive) (args : List Destination) :
    Prop :=
  list.filterMap demand <+: args.map Destination.kind

/-- The pointers have the types the format asks for. -/
def Matching (format : CString) (args : List Destination) : Prop :=
  MatchesDirectives (directives format) args

instance (format : CString) (args : List Destination) :
    Decidable (Matching format args) :=
  inferInstanceAs (Decidable (_ <+: _))

/-- The next pointer is there, and the others match what is left. -/
theorem number_of_matches
    {lpref : Nat} {letter : Letter} {rest : List Directive}
    {progress : Progress}
    (matching : MatchesDirectives (.number lpref letter :: rest)
      progress.args)
    (text : List Byte) :
    ∃ (after : Progress) (assignment : Assignment),
      progress.number target lpref letter text = .ok after ∧
        after.assigned = progress.assigned ++ [assignment] ∧
        MatchesDirectives rest after.args := by
  rcases progress with ⟨matched, args, assigned, errnum⟩
  cases args with
  | nil => exact absurd matching (List.cons_ne_nil _ _ ∘ List.prefix_nil.mp)
  | cons destination args =>
      have demanded : letter.kind lpref :: rest.filterMap demand <+:
          destination.kind :: args.map Destination.kind := matching
      rcases List.cons_prefix_cons.mp demanded with ⟨same, later⟩
      exact ⟨_, _, Progress.assign_eq target same.symm _ _ _ _ _ _, rfl,
        later⟩

/-! ## The scan that stops -/

/-- A text without a digit behind white space, sign and prefix. -/
def digitless (letter : Letter) (text : List Byte) : Bool :=
  decide ((reading letter.base text).numeral.digits = [])

/-- Whether the scan reaches a number directive at a text without a digit. -/
def MeetsDigitless : List Directive → List Byte → Prop
  | [], _ => False
  | .white :: rest, text => MeetsDigitless rest (afterSpaces text)
  | .literal c :: rest, text =>
      c = deref text ∧ MeetsDigitless rest (text.drop 1)
  | .percent :: rest, text =>
      '%'.toUInt8 = deref text ∧ MeetsDigitless rest (text.drop 1)
  | .number _ letter :: rest, text =>
      digitless letter text = true ∨
        MeetsDigitless rest
          (text.drop (reading letter.base text).consumed)
  | .unknown :: _, _ => False

/-- The scan of a format that stops at a directive without a digit. -/
def scanMatched (target : Target) (str format : CString)
    (args : List Destination) (errnum : Errno) : Except Fault Scanned :=
  scan target digitless (directives format) str.bytes ⟨0, args, [], errnum⟩

/--
The call counts and stores what the scan that stops does: its result is the
number of its stores, or `EOF` when the text ends or differs before the first.
-/
def ScansMatched (target : Target) (str format : CString)
    (args : List Destination) (errnum : Errno) : Prop :=
  ∃ result reference,
    vsscanf target str format args errnum = .ok result ∧
      scanMatched target str format args errnum = .ok reference ∧
      result.ret = reference.ret ∧ result.assigned = reference.assigned ∧
      (result.ret = result.assigned.length ∨
        result.ret = EOF ∧ result.assigned = [])

/-! ## Runs -/

theorem mismatch_assigned (progress : Progress) :
    progress.mismatch.assigned = progress.assigned := by
  by_cases none : progress.matched = 0
  · exact congrArg Scanned.assigned (if_pos none)
  · exact congrArg Scanned.assigned (if_neg none)

/-- With matching pointers every scan ends, and keeps what was stored. -/
theorem scan_total
    (stops : Letter → List Byte → Bool) {list : List Directive}
    (text : List Byte) (progress : Progress)
    (matching : MatchesDirectives list progress.args) :
    ∃ result, scan target stops list text progress = .ok result ∧
      progress.assigned <+: result.assigned := by
  induction list generalizing text progress with
  | nil => exact ⟨_, rfl, List.prefix_rfl⟩
  | cons directive rest induction =>
      cases directive with
      | white => exact induction (afterSpaces text) progress matching
      | literal c =>
          rw [scan]
          split
          · exact induction _ progress matching
          · exact ⟨_, rfl, ⟨[], by
              rw [mismatch_assigned, List.append_nil]⟩⟩
      | percent =>
          rw [scan]
          split
          · exact induction _ progress matching
          · exact ⟨_, rfl, List.prefix_rfl⟩
      | number lpref letter =>
          rcases number_of_matches matching text with
            ⟨after, assignment, assigned, appended, later⟩
          rw [scan]
          split
          · exact ⟨_, rfl, List.prefix_rfl⟩
          · rw [assigned]
            rcases induction
                (text.drop (reading letter.base text).consumed) after later with
              ⟨result, ended, kept⟩
            refine ⟨result, ended, ?_⟩
            rw [appended] at kept
            exact (List.prefix_append _ _).trans kept
      | unknown => exact ⟨_, rfl, List.prefix_rfl⟩

theorem number_counted
    {lpref : Nat} {letter : Letter} {text : List Byte}
    {progress after : Progress}
    (assigned : progress.number target lpref letter text = .ok after)
    (counted : progress.matched = progress.assigned.length) :
    after.matched = after.assigned.length := by
  rcases progress with ⟨matched, args, stored, errnum⟩
  cases args with
  | nil => cases assigned
  | cons destination args =>
      by_cases same : destination.kind = letter.kind lpref
      · rw [Progress.number, Progress.assign_eq target same,
          Except.ok.injEq] at assigned
        subst assigned
        simp only [List.length_append, List.length_singleton]
        exact congrArg (· + 1) counted
      · simp [Progress.number, Progress.assign, vaArg, same, bind,
          Except.bind] at assigned

/-- A scan returns the number of its stores, or `EOF` when there is none. -/
theorem scan_ret
    {stops : Letter → List Byte → Bool} {list : List Directive}
    {text : List Byte} {progress : Progress} {result : Scanned}
    (ended : scan target stops list text progress = .ok result)
    (counted : progress.matched = progress.assigned.length) :
    result.ret = result.assigned.length ∨
      result.ret = EOF ∧ result.assigned = [] := by
  have stopped : progress.done.ret = progress.done.assigned.length :=
    congrArg Int.ofNat counted
  induction list generalizing text progress with
  | nil =>
      rw [scan, Except.ok.injEq] at ended
      exact Or.inl (ended ▸ stopped)
  | cons directive rest induction =>
      cases directive with
      | white => exact induction ended counted stopped
      | literal c =>
          rw [scan] at ended
          split at ended
          · exact induction ended counted stopped
          · rw [Except.ok.injEq] at ended
            subst ended
            by_cases first : progress.matched = 0
            · rw [Progress.mismatch, if_pos first]
              rw [counted] at first
              exact Or.inr ⟨rfl, List.eq_nil_of_length_eq_zero first⟩
            · rw [Progress.mismatch, if_neg first]
              exact Or.inl stopped
      | percent =>
          rw [scan] at ended
          split at ended
          · exact induction ended counted stopped
          · rw [Except.ok.injEq] at ended
            exact Or.inl (ended ▸ stopped)
      | number lpref letter =>
          rw [scan] at ended
          split at ended
          · rw [Except.ok.injEq] at ended
            exact Or.inl (ended ▸ stopped)
          · cases assigned : progress.number target lpref letter text with
            | error fault =>
                rw [assigned] at ended
                cases ended
            | ok after =>
                rw [assigned] at ended
                have still := number_counted assigned counted
                exact induction ended still (congrArg Int.ofNat still)
      | unknown =>
          rw [scan, Except.ok.injEq] at ended
          exact Or.inl (ended ▸ stopped)

/-- Where no directive without a digit is met, stopping at them is no matter. -/
theorem scan_eq_of_not_meets
    {list : List Directive} {text : List Byte}
    (fine : ¬ MeetsDigitless list text) (progress : Progress) :
    scan target never list text progress =
      scan target digitless list text progress := by
  induction list generalizing text progress with
  | nil => rfl
  | cons directive rest induction =>
      cases directive with
      | white => exact induction fine progress
      | literal c =>
          rw [scan, scan]
          split
          case isTrue equal =>
            exact induction (fun meets => fine ⟨equal, meets⟩) progress
          case isFalse => rfl
      | percent =>
          rw [scan, scan]
          split
          case isTrue equal =>
            exact induction (fun meets => fine ⟨equal, meets⟩) progress
          case isFalse => rfl
      | number lpref letter =>
          rcases not_or.mp fine with ⟨digit, later⟩
          rw [scan, scan, if_neg digit, never,
            if_neg Bool.false_ne_true]
          cases progress.number target lpref letter text with
          | error fault => rfl
          | ok after => exact induction later after
      | unknown => rfl

/-- At a directive without a digit the code stores at least once more. -/
theorem scan_stores_more
    {list : List Directive} {text : List Byte}
    (meets : MeetsDigitless list text) (progress : Progress)
    (matching : MatchesDirectives list progress.args) :
    ∃ result reference,
      scan target never list text progress = .ok result ∧
        scan target digitless list text progress = .ok reference ∧
        reference.assigned.length < result.assigned.length := by
  induction list generalizing text progress with
  | nil => exact absurd meets id
  | cons directive rest induction =>
      cases directive with
      | white => exact induction meets progress matching
      | literal c =>
          rw [scan, scan, if_pos meets.1, if_pos meets.1]
          exact induction meets.2 progress matching
      | percent =>
          rw [scan, scan, if_pos meets.1, if_pos meets.1]
          exact induction meets.2 progress matching
      | number lpref letter =>
          rcases number_of_matches matching text with
            ⟨after, assignment, assigned, appended, later⟩
          rw [scan, scan, never, if_neg Bool.false_ne_true, assigned]
          by_cases here : digitless letter text = true
          · rw [if_pos here]
            rcases scan_total never
                (text.drop (reading letter.base text).consumed) _ later with
              ⟨result, ended, kept⟩
            refine ⟨result, _, ended, rfl, ?_⟩
            rw [appended] at kept
            have longer := kept.length_le
            rw [List.length_append, List.length_singleton] at longer
            exact longer
          · rw [if_neg here]
            exact induction (meets.resolve_left here) after later
      | unknown => exact absurd meets id

/--
A call stores and counts conversions that matched, and stops at the first that
does not, exactly when it meets no number directive at a text without a digit.
-/
theorem scansMatched_iff
    (target : Target) (str format : CString) (args : List Destination)
    (matching : Matching format args) (errnum : Errno) :
    ScansMatched target str format args errnum ↔
      ¬ MeetsDigitless (directives format) str.bytes := by
  rw [ScansMatched, vsscanf_eq, scanMatched]
  constructor
  · rintro ⟨result, reference, called, stopped, _, assigned, _⟩ meets
    rcases scan_stores_more meets ⟨0, args, [], errnum⟩ matching with
      ⟨more, fewer, ran, ended, longer⟩
    rw [ran, Except.ok.injEq] at called
    rw [ended, Except.ok.injEq] at stopped
    rw [called, stopped, assigned] at longer
    exact absurd longer (Nat.lt_irrefl _)
  · intro fine
    rcases scan_total digitless str.bytes ⟨0, args, [], errnum⟩ matching with
      ⟨result, ended, _⟩
    refine ⟨result, result, ?_, ended, rfl, rfl, scan_ret ended rfl⟩
    rw [scan_eq_of_not_meets fine]
    exact ended

/-- `%d` on letters: a zero is stored and counted. -/
theorem vsscanf_counts_letters :
    ¬ ScansMatched .x86_64 (.ofAscii "abc") (.ofAscii "%d") [⟨.int, 0⟩]
      0 := by
  rintro ⟨result, reference, called, stopped, ret, _⟩
  have computed :
      vsscanf .x86_64 (.ofAscii "abc") (.ofAscii "%d") [⟨.int, 0⟩] 0 =
        .ok ⟨1, [⟨⟨.int, 0⟩, 0⟩], 0⟩ := by
    decide
  have expected :
      scanMatched .x86_64 (.ofAscii "abc") (.ofAscii "%d") [⟨.int, 0⟩] 0 =
        .ok ⟨0, [], 0⟩ := by
    decide
  rw [computed, Except.ok.injEq] at called
  rw [expected, Except.ok.injEq] at stopped
  rw [← called, ← stopped] at ret
  exact absurd ret (by decide)

theorem scansMatched_iff_version :
    ScansMatched .arm (.ofAscii "v7.x") (.ofAscii "v%u.%lx")
        [⟨.unsignedInt, 0⟩, ⟨.unsignedLong, 8⟩] 0 ↔
      ¬ MeetsDigitless (directives (.ofAscii "v%u.%lx"))
        (CString.ofAscii "v7.x").bytes :=
  scansMatched_iff .arm (.ofAscii "v7.x") (.ofAscii "v%u.%lx")
    [⟨.unsignedInt, 0⟩, ⟨.unsignedLong, 8⟩] (by decide) 0

end Nolibc.Stdio.ScanMatched

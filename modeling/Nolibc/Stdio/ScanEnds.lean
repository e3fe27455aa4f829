import Nolibc.Stdio.ScanMatched

/-!
# How a scan ends

`vsscanf` moves one cursor over its format and one over its string, and hands
the second to a number parser that may move it over white space, a sign and a
prefix.  `Advances` says what one turn does to both, and `vsscanf_inside` that
a call ends with both of them at or before the NUL of their strings.

A call that converts nothing tells by its result whether the input ended or
differed.  The code decides this in two places, and draws the distinction in
neither: a literal always reports the end of the input, and a `%%` never does.
`reportsEof_iff` says for which inputs the result is right all the same.
-/

set_option autoImplicit false

namespace Nolibc.Stdio.ScanEnds

open Nolibc.Machine
open Nolibc.Ctype
open Nolibc.Foundation
open Nolibc.Stdlib.Strtox
open Nolibc.Stdlib.Saturation
open Nolibc.Stdlib.Conversions
open Nolibc.Stdio.Scanf
open Nolibc.Stdio.ScanMatched

variable {target : Target}

/-! ## Cursors -/

/-- A pointer to a byte of its string or to the NUL. -/
def Inside (pointer : Pointer) : Prop :=
  pointer.offset ≤ pointer.string.length

/-- A pointer into the same string, at the same place or behind it. -/
structure Ahead (first second : Pointer) : Prop where
  same : second.string = first.string
  further : first.offset ≤ second.offset
  inside : Inside second

theorem Ahead.trans
    {first second third : Pointer}
    (ahead : Ahead first second) (onward : Ahead second third) :
    Ahead first third where
  same := onward.same.trans ahead.same
  further := ahead.further.trans onward.further
  inside := onward.inside

theorem Inside.refl {pointer : Pointer} (inside : Inside pointer) :
    Ahead pointer pointer :=
  ⟨rfl, Nat.le_refl _, inside⟩

theorem Inside.points {pointer : Pointer} (inside : Inside pointer) :
    ∃ text, pointer.Points text :=
  ⟨pointer.string.bytes.drop pointer.offset,
    pointer.string.bytes.take pointer.offset,
    (List.take_append_drop _ _).symm,
    (List.length_take_of_le inside).symm⟩

theorem ahead_of_points
    {pointer : Pointer} {text : List Byte} {count : Nat}
    (points : pointer.Points text) (short : count ≤ text.length) :
    Ahead pointer (pointer.add count) := by
  rcases points with ⟨front, split, offset⟩
  refine ⟨rfl, Nat.le_add_right _ _, ?_⟩
  have total := congrArg List.length split
  rw [List.length_append] at total
  simp only [Inside, Pointer.add, CString.length]
  omega

/-- A byte that is read is the NUL, or there is another one behind it. -/
theorem Inside.load {pointer : Pointer} (inside : Inside pointer) :
    ∃ c, pointer.load = .ok c ∧
      (c ≠ 0 → Ahead pointer (pointer.add 1)) := by
  rcases inside.points with ⟨text, points⟩
  refine ⟨deref text, points.load, ?_⟩
  cases text with
  | nil => exact absurd rfl
  | cons c rest =>
      exact fun _ => ahead_of_points points (Nat.succ_le_succ (Nat.zero_le _))

/-- A loop over white space moves when it starts at some. -/
theorem spaceLoop_ahead
    (target : Target) {pointer : Pointer} (inside : Inside pointer) :
    ∃ behind, spaceLoop target pointer = .ok behind ∧
      Ahead pointer behind ∧
      ∀ c, pointer.load = .ok c → isspace (target.charToInt c) = true →
        pointer.offset < behind.offset := by
  rcases inside.points with ⟨text, points⟩
  refine ⟨_, (spaceLoop_eq target points).1,
    ahead_of_points points (List.takeWhile_prefix _).length_le, ?_⟩
  intro c loaded space
  have white := (isspace_charToInt target c).mp space
  rw [points.load, Except.ok.injEq] at loaded
  cases text with
  | nil =>
      rw [← loaded] at white
      exact absurd white (by decide)
  | cons first rest =>
      rw [deref_cons] at loaded
      rw [← loaded] at white
      rw [spaces, List.takeWhile_cons, if_pos (decide_eq_true white)]
      exact Nat.lt_add_of_pos_right (Nat.succ_pos _)

/-- The number parser leaves its end pointer in the string. -/
theorem strto_ahead
    (target : Target) {type : IntegerType} (standard : Standard type)
    {base : Nat} (legal : base ≤ 36) {nptr : Pointer}
    (inside : Inside nptr) (errnum : Errno) :
    ∃ read, strto type target nptr base errnum = .ok read ∧
      Ahead nptr read.endptr := by
  rcases inside.points with ⟨text, points⟩
  exact ⟨_, strto_points target standard legal points errnum,
    ahead_of_points points (consumed_le base text)⟩

theorem lengthPrefix_ahead {format : Pointer} (inside : Inside format) :
    ∃ lpref behind, lengthPrefix format = .ok (lpref, behind) ∧
      Ahead format behind := by
  have nonzero : 'l'.toUInt8 ≠ 0 := by decide
  rcases inside.load with ⟨first, loaded, onward⟩
  by_cases long : first = 'l'.toUInt8
  · have ahead := onward (long.symm ▸ nonzero)
    rcases ahead.inside.load with ⟨second, loadedNext, onwardNext⟩
    by_cases longer : second = 'l'.toUInt8
    · refine ⟨2, (format.add 1).add 1, ?_,
        ahead.trans (onwardNext (longer.symm ▸ nonzero))⟩
      simp only [lengthPrefix, loaded, loadedNext, if_pos long,
        if_pos longer, bind, Except.bind, pure, Except.pure]
    · refine ⟨1, format.add 1, ?_, ahead⟩
      simp only [lengthPrefix, loaded, loadedNext, if_pos long,
        if_neg longer, bind, Except.bind, pure, Except.pure]
  · refine ⟨0, format, ?_, inside.refl⟩
    simp only [lengthPrefix, loaded, if_neg long, bind, Except.bind, pure,
      Except.pure]

/-! ## One turn -/

/-- Both cursors are in their strings. -/
structure InStrings (str format : CString) (state : State) : Prop where
  str : Ahead str.start state.str
  format : Ahead format.start state.format

/--
A turn leaves with a result, lacks an argument, or moves the cursor of the
format forward and the one of the string not back.
-/
def Advances (state : State) : Except Fault (State ⊕ Scanned) → Prop
  | .error fault => fault = .badArgument
  | .ok (.inr _) => True
  | .ok (.inl next) =>
      Ahead state.str next.str ∧ Ahead state.format next.format ∧
        state.format.offset < next.format.offset

theorem assign_fault
    {lpref : Nat} {letter : Letter} {value : Int} {errnum : Errno}
    {progress : Progress} {fault : Fault}
    (failed : progress.assign target (letter.kind lpref) value errnum =
      .error fault) : fault = .badArgument := by
  rcases progress with ⟨matched, args, assigned, old⟩
  cases args with
  | nil =>
      cases failed
      rfl
  | cons destination args =>
      by_cases same : destination.kind = letter.kind lpref
      · rw [Progress.assign_eq target same] at failed
        cases failed
      · simp only [Progress.assign, vaArg, if_neg same, bind, Except.bind,
          Except.error.injEq] at failed
        exact failed.symm

/-- A number directive, from the byte that names its conversion on. -/
theorem advances_number
    (target : Target) (lpref : Nat) (letter : Letter)
    {str format behind : Pointer} (inside : Inside str)
    (further : format.offset < behind.offset)
    (onward : Ahead format (behind.add 1)) (progress : Progress) :
    Advances ⟨str, format, progress⟩
      (do
        let read ← strto (letter.type target) target str letter.base
          progress.errnum
        store target (letter.kind lpref) read behind progress) := by
  rcases strto_ahead target (letter.type_standard target)
    letter.base_legal inside progress.errnum with ⟨read, parsed, ahead⟩
  rw [parsed]
  simp only [store, bind, Except.bind]
  cases assigned : progress.assign target (letter.kind lpref) read.ret
      read.errnum with
  | error fault => exact assign_fault assigned
  | ok after => exact ⟨ahead, onward, Nat.lt_succ_of_lt further⟩

/-- A turn at a `%` of the format. -/
theorem advances_pattern
    (target : Target) {str format : Pointer} (inStr : Inside str)
    (next : Ahead format (format.add 1)) (progress : Progress) :
    Advances ⟨str, format, progress⟩
      (pattern target ⟨str, format, progress⟩) := by
  rcases lengthPrefix_ahead next.inside with
    ⟨lpref, behind, prefixed, toBehind⟩
  rcases toBehind.inside.load with ⟨c, loaded, onward⟩
  have further : format.offset < behind.offset := toBehind.further
  have passed (letter : c ≠ 0) : Ahead format (behind.add 1) :=
    next.trans (toBehind.trans (onward letter))
  simp only [pattern, prefixed, loaded, bind, Except.bind, pure,
    Except.pure]
  by_cases percent : c = '%'.toUInt8
  · rcases inStr.load with ⟨d, loadedStr, onwardStr⟩
    rw [if_pos percent, loadedStr]
    by_cases literal : '%'.toUInt8 = d
    · simp only [if_neg (not_not.mpr literal)]
      have letter : '%'.toUInt8 ≠ 0 := by decide
      exact ⟨onwardStr (literal ▸ letter), passed (percent.symm ▸ letter),
        Nat.lt_succ_of_lt further⟩
    · simp only [if_pos literal]
      exact True.intro
  rw [if_neg percent]
  by_cases d : c = 'd'.toUInt8
  · rw [if_pos d]
    exact advances_number target lpref .signed inStr further
      (passed (d.symm ▸ by decide)) progress
  rw [if_neg d]
  by_cases uOrX : c = 'u'.toUInt8 ∨ c = 'x'.toUInt8 ∨ c = 'X'.toUInt8
  · rw [if_pos uOrX]
    rcases uOrX with rfl | rfl | rfl
    · exact advances_number target lpref .unsigned inStr further
        (passed (by decide)) progress
    · exact advances_number target lpref .hexadecimal inStr further
        (passed (by decide)) progress
    · exact advances_number target lpref .hexadecimal inStr further
        (passed (by decide)) progress
  rw [if_neg uOrX]
  by_cases p : c = 'p'.toUInt8
  · rw [if_pos p]
    exact advances_number target lpref .pointer inStr further
      (passed (p.symm ▸ by decide)) progress
  · rw [if_neg p]
    exact True.intro

theorem advances_turn
    (target : Target) {state : State} (inStr : Inside state.str)
    (inFormat : Inside state.format) :
    Advances state (turn target state) := by
  rcases state with ⟨str, format, progress⟩
  rcases inFormat.load with ⟨c, loaded, onward⟩
  simp only [turn, loaded, bind, Except.bind, pure, Except.pure]
  by_cases percent : c = '%'.toUInt8
  · rw [if_pos percent]
    exact advances_pattern target inStr
      (onward (percent.symm ▸ by decide)) progress
  rw [if_neg percent]
  by_cases nul : c = 0
  · rw [if_pos nul]
    exact True.intro
  rw [if_neg nul]
  by_cases space : isspace (target.charToInt c) = true
  · rw [if_pos space]
    rcases spaceLoop_ahead target inFormat with
      ⟨behind, ran, ahead, moves⟩
    rcases spaceLoop_ahead target inStr with ⟨rest, ranStr, aheadStr, _⟩
    rw [ran, ranStr]
    exact ⟨aheadStr, ahead, moves c loaded space⟩
  · rcases inStr.load with ⟨d, loadedStr, onwardStr⟩
    rw [if_neg space, loadedStr]
    by_cases equal : c = d
    · simp only [if_pos equal]
      exact ⟨onwardStr (equal ▸ nul), onward nul, Nat.lt_succ_self _⟩
    · simp only [if_neg equal]
      exact True.intro

/-! ## Whole scans -/

section Call

variable (target : Target) (str format : CString)
  (args : List Destination) (errnum : Errno)

/-- The states at the start of the turns of a call. -/
def Reached (state : State) : Prop :=
  Loop.Reaches (turn target)
    ⟨str.start, format.start, ⟨0, args, [], errnum⟩⟩ state

theorem inStrings_start (progress : Progress) :
    InStrings str format ⟨str.start, format.start, progress⟩ where
  str := Inside.refl (Nat.zero_le _)
  format := Inside.refl (Nat.zero_le _)

variable {str format} in
theorem InStrings.next
    {state next : State} (inStrings : InStrings str format state)
    (step : turn target state = .ok (.inl next)) :
    InStrings str format next ∧
      format.length - next.format.offset <
        format.length - state.format.offset := by
  have advances := advances_turn target inStrings.str.inside
    inStrings.format.inside
  rw [step] at advances
  rcases advances with ⟨aheadStr, aheadFormat, moved⟩
  have onward := inStrings.format.trans aheadFormat
  have inside := onward.inside
  have same := onward.same
  rw [Inside, same] at inside
  refine ⟨⟨inStrings.str.trans aheadStr, onward⟩, ?_⟩
  exact Nat.sub_lt_sub_left (moved.trans_le inside) moved

theorem Reached.inStrings
    {state : State} (reached : Reached target str format args errnum state) :
    InStrings str format state :=
  Loop.Reaches.invariant reached
    (fun inStrings step => (inStrings.next target step).1)
    (inStrings_start str format _)

/--
Whatever the string and the format, a call ends, and reads nothing behind the
NUL of either, its number parser included: the only fault is an argument of
the wrong type.  The cursors it comes back to the loop with are in their
strings.
-/
theorem vsscanf_inside :
    (∀ fault, vsscanf target str format args errnum = .error fault →
        fault = .badArgument) ∧
      (Matching format args →
        ∃ result, vsscanf target str format args errnum = .ok result) ∧
      ∀ state, Reached target str format args errnum state →
        InStrings str format state := by
  refine ⟨?_, ?_, fun state reached =>
    reached.inStrings target str format args errnum⟩
  · intro fault failed
    rcases Loop.run_ends (fun inStrings step => inStrings.next target step)
        (inStrings_start str format ⟨0, args, [], errnum⟩) _
        (Nat.lt_succ_of_le (Nat.sub_le _ _)) with
      ⟨last, _, inStrings, ends⟩
    have advances := advances_turn target inStrings.str.inside
      inStrings.format.inside
    rcases ends with ⟨other, step, ran⟩ | ⟨result, _, ran⟩
    · have same := ran.symm.trans failed
      rw [Except.error.injEq] at same
      rw [step] at advances
      exact same.symm.trans advances
    · have impossible := ran.symm.trans failed
      cases impossible
  · intro matching
    rcases scan_total never str.bytes ⟨0, args, [], errnum⟩ matching with
      ⟨result, ended, _⟩
    exact ⟨result, (vsscanf_eq target str format args errnum).trans ended⟩

end Call

/-! ## The end of the input -/

/--
The literal or `%%` at which a scan stops before its first conversion, with
what is left of the text there.
-/
def stopBefore : List Directive → List Byte → Option (Directive × List Byte)
  | [], _ => none
  | .white :: rest, text => stopBefore rest (afterSpaces text)
  | .literal c :: rest, text =>
      if c = deref text then
        stopBefore rest (text.drop 1)
      else
        some (.literal c, text)
  | .percent :: rest, text =>
      if '%'.toUInt8 = deref text then
        stopBefore rest (text.drop 1)
      else
        some (.percent, text)
  | .number _ _ :: _, _ => none
  | .unknown :: _, _ => none

/--
The call returns `EOF` for an input that ends before the first conversion and
before a mismatch, and for no other; for a byte that differs it returns zero.
-/
def ReportsEof (target : Target) (str format : CString)
    (args : List Destination) (errnum : Errno) : Prop :=
  ∃ result,
    vsscanf target str format args errnum = .ok result ∧
      (result.ret = EOF →
        ∃ directive,
          stopBefore (directives format) str.bytes = some (directive, [])) ∧
      ∀ directive text,
        stopBefore (directives format) str.bytes = some (directive, text) →
          result.ret = if text = [] then EOF else 0

/-- Where a scan stops first, a literal reports the end and a `%%` zero. -/
theorem scan_of_stop
    {stops : Letter → List Byte → Bool} {list : List Directive}
    {text left : List Byte} {directive : Directive} (progress : Progress)
    (first : progress.matched = 0)
    (stopped : stopBefore list text = some (directive, left)) :
    ∃ result, scan target stops list text progress = .ok result ∧
      result.ret = if directive = .percent then 0 else EOF := by
  induction list generalizing text with
  | nil => cases stopped
  | cons head rest induction =>
      cases head with
      | white => exact induction stopped
      | literal c =>
          rw [stopBefore] at stopped
          rw [scan]
          by_cases equal : c = deref text
          · rw [if_pos equal] at stopped ⊢
            exact induction stopped
          · rw [if_neg equal, Option.some.injEq, Prod.mk.injEq] at stopped
            rw [if_neg equal, ← stopped.1]
            exact ⟨_, rfl, congrArg Scanned.ret (if_pos first)⟩
      | percent =>
          rw [stopBefore] at stopped
          rw [scan]
          by_cases equal : '%'.toUInt8 = deref text
          · rw [if_pos equal] at stopped ⊢
            exact induction stopped
          · rw [if_neg equal, Option.some.injEq, Prod.mk.injEq] at stopped
            rw [if_neg equal, ← stopped.1]
            exact ⟨_, rfl, congrArg Int.ofNat first⟩
      | number lpref letter => cases stopped
      | unknown => cases stopped

/-- A scan that does not stop before its first conversion returns a count. -/
theorem scan_of_no_stop
    {stops : Letter → List Byte → Bool}
    (converts : ∀ letter text, stops letter text = false)
    {list : List Directive} {text : List Byte} (progress : Progress)
    (counted : progress.matched = progress.assigned.length)
    (matching : MatchesDirectives list progress.args)
    (passes : stopBefore list text = none) {result : Scanned}
    (ended : scan target stops list text progress = .ok result) :
    result.ret ≠ EOF := by
  have counts (value : Nat) : (value : Int) ≠ EOF := by
    rw [EOF]
    omega
  induction list generalizing text with
  | nil =>
      cases ended
      exact counts progress.matched
  | cons head rest induction =>
      cases head with
      | white => exact induction matching passes ended
      | literal c =>
          rw [stopBefore] at passes
          rw [scan] at ended
          by_cases equal : c = deref text
          · rw [if_pos equal] at passes ended
            exact induction matching passes ended
          · rw [if_neg equal] at passes
            cases passes
      | percent =>
          rw [stopBefore] at passes
          rw [scan] at ended
          by_cases equal : '%'.toUInt8 = deref text
          · rw [if_pos equal] at passes ended
            exact induction matching passes ended
          · rw [if_neg equal] at passes
            cases passes
      | number lpref letter =>
          rcases number_of_matches matching text with
            ⟨after, assignment, assigned, appended, later⟩
          rw [scan, converts, if_neg Bool.false_ne_true, assigned] at ended
          rcases scan_total stops
              (text.drop (reading letter.base text).consumed) _ later with
            ⟨other, again, kept⟩
          have same := again.symm.trans ended
          rw [Except.ok.injEq] at same
          rw [same] at again kept
          rcases scan_ret again (number_counted assigned counted) with
            count | ⟨_, none⟩
          · exact count ▸ counts _
          · rw [none, List.prefix_nil, appended] at kept
            exact absurd kept (List.append_ne_nil_of_right_ne_nil _
              (List.cons_ne_nil _ _))
      | unknown =>
          cases ended
          exact counts progress.matched

/--
The result of a call tells the end of the input from a byte that differs
exactly when what it stops at, before the first conversion, is a literal at
the end of the input or a `%%` in front of another byte, if it is anything.
-/
theorem reportsEof_iff
    (target : Target) (str format : CString) (args : List Destination)
    (matching : Matching format args) (errnum : Errno) :
    ReportsEof target str format args errnum ↔
      ∀ directive text,
        stopBefore (directives format) str.bytes = some (directive, text) →
          (directive = .percent ↔ text ≠ []) := by
  have different : (0 : Int) ≠ EOF := by decide
  rw [ReportsEof, vsscanf_eq]
  constructor
  · rintro ⟨result, called, _, tells⟩ directive text stopped
    rcases scan_of_stop ⟨0, args, [], errnum⟩ rfl stopped with
      ⟨other, ended, ret⟩
    rw [called, Except.ok.injEq] at ended
    rw [← ended, tells directive text stopped] at ret
    by_cases percent : directive = .percent
    · by_cases empty : text = []
      · rw [if_pos percent, if_pos empty] at ret
        exact absurd ret.symm different
      · exact iff_of_true percent empty
    · by_cases empty : text = []
      · exact iff_of_false percent (not_not.mpr empty)
      · rw [if_neg percent, if_neg empty] at ret
        exact absurd ret different
  · intro right
    cases stop : stopBefore (directives format) str.bytes with
    | none =>
        rcases scan_total never str.bytes ⟨0, args, [], errnum⟩ matching with
          ⟨result, ended, _⟩
        have counts := scan_of_no_stop (fun _ _ => rfl) ⟨0, args, [], errnum⟩
          rfl matching stop ended
        exact ⟨result, ended, fun eof => absurd eof counts,
          fun _ _ impossible => absurd impossible (Option.some_ne_none _).symm⟩
    | some value =>
        rcases value with ⟨directive, text⟩
        have expected := right directive text stop
        rcases scan_of_stop ⟨0, args, [], errnum⟩ rfl stop with
          ⟨result, ended, ret⟩
        have told : result.ret = if text = [] then EOF else 0 := by
          by_cases empty : text = []
          · rw [ret, if_neg fun percent => expected.mp percent empty,
              if_pos empty]
          · rw [ret, if_pos (expected.mpr empty), if_neg empty]
        refine ⟨result, ended, ?_, ?_⟩
        · intro eof
          by_cases empty : text = []
          · exact ⟨directive, by rw [empty]⟩
          · rw [told, if_neg empty] at eof
            exact absurd eof different
        · rintro other left same
          rw [Option.some.injEq, Prod.mk.injEq] at same
          rw [← same.2]
          exact told

theorem reportsEof_iff_version :
    ReportsEof .arm (.ofAscii "") (.ofAscii "v%u") [⟨.unsignedInt, 0⟩] 0 ↔
      ∀ directive text,
        stopBefore (directives (.ofAscii "v%u"))
            (CString.ofAscii "").bytes = some (directive, text) →
          (directive = .percent ↔ text ≠ []) :=
  reportsEof_iff .arm (.ofAscii "") (.ofAscii "v%u") [⟨.unsignedInt, 0⟩]
    (by decide) 0

/-- A literal that differs is reported as the end of the input. -/
theorem vsscanf_literal_eof :
    ¬ ReportsEof .x86_64 (.ofAscii "b") (.ofAscii "a") [] 0 := by
  rintro ⟨result, called, _, tells⟩
  have computed :
      vsscanf .x86_64 (.ofAscii "b") (.ofAscii "a") [] 0 =
        .ok ⟨EOF, [], 0⟩ := by
    decide
  have stop : stopBefore (directives (.ofAscii "a"))
      (CString.ofAscii "b").bytes =
        some (.literal 'a'.toUInt8, ['b'.toUInt8]) := by
    decide
  rw [computed, Except.ok.injEq] at called
  have zero := tells _ _ stop
  rw [← called] at zero
  exact absurd zero (by decide)

end Nolibc.Stdio.ScanEnds

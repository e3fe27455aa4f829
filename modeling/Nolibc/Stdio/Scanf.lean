import Nolibc.Stdlib.Conversions

/-!
# The scanf engine

`vsscanf` of `stdio.h`, turn by turn.  The function is one `while (1)` loop
over the format; a turn reads one directive of it, and hands numbers to the
functions of `stdlib.h`.  The pointers the caller passes are `Destination`s,
and what is stored through them is kept in order.

`matches` counts pointers passed by the caller, so that the model leaves it
unbounded.

`vsscanf_eq` resolves the format first, to a list of directives, and runs them
on the bytes of the string.
-/

set_option autoImplicit false

namespace Nolibc.Stdio.Scanf

open Nolibc.Machine
open Nolibc.Ctype
open Nolibc.Foundation
open Nolibc.Stdlib.Strtox
open Nolibc.Stdlib.Saturation
open Nolibc.Stdlib.NumberGrammar
open Nolibc.Stdlib.Conversions

/-! ## Destinations -/

/-- The type of the object a variadic pointer points to. -/
inductive ObjectKind where
  | int
  | unsignedInt
  | long
  | unsignedLong
  | longLong
  | unsignedLongLong
  | pointer
  deriving DecidableEq, Repr

/-- The integer type of an object; a pointer is as wide as a `long`. -/
def ObjectKind.type (target : Target) : ObjectKind → IntegerType
  | .int => ⟨true, 32⟩
  | .unsignedInt => ⟨false, 32⟩
  | .long => .long target
  | .unsignedLong => .unsignedLong target
  | .longLong => .longLong
  | .unsignedLongLong => .unsignedLongLong
  | .pointer => .unsignedLong target

/-- The conversion an assignment to the object makes. -/
def ObjectKind.convert (target : Target) (kind : ObjectKind)
    (value : Int) : Int :=
  let type := kind.type target
  if type.signed then
    (BitVec.ofInt type.bits value).toInt
  else
    value % 2 ^ type.bits

/-- One variadic argument: a pointer to an object. -/
structure Destination where
  kind : ObjectKind
  address : Nat
  deriving DecidableEq, Repr

/-- What is stored through a pointer. -/
structure Assignment where
  destination : Destination
  value : Int
  deriving DecidableEq, Repr

/-- `va_arg(args, kind *)`. -/
def vaArg (kind : ObjectKind) :
    List Destination → Except Fault (Destination × List Destination)
  | [] => .error .badArgument
  | destination :: rest =>
      if destination.kind = kind then
        .ok (destination, rest)
      else
        .error .badArgument

/-! ## The code -/

/-- The `EOF` of `stdio.h`. -/
def EOF : Int := -1

/-- The error code for a directive that is not known. -/
def EILSEQ : Errno := 84

/-- What a call has done with the arguments: `matches`, stores and `errno`. -/
structure Progress where
  matched : Nat
  args : List Destination
  assigned : List Assignment
  errnum : Errno

/-- What a call leaves behind. -/
structure Scanned where
  ret : Int
  assigned : List Assignment
  errnum : Errno
  deriving DecidableEq, Repr

/-- `goto done`: `return matches`. -/
def Progress.done (progress : Progress) : Scanned :=
  ⟨progress.matched, progress.assigned, progress.errnum⟩

/-- `SET_ERRNO(EILSEQ); goto done`. -/
def Progress.illegal (progress : Progress) : Scanned :=
  { progress.done with errnum := EILSEQ }

/-- `if (!matches) matches = EOF; goto done`. -/
def Progress.mismatch (progress : Progress) : Scanned :=
  if progress.matched = 0 then
    { progress.done with ret := EOF }
  else
    progress.done

/-- `*va_arg(args, kind *) = value; matches++`. -/
def Progress.assign (target : Target) (kind : ObjectKind) (value : Int)
    (errnum : Errno) (progress : Progress) : Except Fault Progress := do
  let (destination, args) ← vaArg kind progress.args
  return {
    matched := progress.matched + 1
    args
    assigned :=
      progress.assigned ++ [⟨destination, kind.convert target value⟩]
    errnum }

theorem Progress.assign_eq
    (target : Target) {kind : ObjectKind} {destination : Destination}
    (same : destination.kind = kind) (value : Int) (errnum : Errno)
    (matched : Nat) (args : List Destination)
    (assigned : List Assignment) (old : Errno) :
    Progress.assign target kind value errnum
        ⟨matched, destination :: args, assigned, old⟩ =
      .ok ⟨matched + 1, args,
        assigned ++ [⟨destination, kind.convert target value⟩], errnum⟩ := by
  simp only [assign, vaArg, if_pos same, bind, Except.bind, pure,
    Except.pure]

/-- The variables of the engine that live across turns. -/
structure State where
  str : Pointer
  format : Pointer
  progress : Progress

/-- The length prefix: `l`, `ll` or none, and what is behind it. -/
def lengthPrefix (format : Pointer) : Except Fault (Nat × Pointer) := do
  if (← format.load) = 'l'.toUInt8 then
    let format := format.add 1
    if (← format.load) = 'l'.toUInt8 then
      return (2, format.add 1)
    else
      return (1, format)
  else
    return (0, format)

/-- The object `%d` stores to. -/
def signedKind (lpref : Nat) : ObjectKind :=
  if lpref = 0 then .int else if lpref = 1 then .long else .longLong

/-- The object `%u`, `%x` and `%X` store to. -/
def unsignedKind (lpref : Nat) : ObjectKind :=
  if lpref = 0 then
    .unsignedInt
  else if lpref = 1 then
    .unsignedLong
  else
    .unsignedLongLong

/-- `format++; str = endptr;` behind a store. -/
def store (target : Target) (kind : ObjectKind) (read : Converted Int)
    (format : Pointer) (progress : Progress) :
    Except Fault (State ⊕ Scanned) := do
  let progress ← progress.assign target kind read.ret read.errnum
  return .inl ⟨read.endptr, format.add 1, progress⟩

/-- The body of `if (*format == '%')`. -/
def pattern (target : Target) (state : State) :
    Except Fault (State ⊕ Scanned) := do
  let ⟨str, format, progress⟩ := state
  let (lpref, format) ← lengthPrefix (format.add 1)
  let c ← format.load
  if c = '%'.toUInt8 then
    if '%'.toUInt8 ≠ (← str.load) then
      return .inr progress.done
    else
      return .inl ⟨str.add 1, format.add 1, progress⟩
  else if c = 'd'.toUInt8 then
    let ival ← strtoll target str 10 progress.errnum
    store target (signedKind lpref) ival format progress
  else if c = 'u'.toUInt8 ∨ c = 'x'.toUInt8 ∨ c = 'X'.toUInt8 then
    let base := if c = 'u'.toUInt8 then 10 else 16
    let uval ← strtoull target str base progress.errnum
    store target (unsignedKind lpref) uval format progress
  else if c = 'p'.toUInt8 then
    let value ← strtoul target str 16 progress.errnum
    store target .pointer value format progress
  else
    return .inr progress.illegal

/-- One turn of `while (1)`. -/
def turn (target : Target) (state : State) :
    Except Fault (State ⊕ Scanned) := do
  let ⟨str, format, progress⟩ := state
  let c ← format.load
  if c = '%'.toUInt8 then
    pattern target state
  else if c = 0 then
    return .inr progress.done
  else if isspace (target.charToInt c) then
    let format ← spaceLoop target format
    let str ← spaceLoop target str
    return .inl ⟨str, format, progress⟩
  else if c = (← str.load) then
    return .inl ⟨str.add 1, format.add 1, progress⟩
  else
    return .inr progress.mismatch

/-- `vsscanf`. -/
def vsscanf (target : Target) (str format : CString)
    (args : List Destination) (errnum : Errno) : Except Fault Scanned :=
  Loop.run Fault.diverged (turn target) (format.length + 1)
    ⟨str.start, format.start, ⟨0, args, [], errnum⟩⟩

/-! ## Directives -/

/-- The conversions, by the parser they use; `%X` is `%x`. -/
inductive Letter where
  | signed
  | unsigned
  | hexadecimal
  | pointer
  deriving DecidableEq, Repr

/-- The conversion that a letter stands for. -/
def letterOf (c : Byte) : Option Letter :=
  if c = 'd'.toUInt8 then
    some .signed
  else if c = 'u'.toUInt8 then
    some .unsigned
  else if c = 'x'.toUInt8 ∨ c = 'X'.toUInt8 then
    some .hexadecimal
  else if c = 'p'.toUInt8 then
    some .pointer
  else
    none

namespace Letter

/-- The base that a letter gives to `__strtox`. -/
def base : Letter → Nat
  | signed | unsigned => 10
  | hexadecimal | pointer => 16

/-- The result type of the parser. -/
def type (target : Target) : Letter → IntegerType
  | signed => .longLong
  | unsigned | hexadecimal => .unsignedLongLong
  | pointer => .unsignedLong target

/-- The object a conversion stores to. -/
def kind (lpref : Nat) : Letter → ObjectKind
  | signed => signedKind lpref
  | unsigned | hexadecimal => unsignedKind lpref
  | pointer => .pointer

theorem type_standard (letter : Letter) (target : Target) :
    Standard (letter.type target) := by
  cases letter with
  | signed => exact Or.inr rfl
  | unsigned => exact Or.inr rfl
  | hexadecimal => exact Or.inr rfl
  | pointer => exact target.longBits_cases

theorem base_legal (letter : Letter) : letter.base ≤ 36 := by
  cases letter <;> decide

end Letter

/-- One directive of a format. -/
inductive Directive where
  | white
  | literal (c : Byte)
  | percent
  | number (lpref : Nat) (letter : Letter)
  | unknown
  deriving DecidableEq, Repr

/-- Where the reader of a format stands. -/
inductive Mode where
  | text
  | pattern (lpref : Nat)

/-- The directives of a format; nothing is read behind an unknown one. -/
def readFormat : Mode → List Byte → List Directive
  | .text, [] => []
  | .text, c :: rest =>
      if c = '%'.toUInt8 then
        readFormat (.pattern 0) rest
      else if c ∈ whiteSpace then
        .white :: readFormat .text rest
      else
        .literal c :: readFormat .text rest
  | .pattern _, [] => [.unknown]
  | .pattern lpref, c :: rest =>
      if c = 'l'.toUInt8 ∧ lpref < 2 then
        readFormat (.pattern (lpref + 1)) rest
      else if c = '%'.toUInt8 then
        .percent :: readFormat .text rest
      else
        match letterOf c with
        | some letter => .number lpref letter :: readFormat .text rest
        | none => [.unknown]

/-- The directives of a format. -/
def directives (format : CString) : List Directive :=
  readFormat .text format.bytes

/-- What is assigned for a number directive, with the parser's `errno`. -/
def Progress.number (target : Target) (lpref : Nat) (letter : Letter)
    (text : List Byte) (progress : Progress) : Except Fault Progress :=
  let type := letter.type target
  progress.assign target (letter.kind lpref)
    (converted type letter.base text)
    (if overflowed type letter.base text then ERANGE else progress.errnum)

/--
Run directives on a text.  `stops` is asked at each number, and ends the scan
before it is converted; the code never asks.
-/
def scan (target : Target) (stops : Letter → List Byte → Bool) :
    List Directive → List Byte → Progress → Except Fault Scanned
  | [], _, progress => .ok progress.done
  | .white :: rest, text, progress =>
      scan target stops rest (afterSpaces text) progress
  | .literal c :: rest, text, progress =>
      if c = deref text then
        scan target stops rest (text.drop 1) progress
      else
        .ok progress.mismatch
  | .percent :: rest, text, progress =>
      if '%'.toUInt8 = deref text then
        scan target stops rest (text.drop 1) progress
      else
        .ok progress.done
  | .number lpref letter :: rest, text, progress =>
      if stops letter text then
        .ok progress.done
      else
        match progress.number target lpref letter text with
        | .error fault => .error fault
        | .ok progress =>
            scan target stops rest
              (text.drop (reading letter.base text).consumed) progress
  | .unknown :: _, _, progress => .ok progress.illegal

/-- The predicate of the code: a number never stops the scan. -/
def never (_ : Letter) (_ : List Byte) : Bool :=
  false

/-! ## The code runs the directives -/

/--
What a turn at a format does to a scan: it leaves with the result of the scan,
fails as it does, or goes on with a shorter format.
-/
inductive Follows (target : Target) (outcome : Except Fault Scanned)
    (length : Nat) (action : Except Fault (State ⊕ Scanned)) : Prop where
  | leave {result : Scanned} (left : action = .ok (.inr result))
      (same : outcome = .ok result)
  | fail {fault : Fault} (failed : action = .error fault)
      (same : outcome = .error fault)
  | next {state : State} {text format : List Byte}
      (went : action = .ok (.inl state))
      (atText : state.str.Points text)
      (atFormat : state.format.Points format)
      (shorter : format.length < length)
      (same : outcome =
        scan target never (readFormat .text format) text state.progress)

theorem readFormat_blanks
    {blanks : List Byte} (white : ∀ c ∈ blanks, c ∈ whiteSpace)
    (rest : List Byte) :
    readFormat .text (blanks ++ rest) =
      List.replicate blanks.length .white ++ readFormat .text rest := by
  induction blanks with
  | nil => rfl
  | cons c blanks induction =>
      have space := white c List.mem_cons_self
      have different : c ≠ '%'.toUInt8 := by
        rintro rfl
        exact absurd space (by decide)
      rw [List.cons_append, readFormat, if_neg different, if_pos space,
        induction fun other member =>
          white other (List.mem_cons_of_mem c member)]
      rfl

/-- A run of white space in a format. -/
theorem readFormat_white
    {c : Byte} (space : c ∈ whiteSpace) (rest : List Byte) :
    ∃ count,
      readFormat .text (c :: rest) =
          List.replicate (count + 1) .white ++
            readFormat .text (afterSpaces (c :: rest)) ∧
        (afterSpaces (c :: rest)).length < (c :: rest).length := by
  have split : spaces (c :: rest) ++ afterSpaces (c :: rest) = c :: rest :=
    List.takeWhile_append_dropWhile
  have white : ∀ d ∈ spaces (c :: rest), d ∈ whiteSpace := fun d member =>
    of_decide_eq_true (List.all_eq_true.mp List.all_takeWhile d member)
  have longer : (spaces (c :: rest)).length =
      (spaces rest).length + 1 := by
    rw [spaces, List.takeWhile_cons, if_pos (decide_eq_true space)]
    rfl
  have total := congrArg List.length split
  rw [List.length_append] at total
  refine ⟨(spaces rest).length, ?_, by omega⟩
  rw [← longer, ← readFormat_blanks white, split]

/-- Skipping white space more than once is skipping it once. -/
theorem scan_white
    (target : Target) (stops : Letter → List Byte → Bool) (count : Nat)
    (list : List Directive) (text : List Byte) (progress : Progress) :
    scan target stops (List.replicate (count + 1) .white ++ list) text
        progress =
      scan target stops list (afterSpaces text) progress := by
  induction count generalizing text with
  | zero => rfl
  | succ count induction =>
      have again : afterSpaces (afterSpaces text) = afterSpaces text :=
        (spaces_of_stop (deref_afterSpaces text)).2
      rw [List.replicate_succ, List.cons_append, scan, induction, again]

/-- The length prefix is read as the reader of the format does. -/
theorem lengthPrefix_eq
    {format : Pointer} {rest : List Byte} (points : format.Points rest) :
    ∃ lpref body behind,
      lengthPrefix format = .ok (lpref, behind) ∧ behind.Points body ∧
        body.length ≤ rest.length ∧
        readFormat (.pattern 0) rest = readFormat (.pattern lpref) body ∧
        ¬ (deref body = 'l'.toUInt8 ∧ lpref < 2) := by
  have prefixed (c : Byte) (rest : List Byte) (lpref : Nat)
      (long : c = 'l'.toUInt8) (small : lpref < 2) :
      readFormat (.pattern lpref) (c :: rest) =
        readFormat (.pattern (lpref + 1)) rest := by
    rw [readFormat, if_pos ⟨long, small⟩]
  by_cases first : deref rest = 'l'.toUInt8
  · cases rest with
    | nil => exact absurd first (by decide)
    | cons c rest =>
        have loaded := points.step.load
        by_cases second : deref rest = 'l'.toUInt8
        · cases rest with
          | nil => exact absurd second (by decide)
          | cons d rest =>
              refine ⟨2, rest, (format.add 1).add 1, ?_,
                points.step.step, ?_, ?_, ?_⟩
              · simp only [lengthPrefix, points.load, loaded, if_pos first,
                  if_pos second, bind, Except.bind, pure, Except.pure]
              · rw [List.length_cons, List.length_cons]
                omega
              · rw [prefixed c _ 0 first (by decide),
                  prefixed d _ 1 second (by decide)]
              · omega
        · refine ⟨1, rest, format.add 1, ?_, points.step, ?_, ?_, ?_⟩
          · simp only [lengthPrefix, points.load, loaded, if_pos first,
              if_neg second, bind, Except.bind, pure, Except.pure]
          · exact Nat.le_succ _
          · exact prefixed c _ 0 first (by decide)
          · exact fun both => second both.1
  · refine ⟨0, rest, format, ?_, points, Nat.le_refl _, rfl,
      fun both => first both.1⟩
    simp only [lengthPrefix, points.load, if_neg first, bind, Except.bind,
      pure, Except.pure]

/-- A store and the steps behind it. -/
theorem follows_store
    (target : Target) (lpref : Nat) (letter : Letter)
    {str format : Pointer} {c : Byte} {text rest : List Byte}
    (atText : str.Points text) (atFormat : format.Points (c :: rest))
    {length : Nat} (shorter : rest.length < length) (progress : Progress) :
    Follows target
      (scan target never (.number lpref letter :: readFormat .text rest)
        text progress)
      length
      (do
        let read ← strto (letter.type target) target str letter.base
          progress.errnum
        store target (letter.kind lpref) read format progress) := by
  rw [strto_points target (letter.type_standard target) letter.base_legal
    atText progress.errnum]
  simp only [scan, never, store, Progress.number, bind, Except.bind, pure,
    Except.pure, Bool.false_eq_true, if_false]
  cases progress.assign target (letter.kind lpref)
      (converted (letter.type target) letter.base text)
      (if overflowed (letter.type target) letter.base text then ERANGE
        else progress.errnum) with
  | error fault => exact .fail rfl rfl
  | ok after =>
      exact .next rfl (atText.drop (consumed_le letter.base text))
        atFormat.step shorter rfl

theorem letterOf_eq_none
    {c : Byte} (d : c ≠ 'd'.toUInt8)
    (uOrX : ¬ (c = 'u'.toUInt8 ∨ c = 'x'.toUInt8 ∨ c = 'X'.toUInt8))
    (p : c ≠ 'p'.toUInt8) : letterOf c = none := by
  rcases not_or.mp uOrX with ⟨u, x⟩
  rw [letterOf, if_neg d, if_neg u, if_neg x, if_neg p]

theorem follows_pattern
    (target : Target) {str format : Pointer} {text rest : List Byte}
    (atText : str.Points text)
    (atFormat : format.Points ('%'.toUInt8 :: rest))
    (progress : Progress) :
    Follows target
      (scan target never (readFormat (.pattern 0) rest) text progress)
      (rest.length + 1) (pattern target ⟨str, format, progress⟩) := by
  rcases lengthPrefix_eq atFormat.step with
    ⟨lpref, body, behind, prefixed, atBody, shorter, same, notLong⟩
  rw [same]
  simp only [pattern, prefixed, atBody.load, bind, Except.bind, pure,
    Except.pure]
  cases body with
  | nil => exact .leave rfl rfl
  | cons c body =>
      have fewer : body.length < rest.length + 1 :=
        Nat.lt_succ_of_le (Nat.le_trans (Nat.le_succ _) shorter)
      rw [deref_cons] at notLong ⊢
      rw [readFormat, if_neg notLong]
      by_cases percent : c = '%'.toUInt8
      · rw [if_pos percent, if_pos percent, atText.load]
        by_cases literal : '%'.toUInt8 = deref text
        · cases text with
          | nil => exact absurd literal (by decide)
          | cons d text =>
              refine .next (if_neg (not_not.mpr literal)) atText.step
                atBody.step fewer ?_
              exact if_pos literal
        · exact .leave (if_pos literal) (if_neg literal)
      · rw [if_neg percent, if_neg percent]
        by_cases d : c = 'd'.toUInt8
        · subst d
          exact follows_store target lpref .signed atText atBody fewer
            progress
        · by_cases uOrX :
              c = 'u'.toUInt8 ∨ c = 'x'.toUInt8 ∨ c = 'X'.toUInt8
          · rw [if_neg d, if_pos uOrX]
            rcases uOrX with rfl | rfl | rfl
            · exact follows_store target lpref .unsigned atText atBody
                fewer progress
            · exact follows_store target lpref .hexadecimal atText atBody
                fewer progress
            · exact follows_store target lpref .hexadecimal atText atBody
                fewer progress
          · rw [if_neg d, if_neg uOrX]
            by_cases p : c = 'p'.toUInt8
            · subst p
              exact follows_store target lpref .pointer atText atBody fewer
                progress
            · rw [if_neg p, letterOf_eq_none d uOrX p]
              exact .leave rfl rfl

/-- One turn of the code is what one turn of the scan is. -/
theorem follows_turn
    (target : Target) {str format : Pointer} {text rest : List Byte}
    (atText : str.Points text) (atFormat : format.Points rest)
    (progress : Progress) :
    Follows target
      (scan target never (readFormat .text rest) text progress)
      rest.length (turn target ⟨str, format, progress⟩) := by
  simp only [turn, atFormat.load, bind, Except.bind, pure, Except.pure]
  cases rest with
  | nil => exact .leave rfl rfl
  | cons c rest =>
      have nonzero : c ≠ 0 := atFormat.ne_zero
      rw [deref_cons]
      by_cases percent : c = '%'.toUInt8
      · subst percent
        exact follows_pattern target atText atFormat progress
      · rw [if_neg percent, if_neg nonzero]
        by_cases space : c ∈ whiteSpace
        · rcases spaceLoop_eq target atFormat with ⟨formatLoop, atBehind⟩
          rcases spaceLoop_eq target atText with ⟨strLoop, atRest⟩
          rcases readFormat_white space rest with ⟨count, read, shorter⟩
          rw [if_pos ((isspace_charToInt target c).mpr space), formatLoop,
            strLoop, read, scan_white]
          exact .next rfl atRest atBehind shorter rfl
        · rw [if_neg (mt (isspace_charToInt target c).mp space),
            atText.load, readFormat, if_neg percent, if_neg space]
          by_cases equal : c = deref text
          · cases text with
            | nil => exact absurd equal nonzero
            | cons d text =>
                exact .next (if_pos equal) atText.step atFormat.step
                  (Nat.lt_succ_self _) (if_pos equal)
          · exact .leave (if_neg equal) (if_neg equal)

/-- A call of `vsscanf` runs the directives of its format on its string. -/
theorem vsscanf_eq
    (target : Target) (str format : CString) (args : List Destination)
    (errnum : Errno) :
    vsscanf target str format args errnum =
      scan target never (directives format) str.bytes
        ⟨0, args, [], errnum⟩ := by
  have run {turns : Nat} {state : State} {text rest : List Byte}
      (atText : state.str.Points text)
      (atFormat : state.format.Points rest)
      (enough : rest.length < turns) :
      Loop.run Fault.diverged (turn target) turns state =
        scan target never (readFormat .text rest) text state.progress := by
    induction turns generalizing state text rest with
    | zero => exact absurd enough (Nat.not_lt_zero _)
    | succ turns induction =>
        cases follows_turn target atText atFormat state.progress with
        | leave left same =>
            rw [same]
            exact Loop.run_exit left turns
        | fail failed same =>
            rw [same]
            exact Loop.run_fail failed turns
        | next went atNext atBehind shorter same =>
            rw [same, Loop.run_continue went]
            exact induction atNext atBehind (by omega)
  exact run (Pointer.points_start str) (Pointer.points_start format)
    (Nat.lt_succ_self format.length)

end Nolibc.Stdio.Scanf

import Nolibc.Stdio.Formats
import Nolibc.Stdio.Snprintf

/-!
# What the engine reads of a format

The position of the engine is `fmt + ofs`, of which `fmt` moves at every
flush, and the loop that reads a width moves `ofs` ahead of the byte the
engine dispatches on.  `HasRead` says, for any state the loop reaches, which
bytes are behind the engine and which arguments they cost;
`nolibcPrintf_reads` lifts it to whole runs, whatever the callback answers.

The last section is about what is lost on the way: a length modifier starts
the loop again, and the width read in front of it is reset.
-/

set_option autoImplicit false

namespace Nolibc.Stdio.FormatReading

open Nolibc.Machine
open Nolibc.Foundation
open Nolibc.Stdlib.Itoa
open Nolibc.Stdio.Printf
open Nolibc.Stdio.Directives
open Nolibc.Stdio.Pieces
open Nolibc.Stdio.Snprintf
open Nolibc.Stdio.Formats

variable {target : Target} {σ : Type}

/-! ## Completed conversions -/

/-- The conversions that take an argument. -/
def takesArgument (c : Byte) : Bool :=
  c ∈ ascii "cduxps"

/-- Whether a format stands inside an escape sequence behind a byte. -/
def insideAfter (inside : Bool) (c : Byte) : Bool :=
  if inside then
    !(takesArgument c || c = 'm'.toUInt8 || c = '%'.toUInt8)
  else
    c = '%'.toUInt8

/-- How many conversions that take an argument some bytes complete. -/
def completed : Bool → List Byte → Nat
  | _, [] => 0
  | inside, c :: rest =>
      (if inside && takesArgument c then 1 else 0) +
        completed (insideAfter inside c) rest

/-- The arguments left behind some bytes of a format. -/
def Consumed (args : List (Arg target)) (read : List Byte)
    (left : List (Arg target)) : Prop :=
  ∃ fetched, args = fetched ++ left ∧
    fetched.length = completed false read

theorem completed_append (inside : Bool) (front rest : List Byte) :
    completed inside (front ++ rest) =
      completed inside front +
        completed (front.foldl insideAfter inside) rest := by
  induction front generalizing inside with
  | nil => exact (Nat.zero_add _).symm
  | cons c front induction =>
      rw [List.cons_append, completed, completed, induction,
        List.foldl_cons, Nat.add_assoc]

/-- Reading on takes the arguments of the conversions that are completed. -/
theorem Consumed.more
    {args left fetched rest : List (Arg target)} {front read : List Byte}
    (consumed : Consumed args front left) (split : left = fetched ++ rest)
    (count : fetched.length =
      completed (front.foldl insideAfter false) read) :
    Consumed args (front ++ read) rest := by
  rcases consumed with ⟨before, all, counted⟩
  refine ⟨before ++ fetched, ?_, ?_⟩
  · rw [all, split, List.append_assoc]
  · rw [List.length_append, completed_append, counted, count]

theorem takesArgument_eq (c : Byte) :
    takesArgument c = (isNumeric c || c = 's'.toUInt8) := by
  have letters : ascii "cduxps" =
      ['c'.toUInt8, 'd'.toUInt8, 'u'.toUInt8, 'x'.toUInt8, 'p'.toUInt8,
        's'.toUInt8] := by decide
  simp [takesArgument, isNumeric, letters, Bool.or_assoc]

/-- A width digit keeps the escape sequence open. -/
theorem insideAfter_digit {c : Byte} (digit : isDigit c = true) :
    takesArgument c = false ∧ insideAfter true c = true := by
  have apart : ∀ other ∈ ascii "cduxpsm%", c ≠ other := by
    have letters : ∀ other ∈ ascii "cduxpsm%", isDigit other = false := by
      decide
    rintro other member rfl
    exact Bool.false_ne_true ((letters c member).symm.trans digit)
  have known : ∀ other ∈ ascii "cduxps", other ∈ ascii "cduxpsm%" := by
    decide
  have silent : takesArgument c = false :=
    decide_eq_false fun member => apart c (known c member) rfl
  refine ⟨silent, ?_⟩
  rw [insideAfter, if_pos rfl, silent,
    decide_eq_false (apart 'm'.toUInt8 (by decide)),
    decide_eq_false (apart '%'.toUInt8 (by decide))]
  rfl

theorem insideAfter_digits
    {digits : List Byte} (allDigits : ∀ c ∈ digits, isDigit c = true) :
    completed true digits = 0 ∧ digits.foldl insideAfter true = true := by
  induction digits with
  | nil => exact ⟨rfl, rfl⟩
  | cons c rest induction =>
      rcases insideAfter_digit (allDigits c List.mem_cons_self) with
        ⟨silent, stays⟩
      rw [completed, List.foldl_cons, stays, silent]
      rcases induction (fun other member =>
        allDigits other (List.mem_cons_of_mem _ member)) with ⟨none, open'⟩
      exact ⟨by simp [none], open'⟩

/-! ## One turn -/

/-- What is behind the engine at the start of a turn. -/
structure HasRead (format : CString) (args : List (Arg target))
    (state : State target σ) : Prop where
  within : state.fmt + state.ofs ≤ format.length
  rebased : state.escape = true → state.ofs = 0
  inside : state.escape =
    (format.bytes.take (state.fmt + state.ofs)).foldl insideAfter false
  consumed :
    Consumed args (format.bytes.take (state.fmt + state.ofs)) state.args

/--
The bytes of the format behind the engine at the end of a turn: a turn reads
one byte, and in an escape sequence the width digits in front of it.
-/
def readAfter (format : CString) (state : State target σ) : List Byte :=
  let position := state.fmt + state.ofs
  let digits :=
    if state.escape then
      (format.bytes.drop position).takeWhile isDigit
    else
      []
  format.bytes.take (position + digits.length + 1)

/-- What a turn does from a state with the given bytes behind it. -/
def Advances (cb : Callback σ) (format : CString)
    (args : List (Arg target)) (state : State target σ) :
    Except Fault (State target σ ⊕ Return target σ) → Prop
  | .error fault => fault = .badArgument
  | .ok (.inl next) =>
      HasRead format args next ∧
        format.bytes.take (next.fmt + next.ofs) = readAfter format state ∧
        state.fmt + state.ofs < next.fmt + next.ofs
  | .ok (.inr result) =>
      Consumed args (readAfter format state) result.args ∧
        (readAfter format state = format.bytes ∨
          ∃ io chunk, (cb.call io chunk).1 ≠ 0)

/-- A flush changes neither the arguments nor the escape flag. -/
theorem flushStr_outcome
    (cb : Callback σ) (c : Byte) (width len : Nat) (outstr : List Byte)
    (state : State target σ) :
    match flushStr cb c width outstr len state with
    | .inl next =>
        c ≠ 0 ∧ next.fmt = state.fmt + state.ofs ∧ next.ofs = 0 ∧
          next.escape = state.escape ∧ next.args = state.args
    | .inr result =>
        result.args = state.args ∧
          (c = 0 ∨ ∃ io chunk, (cb.call io chunk).1 ≠ 0) := by
  have escaped (flushed : State target σ)
      (fmt : flushed.fmt = state.fmt) (ofs : flushed.ofs = state.ofs)
      (escape : flushed.escape = state.escape)
      (args : flushed.args = state.args) :
      match doEscape c flushed with
      | .inl next =>
          c ≠ 0 ∧ next.fmt = state.fmt + state.ofs ∧ next.ofs = 0 ∧
            next.escape = state.escape ∧ next.args = state.args
      | .inr result =>
          result.args = state.args ∧
            (c = 0 ∨ ∃ io chunk, (cb.call io chunk).1 ≠ 0) := by
    rw [doEscape]
    split_ifs with last
    · exact ⟨args, Or.inl last⟩
    · exact ⟨last, by rw [fmt, ofs], rfl, escape, args⟩
  rw [flushStr]
  by_cases unspent : state.n ≠ 0
  · rw [if_pos unspent]
    generalize (if len < state.n then len else state.n) = w
    by_cases failed :
        (cb.call (padLoop cb w width state.written state.io).2
          (outstr.take w)).1 ≠ 0
    · simp only [if_pos failed]
      exact ⟨rfl, Or.inr ⟨_, _, failed⟩⟩
    · simp only [if_neg failed]
      exact escaped _ rfl rfl rfl rfl
  · rw [if_neg unspent]
    exact escaped _ rfl rfl rfl rfl

/-- The state a turn goes on with, where its position is the one read up to. -/
theorem hasRead_of_readAfter
    {format : CString} {args : List (Arg target)}
    {state : State target σ} (next : State target σ)
    (position : (readAfter format state).length = next.fmt + next.ofs)
    (rebased : next.escape = true → next.ofs = 0)
    (inside : next.escape =
      (readAfter format state).foldl insideAfter false)
    (consumed : Consumed args (readAfter format state) next.args) :
    HasRead format args next ∧
      format.bytes.take (next.fmt + next.ofs) = readAfter format state := by
  have same : format.bytes.take (next.fmt + next.ofs) =
      readAfter format state := by
    rw [← position, readAfter, List.take_eq_take_iff, List.length_take]
    omega
  have within : next.fmt + next.ofs ≤ format.length := by
    rw [← position, readAfter, List.length_take]
    exact Nat.min_le_right _ _
  exact ⟨⟨within, rebased, same ▸ inside, same ▸ consumed⟩, same⟩

/-- A flush at the byte which ends what a turn reads. -/
theorem advances_flushStr
    (cb : Callback σ) {format : CString} {args : List (Arg target)}
    {state : State target σ} {c : Byte} (width len : Nat)
    (outstr : List Byte) {moved : State target σ}
    (ends : c = 0 → readAfter format state = format.bytes)
    (position : c ≠ 0 →
      (readAfter format state).length = moved.fmt + moved.ofs)
    (further : state.fmt + state.ofs < moved.fmt + moved.ofs)
    (inside : c ≠ 0 → moved.escape =
      (readAfter format state).foldl insideAfter false)
    (consumed : Consumed args (readAfter format state) moved.args) :
    Advances cb format args state
      (.ok (flushStr cb c width outstr len moved)) := by
  have outcome := flushStr_outcome cb c width len outstr moved
  cases flushed : flushStr cb c width outstr len moved with
  | inl next =>
      rw [flushed] at outcome
      rcases outcome with ⟨nonzero, fmt, ofs, escape, same⟩
      have reached : next.fmt + next.ofs = moved.fmt + moved.ofs := by
        rw [fmt, ofs, Nat.add_zero]
      rcases hasRead_of_readAfter _ ((position nonzero).trans reached.symm)
          (fun _ => ofs) (escape.trans (inside nonzero))
          (same.symm ▸ consumed) with
        ⟨hasRead, same⟩
      exact ⟨hasRead, same, reached.symm ▸ further⟩
  | inr result =>
      rw [flushed] at outcome
      rcases outcome with ⟨same, ended | failed⟩
      · exact ⟨same.symm ▸ consumed, Or.inl (ends ended)⟩
      · exact ⟨same.symm ▸ consumed, Or.inr failed⟩

/-- A turn outside an escape sequence reads one byte. -/
theorem advances_turn_literal
    (cb : Callback σ) {format : CString} {args : List (Arg target)}
    {state : State target σ} (hasRead : HasRead format args state)
    (literal : state.escape = false) :
    Advances cb format args state (turn cb format state) := by
  rcases hasRead with ⟨within, _, inside, consumed⟩
  have split := (List.take_append_drop (state.fmt + state.ofs)
    format.bytes).symm
  have length : (format.bytes.take (state.fmt + state.ofs)).length =
      state.fmt + state.ofs := List.length_take_of_le within
  have after : readAfter format state =
      format.bytes.take (state.fmt + state.ofs + 1) := by
    rw [readAfter, literal]
    rfl
  generalize format.bytes.take (state.fmt + state.ofs) = front at *
  generalize format.bytes.drop (state.fmt + state.ofs) = rest at *
  have reading : format.read (state.fmt + state.ofs) =
      .ok (deref rest) := by
    rw [← length]
    exact CString.read_append split
  rw [turn_literal cb reading literal]
  cases rest with
  | nil =>
      have all : readAfter format state = format.bytes := by
        rw [after, split, List.append_nil, ← length]
        exact List.take_of_length_le (Nat.le_succ _)
      have whole : front = format.bytes := by
        rw [split, List.append_nil]
      rw [deref_nil, if_pos (Or.inl rfl)]
      refine advances_flushStr cb 0 state.ofs _ (fun _ => all)
        (absurd rfl) (Nat.lt_succ_self _) (absurd rfl) ?_
      rw [all, ← whole]
      exact consumed
  | cons c ahead =>
      have nonzero : c ≠ 0 := CString.ne_zero_of_split split
      have one : readAfter format state = front ++ [c] := by
        rw [after, split, ← length, List.take_length_add_append]
        rfl
      have position : (readAfter format state).length =
          state.fmt + (state.ofs + 1) := by
        rw [one, List.length_append, length]
        rfl
      have paid : Consumed args (readAfter format state) state.args := by
        rw [one]
        refine consumed.more (List.nil_append _).symm ?_
        rw [← inside, literal]
        rfl
      have onward : (readAfter format state).foldl insideAfter false =
          decide (c = '%'.toUInt8) := by
        rw [one, List.foldl_append, ← inside, literal]
        rfl
      rw [deref_cons]
      by_cases percent : c = '%'.toUInt8
      · rw [if_pos (Or.inr percent)]
        exact advances_flushStr cb 0 state.ofs _ (absurd · nonzero)
          (fun _ => position) (Nat.lt_succ_self _)
          (fun _ => by rw [onward, percent]; rfl) paid
      · rw [if_neg (not_or.mpr ⟨nonzero, percent⟩)]
        rcases hasRead_of_readAfter { state with ofs := state.ofs + 1 } position
            (fun escape =>
              absurd (literal.symm.trans escape) Bool.false_ne_true)
            (by rw [onward, decide_eq_false percent]; exact literal) paid with
          ⟨hasRead, same⟩
        exact ⟨hasRead, same, Nat.lt_succ_self _⟩

/-- A fetch takes the first argument, unless that has another type. -/
def Fetches {α : Type} (args : List (Arg target)) :
    Except Fault (α × List (Arg target)) → Prop
  | .error fault => fault = .badArgument
  | .ok (_, left) => ∃ arg, args = [arg] ++ left

theorem vaArg_fetches (kind : ArgKind) (args : List (Arg target)) :
    Fetches args (vaArg kind args) := by
  have typed (arg : Arg target) (rest : List (Arg target)) (v : BitVec 64)
      (expected : ArgKind) :
      Fetches (arg :: rest)
        (if kind = expected then .ok (v, rest) else .error .badArgument) := by
    by_cases same : kind = expected
    · rw [if_pos same]
      exact ⟨arg, rfl⟩
    · rw [if_neg same]
      rfl
  cases args with
  | nil => rfl
  | cons arg rest =>
      cases arg with
      | int value => exact typed _ rest _ .int
      | long value => exact typed _ rest _ .long
      | longLong value => exact typed _ rest _ .longLong
      | pointer value => exact typed _ rest _ .pointer
      | string value => rfl

theorem vaString_fetches (args : List (Arg target)) :
    Fetches args (vaString args) := by
  cases args with
  | nil => rfl
  | cons arg rest =>
      cases arg with
      | string value => exact ⟨.string value, rfl⟩
      | int value => rfl
      | long value => rfl
      | longLong value => rfl
      | pointer value => rfl

theorem insideAfter_of_takes {c : Byte} (takes : takesArgument c = true) :
    insideAfter true c = false := by
  rw [insideAfter, if_pos rfl, takes]
  rfl

section Escaped

variable (cb : Callback σ) {format : CString} {args : List (Arg target)}
  {state moved : State target σ} {front : List Byte} {c : Byte}
  (width : Nat)

/-- A turn behind a `%` has read all but the byte it dispatches on. -/
structure Dispatches (format : CString) (args : List (Arg target))
    (state moved : State target σ) (front : List Byte) (c : Byte) :
    Prop where
  nonzero : c ≠ 0
  read : readAfter format state = front ++ [c]
  inside : front.foldl insideAfter false = true
  consumed : Consumed args front moved.args
  closed : moved.escape = false
  position : (readAfter format state).length = moved.fmt + moved.ofs
  further : state.fmt + state.ofs < moved.fmt + moved.ofs

variable (dispatches : Dispatches format args state moved front c)

include dispatches

theorem Dispatches.onward :
    (readAfter format state).foldl insideAfter false =
      insideAfter true c := by
  rw [dispatches.read, List.foldl_append, dispatches.inside]
  rfl

/-- The byte takes the arguments that are fetched for it. -/
theorem Dispatches.paid
    {fetched left : List (Arg target)}
    (split : moved.args = fetched ++ left)
    (count : fetched.length = if takesArgument c then 1 else 0) :
    Consumed args (readAfter format state) left := by
  rw [dispatches.read]
  refine dispatches.consumed.more split ?_
  rw [dispatches.inside, completed, Bool.true_and, count]
  rfl

/-- A byte that takes no argument. -/
theorem Dispatches.free (silent : takesArgument c = false) :
    Consumed args (readAfter format state) moved.args :=
  dispatches.paid (List.nil_append _).symm (by rw [silent]; rfl)

/-- The flush of a conversion closes the escape sequence. -/
theorem advances_conversion
    {left : List (Arg target)} (outstr : List Byte)
    (closes : insideAfter true c = false)
    (paid : Consumed args (readAfter format state) left) :
    Advances cb format args state
      (.ok (flushStr cb c width outstr outstr.length
        { moved with args := left })) :=
  advances_flushStr cb width outstr.length outstr
    (absurd · dispatches.nonzero) (fun _ => dispatches.position)
    dispatches.further
    (fun _ => dispatches.closed.trans (dispatches.onward.trans closes).symm)
    paid

/-- A conversion that fetches an argument. -/
theorem advances_fetched
    {α : Type} {fetch : Except Fault (α × List (Arg target))}
    (fetches : Fetches moved.args fetch)
    (takes : takesArgument c = true) (outstr : α → List Byte) :
    Advances cb format args state
      (do
        let (value, left) ← fetch
        return flushStr cb c width (outstr value) (outstr value).length
          { moved with args := left }) := by
  cases fetch with
  | error fault => exact fetches
  | ok value =>
      rcases fetches with ⟨arg, split⟩
      exact advances_conversion cb width dispatches (outstr value.1)
        (insideAfter_of_takes takes)
        (dispatches.paid split (by rw [takes]; rfl))

/-- A modifier keeps the escape sequence open. -/
theorem advances_modifier
    (stays : insideAfter true c = true) (silent : takesArgument c = false)
    (lpref : Byte) :
    Advances cb format args state
      (.ok (doEscape c { moved with lpref, escape := true })) := by
  let next : State target σ :=
    { moved with
      fmt := moved.fmt + moved.ofs, ofs := 0, lpref, escape := true }
  have modified : doEscape c { moved with lpref, escape := true } =
      .inl next := if_neg dispatches.nonzero
  rcases hasRead_of_readAfter next dispatches.position (fun _ => rfl)
      (dispatches.onward.trans stays).symm (dispatches.free silent) with
    ⟨hasRead, same⟩
  rw [modified]
  exact ⟨hasRead, same, dispatches.further⟩

/-- The code of an escape sequence from the byte behind its width on. -/
theorem advances_escaped :
    Advances cb format args state (escaped cb c width moved) := by
  rw [escaped]
  by_cases numeric : isNumeric c = true
  · rw [if_pos numeric]
    exact advances_fetched cb width dispatches (vaArg_fetches _ moved.args)
      (by rw [takesArgument_eq, numeric, Bool.true_or])
      fun v => textOf (tmpbuf target moved.lpref c v)
  rw [if_neg numeric]
  by_cases isString : c = 's'.toUInt8
  · rw [if_pos isString]
    exact advances_fetched cb width dispatches (vaString_fetches moved.args)
      (by rw [isString]; decide) stringText
  rw [if_neg isString]
  have silent : takesArgument c = false := by
    rw [takesArgument_eq, Bool.eq_false_iff.mpr numeric,
      decide_eq_false isString]
    rfl
  by_cases isErrno : c = 'm'.toUInt8
  · rw [if_pos isErrno]
    exact advances_conversion cb width dispatches _ (by rw [isErrno]; decide)
      (dispatches.free silent)
  rw [if_neg isErrno]
  by_cases percent : c = '%'.toUInt8
  · rw [if_pos percent]
    have closes : insideAfter true c = false := by
      rw [percent]
      decide
    rcases hasRead_of_readAfter _ dispatches.position
        (fun escape =>
          absurd (dispatches.closed.symm.trans escape) Bool.false_ne_true)
        (dispatches.closed.trans (dispatches.onward.trans closes).symm)
        (dispatches.free silent) with
      ⟨hasRead, same⟩
    exact ⟨hasRead, same, dispatches.further⟩
  · rw [if_neg percent]
    have stays : insideAfter true c = true := by
      rw [insideAfter, if_pos rfl, silent, decide_eq_false isErrno,
        decide_eq_false percent]
      rfl
    exact advances_modifier cb dispatches stays silent _

end Escaped

/-- A turn in an escape sequence reads the width digits and a byte more. -/
theorem advances_turn_escape
    (cb : Callback σ) {format : CString} {args : List (Arg target)}
    {state : State target σ} (hasRead : HasRead format args state)
    (escape : state.escape = true) :
    Advances cb format args state (turn cb format state) := by
  rcases hasRead with ⟨within, rebased, inside, consumed⟩
  have ofs := rebased escape
  rw [ofs, Nat.add_zero] at within inside consumed
  have split := (List.take_append_drop state.fmt format.bytes).symm
  have length : (format.bytes.take state.fmt).length = state.fmt :=
    List.length_take_of_le within
  have after : readAfter format state =
      format.bytes.take (state.fmt +
        ((format.bytes.drop state.fmt).takeWhile isDigit).length + 1) := by
    rw [readAfter, escape, ofs]
    rfl
  generalize format.bytes.take state.fmt = front at *
  generalize format.bytes.drop state.fmt = rest at *
  rcases digits_split rest with
    ⟨digits, tail, rfl, same, allDigits, stops⟩
  rw [same, ← length] at after
  rcases insideAfter_digits allDigits with ⟨none, open'⟩
  rw [turn_escape cb split allDigits stops length.symm ofs escape]
  -- Behind the digits the sequence is still open, and nothing is fetched.
  have padded : Consumed args (front ++ digits) state.args :=
    consumed.more (List.nil_append _).symm
      (by rw [← inside, escape, none]; rfl)
  have stillInside : (front ++ digits).foldl insideAfter false = true := by
    rw [List.foldl_append, ← inside, escape, open']
  cases tail with
  | nil =>
      have all : readAfter format state = format.bytes := by
        rw [after, split, List.append_nil]
        exact List.take_of_length_le (by simp)
      rw [deref_nil, escaped_nul]
      refine ⟨?_, Or.inl all⟩
      rw [all, split, List.append_nil]
      exact padded
  | cons c ahead =>
      have flat : format.bytes = (front ++ digits) ++ c :: ahead := by
        rw [split, List.append_assoc]
      have nonzero : c ≠ 0 := CString.ne_zero_of_split flat
      have one : readAfter format state = (front ++ digits) ++ [c] := by
        rw [after, flat, ← List.length_append, List.take_length_add_append]
        rfl
      have position : (readAfter format state).length =
          state.fmt + (digits.length + 1) := by
        rw [one, List.length_append, List.length_append, length]
        rfl
      have further : state.fmt + state.ofs <
          state.fmt + (digits.length + 1) := by
        rw [ofs]
        omega
      rw [deref_cons]
      exact advances_escaped cb (widthOf digits)
        ⟨nonzero, one, stillInside, padded, rfl, position, further⟩

/-! ## Whole runs -/

theorem advances_turn
    (cb : Callback σ) {format : CString} {args : List (Arg target)}
    {state : State target σ} (hasRead : HasRead format args state) :
    Advances cb format args state (turn cb format state) := by
  cases escape : state.escape with
  | false => exact advances_turn_literal cb hasRead escape
  | true => exact advances_turn_escape cb hasRead escape

section Call

variable (cb : Callback σ) (io : σ) (n : Nat) (format : CString)
  (args : List (Arg target))

/-- The states at the start of the turns of a call. -/
def Reached (state : State target σ) : Prop :=
  Loop.Reaches (turn cb format) ⟨0, 0, false, 0, n, 0, args, io⟩ state

theorem hasRead_start :
    HasRead format args
      (⟨0, 0, false, 0, n, 0, args, io⟩ : State target σ) where
  within := Nat.zero_le _
  rebased := fun impossible => absurd impossible Bool.false_ne_true
  inside := rfl
  consumed := ⟨[], rfl, rfl⟩

theorem Reached.hasRead
    {state : State target σ} (reached : Reached cb io n format args state) :
    HasRead format args state := by
  refine Loop.Reaches.invariant reached ?_ (hasRead_start io n format args)
  intro state next hasRead step
  have advances := advances_turn cb hasRead
  rw [step] at advances
  exact advances.1

/-- A call ends in a state it reaches, with what the last turn leaves. -/
theorem nolibcPrintf_ends :
    ∃ last, Reached cb io n format args last ∧
      ((∃ fault, turn cb format last = .error fault ∧
          nolibcPrintf cb io n format args = .error fault) ∨
        ∃ result, turn cb format last = .ok (.inr result) ∧
          nolibcPrintf cb io n format args = .ok result) := by
  have preserved {state next : State target σ}
      (hasRead : HasRead format args state)
      (step : turn cb format state = .ok (.inl next)) :
      HasRead format args next ∧
        format.length - (next.fmt + next.ofs) <
          format.length - (state.fmt + state.ofs) := by
    have advances := advances_turn cb hasRead
    rw [step] at advances
    rcases advances with ⟨onward, _, further⟩
    have within := onward.within
    exact ⟨onward, by omega⟩
  rcases Loop.run_ends preserved (hasRead_start io n format args)
      (format.length + 2) (by omega) with
    ⟨last, reached, _, ends⟩
  exact ⟨last, reached, ends⟩

/--
Whatever the format and whatever the callback answers, a call ends without a
read behind the NUL of the format, and without any other fault when the
arguments have the types of the conversions.  At every turn the arguments
that are gone are the ones of the conversions completed so far, and at the end
those of the conversions completed by the bytes read, which are all the bytes
unless a call of the callback fails.
-/
theorem nolibcPrintf_reads :
    (∀ fault, nolibcPrintf cb io n format args = .error fault →
        fault = .badArgument) ∧
      (Matching format args →
        ∃ result, nolibcPrintf cb io n format args = .ok result) ∧
      (∀ state, Reached cb io n format args state →
        HasRead format args state) ∧
      ∀ result, nolibcPrintf cb io n format args = .ok result →
        ∃ last, Reached cb io n format args last ∧
          turn cb format last = .ok (.inr result) ∧
          Consumed args (readAfter format last) result.args ∧
          (readAfter format last = format.bytes ∨
            ∃ io chunk, (cb.call io chunk).1 ≠ 0) := by
  rcases nolibcPrintf_ends cb io n format args with ⟨last, reached, ends⟩
  have advances := advances_turn cb (reached.hasRead cb io n format args)
  refine ⟨?_, ?_, fun state reached =>
    reached.hasRead cb io n format args, ?_⟩
  · intro fault failed
    rcases ends with ⟨other, step, ran⟩ | ⟨result, _, ran⟩
    · rw [ran, Except.error.injEq] at failed
      rw [step] at advances
      exact failed.symm.trans advances
    · rw [ran] at failed
      cases failed
  · intro matching
    rcases emit_related _ _ (fun _ => True.intro) (fun _ _ => True.intro)
        (fun _ _ => True.intro) ⟨n, 0, args, io⟩ matching with
      ⟨result, ran, _⟩
    exact ⟨result, (nolibcPrintf_eq_emit cb io n format args).trans ran⟩
  · intro result returned
    rcases ends with ⟨fault, _, ran⟩ | ⟨other, step, ran⟩
    · rw [ran] at returned
      cases returned
    · rw [ran, Except.ok.injEq] at returned
      rw [step] at advances
      rw [← returned]
      exact ⟨last, reached, step, advances⟩

end Call

/-! ## Widths in front of a length modifier -/

/-- The directive of a width, a length modifier and a conversion. -/
def wideSource (modifiers : Modifiers) (width : Width)
    (argument : LongArgument target) (conversion : LongConversion) :
    List Byte :=
  '%'.toUInt8 ::
    (modifiers.bytes ++
      (width.digits ++ (argument.modifier ++ [conversion.letter])))

theorem wideSource_noNul
    (modifiers : Modifiers) (width : Width)
    (argument : LongArgument target) (conversion : LongConversion) :
    (0 : Byte) ∉ wideSource modifiers width argument conversion := by
  have inModifiers : (0 : Byte) ∉ modifiers.bytes := fun member =>
    absurd (modifiers.unknown 0 member) (by decide)
  have inDigits : (0 : Byte) ∉ width.digits := fun member =>
    isDigit_ne_zero (width.allDigits 0 member) rfl
  cases argument <;> cases conversion <;>
    simp [wideSource, inModifiers, inDigits, LongArgument.modifier,
      LongConversion.letter]

/-- The directive as a format. -/
def wideFormat (modifiers : Modifiers) (width : Width)
    (argument : LongArgument target) (conversion : LongConversion) :
    CString :=
  ⟨wideSource modifiers width argument conversion,
    wideSource_noNul modifiers width argument conversion⟩

/-- The directive emits what it emits without a width, padded to the width. -/
def PadsToWidth (errnum : Errno) (modifiers : Modifiers) (width : Width)
    (argument : LongArgument target) (conversion : LongConversion) : Prop :=
  ∃ text,
    expansion errnum (formatString [.long modifiers argument conversion])
        [argument.arg] = .ok text ∧
      expansion errnum (wideFormat modifiers width argument conversion)
          [argument.arg] =
        .ok (text.leftpad (decimalValue width.digits) ' '.toUInt8)

/-- The modifier starts the loop again, which resets the width. -/
theorem readFrom_wide
    (width : Width) (argument : LongArgument target)
    (conversion : LongConversion) (rest : List Byte) :
    readFrom (.escape 0 [])
        (width.digits ++ (argument.modifier ++ conversion.letter :: rest)) =
      .numeric 0 argument.lpref conversion.letter ::
        readFrom (.literal []) rest := by
  rw [readFrom_digits 0 [] width.digits _ width.allDigits]
  cases argument <;> cases conversion <;> rfl

theorem reference_length_le
    {bits : Nat} (narrow : bits ≤ 64) (value : BitVec bits)
    (conversion : LongConversion) :
    (conversion.reference value).length ≤ 65 := by
  have small : value.toNat < 2 ^ 64 :=
    value.isLt.trans_le (Nat.pow_le_pow_right (by decide) narrow)
  cases conversion with
  | signed =>
      have magnitude : value.toInt.natAbs < 10 ^ 64 := by
        have bounded : value.toInt.natAbs ≤ 2 ^ 64 := by
          have toInt := BitVec.toInt_eq_toNat_cond value
          have power : 2 ^ bits ≤ 2 ^ 64 :=
            Nat.pow_le_pow_right (by decide) narrow
          split_ifs at toInt <;> omega
        exact bounded.trans_lt (by decide)
      have length := signedDecimal_length_le (by decide) magnitude
      refine length.trans ?_
      split_ifs
      · exact Nat.le_refl 65
      · exact Nat.le_succ 64
  | unsigned =>
      exact (decimal_length_le (by decide)
        (small.trans (by decide : 2 ^ 64 < 10 ^ 64))).trans (Nat.le_succ 64)
  | hex =>
      exact (hexadecimal_length_le (by decide)
        (small.trans (by decide : 2 ^ 64 < 16 ^ 64))).trans (Nat.le_succ 64)

/-- A format that is read as one directive emits the text of its value. -/
theorem expansion_of_directives
    (errnum : Errno) {format : CString} (argument : LongArgument target)
    (conversion : LongConversion)
    (read : directives format =
      [.run [], .numeric 0 argument.lpref conversion.letter, .run []]) :
    expansion errnum format [argument.arg] =
      .ok (argument.reference conversion) := by
  have resolved : pieces errnum format [argument.arg] =
      .ok [⟨0, []⟩, ⟨0, argument.reference conversion⟩, ⟨0, []⟩] := by
    rw [pieces, read, piecesOf_cons rfl
      (piecesOf_cons (argument.pieceOf_eq conversion errnum [])
        (piecesOf_cons rfl rfl))]
    rfl
  have short : (argument.reference conversion).length ≤ 65 := by
    cases argument with
    | l value =>
        exact reference_length_le (longBits_le target) value conversion
    | ll value =>
        exact reference_length_le (Nat.le_refl 64) value conversion
    | j value =>
        exact reference_length_le (Nat.le_refl 64) value conversion
  have room : textLength
      [⟨0, []⟩, ⟨0, argument.reference conversion⟩, ⟨0, []⟩] <
        target.sizeMax := by
    simp only [textLength_cons, textLength_nil, List.length_nil]
    rcases target.sizeMax_cases with size | size <;> omega
  rw [expansion_eq resolved, chunks_uncut room]
  simp [render, Piece.render]

section Wide

variable (errnum : Errno) (modifiers : Modifiers) (width : Width)
  (argument : LongArgument target) (conversion : LongConversion)

theorem expansion_long :
    expansion errnum (formatString [.long modifiers argument conversion])
        [argument.arg] =
      .ok (argument.reference conversion) := by
  apply expansion_of_directives
  have opened : directives
      (formatString [.long modifiers argument conversion]) =
        readFrom (.literal [])
          ((Item.long modifiers argument conversion).source ++ []) := rfl
  rw [opened, readFrom_item]
  rfl

/-- Whatever the width, the directive emits the text of its value. -/
theorem expansion_wide :
    expansion errnum (wideFormat modifiers width argument conversion)
        [argument.arg] =
      .ok (argument.reference conversion) := by
  apply expansion_of_directives
  have opened : directives (wideFormat modifiers width argument
      conversion) =
        .run [] :: readFrom (.escape 0 [])
          (modifiers.bytes ++
            (width.digits ++
              (argument.modifier ++ [conversion.letter]))) := rfl
  rw [opened, readFrom_modifiers, readFrom_wide]
  rfl

/--
A width in front of `l`, `ll` or `j` pads nothing, so that a directive is as
wide as it asks for exactly when its text is.
-/
theorem padsToWidth_iff :
    PadsToWidth errnum modifiers width argument conversion ↔
      decimalValue width.digits ≤
        (argument.reference conversion).length := by
  have plain := expansion_long errnum modifiers argument conversion
  have wide := expansion_wide errnum modifiers width argument conversion
  constructor
  · rintro ⟨text, emitted, padded⟩
    rw [plain, Except.ok.injEq] at emitted
    rw [wide, Except.ok.injEq, ← emitted] at padded
    have length := congrArg List.length padded
    rw [List.length_leftpad] at length
    omega
  · intro narrow
    refine ⟨_, plain, wide.trans (congrArg Except.ok ?_)⟩
    rw [List.leftpad, Nat.sub_eq_zero_of_le narrow, List.replicate_zero,
      List.nil_append]

end Wide

/-- `%10ld` prints 5 in one character. -/
theorem width_lost :
    ¬ PadsToWidth 0 ⟨[], by decide⟩
      ⟨['1'.toUInt8, '0'.toUInt8], by decide, by decide⟩
      (.l 5 : LongArgument .x86_64) .signed := by
  rintro ⟨text, emitted, padded⟩
  rw [expansion_long, Except.ok.injEq] at emitted
  rw [expansion_wide, Except.ok.injEq, ← emitted] at padded
  exact absurd padded (by decide)

end Nolibc.Stdio.FormatReading

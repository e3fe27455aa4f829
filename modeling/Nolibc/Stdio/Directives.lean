import Mathlib.Data.List.Infix
import Nolibc.Stdio.Printf

/-!
# Formats as lists of directives

The engine mixes two concerns: where it stands in the format, and what it
hands to its callback.  This module separates them.  `directives` reads a
format, well formed or not, one byte at a time and returns the list of the
runs and conversions in it; `emit` executes such a list.  The main theorem,
`nolibcPrintf_eq_emit`, says that the engine is the composition of the two:
same result, same arguments left, same callback state, same fault.

A reader in `literal` mode stands in a queued run; in `escape` mode it stands
after a `%` and its modifiers, with the width digits read since the last one.
-/

set_option autoImplicit false

namespace Nolibc.Stdio.Directives

open Nolibc.Machine
open Nolibc.Foundation
open Nolibc.Stdio.Printf

/-- One call of `flush_str` as the format asks for it. -/
inductive Directive where
  | run (bytes : List Byte)
  | numeric (width : Nat) (lpref conv : Byte)
  | string (width : Nat)
  | errnoText (width : Nat)
  deriving DecidableEq, Repr

/-- Where the reader of a format stands. -/
inductive Mode where
  | literal (queued : List Byte)
  | escape (lpref : Byte) (digits : List Byte)

/-- The width accumulated over a run of digits, as an `unsigned int`. -/
def widthOf (digits : List Byte) : Nat :=
  digits.foldl
    (fun width digit =>
      (width * 10 % 2 ^ 32 + (digit.toNat - '0'.toNat)) % 2 ^ 32) 0

/-- `l` and `j` set the length prefix; any other modifier leaves it. -/
def nextLpref (lpref c : Byte) : Byte :=
  if c = 'l'.toUInt8 then
    lpref + 1
  else if c = 'j'.toUInt8 then
    2
  else
    lpref

/-- Read a format from a mode on. -/
def readFrom : Mode → List Byte → List Directive
  | .literal queued, [] => [.run queued]
  | .escape _ _, [] => []
  | .literal queued, c :: rest =>
      if c = '%'.toUInt8 then
        .run queued :: readFrom (.escape 0 []) rest
      else
        readFrom (.literal (queued ++ [c])) rest
  | .escape lpref digits, c :: rest =>
      if isDigit c then
        readFrom (.escape lpref (digits ++ [c])) rest
      else if isNumeric c then
        .numeric (widthOf digits) lpref c :: readFrom (.literal []) rest
      else if c = 's'.toUInt8 then
        .string (widthOf digits) :: readFrom (.literal []) rest
      else if c = 'm'.toUInt8 then
        .errnoText (widthOf digits) :: readFrom (.literal []) rest
      else if c = '%'.toUInt8 then
        -- the width digits stay in the queued run in front of the `%`
        readFrom (.literal (digits ++ [c])) rest
      else
        readFrom (.escape (nextLpref lpref c) []) rest

/-- The directives of a format. -/
def directives (format : CString) : List Directive :=
  readFrom (.literal []) format.bytes

/-! ## Executing directives -/

variable {target : Target} {σ : Type}

/-- The part of the engine's state that does not concern the format. -/
structure Output (target : Target) (σ : Type) where
  n : Nat
  written : Nat
  args : List (Arg target)
  io : σ

/-- `return written`. -/
def Output.finish (output : Output target σ) : Return target σ :=
  ⟨intOfUnsigned output.written, output.args, output.io⟩

/-- The code between `flush_str` and `do_escape`; `.inr` is a `break`. -/
def flush (cb : Callback σ) (width : Nat) (text : List Byte)
    (output : Output target σ) :
    Output target σ ⊕ Return target σ :=
  if output.n ≠ 0 then
    let w := min text.length output.n
    let (written, io) := padLoop cb w width output.written output.io
    let (failed, io) := cb.call io (text.take w)
    if failed ≠ 0 then
      .inr { output with n := output.n - w, written, io }.finish
    else
      .inl
        { output with
          n := output.n - w
          written := (written + text.length) % 2 ^ 32
          io }
  else
    .inl
      { output with
        written := (output.written + text.length) % 2 ^ 32 }

/-- Fetch the arguments of one directive and flush it. -/
def execute (cb : Callback σ) (output : Output target σ) :
    Directive →
      Except Fault (Output target σ ⊕ Return target σ)
  | .run bytes => .ok (flush cb 0 bytes output)
  | .numeric width lpref conv => do
      let (v, args) ←
        vaArg (numericKind target lpref conv) output.args
      return flush cb width (textOf (tmpbuf target lpref conv v))
        { output with args }
  | .string width => do
      let (string, args) ← vaString output.args
      return flush cb width (stringText string) { output with args }
  | .errnoText width =>
      .ok (flush cb width (strerror (cb.errno output.io)) output)

/-- Go on after one directive unless it failed or broke out of the loop. -/
def proceed
    (next : Output target σ → Except Fault (Return target σ)) :
    Except Fault (Output target σ ⊕ Return target σ) →
      Except Fault (Return target σ)
  | .error fault => .error fault
  | .ok (.inr result) => .ok result
  | .ok (.inl output) => next output

/-- Execute the directives in order, up to the first `break`. -/
def emit (cb : Callback σ) :
    List Directive → Output target σ → Except Fault (Return target σ)
  | [], output => .ok output.finish
  | directive :: rest, output =>
      proceed (emit cb rest) (execute cb output directive)

/-! ## The width loop reads the digits -/

theorem widthOf_append (digits : List Byte) (digit : Byte) :
    widthOf (digits ++ [digit]) =
      (widthOf digits * 10 % 2 ^ 32 +
        (digit.toNat - '0'.toNat)) % 2 ^ 32 := by
  simp [widthOf]

theorem isDigit_ne_zero {c : Byte} (digit : isDigit c = true) :
    c ≠ 0 := by
  rintro rfl
  simp [isDigit] at digit

/-- The digits some bytes start with end at the first byte that is none. -/
theorem digits_split (bytes : List Byte) :
    ∃ digits tail, bytes = digits ++ tail ∧
      bytes.takeWhile isDigit = digits ∧
      (∀ c ∈ digits, isDigit c = true) ∧ isDigit (deref tail) = false := by
  refine ⟨bytes.takeWhile isDigit, bytes.dropWhile isDigit,
    List.takeWhile_append_dropWhile.symm, rfl,
    fun c member => List.all_eq_true.mp List.all_takeWhile c member, ?_⟩
  cases equal : bytes.dropWhile isDigit with
  | nil => rfl
  | cons c tail =>
      have head := List.head_dropWhile_not isDigit (l := bytes)
        (by simp [equal])
      simpa [equal] using head

/-- Reading width digits only extends the digits of the mode. -/
theorem readFrom_digits
    (lpref : Byte) (digits more rest : List Byte)
    (allDigits : ∀ c ∈ more, isDigit c = true) :
    readFrom (.escape lpref digits) (more ++ rest) =
      readFrom (.escape lpref (digits ++ more)) rest := by
  induction more generalizing digits with
  | nil => simp
  | cons c more induction =>
      have digit : isDigit c = true := allDigits c (by simp)
      rw [List.cons_append, readFrom, if_pos digit,
        induction (digits ++ [c])
          (fun other member => allDigits other (by simp [member]))]
      simp

/-- The width loop stops behind the digits with their value. -/
theorem widthLoop_eq
    {format : CString} {front digits tail : List Byte}
    (split : format.bytes = front ++ (digits ++ tail))
    (allDigits : ∀ c ∈ digits, isDigit c = true)
    (stops : isDigit (deref tail) = false) :
    widthLoop format front.length ⟨deref (digits ++ tail), 1, 0⟩ =
      .ok ⟨deref tail, digits.length + 1, widthOf digits⟩ := by
  have advance {read rest : List Byte} {c : Byte}
      (digitsAt : digits = read ++ c :: rest) :
      widthTurn format front.length
          ⟨deref (c :: rest ++ tail), read.length + 1, widthOf read⟩ =
        .ok (.inl ⟨deref (rest ++ tail), (read ++ [c]).length + 1,
          widthOf (read ++ [c])⟩) := by
    have digit : isDigit c = true := allDigits c (by simp [digitsAt])
    have flat :
        format.bytes = (front ++ (read ++ [c])) ++ (rest ++ tail) := by
      simp [split, digitsAt]
    have nextByte :
        format.read (front.length + (read.length + 1)) =
          .ok (deref (rest ++ tail)) := by
      simpa using CString.read_append flat
    simp [widthTurn, digit, nextByte, widthOf_append, bind, Except.bind,
      pure, Except.pure]
  have leave :
      widthTurn format front.length
          ⟨deref ([] ++ tail), digits.length + 1, widthOf digits⟩ =
        .ok (.inr ⟨deref tail, digits.length + 1, widthOf digits⟩) := by
    simp [widthTurn, stops, pure, Except.pure]
  have enough : digits.length < format.length + 2 := by
    simp only [CString.length, split, List.length_append]
    omega
  exact Loop.run_scan _
    (fun read rest =>
      (⟨deref (rest ++ tail), read.length + 1, widthOf read⟩ : Scan))
    advance leave enough

/-! ## The engine executes the directives of its format -/

/-- The format-independent part of an engine state. -/
def outputOf (state : State target σ) : Output target σ :=
  ⟨state.n, state.written, state.args, state.io⟩

/-- Replace the format-independent part of an engine state. -/
def withOutput (state : State target σ) (output : Output target σ) :
    State target σ :=
  { state with
    n := output.n
    written := output.written
    args := output.args
    io := output.io }

/-- `flush_str` is `flush` followed by `do_escape`. -/
theorem flushStr_eq
    (cb : Callback σ) (c : Byte) (width len : Nat)
    (outstr : List Byte) (state : State target σ)
    (long : len ≤ outstr.length) :
    flushStr cb c width outstr len state =
      match flush cb width (outstr.take len) (outputOf state) with
      | .inl output => doEscape c (withOutput state output)
      | .inr result => .inr result := by
  have shortened : min len state.n =
      if len < state.n then len else state.n := by
    split_ifs <;> omega
  have textLength : (outstr.take len).length = len := by
    simp [long]
  unfold flushStr flush
  by_cases spent : state.n = 0
  · simp [outputOf, withOutput, spent, textLength]
  · simp only [outputOf, ne_eq, spent, not_false_eq_true, if_true,
      textLength, List.take_take, shortened]
    split_ifs <;> simp_all [withOutput, State.finish, Output.finish]

/-- The engine stands in a mode of the reader, with `rest` unread. -/
inductive Stands (format : CString) (state : State target σ) :
    Mode → List Byte → Prop where
  | literal
      {front queued rest : List Byte}
      (split : format.bytes = front ++ (queued ++ rest))
      (fmt : state.fmt = front.length)
      (ofs : state.ofs = queued.length)
      (escape : state.escape = false) :
      Stands format state (.literal queued) rest
  | escape
      {front rest : List Byte}
      (split : format.bytes = front ++ rest)
      (fmt : state.fmt = front.length)
      (ofs : state.ofs = 0)
      (escape : state.escape = true) :
      Stands format state (.escape state.lpref []) rest

/-- What one turn of the engine does to the directives ahead of it. -/
def Agrees (cb : Callback σ) (format : CString) (rest : List Byte)
    (expected : Except Fault (Return target σ)) :
    Except Fault (State target σ ⊕ Return target σ) → Prop
  | .error fault => expected = .error fault
  | .ok (.inr result) => expected = .ok result
  | .ok (.inl next) =>
      ∃ mode ahead, Stands format next mode ahead ∧
        ahead.length < rest.length ∧
        expected = emit cb (readFrom mode ahead) (outputOf next)

/-- After a flush the engine either breaks or opens the next mode. -/
theorem agrees_flushStr
    (cb : Callback σ) {format : CString} {rest ahead : List Byte}
    {c : Byte} (width : Nat) {len : Nat} {outstr : List Byte}
    (state : State target σ) (mode : Mode)
    (long : len ≤ outstr.length) (nonzero : c ≠ 0)
    (shorter : ahead.length < rest.length)
    (opens : ∀ output,
      Stands format
        { withOutput state output with
          fmt := state.fmt + state.ofs, ofs := 0 }
        mode ahead) :
    Agrees cb format rest
      (proceed (emit cb (readFrom mode ahead))
        (.ok (flush cb width (outstr.take len) (outputOf state))))
      (.ok (flushStr cb c width outstr len state)) := by
  rw [flushStr_eq cb c width len outstr state long]
  cases flush cb width (outstr.take len) (outputOf state) with
  | inl output =>
      simp only [doEscape, if_neg nonzero]
      exact ⟨mode, ahead, opens output, shorter, rfl⟩
  | inr result => rfl

/-- A turn outside an escape sequence, from the byte that it reads. -/
theorem turn_literal
    (cb : Callback σ) {format : CString} {state : State target σ} {c : Byte}
    (reading : format.read (state.fmt + state.ofs) = .ok c)
    (escape : state.escape = false) :
    turn cb format state =
      if c = 0 ∨ c = '%'.toUInt8 then
        .ok (flushStr cb c 0 (format.bytes.drop state.fmt) state.ofs
          { state with ofs := state.ofs + 1, escape := true, lpref := 0 })
      else
        .ok (.inl { state with ofs := state.ofs + 1 }) := by
  simp only [turn, reading, escape, bind, Except.bind, pure, Except.pure,
    Bool.false_eq_true, if_false, Nat.add_sub_cancel]

/-- A turn in a literal run. -/
theorem agrees_turn_literal
    (cb : Callback σ) {format : CString} {state : State target σ}
    {front queued rest : List Byte}
    (split : format.bytes = front ++ (queued ++ rest))
    (fmt : state.fmt = front.length)
    (ofs : state.ofs = queued.length)
    (escape : state.escape = false) :
    Agrees cb format rest
      (emit cb (readFrom (.literal queued) rest) (outputOf state))
      (turn cb format state) := by
  have flat : format.bytes = (front ++ queued) ++ rest := by
    simp [split]
  have reading : format.read (state.fmt + state.ofs) =
      .ok (deref rest) := by
    rw [fmt, ofs]
    simpa using CString.read_append flat
  have outstr : format.bytes.drop state.fmt = queued ++ rest := by
    simp [split, fmt]
  rw [turn_literal cb reading escape, outstr, ofs]
  cases rest with
  | nil =>
      rw [deref_nil, if_pos (Or.inl rfl),
        flushStr_eq _ _ _ _ _ _ (by simp)]
      simp only [List.append_nil, List.take_length, readFrom, emit,
        execute, outputOf]
      cases flush cb 0 queued
          ⟨state.n, state.written, state.args, state.io⟩ <;> rfl
  | cons c ahead =>
      have nonzero : c ≠ 0 := CString.ne_zero_of_split flat
      rw [deref_cons]
      by_cases percent : c = '%'.toUInt8
      · rw [if_pos (Or.inr percent)]
        let opened : State target σ :=
          { state with
            ofs := queued.length + 1, escape := true, lpref := 0 }
        have long : queued.length ≤ (queued ++ c :: ahead).length := by
          simp
        have shorter : ahead.length < (c :: ahead).length := by
          simp
        have onward :
            format.bytes = (front ++ queued ++ [c]) ++ ([] ++ ahead) := by
          simp [split]
        have reopened (output : Output target σ) :
            Stands format
              { withOutput opened output with
                fmt := state.fmt + (queued.length + 1), ofs := 0 }
              (.escape 0 []) ahead :=
          Stands.escape onward (by simp [fmt]) rfl rfl
        have flushed := agrees_flushStr cb 0 opened (.escape 0 []) long
          nonzero shorter reopened
        rw [List.take_left' rfl] at flushed
        rw [readFrom, if_pos percent, emit, execute]
        exact flushed
      · rw [if_neg (not_or.mpr ⟨nonzero, percent⟩), readFrom,
          if_neg percent]
        have extended :
            format.bytes = front ++ ((queued ++ [c]) ++ ahead) := by
          simp [split]
        exact ⟨.literal (queued ++ [c]), ahead,
          Stands.literal extended fmt (by simp) escape, by simp, rfl⟩

/-- Every byte the escape code tests for, apart from a NUL. -/
theorem escaped_nul
    (cb : Callback σ) (width : Nat) (state : State target σ) :
    escaped cb 0 width state = .ok (.inr state.finish) := by
  simp [escaped, isNumeric, doEscape, State.finish, pure, Except.pure]

/-- A turn behind a `%` reads the width digits and dispatches on the next
byte. -/
theorem turn_escape
    (cb : Callback σ) {format : CString} {state : State target σ}
    {front digits tail : List Byte}
    (split : format.bytes = front ++ (digits ++ tail))
    (allDigits : ∀ c ∈ digits, isDigit c = true)
    (stops : isDigit (deref tail) = false)
    (fmt : state.fmt = front.length)
    (ofs : state.ofs = 0)
    (escape : state.escape = true) :
    turn cb format state =
      escaped cb (deref tail) (widthOf digits)
        { state with ofs := digits.length + 1, escape := false } := by
  have reading : format.read front.length =
      .ok (deref (digits ++ tail)) :=
    CString.read_append split
  have scanned := widthLoop_eq split allDigits stops
  simp only [turn, fmt, ofs, Nat.add_zero, Nat.zero_add, reading, escape,
    if_true, bind, Except.bind, scanned]

/-- Flushing a conversion puts the reader back into an empty literal run. -/
theorem agrees_conversion
    (cb : Callback σ) {format : CString}
    {front digits ahead : List Byte} {c : Byte}
    {state : State target σ}
    (split : format.bytes = front ++ (digits ++ c :: ahead))
    (fmt : state.fmt = front.length)
    (args : List (Arg target)) (text : List Byte) :
    Agrees cb format (digits ++ c :: ahead)
      (proceed (emit cb (readFrom (.literal []) ahead))
        (.ok (flush cb (widthOf digits) text
          { outputOf state with args })))
      (.ok (flushStr cb c (widthOf digits) text text.length
        { state with ofs := digits.length + 1, escape := false, args })) := by
  let fetched : State target σ :=
    { state with ofs := digits.length + 1, escape := false, args }
  have flat : format.bytes = (front ++ digits) ++ c :: ahead := by
    simp [split]
  have nonzero : c ≠ 0 := CString.ne_zero_of_split flat
  have shorter : ahead.length < (digits ++ c :: ahead).length := by
    simp only [List.length_append, List.length_cons]
    omega
  have onward :
      format.bytes = (front ++ (digits ++ [c])) ++ ([] ++ ahead) := by
    simp [split]
  have reopened (output : Output target σ) :
      Stands format
        { withOutput fetched output with
          fmt := state.fmt + (digits.length + 1), ofs := 0 }
        (.literal []) ahead :=
    Stands.literal onward (by simp [fmt]) rfl rfl
  have flushed := agrees_flushStr cb (widthOf digits) fetched (.literal [])
    (Nat.le_refl text.length) nonzero shorter reopened
  rwa [List.take_length] at flushed

/-- A turn in an escape sequence. -/
theorem agrees_turn_escape
    (cb : Callback σ) {format : CString} {state : State target σ}
    {front rest : List Byte}
    (split : format.bytes = front ++ rest)
    (fmt : state.fmt = front.length)
    (ofs : state.ofs = 0)
    (escape : state.escape = true) :
    Agrees cb format rest
      (emit cb (readFrom (.escape state.lpref []) rest) (outputOf state))
      (turn cb format state) := by
  rcases digits_split rest with
    ⟨digits, tail, rfl, _, allDigits, stops⟩
  rw [turn_escape cb split allDigits stops fmt ofs escape,
    readFrom_digits _ [] digits tail allDigits, List.nil_append]
  cases tail with
  | nil =>
      rw [deref_nil, escaped_nul]
      rfl
  | cons c ahead =>
      have flat : format.bytes = (front ++ digits) ++ c :: ahead := by
        simp [split]
      have nonzero : c ≠ 0 := CString.ne_zero_of_split flat
      have shorter : ahead.length < (digits ++ c :: ahead).length := by
        simp only [List.length_append, List.length_cons]
        omega
      rw [deref_cons] at stops ⊢
      rw [readFrom, if_neg (by simp [stops])]
      unfold escaped
      by_cases numeric : isNumeric c = true
      · rw [if_pos numeric, if_pos numeric, emit, execute]
        simp only [outputOf]
        cases vaArg (numericKind target state.lpref c) state.args with
        | error fault => rfl
        | ok fetched =>
            exact agrees_conversion cb split fmt fetched.2
              (textOf (tmpbuf target state.lpref c fetched.1))
      rw [if_neg numeric, if_neg numeric]
      by_cases isString : c = 's'.toUInt8
      · rw [if_pos isString, if_pos isString, emit, execute]
        simp only [outputOf]
        cases vaString state.args with
        | error fault => rfl
        | ok fetched =>
            exact agrees_conversion cb split fmt fetched.2
              (stringText fetched.1)
      rw [if_neg isString, if_neg isString]
      by_cases isErrno : c = 'm'.toUInt8
      · rw [if_pos isErrno, if_pos isErrno, emit, execute]
        exact agrees_conversion cb split fmt state.args
          (strerror (cb.errno state.io))
      rw [if_neg isErrno, if_neg isErrno]
      by_cases percent : c = '%'.toUInt8
      · rw [if_pos percent, if_pos percent]
        have extended :
            format.bytes = front ++ ((digits ++ [c]) ++ ahead) := by
          simp [split]
        exact ⟨.literal (digits ++ [c]), ahead,
          Stands.literal extended fmt (by simp) rfl, shorter, rfl⟩
      · rw [if_neg percent, if_neg percent]
        simp only [doEscape, if_neg nonzero]
        have onward :
            format.bytes = (front ++ (digits ++ [c])) ++ ([] ++ ahead) := by
          simp [split]
        exact ⟨.escape (nextLpref state.lpref c) [], ahead,
          Stands.escape onward (by simp [fmt]) rfl rfl, shorter, rfl⟩

/-- Every turn agrees with the directives ahead of it. -/
theorem agrees_turn
    (cb : Callback σ) {format : CString} {state : State target σ}
    {mode : Mode} {rest : List Byte}
    (stands : Stands format state mode rest) :
    Agrees cb format rest
      (emit cb (readFrom mode rest) (outputOf state))
      (turn cb format state) := by
  cases stands with
  | literal split fmt ofs escape =>
      exact agrees_turn_literal cb split fmt ofs escape
  | escape split fmt ofs escape =>
      exact agrees_turn_escape cb split fmt ofs escape

theorem run_eq_emit
    (cb : Callback σ) {format : CString} {turns : Nat}
    {state : State target σ} {mode : Mode} {rest : List Byte}
    (stands : Stands format state mode rest)
    (enough : rest.length < turns) :
    Loop.run Fault.diverged (turn cb format) turns state =
      emit cb (readFrom mode rest) (outputOf state) := by
  induction turns generalizing state mode rest with
  | zero => omega
  | succ turns induction =>
      have agrees := agrees_turn cb stands
      cases step : turn cb format state with
      | error fault =>
          rw [Loop.run_fail step]
          rw [step] at agrees
          exact agrees.symm
      | ok outcome =>
          rw [step] at agrees
          cases outcome with
          | inl next =>
              obtain ⟨nextMode, ahead, nextStands, shorter, expected⟩ :=
                agrees
              rw [Loop.run_continue step, expected]
              exact induction nextStands (by omega)
          | inr result =>
              rw [Loop.run_exit step]
              exact agrees.symm

/--
The engine reads the directives of its format and executes them.  In
particular it always ends, and it never reads past the NUL of the format.
-/
theorem nolibcPrintf_eq_emit
    (cb : Callback σ) (io : σ) (n : Nat) (format : CString)
    (args : List (Arg target)) :
    nolibcPrintf cb io n format args =
      emit cb (directives format) ⟨n, 0, args, io⟩ := by
  have split : format.bytes = [] ++ ([] ++ format.bytes) := rfl
  have start :
      Stands format (⟨0, 0, false, 0, n, 0, args, io⟩ : State target σ)
        (.literal []) format.bytes :=
    .literal split rfl rfl rfl
  exact run_eq_emit cb start (by simp only [CString.length]; omega)

end Nolibc.Stdio.Directives

import Nolibc.Foundation.Loop
import Nolibc.Stdlib.Itoa

/-!
# The printf engine

`__nolibc_printf` of `stdio.h`, turn by turn.  The function is one `while (1)`
loop with two jump labels.  A turn reads one byte of the format; when the
previous byte opened an escape sequence it also reads the width digits that
follow.  The code from the label `flush_str` on is `flushStr`, and the code
from the label `do_escape` on is `doEscape`.

The output goes through a callback with a state of its own, so that the same
engine serves the buffer and the stream functions.
-/

set_option autoImplicit false

namespace Nolibc.Stdio.Printf

open Nolibc.Machine
open Nolibc.Foundation
open Nolibc.Stdlib.Itoa

/-! ## Arguments -/

/-- One variadic argument, after the default promotions. -/
inductive Arg (target : Target) where
  | int (value : BitVec 32)
  | long (value : BitVec target.longBits)
  | longLong (value : BitVec 64)
  | pointer (value : BitVec target.longBits)
  | string (value : Option CString)

/-- The type `va_arg` is given. -/
inductive ArgKind where
  | int
  | long
  | longLong
  | pointer
  | string
  deriving DecidableEq, Repr

/-- The type that an argument is fetched with. -/
def Arg.kind {target : Target} : Arg target → ArgKind
  | .int _ => .int
  | .long _ => .long
  | .longLong _ => .longLong
  | .pointer _ => .pointer
  | .string _ => .string

/-! ## Callbacks -/

/--
An output callback over a state: it is handed a chunk and returns an `int`,
zero for success.  `errno` is the value the engine would read for `%m`.
-/
structure Callback (σ : Type) where
  call : σ → List Byte → Int × σ
  errno : σ → Errno

/-! ## Conversions -/

variable {target : Target}

/-- Whether the byte is one of the numeric conversions. -/
def isNumeric (c : Byte) : Bool :=
  c = 'c'.toUInt8 || c = 'd'.toUInt8 || c = 'u'.toUInt8 ||
    c = 'x'.toUInt8 || c = 'p'.toUInt8

/-- The type a numeric conversion passes to `va_arg`. -/
def numericKind (target : Target) (lpref c : Byte) : ArgKind :=
  if c = 'p'.toUInt8 then
    .pointer
  else if lpref ≠ 0 then
    if target.charToInt lpref > 1 then .longLong else .long
  else
    .int

/-- `v = va_arg(args, kind)`, converted to `unsigned long long`. -/
def vaArg (kind : ArgKind) :
    List (Arg target) → Except Fault (BitVec 64 × List (Arg target))
  | .int value :: rest =>
      if kind = .int then
        .ok (value.setWidth 64, rest)
      else
        .error .badArgument
  | .long value :: rest =>
      if kind = .long then
        .ok (value.setWidth 64, rest)
      else
        .error .badArgument
  | .longLong value :: rest =>
      if kind = .longLong then .ok (value, rest) else .error .badArgument
  | .pointer value :: rest =>
      if kind = .pointer then
        .ok (value.setWidth 64, rest)
      else
        .error .badArgument
  | _ => .error .badArgument

/-- `outstr = va_arg(args, char *)`. -/
def vaString :
    List (Arg target) →
      Except Fault (Option CString × List (Arg target))
  | .string value :: rest => .ok (value, rest)
  | _ => .error .badArgument

/-- The sign extension of `%d`. -/
def signExtend (target : Target) (lpref : Byte) (v : BitVec 64) :
    BitVec 64 :=
  if lpref = 0 then
    (v.setWidth 32).signExtend 64
  else if lpref = 1 then
    (v.setWidth target.longBits).signExtend 64
  else
    v

/-- The bytes the `switch` stores to `tmpbuf`, the NUL included. -/
def convert (target : Target) (c : Byte) (v : BitVec 64) : List Byte :=
  if c = 'c'.toUInt8 then
    [UInt8.ofNat v.toNat, 0]
  else if c = 'd'.toUInt8 then
    (i64toaR v).buffer
  else if c = 'u'.toUInt8 then
    (u64toaR v.toNat).buffer
  else if c = 'p'.toUInt8 then
    '0'.toUInt8 :: 'x'.toUInt8 :: (u64tohR target v.toNat).buffer
  else
    (u64tohR target v.toNat).buffer

/-- The text of `tmpbuf` after a numeric conversion. -/
def tmpbuf (target : Target) (lpref c : Byte) (v : BitVec 64) :
    List Byte :=
  convert target c
    (if c = 'd'.toUInt8 then signExtend target lpref v else v)

/-- The bytes of a buffer up to its first NUL. -/
def textOf (buffer : List Byte) : List Byte :=
  buffer.takeWhile (· ≠ 0)

/-- `"(null)"` stands for a NULL string. -/
def stringText : Option CString → List Byte
  | some string => string.bytes
  | none => ascii "(null)"

/-- `strerror`: its static buffer starts with `errno=`. -/
def strerror (errnum : Errno) : List Byte :=
  textOf (ascii "errno=" ++ (i64toaR (errnum.signExtend 64)).buffer)

/-! ## The loop -/

/-- The variables of the engine that live across turns. -/
structure State (target : Target) (σ : Type) where
  fmt : Nat
  ofs : Nat
  escape : Bool
  lpref : Byte
  n : Nat
  written : Nat
  args : List (Arg target)
  io : σ

/-- What a call of the engine leaves behind. -/
structure Return (target : Target) (σ : Type) where
  ret : Int
  args : List (Arg target)
  io : σ

/-- `break` out of the main loop: `return written`. -/
def State.finish {σ : Type} (state : State target σ) :
    Return target σ :=
  ⟨intOfUnsigned state.written, state.args, state.io⟩

/-- The variables of the width loop. -/
structure Scan where
  c : Byte
  ofs : Nat
  width : Nat

/-- The test of the engine for a digit of the width. -/
def isDigit (c : Byte) : Bool :=
  '0'.toUInt8 ≤ c && c ≤ '9'.toUInt8

/-- One turn of `while (c >= '0' && c <= '9')`. -/
def widthTurn (format : CString) (fmt : Nat) (scan : Scan) :
    Except Fault (Scan ⊕ Scan) := do
  if isDigit scan.c then
    let width := scan.width * 10 % 2 ^ 32
    let width := (width + (scan.c.toNat - '0'.toNat)) % 2 ^ 32
    let c ← format.read (fmt + scan.ofs)
    return .inl ⟨c, scan.ofs + 1, width⟩
  else
    return .inr scan

/-- The loop over the digits of the width. -/
def widthLoop (format : CString) (fmt : Nat) (scan : Scan) :
    Except Fault Scan :=
  Loop.run Fault.diverged (widthTurn format fmt) (format.length + 2) scan

/--
`while (width-- > w) { if (cb(state, " ", 1) != 0) break; written += 1; }`
-/
def padLoop {σ : Type} (cb : Callback σ) (w : Nat) :
    Nat → Nat → σ → Nat × σ
  | 0, written, io => (written, io)
  | width + 1, written, io =>
      if width + 1 > w then
        let (failed, io) := cb.call io [' '.toUInt8]
        if failed ≠ 0 then
          (written, io)
        else
          padLoop cb w width ((written + 1) % 2 ^ 32) io
      else
        (written, io)

/-- The label `do_escape`. -/
def doEscape {σ : Type} (c : Byte) (state : State target σ) :
    State target σ ⊕ Return target σ :=
  if c = 0 then
    .inr state.finish
  else
    .inl { state with fmt := state.fmt + state.ofs, ofs := 0 }

/-- The label `flush_str`; `outstr` holds at least `len` bytes. -/
def flushStr {σ : Type} (cb : Callback σ) (c : Byte)
    (width : Nat) (outstr : List Byte) (len : Nat)
    (state : State target σ) : State target σ ⊕ Return target σ :=
  if state.n ≠ 0 then
    let w := if len < state.n then len else state.n
    let (written, io) := padLoop cb w width state.written state.io
    let (failed, io) := cb.call io (outstr.take w)
    if failed ≠ 0 then
      .inr { state with n := state.n - w, written, io }.finish
    else
      doEscape c
        { state with
          n := state.n - w
          written := (written + len) % 2 ^ 32
          io }
  else
    doEscape c
      { state with written := (state.written + len) % 2 ^ 32 }

/-- The body of `if (escape)` after the width digits. -/
def escaped {σ : Type} (cb : Callback σ) (c : Byte) (width : Nat)
    (state : State target σ) :
    Except Fault (State target σ ⊕ Return target σ) := do
  if isNumeric c then
    let (v, args) ←
      vaArg (numericKind target state.lpref c) state.args
    let outstr := textOf (tmpbuf target state.lpref c v)
    return flushStr cb c width outstr outstr.length { state with args }
  else if c = 's'.toUInt8 then
    let (string, args) ← vaString state.args
    let outstr := stringText string
    return flushStr cb c width outstr outstr.length { state with args }
  else if c = 'm'.toUInt8 then
    let outstr := strerror (cb.errno state.io)
    return flushStr cb c width outstr outstr.length state
  else if c = '%'.toUInt8 then
    -- queued verbatim: the next turn goes on with the same `fmt`
    return .inl state
  else
    let lpref :=
      if c = 'l'.toUInt8 then
        state.lpref + 1
      else if c = 'j'.toUInt8 then
        2
      else
        state.lpref
    return doEscape c { state with lpref, escape := true }

/-- One turn of `while (1)`. -/
def turn {σ : Type} (cb : Callback σ) (format : CString)
    (state : State target σ) :
    Except Fault (State target σ ⊕ Return target σ) := do
  let c ← format.read (state.fmt + state.ofs)
  let ofs := state.ofs + 1
  if state.escape then
    let ⟨c, ofs, width⟩ ← widthLoop format state.fmt ⟨c, ofs, 0⟩
    escaped cb c width { state with ofs, escape := false }
  else if c = 0 ∨ c = '%'.toUInt8 then
    let outstr := format.bytes.drop state.fmt
    return flushStr cb c 0 outstr (ofs - 1)
      { state with ofs, escape := true, lpref := 0 }
  else
    return .inl { state with ofs }

/-- `__nolibc_printf`. -/
def nolibcPrintf {σ : Type} (cb : Callback σ) (io : σ) (n : Nat)
    (format : CString) (args : List (Arg target)) :
    Except Fault (Return target σ) :=
  Loop.run Fault.diverged (turn cb format) (format.length + 2)
    ⟨0, 0, false, 0, n, 0, args, io⟩

end Nolibc.Stdio.Printf

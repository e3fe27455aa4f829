import Nolibc.Foundation.Loop
import Nolibc.Machine

/-!
# `getopt`

One call of `getopt` reports one option.  Where it stands between calls is
spread over the global `optind` and the static `__optpos`, the position inside
the current cluster of options, which is zero between arguments.

The strings are read byte by byte and the arguments by index, so that a read
past a NUL or past `argv[argc]` would show.  `argv` is the list of its strings;
the `NULL` behind them is `argv[argc]`.  The counters are natural numbers: no
argument list or string is as long as `INT_MAX`.
-/

set_option autoImplicit false

namespace Nolibc.Getopt

open Nolibc.Machine
open Nolibc.Foundation

/-- A message on `stderr`: the format and the arguments of the `fprintf`. -/
structure Diagnostic where
  format : CString
  program : Option CString
  option : Byte
  deriving DecidableEq

/-- The globals `optarg`, `optind`, `opterr` and `optopt`, and `__optpos`. -/
structure State where
  optarg : Option Pointer
  optind : Nat
  opterr : Int
  optopt : Int
  optpos : Nat
  diagnostics : List Diagnostic
  deriving DecidableEq

/-- `argv[index]` -/
def argvAt (argv : List CString) (index : Nat) :
    Except Fault (Option CString) :=
  if inside : index < argv.length then
    .ok (some argv[index])
  else if index = argv.length then
    .ok none
  else
    .error .outOfBounds

/-- `do { d = optstring[i++]; } while (d && d != c);` -/
def searchTurn (optstring : Pointer) (c : Byte) (i : Nat) :
    Except Fault (Nat ⊕ (Nat × Byte)) := do
  let d ← (optstring.add i).load
  if d ≠ 0 ∧ d ≠ c then
    pure (.inl (i + 1))
  else
    pure (.inr (i + 1, d))

/-- The index behind the place where the loop stops, and the byte there. -/
def search (optstring : Pointer) (c : Byte) :
    Except Fault (Nat × Byte) :=
  Loop.run Fault.diverged (searchTurn optstring c)
    (optstring.string.length + 2) 0

section Code

variable (target : Target) (argv : List CString)

/-- `fprintf(stderr, format, argv[0], *optchar);` when it is to be printed. -/
def complain (format : CString) (c : Byte) (printed : Bool)
    (state : State) : Except Fault State := do
  if printed then
    let program ← argvAt argv 0
    pure
      { state with
        diagnostics := state.diagnostics ++ [⟨format, program, c⟩] }
  else
    pure state

/-- An option that is not in `optstring`, or a colon. -/
def unrecognized (optstring : Pointer) (c : Byte) (state : State) :
    Except Fault (Int × State) := do
  let state := { state with optopt := target.charToInt c }
  let mode ← optstring.load
  let state ← complain argv (.ofAscii "%s: unrecognized option: %c\n") c
    (mode ≠ ':'.toUInt8 && state.opterr ≠ 0) state
  pure ('?'.toNat, state)

/-- An option `c` behind which `optstring[i]` is a colon. -/
def withArgument (optstring : Pointer) (i : Nat) (c : Byte)
    (state : State) : Except Fault (Int × State) := do
  let state := { state with optarg := none }
  let second ← (optstring.add (i + 1)).load
  let state ←
    if second ≠ ':'.toUInt8 ∨ state.optpos ≠ 0 then do
      let next ← argvAt argv state.optind
      pure
        { state with
          optarg := next.map fun string => string.start.add state.optpos
          optind := state.optind + 1
          optpos := 0 }
    else
      pure state
  if state.optind > argv.length then
    let state := { state with optopt := target.charToInt c }
    let mode ← optstring.load
    if mode = ':'.toUInt8 then
      pure (':'.toNat, state)
    else
      let state ← complain argv
        (.ofAscii "%s: option requires argument: %c\n") c
        (state.opterr ≠ 0) state
      pure ('?'.toNat, state)
  else
    pure (target.charToInt c, state)

/-- The next option of the cluster `argv[optind]`. -/
def option (optstring : CString) (arg : CString) (state : State) :
    Except Fault (Int × State) := do
  let optpos := if state.optpos = 0 then 1 else state.optpos
  let c ← arg.read optpos
  let following ← arg.read (optpos + 1)
  let state :=
    if following = 0 then
      { state with optind := state.optind + 1, optpos := 0 }
    else
      { state with optpos := optpos + 1 }
  let mode ← optstring.read 0
  let optstring :=
    if mode = '-'.toUInt8 ∨ mode = '+'.toUInt8 then
      optstring.start.add 1
    else
      optstring.start
  let (i, d) ← search optstring c
  if d ≠ c ∨ c = ':'.toUInt8 then
    unrecognized target argv optstring c state
  else
    let mark ← (optstring.add i).load
    if mark = ':'.toUInt8 then
      withArgument target argv optstring i c state
    else
      pure (target.charToInt c, state)

/-- `getopt`, with `argc` and `argv` as a list of strings. -/
def getopt (optstring : CString) (state : State) :
    Except Fault (Int × State) := do
  let state :=
    if state.optind = 0 then
      { state with optpos := 0, optind := 1 }
    else
      state
  if state.optind ≥ argv.length then
    return (-1, state)
  match ← argvAt argv state.optind with
  | none => return (-1, state)
  | some arg =>
      let first ← arg.read 0
      if first ≠ '-'.toUInt8 then
        let mode ← optstring.read 0
        if mode = '-'.toUInt8 then
          return (1,
            { state with
              optarg := some arg.start
              optind := state.optind + 1 })
        return (-1, state)
      let second ← arg.read 1
      if second = 0 then
        return (-1, state)
      if second = '-'.toUInt8 then
        let third ← arg.read 2
        if third = 0 then
          return (-1, { state with optind := state.optind + 1 })
      option target argv optstring arg state

/-- What the caller sees of a call. -/
structure Observation where
  ret : Int
  optarg : Option (List Byte)
  optopt : Int
  deriving DecidableEq

/-- The bytes `optarg` points to, up to the NUL. -/
def State.argument (state : State) : Option (List Byte) :=
  state.optarg.map fun pointer =>
    pointer.string.bytes.drop pointer.offset

/--
`while ((ret = getopt(argc, argv, optstring)) != -1)`: the observations before
the first `-1`, and the state it leaves.
-/
def getoptAll (optstring : CString) :
    Nat → State → Except Fault (List Observation × State)
  | 0, _ => .error .diverged
  | turns + 1, state => do
      let (ret, state) ← getopt target argv optstring state
      if ret = -1 then
        pure ([], state)
      else
        let (later, final) ← getoptAll optstring turns state
        pure (⟨ret, state.argument, state.optopt⟩ :: later, final)

end Code

end Nolibc.Getopt

import Nolibc.Strings.Copy
import Nolibc.Sys

/-!
# Reading directories

`fdopendir` and `readdir_r` of `dirent.h` for 64-bit targets.  A `DIR *` is
the complement of a descriptor, and nothing is kept between two calls: every
call reads a batch of entries, keeps the first and seeks back to behind it.
-/

set_option autoImplicit false

namespace Nolibc.Readdir

open Nolibc.Machine
open Nolibc.Foundation
open Nolibc.Strings.Copy
open Nolibc.Sys

/-- The longest name of a directory entry. -/
def NAME_MAX : Nat := 255

/-- `struct linux_dirent64`, without the type, which is never read. -/
structure LinuxDirent64 where
  dIno : Nat
  dOff : Int
  dReclen : Nat
  dName : CString
  deriving DecidableEq

/-- `sizeof(struct linux_dirent64)` -/
def sizeofLinuxDirent64 : Nat := 24

/-- `struct dirent`; `dName` is the memory from `d_name` on. -/
structure Dirent where
  dIno : Nat
  dName : Nat → Byte

/-- `sizeof(entry->d_name)` -/
def sizeofDName : Nat :=
  NAME_MAX + 1

/-- The text in `d_name`, up to its NUL. -/
def Dirent.name (entry : Dirent) : List Byte :=
  (Memory.block entry.dName 0 sizeofDName).takeWhile (· ≠ 0)

/-- What `*result` is. -/
inductive ResultPointer where
  | null
  | entry
  /-- What the caller had there before. -/
  | elsewhere
  deriving DecidableEq, Repr

/-- The system calls on a directory. -/
structure DirectoryCalls (State : Type) extends SeekCalls State where
  /-- The records come as they are stored in the buffer. -/
  getdents64 : Int → Nat → State → Int × List LinuxDirent64 × State

/-- The process, and what the caller passes to `readdir_r`. -/
structure Caller (State : Type) where
  process : Process State
  entry : Dirent
  result : ResultPointer

section Code

variable {State : Type}

/-- The value of the `DIR *`; zero is `NULL`. -/
def fdopendir (fd : Int) (process : Process State) : Int × Process State :=
  if fd < 0 then
    (0, { process with errnum := EBADF })
  else
    (~~~fd, process)

variable (calls : DirectoryCalls State)

/-- `sys_getdents64`, of which the result is an `int`. -/
def sysGetdents64 (fd : Int) (count : Nat) (state : State) :
    Int × List LinuxDirent64 × State :=
  let (ret, records, state) := calls.getdents64 fd count state
  (intOfLong ret, records, state)

/-- `sizeof(buf)` -/
def sizeofBuf : Nat :=
  sizeofLinuxDirent64 + NAME_MAX + 1

/-- `readdir_r`, which stores through `entry` and `result` of its caller. -/
def readdirR (dirp : Int) (caller : Caller State) :
    Except Fault (Int × Caller State) := do
  let i := dirp
  if i ≥ 0 then
    return (EBADF.toInt, caller)
  let fd := intOfLong (~~~i)
  let (ret, records, state) :=
    sysGetdents64 calls fd sizeofBuf caller.process.kernel
  let caller :=
    { caller with process := { caller.process with kernel := state } }
  if ret < 0 then
    return (-ret, caller)
  if ret = 0 then
    return (0, { caller with result := .null })
  match records with
  | [] => .error .outOfBounds
  | ldir :: _ =>
      let (result, process) :=
        lseek .x86_64 calls.toSeekCalls fd ldir.dOff SEEK_SET caller.process
      let caller := { caller with process }
      let ret := intOfLong result
      if ret = -1 then
        return (process.errnum.toInt, caller)
      let (_, stores) ← strlcpy ldir.dName sizeofDName
      return (0,
        { caller with
          entry :=
            { dIno := ldir.dIno
              dName := Memory.apply caller.entry.dName stores }
          result := .entry })

/-- What the caller finds through `*result`. -/
inductive Found where
  | null
  | entry (ino : Nat) (name : List Byte)
  | elsewhere
  deriving DecidableEq, Repr

/-- What the caller sees of a call. -/
structure Observation where
  ret : Int
  found : Found
  deriving DecidableEq

/-- What a caller reads behind a call. -/
def Caller.found (caller : Caller State) : Found :=
  match caller.result with
  | .null => .null
  | .entry => .entry caller.entry.dIno caller.entry.name
  | .elsewhere => .elsewhere

/-- A number of calls, one after the other. -/
def readAll (dirp : Int) :
    Nat → Caller State → Except Fault (List Observation)
  | 0, _ => .ok []
  | count + 1, caller => do
      let (ret, caller) ← readdirR calls dirp caller
      let later ← readAll dirp count caller
      pure (⟨ret, caller.found⟩ :: later)

end Code

end Nolibc.Readdir

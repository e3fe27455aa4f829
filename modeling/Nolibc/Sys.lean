import Nolibc.Machine

/-!
# System calls

What `sys.h` makes of the results of system calls, and the descriptor that
`stdio.h` finds in a stream.  The kernel is a parameter: its calls are functions
of a state that the code does not see, and a call that a target does not number
is absent.
-/

set_option autoImplicit false

namespace Nolibc.Sys

open Nolibc.Machine

/-- The state of the kernel, and `errno`. -/
structure Process (State : Type) where
  kernel : State
  errnum : Errno

/-- States in which a function can set `errno`, as `SET_ERRNO` does. -/
class HasErrno (σ : Type) where
  setErrno : Errno → σ → σ

export HasErrno (setErrno)

instance {State : Type} : HasErrno (Process State) where
  setErrno errnum process := { process with errnum }

section Errno

variable {σ : Type} [HasErrno σ]

/-- `__sysret` -/
def sysret (ret : Int) (state : σ) : Int × σ :=
  if ret < 0 then
    (-1, setErrno (BitVec.ofInt 32 (-ret)) state)
  else
    (ret, state)

/-- `fileno`: a `FILE *` is `~fd`, and is negative when it is valid. -/
def fileno (stream : Int) (state : σ) : Int × σ :=
  if stream ≥ 0 then
    (-1, setErrno EBADF state)
  else
    (-stream - 1, state)

/-- A result that is not an error is passed on, and leaves `errno` alone. -/
theorem sysret_of_nonneg
    {ret : Int} (succeeded : 0 ≤ ret) (state : σ) :
    sysret ret state = (ret, state) :=
  if_neg (Int.not_lt.mpr succeeded)

end Errno

/-! ## `lseek` -/

/-- The offset is from the start of the file. -/
def SEEK_SET : Int := 0

/-- `__NR_lseek` and `__NR_llseek`, where the target has them. -/
structure SeekCalls (State : Type) where
  lseek : Option (Int → Int → Int → State → Int × State)
  /-- The second result is what is stored through the result pointer. -/
  llseek :
    Option (Int → Nat → Nat → Int → State → Int × Option Int × State)

section Seek

variable {State : Type} (target : Target) (calls : SeekCalls State)

/-- `sys_lseek`, which fails with `ENOSYS` where there is no such call. -/
def sysLseek (fd offset whence : Int) (state : State) : Int × State :=
  match calls.lseek with
  | some call => call fd offset whence state
  | none => (-ENOSYS.toNat, state)

/-- `sys_llseek`, with what it stores through `result`. -/
def sysLlseek (fd : Int) (offsetHigh offsetLow : Nat) (whence : Int)
    (state : State) : Int × Option Int × State :=
  match calls.llseek with
  | some call =>
      let (ret, result, state) := call fd offsetHigh offsetLow whence state
      (intOfLong ret, result, state)
  | none => (-ENOSYS.toNat, none, state)

/-- The conversion to `off_t`, which is a `long`. -/
def offOf (value : Int) : Int :=
  (BitVec.ofInt target.longBits value).toInt

/-- `lseek`: the native call, and `llseek` where it is missing. -/
def lseek (fd offset whence : Int) (process : Process State) :
    Int × Process State :=
  let (result, state) := sysLseek calls fd offset whence process.kernel
  let (result, state) :=
    if result = -ENOSYS.toNat then
      let offsetLow := (BitVec.ofInt target.longBits offset).toNat
      let (ret, stored, state) :=
        sysLlseek calls fd 0 offsetLow whence state
      let loff := stored.getD 0
      if ret < 0 then
        (ret, state)
      else if loff ≠ offOf target loff then
        (-EOVERFLOW.toNat, state)
      else
        (offOf target loff, state)
    else
      (result, state)
  sysret result { process with kernel := state }

/-- A native seek that succeeds is passed on, and leaves `errno` alone. -/
theorem lseek_native
    {call : Int → Int → Int → State → Int × State}
    (native : calls.lseek = some call) {fd offset whence result : Int}
    (process : Process State) {next : State}
    (succeeds : call fd offset whence process.kernel = (result, next))
    (nonnegative : 0 ≤ result) :
    lseek target calls fd offset whence process =
      (result, { process with kernel := next }) := by
  have present : ¬ result = -ENOSYS.toNat := by
    have errno : (-ENOSYS.toNat : Int) = -38 := rfl
    rw [errno]
    omega
  simp only [lseek, sysLseek, native, succeeds, if_neg present,
    sysret_of_nonneg nonnegative]

end Seek

end Nolibc.Sys

import Nolibc.Sys

/-!
# Results that come through the stack

Where a target only has the `time64` system calls, the functions of `time.h`
and `sys/timerfd.h` let the kernel fill a structure on the stack, and convert
it to the one of the caller.  `getrlimit` of `sys/resource.h` always does.
They convert it after an error too, when the kernel has not filled it.

`leaves_iff` says when such a function leaves the structure of its caller
alone all the same, and `errors_leave_results_iff` says it of all of them.
-/

set_option autoImplicit false

namespace Nolibc.Time

open Nolibc.Machine
open Nolibc.Sys

variable {State : Type}

/-! ## The structures -/

/-- `struct timespec`, of two `long` -/
structure Timespec where
  tv_sec : Int
  tv_nsec : Int
  deriving DecidableEq, Repr

/-- `struct __kernel_timespec`, of two 64-bit integers -/
structure KernelTimespec where
  tv_sec : Int
  tv_nsec : Int
  deriving DecidableEq, Repr

/-- `struct itimerspec` -/
structure Itimerspec where
  it_interval : Timespec
  it_value : Timespec
  deriving DecidableEq, Repr

/-- `struct __kernel_itimerspec` -/
structure KernelItimerspec where
  it_interval : KernelTimespec
  it_value : KernelTimespec
  deriving DecidableEq, Repr

/-- `struct rlimit`, of two `unsigned long` -/
structure Rlimit where
  rlim_cur : Nat
  rlim_max : Nat
  deriving DecidableEq, Repr

/-- `struct rlimit64` -/
structure Rlimit64 where
  rlim_cur : Nat
  rlim_max : Nat
  deriving DecidableEq, Repr

/-- The conversion to `long`. -/
def longOf (target : Target) (value : Int) : Int :=
  (BitVec.ofInt target.longBits value).toInt

/-- `__nolibc_timespec_user_to_kernel` -/
def timespecUserToKernel (ts : Timespec) : KernelTimespec :=
  ⟨ts.tv_sec, ts.tv_nsec⟩

/-- `__nolibc_timespec_kernel_to_user` -/
def timespecKernelToUser (target : Target) (kts : KernelTimespec) :
    Timespec :=
  ⟨longOf target kts.tv_sec, longOf target kts.tv_nsec⟩

/-- The conversion of both times of a timer, one after the other. -/
def itimerspecUserToKernel (its : Itimerspec) : KernelItimerspec :=
  ⟨timespecUserToKernel its.it_interval, timespecUserToKernel its.it_value⟩

/-- The conversion of both times back. -/
def itimerspecKernelToUser (target : Target) (kits : KernelItimerspec) :
    Itimerspec :=
  ⟨timespecKernelToUser target kits.it_interval,
    timespecKernelToUser target kits.it_value⟩

/-- What `getrlimit` makes of a `struct rlimit64`. -/
def rlimitOf (target : Target) (rlim64 : Rlimit64) : Rlimit :=
  ⟨rlim64.rlim_cur % 2 ^ target.longBits,
    rlim64.rlim_max % 2 ^ target.longBits⟩

/-! ## The system calls -/

/--
A system call with a pointer for its result: what it returns, and what it
stores through the pointer.  A call that fails stores nothing.
-/
structure ResultCall (α State : Type) where
  call : State → Int × Option α × State
  quiet : ∀ state, intOfLong (call state).1 < 0 → (call state).2.1 = none

/-- A call that is handed the pointer of the caller, which may be `NULL`. -/
abbrev DirectCall (α State : Type) :=
  (nonnull : Bool) → ResultCall α State

/-- The calls, where the target has them. -/
structure TimeKernel (State : Type) where
  clockGetres : Option (Int → DirectCall Timespec State)
  clockGetresTime64 : Option (Int → ResultCall KernelTimespec State)
  clockGettime : Option (Int → DirectCall Timespec State)
  clockGettime64 : Option (Int → ResultCall KernelTimespec State)
  timerGettime : Option (Int → DirectCall Itimerspec State)
  timerGettime64 : Option (Int → ResultCall KernelItimerspec State)
  timerSettime :
    Option (Int → Int → Itimerspec → DirectCall Itimerspec State)
  timerSettime64 :
    Option
      (Int → Int → KernelItimerspec → ResultCall KernelItimerspec State)
  timerfdGettime : Option (Int → DirectCall Itimerspec State)
  timerfdGettime64 : Option (Int → ResultCall KernelItimerspec State)
  timerfdSettime :
    Option (Int → Int → Itimerspec → DirectCall Itimerspec State)
  timerfdSettime64 :
    Option
      (Int → Int → KernelItimerspec → ResultCall KernelItimerspec State)
  prlimit64 : Int → Int → Option Rlimit64 → ResultCall Rlimit64 State

/-! ## The code -/

section Code

variable {User Kernel : Type}

/--
What the functions have in common: the kernel gets the pointer of the caller,
or that of a structure of its own, which holds what is on the stack.
-/
def convey (direct : Option (DirectCall User State))
    (through : Option (ResultCall Kernel State)) (convert : Kernel → User)
    (stack : Kernel) (result : Option User) (state : State) :
    Int × Option User × State :=
  match direct, through with
  | some call, _ =>
      let (ret, stored, state) := (call result.isSome).call state
      (intOfLong ret, result.map fun old => stored.getD old, state)
  | none, some call =>
      let (ret, stored, state) := call.call state
      (intOfLong ret, result.map fun _ => convert (stored.getD stack), state)
  | none, none => (-ENOSYS.toNat, result, state)

/-- `__sysret` of such a call. -/
def finish (called : Int × Option User × State) (process : Process State) :
    Int × Option User × Process State :=
  let (ret, result, state) := called
  let (ret, process) := sysret ret { process with kernel := state }
  (ret, result, process)

variable (target : Target) (kernel : TimeKernel State)

/-- `sys_clock_getres` -/
def sysClockGetres (clockid : Int) (res : Option Timespec)
    (stack : KernelTimespec) (state : State) : Int × Option Timespec × State :=
  convey (kernel.clockGetres.map (· clockid))
    (kernel.clockGetresTime64.map (· clockid))
    (timespecKernelToUser target) stack res state

/-- `clock_getres` -/
def clockGetres (clockid : Int) (res : Option Timespec)
    (stack : KernelTimespec) (process : Process State) :
    Int × Option Timespec × Process State :=
  finish (sysClockGetres target kernel clockid res stack process.kernel)
    process

/-- `sys_clock_gettime` -/
def sysClockGettime (clockid : Int) (tp : Option Timespec)
    (stack : KernelTimespec) (state : State) : Int × Option Timespec × State :=
  convey (kernel.clockGettime.map (· clockid))
    (kernel.clockGettime64.map (· clockid))
    (timespecKernelToUser target) stack tp state

/-- `clock_gettime` -/
def clockGettime (clockid : Int) (tp : Option Timespec)
    (stack : KernelTimespec) (process : Process State) :
    Int × Option Timespec × Process State :=
  finish (sysClockGettime target kernel clockid tp stack process.kernel)
    process

/-- `curr_value` is not tested for `NULL`. -/
def sysTimerGettime (timerid : Int) (currValue : Itimerspec)
    (stack : KernelItimerspec) (state : State) :
    Int × Option Itimerspec × State :=
  convey (kernel.timerGettime.map (· timerid))
    (kernel.timerGettime64.map (· timerid))
    (itimerspecKernelToUser target) stack (some currValue) state

/-- `timer_gettime` -/
def timerGettime (timerid : Int) (currValue : Itimerspec)
    (stack : KernelItimerspec) (process : Process State) :
    Int × Option Itimerspec × Process State :=
  finish
    (sysTimerGettime target kernel timerid currValue stack process.kernel)
    process

/-- `sys_timer_settime`: the old value is stored where it is asked for. -/
def sysTimerSettime (timerid flags : Int) (newValue : Itimerspec)
    (oldValue : Option Itimerspec) (stack : KernelItimerspec)
    (state : State) : Int × Option Itimerspec × State :=
  convey (kernel.timerSettime.map (· timerid flags newValue))
    (kernel.timerSettime64.map
      (· timerid flags (itimerspecUserToKernel newValue)))
    (itimerspecKernelToUser target) stack oldValue state

/-- `timer_settime` -/
def timerSettime (timerid flags : Int) (newValue : Itimerspec)
    (oldValue : Option Itimerspec) (stack : KernelItimerspec)
    (process : Process State) : Int × Option Itimerspec × Process State :=
  finish
    (sysTimerSettime target kernel timerid flags newValue oldValue stack
      process.kernel)
    process

/-- `curr_value` is not tested for `NULL`. -/
def sysTimerfdGettime (fd : Int) (currValue : Itimerspec)
    (stack : KernelItimerspec) (state : State) :
    Int × Option Itimerspec × State :=
  convey (kernel.timerfdGettime.map (· fd))
    (kernel.timerfdGettime64.map (· fd))
    (itimerspecKernelToUser target) stack (some currValue) state

/-- `timerfd_gettime` -/
def timerfdGettime (fd : Int) (currValue : Itimerspec)
    (stack : KernelItimerspec) (process : Process State) :
    Int × Option Itimerspec × Process State :=
  finish (sysTimerfdGettime target kernel fd currValue stack process.kernel)
    process

/-- `sys_timerfd_settime`, like `sys_timer_settime`. -/
def sysTimerfdSettime (fd flags : Int) (newValue : Itimerspec)
    (oldValue : Option Itimerspec) (stack : KernelItimerspec)
    (state : State) : Int × Option Itimerspec × State :=
  convey (kernel.timerfdSettime.map (· fd flags newValue))
    (kernel.timerfdSettime64.map
      (· fd flags (itimerspecUserToKernel newValue)))
    (itimerspecKernelToUser target) stack oldValue state

/-- `timerfd_settime` -/
def timerfdSettime (fd flags : Int) (newValue : Itimerspec)
    (oldValue : Option Itimerspec) (stack : KernelItimerspec)
    (process : Process State) : Int × Option Itimerspec × Process State :=
  finish
    (sysTimerfdSettime target kernel fd flags newValue oldValue stack
      process.kernel)
    process

/-- `rlim` is not tested for `NULL`, and there is no direct call. -/
def getrlimit (resource : Int) (rlim : Rlimit) (stack : Rlimit64)
    (process : Process State) : Int × Option Rlimit × Process State :=
  finish
    (convey none (some (kernel.prlimit64 0 resource none))
      (rlimitOf target) stack (some rlim) process.kernel)
    process

end Code

/-! ## Errors -/

section Errors

variable {User Kernel : Type}

/-- A call that returns an error leaves the structure of its caller alone. -/
def LeavesOnError (result : Option User)
    (called : Int × Option User × Process State) : Prop :=
  called.1 = -1 → called.2.1 = result

/--
The kernel gets the pointer of the caller; or it succeeds; or there is no
structure of the caller, or what is on the stack converts to what it holds.
-/
def Kept (direct : Option (DirectCall User State))
    (through : Option (ResultCall Kernel State)) (convert : Kernel → User)
    (stack : Kernel) (result : Option User) (state : State) : Prop :=
  match direct, through with
  | none, some call =>
      intOfLong (call.call state).1 < 0 →
        ∀ old, result = some old → convert stack = old
  | _, _ => True

theorem finish_eq
    (ret : Int) (result : Option User) (state : State)
    (process : Process State) :
    (finish (ret, result, state) process).1 =
        (if ret < 0 then -1 else ret) ∧
      (finish (ret, result, state) process).2.1 = result := by
  by_cases negative : ret < 0
  · simp only [finish, sysret, if_pos negative, and_self]
  · simp only [finish, sysret, if_neg negative, and_self]

theorem finish_failed_iff
    (ret : Int) (result : Option User) (state : State)
    (process : Process State) :
    (finish (ret, result, state) process).1 = -1 ↔ ret < 0 := by
  rw [(finish_eq ret result state process).1]
  split_ifs with negative
  · exact iff_of_true rfl negative
  · exact iff_of_false (by omega) negative

/-- A structure is left alone by an error exactly when it is kept. -/
theorem leaves_iff
    (direct : Option (DirectCall User State))
    (through : Option (ResultCall Kernel State)) (convert : Kernel → User)
    (stack : Kernel) (result : Option User) (process : Process State) :
    LeavesOnError result
        (finish (convey direct through convert stack result process.kernel)
          process) ↔
      Kept direct through convert stack result process.kernel := by
  rw [LeavesOnError]
  cases direct with
  | some call =>
      refine iff_of_true ?_ True.intro
      rw [convey, finish_failed_iff, (finish_eq _ _ _ _).2]
      intro failed
      rw [(call result.isSome).quiet process.kernel failed]
      cases result with
      | none => rfl
      | some old => rfl
  | none =>
      cases through with
      | none => exact iff_of_true (fun _ => (finish_eq _ _ _ _).2) True.intro
      | some call =>
          rw [convey, finish_failed_iff, (finish_eq _ _ _ _).2, Kept]
          refine forall_congr' fun failed => ?_
          rw [call.quiet process.kernel failed, Option.getD_none]
          cases result with
          | none => simp
          | some old => simp

variable (target : Target) (kernel : TimeKernel State)
  (process : Process State)

/--
Each of the seven functions leaves the structure of its caller alone on an
error exactly when that structure is kept.
-/
theorem errors_leave_results_iff :
    (∀ clockid res stack,
      LeavesOnError res
          (clockGetres target kernel clockid res stack process) ↔
        Kept (kernel.clockGetres.map (· clockid))
          (kernel.clockGetresTime64.map (· clockid))
          (timespecKernelToUser target) stack res process.kernel) ∧
    (∀ clockid tp stack,
      LeavesOnError tp
          (clockGettime target kernel clockid tp stack process) ↔
        Kept (kernel.clockGettime.map (· clockid))
          (kernel.clockGettime64.map (· clockid))
          (timespecKernelToUser target) stack tp process.kernel) ∧
    (∀ timerid currValue stack,
      LeavesOnError (some currValue)
          (timerGettime target kernel timerid currValue stack process) ↔
        Kept (kernel.timerGettime.map (· timerid))
          (kernel.timerGettime64.map (· timerid))
          (itimerspecKernelToUser target) stack (some currValue)
          process.kernel) ∧
    (∀ timerid flags newValue oldValue stack,
      LeavesOnError oldValue
          (timerSettime target kernel timerid flags newValue oldValue stack
            process) ↔
        Kept (kernel.timerSettime.map (· timerid flags newValue))
          (kernel.timerSettime64.map
            (· timerid flags (itimerspecUserToKernel newValue)))
          (itimerspecKernelToUser target) stack oldValue process.kernel) ∧
    (∀ fd currValue stack,
      LeavesOnError (some currValue)
          (timerfdGettime target kernel fd currValue stack process) ↔
        Kept (kernel.timerfdGettime.map (· fd))
          (kernel.timerfdGettime64.map (· fd))
          (itimerspecKernelToUser target) stack (some currValue)
          process.kernel) ∧
    (∀ fd flags newValue oldValue stack,
      LeavesOnError oldValue
          (timerfdSettime target kernel fd flags newValue oldValue stack
            process) ↔
        Kept (kernel.timerfdSettime.map (· fd flags newValue))
          (kernel.timerfdSettime64.map
            (· fd flags (itimerspecUserToKernel newValue)))
          (itimerspecKernelToUser target) stack oldValue process.kernel) ∧
    ∀ resource rlim stack,
      LeavesOnError (some rlim)
          (getrlimit target kernel resource rlim stack process) ↔
        Kept none (some (kernel.prlimit64 0 resource none))
          (rlimitOf target) stack (some rlim) process.kernel := by
  refine ⟨?_, ?_, ?_, ?_, ?_, ?_, ?_⟩
  · intro clockid res stack
    exact leaves_iff _ _ _ stack res process
  · intro clockid tp stack
    exact leaves_iff _ _ _ stack tp process
  · intro timerid currValue stack
    exact leaves_iff _ _ _ stack (some currValue) process
  · intro timerid flags newValue oldValue stack
    exact leaves_iff _ _ _ stack oldValue process
  · intro fd currValue stack
    exact leaves_iff _ _ _ stack (some currValue) process
  · intro fd flags newValue oldValue stack
    exact leaves_iff _ _ _ stack oldValue process
  · intro resource rlim stack
    exact leaves_iff _ _ _ stack (some rlim) process

end Errors

/-- A call that always fails. -/
def failing (α : Type) (errnum : Errno) : ResultCall α Unit where
  call state := (-errnum.toNat, none, state)
  quiet _ _ := rfl

/-- A target with the 64-bit calls, which fail for a bad argument. -/
def sampleKernel : TimeKernel Unit where
  clockGetres := none
  clockGetresTime64 := some fun _ => failing _ EINVAL
  clockGettime := none
  clockGettime64 := some fun _ => failing _ EINVAL
  timerGettime := none
  timerGettime64 := some fun _ => failing _ EINVAL
  timerSettime := none
  timerSettime64 := some fun _ _ _ => failing _ EINVAL
  timerfdGettime := none
  timerfdGettime64 := some fun _ => failing _ EINVAL
  timerfdSettime := none
  timerfdSettime64 := some fun _ _ _ => failing _ EINVAL
  prlimit64 _ _ _ := failing _ EINVAL

/-- A failing `clock_gettime` replaces the time of its caller. -/
theorem clockGettime_overwrites :
    ¬ LeavesOnError (some ⟨1, 2⟩)
      (clockGettime .arm sampleKernel 99 (some ⟨1, 2⟩) ⟨0, 0⟩ ⟨(), 0⟩) := by
  intro leaves
  exact absurd (leaves (by decide)) (by decide)

end Nolibc.Time

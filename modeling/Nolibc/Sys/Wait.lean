import Nolibc.Foundation.Word
import Nolibc.Sys
import Mathlib.Data.BitVec

/-!
# The status of a child

`waitpid` of `sys/wait.h` makes a status word of what `waitid` tells of a
child, and the macros of `types.h` take it apart again.  The kernel's `waitid`
is a parameter, and any event may come from it.

`WIFSIGNALED` subtracts one from a signed number, so that it holds of 0: the
word of a child which exits with status 0 reads as that of a killed one.
`waitpid_shows_iff` says that this is the only event which is lost.
-/

set_option autoImplicit false

namespace Nolibc.Sys.Wait

open Nolibc.Machine
open Nolibc.Foundation

/-! ## The macros -/

/-- The exit status in a status word. -/
def WEXITSTATUS (status : BitVec 32) : BitVec 32 :=
  (status &&& 0xff00).sshiftRight 8

/-- The test of a status word for an exit. -/
def WIFEXITED (status : BitVec 32) : Bool :=
  status &&& 0x7f == 0

/-- The signal in a status word. -/
def WTERMSIG (status : BitVec 32) : BitVec 32 :=
  status &&& 0x7f

/-- The test of a status word for a signal; the comparison is signed. -/
def WIFSIGNALED (status : BitVec 32) : Bool :=
  (status - 1).slt 0xff

/-! ## The code -/

/-- The codes of `si_code` that `waitpid` tells apart. -/
def CLD_EXITED : BitVec 32 := 1
def CLD_KILLED : BitVec 32 := 2
def CLD_DUMPED : BitVec 32 := 3
def CLD_TRAPPED : BitVec 32 := 4
def CLD_STOPPED : BitVec 32 := 5
def CLD_CONTINUED : BitVec 32 := 6

/-- What `waitid` can wait for. -/
def P_ALL : Int := 0
def P_PID : Int := 1
def P_PGID : Int := 2

/-- The option that `waitpid` adds. -/
def WEXITED : BitVec 32 := 4

/-- The `pid` that has no negation. -/
def INT_MIN : Int := -2 ^ 31

/-- The fields of `siginfo_t` which are read. -/
structure Siginfo where
  si_code : BitVec 32
  si_pid : Int
  si_status : BitVec 32
  deriving DecidableEq, Repr

/-- `__NR_waitid`: its result, and what is behind `infop` then. -/
structure WaitCall (State : Type) where
  waitid : Int → Int → BitVec 32 → State → Int × Siginfo × State

section Code

variable {State : Type} (call : WaitCall State)

/-- `sys_waitid`, with what it stores through `infop`. -/
def sysWaitid (which pid : Int) (options : BitVec 32) (state : State) :
    Int × Siginfo × State :=
  let (ret, info, state) := call.waitid which pid options state
  (intOfLong ret, info, state)

/-- `waitid`, which sets `errno` when the call fails. -/
def waitid (which pid : Int) (options : BitVec 32)
    (process : Process State) : Int × Siginfo × Process State :=
  let (ret, info, state) := sysWaitid call which pid options process.kernel
  let (ret, process) := sysret ret { process with kernel := state }
  (ret, info, process)

/-- What is stored through `status`; nothing for an unknown code. -/
def statusOf (info : Siginfo) : Option (BitVec 32) :=
  if info.si_code = 0 then
    some 0
  else if info.si_code = CLD_EXITED then
    some ((info.si_status &&& 0xff) <<< 8)
  else if info.si_code = CLD_KILLED then
    some (info.si_status &&& 0x7f)
  else if info.si_code = CLD_DUMPED then
    some ((info.si_status &&& 0x7f) ||| 0x80)
  else if info.si_code = CLD_STOPPED ∨ info.si_code = CLD_TRAPPED then
    some ((info.si_status <<< 8) + 0x7f)
  else if info.si_code = CLD_CONTINUED then
    some 0xffff
  else
    none

/-- `idtype` and `id` -/
def waitFor (pid : Int) : Int × Int :=
  if pid < -1 then
    (P_PGID, -pid)
  else if pid = -1 then
    (P_ALL, 0)
  else if pid = 0 then
    (P_PGID, 0)
  else
    (P_PID, pid)

/-- `waitpid`; the second result is what is stored through `status`. -/
def waitpid (pid : Int) (options : BitVec 32) (process : Process State) :
    Int × Option (BitVec 32) × Process State :=
  if pid = INT_MIN then
    (-1, none, { process with errnum := ESRCH })
  else
    let (idtype, id) := waitFor pid
    let (ret, info, process) :=
      waitid call idtype id (options ||| WEXITED) process
    if ret ≠ 0 then
      (ret, none, process)
    else
      match statusOf info with
      | some status => (info.si_pid, some status, process)
      | none => (-1, none, process)

end Code

/-! ## Events -/

/-- What a child can have done. -/
inductive Event where
  | exited (status : BitVec 32)
  | killed (signal : BitVec 32)
  | dumped (signal : BitVec 32)
  | stopped (signal : BitVec 32)
  | trapped (signal : BitVec 32)
  | continued
  deriving DecidableEq, Repr

/-- The event that the fields stand for. -/
def Siginfo.event (info : Siginfo) : Option Event :=
  if info.si_code = CLD_EXITED then
    some (.exited info.si_status)
  else if info.si_code = CLD_KILLED then
    some (.killed info.si_status)
  else if info.si_code = CLD_DUMPED then
    some (.dumped info.si_status)
  else if info.si_code = CLD_STOPPED then
    some (.stopped info.si_status)
  else if info.si_code = CLD_TRAPPED then
    some (.trapped info.si_status)
  else if info.si_code = CLD_CONTINUED then
    some .continued
  else
    none

/-- The numbers of signals. -/
def IsSignal (signal : BitVec 32) : Prop :=
  1 ≤ signal.toNat ∧ signal.toNat ≤ 126

/-- The macros tell of a status word what happened. -/
def Shows (status : BitVec 32) : Event → Prop
  | .exited code =>
      WIFEXITED status = true ∧ WEXITSTATUS status = code &&& 0xff ∧
        WIFSIGNALED status = false
  | .killed signal | .dumped signal =>
      IsSignal signal →
        WIFSIGNALED status = true ∧ WTERMSIG status = signal ∧
          WIFEXITED status = false
  | .stopped signal | .trapped signal =>
      IsSignal signal →
        WIFEXITED status = false ∧ WIFSIGNALED status = false
  | .continued => WIFEXITED status = false ∧ WIFSIGNALED status = false

/-- The child was not ended by an exit with status 0. -/
def Event.Nonzero : Event → Prop
  | .exited code => code &&& 0xff ≠ 0
  | _ => True

/-! ## The macros in numbers -/

section Macros

variable (status : BitVec 32)

theorem and_0x7f_toNat : (status &&& 0x7f).toNat = status.toNat % 2 ^ 7 :=
  Word.toNat_and_low status 7 (by decide)

theorem and_0xff_toNat : (status &&& 0xff).toNat = status.toNat % 2 ^ 8 :=
  Word.toNat_and_low status 8 (by decide)

theorem WIFEXITED_iff :
    WIFEXITED status = true ↔ status.toNat % 2 ^ 7 = 0 := by
  rw [WIFEXITED, beq_iff_eq, ← BitVec.toNat_inj, and_0x7f_toNat]
  rfl

theorem WEXITSTATUS_toNat :
    (WEXITSTATUS status).toNat = status.toNat / 2 ^ 8 % 2 ^ 8 := by
  have positive : (status &&& 0xff00).msb = false := by
    rw [BitVec.msb_and, show (0xff00 : BitVec 32).msb = false by decide,
      Bool.and_false]
  rw [WEXITSTATUS, BitVec.sshiftRight_eq_of_msb_false positive,
    BitVec.ushiftRight_and_distrib]
  exact (and_0xff_toNat (status >>> 8)).trans (by
    rw [BitVec.toNat_ushiftRight, Nat.shiftRight_eq_div_pow])

/-- Of the words that are not negative, 0 is one that signals. -/
theorem WIFSIGNALED_iff (nonnegative : status.toNat < 2 ^ 31) :
    WIFSIGNALED status = true ↔ status.toNat < 2 ^ 8 := by
  have one : (1 : BitVec 32).toNat = 1 := rfl
  have limit : (0xff : BitVec 32).toInt = 2 ^ 8 - 1 := rfl
  rw [WIFSIGNALED, BitVec.slt_iff_toInt_lt, limit,
    BitVec.toInt_eq_toNat_cond, BitVec.toNat_sub, one]
  omega

end Macros

/-! ## The words -/

section Words

variable (code signal : BitVec 32)

theorem exited_toNat :
    ((code &&& 0xff) <<< 8).toNat = code.toNat % 2 ^ 8 * 2 ^ 8 := by
  rw [BitVec.toNat_shiftLeft, and_0xff_toNat, Nat.shiftLeft_eq]
  omega

theorem dumped_toNat :
    ((signal &&& 0x7f) ||| 0x80).toNat = 2 ^ 7 + signal.toNat % 2 ^ 7 := by
  rw [BitVec.toNat_or, and_0x7f_toNat, Nat.or_comm]
  exact (Nat.two_pow_add_eq_or_of_lt
    (Nat.mod_lt signal.toNat (by decide : 0 < 2 ^ 7)) 1).symm

theorem stopped_toNat (isSignal : IsSignal signal) :
    ((signal <<< 8) + 0x7f).toNat = signal.toNat * 2 ^ 8 + 127 := by
  have bound := isSignal.2
  have low : (0x7f : BitVec 32).toNat = 127 := rfl
  rw [BitVec.toNat_add, BitVec.toNat_shiftLeft, Nat.shiftLeft_eq, low]
  omega

end Words

/-! ## Encoding and decoding -/

/-- The status word of an event. -/
def Event.word : Event → BitVec 32
  | .exited code => (code &&& 0xff) <<< 8
  | .killed signal => signal &&& 0x7f
  | .dumped signal => (signal &&& 0x7f) ||| 0x80
  | .stopped signal | .trapped signal => (signal <<< 8) + 0x7f
  | .continued => 0xffff

theorem statusOf_event
    {info : Siginfo} {event : Event} (known : info.event = some event) :
    statusOf info = some event.word := by
  rcases info with ⟨code, pid, status⟩
  simp only [Siginfo.event] at known
  split_ifs at known with exited killed dumped stopped trapped continued
  · cases known
    subst exited
    rfl
  · cases known
    subst killed
    rfl
  · cases known
    subst dumped
    rfl
  · cases known
    subst stopped
    rfl
  · cases known
    subst trapped
    rfl
  · cases known
    subst continued
    rfl

/-- A word with nothing in its low seven bits is that of an exit. -/
theorem shows_exited_iff (code : BitVec 32) :
    Shows (Event.exited code).word (.exited code) ↔ code &&& 0xff ≠ 0 := by
  have value := exited_toNat code
  have bound := Nat.mod_lt code.toNat (by decide : 0 < 2 ^ 8)
  have zero_iff : code &&& 0xff = 0 ↔ code.toNat % 2 ^ 8 = 0 := by
    rw [← BitVec.toNat_inj, and_0xff_toNat]
    rfl
  have exited : WIFEXITED (Event.exited code).word = true := by
    rw [WIFEXITED_iff, Event.word, value]
    omega
  have exitStatus :
      WEXITSTATUS (Event.exited code).word = code &&& 0xff := by
    rw [← BitVec.toNat_inj, WEXITSTATUS_toNat, and_0xff_toNat, Event.word,
      value]
    omega
  have signaled := WIFSIGNALED_iff (Event.exited code).word (by
    rw [Event.word, value]
    omega)
  rw [Shows, and_iff_right exited, and_iff_right exitStatus,
    ← Bool.not_eq_true, signaled, Event.word, value, ne_eq, zero_iff]
  omega

/-- A word of one byte with a signal in it is that of a killed child. -/
theorem shows_signal
    {word signal : BitVec 32} (byte : word.toNat < 2 ^ 8)
    (low : word.toNat % 2 ^ 7 = signal.toNat % 2 ^ 7)
    (isSignal : IsSignal signal) :
    WIFSIGNALED word = true ∧ WTERMSIG word = signal ∧
      WIFEXITED word = false := by
  rcases isSignal with ⟨positive, bound⟩
  refine ⟨?_, ?_, ?_⟩
  · rw [WIFSIGNALED_iff word (by omega)]
    exact byte
  · rw [← BitVec.toNat_inj, WTERMSIG, and_0x7f_toNat]
    omega
  · rw [← Bool.not_eq_true, WIFEXITED_iff]
    omega

/-- A longer word that ends in `0x7f` is neither kind of end. -/
theorem shows_neither
    {word : BitVec 32} (long : 2 ^ 8 ≤ word.toNat)
    (nonnegative : word.toNat < 2 ^ 31) (low : word.toNat % 2 ^ 7 = 127) :
    WIFEXITED word = false ∧ WIFSIGNALED word = false := by
  constructor
  · rw [← Bool.not_eq_true, WIFEXITED_iff]
    omega
  · rw [← Bool.not_eq_true, WIFSIGNALED_iff word nonnegative]
    omega

theorem shows_stopped
    {signal : BitVec 32} (isSignal : IsSignal signal) :
    WIFEXITED ((signal <<< 8) + 0x7f) = false ∧
      WIFSIGNALED ((signal <<< 8) + 0x7f) = false := by
  have value := stopped_toNat signal isSignal
  rcases isSignal with ⟨positive, bound⟩
  apply shows_neither
  · omega
  · omega
  · omega

/-- The word of an event shows it, an exit with status 0 aside. -/
theorem shows_word_iff (event : Event) :
    Shows event.word event ↔ event.Nonzero := by
  cases event with
  | exited code => exact shows_exited_iff code
  | killed signal =>
      have value := and_0x7f_toNat signal
      refine iff_of_true (shows_signal ?_ ?_) trivial
      · rw [Event.word, value]
        omega
      · rw [Event.word, value, Nat.mod_mod]
  | dumped signal =>
      have value := dumped_toNat signal
      refine iff_of_true (shows_signal ?_ ?_) trivial
      · rw [Event.word, value]
        omega
      · rw [Event.word, value]
        omega
  | stopped signal => exact iff_of_true shows_stopped trivial
  | trapped signal => exact iff_of_true shows_stopped trivial
  | continued =>
      have shows : Shows 0xffff .continued := ⟨rfl, rfl⟩
      exact iff_of_true shows trivial

/-! ## The call -/

section Call

variable {State : Type} (call : WaitCall State)

/-- A call which the kernel answers stores the word of the event. -/
theorem waitpid_answered
    {pid : Int} {options : BitVec 32} {process : Process State}
    {info : Siginfo} {next : State} {event : Event}
    (valid : pid ≠ INT_MIN)
    (answered : call.waitid (waitFor pid).1 (waitFor pid).2
      (options ||| WEXITED) process.kernel = (0, info, next))
    (known : info.event = some event) :
    waitpid call pid options process =
      (info.si_pid, some event.word, { process with kernel := next }) := by
  have success : waitid call (waitFor pid).1 (waitFor pid).2
      (options ||| WEXITED) process =
        (0, info, { process with kernel := next }) := by
    rw [waitid, sysWaitid, answered]
    rfl
  rw [waitpid, if_neg valid]
  simp only [success, statusOf_event known]
  rfl

/--
Whatever a child did, the macros tell it of the status word of `waitpid`,
unless it exited with status 0.
-/
theorem waitpid_shows_iff
    {pid : Int} {options : BitVec 32} {process : Process State}
    {info : Siginfo} {next : State} {event : Event}
    (valid : pid ≠ INT_MIN)
    (answered : call.waitid (waitFor pid).1 (waitFor pid).2
      (options ||| WEXITED) process.kernel = (0, info, next))
    (known : info.event = some event) :
    (∃ status, waitpid call pid options process =
        (info.si_pid, some status, { process with kernel := next }) ∧
      Shows status event) ↔ event.Nonzero := by
  rw [waitpid_answered call valid answered known, ← shows_word_iff]
  constructor
  · rintro ⟨status, same, shows⟩
    cases same
    exact shows
  · intro shows
    exact ⟨_, rfl, shows⟩

end Call

/-! ## A child that exits -/

/-- Child 7 exited with the given status. -/
def exitedWith (code : BitVec 32) : WaitCall Unit where
  waitid := fun _ _ _ state => (0, ⟨CLD_EXITED, 7, code⟩, state)

theorem waitpid_shows_iff_two :
    (∃ status, waitpid (exitedWith 2) (-1) 0 ⟨(), 0⟩ =
        (7, some status, ⟨(), 0⟩) ∧
      Shows status (.exited 2)) ↔ Event.Nonzero (.exited 2) :=
  waitpid_shows_iff (exitedWith 2) (by decide : (-1 : Int) ≠ INT_MIN) rfl rfl

/-- The word of an exit with status 0 reads as an end by a signal too. -/
theorem waitpid_loses_success :
    ¬ ∃ status, waitpid (exitedWith 0) (-1) 0 ⟨(), 0⟩ =
        (7, some status, ⟨(), 0⟩) ∧
      Shows status (.exited 0) := by
  rintro ⟨status, same, shows⟩
  cases same
  have signaled : WIFSIGNALED 0 = true := rfl
  exact Bool.false_ne_true (shows.2.2.symm.trans signaled)

end Nolibc.Sys.Wait

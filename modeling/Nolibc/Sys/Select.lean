import Nolibc.Time

/-!
# Sleeping in `select`

`sys_select` of `sys.h` goes to one of five system calls, and `msleep` and
`sleep` of `unistd.h` are a `select` without descriptors.  When it is
interrupted the kernel stores the time that is left through the pointer it was
given, and the two return it.

With `pselect6` that pointer is one to a copy of the timeout, which is never
copied back.  `sleeps_round_up_iff` says for which waits that makes no
difference.
-/

set_option autoImplicit false

namespace Nolibc.Sys.Select

open Nolibc.Machine
open Nolibc.Sys
open Nolibc.Time

variable {State : Type}

/-- `struct timeval`, of two `long` -/
structure Timeval where
  tv_sec : Int
  tv_usec : Int
  deriving DecidableEq, Repr

/-- A time in microseconds. -/
def Timeval.ofMicros (micros : Nat) : Timeval :=
  ⟨micros / 1000000, micros % 1000000⟩

/-- A time in microseconds, as `pselect6` has it. -/
def Timespec.ofMicros (micros : Nat) : Timespec :=
  ⟨micros / 1000000, micros % 1000000 * 1000⟩

/-- A time in microseconds, as `pselect6_time64` has it. -/
def KernelTimespec.ofMicros (micros : Nat) : KernelTimespec :=
  ⟨micros / 1000000, micros % 1000000 * 1000⟩

/-! ## The system calls -/

/--
A call with a number of descriptors, the addresses of three sets of them, and
a timeout.  The second result is what is stored through the pointer to that.
-/
abbrev TimedCall (α State : Type) :=
  (nfds : Int) → (rfds wfds efds : Nat) → (timeout : Option α) → State →
    Int × Option α × State

/-- `struct sel_arg_struct` -/
structure SelArg where
  n : Nat
  r : Nat
  w : Nat
  e : Nat
  t : Option Timeval

/-- The five system calls that `sys_select` can make. -/
structure SelectKernel (State : Type) where
  oldSelect : SelArg → State → Int × Option Timeval × State
  newselect : TimedCall Timeval State
  select : TimedCall Timeval State
  pselect6 : TimedCall Timespec State
  pselect6Time64 : TimedCall KernelTimespec State

/-- The branches of `sys_select` with a system call. -/
inductive SelectVariant where
  | oldSelect
  | newselect
  | select
  | pselect6
  | pselect6Time64
  deriving DecidableEq, Repr

/-- The kernel is given the timeout itself, and not a copy. -/
def SelectVariant.handsOver : SelectVariant → Bool
  | .oldSelect => true
  | .newselect => true
  | .select => true
  | .pselect6 => false
  | .pselect6Time64 => false

/--
In this state a wait is interrupted with `left` microseconds to go, and the
call stores them.  The time is a whole number of microseconds for the two calls
with a `struct timespec` as well.
-/
structure Interrupts (kernel : SelectKernel State) (state : State)
    (left : Nat) : Prop where
  oldSelect : ∀ arg timeout, arg.t = some timeout → ∃ next,
    kernel.oldSelect arg state =
      ((-EINTR.toNat : Int), some (Timeval.ofMicros left), next)
  newselect : ∀ nfds rfds wfds efds timeout, ∃ next,
    kernel.newselect nfds rfds wfds efds (some timeout) state =
      ((-EINTR.toNat : Int), some (Timeval.ofMicros left), next)
  select : ∀ nfds rfds wfds efds timeout, ∃ next,
    kernel.select nfds rfds wfds efds (some timeout) state =
      ((-EINTR.toNat : Int), some (Timeval.ofMicros left), next)
  pselect6 : ∀ nfds rfds wfds efds timeout, ∃ next,
    kernel.pselect6 nfds rfds wfds efds (some timeout) state =
      ((-EINTR.toNat : Int), some (Timespec.ofMicros left), next)
  pselect6Time64 : ∀ nfds rfds wfds efds timeout, ∃ next,
    kernel.pselect6Time64 nfds rfds wfds efds (some timeout) state =
      ((-EINTR.toNat : Int), some (KernelTimespec.ofMicros left), next)

/-! ## The code -/

section Code

variable (target : Target) (kernel : SelectKernel State)
  (variant : Option SelectVariant)

/-- `tv_usec * 1000`, a `long`. -/
def nsecOf (timeout : Timeval) : Int :=
  longOf target (timeout.tv_usec * 1000)

/-- `sys_select`, with what is in the timeout of its caller afterwards. -/
def sysSelect (nfds : Int) (rfds wfds efds : Nat) (timeout : Option Timeval)
    (state : State) : Int × Option Timeval × State :=
  match variant with
  | some .oldSelect =>
      let arg : SelArg :=
        ⟨(nfds % 2 ^ target.longBits).toNat, rfds, wfds, efds, timeout⟩
      let (ret, stored, state) := kernel.oldSelect arg state
      (intOfLong ret, timeout.map fun old => stored.getD old, state)
  | some .newselect =>
      let (ret, stored, state) :=
        kernel.newselect nfds rfds wfds efds timeout state
      (intOfLong ret, timeout.map fun old => stored.getD old, state)
  | some .select =>
      let (ret, stored, state) :=
        kernel.select nfds rfds wfds efds timeout state
      (intOfLong ret, timeout.map fun old => stored.getD old, state)
  | some .pselect6 =>
      let t : Option Timespec :=
        timeout.map fun timeout => ⟨timeout.tv_sec, nsecOf target timeout⟩
      let (ret, _, state) := kernel.pselect6 nfds rfds wfds efds t state
      (intOfLong ret, timeout, state)
  | some .pselect6Time64 =>
      let t : Option KernelTimespec :=
        timeout.map fun timeout => ⟨timeout.tv_sec, nsecOf target timeout⟩
      let (ret, _, state) :=
        kernel.pselect6Time64 nfds rfds wfds efds t state
      (intOfLong ret, timeout, state)
  | none => (-ENOSYS.toNat, timeout, state)

/-- `msleep`, which returns the milliseconds that are left. -/
def msleep (msecs : Nat) (state : State) : Int × State :=
  let myTimeval : Timeval := ⟨msecs / 1000, msecs % 1000 * 1000⟩
  let (ret, timeout, state) :=
    sysSelect target kernel variant 0 0 0 0 (some myTimeval) state
  let myTimeval := timeout.getD myTimeval
  if ret < 0 then
    (intOfLong
      (myTimeval.tv_sec * 1000 + myTimeval.tv_usec.tdiv 1000 +
        if myTimeval.tv_usec.tmod 1000 ≠ 0 then 1 else 0),
      state)
  else
    (0, state)

/-- `sleep`, which returns the seconds that are left. -/
def sleep (seconds : Nat) (state : State) : Nat × State :=
  let myTimeval : Timeval := ⟨longOf target seconds, 0⟩
  let (ret, timeout, state) :=
    sysSelect target kernel variant 0 0 0 0 (some myTimeval) state
  let myTimeval := timeout.getD myTimeval
  if ret < 0 then
    (((myTimeval.tv_sec + if myTimeval.tv_usec ≠ 0 then 1 else 0) %
        2 ^ 32).toNat,
      state)
  else
    (0, state)

end Code

/-! ## Interrupted waits -/

/-- The time that is left, rounded up to a unit, and no more than requested. -/
structure RoundsUp (unit requested left : Nat) (ret : Int) : Prop where
  rounded : ret = ((left + (unit - 1)) / unit : Nat)
  bounded : ret ≤ requested

/-- The milliseconds of a time, and one more for the rest. -/
theorem millis_ofMicros (micros : Nat) :
    ((Timeval.ofMicros micros).tv_sec * 1000 +
        (Timeval.ofMicros micros).tv_usec.tdiv 1000 +
        if (Timeval.ofMicros micros).tv_usec.tmod 1000 ≠ 0 then 1 else 0) =
      ((micros + 999) / 1000 : Nat) := by
  have sec : (Timeval.ofMicros micros).tv_sec = micros / 1000000 := rfl
  have usec : (Timeval.ofMicros micros).tv_usec = micros % 1000000 := rfl
  have nonneg : (0 : Int) ≤ (Timeval.ofMicros micros).tv_usec :=
    Int.emod_nonneg _ (by decide)
  rw [Int.tdiv_eq_ediv_of_nonneg nonneg, Int.tmod_eq_emod_of_nonneg nonneg]
  split_ifs <;> omega

section Interrupted

variable (target : Target) {kernel : SelectKernel State}
  (variant : SelectVariant) {state : State} {left : Nat}
  (interrupts : Interrupts kernel state left)

include interrupts

/-- What is behind the pointer to the timeout when the call comes back. -/
theorem sysSelect_interrupted
    (nfds : Int) (rfds wfds efds : Nat) (timeout : Timeval) :
    ∃ next,
      sysSelect target kernel (some variant) nfds rfds wfds efds
          (some timeout) state =
        ((-EINTR.toNat : Int),
          some (if variant.handsOver then Timeval.ofMicros left else timeout),
          next) := by
  cases variant with
  | oldSelect =>
      rcases interrupts.oldSelect
        ⟨(nfds % 2 ^ target.longBits).toNat, rfds, wfds, efds, some timeout⟩
        timeout rfl with ⟨next, called⟩
      refine ⟨next, ?_⟩
      simp only [sysSelect, called]
      rfl
  | newselect =>
      rcases interrupts.newselect nfds rfds wfds efds timeout with
        ⟨next, called⟩
      refine ⟨next, ?_⟩
      simp only [sysSelect, called]
      rfl
  | select =>
      rcases interrupts.select nfds rfds wfds efds timeout with
        ⟨next, called⟩
      refine ⟨next, ?_⟩
      simp only [sysSelect, called]
      rfl
  | pselect6 =>
      rcases interrupts.pselect6 nfds rfds wfds efds
        ⟨timeout.tv_sec, nsecOf target timeout⟩ with ⟨next, called⟩
      refine ⟨next, ?_⟩
      simp only [sysSelect, Option.map_some, called]
      rfl
  | pselect6Time64 =>
      rcases interrupts.pselect6Time64 nfds rfds wfds efds
        ⟨timeout.tv_sec, nsecOf target timeout⟩ with ⟨next, called⟩
      refine ⟨next, ?_⟩
      simp only [sysSelect, Option.map_some, called]
      rfl

/-- `msleep` rounds up what it finds in its timeout. -/
theorem msleep_interrupted
    {msecs : Nat} (small : msecs < 2 ^ 31) (short : left ≤ msecs * 1000) :
    (msleep target kernel (some variant) msecs state).1 =
      if variant.handsOver then ((left + 999) / 1000 : Nat) else msecs := by
  have requested : (⟨msecs / 1000, msecs % 1000 * 1000⟩ : Timeval) =
      .ofMicros (msecs * 1000) := by
    rw [Timeval.ofMicros, Timeval.mk.injEq]
    omega
  rcases sysSelect_interrupted target variant interrupts 0 0 0 0
    (.ofMicros (msecs * 1000)) with ⟨next, called⟩
  have failed : (-EINTR.toNat : Int) < 0 := by decide
  simp only [msleep, requested, called, if_pos failed, Option.getD_some]
  by_cases handsOver : variant.handsOver
  · simp only [if_pos handsOver, millis_ofMicros]
    exact intOfLong_of_range (by omega) (by omega)
  · simp only [if_neg handsOver, millis_ofMicros]
    rw [intOfLong_of_range (by omega) (by omega)]
    omega

/-- And so does `sleep`, up to the next second. -/
theorem sleep_interrupted
    {seconds : Nat} (small : seconds < 2 ^ 32)
    (fits : seconds < 2 ^ (target.longBits - 1))
    (short : left ≤ seconds * 1000000) :
    (sleep target kernel (some variant) seconds state).1 =
      if variant.handsOver then (left + 999999) / 1000000 else seconds := by
  rcases sysSelect_interrupted target variant interrupts 0 0 0 0
    ⟨longOf target seconds, 0⟩ with ⟨next, called⟩
  have failed : (-EINTR.toNat : Int) < 0 := by decide
  have exact : longOf target seconds = seconds := by
    have positive : 0 < target.longBits := by
      rcases target.longBits_cases with bits | bits <;> omega
    have low : -(2 ^ (target.longBits - 1) : Int) ≤ seconds :=
      Int.le_trans (Int.neg_nonpos_of_nonneg (Int.pow_nonneg (by decide)))
        (Int.natCast_nonneg seconds)
    exact BitVec.toInt_ofInt_eq_self positive low (by exact_mod_cast fits)
  simp only [sleep, called, if_pos failed, Option.getD_some]
  by_cases handsOver : variant.handsOver
  · simp only [if_pos handsOver, Timeval.ofMicros]
    split_ifs <;> omega
  · simp only [if_neg handsOver, exact, ne_eq, not_true_eq_false, if_false]
    omega

end Interrupted

/-! ## Rounding up -/

section Rounding

variable {unit requested left : Nat} (positive : 0 < unit)
  (short : left ≤ requested * unit)

include positive short

/-- The time that is left, rounded up, is no longer than the requested one. -/
theorem roundsUp_left :
    RoundsUp unit requested left ((left + (unit - 1)) / unit : Nat) where
  rounded := rfl
  bounded := by
    have below : left + (unit - 1) < (requested + 1) * unit := by
      rw [Nat.succ_mul]
      omega
    exact_mod_cast Nat.le_of_lt_succ
      ((Nat.div_lt_iff_lt_mul positive).mpr below)

/-- What is left rounds up to the requested time when less than a unit is
gone. -/
theorem roundsUp_requested_iff :
    RoundsUp unit requested left requested ↔
      requested * unit < left + unit := by
  have whole := (roundsUp_left positive short).bounded
  have reached : requested ≤ (left + (unit - 1)) / unit ↔
      requested * unit < left + unit := by
    rw [Nat.le_div_iff_mul_le positive]
    omega
  rw [← reached]
  constructor
  · intro rounds
    exact Int.ofNat_le.mp (Int.le_of_eq rounds.rounded)
  · intro enough
    exact ⟨Int.le_antisymm (Int.ofNat_le.mpr enough) whole, Int.le_refl _⟩

end Rounding

/--
An interrupted `msleep` or `sleep` returns the time that is left, rounded up,
exactly when the kernel was given the timeout itself, or less than a unit of
the wait is gone.
-/
theorem sleeps_round_up_iff
    (target : Target) {kernel : SelectKernel State}
    (variant : SelectVariant) {state : State} {left : Nat}
    (interrupts : Interrupts kernel state left) :
    (∀ msecs, msecs < 2 ^ 31 → left ≤ msecs * 1000 →
      (RoundsUp 1000 msecs left
          (msleep target kernel (some variant) msecs state).1 ↔
        variant.handsOver = true ∨ msecs * 1000 < left + 1000)) ∧
    ∀ seconds, seconds < 2 ^ 32 → seconds < 2 ^ (target.longBits - 1) →
      left ≤ seconds * 1000000 →
      (RoundsUp 1000000 seconds left
          (sleep target kernel (some variant) seconds state).1 ↔
        variant.handsOver = true ∨ seconds * 1000000 < left + 1000000) := by
  constructor
  · intro msecs small short
    rw [msleep_interrupted target variant interrupts small short]
    by_cases handsOver : variant.handsOver
    · rw [if_pos handsOver]
      exact iff_of_true (roundsUp_left (by decide) short)
        (Or.inl handsOver)
    · rw [if_neg handsOver, or_iff_right handsOver]
      exact roundsUp_requested_iff (by decide) short
  · intro seconds small fits short
    rw [sleep_interrupted target variant interrupts small fits short]
    by_cases handsOver : variant.handsOver
    · rw [if_pos handsOver]
      exact iff_of_true (roundsUp_left (by decide) short)
        (Or.inl handsOver)
    · rw [if_neg handsOver, or_iff_right handsOver]
      exact roundsUp_requested_iff (by decide) short

/-- Every wait is interrupted when 1.5 seconds are left. -/
def sampleSelect : SelectKernel Unit where
  oldSelect _ state := (-EINTR.toNat, some (.ofMicros 1500000), state)
  newselect _ _ _ _ _ state := (-EINTR.toNat, some (.ofMicros 1500000), state)
  select _ _ _ _ _ state := (-EINTR.toNat, some (.ofMicros 1500000), state)
  pselect6 _ _ _ _ _ state :=
    (-EINTR.toNat, some (Timespec.ofMicros 1500000), state)
  pselect6Time64 _ _ _ _ _ state :=
    (-EINTR.toNat, some (KernelTimespec.ofMicros 1500000), state)

theorem sampleSelect_interrupts : Interrupts sampleSelect () 1500000 where
  oldSelect _ _ _ := ⟨(), rfl⟩
  newselect _ _ _ _ _ := ⟨(), rfl⟩
  select _ _ _ _ _ := ⟨(), rfl⟩
  pselect6 _ _ _ _ _ := ⟨(), rfl⟩
  pselect6Time64 _ _ _ _ _ := ⟨(), rfl⟩

/-- `sleep(10)` in `pselect6` returns 10 and not 2. -/
theorem sleep_forgets :
    ¬ RoundsUp 1000000 10 1500000
      (sleep .x86_64 sampleSelect (some .pselect6) 10 ()).1 := by
  intro rounds
  exact absurd rounds.rounded (by decide)

theorem sleeps_round_up_iff_sample :
    (RoundsUp 1000 2000 1500000
        (msleep .x86_64 sampleSelect (some .select) 2000 ()).1 ↔
      SelectVariant.select.handsOver = true ∨
        2000 * 1000 < 1500000 + 1000) ∧
    (RoundsUp 1000000 10 1500000
        (sleep .x86_64 sampleSelect (some .select) 10 ()).1 ↔
      SelectVariant.select.handsOver = true ∨
        10 * 1000000 < 1500000 + 1000000) :=
  ⟨(sleeps_round_up_iff .x86_64 .select sampleSelect_interrupts).1 2000
      (by decide) (by decide),
    (sleeps_round_up_iff .x86_64 .select sampleSelect_interrupts).2 10
      (by decide) (by decide) (by decide)⟩

end Nolibc.Sys.Select

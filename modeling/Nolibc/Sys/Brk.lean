import Nolibc.Foundation.Region
import Nolibc.Sys

/-!
# The program break

`sbrk` of `sys.h` over a kernel of which only the contract of `brk` is known:
it moves the break to the requested address or leaves it, and returns where
the break is then.

A caller takes the result of `sbrk(inc)` for the start of `inc` new bytes.
The code returns their end.  `sbrkAreas_iff` says that nothing a run returns
is what the caller takes it for, so that a run is safe when nothing is granted
in it.

`brk` takes any break but zero for a success, also the one that a refusal
leaves behind.  `brkTells_iff` says in which runs its results are right.
-/

set_option autoImplicit false

namespace Nolibc.Sys.Brk

open Nolibc.Machine
open Nolibc.Foundation

variable {State : Type}

/-! ## The code -/

/-- `__NR_brk`, and the break it works on. -/
structure BreakCall (State : Type) where
  brk : Nat → State → Nat × State
  heapEnd : State → Nat

/-- The kernel moves the break as it is asked to, or leaves it. -/
structure BreakCall.Lawful (call : BreakCall State) : Prop where
  result : ∀ addr state,
    (call.brk addr state).1 = call.heapEnd (call.brk addr state).2
  moves : ∀ addr state,
    call.heapEnd (call.brk addr state).2 = addr ∨
      call.heapEnd (call.brk addr state).2 = call.heapEnd state

section Code

variable (target : Target) (call : BreakCall State)

/-- `(void *)-1` -/
def failed : Nat :=
  target.sizeMax

/-- `ret + inc` -/
def advance (ret : Nat) (inc : Int) : Nat :=
  ((ret + inc) % 2 ^ target.longBits).toNat

/-- `sys_brk`, which returns the break behind the call. -/
def sysBrk (addr : Nat) (state : State) : Nat × State :=
  call.brk addr state

/-- `brk` -/
def brk (addr : Nat) (process : Process State) : Int × Process State :=
  let (ret, state) := sysBrk call addr process.kernel
  if ret = 0 then
    (-1, ⟨state, ENOMEM⟩)
  else
    (0, { process with kernel := state })

/-- `sbrk` -/
def sbrk (inc : Int) (process : Process State) : Nat × Process State :=
  let (ret, state) := sysBrk call 0 process.kernel
  if ret ≠ 0 then
    let (moved, state) := sysBrk call (advance target ret inc) state
    if moved = advance target ret inc then
      (advance target ret inc, { process with kernel := state })
    else
      (failed target, ⟨state, ENOMEM⟩)
  else
    (failed target, ⟨state, ENOMEM⟩)

/-! ## Runs -/

/-- What a successful call was given, and the break before and behind it. -/
structure Grant where
  before : Nat
  area : Region
  after : Nat
  deriving DecidableEq, Repr

/-- The successful calls of a run. -/
def grants : List Int → Process State → List Grant
  | [], _ => []
  | inc :: rest, process =>
      let called := sbrk target call inc process
      if called.1 = failed target then
        grants rest called.2
      else
        ⟨call.heapEnd process.kernel, ⟨called.1, inc.toNat⟩,
          call.heapEnd called.2.kernel⟩ :: grants rest called.2

/-- The area was outside the heap, and is inside it now. -/
def Grant.Fresh (grant : Grant) : Prop :=
  grant.before ≤ grant.area.start ∧ grant.area.stop ≤ grant.after

/-- What callers rely on. -/
structure SbrkAreas (incs : List Int) (process : Process State) : Prop where
  fresh : ∀ grant ∈ grants target call incs process, grant.Fresh
  disjoint :
    ((grants target call incs process).map Grant.area).Pairwise
      Region.Disjoint

/--
The kernel grants no request of the run.  The grant of the very last address
does not count, which looks like a failure.
-/
def NothingGranted : List Int → Process State → Prop
  | [], _ => True
  | inc :: rest, process =>
      let current := call.brk 0 process.kernel
      let wanted := advance target current.1 inc
      (current.1 ≠ 0 → wanted ≠ failed target →
          (call.brk wanted current.2).1 ≠ wanted) ∧
        NothingGranted rest (sbrk target call inc process).2

end Code

/-! ## Results of `sbrk` -/

section Results

variable {target : Target} {call : BreakCall State}

/-- A successful call returns the new break. -/
theorem sbrk_eq_heapEnd
    (lawful : call.Lawful) {inc : Int} {process : Process State}
    (succeeds : (sbrk target call inc process).1 ≠ failed target) :
    (sbrk target call inc process).1 =
      call.heapEnd (sbrk target call inc process).2.kernel := by
  unfold sbrk sysBrk at succeeds ⊢
  by_cases known : (call.brk 0 process.kernel).1 ≠ 0
  · simp only [if_pos known] at succeeds ⊢
    split at succeeds
    case isTrue moved =>
      rw [if_pos moved]
      exact moved.symm.trans (lawful.result _ _)
    case isFalse => exact absurd rfl succeeds
  · simp only [if_neg known] at succeeds
    exact absurd rfl succeeds

variable (target call) in
/-- A call succeeds when the kernel grants the request. -/
theorem sbrk_succeeds_iff (inc : Int) (process : Process State) :
    (sbrk target call inc process).1 ≠ failed target ↔
      (call.brk 0 process.kernel).1 ≠ 0 ∧
        advance target (call.brk 0 process.kernel).1 inc ≠ failed target ∧
        (call.brk (advance target (call.brk 0 process.kernel).1 inc)
            (call.brk 0 process.kernel).2).1 =
          advance target (call.brk 0 process.kernel).1 inc := by
  unfold sbrk sysBrk
  by_cases known : (call.brk 0 process.kernel).1 ≠ 0
  · simp only [if_pos known]
    split
    case isTrue moved =>
      exact ⟨fun other => ⟨known, other, moved⟩, fun both => both.2.1⟩
    case isFalse refused =>
      exact ⟨fun other => absurd rfl other,
        fun both => absurd both.2.2 refused⟩
  · simp only [if_neg known]
    exact ⟨fun other => absurd rfl other, fun both => absurd both.1 known⟩

/-- No grant lies below the new break. -/
theorem not_fresh_of_mem
    (lawful : call.Lawful) {incs : List Int}
    (positive : ∀ inc ∈ incs, 0 < inc) {process : Process State}
    {grant : Grant} (member : grant ∈ grants target call incs process) :
    ¬ grant.Fresh := by
  induction incs generalizing process with
  | nil => exact absurd member List.not_mem_nil
  | cons inc rest induction =>
      have onward : ∀ other ∈ rest, 0 < other := fun other inRest =>
        positive other (List.mem_cons_of_mem inc inRest)
      rw [grants] at member
      split at member
      case isTrue => exact induction onward member
      case isFalse succeeds =>
        rcases List.mem_cons.mp member with rfl | inRest
        · rintro ⟨_, below⟩
          have here := sbrk_eq_heapEnd lawful succeeds
          have some := positive inc List.mem_cons_self
          rw [Region.stop, ← here] at below
          simp only at below
          omega
        · exact induction onward inRest

theorem grants_eq_nil_iff (incs : List Int) (process : Process State) :
    grants target call incs process = [] ↔
      NothingGranted target call incs process := by
  induction incs generalizing process with
  | nil => exact ⟨fun _ => trivial, fun _ => rfl⟩
  | cons inc rest induction =>
      have granted := sbrk_succeeds_iff target call inc process
      rw [grants, NothingGranted]
      split
      case isTrue fails =>
        rw [induction]
        refine (and_iff_right ?_).symm
        intro known other moved
        exact granted.mpr ⟨known, other, moved⟩ fails
      case isFalse succeeds =>
        rcases granted.mp succeeds with ⟨known, other, moved⟩
        constructor
        · intro empty
          exact absurd empty (List.cons_ne_nil _ _)
        · rintro ⟨refuses, _⟩
          exact absurd moved (refuses known other)

end Results

/--
A run of calls of `sbrk` returns areas a caller can use exactly when the
kernel grants nothing: every successful call returns the end of its area.
-/
theorem sbrkAreas_iff
    (target : Target) {call : BreakCall State} (lawful : call.Lawful)
    (incs : List Int) (positive : ∀ inc ∈ incs, 0 < inc)
    (process : Process State) :
    SbrkAreas target call incs process ↔
      NothingGranted target call incs process := by
  rw [← grants_eq_nil_iff]
  constructor
  · intro areas
    by_contra nonempty
    rcases List.exists_mem_of_ne_nil _ nonempty with ⟨grant, member⟩
    exact not_fresh_of_mem lawful positive member (areas.fresh grant member)
  · intro empty
    constructor
    · intro grant member
      rw [empty] at member
      exact absurd member List.not_mem_nil
    · rw [empty]
      exact List.Pairwise.nil

/-- A kernel that grants whatever is not below the start of its heap. -/
def sampleBreak : BreakCall Nat where
  brk addr state := if addr < 0x4000 then (state, state) else (addr, addr)
  heapEnd := id

theorem sampleBreak_lawful : sampleBreak.Lawful where
  result addr state := by
    by_cases low : addr < 0x4000 <;> simp [sampleBreak, low]
  moves addr state := by
    by_cases low : addr < 0x4000 <;> simp [sampleBreak, low]

/-- One call of `sbrk(4096)` with the break at 0x5000 returns 0x6000. -/
theorem sbrk_returns_end :
    ¬ SbrkAreas .x86_64 sampleBreak [4096] ⟨0x5000, 0⟩ := by
  intro areas
  have member :
      (⟨0x5000, ⟨0x6000, 4096⟩, 0x6000⟩ : Grant) ∈
        grants .x86_64 sampleBreak [4096] ⟨0x5000, 0⟩ := by
    decide
  exact absurd (areas.fresh _ member).2 (by decide)

theorem sbrkAreas_iff_twice :
    SbrkAreas .arm sampleBreak [16, 32] ⟨0x5000, 0⟩ ↔
      NothingGranted .arm sampleBreak [16, 32] ⟨0x5000, 0⟩ :=
  sbrkAreas_iff .arm sampleBreak_lawful [16, 32] (by decide) ⟨0x5000, 0⟩

/-! ## Results of `brk` -/

section Requests

variable (call : BreakCall State)

/-- The break is at the address when the kernel has answered. -/
def Granted (addr : Nat) (state : State) : Prop :=
  call.heapEnd (call.brk addr state).2 = addr

/-- The result of a call tells whether the kernel granted the request. -/
structure Tells (addr : Nat) (process : Process State) : Prop where
  granted :
    (brk call addr process).1 = 0 ↔
      call.heapEnd (brk call addr process).2.kernel = addr
  refused :
    (brk call addr process).1 = -1 ∧
        (brk call addr process).2.errnum = ENOMEM ∧
        call.heapEnd (brk call addr process).2.kernel =
          call.heapEnd process.kernel ↔
      ¬ Granted call addr process.kernel

/-- The result of every call of a run does. -/
def BrkTells : List Nat → Process State → Prop
  | [], _ => True
  | addr :: rest, process =>
      Tells call addr process ∧ BrkTells rest (brk call addr process).2

/--
The kernel grants a request for an address other than zero, or refuses one
while the break is zero.
-/
def ToldApart (addr : Nat) (state : State) : Prop :=
  Granted call addr state ∧ addr ≠ 0 ∨
    ¬ Granted call addr state ∧ call.heapEnd state = 0

/-- Every request of a run is one of these. -/
def RequestsToldApart : List Nat → State → Prop
  | [], _ => True
  | addr :: rest, state =>
      ToldApart call addr state ∧
        RequestsToldApart rest (call.brk addr state).2

variable {call}

/-- A call only looks at whether the break is zero then. -/
theorem brk_eq
    (lawful : call.Lawful) (addr : Nat) (process : Process State) :
    brk call addr process =
      if call.heapEnd (call.brk addr process.kernel).2 = 0 then
        (-1, ⟨(call.brk addr process.kernel).2, ENOMEM⟩)
      else
        (0, { process with kernel := (call.brk addr process.kernel).2 }) := by
  simp only [brk, sysBrk, lawful.result addr process.kernel]

theorem brk_kernel (addr : Nat) (process : Process State) :
    (brk call addr process).2.kernel = (call.brk addr process.kernel).2 := by
  unfold brk sysBrk
  by_cases zero : (call.brk addr process.kernel).1 = 0
  · simp only [if_pos zero]
  · simp only [if_neg zero]

theorem tells_iff
    (lawful : call.Lawful) (addr : Nat) (process : Process State) :
    Tells call addr process ↔ ToldApart call addr process.kernel := by
  have eq := brk_eq lawful addr process
  have failed : ¬ (0 : Int) = -1 := by decide
  by_cases zero : call.heapEnd (call.brk addr process.kernel).2 = 0
  · rw [if_pos zero] at eq
    have unmoved (refuses : ¬ Granted call addr process.kernel) :
        call.heapEnd process.kernel = 0 := by
      rw [← (lawful.moves addr process.kernel).resolve_left refuses, zero]
    constructor
    · intro tells
      have granted := tells.granted
      rw [eq] at granted
      have refuses : ¬ Granted call addr process.kernel := fun reached =>
        failed (granted.mpr reached).symm
      exact Or.inr ⟨refuses, unmoved refuses⟩
    · rintro (⟨granted, nonzero⟩ | ⟨refuses, empty⟩)
      · exact absurd (granted.symm.trans zero) nonzero
      · constructor
        · rw [eq]
          exact iff_of_false (fun same => failed same.symm) refuses
        · rw [eq]
          exact iff_of_true ⟨rfl, rfl, zero.trans empty.symm⟩ refuses
  · rw [if_neg zero] at eq
    constructor
    · intro tells
      have granted := tells.granted
      rw [eq] at granted
      have reached : Granted call addr process.kernel := granted.mp rfl
      exact Or.inl ⟨reached, fun empty => zero (reached.trans empty)⟩
    · rintro (⟨granted, _⟩ | ⟨refuses, empty⟩)
      · constructor
        · rw [eq]
          exact iff_of_true rfl granted
        · rw [eq]
          exact iff_of_false (fun both => failed both.1)
            (not_not.mpr granted)
      · have unmoved :=
          (lawful.moves addr process.kernel).resolve_left refuses
        exact absurd (unmoved.trans empty) zero

/--
The results of a run of calls of `brk` tell which requests the kernel granted
exactly when it granted all of them, for addresses other than zero, or the
break was zero when it did not.
-/
theorem brkTells_iff
    (lawful : call.Lawful) (addrs : List Nat) (process : Process State) :
    BrkTells call addrs process ↔
      RequestsToldApart call addrs process.kernel := by
  induction addrs generalizing process with
  | nil => exact Iff.rfl
  | cons addr rest induction =>
      rw [BrkTells, RequestsToldApart, tells_iff lawful, induction,
        brk_kernel]

end Requests

/-- The break stays at 0x5000, and the call returns 0. -/
theorem brk_hides_refusal :
    ¬ BrkTells sampleBreak [0x1000] ⟨0x5000, 0⟩ := by
  rintro ⟨tells, _⟩
  have unmoved : (0x5000 : Nat) = 0x1000 := tells.granted.mp (by decide)
  exact absurd unmoved (by decide)

theorem brkTells_iff_twice :
    BrkTells sampleBreak [0x6000, 0x1000] ⟨0x5000, 0⟩ ↔
      RequestsToldApart sampleBreak [0x6000, 0x1000] 0x5000 :=
  brkTells_iff sampleBreak_lawful [0x6000, 0x1000] ⟨0x5000, 0⟩

end Nolibc.Sys.Brk

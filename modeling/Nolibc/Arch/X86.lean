import Nolibc.Foundation.Loop
import Nolibc.Strings.Move

/-!
# The assembly `memmove` and `memcpy` of x86-64

`arch-x86_64.h` replaces both functions by one piece of assembly with two
labels.  The instructions it is made of are those of `Instruction`, in AT&T
operand order; of the flags it reads the carry and the direction.  A function
is entered with the direction flag clear, and its arguments in `rdi`, `rsi`
and `rdx`.

`memmove_agree` says that this code and the generic `memmove` leave the same
memory.
-/

set_option autoImplicit false

namespace Nolibc.Arch.X86

open Nolibc.Machine
open Nolibc.Foundation
open Nolibc.Foundation.Move
open Nolibc.Strings.Move

/-! ## The machine -/

/-- The registers that the code uses. -/
inductive Register where
  | rax
  | rcx
  | rdx
  | rsi
  | rdi
  deriving DecidableEq, Repr

/-- The instructions that the code uses, the source first. -/
inductive Instruction where
  | movq (source destination : Register)
  | subq (source destination : Register)
  | cmpq (source destination : Register)
  | jb (label : Nat)
  | leaq (displacement : BitVec 64) (base index destination : Register)
  | repMovsb
  | std
  | cld
  | retq

/-- The registers, the two flags, the place in the text, and the memory. -/
structure Cpu where
  registers : Register → BitVec 64
  carry : Bool
  direction : Bool
  pc : Nat
  memory : Nat → Byte

namespace Cpu

/-- A register is written, and nothing else. -/
def set (cpu : Cpu) (register : Register) (value : BitVec 64) : Cpu :=
  { cpu with registers := Function.update cpu.registers register value }

/-- One `movsb` of a repetition. -/
def movsb (cpu : Cpu) : Cpu :=
  let step : BitVec 64 := if cpu.direction then -1 else 1
  let rdi := cpu.registers .rdi
  let rsi := cpu.registers .rsi
  let stored :=
    { cpu with
      memory :=
        Function.update cpu.memory rdi.toNat (cpu.memory rsi.toNat) }
  (stored.set .rdi (rdi + step)).set .rsi (rsi + step)

/-- `rep`: as often as `rcx` says, and down to zero. -/
def rep (body : Cpu → Cpu) : Nat → Cpu → Cpu
  | 0, cpu => cpu.set .rcx 0
  | count + 1, cpu => rep body count (body cpu)

/-- Execute an instruction; `none` is a return. -/
def execute (cpu : Cpu) : Instruction → Option Cpu
  | .movq source destination =>
      let cpu := { cpu with pc := cpu.pc + 1 }
      some (cpu.set destination (cpu.registers source))
  | .subq source destination =>
      let left := cpu.registers destination
      let right := cpu.registers source
      let cpu := { cpu with pc := cpu.pc + 1, carry := decide (left < right) }
      some (cpu.set destination (left - right))
  | .cmpq source destination =>
      let left := cpu.registers destination
      let right := cpu.registers source
      some { cpu with pc := cpu.pc + 1, carry := decide (left < right) }
  | .jb label =>
      some { cpu with pc := if cpu.carry then label else cpu.pc + 1 }
  | .leaq displacement base index destination =>
      let address :=
        displacement + cpu.registers base + cpu.registers index
      let cpu := { cpu with pc := cpu.pc + 1 }
      some (cpu.set destination address)
  | .repMovsb =>
      let cpu := { cpu with pc := cpu.pc + 1 }
      some (cpu.rep movsb (cpu.registers .rcx).toNat)
  | .std => some { cpu with pc := cpu.pc + 1, direction := true }
  | .cld => some { cpu with pc := cpu.pc + 1, direction := false }
  | .retq => none

end Cpu

/-! ## The code -/

/-- The section `.text.nolibc_memmove_memcpy`. -/
def text : List Instruction :=
  [ .movq .rdx .rcx,
    .movq .rdi .rax,
    .movq .rdi .rdx,
    .subq .rsi .rdx,
    .cmpq .rcx .rdx,
    .jb 8,
    .repMovsb,
    .retq,
    -- `1:` backward copy
    .leaq (-1) .rdi .rcx .rdi,
    .leaq (-1) .rsi .rcx .rsi,
    .std,
    .repMovsb,
    .cld,
    .retq ]

/-- The labels `memmove:` and `memcpy:`. -/
def memmoveLabel : Nat := 0

/-- Both labels are in front of the first instruction. -/
def memcpyLabel : Nat := 0

/-- One instruction, or the end at one that returns. -/
def step (cpu : Cpu) : Except Fault (Cpu ⊕ Cpu) :=
  match text[cpu.pc]? with
  | none => .error .outOfBounds
  | some instruction =>
      match cpu.execute instruction with
      | none => .ok (.inr cpu)
      | some next => .ok (.inl next)

/-- A call: the code only jumps forward, so that its length bounds its turns. -/
def call (cpu : Cpu) : Except Fault Cpu :=
  Loop.run Fault.diverged step text.length cpu

/-- A machine about to call a function of three arguments. -/
def entering (label : Nat) (dst src len : BitVec 64) (cpu : Cpu) : Cpu :=
  { cpu with
    registers := fun register =>
      match register with
      | .rdi => dst
      | .rsi => src
      | .rdx => len
      | other => cpu.registers other
    direction := false
    pc := label }

/-! ## Repetitions -/

namespace Cpu

/-- A repetition of `movsb` touches no other register. -/
theorem rep_movsb_frame (count : Nat) (cpu : Cpu) :
    (rep movsb count cpu).pc = cpu.pc ∧
      (rep movsb count cpu).direction = cpu.direction ∧
      (rep movsb count cpu).registers .rax = cpu.registers .rax := by
  induction count generalizing cpu with
  | zero => exact ⟨rfl, rfl, rfl⟩
  | succ count induction => exact induction cpu.movsb

variable (memory : Nat → Byte) {dst src : BitVec 64} {len : Nat}

/-- With the direction flag clear, a repetition copies upwards. -/
theorem rep_movsb_up
    (dstFits : dst.toNat + len ≤ 2 ^ 64) (srcFits : src.toNat + len ≤ 2 ^ 64)
    (apart : dst.toNat ≤ src.toNat ∨ src.toNat + len ≤ dst.toNat)
    {count left : Nat} (whole : count + left = len) {cpu : Cpu}
    (clear : cpu.direction = false)
    (rdi : cpu.registers .rdi = dst + BitVec.ofNat 64 count)
    (rsi : cpu.registers .rsi = src + BitVec.ofNat 64 count)
    (copied : cpu.memory = moved memory dst.toNat src.toNat count) :
    (rep movsb left cpu).memory =
      moved memory dst.toNat src.toNat len := by
  induction left generalizing count cpu with
  | zero =>
      rw [← whole, Nat.add_zero]
      exact copied
  | succ left induction =>
      have atRdi : (cpu.registers .rdi).toNat = dst.toNat + count := by
        rw [rdi, toNat_add_ofNat (by omega)]
      have atRsi : (cpu.registers .rsi).toNat = src.toNat + count := by
        rw [rsi, toNat_add_ofNat (by omega)]
      have stored : cpu.movsb.memory =
          moved memory dst.toNat src.toNat (count + 1) := by
        rw [← moved_forward memory _ (by omega), ← copied, ← atRdi, ← atRsi]
        rfl
      have next (base : BitVec 64) :
          base + BitVec.ofNat 64 count + 1 =
            base + BitVec.ofNat 64 (count + 1) := by
        rw [ofNat_succ, BitVec.add_assoc]
      have nextRdi : cpu.movsb.registers .rdi = cpu.registers .rdi + 1 := by
        simp [movsb, set, clear]
      have nextRsi : cpu.movsb.registers .rsi = cpu.registers .rsi + 1 := by
        simp [movsb, set, clear]
      rw [rdi, next] at nextRdi
      rw [rsi, next] at nextRsi
      exact induction (by omega) clear nextRdi nextRsi stored

/-- With the direction flag set, a repetition copies downwards. -/
theorem rep_movsb_down
    (dstFits : dst.toNat + len ≤ 2 ^ 64) (srcFits : src.toNat + len ≤ 2 ^ 64)
    (above : src.toNat ≤ dst.toNat)
    {count left : Nat} (whole : left + count = len) {cpu : Cpu}
    (backward : cpu.direction = true)
    (rdi : cpu.registers .rdi = dst + BitVec.ofNat 64 left - 1)
    (rsi : cpu.registers .rsi = src + BitVec.ofNat 64 left - 1)
    (copied : cpu.memory =
      moved memory (dst.toNat + left) (src.toNat + left) count) :
    (rep movsb left cpu).memory =
      moved memory dst.toNat src.toNat len := by
  induction left generalizing count cpu with
  | zero =>
      rw [← whole, Nat.zero_add]
      exact copied
  | succ left induction =>
      have previous (base : BitVec 64) :
          base + BitVec.ofNat 64 (left + 1) - 1 =
            base + BitVec.ofNat 64 left := by
        rw [ofNat_succ, ← BitVec.add_assoc, BitVec.add_sub_cancel]
      rw [previous] at rdi rsi
      have atRdi : (cpu.registers .rdi).toNat = dst.toNat + left := by
        rw [rdi, toNat_add_ofNat (by omega)]
      have atRsi : (cpu.registers .rsi).toNat = src.toNat + left := by
        rw [rsi, toNat_add_ofNat (by omega)]
      have stored : cpu.movsb.memory =
          moved memory (dst.toNat + left) (src.toNat + left)
            (count + 1) := by
        rw [← moved_backward memory _
            (Or.inl (Nat.add_le_add_right above left)),
          Nat.add_assoc, Nat.add_assoc, ← copied, ← atRdi, ← atRsi]
        rfl
      have nextRdi : cpu.movsb.registers .rdi =
          cpu.registers .rdi + -1 := by
        simp [movsb, set, backward]
      have nextRsi : cpu.movsb.registers .rsi =
          cpu.registers .rsi + -1 := by
        simp [movsb, set, backward]
      rw [rdi, ← BitVec.sub_eq_add_neg] at nextRdi
      rw [rsi, ← BitVec.sub_eq_add_neg] at nextRsi
      exact induction (by omega) backward nextRdi nextRsi stored

end Cpu

/-! ## The two functions -/

theorem step_of_fetch
    {cpu next : Cpu} {instruction : Instruction}
    (fetched : text[cpu.pc]? = some instruction)
    (executed : cpu.execute instruction = some next) :
    step cpu = .ok (.inl next) := by
  rw [step, fetched]
  simp only [executed]

theorem step_retq
    {cpu : Cpu} (fetched : text[cpu.pc]? = some .retq) :
    step cpu = .ok (.inr cpu) := by
  rw [step, fetched]
  rfl

/-- The machine at the jump, its carry set when the copy must go backward. -/
def compared (dst src len : BitVec 64) (cpu : Cpu) : Cpu :=
  { cpu with
    registers := fun register =>
      match register with
      | .rax => dst
      | .rcx => len
      | .rdx => dst - src
      | .rsi => src
      | .rdi => dst
    carry := decide (dst - src < len)
    direction := false
    pc := 5 }

/-- The instructions before the jump compare the distance with the length. -/
theorem call_entering (dst src len : BitVec 64) (cpu : Cpu) :
    call (entering memmoveLabel dst src len cpu) =
      Loop.run Fault.diverged step 9 (compared dst src len cpu) := by
  have registers :
      Function.update (Function.update (Function.update (Function.update
          (entering memmoveLabel dst src len cpu).registers .rcx len)
            .rax dst) .rdx dst) .rdx (dst - src) =
        (compared dst src len cpu).registers := by
    funext register
    cases register <;> rfl
  have same :
      { (compared dst src len cpu) with
        registers :=
          Function.update (Function.update (Function.update
            (Function.update
              (entering memmoveLabel dst src len cpu).registers .rcx len)
                .rax dst) .rdx dst) .rdx (dst - src) } =
        compared dst src len cpu := by
    rw [registers]
  rw [← same]
  rfl

/-- A call that returned: the block moved, `dst` in `rax`, the flag clear. -/
structure Returned (memory : Nat → Byte) (dst src len : BitVec 64)
    (after : Cpu) : Prop where
  memory :
    after.memory = moved memory dst.toNat src.toNat len.toNat
  rax : after.registers .rax = dst
  direction : after.direction = false

section Calls

variable {dst src len : BitVec 64}
  (dstFits : dst.toNat + len.toNat ≤ 2 ^ 64)
  (srcFits : src.toNat + len.toNat ≤ 2 ^ 64) (cpu : Cpu)

include dstFits srcFits

/-- From the jump on, when the carry is clear. -/
theorem run_forward
    (far : ¬ dst - src < len)
    (apart : dst.toNat ≤ src.toNat ∨ src.toNat + len.toNat ≤ dst.toNat) :
    ∃ after,
      Loop.run Fault.diverged step 9 (compared dst src len cpu) =
          .ok after ∧
        Returned cpu.memory dst src len after := by
  let start : Cpu := { compared dst src len cpu with pc := 6 }
  let ready : Cpu := { compared dst src len cpu with pc := 7 }
  have jump : step (compared dst src len cpu) = .ok (.inl start) := by
    apply step_of_fetch rfl
    simp [Cpu.execute, compared, far, start]
  have copy : step start =
      .ok (.inl (Cpu.rep Cpu.movsb len.toNat ready)) :=
    step_of_fetch rfl rfl
  rcases Cpu.rep_movsb_frame len.toNat ready with ⟨pc, direction, rax⟩
  have leave : step (Cpu.rep Cpu.movsb len.toNat ready) =
      .ok (.inr (Cpu.rep Cpu.movsb len.toNat ready)) := by
    apply step_retq
    rw [pc]
    rfl
  rw [Loop.run_continue jump, Loop.run_continue copy, Loop.run_exit leave]
  refine ⟨_, rfl, ?_, rax, direction⟩
  exact Cpu.rep_movsb_up cpu.memory dstFits srcFits apart
    (Nat.zero_add len.toNat) rfl (BitVec.add_zero dst).symm
    (BitVec.add_zero src).symm (moved_zero cpu.memory _ _).symm

/-- From the jump on, when the carry is set. -/
theorem run_backward
    (near : dst - src < len) (above : src.toNat ≤ dst.toNat) :
    ∃ after,
      Loop.run Fault.diverged step 9 (compared dst src len cpu) =
          .ok after ∧
        Returned cpu.memory dst src len after := by
  let start : Cpu := { compared dst src len cpu with pc := 8 }
  let lastRdi : Cpu := { start with pc := 9 }.set .rdi (-1 + dst + len)
  let lastRsi : Cpu := { lastRdi with pc := 10 }.set .rsi (-1 + src + len)
  let backward : Cpu := { lastRsi with pc := 11, direction := true }
  let ready : Cpu := { backward with pc := 12 }
  let copied : Cpu := Cpu.rep Cpu.movsb len.toNat ready
  let forward : Cpu :=
    { copied with pc := copied.pc + 1, direction := false }
  have jump : step (compared dst src len cpu) = .ok (.inl start) := by
    apply step_of_fetch rfl
    simp [Cpu.execute, compared, near, start]
  have first : step start = .ok (.inl lastRdi) := step_of_fetch rfl rfl
  have second : step lastRdi = .ok (.inl lastRsi) := step_of_fetch rfl rfl
  have third : step lastRsi = .ok (.inl backward) := step_of_fetch rfl rfl
  have copy : step backward = .ok (.inl copied) := step_of_fetch rfl rfl
  rcases Cpu.rep_movsb_frame len.toNat ready with ⟨pc, _, rax⟩
  have atCld : text[copied.pc]? = some .cld := by
    rw [pc]
    rfl
  have next : forward.pc = ready.pc + 1 := congrArg (· + 1) pc
  have atRetq : text[forward.pc]? = some .retq := by
    rw [next]
    rfl
  have clear : step copied = .ok (.inl forward) := step_of_fetch atCld rfl
  rw [Loop.run_continue jump, Loop.run_continue first,
    Loop.run_continue second, Loop.run_continue third,
    Loop.run_continue copy, Loop.run_continue clear,
    Loop.run_exit (step_retq atRetq)]
  refine ⟨_, rfl, ?_, rax, rfl⟩
  have last (base : BitVec 64) :
      -1 + base + len = base + BitVec.ofNat 64 len.toNat - 1 := by
    rw [BitVec.ofNat_toNat, BitVec.setWidth_eq, BitVec.add_comm (-1),
      BitVec.add_assoc, BitVec.add_comm (-1), ← BitVec.add_assoc,
      ← BitVec.sub_eq_add_neg]
  exact Cpu.rep_movsb_down cpu.memory dstFits srcFits above
    (Nat.add_zero len.toNat) rfl (last dst) (last src)
    (moved_zero cpu.memory _ _).symm

/-- A call of the assembly moves the block. -/
theorem call_returns :
    ∃ after, call (entering memmoveLabel dst src len cpu) = .ok after ∧
      Returned cpu.memory dst src len after := by
  rw [call_entering]
  -- the distance is taken modulo `2 ^ 64`
  have distance := BitVec.toNat_sub dst src
  by_cases near : dst - src < len
  · have below : (dst - src).toNat < len.toNat := near
    exact run_backward dstFits srcFits cpu near (by omega)
  · have far : len.toNat ≤ (dst - src).toNat := Nat.le_of_not_lt near
    exact run_forward dstFits srcFits cpu near (by omega)

end Calls

/--
The generic `memmove`, the assembly `memmove` and the assembly `memcpy` leave
the same memory, in which the bytes at `dst` are the original ones at `src`
and every other byte is unchanged, and return `dst`.
-/
theorem memmove_agree
    (dst src len : BitVec 64) (dstFits : dst.toNat + len.toNat ≤ 2 ^ 64)
    (srcFits : src.toNat + len.toNat ≤ 2 ^ 64) (cpu : Cpu) :
    ∃ after : Nat → Byte,
      (∀ index, index < len.toNat →
          after (dst.toNat + index) = cpu.memory (src.toNat + index)) ∧
        (∀ address,
          address < dst.toNat ∨ dst.toNat + len.toNat ≤ address →
            after address = cpu.memory address) ∧
        memmove cpu.memory dst src len = (after, dst) ∧
        (∃ moved, call (entering memmoveLabel dst src len cpu) = .ok moved ∧
          moved.memory = after ∧ moved.registers .rax = dst) ∧
        ∃ copied, call (entering memcpyLabel dst src len cpu) = .ok copied ∧
          copied.memory = after ∧ copied.registers .rax = dst := by
  rcases call_returns dstFits srcFits cpu with ⟨returned, called, moves⟩
  refine ⟨moved cpu.memory dst.toNat src.toNat len.toNat, ?_, ?_,
    memmove_eq cpu.memory dstFits srcFits,
    ⟨returned, called, moves.memory, moves.rax⟩,
    ⟨returned, called, moves.memory, moves.rax⟩⟩
  · intro index inside
    exact moved_inside cpu.memory dst.toNat src.toNat inside
  · intro address outside
    exact moved_outside cpu.memory src.toNat outside

/-- A machine whose memory counts its addresses. -/
def sampleCpu : Cpu :=
  ⟨fun _ => 0, false, false, 0, fun address => UInt8.ofNat address⟩

theorem memmove_agree_overlap :
    ∃ after : Nat → Byte,
      (∀ index, index < (5 : BitVec 64).toNat →
          after ((13 : BitVec 64).toNat + index) =
            sampleCpu.memory ((10 : BitVec 64).toNat + index)) ∧
        (∀ address,
          address < (13 : BitVec 64).toNat ∨
              (13 : BitVec 64).toNat + (5 : BitVec 64).toNat ≤ address →
            after address = sampleCpu.memory address) ∧
        memmove sampleCpu.memory (13 : BitVec 64) 10 5 = (after, 13) ∧
        (∃ moved,
          call (entering memmoveLabel 13 10 5 sampleCpu) = .ok moved ∧
            moved.memory = after ∧ moved.registers .rax = 13) ∧
        ∃ copied,
          call (entering memcpyLabel 13 10 5 sampleCpu) = .ok copied ∧
            copied.memory = after ∧ copied.registers .rax = 13 :=
  memmove_agree 13 10 5 (by decide) (by decide) sampleCpu

end Nolibc.Arch.X86

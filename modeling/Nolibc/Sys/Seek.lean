import Nolibc.Sys
import Mathlib.Data.BitVec

/-!
# Seeking with two halves

A 32-bit target without `__NR_lseek` seeks with `__NR_llseek`, which takes a
64-bit offset in two halves.  `lseek` hands over its own offset as the low
half, and zero as the high one: a negative offset becomes one of almost 4 GiB.

`agrees_iff` compares the two calls on one file, whatever its position and its
size.
-/

set_option autoImplicit false

namespace Nolibc.Sys.Seek

open Nolibc.Machine

variable {State : Type}

/-! ## The kernel -/

/-- The offset is from the position, or from the end of the file. -/
def SEEK_CUR : Int := 1
def SEEK_END : Int := 2

/-- Where an offset is counted from. -/
inductive Whence where
  | seekSet
  | seekCur
  | seekEnd
  deriving DecidableEq, Repr

/-- The argument `whence` of the calls. -/
def Whence.value : Whence → Int
  | .seekSet => SEEK_SET
  | .seekCur => SEEK_CUR
  | .seekEnd => SEEK_END

/-- What both calls do: a seek by a signed 64-bit offset. -/
structure SeekKernel (State : Type) where
  seek : Int → Int → Int → State → Int × State
  position : State → Int
  size : State → Int
  /-- The last position that a file of this kind has. -/
  limit : Int

namespace SeekKernel

variable (kernel : SeekKernel State)

/-- The position that is asked for. -/
def wanted (whence : Whence) (offset : Int) (state : State) : Int :=
  match whence with
  | .seekSet => offset
  | .seekCur => kernel.position state + offset
  | .seekEnd => kernel.size state + offset

/-- No file has such a position. -/
def Refuses (position : Int) : Prop :=
  position < 0 ∨ kernel.limit < position

instance (position : Int) : Decidable (kernel.Refuses position) :=
  inferInstanceAs (Decidable (_ ∨ _))

/-- The kernel moves to the position, or leaves the file alone. -/
structure Lawful : Prop where
  position_nonneg : ∀ state, 0 ≤ kernel.position state
  size_nonneg : ∀ state, 0 ≤ kernel.size state
  refuses : ∀ fd offset whence state,
    kernel.Refuses (kernel.wanted whence offset state) →
      kernel.seek fd offset whence.value state =
        ((-EINVAL.toNat : Int), state)
  moves : ∀ fd offset whence state,
    ¬ kernel.Refuses (kernel.wanted whence offset state) →
      ∃ next, kernel.seek fd offset whence.value state =
          (kernel.wanted whence offset state, next) ∧
        kernel.position next = kernel.wanted whence offset state

/-- `__NR_lseek` of a 32-bit target, for its signed offset. -/
def lseekCall (fd offset whence : Int) (state : State) : Int × State :=
  let (result, state) := kernel.seek fd offset whence state
  (if intOfLong result = result then result else -EOVERFLOW.toNat, state)

/-- `__NR_llseek`, for the signed 64-bit offset `(high << 32) | low`. -/
def llseekCall (fd : Int) (offsetHigh offsetLow : Nat) (whence : Int)
    (state : State) : Int × Option Int × State :=
  let offset := (BitVec.ofNat 64 (offsetHigh <<< 32 ||| offsetLow)).toInt
  let (result, state) := kernel.seek fd offset whence state
  if 0 ≤ result then (0, some result, state) else (result, none, state)

/-- The calls of a target which has `__NR_lseek`. -/
def native : SeekCalls State where
  lseek := some kernel.lseekCall
  llseek := none

/-- The calls of a target which only has `__NR_llseek`. -/
def fallback : SeekCalls State where
  lseek := none
  llseek := some kernel.llseekCall

end SeekKernel

/-- The two calls have the same result, `errno` and final position. -/
def Agrees (kernel : SeekKernel State) (target : Target)
    (fd offset whence : Int) (process : Process State) : Prop :=
  let direct := lseek target kernel.native fd offset whence process
  let halves := lseek target kernel.fallback fd offset whence process
  halves.1 = direct.1 ∧ halves.2.errnum = direct.2.errnum ∧
    kernel.position halves.2.kernel = kernel.position direct.2.kernel

instance (kernel : SeekKernel State) (target : Target)
    (fd offset whence : Int) (process : Process State) :
    Decidable (Agrees kernel target fd offset whence process) :=
  inferInstanceAs (Decidable (_ ∧ _ ∧ _))

/-! ## What the calls return -/

/-- The kernel left the file alone. -/
def refused (process : Process State) : Int × Process State :=
  (-1, { process with errnum := EINVAL })

/-- The kernel moved, to a position that has no `off_t`. -/
def overflowed (next : State) : Int × Process State :=
  (-1, ⟨next, EOVERFLOW⟩)

/-- The low half alone is the offset as an unsigned number. -/
theorem offset_of_low (offset : BitVec 32) :
    (BitVec.ofNat 64 (0 <<< 32 ||| offset.toNat)).toInt = offset.toNat := by
  have small := offset.isLt
  rw [Nat.zero_shiftLeft, Nat.zero_or, BitVec.toInt_eq_toNat_bmod,
    BitVec.toNat_ofNat, Int.bmod_def]
  omega

/-- The unsigned offset asks for a position 4 GiB behind a negative one. -/
theorem wanted_unsigned (kernel : SeekKernel State) (offset : BitVec 32)
    (whence : Whence) (state : State) :
    kernel.wanted whence offset.toNat state =
      if 0 ≤ offset.toInt then
        kernel.wanted whence offset.toInt state
      else
        kernel.wanted whence offset.toInt state + 2 ^ 32 := by
  have unsigned : (offset.toNat : Int) =
      if 0 ≤ offset.toInt then offset.toInt else offset.toInt + 2 ^ 32 := by
    have cond := BitVec.toInt_eq_toNat_cond offset
    split_ifs at cond ⊢ <;> omega
  cases whence <;> simp only [SeekKernel.wanted, unsigned] <;>
    split_ifs <;> omega

section Calls

variable {kernel : SeekKernel State} (lawful : kernel.Lawful)
  (charSigned : Bool) (fd : Int) {offset : BitVec 32} {whence : Whence}
  {process : Process State}

/-- What `lseek` makes of the result of `__NR_llseek`. -/
theorem fallback_eq {ret : Int} {stored : Option Int} {next : State}
    (called : kernel.llseekCall fd 0 offset.toNat whence.value
      process.kernel = (ret, stored, next)) :
    lseek ⟨.ilp32, charSigned⟩ kernel.fallback fd offset.toInt whence.value
        process =
      sysret
        (if intOfLong ret < 0 then
          intOfLong ret
        else if stored.getD 0 ≠ offOf ⟨.ilp32, charSigned⟩ (stored.getD 0)
        then
          -EOVERFLOW.toNat
        else
          offOf ⟨.ilp32, charSigned⟩ (stored.getD 0))
        { process with kernel := next } := by
  have low : (BitVec.ofInt 32 offset.toInt).toNat = offset.toNat := by
    rw [BitVec.ofInt_toInt]
  simp only [lseek, sysLseek, sysLlseek, SeekKernel.fallback,
    Target.longBits, low, called, if_true]
  split_ifs
  · rfl
  · rfl
  · rfl

include lawful

theorem native_refused
    (refuses : kernel.Refuses
      (kernel.wanted whence offset.toInt process.kernel)) :
    lseek ⟨.ilp32, charSigned⟩ kernel.native fd offset.toInt whence.value
        process =
      refused process := by
  have sought := lawful.refuses fd offset.toInt whence process.kernel refuses
  simp only [lseek, sysLseek, SeekKernel.native, SeekKernel.lseekCall, sought]
  rfl

/-- A position that fits is returned. -/
theorem native_moved
    (moves : ¬ kernel.Refuses
      (kernel.wanted whence offset.toInt process.kernel))
    (fits : kernel.wanted whence offset.toInt process.kernel < 2 ^ 31) :
    ∃ next,
      lseek ⟨.ilp32, charSigned⟩ kernel.native fd offset.toInt whence.value
          process =
        (kernel.wanted whence offset.toInt process.kernel,
          { process with kernel := next }) ∧
      kernel.position next =
        kernel.wanted whence offset.toInt process.kernel := by
  rcases lawful.moves fd offset.toInt whence process.kernel moves with
    ⟨next, sought, position⟩
  have nonnegative :
      0 ≤ kernel.wanted whence offset.toInt process.kernel :=
    Int.not_lt.mp fun negative => moves (Or.inl negative)
  have called : kernel.lseekCall fd offset.toInt whence.value
      process.kernel =
        (kernel.wanted whence offset.toInt process.kernel, next) := by
    simp only [SeekKernel.lseekCall, sought,
      intOfLong_of_range (by omega) fits, if_true]
  exact ⟨next, lseek_native _ _ rfl _ called nonnegative, position⟩

theorem fallback_refused
    (refuses : kernel.Refuses
      (kernel.wanted whence offset.toNat process.kernel)) :
    lseek ⟨.ilp32, charSigned⟩ kernel.fallback fd offset.toInt whence.value
        process =
      refused process := by
  have sought := lawful.refuses fd offset.toNat whence process.kernel refuses
  have called : kernel.llseekCall fd 0 offset.toNat whence.value
      process.kernel = ((-EINVAL.toNat : Int), none, process.kernel) := by
    simp only [SeekKernel.llseekCall, offset_of_low, sought]
    rfl
  rw [fallback_eq charSigned fd called]
  rfl

/-- A position is returned when it fits, and is an error when it does not. -/
theorem fallback_moved
    (moves : ¬ kernel.Refuses
      (kernel.wanted whence offset.toNat process.kernel)) :
    ∃ next,
      lseek ⟨.ilp32, charSigned⟩ kernel.fallback fd offset.toInt
          whence.value process =
        (if kernel.wanted whence offset.toNat process.kernel < 2 ^ 31 then
          (kernel.wanted whence offset.toNat process.kernel,
            { process with kernel := next })
        else
          overflowed next) ∧
      kernel.position next =
        kernel.wanted whence offset.toNat process.kernel := by
  rcases lawful.moves fd offset.toNat whence process.kernel moves with
    ⟨next, sought, position⟩
  refine ⟨next, ?_, position⟩
  have nonnegative :
      0 ≤ kernel.wanted whence offset.toNat process.kernel :=
    Int.not_lt.mp fun negative => moves (Or.inl negative)
  generalize kernel.wanted whence offset.toNat process.kernel = wanted at *
  have called : kernel.llseekCall fd 0 offset.toNat whence.value
      process.kernel = (0, some wanted, next) := by
    simp only [SeekKernel.llseekCall, offset_of_low, sought,
      if_pos nonnegative]
  rw [fallback_eq charSigned fd called]
  by_cases fits : wanted < 2 ^ 31
  · have exact : offOf ⟨.ilp32, charSigned⟩ wanted = wanted :=
      intOfLong_of_range (by omega) fits
    rw [if_neg (by decide), Option.getD_some, exact,
      if_neg (not_not.mpr rfl), if_pos fits, sysret,
      if_neg (Int.not_lt.mpr nonnegative)]
  · have narrowed : wanted ≠ offOf ⟨.ilp32, charSigned⟩ wanted := by
      have high : (BitVec.ofInt 32 wanted).toInt < 2 ^ 31 :=
        BitVec.toInt_lt
      intro same
      change wanted = (BitVec.ofInt 32 wanted).toInt at same
      omega
    rw [if_neg (by decide), Option.getD_some, if_pos narrowed, if_neg fits]
    rfl

/-! ## Where the two calls meet -/

/-- No position is further in front of the file than an offset reaches. -/
theorem wanted_low (offset : BitVec 32) (whence : Whence) (state : State) :
    -2 ^ 31 ≤ kernel.wanted whence offset.toInt state := by
  have position := lawful.position_nonneg state
  have size := lawful.size_nonneg state
  have least := offset.le_toInt
  cases whence <;> simp only [SeekKernel.wanted] <;> omega

section Fitting

variable
  (fits : kernel.wanted whence offset.toInt process.kernel < 2 ^ 31)

include fits

/-- Forwards the two calls do the same. -/
theorem agrees_forward (forward : 0 ≤ offset.toInt) :
    Agrees kernel ⟨.ilp32, charSigned⟩ fd offset.toInt whence.value
      process := by
  have asked := wanted_unsigned kernel offset whence process.kernel
  rw [if_pos forward] at asked
  by_cases refuses : kernel.Refuses
      (kernel.wanted whence offset.toInt process.kernel)
  · have direct := native_refused lawful charSigned fd refuses
    rw [← asked] at refuses
    have halves := fallback_refused lawful charSigned fd refuses
    simp only [Agrees, direct, halves, and_self]
  · rcases native_moved lawful charSigned fd refuses fits with
      ⟨next, direct, position⟩
    rw [← asked] at refuses
    rcases fallback_moved lawful charSigned fd refuses with
      ⟨other, halves, samePosition⟩
    rw [asked, if_pos fits] at halves
    simp only [Agrees, direct, halves, position, samePosition, asked,
      and_self]

section Backwards

variable (backward : ¬ 0 ≤ offset.toInt)

include backward

/-- Backwards, a refused seek is one when the other is refused as well. -/
theorem agrees_refused_iff
    (refuses : kernel.Refuses
      (kernel.wanted whence offset.toInt process.kernel)) :
    Agrees kernel ⟨.ilp32, charSigned⟩ fd offset.toInt whence.value
        process ↔
      kernel.Refuses
        (kernel.wanted whence offset.toInt process.kernel + 2 ^ 32) := by
  have low := wanted_low lawful offset whence process.kernel
  have asked := wanted_unsigned kernel offset whence process.kernel
  have direct := native_refused lawful charSigned fd refuses
  rw [if_neg backward] at asked
  rw [← asked]
  by_cases refusesToo : kernel.Refuses
      (kernel.wanted whence offset.toNat process.kernel)
  · have halves := fallback_refused lawful charSigned fd refusesToo
    refine iff_of_true ?_ refusesToo
    simp only [Agrees, direct, halves, and_self]
  · rcases fallback_moved lawful charSigned fd refusesToo with
      ⟨other, halves, _⟩
    rw [if_neg (by omega)] at halves
    refine iff_of_false ?_ refusesToo
    simp only [Agrees, direct, halves]
    rintro ⟨_, sameErrno, _⟩
    have different : EOVERFLOW ≠ EINVAL := by decide
    exact absurd sameErrno different

/-- Backwards, the fallback fails where the other call moves. -/
theorem not_agrees_moved
    (moves : ¬ kernel.Refuses
      (kernel.wanted whence offset.toInt process.kernel)) :
    ¬ Agrees kernel ⟨.ilp32, charSigned⟩ fd offset.toInt whence.value
      process := by
  have asked := wanted_unsigned kernel offset whence process.kernel
  rw [if_neg backward] at asked
  rcases native_moved lawful charSigned fd moves fits with
    ⟨next, direct, _⟩
  have nonnegative :
      0 ≤ kernel.wanted whence offset.toInt process.kernel :=
    Int.not_lt.mp fun negative => moves (Or.inl negative)
  simp only [Agrees, direct]
  rintro ⟨sameResult, _, _⟩
  by_cases refusesToo : kernel.Refuses
      (kernel.wanted whence offset.toNat process.kernel)
  · rw [fallback_refused lawful charSigned fd refusesToo] at sameResult
    simp only [refused] at sameResult
    omega
  · rcases fallback_moved lawful charSigned fd refusesToo with
      ⟨other, halves, _⟩
    rw [if_neg (by omega)] at halves
    rw [halves] at sameResult
    simp only [overflowed] at sameResult
    omega

end Backwards

end Fitting

end Calls

/--
For a position that fits, the fallback agrees with the call it stands for
exactly when the offset is not negative, or the kernel refuses both that
position and the one 4 GiB behind it.
-/
theorem agrees_iff
    {kernel : SeekKernel State} (lawful : kernel.Lawful) (charSigned : Bool)
    (fd : Int) (offset : BitVec 32) (whence : Whence)
    (process : Process State)
    (fits : kernel.wanted whence offset.toInt process.kernel < 2 ^ 31) :
    Agrees kernel ⟨.ilp32, charSigned⟩ fd offset.toInt whence.value
        process ↔
      0 ≤ offset.toInt ∨
        kernel.Refuses (kernel.wanted whence offset.toInt process.kernel) ∧
          kernel.Refuses
            (kernel.wanted whence offset.toInt process.kernel + 2 ^ 32) := by
  by_cases forward : 0 ≤ offset.toInt
  · exact iff_of_true (agrees_forward lawful charSigned fd fits forward)
      (Or.inl forward)
  · rw [or_iff_right forward]
    by_cases refuses : kernel.Refuses
        (kernel.wanted whence offset.toInt process.kernel)
    · rw [and_iff_right refuses]
      exact agrees_refused_iff lawful charSigned fd fits forward refuses
    · exact iff_of_false
        (not_agrees_moved lawful charSigned fd fits forward refuses)
        (fun both => refuses both.1)

/-- A file on a file system that takes positions of 63 bits. -/
structure SampleFile where
  position : Nat
  size : Nat
  deriving DecidableEq, Repr

/-- Both calls on such a file. -/
def sampleSeek : SeekKernel SampleFile where
  seek _ offset whence file :=
    let base : Int :=
      if whence = SEEK_SET then 0
      else if whence = SEEK_CUR then file.position
      else file.size
    if base + offset < 0 ∨ 2 ^ 63 - 1 < base + offset then
      (-EINVAL.toNat, file)
    else
      (base + offset, { file with position := (base + offset).toNat })
  position file := file.position
  size file := file.size
  limit := 2 ^ 63 - 1

theorem sampleSeek_eq (fd offset : Int) (whence : Whence)
    (file : SampleFile) :
    sampleSeek.seek fd offset whence.value file =
      if sampleSeek.Refuses (sampleSeek.wanted whence offset file) then
        ((-EINVAL.toNat : Int), file)
      else
        (sampleSeek.wanted whence offset file,
          { file with
            position := (sampleSeek.wanted whence offset file).toNat }) := by
  cases whence with
  | seekSet =>
      have base : (0 : Int) + offset = offset := Int.zero_add offset
      simp only [sampleSeek, Whence.value, SEEK_SET, if_true, base]
      rfl
  | seekCur => rfl
  | seekEnd => rfl

theorem sampleSeek_lawful : sampleSeek.Lawful where
  position_nonneg _ := Int.natCast_nonneg _
  size_nonneg _ := Int.natCast_nonneg _
  refuses fd offset whence file refuses := by
    rw [sampleSeek_eq, if_pos refuses]
  moves fd offset whence file moves := by
    rw [sampleSeek_eq, if_neg moves]
    exact ⟨_, rfl, Int.toNat_of_nonneg
      (Int.not_lt.mp fun negative => moves (Or.inl negative))⟩

/-- From 100, `lseek(fd, -1, SEEK_CUR)` fails, and the file is at 4 GiB. -/
theorem lseek_fallback_backwards :
    ¬ Agrees sampleSeek .arm 3 (-1) Whence.seekCur.value
        ⟨⟨100, 200⟩, 0⟩ := by
  decide

theorem agrees_iff_backwards :
    Agrees sampleSeek .arm 3 (-1 : BitVec 32).toInt Whence.seekCur.value
        ⟨⟨100, 200⟩, 0⟩ ↔
      0 ≤ (-1 : BitVec 32).toInt ∨
        sampleSeek.Refuses
            (sampleSeek.wanted .seekCur (-1 : BitVec 32).toInt
              ⟨100, 200⟩) ∧
          sampleSeek.Refuses
            (sampleSeek.wanted .seekCur (-1 : BitVec 32).toInt
              ⟨100, 200⟩ + 2 ^ 32) :=
  agrees_iff sampleSeek_lawful false 3 (-1 : BitVec 32) .seekCur
    ⟨⟨100, 200⟩, 0⟩ (by decide)

end Nolibc.Sys.Seek

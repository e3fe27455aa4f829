import Nolibc.Stdio.Fgets

/-!
# `fgets` at the end of a file

When `fgets` of `stdio.h` returns `NULL`, and what it has stored then.  The
result is decided by the number of bytes that were stored, and the NUL is
stored whatever the loop stopped at.

The results of the reads of a call are logged in the state of the kernel, which
changes nothing else, so that a `NULL` can be compared with what the call met.
-/

set_option autoImplicit false

namespace Nolibc.Stdio.Fgets

open Nolibc.Machine
open Nolibc.Foundation
open Nolibc.Sys

variable {State : Type}

/-! ## The reads of a call -/

/-- A kernel that logs what it returns. -/
def logged (calls : ReadCall State) : ReadCall (State × List Int) where
  call fd count state :=
    let answer := calls.call fd count state.1
    (answer.1, answer.2.1, answer.2.2, state.2 ++ [answer.1])
  counts fd count state := calls.counts fd count state.1

/-- A process without its log. -/
def withoutLog (process : Process (State × List Int)) : Process State :=
  ⟨process.kernel.1, process.errnum⟩

@[simp]
theorem withoutLog_mk (state : State) (log : List Int) (errnum : Errno) :
    withoutLog ⟨(state, log), errnum⟩ = ⟨state, errnum⟩ :=
  rfl

/-- What the reads of a call return, in order. -/
def readResults (calls : ReadCall State) (size stream : Int)
    (process : Process State) : List Int :=
  (fgets (logged calls) size stream
    ⟨(process.kernel, []), process.errnum⟩).process.kernel.2

/-- What a read of one byte returns. -/
def nextResult (calls : ReadCall State) (stream : Int)
    (process : Process State) : Int :=
  (calls.call (fileno stream process).1 1 process.kernel).1

section Logging

variable {calls : ReadCall State} {stream : Int}

theorem fileno_kernel (stream : Int) (process : Process State) :
    (fileno stream process).2.kernel = process.kernel := by
  unfold fileno
  split <;> rfl

/-- A byte, or `EOF` when the read returns nothing or an error. -/
theorem fgetc_eq (process : Process State) :
    fgetc calls stream process =
      (if nextResult calls stream process ≤ 0 then
          EOF
        else
          ((deref (calls.call (fileno stream process).1 1
            process.kernel).2.1).toNat : Int),
        ⟨(calls.call (fileno stream process).1 1 process.kernel).2.2,
          if nextResult calls stream process < 0 then
            BitVec.ofInt 32 (-nextResult calls stream process)
          else
            (fileno stream process).2.errnum⟩) := by
  rcases answer :
      calls.call (fileno stream process).1 1 process.kernel with
    ⟨ret, bytes, next⟩
  simp only [fgetc, read, fileno_kernel, nextResult, answer, sysret]
  by_cases failed : ret < 0
  · have nothing : ret ≤ 0 := Int.le_of_lt failed
    simp only [if_pos failed, if_pos nothing]
    rfl
  · simp only [if_neg failed]
    split_ifs <;> rfl

theorem fgetc_eq_EOF_iff (process : Process State) :
    (fgetc calls stream process).1 = EOF ↔
      nextResult calls stream process ≤ 0 := by
  have byte (byte : Byte) : ¬ (byte.toNat : Int) = EOF := by
    rw [EOF]
    omega
  rw [fgetc_eq]
  by_cases nothing : nextResult calls stream process ≤ 0
  · exact iff_of_true (if_pos nothing) nothing
  · refine iff_of_false ?_ nothing
    simp only [if_neg nothing]
    exact byte _

/-- The log changes nothing, and grows by what the read returns. -/
theorem fgetc_logged (process : Process (State × List Int)) :
    (fgetc (logged calls) stream process).1 =
        (fgetc calls stream (withoutLog process)).1 ∧
      withoutLog (fgetc (logged calls) stream process).2 =
        (fgetc calls stream (withoutLog process)).2 ∧
      (fgetc (logged calls) stream process).2.kernel.2 =
        process.kernel.2 ++
          [nextResult calls stream (withoutLog process)] := by
  have number :
      (fileno stream process).1 = (fileno stream (withoutLog process)).1 := by
    unfold fileno
    split <;> rfl
  have errnum :
      (fileno stream process).2.errnum =
        (fileno stream (withoutLog process)).2.errnum := by
    unfold fileno
    split <;> rfl
  rcases answer :
      calls.call (fileno stream (withoutLog process)).1 1
        (withoutLog process).kernel with
    ⟨ret, bytes, next⟩
  have loggedAnswer :
      (logged calls).call (fileno stream process).1 1 process.kernel =
        (ret, bytes, next, process.kernel.2 ++ [ret]) := by
    rw [number]
    exact congrArg
      (fun answer => (answer.1, answer.2.1, answer.2.2,
        process.kernel.2 ++ [answer.1])) answer
  rw [fgetc_eq, fgetc_eq]
  simp [nextResult, answer, loggedAnswer, errnum]

/-- The log changes nothing of the loop, and only grows. -/
theorem fgetsLoop_logged
    (room ofs : Nat) (stores : Stores)
    (process : Process (State × List Int)) :
    (fgetsLoop (logged calls) stream room ofs stores process).1 =
        (fgetsLoop calls stream room ofs stores (withoutLog process)).1 ∧
      (fgetsLoop (logged calls) stream room ofs stores process).2.1 =
        (fgetsLoop calls stream room ofs stores
          (withoutLog process)).2.1 ∧
      process.kernel.2 <+:
        (fgetsLoop (logged calls) stream room ofs stores
          process).2.2.kernel.2 := by
  induction room generalizing ofs stores process with
  | zero => exact ⟨rfl, rfl, List.prefix_rfl⟩
  | succ room induction =>
      rcases fgetc_logged process with
        ⟨same, onward, log⟩
      have grows :
          process.kernel.2 <+:
            (fgetc (logged calls) stream process).2.kernel.2 := by
        rw [log]
        exact List.prefix_append _ _
      simp only [fgetsLoop, same, ← onward]
      split_ifs with ended last
      · exact ⟨rfl, rfl, grows⟩
      · exact ⟨rfl, rfl, grows⟩
      · rcases induction (ofs + 1)
            (stores ++
              [(ofs, UInt8.ofInt
                (fgetc calls stream (withoutLog process)).1)])
            (fgetc (logged calls) stream process).2 with
          ⟨offset, stored, log⟩
        exact ⟨offset, stored, grows.trans log⟩

end Logging

/-! ## The ends of a call -/

/--
What is promised of a call with an array: it returns `NULL` only if the first
thing it met was the end of the file or an error, and at the end of the file
the array is left as it was.
-/
structure EndsAsPromised (calls : ReadCall State) (size stream : Int)
    (process : Process State) (s : Nat → Byte) : Prop where
  null_only :
    (fgets calls size stream process).nonnull = false →
      ∃ ret rest, readResults calls size stream process = ret :: rest ∧
        ret ≤ 0
  unchanged :
    ∀ rest, readResults calls size stream process = 0 :: rest →
      Memory.apply s (fgets calls size stream process).stores = s

section Ends

variable {calls : ReadCall State} {stream : Int}

variable (calls stream) in
/-- The loop never moves back. -/
theorem fgetsLoop_offset
    (room ofs : Nat) (stores : Stores) (process : Process State) :
    ofs ≤ (fgetsLoop calls stream room ofs stores process).1 := by
  induction room generalizing ofs stores process with
  | zero => exact Nat.le_refl ofs
  | succ room induction =>
      simp only [fgetsLoop]
      split_ifs with ended last
      · exact Nat.le_refl ofs
      · exact Nat.le_succ ofs
      · exact Nat.le_trans (Nat.le_succ ofs) (induction _ _ _)

/-- Without room for a byte nothing is read, and only the NUL is stored. -/
theorem fgets_one (process : Process State) (s : Nat → Byte) :
    ¬ EndsAsPromised calls 1 stream process s := by
  intro promised
  rcases promised.null_only rfl with ⟨ret, rest, impossible, nothing⟩
  cases impossible

variable {size : Int} (large : 2 ≤ size)

include large

/-- With room for a byte, the first thing a call does is to read one. -/
theorem readResults_eq (process : Process State) :
    ∃ rest, readResults calls size stream process =
      nextResult calls stream process :: rest := by
  have room : (size - 1).toNat = (size - 2).toNat + 1 := by omega
  rcases fgetc_logged ⟨(process.kernel, []), process.errnum⟩
    with ⟨-, -, log⟩
  have first :
      (fgetc (logged calls) stream
          ⟨(process.kernel, []), process.errnum⟩).2.kernel.2 =
        [nextResult calls stream process] := log
  simp only [readResults, fgets, room, fgetsLoop]
  split_ifs with ended last
  · exact ⟨[], first⟩
  · exact ⟨[], first⟩
  · rcases (fgetsLoop_logged (size - 2).toNat (0 + 1) _
          (fgetc (logged calls) stream
            ⟨(process.kernel, []), process.errnum⟩).2).2.2 with
      ⟨rest, grown⟩
    rw [first] at grown
    exact ⟨rest, grown.symm⟩

/-- A call returns `NULL` exactly if its first read returns nothing or an
error. -/
theorem fgets_null_iff (process : Process State) :
    (fgets calls size stream process).nonnull = false ↔
      nextResult calls stream process ≤ 0 := by
  have room : (size - 1).toNat = (size - 2).toNat + 1 := by omega
  rw [← fgetc_eq_EOF_iff]
  simp only [fgets, room, fgetsLoop]
  split_ifs with ended last
  · exact iff_of_true rfl ended
  · exact iff_of_false (by simp) ended
  · refine iff_of_false ?_ ended
    have forward := fgetsLoop_offset calls stream (size - 2).toNat (0 + 1)
      ([] ++ [(0, UInt8.ofInt (fgetc calls stream process).1)])
      (fgetc calls stream process).2
    rw [decide_eq_false_iff_not, not_not]
    omega

/-- It stores a NUL even then. -/
theorem fgets_stores_of_null
    {process : Process State} (nothing : nextResult calls stream process ≤ 0) :
    (fgets calls size stream process).stores = [(0, 0)] := by
  have room : (size - 1).toNat = (size - 2).toNat + 1 := by omega
  have inside : ((0 : Nat) : Int) < size := by omega
  have ended := fgetc_eq_EOF_iff process |>.mpr nothing
  simp only [fgets, room, fgetsLoop, if_pos ended, if_pos inside,
    List.nil_append]

end Ends

/--
With a size of at least 1, a call ends as promised exactly if its size is at
least 2 and its first read does not return 0, unless the array begins with a
NUL already.
-/
theorem endsAsPromised_iff
    (calls : ReadCall State) (stream : Int) (process : Process State)
    (s : Nat → Byte) {size : Int} (positive : 1 ≤ size) :
    EndsAsPromised calls size stream process s ↔
      2 ≤ size ∧ (nextResult calls stream process ≠ 0 ∨ s 0 = 0) := by
  rcases (by omega : size = 1 ∨ 2 ≤ size) with rfl | large
  · exact iff_of_false (fgets_one process s) (fun large => by omega)
  rcases readResults_eq large process with
    ⟨rest, results⟩
  constructor
  · intro promised
    refine ⟨large, or_iff_not_imp_left.mpr fun ended => ?_⟩
    rw [not_not] at ended
    have kept := promised.unchanged rest (by rw [results, ended])
    rw [fgets_stores_of_null large (Int.le_of_eq ended),
      Memory.apply_singleton] at kept
    rw [← kept, Function.update_self]
  · rintro ⟨-, harmless⟩
    refine ⟨fun null => ?_, fun others atEnd => ?_⟩
    · exact ⟨_, rest, results, (fgets_null_iff large process).mp null⟩
    · rw [results] at atEnd
      have ended := (List.cons.inj atEnd).1
      have empty : s 0 = 0 := harmless.resolve_left (not_not_intro ended)
      rw [fgets_stores_of_null large (Int.le_of_eq ended),
        Memory.apply_singleton, ← empty, Function.update_eq_self]

/-- Neither a call with a size of 1 on a file with bytes left, nor one that
finds an empty file, ends as promised. -/
theorem ends_otherwise :
    (fgets sampleFile 1 (-1) ⟨sampleBytes, 0⟩).nonnull = false ∧
      readResults sampleFile 1 (-1) ⟨sampleBytes, 0⟩ = [] ∧
      ¬ EndsAsPromised sampleFile 1 (-1) ⟨sampleBytes, 0⟩ (fun _ => 7) ∧
      readResults sampleFile 80 (-1) ⟨[], 0⟩ = [0] ∧
      (fgets sampleFile 80 (-1) ⟨[], 0⟩).stores = [(0, 0)] ∧
      ¬ EndsAsPromised sampleFile 80 (-1) ⟨[], 0⟩ (fun _ => 7) := by
  refine ⟨rfl, rfl, fgets_one _ _, rfl, rfl, fun promised => ?_⟩
  have kept := congrFun (promised.unchanged [] rfl) 0
  exact absurd kept (by decide)

/-- A call with room that finds a byte. -/
theorem endsAsPromised_iff_sample :
    EndsAsPromised sampleFile 2 (-1) ⟨sampleBytes, 0⟩ (fun _ => 7) ↔
      (2 : Int) ≤ 2 ∧
        (nextResult sampleFile (-1) ⟨sampleBytes, 0⟩ ≠ 0 ∨
          (7 : Byte) = 0) :=
  endsAsPromised_iff sampleFile (-1) ⟨sampleBytes, 0⟩ (fun _ => 7)
    (by decide)

end Nolibc.Stdio.Fgets

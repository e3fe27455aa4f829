import Nolibc.Foundation.Memory
import Nolibc.Sys

/-!
# Reading lines

`fgetc` and `fgets` of `stdio.h` read a descriptor byte by byte, over a kernel
that decides what each `read()` returns.

`Line` is what a call of `fgets` takes from a stream: no more than fits, and
nothing behind a newline.  When no read fails the calls take one line after
the other, and none of the bytes is lost: `fgets_reads_stream`.
-/

set_option autoImplicit false

namespace Nolibc.Stdio.Fgets

open Nolibc.Machine
open Nolibc.Foundation
open Nolibc.Sys

variable {State : Type}

/-! ## The functions -/

/--
A read from a descriptor of at most a number of bytes: what it returns, and
the bytes it stores.  A positive result is their number.
-/
structure ReadCall (State : Type) where
  call : (fd : Int) → (count : Nat) → State → Int × List Byte × State
  counts : ∀ fd count state, 0 < (call fd count state).1 →
    (call fd count state).1 = (call fd count state).2.1.length

/-- The `EOF` of `stdio.h`. -/
def EOF : Int := -1

section Code

variable (calls : ReadCall State)

/-- `read`, with the bytes that it stores. -/
def read (fd : Int) (count : Nat) (process : Process State) :
    Int × List Byte × Process State :=
  let (ret, bytes, state) := calls.call fd count process.kernel
  let (ret, process) := sysret ret { process with kernel := state }
  (ret, bytes, process)

/-- `fgetc`.  A read that does not fail has stored the byte. -/
def fgetc (stream : Int) (process : Process State) : Int × Process State :=
  let (fd, process) := fileno stream process
  let (ret, bytes, process) := read calls fd 1 process
  if ret ≤ 0 then
    (EOF, process)
  else
    ((deref bytes).toNat, process)

/-- Stores into the array of a caller, in order. -/
abbrev Stores := List (Nat × Byte)

/-- The loop of `fgets`, with room for some bytes left. -/
def fgetsLoop (stream : Int) :
    Nat → Nat → Stores → Process State → Nat × Stores × Process State
  | 0, ofs, stores, process => (ofs, stores, process)
  | left + 1, ofs, stores, process =>
      let (c, process) := fgetc calls stream process
      if c = EOF then
        (ofs, stores, process)
      else
        let stores := stores ++ [(ofs, UInt8.ofInt c)]
        if c = ('\n'.toNat : Int) then
          (ofs + 1, stores, process)
        else
          fgetsLoop stream left (ofs + 1) stores process

/-- What `fgets` returns, and what it stores. -/
structure Result (State : Type) where
  nonnull : Bool
  stores : Stores
  process : Process State

/-- `fgets`.  The loop has room while `ofs + 1 < size`. -/
def fgets (size : Int) (stream : Int) (process : Process State) :
    Result State :=
  let (ofs, stores, process) :=
    fgetsLoop calls stream (size - 1).toNat 0 [] process
  let stores := if ofs < size then stores ++ [(ofs, 0)] else stores
  ⟨ofs ≠ 0, stores, process⟩

end Code

/-! ## Streams -/

/--
The bytes that are left for a descriptor.  A read without an error takes some
from the front, and none only at the end.
-/
def Delivers (calls : ReadCall State) (fd : Int)
    (left : State → List Byte) : Prop :=
  ∀ count state, 0 < count → ∃ taken next,
    calls.call fd count state = (taken.length, taken, next) ∧
      left state = taken ++ left next ∧ taken.length ≤ count ∧
      (taken = [] → left state = [])

/-- A newline. -/
abbrev newline : Byte := '\n'.toUInt8

/-- What a call with room for some bytes takes from the front of a stream. -/
structure Line (room : Nat) (before text after : List Byte) : Prop where
  split : before = text ++ after
  fits : text.length ≤ room
  /-- A newline is the last byte. -/
  last : ∀ {front back}, text = front ++ newline :: back → back = []
  /-- A shorter text ends at a newline or at the end of the stream. -/
  stops : text.length < room →
    (∃ front, text = front ++ [newline]) ∨ after = []

namespace Line

variable {room : Nat} {before text after : List Byte}

theorem nil_left : Line room [] [] [] where
  split := rfl
  fits := Nat.zero_le _
  last := by simp
  stops _ := Or.inr rfl

theorem zero : Line 0 before [] before where
  split := rfl
  fits := Nat.le_refl 0
  last := by simp
  stops impossible := absurd impossible (Nat.lt_irrefl 0)

theorem newline_only :
    Line (room + 1) (newline :: after) [newline] after where
  split := rfl
  fits := by simp
  last := by
    intro front back split
    cases front with
    | nil => exact (List.cons.inj split).2.symm
    | cons first front => simp at split
  stops _ := Or.inl ⟨[], rfl⟩

theorem cons
    {byte : Byte} (ordinary : byte ≠ newline)
    (line : Line room before text after) :
    Line (room + 1) (byte :: before) (byte :: text) after where
  split := congrArg (byte :: ·) line.split
  fits := Nat.succ_le_succ line.fits
  last := by
    intro front back split
    cases front with
    | nil => exact absurd (List.cons.inj split).1 ordinary
    | cons first front => exact line.last (List.cons.inj split).2
  stops short := by
    rcases line.stops (Nat.lt_of_succ_lt_succ short) with
      ⟨front, ends⟩ | ended
    · exact Or.inl ⟨byte :: front, congrArg (byte :: ·) ends⟩
    · exact Or.inr ended

/-- With room for a byte, nothing is taken from the end only. -/
theorem nil_iff (line : Line (room + 1) before text after) :
    text = [] ↔ before = [] := by
  constructor
  · rintro rfl
    rcases line.stops (Nat.succ_pos _) with ⟨front, ends⟩ | rfl
    · simp at ends
    · exact line.split
  · rintro rfl
    exact (List.append_eq_nil_iff.mp line.split.symm).1

end Line

/-! ## Reading without errors -/

section Delivering

variable {calls : ReadCall State} {stream : Int} (valid : stream < 0)
  {left : State → List Byte} (delivers : Delivers calls (-stream - 1) left)

include valid delivers

/-- A byte is the next one of the stream, and `EOF` is its end. -/
theorem fgetc_delivers (process : Process State) :
    ∃ next,
      (left process.kernel = [] ∧ left next.kernel = [] ∧
        fgetc calls stream process = (EOF, next)) ∨
      ∃ byte, left process.kernel = byte :: left next.kernel ∧
        fgetc calls stream process = ((byte.toNat : Int), next) := by
  rcases delivers 1 process.kernel Nat.one_pos with
    ⟨taken, next, called, split, few, ended⟩
  have opened : fileno stream process = (-stream - 1, process) :=
    if_neg (Int.not_le.mpr valid)
  refine ⟨{ process with kernel := next }, ?_⟩
  cases taken with
  | nil =>
      have nothing := ended rfl
      rw [nothing] at split
      refine Or.inl ⟨nothing, split.symm, ?_⟩
      simp only [fgetc, opened, read, called]
      rfl
  | cons byte taken =>
      have single : taken = [] :=
        List.length_eq_zero_iff.mp (Nat.le_zero.mp (Nat.le_of_succ_le_succ few))
      subst single
      refine Or.inr ⟨byte, split, ?_⟩
      simp only [fgetc, opened, read, called]
      rfl

/-- The loop stores a line, from an offset on. -/
theorem fgetsLoop_line
    {size room ofs : Nat} (fits : ofs + room < size) (stores : Stores)
    (process : Process State) :
    ∃ text next, Line room (left process.kernel) text (left next.kernel) ∧
      fgetsLoop calls stream room ofs stores process =
        (ofs + text.length, stores ++ Memory.burst size ofs text, next) := by
  induction room generalizing ofs stores process with
  | zero =>
      exact ⟨[], process, Line.zero, by
        rw [fgetsLoop, Memory.burst, List.append_nil]
        rfl⟩
  | succ room induction =>
      rcases fgetc_delivers valid delivers process with
        ⟨next, ⟨atEnd, ended, got⟩ | ⟨byte, split, got⟩⟩
      · refine ⟨[], next, ?_, ?_⟩
        · rw [atEnd, ended]
          exact Line.nil_left
        · simp only [fgetsLoop, got, if_true, Memory.burst,
            List.append_nil]
          rfl
      · have notEnd : ¬ (byte.toNat : Int) = EOF := by
          rw [EOF]
          omega
        have stored : UInt8.ofInt byte.toNat = byte := by
          have same : ((byte.toNat : Int) % 2 ^ 8).toNat = byte.toNat := by
            have small := byte.toNat_lt
            omega
          rw [UInt8.ofInt, same, UInt8.ofNat_toNat]
        have place : ofs % size = ofs := Nat.mod_eq_of_lt (by omega)
        by_cases last : byte = newline
        · subst last
          refine ⟨[newline], next, ?_, ?_⟩
          · rw [split]
            exact Line.newline_only
          · simp only [fgetsLoop, got, if_neg notEnd, stored, Memory.burst,
              place]
            rfl
        · have goesOn : ¬ (byte.toNat : Int) = ('\n'.toNat : Int) := by
            intro equal
            exact last (UInt8.toNat_inj.mp (Int.ofNat.inj equal))
          rcases induction (by omega : ofs + 1 + room < size)
              (stores ++ [(ofs, byte)]) next with
            ⟨text, after, line, ran⟩
          refine ⟨byte :: text, after, ?_, ?_⟩
          · rw [split]
            exact Line.cons last line
          · simp only [fgetsLoop, got, if_neg notEnd, if_neg goesOn, stored,
              ran, Memory.burst, place]
            rw [List.append_assoc, List.length_cons, Nat.add_assoc,
              Nat.add_comm 1]
            rfl

/-- A call takes a line, and stores it with a NUL behind it. -/
theorem fgets_line
    {size : Int} (positive : 1 ≤ size) (process : Process State) :
    ∃ text,
      Line (size - 1).toNat (left process.kernel) text
          (left (fgets calls size stream process).process.kernel) ∧
        (fgets calls size stream process).stores =
          Memory.burst size.toNat 0 (text ++ [0]) ∧
        ((fgets calls size stream process).nonnull = true ↔ text ≠ []) := by
  have room : 0 + (size - 1).toNat < size.toNat := by omega
  rcases fgetsLoop_line valid delivers room [] process with
    ⟨text, next, line, ran⟩
  have short := line.fits
  have inside : (text.length : Int) < size := by omega
  have place : text.length % size.toNat = text.length :=
    Nat.mod_eq_of_lt (by omega)
  refine ⟨text, ?_⟩
  simp only [fgets, ran, Nat.zero_add, List.nil_append, if_pos inside]
  refine ⟨line, ?_, ?_⟩
  · rw [Memory.burst_append, Nat.zero_add]
    simp only [Memory.burst, place]
  · simp [List.length_eq_zero_iff]

end Delivering

/-! ## Calls in sequence -/

/-- The bytes that a call stores in front of the NUL. -/
def textOf (result : Result State) : List Byte :=
  result.stores.dropLast.map Prod.snd

theorem textOf_of_stores
    {result : Result State} {modulus start : Nat} {text : List Byte}
    (stores : result.stores = Memory.burst modulus start (text ++ [0])) :
    textOf result = text := by
  rw [textOf, stores, List.map_dropLast, Memory.burst_values,
    List.dropLast_concat]

/--
Calls with some sizes up to the first `NULL`: the bytes they store, and whether
there was a `NULL`.
-/
def fgetsAll (calls : ReadCall State) (stream : Int) :
    List Int → Process State → List Byte × Bool
  | [], _ => ([], false)
  | size :: sizes, process =>
      let result := fgets calls size stream process
      if result.nonnull then
        let (text, ended) := fgetsAll calls stream sizes result.process
        (textOf result ++ text, ended)
      else
        (textOf result, true)

section Sequence

variable {calls : ReadCall State} {stream : Int} (valid : stream < 0)
  {left : State → List Byte} (delivers : Delivers calls (-stream - 1) left)

include valid delivers

/-- The calls take the bytes of the stream, and all of them before a `NULL`. -/
theorem fgetsAll_reads
    {sizes : List Int} (large : ∀ size ∈ sizes, 2 ≤ size)
    (process : Process State) :
    (fgetsAll calls stream sizes process).1 <+: left process.kernel ∧
      ((fgetsAll calls stream sizes process).2 = true →
        (fgetsAll calls stream sizes process).1 = left process.kernel) ∧
      ((left process.kernel).length < sizes.length →
        (fgetsAll calls stream sizes process).2 = true) := by
  induction sizes generalizing process with
  | nil =>
      exact ⟨List.nil_prefix,
        fun impossible => absurd impossible Bool.false_ne_true,
        fun impossible => absurd impossible (Nat.not_lt_zero _)⟩
  | cons size sizes induction =>
      have here := large size List.mem_cons_self
      rcases fgets_line valid delivers (by omega : 1 ≤ size) process with
        ⟨text, line, stores, nonnull⟩
      have taken := textOf_of_stores stores
      have room : (size - 1).toNat = (size - 2).toNat + 1 := by omega
      rw [room] at line
      by_cases empty : text = []
      · have null : ¬ (fgets calls size stream process).nonnull = true :=
          fun impossible => nonnull.mp impossible empty
        have nothing := line.nil_iff.mp empty
        simp only [fgetsAll, if_neg null, taken, empty, nothing]
        simp
      · rcases induction
            (fun other member => large other (List.mem_cons_of_mem _ member))
            (fgets calls size stream process).process with
          ⟨isPrefix, whole, ends⟩
        have long : 0 < text.length := List.length_pos_of_ne_nil empty
        simp only [fgetsAll, if_pos (nonnull.mpr empty), taken, line.split]
        refine ⟨(List.prefix_append_right_inj text).mpr isPrefix, ?_, ?_⟩
        · intro ended
          rw [whole ended]
        · intro enough
          rw [List.length_append, List.length_cons] at enough
          exact ends (by omega)

end Sequence

/--
Where no read fails, every call stores a line of the stream and a NUL inside
its size, and returns `NULL` only at the end; and the calls up to the first
`NULL` store the stream, of which they come to the end.
-/
theorem fgets_reads_stream
    (calls : ReadCall State) (stream : Int) (valid : stream < 0)
    (left : State → List Byte) (delivers : Delivers calls (-stream - 1) left)
    (process : Process State) :
    (∀ size : Int, 2 ≤ size → ∃ text,
      (fgets calls size stream process).stores =
          Memory.burst size.toNat 0 (text ++ [0]) ∧
        (∀ s : Nat → Byte,
          Memory.block
              (Memory.apply s (fgets calls size stream process).stores)
              0 (text.length + 1) =
            text ++ [0]) ∧
        (∀ store ∈ (fgets calls size stream process).stores,
          (store.1 : Int) < size) ∧
        Line (size - 1).toNat (left process.kernel) text
          (left (fgets calls size stream process).process.kernel) ∧
        ((fgets calls size stream process).nonnull = true ↔ text ≠ []) ∧
        ((fgets calls size stream process).nonnull = false →
          left process.kernel = [])) ∧
    ∀ sizes : List Int, (∀ size ∈ sizes, 2 ≤ size) →
      (fgetsAll calls stream sizes process).1 <+: left process.kernel ∧
        ((fgetsAll calls stream sizes process).2 = true →
          (fgetsAll calls stream sizes process).1 = left process.kernel) ∧
        ((left process.kernel).length < sizes.length →
          (fgetsAll calls stream sizes process).2 = true) := by
  constructor
  · intro size large
    rcases fgets_line valid delivers (by omega : 1 ≤ size) process with
      ⟨text, line, stores, nonnull⟩
    have short := line.fits
    have length : (text ++ [0] : List Byte).length = text.length + 1 := by
      rw [List.length_append, List.length_singleton]
    have fits : 0 + (text ++ [0] : List Byte).length ≤ size.toNat := by
      omega
    refine ⟨text, stores, ?_, ?_, line, nonnull, ?_⟩
    · intro s
      rw [stores, ← length]
      exact Memory.block_apply_burst s _ _ _ fits
    · intro store member
      rw [stores] at member
      have inside := Memory.burst_inside fits member
      omega
    · intro null
      have empty : text = [] := by
        rw [null] at nonnull
        exact not_not.mp (nonnull.not.mp Bool.false_ne_true)
      rw [(by omega : (size - 1).toNat = (size - 2).toNat + 1)] at line
      exact line.nil_iff.mp empty
  · intro sizes large
    exact fgetsAll_reads valid delivers large process

/-- A file with some bytes left. -/
def sampleFile : ReadCall (List Byte) where
  call _ count bytes :=
    ((bytes.take count).length, bytes.take count, bytes.drop count)
  counts _ _ _ _ := rfl

theorem sampleFile_delivers (fd : Int) : Delivers sampleFile fd id := by
  intro count bytes positive
  refine ⟨bytes.take count, bytes.drop count, rfl,
    (List.take_append_drop count bytes).symm, List.length_take_le _ _, ?_⟩
  intro nothing
  rcases List.take_eq_nil_iff.mp nothing with zero | empty
  · omega
  · exact empty

/-- The bytes of a file with a NUL, a newline and a byte that is all ones. -/
def sampleBytes : List Byte :=
  [0, 10, 0xFF]

theorem fgets_reads_stream_sample :
    (∀ size : Int, 2 ≤ size → ∃ text,
      (fgets sampleFile size (-4) ⟨sampleBytes, 0⟩).stores =
          Memory.burst size.toNat 0 (text ++ [0]) ∧
        (∀ s : Nat → Byte,
          Memory.block
              (Memory.apply s
                (fgets sampleFile size (-4) ⟨sampleBytes, 0⟩).stores)
              0 (text.length + 1) =
            text ++ [0]) ∧
        (∀ store ∈ (fgets sampleFile size (-4) ⟨sampleBytes, 0⟩).stores,
          (store.1 : Int) < size) ∧
        Line (size - 1).toNat sampleBytes text
          (fgets sampleFile size (-4) ⟨sampleBytes, 0⟩).process.kernel ∧
        ((fgets sampleFile size (-4) ⟨sampleBytes, 0⟩).nonnull = true ↔
          text ≠ []) ∧
        ((fgets sampleFile size (-4) ⟨sampleBytes, 0⟩).nonnull = false →
          sampleBytes = [])) ∧
    ∀ sizes : List Int, (∀ size ∈ sizes, 2 ≤ size) →
      (fgetsAll sampleFile (-4) sizes ⟨sampleBytes, 0⟩).1 <+: sampleBytes ∧
        ((fgetsAll sampleFile (-4) sizes ⟨sampleBytes, 0⟩).2 = true →
          (fgetsAll sampleFile (-4) sizes ⟨sampleBytes, 0⟩).1 =
            sampleBytes) ∧
        (sampleBytes.length < sizes.length →
          (fgetsAll sampleFile (-4) sizes ⟨sampleBytes, 0⟩).2 = true) :=
  fgets_reads_stream sampleFile (-4) (by decide) id (sampleFile_delivers 3)
    ⟨sampleBytes, 0⟩

end Nolibc.Stdio.Fgets

import Nolibc.Foundation.Loop
import Nolibc.Foundation.Memory
import Nolibc.Machine
import Nolibc.Strings

/-!
# Copying strings

`strlcpy`, `strnlen` and `strlcat` of `string.h`.  What a function does to its
destination is the list of its stores, at indices from the destination on, so
that a store past the size given would show.  `strlcat` reads its destination
before it stores anything.

A string copied or appended is cut where the destination ends: `strlcpy_holds`
and `strlcat_holds` say what string is there then.
-/

set_option autoImplicit false

namespace Nolibc.Strings.Copy

open Nolibc.Machine
open Nolibc.Foundation
open Nolibc.Strings

/-- Stores into a destination, in order. -/
abbrev Stores := List (Nat × Byte)

/-- `while (src[len]) len++;` -/
def lengthFrom (src : CString) (len : Nat) : Except Fault Nat :=
  Loop.run Fault.diverged
    (fun len => do
      let c ← src.read len
      if c ≠ 0 then pure (.inl (len + 1)) else pure (.inr len))
    (src.length + 1) len

/-- The `for` loop of `strlcpy`, and what follows it. -/
def strlcpyTurn (src : CString) (size : Nat) :
    Nat × Stores → Except Fault ((Nat × Stores) ⊕ (Nat × Stores))
  | (len, stores) => do
      if len < size then
        let c ← src.read len
        let stores := stores ++ [(len, c)]
        if c = 0 then
          pure (.inr (len, stores))
        else
          pure (.inl (len + 1, stores))
      else
        let stores := if size ≠ 0 then stores ++ [(size - 1, 0)] else stores
        let len ← lengthFrom src len
        pure (.inr (len, stores))

/-- `strlcpy`: its result, and its stores into `dst`. -/
def strlcpy (src : CString) (size : Nat) : Except Fault (Nat × Stores) :=
  Loop.run Fault.diverged (strlcpyTurn src size) (size + 1) (0, [])

/-- `strnlen` of a buffer. -/
def strnlen (str : Nat → Byte) (maxlen : Nat) : Except Fault Nat :=
  Loop.run Fault.diverged
    (fun len =>
      if len < maxlen ∧ str len ≠ 0 then
        pure (.inl (len + 1))
      else
        pure (.inr len))
    (maxlen + 1) 0

section Code

variable (target : Target)

/-- `len + 1`, a `size_t`. -/
def lenSucc (len : Nat) : Nat :=
  (len + 1) % 2 ^ target.longBits

/-- The first loop of `strlcat`; `offset` is how far `src` has moved. -/
def strlcatTurn (src : CString) (size : Nat) :
    Nat × Nat × Stores →
      Except Fault ((Nat × Nat × Stores) ⊕ (Nat × Nat × Stores))
  | (len, offset, stores) => do
      if lenSucc target len < size then
        let c ← src.read offset
        let stores := stores ++ [(len, c)]
        if c = 0 then
          pure (.inr (len, offset, stores))
        else
          pure (.inl (lenSucc target len, offset + 1, stores))
      else
        pure (.inr (len, offset, stores))

/-- `while (*src++) len++;` -/
def countTurn (src : CString) :
    Nat × Nat → Except Fault ((Nat × Nat) ⊕ Nat)
  | (len, offset) => do
      let c ← src.read offset
      if c ≠ 0 then
        pure (.inl (lenSucc target len, offset + 1))
      else
        pure (.inr len)

/-- `strlcat`: its result, and its stores into `dst`. -/
def strlcat (dst : Nat → Byte) (src : CString) (size : Nat) :
    Except Fault (Nat × Stores) := do
  let len ← strnlen dst size
  let (len, offset, stores) ← Loop.run Fault.diverged
    (strlcatTurn target src size) (src.length + 1) (len, 0, [])
  let stores := if len < size then stores ++ [(len, 0)] else stores
  let len ← Loop.run Fault.diverged (countTurn target src)
    (src.length + 1) (len, offset)
  pure (len, stores)

end Code

/-! ## `strlcpy` -/

section Copying

variable {src : CString} {size : Nat}

theorem burst_concat
    {front : List Byte} {start : Nat}
    (inside : start + front.length < size) (c : Byte) :
    Memory.burst size start (front ++ [c]) =
      Memory.burst size start front ++ [(start + front.length, c)] := by
  rw [Memory.burst_append]
  simp only [Memory.burst, Nat.mod_eq_of_lt inside]

/-- Counting on from inside a string ends at its NUL. -/
theorem lengthFrom_eq
    {front rest : List Byte} (split : src.bytes = front ++ rest) :
    lengthFrom src front.length = .ok src.length := by
  have total : src.length = front.length + rest.length := by
    rw [CString.length, split, List.length_append]
  refine Loop.run_scan rest (fun more _ => front.length + more.length) ?_ ?_
    (by omega)
  · intro more left c inner
    have place : src.bytes = (front ++ more) ++ c :: left := by
      rw [split, inner, List.append_assoc]
    have read := CString.read_append place
    rw [List.length_append] at read
    have nonzero : c ≠ 0 := CString.ne_zero_of_split place
    simp only [read, deref_cons, bind, Except.bind, pure, Except.pure,
      if_pos nonzero, List.length_append, List.length_singleton,
      Nat.add_assoc]
  · have place : src.bytes = (front ++ rest) ++ [] := by
      rw [split, List.append_nil]
    have read := CString.read_append place
    rw [List.length_append] at read
    simp [read, bind, Except.bind, pure, Except.pure, total]

/-- A turn that copies a byte. -/
theorem strlcpyTurn_advance
    {front rest : List Byte} {c : Byte}
    (split : src.bytes = front ++ c :: rest) (inside : front.length < size) :
    strlcpyTurn src size (front.length, Memory.burst size 0 front) =
      .ok (.inl ((front ++ [c]).length,
        Memory.burst size 0 (front ++ [c]))) := by
  have nonzero : c ≠ 0 := CString.ne_zero_of_split split
  rw [burst_concat (by rwa [Nat.zero_add]), Nat.zero_add, List.length_append,
    List.length_singleton]
  simp only [strlcpyTurn, if_pos inside, CString.read_append split,
    deref_cons, if_neg nonzero, bind, Except.bind, pure, Except.pure]

/-- A string that fits is stored whole, with its NUL. -/
theorem strlcpy_fits (fits : src.length < size) :
    strlcpy src size =
      .ok (src.length, Memory.burst size 0 (src.bytes ++ [0])) := by
  have advance {front rest : List Byte} {c : Byte}
      (split : src.bytes = front ++ c :: rest) :
      strlcpyTurn src size (front.length, Memory.burst size 0 front) =
        .ok (.inl ((front ++ [c]).length,
          Memory.burst size 0 (front ++ [c]))) := by
    apply strlcpyTurn_advance split
    have total : src.length = (front ++ c :: rest).length :=
      congrArg List.length split
    rw [List.length_append] at total
    omega
  have leave : strlcpyTurn src size
      (src.bytes.length, Memory.burst size 0 src.bytes) =
        .ok (.inr (src.length, Memory.burst size 0 (src.bytes ++ [0]))) := by
    have stop : src.read src.bytes.length = .ok 0 :=
      CString.read_append (List.append_nil src.bytes).symm
    have inside : src.bytes.length < size := fits
    rw [burst_concat (by rwa [Nat.zero_add]), Nat.zero_add]
    simp only [strlcpyTurn, if_pos inside, stop, bind, Except.bind, if_true,
      pure, Except.pure]
    rfl
  exact Loop.run_scan _
    (fun front _ => (front.length, Memory.burst size 0 front)) advance leave
    (Nat.lt_succ_of_lt fits)

/-- Of a longer string, a part of the size is stored, and a NUL at its end. -/
theorem strlcpy_cuts (positive : size ≠ 0) (long : size ≤ src.length) :
    strlcpy src size =
      .ok (src.length,
        Memory.burst size 0 (src.bytes.take size) ++ [(size - 1, 0)]) := by
  have taken : (src.bytes.take size).length = size :=
    List.length_take_of_le long
  have whole := (List.take_append_drop size src.bytes).symm
  have advance {front rest : List Byte} {c : Byte}
      (split : src.bytes.take size = front ++ c :: rest) :
      strlcpyTurn src size (front.length, Memory.burst size 0 front) =
        .ok (.inl ((front ++ [c]).length,
          Memory.burst size 0 (front ++ [c]))) := by
    have inside : front.length < size := by
      rw [← taken, split, List.length_append, List.length_cons]
      omega
    rw [split, List.append_assoc, List.cons_append] at whole
    exact strlcpyTurn_advance whole inside
  have leave : strlcpyTurn src size
      ((src.bytes.take size).length,
        Memory.burst size 0 (src.bytes.take size)) =
        .ok (.inr (src.length,
          Memory.burst size 0 (src.bytes.take size) ++
            [(size - 1, 0)])) := by
    have counted := lengthFrom_eq whole
    rw [taken] at counted ⊢
    simp only [strlcpyTurn, if_neg (Nat.lt_irrefl size), if_pos positive,
      counted, bind, Except.bind, pure, Except.pure]
  exact Loop.run_scan _
    (fun front _ => (front.length, Memory.burst size 0 front)) advance leave
    (by omega)

variable (src size) in
/-- A copy leaves as much of the string as fits, and stores nowhere else. -/
theorem strlcpy_holds (positive : size ≠ 0) (dst : Nat → Byte) :
    ∃ stores, strlcpy src size = .ok (src.length, stores) ∧
      HoldsString (Memory.apply dst stores) (src.take (size - 1)) ∧
      ∀ store ∈ stores, store.1 < size := by
  have held := holdsString_cut dst src positive (Nat.le_refl size)
  have length : src.length = src.bytes.length := rfl
  by_cases fits : src.length < size
  · have whole : (src.bytes ++ [0]).length = src.length + 1 := by
      rw [List.length_append, List.length_singleton, length]
    rw [List.take_of_length_le (by omega : src.bytes.length ≤ size),
      Nat.min_eq_left (by omega)] at held
    refine ⟨_, strlcpy_fits fits, ?_, ?_⟩
    · rw [burst_concat (by omega), Nat.zero_add]
      exact held
    · intro store member
      have inside := Memory.burst_inside (by omega) member
      omega
  · have taken : (src.bytes.take size).length = size :=
      List.length_take_of_le (by omega)
    rw [Nat.min_eq_right (by omega)] at held
    refine ⟨_, strlcpy_cuts positive (by omega), held, ?_⟩
    intro store member
    rcases List.mem_append.mp member with copied | last
    · have inside := Memory.burst_inside (by omega) copied
      omega
    · rw [List.mem_singleton.mp last]
      exact Nat.sub_one_lt positive

/-- A copy into nothing only counts. -/
theorem strlcpy_zero : strlcpy src 0 = .ok (src.length, []) := by
  have counted := lengthFrom_eq (List.nil_append src.bytes).symm
  apply Loop.run_exit
  rw [List.length_nil] at counted
  simp only [strlcpyTurn, if_neg (Nat.lt_irrefl 0), counted, ne_eq,
    not_true_eq_false, if_false, bind, Except.bind, pure, Except.pure]

end Copying

/-! ## `strlcat` -/

/-- The length is that up to the first NUL, or to the end of the buffer. -/
theorem strnlen_of_stop
    {str : Nat → Byte} {maxlen len : Nat} (within : len ≤ maxlen)
    (nonzero : ∀ index, index < len → str index ≠ 0)
    (stops : ¬ (len < maxlen ∧ str len ≠ 0)) :
    strnlen str maxlen = .ok len := by
  have length : (List.range len).length = len := List.length_range
  refine Loop.run_scan (List.range len) (fun front _ => front.length) ?_ ?_
    (by omega)
  · intro front rest index split
    have inside : front.length < len := by
      rw [← length, split, List.length_append, List.length_cons]
      omega
    have both : front.length < maxlen ∧ str front.length ≠ 0 :=
      ⟨Nat.lt_of_lt_of_le inside within, nonzero _ inside⟩
    rw [if_pos both, List.length_append, List.length_singleton]
    rfl
  · rw [length, if_neg stops]
    rfl

/-- In a buffer with a string that fits, the NUL is found. -/
theorem strnlen_eq
    {str : Nat → Byte} {string : CString} (holds : HoldsString str string)
    {maxlen : Nat} (fits : string.length < maxlen) :
    strnlen str maxlen = .ok string.length :=
  strnlen_of_stop (Nat.le_of_lt fits) (fun _ => holds.ne_zero)
    fun both => both.2 holds.2

section Appending

variable {target : Target} {src : CString} {len : Nat}
  (total : len + src.length + 1 < 2 ^ target.longBits)

include total

/-- Counting what is left of the source. -/
theorem count_eq
    {front rest : List Byte} (split : src.bytes = front ++ rest) :
    Loop.run Fault.diverged (countTurn target src) (src.length + 1)
        (len + front.length, front.length) =
      .ok (len + src.length) := by
  have length : src.length = front.length + rest.length := by
    rw [CString.length, split, List.length_append]
  refine Loop.run_scan rest
    (fun more _ =>
      (len + front.length + more.length, front.length + more.length))
    ?_ ?_ (by omega)
  · intro more left c inner
    have place : src.bytes = (front ++ more) ++ c :: left := by
      rw [split, inner, List.append_assoc]
    have read := CString.read_append place
    have inside : rest.length = more.length + (left.length + 1) := by
      rw [inner, List.length_append, List.length_cons]
    rw [List.length_append] at read
    have nonzero : c ≠ 0 := CString.ne_zero_of_split place
    have next : lenSucc target (len + front.length + more.length) =
        len + front.length + (more.length + 1) :=
      Nat.mod_eq_of_lt (by omega)
    rw [List.length_append, List.length_singleton]
    simp only [countTurn, read, deref_cons, bind, Except.bind, pure,
      Except.pure, if_pos nonzero, next]
    rfl
  · have place : src.bytes = (front ++ rest) ++ [] := by
      rw [split, List.append_nil]
    have read := CString.read_append place
    rw [List.length_append] at read
    simp [countTurn, read, bind, Except.bind, pure, Except.pure, length,
      Nat.add_assoc]

variable {size : Nat}

/-- A turn that appends a byte. -/
theorem strlcatTurn_advance
    {front rest : List Byte} {c : Byte}
    (split : src.bytes = front ++ c :: rest)
    (inside : len + (front.length + 1) < size) :
    strlcatTurn target src size
        (len + front.length, front.length, Memory.burst size len front) =
      .ok (.inl (len + (front ++ [c]).length, (front ++ [c]).length,
        Memory.burst size len (front ++ [c]))) := by
  have nonzero : c ≠ 0 := CString.ne_zero_of_split split
  have length : src.length = front.length + (rest.length + 1) := by
    rw [CString.length, split, List.length_append, List.length_cons]
  have next : lenSucc target (len + front.length) =
      len + (front.length + 1) := Nat.mod_eq_of_lt (by omega)
  rw [burst_concat (by omega), List.length_append, List.length_singleton]
  simp only [strlcatTurn, next, if_pos inside, CString.read_append split,
    deref_cons, if_neg nonzero, bind, Except.bind, pure, Except.pure]

/-- The loop when the source fits: it copies the NUL too. -/
theorem strlcat_loop_fits (fits : len + src.length + 1 < size) :
    Loop.run Fault.diverged (strlcatTurn target src size) (src.length + 1)
        (len, 0, []) =
      .ok (len + src.length, src.length,
        Memory.burst size len src.bytes ++ [(len + src.length, 0)]) := by
  have length : src.length = src.bytes.length := rfl
  refine Loop.run_scan src.bytes
    (fun front _ =>
      (len + front.length, front.length, Memory.burst size len front))
    ?_ ?_ (by omega)
  · intro front rest c split
    apply strlcatTurn_advance total split
    rw [length, split, List.length_append, List.length_cons] at fits
    omega
  · have stop : src.read src.bytes.length = .ok 0 :=
      CString.read_append (List.append_nil src.bytes).symm
    have inside : lenSucc target (len + src.bytes.length) < size := by
      rw [lenSucc, Nat.mod_eq_of_lt (by omega)]
      omega
    simp only [strlcatTurn, if_pos inside, stop, if_true, bind, Except.bind,
      pure, Except.pure]
    rfl

/-- The loop when the source does not fit: one byte is left. -/
theorem strlcat_loop_cuts
    (range : size < 2 ^ target.longBits) (room : len < size)
    (long : size ≤ len + src.length + 1) :
    Loop.run Fault.diverged (strlcatTurn target src size) (src.length + 1)
        (len, 0, []) =
      .ok (size - 1, size - 1 - len,
        Memory.burst size len (src.bytes.take (size - 1 - len))) := by
  have length : src.length = src.bytes.length := rfl
  have taken : (src.bytes.take (size - 1 - len)).length = size - 1 - len :=
    List.length_take_of_le (by omega)
  refine Loop.run_scan (src.bytes.take (size - 1 - len))
    (fun front _ =>
      (len + front.length, front.length, Memory.burst size len front))
    ?_ ?_ (by omega)
  · intro front rest c split
    have whole := (List.take_append_drop (size - 1 - len) src.bytes).symm
    rw [split, List.append_assoc, List.cons_append] at whole
    apply strlcatTurn_advance total whole
    rw [split, List.length_append, List.length_cons] at taken
    omega
  · have last : len + (size - 1 - len) = size - 1 := by omega
    have outside : ¬ lenSucc target (size - 1) < size := by
      rw [lenSucc, Nat.mod_eq_of_lt (by omega)]
      omega
    rw [taken, last]
    simp only [strlcatTurn, if_neg outside]
    rfl

section Started

variable {dst : Nat → Byte} (started : strnlen dst size = .ok len)

include started

/-- A source that fits is stored with its NUL, and that once more. -/
theorem strlcat_fits (fits : len + src.length + 1 < size) :
    strlcat target dst src size =
      .ok (len + src.length,
        Memory.burst size len src.bytes ++ [(len + src.length, 0)] ++
          [(len + src.length, 0)]) := by
  have counted := count_eq total (List.append_nil src.bytes).symm
  have length : src.bytes.length = src.length := rfl
  rw [length] at counted
  simp only [strlcat, started, strlcat_loop_fits total fits, counted,
    if_pos (by omega : len + src.length < size), bind, Except.bind, pure,
    Except.pure]

/-- Of a longer source a part is stored, and a NUL at the end of the size. -/
theorem strlcat_cuts
    (range : size < 2 ^ target.longBits) (room : len < size)
    (long : size ≤ len + src.length + 1) :
    strlcat target dst src size =
      .ok (len + src.length,
        Memory.burst size len (src.bytes.take (size - 1 - len)) ++
          [(size - 1, 0)]) := by
  have length : src.bytes.length = src.length := rfl
  have taken : (src.bytes.take (size - 1 - len)).length = size - 1 - len :=
    List.length_take_of_le (by omega)
  have last : len + (size - 1 - len) = size - 1 := by omega
  have counted := count_eq total
    (List.take_append_drop (size - 1 - len) src.bytes).symm
  rw [taken, last] at counted
  simp only [strlcat, started, strlcat_loop_cuts total range room long,
    counted, if_pos (by omega : size - 1 < size), bind, Except.bind, pure,
    Except.pure]

end Started

variable (target src) in
/--
Appending leaves as much of the source as fits behind the string, and stores
nowhere else.
-/
theorem strlcat_holds
    {dst : Nat → Byte} {string : CString} (holds : HoldsString dst string)
    (here : string.length = len) (range : size < 2 ^ target.longBits)
    (room : len < size) :
    ∃ stores, strlcat target dst src size =
        .ok (len + src.length, stores) ∧
      HoldsString (Memory.apply dst stores)
        (string.append (src.take (size - 1 - len))) ∧
      ∀ store ∈ stores, len ≤ store.1 ∧ store.1 < size := by
  subst here
  have length : src.length = src.bytes.length := rfl
  have started := strnlen_eq holds room
  by_cases fits : string.length + src.length + 1 < size
  · have whole : src.take (size - 1 - string.length) = src :=
      CString.ext (List.take_of_length_le (by omega))
    have stored := holdsString_append dst size _ src holds.1 (by omega)
    rw [← Memory.apply_overwritten dst _ _ 0 0] at stored
    rw [whole]
    refine ⟨_, strlcat_fits total started fits, stored, ?_⟩
    intro store member
    rw [List.append_assoc] at member
    rcases List.mem_append.mp member with copied | behind
    · have inside := Memory.burst_inside (by omega) copied
      omega
    · have nul : store = (string.length + src.length, 0) := by
        simpa using behind
      rw [nul]
      omega
  · have taken : (src.bytes.take (size - 1 - string.length)).length =
        size - 1 - string.length := List.length_take_of_le (by omega)
    have last : string.length + (size - 1 - string.length) = size - 1 := by
      omega
    have stored := holdsString_append dst size _
      (src.take (size - 1 - string.length)) holds.1 (by
        rw [CString.take_length]
        omega)
    rw [CString.take_length, Nat.min_eq_left (by omega), last,
      CString.take_bytes] at stored
    refine ⟨_, strlcat_cuts total started range room (by omega), stored, ?_⟩
    intro store member
    rcases List.mem_append.mp member with copied | behind
    · have inside := Memory.burst_inside (by omega) copied
      omega
    · rw [List.mem_singleton.mp behind]
      omega

/-- Behind a buffer that is not terminated nothing is appended. -/
theorem strlcat_full
    {dst : Nat → Byte} (here : size = len)
    (unterminated : ∀ index, index < size → dst index ≠ 0) :
    strlcat target dst src size = .ok (len + src.length, []) := by
  subst here
  have started := strnlen_of_stop (Nat.le_refl size) unterminated
    fun both => Nat.lt_irrefl size both.1
  have counted := count_eq total (List.nil_append src.bytes).symm
  have outside : ¬ lenSucc target size < size := by
    rw [lenSucc, Nat.mod_eq_of_lt (by omega)]
    omega
  have skipped : Loop.run Fault.diverged (strlcatTurn target src size)
      (src.length + 1) (size, 0, []) = .ok (size, 0, []) := by
    apply Loop.run_exit
    simp only [strlcatTurn, if_neg outside]
    rfl
  simp only [List.length_nil, Nat.add_zero] at counted
  simp only [strlcat, started, skipped, counted,
    if_neg (Nat.lt_irrefl size), bind, Except.bind, pure, Except.pure]

end Appending

end Nolibc.Strings.Copy

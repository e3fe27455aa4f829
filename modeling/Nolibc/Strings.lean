import Nolibc.Foundation.Memory
import Nolibc.Machine

/-!
# Strings in memory

A buffer holds a string when the bytes of the string are at its beginning and
a NUL is behind them.  The functions that fill a buffer end with the store of
a NUL; `holdsString_append` and `holdsString_cut` say what is there then.
-/

set_option autoImplicit false

namespace Nolibc.Strings

open Nolibc.Machine
open Nolibc.Foundation

/-- A buffer holds a string and its NUL. -/
def HoldsString (buf : Nat → Byte) (string : CString) : Prop :=
  Memory.block buf 0 string.length = string.bytes ∧ buf string.length = 0

/-- Cutting a first string and then what room is left for a second. -/
theorem append_take_take (first second : CString) (count : Nat) :
    (first.take count).append
        (second.take (count - (first.take count).length)) =
      (first.append second).take count := by
  apply CString.ext
  rw [CString.append_bytes, CString.take_bytes, CString.take_bytes,
    CString.take_bytes, CString.append_bytes, List.take_append,
    CString.take_length]
  have length : first.length = first.bytes.length := rfl
  by_cases short : first.length ≤ count
  · rw [Nat.min_eq_right short, length]
  · rw [Nat.min_eq_left (by omega), Nat.sub_self,
      Nat.sub_eq_zero_of_le (by omega)]

section Reading

variable {buf : Nat → Byte} {string : CString}
  (holds : HoldsString buf string)

include holds

/-- The buffer has the bytes of the string, and the NUL. -/
theorem HoldsString.read
    {front rest : List Byte} (split : string.bytes = front ++ rest) :
    buf front.length = deref rest := by
  cases rest with
  | nil =>
      have whole : string.length = front.length := by
        rw [CString.length, split, List.append_nil]
      rw [← whole]
      exact holds.2
  | cons byte rest =>
      have inside : front.length < string.length := by
        rw [CString.length, split, List.length_append, List.length_cons]
        omega
      have stored := congrArg (fun bytes => bytes[front.length]?) holds.1
      simpa [Memory.block, split, inside] using stored

/-- The NUL is the first one. -/
theorem HoldsString.ne_zero
    {index : Nat} (inside : index < string.length) :
    buf index ≠ 0 := by
  change index < string.bytes.length at inside
  have split : string.bytes = string.bytes.take index ++
      string.bytes[index] :: string.bytes.drop (index + 1) := by
    rw [← List.drop_eq_getElem_cons inside, List.take_append_drop]
  have here := holds.read split
  rw [List.length_take_of_le (Nat.le_of_lt inside)] at here
  rw [here]
  exact CString.ne_zero_of_split split

/-- There is one string in a buffer. -/
theorem HoldsString.unique
    {other : CString} (holdsOther : HoldsString buf other) :
    string = other := by
  have same : string.length = other.length := by
    rcases Nat.lt_trichotomy string.length other.length with
      less | equal | more
    · exact absurd holds.2 (holdsOther.ne_zero less)
    · exact equal
    · exact absurd holdsOther.2 (holds.ne_zero more)
  apply CString.ext
  rw [← holds.1, ← holdsOther.1, same]

end Reading

/-- A string ends in a buffer, or no byte of the buffer is a NUL. -/
theorem holdsString_or (buf : Nat → Byte) (size : Nat) :
    (∃ string, HoldsString buf string ∧ string.length < size) ∨
      ∀ index, index < size → buf index ≠ 0 := by
  induction size with
  | zero => exact Or.inr fun index outside => absurd outside (by omega)
  | succ size induction =>
      rcases induction with ⟨string, holds, inside⟩ | nonzero
      · exact Or.inl ⟨string, holds, Nat.lt_succ_of_lt inside⟩
      · by_cases last : buf size = 0
        · have noNul : (0 : Byte) ∉ Memory.block buf 0 size := by
            intro member
            rcases List.mem_map.mp member with ⟨index, inside, read⟩
            rw [Nat.zero_add] at read
            exact nonzero index (List.mem_range.mp inside) read
          have length : (⟨_, noNul⟩ : CString).length = size :=
            Memory.block_length _ _ _
          refine Or.inl ⟨⟨_, noNul⟩, ⟨?_, ?_⟩, ?_⟩
          · rw [length]
          · rw [length, last]
          · rw [length]
            exact Nat.lt_succ_self size
        · right
          intro index inside
          by_cases before : index < size
          · exact nonzero index before
          · rwa [(by omega : index = size)]

section Storing

variable (buf : Nat → Byte) {modulus : Nat}

variable (modulus) in
/-- A string that is stored behind another one, and a NUL. -/
theorem holdsString_append
    (first second : CString)
    (front : Memory.block buf 0 first.length = first.bytes)
    (fits : first.length + second.length ≤ modulus) :
    HoldsString
      (Memory.apply buf
        (Memory.burst modulus first.length second.bytes ++
          [(first.length + second.length, 0)]))
      (first.append second) := by
  have stored := Memory.block_apply_burst buf _ _ _ fits
  have before :
      Memory.block
          (Memory.apply buf
            (Memory.burst modulus first.length second.bytes))
          0 first.length =
        first.bytes := by
    refine Eq.trans (Memory.block_congr fun index inside => ?_) front
    rw [Nat.zero_add]
    exact Memory.apply_burst_frame buf fits (Or.inl inside)
  have whole :
      Memory.block
          (Memory.apply buf
            (Memory.burst modulus first.length second.bytes))
          0 (first.length + second.length) =
        first.bytes ++ second.bytes := by
    rw [Memory.block_add, before, Nat.zero_add]
    exact congrArg (first.bytes ++ ·) stored
  rw [HoldsString, Memory.apply_append, Memory.apply_singleton,
    CString.append_length, CString.append_bytes]
  constructor
  · refine Eq.trans (Memory.block_congr fun index inside => ?_) whole
    rw [Nat.zero_add]
    exact Function.update_of_ne (Nat.ne_of_lt inside) _ _
  · exact Function.update_self _ _ _

variable (modulus) in
theorem holdsString_of_stores
    (string : CString) (fits : string.length ≤ modulus) :
    HoldsString
      (Memory.apply buf
        (Memory.burst modulus 0 string.bytes ++ [(string.length, 0)]))
      string := by
  have appended := holdsString_append buf modulus ⟨[], List.not_mem_nil⟩ string
    rfl (by rwa [CString.length, List.length_nil, Nat.zero_add])
  simp only [CString.length, List.length_nil, Nat.zero_add] at appended
  exact appended

/-- A string is stored as far as it fits, and the last byte is a NUL. -/
theorem holdsString_cut
    (string : CString) {size : Nat} (positive : size ≠ 0)
    (fits : size ≤ modulus) :
    HoldsString
      (Memory.apply buf
        (Memory.burst modulus 0 (string.bytes.take size) ++
          [(min string.length (size - 1), 0)]))
      (string.take (size - 1)) := by
  have length : string.length = string.bytes.length := rfl
  have whole := holdsString_of_stores buf modulus (string.take (size - 1)) (by
    rw [CString.take_length]
    omega)
  rw [CString.take_bytes, CString.take_length, Nat.min_comm] at whole
  by_cases short : string.length < size
  · rw [List.take_of_length_le (by omega : string.bytes.length ≤ size)]
    rwa [List.take_of_length_le (by omega : string.bytes.length ≤ size - 1)]
      at whole
  · -- one byte too many is stored, and the NUL goes over it
    have last : size - 1 < string.bytes.length := by omega
    have more : string.bytes.take size =
        string.bytes.take (size - 1) ++ [string.bytes[size - 1]] := by
      rw [← List.take_succ_eq_append_getElem last]
      congr 1
      omega
    have place : (0 + (string.bytes.take (size - 1)).length) % modulus =
        min string.length (size - 1) := by
      rw [List.length_take, Nat.mod_eq_of_lt (by omega)]
      omega
    rw [more, Memory.burst_append]
    simp only [Memory.burst, place]
    rwa [Memory.apply_overwritten]

end Storing

end Nolibc.Strings

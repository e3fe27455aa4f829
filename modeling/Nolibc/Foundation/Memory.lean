import Mathlib.Data.List.Basic
import Mathlib.Logic.Function.Basic

/-!
# Memory and store logs

A memory is a function from addresses to values.  A program's effect on it is
kept as the list of its stores in order, so that what was written, and not
only what changed, can be talked about.  A `burst` is the log of a block copy:
consecutive addresses from a start, wrapping at a modulus.
-/

set_option autoImplicit false

namespace Nolibc.Foundation.Memory

universe u

variable {Value : Type u}

/-- Perform a list of stores in order. -/
def apply (memory : Nat → Value) (stores : List (Nat × Value)) :
    Nat → Value :=
  stores.foldl (fun memory store => Function.update memory store.1 store.2)
    memory

/-- Consecutive stores from `start` on. -/
def burst (modulus : Nat) : Nat → List Value → List (Nat × Value)
  | _, [] => []
  | start, value :: rest =>
      (start % modulus, value) :: burst modulus (start + 1) rest

theorem apply_append
    (memory : Nat → Value) (first second : List (Nat × Value)) :
    apply memory (first ++ second) = apply (apply memory first) second := by
  simp [apply]

theorem apply_singleton
    (memory : Nat → Value) (address : Nat) (value : Value) :
    apply memory [(address, value)] =
      Function.update memory address value :=
  rfl

/-- The last of two stores to an address is the one that stays. -/
theorem apply_overwritten
    (memory : Nat → Value) (stores : List (Nat × Value)) (address : Nat)
    (first second : Value) :
    apply memory (stores ++ [(address, first)] ++ [(address, second)]) =
      apply memory (stores ++ [(address, second)]) := by
  rw [apply_append, apply_append, apply_append, apply_singleton,
    apply_singleton, apply_singleton, Function.update_idem]

/-- A byte no store is aimed at keeps its value. -/
theorem apply_frame
    (memory : Nat → Value) {stores : List (Nat × Value)} {address : Nat}
    (outside : ∀ store ∈ stores, store.1 ≠ address) :
    apply memory stores address = memory address := by
  induction stores generalizing memory with
  | nil => rfl
  | cons store rest induction =>
      have missed : address ≠ store.1 := fun equal =>
        outside store (by simp) equal.symm
      have step := induction (Function.update memory store.1 store.2)
        (fun other member => outside other (by simp [member]))
      rw [Function.update_of_ne missed] at step
      exact step

theorem burst_append
    (modulus start : Nat) (first second : List Value) :
    burst modulus start (first ++ second) =
      burst modulus start first ++
        burst modulus (start + first.length) second := by
  induction first generalizing start with
  | nil => rfl
  | cons value rest induction =>
      simp [burst, induction, Nat.add_assoc, Nat.add_comm 1]

/-- A burst stores its values. -/
theorem burst_values (modulus start : Nat) (values : List Value) :
    (burst modulus start values).map Prod.snd = values := by
  induction values generalizing start with
  | nil => rfl
  | cons value rest induction =>
      rw [burst, List.map_cons, induction]

theorem burst_mod
    (modulus start : Nat) (values : List Value) :
    burst modulus (start % modulus) values = burst modulus start values := by
  induction values generalizing start with
  | nil => rfl
  | cons value rest induction =>
      have shifted :
          burst modulus (start % modulus + 1) rest =
            burst modulus (start + 1) rest := by
        rw [← induction (start % modulus + 1), ← induction (start + 1),
          Nat.mod_add_mod]
      simp [burst, shifted]

/-- The addresses of a burst are the start and its successors. -/
theorem mem_burst_address
    {modulus start address : Nat} {values : List Value} :
    (∃ store ∈ burst modulus start values, store.1 = address) ↔
      ∃ index, index < values.length ∧
        (start + index) % modulus = address := by
  induction values generalizing start with
  | nil => simp [burst]
  | cons value rest induction =>
      constructor
      · rintro ⟨store, member, equal⟩
        rw [burst, List.mem_cons] at member
        rcases member with rfl | member
        · exact ⟨0, by simp, equal⟩
        · obtain ⟨index, inside, found⟩ :=
            induction.mp ⟨store, member, equal⟩
          exact ⟨index + 1, by simpa using inside,
            by rw [← found]; congr 1; omega⟩
      · rintro ⟨index, inside, found⟩
        cases index with
        | zero => exact ⟨(start % modulus, value), by simp [burst], found⟩
        | succ index =>
            have later : (start + 1 + index) % modulus = address := by
              rw [← found]
              congr 1
              omega
            obtain ⟨store, member, equal⟩ :=
              induction.mpr ⟨index, by simpa using inside, later⟩
            exact ⟨store, by simp [burst, member], equal⟩

/-- Without wrapping, a burst stores between its start and its end. -/
theorem burst_inside
    {modulus start : Nat} {values : List Value}
    (fits : start + values.length ≤ modulus) {store : Nat × Value}
    (member : store ∈ burst modulus start values) :
    start ≤ store.1 ∧ store.1 < start + values.length := by
  obtain ⟨index, inside, found⟩ :=
    mem_burst_address.mp ⟨store, member, rfl⟩
  rw [Nat.mod_eq_of_lt (by omega)] at found
  omega

/-- Without wrapping, a burst leaves its values at its addresses. -/
theorem apply_burst
    (memory : Nat → Value) {modulus start : Nat} {values : List Value}
    (fits : start + values.length ≤ modulus)
    {index : Nat} (inside : index < values.length) :
    apply memory (burst modulus start values) (start + index) =
      values[index] := by
  induction values generalizing memory start index with
  | nil => simp at inside
  | cons value rest induction =>
      rw [List.length_cons] at fits inside
      have step :
          apply memory (burst modulus start (value :: rest)) =
            apply (Function.update memory (start % modulus) value)
              (burst modulus (start + 1) rest) := rfl
      have here : start % modulus = start :=
        Nat.mod_eq_of_lt (by omega)
      rw [step, here]
      cases index with
      | zero =>
          rw [apply_frame]
          · simp
          · intro store member equal
            have behind := (burst_inside (by omega) member).1
            omega
      | succ index =>
          have fewer : index < rest.length := by omega
          have moved :
              apply (Function.update memory start value)
                  (burst modulus (start + 1) rest) (start + 1 + index) =
                rest[index] :=
            induction (Function.update memory start value) (by omega) fewer
          simpa [Nat.add_assoc, Nat.add_comm 1] using moved

/-- Without wrapping, a burst leaves every other address alone. -/
theorem apply_burst_frame
    (memory : Nat → Value) {modulus start address : Nat}
    {values : List Value}
    (fits : start + values.length ≤ modulus)
    (outside : address < start ∨ start + values.length ≤ address) :
    apply memory (burst modulus start values) address =
      memory address := by
  apply apply_frame
  intro store member equal
  have inside := burst_inside fits member
  omega

/-! ## Blocks -/

/-- The values at `count` consecutive addresses. -/
def block (memory : Nat → Value) (start count : Nat) : List Value :=
  (List.range count).map fun index => memory (start + index)

@[simp]
theorem block_length (memory : Nat → Value) (start count : Nat) :
    (block memory start count).length = count := by
  simp [block]

/-- Two blocks of memories that agree on them are the same. -/
theorem block_congr
    {left right : Nat → Value} {first second count : Nat}
    (same : ∀ index, index < count →
      left (first + index) = right (second + index)) :
    block left first count = block right second count := by
  apply List.map_congr_left
  intro index inside
  exact same index (List.mem_range.mp inside)

/-- A burst reads back as its values. -/
theorem block_apply_burst
    (memory : Nat → Value) (modulus start : Nat) (values : List Value)
    (fits : start + values.length ≤ modulus) :
    block (apply memory (burst modulus start values)) start values.length =
      values := by
  apply List.ext_getElem
  · simp
  · intro index inside _
    rw [block_length] at inside
    simp only [block, List.getElem_map, List.getElem_range]
    exact apply_burst memory fits inside

theorem block_add
    (memory : Nat → Value) (start first second : Nat) :
    block memory start (first + second) =
      block memory start first ++ block memory (start + first) second := by
  simp [block, List.range_add, Nat.add_assoc]

/-- A part of a block is a block. -/
theorem block_drop_take
    (memory : Nat → Value) {start total offset count : Nat}
    (inside : offset + count ≤ total) :
    ((block memory start total).drop offset).take count =
      block memory (start + offset) count := by
  have split : total = offset + (count + (total - (offset + count))) := by
    omega
  rw [split, block_add, List.drop_left' (block_length _ _ _), block_add,
    List.take_left' (block_length _ _ _)]

theorem block_take
    (memory : Nat → Value) (start total count : Nat)
    (inside : count ≤ total) :
    (block memory start total).take count = block memory start count := by
  have split : total = count + (total - count) := by omega
  rw [split, block_add, List.take_left' (block_length _ _ _)]

/-- Replace the values from an offset on. -/
def overwrite (contents : List Value) (offset : Nat)
    (values : List Value) : List Value :=
  contents.take offset ++ values ++ contents.drop (offset + values.length)

theorem overwrite_length
    {contents values : List Value} {offset : Nat}
    (inside : offset + values.length ≤ contents.length) :
    (overwrite contents offset values).length = contents.length := by
  simp only [overwrite, List.length_append, List.length_take,
    List.length_drop]
  omega

/-- A burst inside a block overwrites a part of it. -/
theorem block_apply_burst_inside
    (memory : Nat → Value) {modulus start total offset : Nat}
    {values : List Value} (inside : offset + values.length ≤ total)
    (fits : start + total ≤ modulus) :
    block (apply memory (burst modulus (start + offset) values)) start
        total =
      overwrite (block memory start total) offset values := by
  have burstFits : start + offset + values.length ≤ modulus := by omega
  have split :
      total =
        offset + values.length + (total - (offset + values.length)) := by
    omega
  have before :
      block (apply memory (burst modulus (start + offset) values)) start
          offset =
        block memory start offset :=
    block_congr fun index inFront =>
      apply_burst_frame memory burstFits (Or.inl (by omega))
  have behind (count : Nat) :
      block (apply memory (burst modulus (start + offset) values))
          (start + (offset + values.length)) count =
        block memory (start + (offset + values.length)) count :=
    block_congr fun index _ =>
      apply_burst_frame memory burstFits (Or.inr (by omega))
  have front :
      (block memory start total).take offset = block memory start offset :=
    block_take memory _ _ _ (by omega)
  have rest :
      (block memory start total).drop (offset + values.length) =
        block memory (start + (offset + values.length))
          (total - (offset + values.length)) := by
    rw [split, block_add, List.drop_left' (block_length _ _ _)]
    congr 1
    omega
  rw [overwrite, front, rest, split, block_add, block_add, before,
    block_apply_burst memory _ _ _ burstFits, behind]
  congr 2
  omega

end Nolibc.Foundation.Memory

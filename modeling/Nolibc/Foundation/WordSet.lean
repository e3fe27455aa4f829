import Mathlib.Data.Set.Insert
import Mathlib.Logic.Function.Basic

/-!
# Sets of numbers in the bits of words

An array of words stands for the set of the positions of its bits that are
set.  Replacing one word changes the membership of one number exactly when it
changes one bit, and `members_update_iff` is that statement.
-/

set_option autoImplicit false

namespace Nolibc.Foundation.WordSet

variable {bits count : Nat}

/-- The positions of the bits that are set. -/
def members (words : Fin count → BitVec bits) : Set Nat :=
  { number | ∃ inside : number / bits < count,
    (words ⟨number / bits, inside⟩).getLsbD (number % bits) = true }

/-- The set in which a number is a member or not, and the others as before. -/
def decided (set : Set Nat) (number : Nat) (member : Bool) : Set Nat :=
  { other | if other = number then member = true else other ∈ set }

theorem decided_true (set : Set Nat) (number : Nat) :
    decided set number true = insert number set := by
  ext other
  by_cases same : other = number
  · simp [decided, same]
  · simp [decided, same]

theorem decided_false (set : Set Nat) (number : Nat) :
    decided set number false = set \ {number} := by
  ext other
  by_cases same : other = number
  · simp [decided, same]
  · simp [decided, same]

/-- The bits of one word. -/
theorem mem_members_word
    (words : Fin count → BitVec bits) (index : Fin count) {bit : Nat}
    (inside : bit < bits) :
    index.val * bits + bit ∈ members words ↔
      (words index).getLsbD bit = true := by
  have positive : 0 < bits := Nat.zero_lt_of_lt inside
  have word : (index.val * bits + bit) / bits = index.val := by
    rw [Nat.mul_comm, Nat.mul_add_div positive,
      Nat.div_eq_of_lt inside, Nat.add_zero]
  have offset : (index.val * bits + bit) % bits = bit := by
    rw [Nat.mul_comm, Nat.mul_add_mod, Nat.mod_eq_of_lt inside]
  constructor
  · rintro ⟨bounded, found⟩
    have same : (⟨(index.val * bits + bit) / bits, bounded⟩ : Fin count) =
        index := Fin.ext word
    rwa [same, offset] at found
  · intro found
    have bounded : (index.val * bits + bit) / bits < count := by
      rw [word]
      exact index.isLt
    have same : (⟨(index.val * bits + bit) / bits, bounded⟩ : Fin count) =
        index := Fin.ext word
    refine ⟨bounded, ?_⟩
    rwa [same, offset]

/-- A new word decides one number when it decides the bit of that number. -/
theorem members_update_iff
    (positive : 0 < bits) (words : Fin count → BitVec bits) {number : Nat}
    (inside : number / bits < count) (word : BitVec bits) (member : Bool) :
    members (Function.update words ⟨number / bits, inside⟩ word) =
        decided (members words) number member ↔
      ∀ bit, bit < bits →
        word.getLsbD bit =
          if bit = number % bits then
            member
          else
            (words ⟨number / bits, inside⟩).getLsbD bit := by
  have whole : number / bits * bits + number % bits = number := by
    rw [Nat.mul_comm]
    exact Nat.div_add_mod number bits
  constructor
  · intro equal bit small
    have here := mem_members_word
      (Function.update words ⟨number / bits, inside⟩ word)
      ⟨number / bits, inside⟩ small
    have before := mem_members_word words ⟨number / bits, inside⟩ small
    rw [equal, Function.update_self] at here
    by_cases same : bit = number % bits
    · rw [same, whole] at here
      rw [if_pos same, same]
      have iff : member = true ↔ word.getLsbD (number % bits) = true := by
        simpa [decided] using here
      exact (Bool.eq_iff_iff.mpr iff).symm
    · have other : number / bits * bits + bit ≠ number := by omega
      rw [if_neg same]
      have iff : number / bits * bits + bit ∈ members words ↔
          word.getLsbD bit = true := by
        simpa [decided, other] using here
      exact Bool.eq_iff_iff.mpr (iff.symm.trans before)
  · intro bitwise
    ext other
    have small := Nat.mod_lt other positive
    by_cases sameWord : other / bits = number / bits
    · have split : number / bits * bits + other % bits = other := by
        rw [← sameWord, Nat.mul_comm]
        exact Nat.div_add_mod other bits
      have here := mem_members_word
        (Function.update words ⟨number / bits, inside⟩ word)
        ⟨number / bits, inside⟩ small
      have before := mem_members_word words ⟨number / bits, inside⟩ small
      rw [Function.update_self, bitwise _ small, split] at here
      rw [split] at before
      rw [here]
      by_cases same : other = number
      · simp [decided, same]
      · have different : other % bits ≠ number % bits := by
          intro equal
          exact same (by rw [← split, equal, whole])
        rw [if_neg different, ← before]
        simp [decided, same]
    · have same : other ≠ number := fun equal => sameWord (by rw [equal])
      have untouched (bounded : other / bits < count) :
          Function.update words ⟨number / bits, inside⟩ word
              ⟨other / bits, bounded⟩ =
            words ⟨other / bits, bounded⟩ :=
        Function.update_of_ne (fun equal =>
          sameWord (congrArg Fin.val equal)) _ _
      simp [members, decided, same, untouched]

theorem members_zero :
    members (fun _ : Fin count => (0 : BitVec bits)) = ∅ := by
  ext number
  simp [members]

end Nolibc.Foundation.WordSet

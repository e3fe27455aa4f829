import Mathlib.Logic.Function.Basic
import Mathlib.Order.Basic

/-!
# Moving a block of memory

`moved` is what a memory should be after a block has been copied to another
place, from the contents it had before.  A program that copies value by value
reads its own stores where the two blocks overlap, so that the order matters:
`moved_forward` and `moved_backward` are the two orders, each with the
condition under which the next value has not been overwritten yet.
-/

set_option autoImplicit false

namespace Nolibc.Foundation.Move

universe u

variable {Value : Type u} (memory : Nat → Value)

/-- The memory with the block at `src` copied to `dst`. -/
def moved (dst src count : Nat) : Nat → Value := fun address =>
  if dst ≤ address ∧ address < dst + count then
    memory (src + (address - dst))
  else
    memory address

theorem moved_zero (dst src : Nat) : moved memory dst src 0 = memory := by
  funext address
  exact if_neg (by omega)

/-- Every value of the block arrives. -/
theorem moved_inside
    (dst src : Nat) {count index : Nat} (inside : index < count) :
    moved memory dst src count (dst + index) = memory (src + index) := by
  rw [moved, if_pos (by omega), Nat.add_sub_cancel_left]

/-- What is not in the block at `dst` keeps its value. -/
theorem moved_outside
    {dst count address : Nat} (src : Nat)
    (outside : address < dst ∨ dst + count ≤ address) :
    moved memory dst src count address = memory address :=
  if_neg (by omega)

/-- Copying one more value behind a block that was copied. -/
theorem moved_forward
    {dst src : Nat} (count : Nat)
    (fresh : src + count < dst ∨ dst ≤ src) :
    Function.update (moved memory dst src count) (dst + count)
        (moved memory dst src count (src + count)) =
      moved memory dst src (count + 1) := by
  rw [moved_outside memory src (by omega)]
  funext address
  by_cases here : address = dst + count
  · rw [here, Function.update_self, moved_inside memory dst src (by omega)]
  · rw [Function.update_of_ne here]
    by_cases inside : dst ≤ address ∧ address < dst + count
    · rw [moved, moved, if_pos inside, if_pos (by omega)]
    · rw [moved, moved, if_neg inside, if_neg (by omega)]

/-- Copying one more value in front of a block that was copied. -/
theorem moved_backward
    {dst src : Nat} (count : Nat)
    (fresh : src ≤ dst ∨ dst + count < src) :
    Function.update (moved memory (dst + 1) (src + 1) count) dst
        (moved memory (dst + 1) (src + 1) count src) =
      moved memory dst src (count + 1) := by
  rw [moved_outside memory (src + 1) (by omega)]
  funext address
  by_cases here : address = dst
  · have first := moved_inside memory dst src (Nat.succ_pos count)
    rw [here, Function.update_self]
    exact first.symm
  · rw [Function.update_of_ne here]
    by_cases inside : dst + 1 ≤ address ∧ address < dst + 1 + count
    · have index : src + 1 + (address - (dst + 1)) =
          src + (address - dst) := by omega
      rw [moved, moved, if_pos inside, if_pos (by omega), index]
    · rw [moved, moved, if_neg inside, if_neg (by omega)]

end Nolibc.Foundation.Move

import Mathlib.Data.Nat.Basic
import Nolibc.Machine

/-!
# Character classes

The classification functions of `ctype.h` take an `int` and test it after a
conversion to `unsigned int`, so that a negative value never falls into a
class.  A `char` handed to them has the value its signedness gives it.
-/

set_option autoImplicit false

namespace Nolibc.Ctype

open Nolibc.Machine

/-- The conversion of an `int` to `unsigned int`. -/
def unsignedOfInt (value : Int) : Nat :=
  (value % 2 ^ 32).toNat

/-- `isspace`. -/
def isspace (c : Int) : Bool :=
  unsignedOfInt c = ' '.toNat || unsignedOfInt (c - 0x09) < 5

/-- The bytes which the C locale calls white space. -/
def whiteSpace : List Byte :=
  [' '.toUInt8, '\t'.toUInt8, '\n'.toUInt8, 0x0B, 0x0C, '\r'.toUInt8]

/-- On a `char`, `isspace` recognizes exactly the white space. -/
theorem isspace_charToInt (target : Target) (c : Byte) :
    isspace (target.charToInt c) = true ↔ c ∈ whiteSpace := by
  have range := c.toNat_lt
  have member : c ∈ whiteSpace ↔
      c.toNat = 32 ∨ (9 ≤ c.toNat ∧ c.toNat < 14) := by
    simp only [whiteSpace, List.mem_cons, List.not_mem_nil, or_false,
      ← UInt8.toNat_inj]
    simp
    omega
  rw [member, isspace, Bool.or_eq_true, decide_eq_true_eq,
    decide_eq_true_eq, unsignedOfInt, unsignedOfInt]
  have space : ' '.toNat = 32 := rfl
  rw [space]
  rcases target.charToInt_eq c with value | ⟨value, large⟩ <;>
    rw [value] <;> omega

end Nolibc.Ctype

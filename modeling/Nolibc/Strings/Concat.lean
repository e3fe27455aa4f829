import Nolibc.Stdio.Snprintf
import Nolibc.Strings.Copy

/-!
# Two strings in one buffer

`strlcpy` and then `strlcat` put two strings into a buffer, and `snprintf`
with `"%s%s"` does too.  The three cut what does not fit, each in its own way;
`strlcat_strlcpy_eq_snprintf` says that they cut at the same byte.
-/

set_option autoImplicit false

namespace Nolibc.Strings.Concat

open Nolibc.Machine
open Nolibc.Foundation
open Nolibc.Strings
open Nolibc.Strings.Copy
open Nolibc.Stdio.Printf
open Nolibc.Stdio.Directives
open Nolibc.Stdio.Pieces
open Nolibc.Stdio.Snprintf

variable {target : Target}

/-- The format with the two conversions. -/
def twoStrings : CString :=
  .ofAscii "%s%s"

/-- What the two conversions print. -/
theorem pieces_twoStrings (first second : CString) (errnum : Errno) :
    ∃ list, pieces errnum twoStrings
        [(.string (some first) : Arg target), .string (some second)] =
          .ok list ∧
      (∀ piece ∈ list, piece.width = 0) ∧
      render list = (first.append second).bytes := by
  have read : directives twoStrings =
      [.run [], .string 0, .run [], .string 0, .run []] := by
    decide
  refine ⟨[⟨0, []⟩, ⟨0, first.bytes⟩, ⟨0, []⟩, ⟨0, second.bytes⟩,
    ⟨0, []⟩], ?_, ?_, ?_⟩
  · rw [pieces, read]
    rfl
  · simp
  · simp [render, Piece.render]

/--
Copying a string and appending another leaves the same string as printing the
two: as much of both as fits.
-/
theorem strlcat_strlcpy_eq_snprintf
    (a b : CString) (short : a.length + b.length < 2 ^ 31)
    (size : SizeT target) (positive : 1 ≤ size.toNat)
    (dst : Nat → Byte) (errnum : Errno) :
    ∃ copied appended printed,
      strlcpy a size.toNat = .ok copied ∧
        strlcat target (Memory.apply dst copied.2) b size.toNat =
          .ok appended ∧
        snprintf size twoStrings [.string (some a), .string (some b)]
          errnum = .ok printed ∧
        HoldsString
          (Memory.apply (Memory.apply dst copied.2) appended.2)
          ((a.append b).take (size.toNat - 1)) ∧
        HoldsString (bufferAfter dst printed)
          ((a.append b).take (size.toNat - 1)) := by
  have range := size.isLt
  have wide : 2 ^ 31 < 2 ^ target.longBits := by
    rcases target.longBits_cases with bits | bits <;> rw [bits] <;> decide
  have copiedLength := CString.take_length a (size.toNat - 1)
  rcases strlcpy_holds a size.toNat (by omega) dst with
    ⟨copied, copies, holdsCopy, _⟩
  rcases strlcat_holds _ b (by omega) holdsCopy rfl range (by omega) with
    ⟨appended, appends, holdsBoth, _⟩
  rw [append_take_take] at holdsBoth
  rcases pieces_twoStrings a b errnum with
    ⟨list, resolved, widths, rendered⟩
  have printed := vsnprintf_of_width resolved widths
    (by rwa [rendered, CString.append_bytes, List.length_append])
    size (by omega)
  have holdsPrint := holdsString_cut dst (a.append b)
    (by omega : size.toNat ≠ 0) (Nat.le_of_lt range)
  rw [rendered] at printed
  exact ⟨_, _, _, copies, appends, printed, holdsBoth, holdsPrint⟩

/-- The cut is inside the second string. -/
theorem strlcat_strlcpy_eq_snprintf_five :
    ∃ copied appended printed,
      strlcpy (.ofAscii "ab") 5 = .ok copied ∧
        strlcat .x86_64 (Memory.apply (fun _ => 0xAA) copied.2)
            (.ofAscii "cde") 5 = .ok appended ∧
        snprintf (5 : SizeT .x86_64) twoStrings
            [.string (some (.ofAscii "ab")), .string (some (.ofAscii "cde"))]
            0 = .ok printed ∧
        HoldsString
          (Memory.apply (Memory.apply (fun _ => 0xAA) copied.2) appended.2)
          (CString.ofAscii "abcd") ∧
        HoldsString (bufferAfter (fun _ => 0xAA) printed)
          (CString.ofAscii "abcd") :=
  strlcat_strlcpy_eq_snprintf (.ofAscii "ab") (.ofAscii "cde") (by decide)
    (5 : SizeT .x86_64) (by decide) (fun _ => 0xAA) 0

end Nolibc.Strings.Concat

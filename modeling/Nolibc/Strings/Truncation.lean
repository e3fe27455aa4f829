import Nolibc.Foundation.Region
import Nolibc.Strings.Copy

/-!
# Truncated strings

`strlcpy` and `strlcat` return the length of the string they were asked to
make, and the destination has as much of it as fits.  `strlcpy_strlcat_cut`
says both of any destination and any source that does not overlap it, and
with it that the result tells whether something was cut.

The destination and the source are objects of the address space.  It is for
their sizes that `len + 1` does not wrap in `strlcat`.
-/

set_option autoImplicit false

namespace Nolibc.Strings.Truncation

open Nolibc.Machine
open Nolibc.Foundation
open Nolibc.Strings
open Nolibc.Strings.Copy

/-- Memory that `NULL` is not in, and that does not wrap around. -/
structure IsObject (target : Target) (region : Region) : Prop where
  nonnull : 0 < region.start
  inside : region.stop ≤ 2 ^ target.longBits

/--
A destination of a size, and a source string behind or in front of it.  A
destination of size 0 may be any pointer.
-/
structure Apart (target : Target) (dstStart srcStart : Nat)
    (src : CString) (size : Nat) : Prop where
  source : IsObject target ⟨srcStart, src.length + 1⟩
  destination : size ≠ 0 → IsObject target ⟨dstStart, size⟩
  disjoint : size ≠ 0 →
    Region.Disjoint ⟨dstStart, size⟩ ⟨srcStart, src.length + 1⟩

/--
What a destination of a size has of a string, and that a result tells whether
it is all of it.
-/
structure Cut (whole : CString) (size ret : Nat) (dst : Nat → Byte) :
    Prop where
  holds : HoldsString dst (whole.take (size - 1))
  told : size ≤ ret ↔ whole.take (size - 1) ≠ whole

section Cutting

variable {target : Target} {dstStart srcStart : Nat} {src : CString}
  {size : Nat}

/-- The two objects are not the whole address space. -/
theorem Apart.total (apart : Apart target dstStart srcStart src size) :
    size + src.length + 1 < 2 ^ target.longBits := by
  have nonnull := apart.source.nonnull
  have inside := apart.source.inside
  simp only [Region.stop] at nonnull inside
  by_cases empty : size = 0
  · omega
  · have dstNonnull := (apart.destination empty).nonnull
    have dstInside := (apart.destination empty).inside
    have disjoint := apart.disjoint empty
    simp only [Region.Disjoint, Region.stop] at dstNonnull dstInside disjoint
    omega

/-- A string is cut when it is longer than the size leaves room for. -/
theorem cut_of_holds
    {whole : CString} {after : Nat → Byte} (positive : size ≠ 0)
    (holds : HoldsString after (whole.take (size - 1))) :
    Cut whole size whole.length after where
  holds := holds
  told := by
    constructor
    · intro long equal
      have shorter := CString.take_length whole (size - 1)
      rw [equal] at shorter
      omega
    · intro cut
      by_contra short
      exact cut (CString.ext (List.take_of_length_le (by
        change whole.length ≤ size - 1
        omega)))

/-- Of two strings, the second is cut. -/
theorem append_take
    (first second : CString) {count : Nat} (room : first.length ≤ count) :
    first.append (second.take (count - first.length)) =
      (first.append second).take count := by
  have whole : first.take count = first :=
    CString.ext (List.take_of_length_le room)
  have cut := append_take_take first second count
  rwa [whole] at cut

/-- `strlcpy` cuts the source. -/
theorem strlcpy_cut (buf : Nat → Byte) :
    ∃ stores, strlcpy src size = .ok (src.length, stores) ∧
      (∀ store ∈ stores, store.1 < size) ∧
      (size ≠ 0 →
        Cut src size src.length (Memory.apply buf stores)) := by
  by_cases empty : size = 0
  · subst empty
    exact ⟨[], strlcpy_zero, by simp, fun positive => absurd rfl positive⟩
  · rcases strlcpy_holds _ _ empty buf with ⟨stores, copies, holds, inside⟩
    exact ⟨stores, copies, inside,
      fun positive => cut_of_holds positive holds⟩

/-- `strlcat` cuts the source behind a string that ends in the destination. -/
theorem strlcat_cut
    (apart : Apart target dstStart srcStart src size) {buf : Nat → Byte}
    {string : CString} (holds : HoldsString buf string)
    (room : string.length < size) :
    ∃ stores, strlcat target buf src size =
        .ok (string.length + src.length, stores) ∧
      (∀ store ∈ stores,
        string.length ≤ store.1 ∧ store.1 < size) ∧
      Cut (string.append src) size (string.length + src.length)
        (Memory.apply buf stores) := by
  have total := apart.total
  rcases strlcat_holds target src (by omega) holds rfl (by omega) room with
    ⟨stores, appends, left, inside⟩
  rw [append_take string src (by omega)] at left
  have cut := cut_of_holds (by omega) left
  rw [CString.append_length] at cut
  exact ⟨stores, appends, inside, cut⟩

end Cutting

/--
For every destination and every source that does not overlap it, `strlcpy`
and `strlcat` store in the destination only, leave as much as fits of the
string they make, and return the length of all of it.  A destination that is
not terminated inside its size is left unchanged by `strlcat`, and counts with
its size.
-/
theorem strlcpy_strlcat_cut
    (target : Target) (dstStart srcStart : Nat) (src : CString) (size : Nat)
    (apart : Apart target dstStart srcStart src size) (buf : Nat → Byte) :
    (∃ stores, strlcpy src size = .ok (src.length, stores) ∧
      (∀ store ∈ stores, store.1 < size) ∧
      (size ≠ 0 →
        Cut src size src.length (Memory.apply buf stores))) ∧
    ((∃ string, HoldsString buf string ∧ string.length < size ∧
        ∃ stores, strlcat target buf src size =
            .ok (string.length + src.length, stores) ∧
          (∀ store ∈ stores,
            string.length ≤ store.1 ∧ store.1 < size) ∧
          Cut (string.append src) size (string.length + src.length)
            (Memory.apply buf stores)) ∨
      (∀ index, index < size → buf index ≠ 0) ∧
        strlcat target buf src size = .ok (size + src.length, [])) := by
  refine ⟨strlcpy_cut buf, ?_⟩
  rcases holdsString_or buf size with
    ⟨string, holds, room⟩ | unterminated
  · exact Or.inl ⟨string, holds, room, strlcat_cut apart holds room⟩
  · exact Or.inr ⟨unterminated, strlcat_full apart.total rfl unterminated⟩

/-- One byte, and then zeros. -/
def sampleBuffer (index : Nat) : Byte :=
  if index = 0 then 97 else 0

/-- A destination of four bytes with a string of one, and a longer source. -/
theorem strlcpy_strlcat_cut_four :
    (∃ stores, strlcpy (.ofAscii "bcde") 4 = .ok (4, stores) ∧
      (∀ store ∈ stores, store.1 < 4) ∧
      (4 ≠ 0 →
        Cut (.ofAscii "bcde") 4 4 (Memory.apply sampleBuffer stores))) ∧
    ((∃ string, HoldsString sampleBuffer string ∧ string.length < 4 ∧
        ∃ stores, strlcat .x86_64 sampleBuffer (.ofAscii "bcde") 4 =
            .ok (string.length + 4, stores) ∧
          (∀ store ∈ stores, string.length ≤ store.1 ∧ store.1 < 4) ∧
          Cut (string.append (.ofAscii "bcde")) 4 (string.length + 4)
            (Memory.apply sampleBuffer stores)) ∨
      (∀ index, index < 4 → sampleBuffer index ≠ 0) ∧
        strlcat .x86_64 sampleBuffer (.ofAscii "bcde") 4 =
          .ok (4 + 4, [])) :=
  strlcpy_strlcat_cut .x86_64 0x1000 0x2000 (.ofAscii "bcde") 4
    ⟨⟨by decide, by decide⟩, fun _ => ⟨by decide, by decide⟩,
      fun _ => by decide⟩
    sampleBuffer

end Nolibc.Strings.Truncation

import Mathlib.Data.List.Pairwise
import Mathlib.Data.List.Perm.Basic

/-!
# Ranges of addresses

A region is a range of addresses.  Cutting a range out of a list of regions
leaves alone the regions it does not touch, and keeps of the others the parts
on either side.  The rule the users need is `cut_eq_erase`: among pairwise
disjoint regions, cutting out one of them removes it and nothing else.
-/

set_option autoImplicit false

namespace Nolibc.Foundation

/-- The addresses from `start` on, `length` of them. -/
structure Region where
  start : Nat
  length : Nat
  deriving DecidableEq, Repr

namespace Region

/-- The first address behind a region. -/
def stop (region : Region) : Nat :=
  region.start + region.length

/-- An address is in a region. -/
def Contains (region : Region) (address : Nat) : Prop :=
  region.start ≤ address ∧ address < region.stop

instance (region : Region) (address : Nat) :
    Decidable (region.Contains address) :=
  inferInstanceAs (Decidable (_ ∧ _))

/-- One region ends before the other begins. -/
def Disjoint (left right : Region) : Prop :=
  left.stop ≤ right.start ∨ right.stop ≤ left.start

instance (left right : Region) : Decidable (left.Disjoint right) :=
  inferInstanceAs (Decidable (_ ∨ _))

theorem Disjoint.symm
    {left right : Region} (disjoint : left.Disjoint right) :
    right.Disjoint left :=
  Or.symm disjoint

instance : Std.Symm Disjoint :=
  ⟨fun _ _ => Disjoint.symm⟩

theorem Disjoint.not_contains
    {left right : Region} (disjoint : left.Disjoint right)
    {address : Nat} (inside : left.Contains address) :
    ¬ right.Contains address := by
  rintro ⟨above, below⟩
  rcases inside with ⟨lower, upper⟩
  rcases disjoint with before | behind
  · omega
  · omega

theorem not_disjoint_self
    {region : Region} (nonempty : 0 < region.length) :
    ¬ region.Disjoint region := by
  rintro (before | behind) <;> unfold stop at * <;> omega

/-- What is left of a region when a range is cut out of it. -/
def subtract (range region : Region) : List Region :=
  if region.Disjoint range then
    [region]
  else
    (if region.start < range.start then
      [⟨region.start, range.start - region.start⟩]
    else
      []) ++
    (if range.stop < region.stop then
      [⟨range.stop, region.stop - range.stop⟩]
    else
      [])

/-- Cut a range out of every region. -/
def cut (range : Region) (regions : List Region) : List Region :=
  regions.flatMap (subtract range)

theorem subtract_self (region : Region) (nonempty : 0 < region.length) :
    subtract region region = [] := by
  simp [subtract, not_disjoint_self nonempty]

theorem cut_of_disjoint
    {range : Region} {regions : List Region}
    (disjoint : ∀ region ∈ regions, region.Disjoint range) :
    cut range regions = regions := by
  induction regions with
  | nil => rfl
  | cons region rest induction =>
      have here : subtract range region = [region] :=
        if_pos (disjoint region (by simp))
      have later : cut range rest = rest :=
        induction fun other member => disjoint other (by simp [member])
      rw [cut, List.flatMap_cons, here]
      exact congrArg (region :: ·) later

/-- Cutting out one of several disjoint regions removes just that one. -/
theorem cut_eq_erase
    {region : Region} {regions : List Region}
    (disjoint : regions.Pairwise Disjoint) (member : region ∈ regions)
    (nonempty : 0 < region.length) :
    cut region regions = regions.erase region := by
  induction regions with
  | nil => exact absurd member (by simp)
  | cons first rest induction =>
      rcases List.pairwise_cons.mp disjoint with ⟨apart, others⟩
      by_cases equal : first = region
      · subst equal
        rw [cut, List.flatMap_cons, subtract_self first nonempty,
          List.nil_append, List.erase_cons_head]
        exact cut_of_disjoint fun other inRest => (apart other inRest).symm
      · have inRest : region ∈ rest := by
          rcases List.mem_cons.mp member with same | inRest
          · exact absurd same.symm equal
          · exact inRest
        have kept : subtract region first = [first] :=
          if_pos (apart region inRest)
        have notHead : ¬ (first == region) = true := by
          simpa using equal
        rw [cut, List.flatMap_cons, kept, List.erase_cons_tail notHead]
        exact congrArg (first :: ·) (induction others inRest)

theorem nodup_of_disjoint
    {regions : List Region} (disjoint : regions.Pairwise Disjoint)
    (nonempty : ∀ region ∈ regions, 0 < region.length) :
    regions.Nodup := by
  apply disjoint.imp_of_mem
  rintro left right leftMember _ apart rfl
  exact not_disjoint_self (nonempty left leftMember) apart

end Region

end Nolibc.Foundation

import Mathlib.Data.List.Lex
import Nolibc.Strings.Compare

/-!
# The order of strings

Strings are ordered as the lists of their bytes, which are unsigned.  The
sign of `strcmp` is that of this order, so that its laws are those of a linear
order, and the other comparisons are `strcmp` of a part.
-/

set_option autoImplicit false

namespace Nolibc.Strings.Order

open Nolibc.Machine
open Nolibc.Strings.Compare

/-- The bytes as numbers; lists of numbers are ordered lexicographically. -/
def key (bytes : List Byte) : List Nat :=
  bytes.map UInt8.toNat

theorem key_injective : Function.Injective key :=
  List.map_injective_iff.mpr fun _ _ => UInt8.toNat_inj.mp

/-- The lexicographic order on unsigned bytes. -/
instance : LT CString :=
  ⟨fun a b => key a.bytes < key b.bytes⟩

instance : LE CString :=
  ⟨fun a b => key a.bytes ≤ key b.bytes⟩

instance : LinearOrder CString where
  __ := LinearOrder.lift' (fun string : CString => key string.bytes)
    fun _ _ same => CString.ext (key_injective same)
  lt := (· < ·)
  le := (· ≤ ·)

/-! ## The sign of a difference -/

theorem difference_comm (xs ys : List Byte) :
    difference ys xs = -difference xs ys := by
  induction xs generalizing ys with
  | nil => rw [difference_nil_left, difference_nil_right, Int.neg_neg]
  | cons x xs induction =>
      cases ys with
      | nil => rw [difference_nil_left, difference_nil_right]
      | cons y ys =>
          by_cases equal : x = y
          · subst equal
            rw [difference_cons_self, difference_cons_self, induction]
          · rw [difference_cons_of_ne equal,
              difference_cons_of_ne (Ne.symm equal), Int.neg_sub]

/-- Of two strings that differ, the smaller has the smaller byte there. -/
theorem difference_neg_iff
    (xs : List Byte) {ys : List Byte} (nonzero : (0 : Byte) ∉ ys) :
    difference xs ys < 0 ↔ key xs < key ys := by
  induction xs generalizing ys with
  | nil =>
      cases ys with
      | nil => exact iff_of_false (by decide) (lt_irrefl _)
      | cons y ys =>
          have positive := toNat_pos_of_notMem nonzero
          rw [difference_nil_left, deref_cons]
          exact iff_of_true (by omega) (List.nil_lt_cons _ _)
  | cons x xs induction =>
      cases ys with
      | nil =>
          rw [difference_nil_right]
          exact iff_of_false (by omega) (List.not_lt_nil _)
      | cons y ys =>
          simp only [key, List.map_cons, List.cons_lt_cons_iff]
          by_cases equal : x = y
          · subst equal
            rw [difference_cons_self, induction fun member =>
              nonzero (List.mem_cons_of_mem _ member)]
            simp [key]
          · have differs := UInt8.toNat_inj.not.mpr equal
            rw [difference_cons_of_ne equal]
            omega

section Strings

variable (a b : CString)

theorem strcmp_start :
    strcmp a.start b.start = .ok (difference a.bytes b.bytes) :=
  strcmp_eq (Pointer.points_start a) (Pointer.points_start b)

/-- `strncmp` is `strcmp` of the strings cut to their first bytes. -/
theorem strncmp_start (n : Nat) :
    strncmp a.start b.start n =
      strcmp (a.take n).start (b.take n).start := by
  rw [strcmp_start]
  exact strncmp_eq (Pointer.points_start a) (Pointer.points_start b) n

/-- Inside both strings `memcmp` returns what `strncmp` does. -/
theorem memcmp_start
    {n : Nat} (insideA : n ≤ a.length) (insideB : n ≤ b.length) :
    memcmp a.start.reader b.start.reader n =
      strncmp a.start b.start n := by
  have taken {string : CString} (inside : n ≤ string.length) :
      (string.bytes.take n).length = n := List.length_take_of_le inside
  have compared := memcmpFrom_eq ((Pointer.points_start a).reads_take n)
    ((Pointer.points_start b).reads_take n)
    ((taken insideA).trans (taken insideB).symm)
  rw [taken insideA] at compared
  rw [strncmp_start, strcmp_start]
  exact compared

theorem difference_lt_iff :
    difference a.bytes b.bytes < 0 ↔ a < b :=
  difference_neg_iff a.bytes b.noNul

theorem difference_gt_iff :
    0 < difference a.bytes b.bytes ↔ b < a := by
  rw [← difference_lt_iff, difference_comm a.bytes, Int.neg_lt_zero_iff]

theorem difference_le_iff :
    difference a.bytes b.bytes ≤ 0 ↔ a ≤ b := by
  rw [← Int.not_lt, difference_gt_iff, not_lt]

theorem difference_eq_iff :
    difference a.bytes b.bytes = 0 ↔ a = b := by
  rw [difference_eq_zero_iff a.noNul b.noNul, CString.ext_iff]

end Strings

/-! ## The comparisons -/

/--
`strcmp` compares as the lexicographic order on unsigned bytes does, so that
its sign is antisymmetric and transitive; `strncmp` is `strcmp` of what is
left of the strings when they are cut, and in front of both NULs `memcmp` has
its sign.  The functions return the same if anything but the bytes up to the
first difference, the first common NUL or the size is read otherwise, or not
at all.
-/
theorem comparisons_order (a b c : CString) (n : Nat) :
    (∃ ab ba bc ac,
      strcmp a.start b.start = .ok ab ∧ strcmp b.start a.start = .ok ba ∧
        strcmp b.start c.start = .ok bc ∧
        strcmp a.start c.start = .ok ac ∧
        (ab < 0 ↔ a < b) ∧ (0 < ab ↔ b < a) ∧ (ab = 0 ↔ a = b) ∧
        ba = -ab ∧ (ab ≤ 0 → bc ≤ 0 → ac ≤ 0) ∧
        (ab < 0 → bc ≤ 0 → ac < 0) ∧ (ab ≤ 0 → bc < 0 → ac < 0)) ∧
    strncmp a.start b.start n =
      strcmp (a.take n).start (b.take n).start ∧
    (n ≤ a.length → n ≤ b.length → ∃ memory string,
      memcmp a.start.reader b.start.reader n = .ok memory ∧
        strncmp a.start b.start n = .ok string ∧
        memory.sign = string.sign) ∧
    (∀ x y : Reader,
      (∀ index, Comes (· ≠ 0) a.start.reader b.start.reader index →
        x index = a.start.reader index ∧
          y index = b.start.reader index) →
      strcmpLoop x y (a.length + 1) = strcmp a.start b.start) ∧
    (∀ x y : Reader,
      (∀ index, index < n →
        Comes (· ≠ 0) a.start.reader b.start.reader index →
          x index = a.start.reader index ∧
            y index = b.start.reader index) →
      strncmpFrom x y 0 n = strncmp a.start b.start n) ∧
    ∀ s1 s2 x y : Reader,
      (∀ index, index < n → Comes (fun _ => True) s1 s2 index →
        x index = s1 index ∧ y index = s2 index) →
      memcmp x y n = memcmp s1 s2 n := by
  refine ⟨⟨_, _, _, _, strcmp_start a b, strcmp_start b a,
      strcmp_start b c, strcmp_start a c, difference_lt_iff a b,
      difference_gt_iff a b, difference_eq_iff a b,
      difference_comm a.bytes b.bytes, ?_, ?_, ?_⟩,
    strncmp_start a b n, ?_, ?_, ?_, ?_⟩
  · intro left right
    rw [difference_le_iff] at left right ⊢
    exact left.trans right
  · intro left right
    rw [difference_le_iff] at right
    rw [difference_lt_iff] at left ⊢
    exact left.trans_le right
  · intro left right
    rw [difference_le_iff] at left
    rw [difference_lt_iff] at right ⊢
    exact left.trans_lt right
  · intro insideA insideB
    have compared := (strncmp_start a b n).trans (strcmp_start _ _)
    exact ⟨_, _, (memcmp_start a b insideA insideB).trans compared,
      compared, rfl⟩
  · intro x y same
    exact strcmpLoop_congr same (a.length + 1)
  · intro x y same
    exact (strncmpFrom_congr same (Nat.zero_add n) Comes.zero).trans
      (strncmp_add a.start b.start 0 n).symm
  · intro s1 s2 x y same
    exact memcmpFrom_congr same (Nat.zero_add n) Comes.zero

end Nolibc.Strings.Order

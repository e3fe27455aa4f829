import Nolibc.Foundation.Loop
import Nolibc.Machine

/-!
# Comparing strings

The comparison functions of `string.h` read both strings byte by byte and
return the difference of the bytes at which they stop.  The subtraction is
done in `unsigned int`, and as an `int` the result is the difference again.

What they return is `difference`, of two blocks for `memcmp` and of two
strings for the others.
-/

set_option autoImplicit false

namespace Nolibc.Strings.Compare

open Nolibc.Machine
open Nolibc.Foundation

/-! ## The functions -/

/-- The loop of `memcmp` at an offset, with some bytes left of `n`. -/
def memcmpFrom (s1 s2 : Reader) (ofs : Nat) : Nat → Except Fault Int
  | 0 => pure 0
  | left + 1 => do
      let byte ← s1 ofs
      let other ← s2 ofs
      let c1 : Int := byte.toNat - other.toNat
      if c1 = 0 then
        memcmpFrom s1 s2 (ofs + 1) left
      else
        pure c1

/-- `memcmp`. -/
def memcmp (s1 s2 : Reader) (n : Nat) : Except Fault Int :=
  memcmpFrom s1 s2 0 n

/-- A turn of the loop of `strcmp`; both pointers have moved by `ofs`. -/
def strcmpTurn (a b : Reader) (ofs : Nat) : Except Fault (Nat ⊕ Int) := do
  let byte ← a ofs
  let c ← b ofs
  let diff : Int := byte.toNat - c.toNat
  if diff = 0 ∧ c ≠ 0 then
    pure (.inl (ofs + 1))
  else
    pure (.inr diff)

/-- The loop of `strcmp`, for a number of turns. -/
def strcmpLoop (a b : Reader) (turns : Nat) : Except Fault Int :=
  Loop.run Fault.diverged (strcmpTurn a b) turns 0

/-- `strcmp`. -/
def strcmp (a b : Pointer) : Except Fault Int :=
  strcmpLoop a.reader b.reader (a.string.length + 1)

/--
`strncmp`.  The recursion is on `size`; `diff` is zero whenever a turn of the
loop ends without leaving it.
-/
def strncmp (a b : Pointer) : Nat → Except Fault Int
  | 0 => pure 0
  | size + 1 => do
      let byte ← a.load
      let c ← b.load
      let diff : Int := byte.toNat - c.toNat
      if diff = 0 ∧ c ≠ 0 then
        strncmp (a.add 1) (b.add 1) size
      else
        pure diff

/-- `strncmp` of what two pointers read. -/
def strncmpFrom (a b : Reader) (ofs : Nat) : Nat → Except Fault Int
  | 0 => pure 0
  | size + 1 => do
      let byte ← a ofs
      let c ← b ofs
      let diff : Int := byte.toNat - c.toNat
      if diff = 0 ∧ c ≠ 0 then
        strncmpFrom a b (ofs + 1) size
      else
        pure diff

theorem strncmp_add (a b : Pointer) (ofs size : Nat) :
    strncmp (a.add ofs) (b.add ofs) size =
      strncmpFrom a.reader b.reader ofs size := by
  induction size generalizing ofs with
  | zero => rfl
  | succ size induction =>
      have next := induction (ofs + 1)
      simp only [Pointer.add, ← Nat.add_assoc] at next
      simp only [strncmp, strncmpFrom, Pointer.reader, Pointer.add, next]

/-! ## What they return -/

/-- The difference of the first bytes that differ; at its end a string has a
NUL. -/
def difference : List Byte → List Byte → Int
  | x :: xs, y :: ys => if x = y then difference xs ys else x.toNat - y.toNat
  | xs, ys => (deref xs).toNat - (deref ys).toNat

/-- Two strings of which the first bytes are the same. -/
@[simp]
theorem difference_cons_self (x : Byte) (xs ys : List Byte) :
    difference (x :: xs) (x :: ys) = difference xs ys :=
  if_pos rfl

theorem difference_cons_of_ne
    {x y : Byte} (differs : x ≠ y) (xs ys : List Byte) :
    difference (x :: xs) (y :: ys) = x.toNat - y.toNat :=
  if_neg differs

@[simp]
theorem difference_nil_left (ys : List Byte) :
    difference [] ys = -(deref ys).toNat := by
  cases ys with
  | nil => rfl
  | cons y ys => exact Int.zero_sub _

@[simp]
theorem difference_nil_right (xs : List Byte) :
    difference xs [] = (deref xs).toNat := by
  cases xs with
  | nil => rfl
  | cons x xs => exact Int.sub_zero _

theorem sub_eq_zero_iff (x y : Byte) :
    (x.toNat : Int) - y.toNat = 0 ↔ x = y := by
  rw [← UInt8.toNat_inj]
  omega

/-- A byte of a string is more than the NUL at the end of another. -/
theorem toNat_pos_of_notMem
    {x : Byte} {xs : List Byte} (nonzero : (0 : Byte) ∉ x :: xs) :
    0 < x.toNat := by
  have head : x ≠ 0 := fun zero => nonzero (by simp [zero])
  have positive := UInt8.toNat_inj.not.mpr head
  rw [UInt8.toNat_zero] at positive
  omega

/-- Where the bytes are the same and are not a NUL, both strings go on. -/
theorem cons_of_goes_on
    {xs ys : List Byte}
    (goesOn : ((deref xs).toNat : Int) - (deref ys).toNat = 0 ∧
      deref ys ≠ 0) :
    ∃ byte xs' ys', byte ≠ 0 ∧ xs = byte :: xs' ∧ ys = byte :: ys' := by
  rcases goesOn with ⟨same, nonzero⟩
  rw [sub_eq_zero_iff] at same
  cases ys with
  | nil => exact absurd rfl nonzero
  | cons y ys =>
      cases xs with
      | nil => exact absurd same.symm nonzero
      | cons x xs =>
          rw [deref_cons, deref_cons] at same
          subst same
          exact ⟨x, xs, ys, nonzero, rfl, rfl⟩

/-- Elsewhere the result is the difference of the two bytes. -/
theorem difference_of_stops
    (xs ys : List Byte) (nonzero : (0 : Byte) ∉ ys)
    (stops : ¬ (((deref xs).toNat : Int) - (deref ys).toNat = 0 ∧
      deref ys ≠ 0)) :
    difference xs ys = (deref xs).toNat - (deref ys).toNat := by
  cases xs with
  | nil => rw [difference_nil_left, deref_nil, UInt8.toNat_zero]; omega
  | cons x xs =>
      cases ys with
      | nil => rw [difference_nil_right, deref_nil, UInt8.toNat_zero]; omega
      | cons y ys =>
          have differs : x ≠ y := by
            rintro rfl
            have head : x ≠ 0 := fun zero => nonzero (by simp [zero])
            exact stops ⟨Int.sub_self _, head⟩
          exact difference_cons_of_ne differs xs ys

section Results

variable {a b : Reader} {ofs : Nat} {xs ys : List Byte}

theorem reads_deref
    (reads : a.Reads ofs (xs ++ [0])) : a ofs = .ok (deref xs) := by
  cases xs with
  | nil => exact reads.1
  | cons x xs => exact reads.1

/-- Two blocks of memory are compared to the end. -/
theorem memcmpFrom_eq
    (readsA : a.Reads ofs xs) (readsB : b.Reads ofs ys)
    (same : xs.length = ys.length) :
    memcmpFrom a b ofs xs.length = .ok (difference xs ys) := by
  induction xs generalizing ofs ys with
  | nil =>
      cases ys with
      | nil => rfl
      | cons y ys => exact absurd same (Nat.succ_ne_zero _).symm
  | cons x xs induction =>
      cases ys with
      | nil => exact absurd same (Nat.succ_ne_zero _)
      | cons y ys =>
          rw [List.length_cons, memcmpFrom, readsA.1, readsB.1]
          by_cases equal : x = y
          · subst equal
            have onward := induction readsA.2 readsB.2 (Nat.succ.inj same)
            simpa [bind, Except.bind] using onward
          · have differs := (sub_eq_zero_iff x y).not.mpr equal
            rw [difference_cons_of_ne equal]
            simp only [bind, Except.bind, if_neg differs]
            rfl

/-- Two strings are compared up to their end. -/
theorem strcmpLoop_eq
    (readsA : a.Reads ofs (xs ++ [0])) (readsB : b.Reads ofs (ys ++ [0]))
    (nonzero : (0 : Byte) ∉ ys) {turns : Nat} (enough : xs.length < turns) :
    Loop.run Fault.diverged (strcmpTurn a b) turns ofs =
      .ok (difference xs ys) := by
  induction turns generalizing ofs xs ys with
  | zero => exact absurd enough (Nat.not_lt_zero _)
  | succ turns induction =>
      have turn : strcmpTurn a b ofs =
          if ((deref xs).toNat : Int) - (deref ys).toNat = 0 ∧
              deref ys ≠ 0 then
            .ok (.inl (ofs + 1))
          else
            .ok (.inr ((deref xs).toNat - (deref ys).toNat)) := by
        unfold strcmpTurn
        rw [reads_deref readsA, reads_deref readsB]
        rfl
      by_cases goesOn : ((deref xs).toNat : Int) - (deref ys).toNat = 0 ∧
          deref ys ≠ 0
      · rw [Loop.run_continue (turn.trans (if_pos goesOn))]
        rcases cons_of_goes_on goesOn with ⟨byte, xs, ys, _, rfl, rfl⟩
        rw [difference_cons_self]
        exact induction readsA.2 readsB.2
          (fun member => nonzero (List.mem_cons_of_mem _ member))
          (Nat.lt_of_succ_lt_succ enough)
      · rw [Loop.run_exit (turn.trans (if_neg goesOn)),
          difference_of_stops _ _ nonzero goesOn]

/-- Two strings are compared up to their end or to a number of bytes. -/
theorem strncmpFrom_eq
    (readsA : a.Reads ofs (xs ++ [0])) (readsB : b.Reads ofs (ys ++ [0]))
    (nonzero : (0 : Byte) ∉ ys) (size : Nat) :
    strncmpFrom a b ofs size =
      .ok (difference (xs.take size) (ys.take size)) := by
  induction size generalizing ofs xs ys with
  | zero => rfl
  | succ size induction =>
      have derefTake (bytes : List Byte) :
          deref (bytes.take (size + 1)) = deref bytes := by
        cases bytes <;> rfl
      rw [strncmpFrom, reads_deref readsA, reads_deref readsB]
      by_cases goesOn : ((deref xs).toNat : Int) - (deref ys).toNat = 0 ∧
          deref ys ≠ 0
      · simp only [bind, Except.bind, if_pos goesOn]
        rcases cons_of_goes_on goesOn with ⟨byte, xs, ys, _, rfl, rfl⟩
        rw [List.take_succ_cons, List.take_succ_cons, difference_cons_self]
        exact induction readsA.2 readsB.2
          fun member => nonzero (List.mem_cons_of_mem _ member)
      · have stops := difference_of_stops (xs.take (size + 1))
          (ys.take (size + 1))
          (fun member => nonzero (List.mem_of_mem_take member))
        rw [derefTake, derefTake] at stops
        simp only [bind, Except.bind, if_neg goesOn, stops goesOn]
        rfl

end Results

section Pointers

variable {a b : Pointer} {xs ys : List Byte}
  (subject : a.Points xs) (pattern : b.Points ys)

include subject pattern

theorem strcmp_eq : strcmp a b = .ok (difference xs ys) :=
  strcmpLoop_eq subject.reads pattern.reads pattern.noNul
    (Nat.lt_succ_of_le subject.length_le)

theorem strncmp_eq (size : Nat) :
    strncmp a b size = .ok (difference (xs.take size) (ys.take size)) :=
  (strncmp_add a b 0 size).trans
    (strncmpFrom_eq subject.reads pattern.reads pattern.noNul size)

end Pointers

/-- Only of the same string is the difference zero. -/
theorem difference_eq_zero_iff
    {xs ys : List Byte} (left : (0 : Byte) ∉ xs) (right : (0 : Byte) ∉ ys) :
    difference xs ys = 0 ↔ xs = ys := by
  induction xs generalizing ys with
  | nil =>
      cases ys with
      | nil => exact iff_of_true rfl rfl
      | cons y ys =>
          have positive := toNat_pos_of_notMem right
          simp only [difference_nil_left, deref_cons, reduceCtorEq, iff_false]
          omega
  | cons x xs induction =>
      cases ys with
      | nil =>
          have positive := toNat_pos_of_notMem left
          simp only [difference_nil_right, deref_cons, reduceCtorEq, iff_false]
          omega
      | cons y ys =>
          by_cases equal : x = y
          · subst equal
            rw [difference_cons_self, List.cons_inj_right]
            exact induction
              (fun member => left (List.mem_cons_of_mem _ member))
              fun member => right (List.mem_cons_of_mem _ member)
          · rw [difference_cons_of_ne equal, sub_eq_zero_iff]
            simp [equal]

/-- The first bytes of a text are a literal when the text starts with it. -/
theorem difference_take_eq_zero_iff
    {text literal : List Byte} (left : (0 : Byte) ∉ text)
    (right : (0 : Byte) ∉ literal) :
    difference (text.take literal.length) literal = 0 ↔
      literal <+: text := by
  have front : (0 : Byte) ∉ text.take literal.length :=
    fun member => left (List.mem_of_mem_take member)
  rw [difference_eq_zero_iff front right, List.prefix_iff_eq_take, eq_comm]

/--
Comparing as many bytes as a literal has asks whether the string starts with
the literal, and never reads past the NUL of either.
-/
theorem strncmp_literal
    {a b : Pointer} {text literal : List Byte}
    (subject : a.Points text) (pattern : b.Points literal) :
    ∃ diff, strncmp a b literal.length = .ok diff ∧
      (diff = 0 ↔ literal <+: text) := by
  refine ⟨_, strncmp_eq subject pattern literal.length, ?_⟩
  rw [List.take_length]
  exact difference_take_eq_zero_iff subject.noNul pattern.noNul

/-! ## What they read -/

/--
The indices a comparison comes to.  In front of them the two read the same
bytes, and it goes on at all of these.
-/
def Comes (goesOn : Byte → Prop) (a b : Reader) (index : Nat) : Prop :=
  ∀ before, before < index →
    ∃ byte, goesOn byte ∧ a before = .ok byte ∧ b before = .ok byte

section Reading

variable {a b : Reader}

section Coming

variable {goesOn : Byte → Prop}

theorem Comes.zero : Comes goesOn a b 0 :=
  fun _ outside => absurd outside (Nat.not_lt_zero _)

theorem Comes.succ
    {index : Nat} {byte : Byte} (comes : Comes goesOn a b index)
    (on : goesOn byte) (readA : a index = .ok byte)
    (readB : b index = .ok byte) : Comes goesOn a b (index + 1) := by
  intro before inside
  by_cases earlier : before < index
  · exact comes before earlier
  · rw [(by omega : before = index)]
    exact ⟨byte, on, readA, readB⟩

end Coming

/-- A turn goes on where both read the same byte, which is not a NUL. -/
theorem strcmpTurn_continues
    {ofs next : Nat} (turn : strcmpTurn a b ofs = .ok (.inl next)) :
    next = ofs + 1 ∧
      ∃ byte, byte ≠ 0 ∧ a ofs = .ok byte ∧ b ofs = .ok byte := by
  unfold strcmpTurn at turn
  cases readA : a ofs with
  | error fault =>
      rw [readA] at turn
      cases turn
  | ok byte =>
      cases readB : b ofs with
      | error fault =>
          rw [readA, readB] at turn
          cases turn
      | ok c =>
          rw [readA, readB] at turn
          by_cases on : (byte.toNat : Int) - c.toNat = 0 ∧ c ≠ 0
          · simp only [bind, Except.bind, if_pos on] at turn
            cases turn
            have equal := (sub_eq_zero_iff byte c).mp on.1
            exact ⟨rfl, byte, equal ▸ on.2, rfl, congrArg _ equal.symm⟩
          · simp only [bind, Except.bind, if_neg on] at turn
            cases turn

variable {x y : Reader}

/-- `strcmp` reads at the indices it comes to. -/
theorem strcmpLoop_congr
    (same : ∀ index, Comes (· ≠ 0) a b index →
      x index = a index ∧ y index = b index) (turns : Nat) :
    strcmpLoop x y turns = strcmpLoop a b turns := by
  refine Loop.run_congr (Comes (· ≠ 0) a b) ?_ ?_ Comes.zero turns
  · intro ofs comes
    rw [strcmpTurn, strcmpTurn, (same ofs comes).1, (same ofs comes).2]
  · intro ofs next comes turn
    rcases strcmpTurn_continues turn with ⟨rfl, byte, on, readA, readB⟩
    exact comes.succ on readA readB

variable {n : Nat}

/-- So does `strncmp`, below its size. -/
theorem strncmpFrom_congr
    (same : ∀ index, index < n → Comes (· ≠ 0) a b index →
      x index = a index ∧ y index = b index)
    {ofs left : Nat} (total : ofs + left = n)
    (comes : Comes (· ≠ 0) a b ofs) :
    strncmpFrom x y ofs left = strncmpFrom a b ofs left := by
  induction left generalizing ofs with
  | zero => rfl
  | succ left induction =>
      have here := same ofs (by omega) comes
      rw [strncmpFrom, strncmpFrom, here.1, here.2]
      cases readA : a ofs with
      | error fault => rfl
      | ok byte =>
          cases readB : b ofs with
          | error fault => rfl
          | ok c =>
              by_cases on : (byte.toNat : Int) - c.toNat = 0 ∧ c ≠ 0
              · have equal := (sub_eq_zero_iff byte c).mp on.1
                subst equal
                simp only [bind, Except.bind, if_pos on]
                exact induction (by omega) (comes.succ on.2 readA readB)
              · simp only [bind, Except.bind, if_neg on]

/-- `memcmp` does not stop at a NUL. -/
theorem memcmpFrom_congr
    (same : ∀ index, index < n → Comes (fun _ => True) a b index →
      x index = a index ∧ y index = b index)
    {ofs left : Nat} (total : ofs + left = n)
    (comes : Comes (fun _ => True) a b ofs) :
    memcmpFrom x y ofs left = memcmpFrom a b ofs left := by
  induction left generalizing ofs with
  | zero => rfl
  | succ left induction =>
      have here := same ofs (by omega) comes
      rw [memcmpFrom, memcmpFrom, here.1, here.2]
      cases readA : a ofs with
      | error fault => rfl
      | ok byte =>
          cases readB : b ofs with
          | error fault => rfl
          | ok c =>
              by_cases on : (byte.toNat : Int) - c.toNat = 0
              · have equal := (sub_eq_zero_iff byte c).mp on
                subst equal
                simp only [bind, Except.bind, if_pos on]
                exact induction (by omega)
                  (comes.succ trivial readA readB)
              · simp only [bind, Except.bind, if_neg on]

end Reading

end Nolibc.Strings.Compare

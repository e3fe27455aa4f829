import Nolibc.Foundation.WordSet

/-!
# Descriptor sets

The `FD_*` macros of `types.h` on a target with a 64-bit `long`.  The word of
a descriptor has 64 bits, but what is shifted is a constant of 32: a shift by
32 or more is undefined in C, `1 << 31` is negative and its sign is extended
into the word, and the complement of an `unsigned int` has no bits there.
`FX_SETBITMASK` and `FD_SET_BITMASK` are read as `FD_SETBITMASK`.

`exactRun_iff` says which sequences of operations treat the bits as a set.
-/

set_option autoImplicit false

namespace Nolibc.Types

open Nolibc.Foundation.WordSet

/-! ## The macros -/

/-- The bits of a word, by which a descriptor is divided. -/
def FD_SETIDXMASK : Nat := 8 * 8

/-- The mask for the bit of a descriptor in its word. -/
def FD_SETBITMASK : Nat := 8 * 8 - 1

/-- The number of words for `FD_SETSIZE` descriptors. -/
def wordCount (setsize : Nat) : Nat :=
  (setsize + FD_SETBITMASK) / FD_SETIDXMASK

/-- `fd_set` -/
abbrev FdSet (setsize : Nat) := Fin (wordCount setsize) → BitVec 64

/-- `1 << bit` in 32 bits; nothing where C does not define it. -/
def shiftOne (bit : Nat) : Option (BitVec 32) :=
  if bit < 32 then some ((1 : BitVec 32) <<< bit) else none

variable {setsize : Nat}

/-- The word of a descriptor, when the array has it, and its bit there. -/
def locate (fd : Int) : Option (Fin (wordCount setsize) × Nat) :=
  if inside : fd.toNat / FD_SETIDXMASK < wordCount setsize then
    some (⟨fd.toNat / FD_SETIDXMASK, inside⟩, fd.toNat &&& FD_SETBITMASK)
  else
    none

/-- `FD_CLR`: the complement is an `unsigned int`, and is zero extended. -/
def FD_CLR (fd : Int) (set : FdSet setsize) : Option (FdSet setsize) :=
  if fd ≥ 0 then do
    let (index, bit) ← locate fd
    let shifted ← shiftOne bit
    return Function.update set index
      (set index &&& (~~~shifted).setWidth 64)
  else
    return set

/-- `FD_SET`: the shifted 1 is an `int`, and is sign extended. -/
def FD_SET (fd : Int) (set : FdSet setsize) : Option (FdSet setsize) :=
  if fd ≥ 0 then do
    let (index, bit) ← locate fd
    let shifted ← shiftOne bit
    return Function.update set index (set index ||| shifted.signExtend 64)
  else
    return set

/-- `FD_ISSET`: the shifted 1 is an `unsigned int`, and is zero extended. -/
def FD_ISSET (fd : Int) (set : FdSet setsize) : Option Bool :=
  if fd ≥ 0 then do
    let (index, bit) ← locate fd
    let shifted ← shiftOne bit
    return decide (set index &&& shifted.setWidth 64 ≠ 0)
  else
    return false

/-- `FD_ZERO`: the loop over the words. -/
def FD_ZERO (set : FdSet setsize) : FdSet setsize :=
  (List.finRange (wordCount setsize)).foldl
    (fun set index => Function.update set index 0) set

/-! ## Bits of a shifted constant -/

section Bits

variable {shift bit : Nat} (small : shift < 32) (inside : bit < 64)

include small

theorem shifted_bit (bit : Nat) :
    ((1 : BitVec 32) <<< shift).getLsbD bit = decide (bit = shift) := by
  have power : (1 : BitVec 32) <<< shift = BitVec.twoPow 32 shift := rfl
  rw [power, BitVec.getLsbD_twoPow, decide_eq_true small, Bool.true_and]
  exact decide_eq_decide.mpr eq_comm

include inside

/-- The mask of `FD_SET`: bit 31 brings the sign with it. -/
theorem signExtend_bit :
    (((1 : BitVec 32) <<< shift).signExtend 64).getLsbD bit =
      decide (bit = shift ∨ shift = 31 ∧ 32 ≤ bit) := by
  rw [BitVec.getLsbD_signExtend, decide_eq_true inside, Bool.true_and,
    BitVec.msb_eq_getLsbD_last, shifted_bit small, shifted_bit small]
  split
  · apply decide_eq_decide.mpr
    omega
  · apply decide_eq_decide.mpr
    omega

/-- The mask of `FD_CLR` keeps nothing above bit 31. -/
theorem complement_bit :
    ((~~~((1 : BitVec 32) <<< shift)).setWidth 64).getLsbD bit =
      decide (bit < 32 ∧ bit ≠ shift) := by
  rw [BitVec.getLsbD_setWidth, BitVec.getLsbD_not, shifted_bit small,
    decide_eq_true inside]
  simp

theorem setWidth_bit :
    (((1 : BitVec 32) <<< shift).setWidth 64).getLsbD bit =
      decide (bit = shift) := by
  rw [BitVec.getLsbD_setWidth, shifted_bit small, decide_eq_true inside,
    Bool.true_and]

end Bits

/-- A word meets the mask of `FD_ISSET` when it has the bit. -/
theorem and_setWidth_ne_zero_iff
    {shift : Nat} (small : shift < 32) (word : BitVec 64) :
    word &&& ((1 : BitVec 32) <<< shift).setWidth 64 ≠ 0 ↔
      word.getLsbD shift = true := by
  constructor
  · intro nonzero
    by_contra clear
    apply nonzero
    apply BitVec.eq_of_getLsbD_eq
    intro bit inside
    rw [BitVec.getLsbD_and, setWidth_bit small inside]
    by_cases same : bit = shift
    · simp [same, Bool.eq_false_iff.mpr clear]
    · simp [same]
  · intro found zero
    have bit := congrArg (·.getLsbD shift) zero
    simp only [BitVec.getLsbD_and,
      setWidth_bit small (Nat.lt_trans small (by decide)), found] at bit
    simp at bit

/-! ## The operations on the bits -/

section Operations

variable (fd : Fin setsize) (set : FdSet setsize)

theorem word_lt : fd.val / 64 < wordCount setsize := by
  have below := fd.isLt
  have size : wordCount setsize = (setsize + 63) / 64 := rfl
  omega

/-- The word of a descriptor. -/
def wordOf : Fin (wordCount setsize) :=
  ⟨fd.val / 64, word_lt fd⟩

theorem locate_eq :
    locate (fd.val : Int) = some (wordOf fd, fd.val % 64) := by
  have mask : fd.val &&& FD_SETBITMASK = fd.val % 64 :=
    Nat.and_two_pow_sub_one_eq_mod fd.val 6
  have inside : (fd.val : Int).toNat / FD_SETIDXMASK < wordCount setsize :=
    word_lt fd
  rw [locate, dif_pos inside]
  exact congrArg (fun bit => some (wordOf fd, bit)) mask

/-- What the three macros have in common: the word, the bit and the shift. -/
theorem located_shift
    {Result : Type}
    (combine : Fin (wordCount setsize) → BitVec 32 → Result) :
    (do
      let (index, bit) ← locate fd.val
      let shifted ← shiftOne bit
      return combine index shifted) =
      if fd.val % 64 < 32 then
        some (combine (wordOf fd) ((1 : BitVec 32) <<< (fd.val % 64)))
      else
        none := by
  rw [locate_eq]
  by_cases low : fd.val % 64 < 32
  · rw [if_pos low]
    simp only [shiftOne, if_pos low, bind, Option.bind, pure]
  · rw [if_neg low]
    simp only [shiftOne, if_neg low, bind, Option.bind]

theorem FD_SET_eq :
    FD_SET (fd.val : Int) set =
      if fd.val % 64 < 32 then
        some (Function.update set (wordOf fd)
          (set (wordOf fd) |||
            ((1 : BitVec 32) <<< (fd.val % 64)).signExtend 64))
      else
        none := by
  rw [FD_SET, if_pos (Int.natCast_nonneg _)]
  exact located_shift fd fun index shifted =>
    Function.update set index (set index ||| shifted.signExtend 64)

theorem FD_CLR_eq :
    FD_CLR (fd.val : Int) set =
      if fd.val % 64 < 32 then
        some (Function.update set (wordOf fd)
          (set (wordOf fd) &&&
            (~~~((1 : BitVec 32) <<< (fd.val % 64))).setWidth 64))
      else
        none := by
  rw [FD_CLR, if_pos (Int.natCast_nonneg _)]
  exact located_shift fd fun index shifted =>
    Function.update set index (set index &&& (~~~shifted).setWidth 64)

theorem FD_ISSET_eq :
    FD_ISSET (fd.val : Int) set =
      if fd.val % 64 < 32 then
        some (decide ((set (wordOf fd)).getLsbD (fd.val % 64) = true))
      else
        none := by
  rw [FD_ISSET, if_pos (Int.natCast_nonneg _)]
  refine (located_shift fd fun index shifted =>
    decide (set index &&& shifted.setWidth 64 ≠ 0)).trans ?_
  split
  case isTrue low =>
    exact congrArg some
      (decide_eq_decide.mpr (and_setWidth_ne_zero_iff low (set (wordOf fd))))
  case isFalse high => rfl

theorem FD_ZERO_eq : FD_ZERO set = fun _ => 0 := by
  have cleared (list : List (Fin (wordCount setsize)))
      (set : FdSet setsize) (index : Fin (wordCount setsize)) :
      list.foldl (fun set index => Function.update set index 0) set index =
        if index ∈ list then 0 else set index := by
    induction list generalizing set with
    | nil => simp
    | cons first rest induction =>
        rw [List.foldl_cons, induction]
        by_cases later : index ∈ rest
        · simp [later]
        · by_cases same : index = first
          · simp [same]
          · simp [later, same]
  funext index
  rw [FD_ZERO, cleared, if_pos (List.mem_finRange index)]

end Operations

/-! ## One operation -/

/-- Whether all descriptors of a word above bit 31 are members, or none is. -/
def UpperAll (set : Set Nat) (fd : Nat) (member : Bool) : Prop :=
  ∀ other, other / 64 = fd / 64 → 32 ≤ other % 64 →
    (other ∈ set ↔ member = true)

section Steps

variable (fd : Fin setsize) (set : FdSet setsize)

theorem upperAll_iff (member : Bool) :
    UpperAll (members set) fd.val member ↔
      ∀ bit, bit < 64 → 32 ≤ bit →
        (set (wordOf fd)).getLsbD bit = member := by
  constructor
  · intro all bit inside high
    have word : ((wordOf fd).val * 64 + bit) / 64 = fd.val / 64 := by
      have value : (wordOf fd).val = fd.val / 64 := rfl
      omega
    have place : 32 ≤ ((wordOf fd).val * 64 + bit) % 64 := by omega
    exact Bool.eq_iff_iff.mpr
      ((mem_members_word set (wordOf fd) inside).symm.trans
        (all _ word place))
  · intro bits other word high
    have inside := Nat.mod_lt other (by decide : 0 < 64)
    have whole : (wordOf fd).val * 64 + other % 64 = other := by
      have value : (wordOf fd).val = other / 64 := word.symm
      omega
    have member_iff := mem_members_word set (wordOf fd) inside
    rw [whole, bits _ inside high] at member_iff
    exact member_iff

/-- What is asked of the new word of a descriptor. -/
theorem update_exact_iff (word : BitVec 64) (member : Bool) :
    (∃ after, some (Function.update set (wordOf fd) word) = some after ∧
        members after = decided (members set) fd.val member) ↔
      ∀ bit, bit < 64 →
        word.getLsbD bit =
          if bit = fd.val % 64 then
            member
          else
            (set (wordOf fd)).getLsbD bit := by
  have bitwise := members_update_iff (by decide : 0 < 64) set (word_lt fd)
    word member
  refine Iff.trans ?_ bitwise
  constructor
  · rintro ⟨after, same, exact⟩
    rw [Option.some.injEq] at same
    rw [← same] at exact
    exact exact
  · intro exact
    exact ⟨_, rfl, exact⟩

/-- `FD_SET` inserts its descriptor and nothing else. -/
theorem FD_SET_exact_iff :
    (∃ after, FD_SET (fd.val : Int) set = some after ∧
        members after = insert fd.val (members set)) ↔
      fd.val % 64 ≤ 30 ∨
        fd.val % 64 = 31 ∧ UpperAll (members set) fd.val true := by
  rw [FD_SET_eq, ← decided_true, upperAll_iff]
  split
  case isFalse high =>
    constructor
    · rintro ⟨after, impossible, _⟩
      cases impossible
    · omega
  case isTrue low =>
    rw [update_exact_iff]
    constructor
    · intro bits
      by_cases sign : fd.val % 64 = 31
      · refine Or.inr ⟨sign, ?_⟩
        intro bit inside high
        have equal := bits bit inside
        rw [BitVec.getLsbD_or, signExtend_bit low inside,
          decide_eq_true (Or.inr ⟨sign, high⟩), Bool.or_true,
          if_neg (by omega)] at equal
        exact equal.symm
      · omega
    · intro harmless bit inside
      rw [BitVec.getLsbD_or, signExtend_bit low inside]
      by_cases same : bit = fd.val % 64
      · rw [decide_eq_true (Or.inl same), Bool.or_true, if_pos same]
      · rw [if_neg same]
        by_cases high : 32 ≤ bit ∧ fd.val % 64 = 31
        · rcases harmless with small | ⟨_, full⟩
          · omega
          · rw [full bit inside high.1, Bool.true_or]
        · rw [decide_eq_false (by omega), Bool.or_false]

/-- `FD_CLR` removes its descriptor and nothing else. -/
theorem FD_CLR_exact_iff :
    (∃ after, FD_CLR (fd.val : Int) set = some after ∧
        members after = members set \ {fd.val}) ↔
      fd.val % 64 < 32 ∧ UpperAll (members set) fd.val false := by
  rw [FD_CLR_eq, ← decided_false, upperAll_iff]
  split
  case isFalse high =>
    constructor
    · rintro ⟨after, impossible, _⟩
      cases impossible
    · rintro ⟨low, _⟩
      exact absurd low high
  case isTrue low =>
    rw [update_exact_iff, and_iff_right low]
    constructor
    · intro bits bit inside high
      have equal := bits bit inside
      rw [BitVec.getLsbD_and, complement_bit low inside,
        decide_eq_false (by omega), Bool.and_false,
        if_neg (by omega)] at equal
      exact equal.symm
    · intro empty bit inside
      rw [BitVec.getLsbD_and, complement_bit low inside]
      by_cases same : bit = fd.val % 64
      · rw [decide_eq_false (fun both => both.2 same), Bool.and_false,
          if_pos same]
      · rw [if_neg same]
        by_cases high : 32 ≤ bit
        · rw [empty bit inside high, Bool.false_and]
        · rw [decide_eq_true (by omega), Bool.and_true]

/-- `FD_ISSET` tells whether its descriptor is a member. -/
theorem FD_ISSET_exact_iff :
    (∃ found, FD_ISSET (fd.val : Int) set = some found ∧
        (found = true ↔ fd.val ∈ members set)) ↔
      fd.val % 64 < 32 := by
  have inside := Nat.mod_lt fd.val (by decide : 0 < 64)
  have member := mem_members_word set (wordOf fd) inside
  have whole : (wordOf fd).val * 64 + fd.val % 64 = fd.val := by
    have value : (wordOf fd).val = fd.val / 64 := rfl
    omega
  rw [whole] at member
  rw [FD_ISSET_eq]
  split
  case isTrue low =>
    refine ⟨fun _ => low, fun _ => ⟨_, rfl, ?_⟩⟩
    rw [decide_eq_true_eq]
    exact member.symm
  case isFalse high =>
    constructor
    · rintro ⟨found, impossible, _⟩
      cases impossible
    · intro low
      exact absurd low high

end Steps

/-! ## Sequences of operations -/

/-- The macros, on descriptors that a set has. -/
inductive Operation (setsize : Nat) where
  | zero
  | set (fd : Fin setsize)
  | clr (fd : Fin setsize)
  | isset (fd : Fin setsize)
  deriving DecidableEq, Repr

/-- Every operation of a sequence does to the bits what it should to a set. -/
def ExactRun : FdSet setsize → List (Operation setsize) → Prop
  | _, [] => True
  | set, .zero :: rest =>
      members (FD_ZERO set) = ∅ ∧ ExactRun (FD_ZERO set) rest
  | set, .set fd :: rest =>
      ∃ after, FD_SET (fd.val : Int) set = some after ∧
        members after = insert fd.val (members set) ∧ ExactRun after rest
  | set, .clr fd :: rest =>
      ∃ after, FD_CLR (fd.val : Int) set = some after ∧
        members after = members set \ {fd.val} ∧ ExactRun after rest
  | set, .isset fd :: rest =>
      (∃ found, FD_ISSET (fd.val : Int) set = some found ∧
        (found = true ↔ fd.val ∈ members set)) ∧ ExactRun set rest

/-- The descriptors of a sequence are in places where no harm is done. -/
def Harmless : Set Nat → List (Operation setsize) → Prop
  | _, [] => True
  | _, .zero :: rest => Harmless ∅ rest
  | set, .set fd :: rest =>
      (fd.val % 64 ≤ 30 ∨ fd.val % 64 = 31 ∧ UpperAll set fd.val true) ∧
        Harmless (insert fd.val set) rest
  | set, .clr fd :: rest =>
      (fd.val % 64 < 32 ∧ UpperAll set fd.val false) ∧
        Harmless (set \ {fd.val}) rest
  | set, .isset fd :: rest => fd.val % 64 < 32 ∧ Harmless set rest

/--
The bits are treated as a set exactly when every descriptor is in the lower
half of its word, a cleared one has nothing in the upper half of its word, and
bit 31 is set only where the upper half is full.
-/
theorem exactRun_iff
    (set : FdSet setsize) (operations : List (Operation setsize)) :
    ExactRun set operations ↔ Harmless (members set) operations := by
  induction operations generalizing set with
  | nil => exact Iff.rfl
  | cons operation rest induction =>
      have step (outcome : Option (FdSet setsize)) (wanted : Set Nat) :
          (∃ after, outcome = some after ∧ members after = wanted ∧
            ExactRun after rest) ↔
            (∃ after, outcome = some after ∧ members after = wanted) ∧
              Harmless wanted rest := by
        constructor
        · rintro ⟨after, ran, exact, later⟩
          rw [induction, exact] at later
          exact ⟨⟨after, ran, exact⟩, later⟩
        · rintro ⟨⟨after, ran, exact⟩, later⟩
          rw [← exact, ← induction] at later
          exact ⟨after, ran, exact, later⟩
      cases operation with
      | zero =>
          have empty : members (FD_ZERO set) = ∅ := by
            rw [FD_ZERO_eq]
            exact members_zero
          rw [ExactRun, Harmless, induction, empty]
          exact and_iff_right rfl
      | set fd =>
          rw [Harmless, ← FD_SET_exact_iff, ExactRun]
          exact step _ _
      | clr fd =>
          rw [Harmless, ← FD_CLR_exact_iff, ExactRun]
          exact step _ _
      | isset fd =>
          rw [Harmless, ← FD_ISSET_exact_iff fd set, ExactRun, induction]

/-- A set of which descriptor 40 is the only member. -/
def onlyForty : FdSet 256 := fun index =>
  if index.val = 0 then (1 : BitVec 64) <<< 40 else 0

/-- `FD_CLR(0, ..)` removes descriptor 40 as well. -/
theorem FD_CLR_removes_others : ¬ ExactRun onlyForty [.clr 0] := by
  rw [ExactRun]
  rintro ⟨after, ran, exact, _⟩
  have harmless := (FD_CLR_exact_iff (0 : Fin 256) onlyForty).mp
    ⟨after, ran, exact⟩
  have forty : 40 ∈ members onlyForty :=
    ⟨(by decide : 40 / 64 < wordCount 256), by decide⟩
  exact Bool.false_ne_true
    ((harmless.2 40 (by decide) (by decide)).mp forty)

end Nolibc.Types

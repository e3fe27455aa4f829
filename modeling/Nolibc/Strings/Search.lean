import Mathlib.Order.Bounds.Basic
import Nolibc.Strings.Compare

/-!
# Searching strings

`strchr`, `strrchr` and `strstr` of `string.h`.  A search for a byte or for a
string has a set of places at which it is, and the functions return the first
or the last of them.

The loops end at the NUL before they look at it, and an empty needle is turned
away, so that neither is ever found: `terminator_not_found`.
-/

set_option autoImplicit false

namespace Nolibc.Strings.Search

open Nolibc.Machine
open Nolibc.Foundation
open Nolibc.Strings.Compare

/-! ## The functions -/

/-- `(char)c` -/
def charOf (c : Int) : Byte :=
  UInt8.ofInt c

/-- `for (len = 0; str[len]; len++)` -/
def strlenTurn (str : Pointer) (len : Nat) : Except Fault (Nat ⊕ Nat) := do
  let c ← (str.add len).load
  if c ≠ 0 then pure (.inl (len + 1)) else pure (.inr len)

/-- `strlen`. -/
def strlen (str : Pointer) : Except Fault Nat :=
  Loop.run Fault.diverged (strlenTurn str) (str.string.length + 1) 0

/-- One turn of the loop of `strchr`, which the NUL ends. -/
def strchrTurn (c : Int) (s : Pointer) :
    Except Fault (Pointer ⊕ Option Pointer) := do
  let byte ← s.load
  if byte ≠ 0 then
    if byte = charOf c then
      pure (.inr (some s))
    else
      pure (.inl (s.add 1))
  else
    pure (.inr none)

/-- `strchr`. -/
def strchr (s : Pointer) (c : Int) : Except Fault (Option Pointer) :=
  Loop.run Fault.diverged (strchrTurn c) (s.string.length + 1) s

/-- One turn of the loop of `strrchr`, with what was found last. -/
def strrchrTurn (c : Int) :
    Pointer × Option Pointer →
      Except Fault ((Pointer × Option Pointer) ⊕ Option Pointer)
  | (s, ret) => do
      let byte ← s.load
      if byte ≠ 0 then
        let ret := if byte = charOf c then some s else ret
        pure (.inl (s.add 1, ret))
      else
        pure (.inr ret)

/-- `strrchr`. -/
def strrchr (s : Pointer) (c : Int) : Except Fault (Option Pointer) :=
  Loop.run Fault.diverged (strrchrTurn c) (s.string.length + 1) (s, none)

/--
The loop of `strstr`.  The needle is not empty there, so that the length does
not wrap.
-/
def strstrTurn (needle : Pointer) (lenNeedle : Nat) :
    Pointer × Nat → Except Fault ((Pointer × Nat) ⊕ Option Pointer)
  | (haystack, lenHaystack) => do
      if lenNeedle ≤ lenHaystack then
        let c ← memcmp haystack.reader needle.reader lenNeedle
        if c = 0 then
          pure (.inr (some haystack))
        else
          pure (.inl (haystack.add 1, lenHaystack - 1))
      else
        pure (.inr none)

/-- `strstr`. -/
def strstr (haystack needle : Pointer) : Except Fault (Option Pointer) := do
  let lenNeedle ← strlen needle
  if lenNeedle = 0 then
    pure none
  else
    let lenHaystack ← strlen haystack
    Loop.run Fault.diverged (strstrTurn needle lenNeedle)
      (haystack.string.length + 1) (haystack, lenHaystack)

/-! ## Places -/

/--
A search from a pointer finds the one of some places that is asked for, and
`NULL` when there is no place.
-/
def Finds (asked : Set Nat → Nat → Prop) (start : Pointer)
    (places : Set Nat) : Option Pointer → Prop
  | some place => ∃ index, asked places index ∧ place = start.add index
  | none => places = ∅

/-- The first of some places behind a pointer. -/
abbrev FirstOf := Finds IsLeast

/-- The last of them. -/
abbrev LastOf := Finds IsGreatest

section Places

variable {start : Pointer} {places : Set Nat} {result other : Option Pointer}

theorem Finds.none_iff
    {asked : Set Nat → Nat → Prop} (search : Finds asked start places result)
    (member : ∀ {index}, asked places index → index ∈ places) :
    result = none ↔ places = ∅ := by
  cases result with
  | none => exact iff_of_true rfl search
  | some place =>
      rcases search with ⟨index, found, _⟩
      exact iff_of_false (Option.some_ne_none _)
        (Set.nonempty_iff_ne_empty.mp ⟨index, member found⟩)

theorem FirstOf.unique
    (first : FirstOf start places result)
    (second : FirstOf start places other) : result = other := by
  have both : result = none ↔ other = none :=
    (first.none_iff And.left).trans (second.none_iff And.left).symm
  cases result with
  | none => exact (both.mp rfl).symm
  | some place =>
      cases other with
      | none => exact both.mpr rfl
      | some place =>
          rcases first with ⟨index, least, rfl⟩
          rcases second with ⟨_, least', rfl⟩
          rw [least.unique least']

/-- The first place is here. -/
theorem FirstOf.here (member : 0 ∈ places) :
    FirstOf start places (some start) :=
  ⟨0, ⟨member, fun _ _ => Nat.zero_le _⟩, rfl⟩

/-- No place is here, and those behind are one byte on. -/
theorem FirstOf.step
    (notHere : 0 ∉ places)
    (behind : FirstOf (start.add 1) {index | index + 1 ∈ places} result) :
    FirstOf start places result := by
  cases result with
  | none =>
      apply Set.eq_empty_of_forall_notMem
      intro index member
      cases index with
      | zero => exact notHere member
      | succ index =>
          exact Set.notMem_empty index (behind ▸ member)
  | some place =>
      rcases behind with ⟨index, least, rfl⟩
      refine ⟨index + 1, ⟨least.1, ?_⟩, ?_⟩
      · intro other member
        cases other with
        | zero => exact absurd member notHere
        | succ other => exact Nat.succ_le_succ (least.2 member)
      · simp only [Pointer.add, Nat.add_assoc, Nat.add_comm 1]

/-- The last place is behind, or else it is here. -/
theorem LastOf.step
    {here : Option Pointer}
    (atStart : (0 ∈ places ∧ here = some start) ∨ (0 ∉ places ∧ here = none))
    (behind : LastOf (start.add 1) {index | index + 1 ∈ places} result) :
    LastOf start places (result.or here) := by
  cases result with
  | none =>
      have only {index : Nat} (member : index ∈ places) : index = 0 := by
        cases index with
        | zero => rfl
        | succ index =>
            exact absurd (behind ▸ member) (Set.notMem_empty index)
      rw [Option.none_or]
      rcases atStart with ⟨member, rfl⟩ | ⟨notHere, rfl⟩
      · exact ⟨0, ⟨member, fun _ other => Nat.le_of_eq (only other)⟩, rfl⟩
      · exact Set.eq_empty_of_forall_notMem fun index member =>
          notHere (only member ▸ member)
  | some place =>
      rcases behind with ⟨index, greatest, rfl⟩
      refine ⟨index + 1, ⟨greatest.1, ?_⟩, ?_⟩
      · intro other member
        cases other with
        | zero => exact Nat.zero_le _
        | succ other => exact Nat.succ_le_succ (greatest.2 member)
      · simp only [Pointer.add, Nat.add_assoc, Nat.add_comm 1]

end Places

/-- The indices at which a byte is. -/
def byteAt (byte : Byte) (text : List Byte) : Set Nat :=
  {index | text[index]? = some byte}

/-- The indices at which a string begins. -/
def occursAt (needle text : List Byte) : Set Nat :=
  {index | needle <+: text.drop index}

/-- A string of one byte is where the byte is. -/
theorem occursAt_singleton (byte : Byte) (text : List Byte) :
    occursAt [byte] text = byteAt byte text := by
  ext index
  change [byte] <+: text.drop index ↔ text[index]? = some byte
  rw [← List.head?_drop]
  cases text.drop index with
  | nil => simp
  | cons first rest =>
      rw [List.cons_prefix_cons, List.head?_cons, Option.some.injEq,
        and_iff_left List.nil_prefix, eq_comm]

theorem byteAt_nil (byte : Byte) : byteAt byte [] = ∅ :=
  Set.eq_empty_of_forall_notMem fun _ member => by cases member

theorem zero_mem_byteAt (byte first : Byte) (rest : List Byte) :
    0 ∈ byteAt byte (first :: rest) ↔ first = byte :=
  Option.some.injEq first byte ▸ Iff.rfl

/-! ## Searching for a byte -/

theorem strlen_eq {str : Pointer} {text : List Byte}
    (points : str.Points text) : strlen str = .ok text.length := by
  refine Loop.run_scan _ (fun front _ => front.length) ?_ ?_
    (Nat.lt_succ_of_le points.length_le)
  · intro front rest c split
    have here : (str.add front.length).Points (c :: rest) :=
      Pointer.Points.add (split ▸ points)
    have nonzero : c ≠ 0 := here.ne_zero
    rw [strlenTurn, here.load, List.length_append, List.length_singleton]
    exact if_pos nonzero
  · have here : (str.add text.length).Points [] :=
      Pointer.Points.add (by rwa [List.append_nil])
    rw [strlenTurn, here.load]
    rfl

/-- The loop of `strchr` ends at the first place of the byte. -/
theorem strchr_loop
    (c : Int) {s : Pointer} {text : List Byte} (points : s.Points text)
    {turns : Nat} (enough : text.length < turns) :
    ∃ result,
      Loop.run Fault.diverged (strchrTurn c) turns s = .ok result ∧
        FirstOf s (byteAt (charOf c) text) result := by
  induction turns generalizing s text with
  | zero => exact absurd enough (Nat.not_lt_zero _)
  | succ turns induction =>
      cases text with
      | nil =>
          refine ⟨none, Loop.run_exit ?_ turns, byteAt_nil _⟩
          rw [strchrTurn, points.load]
          rfl
      | cons byte rest =>
          have loads : s.load = .ok byte := points.load
          by_cases found : byte = charOf c
          · refine ⟨some s, Loop.run_exit ?_ turns,
              FirstOf.here ((zero_mem_byteAt _ _ _).mpr found)⟩
            rw [strchrTurn, loads]
            exact (if_pos points.ne_zero).trans (if_pos found)
          · have turn : strchrTurn c s = .ok (.inl (s.add 1)) := by
              rw [strchrTurn, loads]
              exact (if_pos points.ne_zero).trans (if_neg found)
            rcases induction points.step (Nat.lt_of_succ_lt_succ enough) with
              ⟨result, ran, first⟩
            refine ⟨result, (Loop.run_continue turn turns).trans ran, ?_⟩
            exact FirstOf.step ((zero_mem_byteAt _ _ _).not.mpr found) first

/-- The loop of `strrchr` keeps the last place of the byte. -/
theorem strrchr_loop
    (c : Int) {s : Pointer} {text : List Byte} (points : s.Points text)
    (ret : Option Pointer) {turns : Nat} (enough : text.length < turns) :
    ∃ result,
      Loop.run Fault.diverged (strrchrTurn c) turns (s, ret) =
          .ok (result.or ret) ∧
        LastOf s (byteAt (charOf c) text) result := by
  induction turns generalizing s text ret with
  | zero => exact absurd enough (Nat.not_lt_zero _)
  | succ turns induction =>
      cases text with
      | nil =>
          refine ⟨none, Loop.run_exit ?_ turns, byteAt_nil _⟩
          rw [strrchrTurn, points.load]
          rfl
      | cons byte rest =>
          have loads : s.load = .ok byte := points.load
          have kept : (if byte = charOf c then some s else ret) =
              (if byte = charOf c then some s else none).or ret := by
            split_ifs <;> rfl
          have turn : strrchrTurn c (s, ret) =
              .ok (.inl (s.add 1,
                (if byte = charOf c then some s else none).or ret)) := by
            rw [strrchrTurn, loads, ← kept]
            exact if_pos points.ne_zero
          rcases induction points.step
              ((if byte = charOf c then some s else none).or ret)
              (Nat.lt_of_succ_lt_succ enough) with ⟨result, ran, last⟩
          refine ⟨result.or (if byte = charOf c then some s else none),
            ?_, LastOf.step ?_ last⟩
          · rw [Loop.run_continue turn, ran, Option.or_assoc]
          · by_cases found : byte = charOf c
            · exact Or.inl ⟨(zero_mem_byteAt _ _ _).mpr found, if_pos found⟩
            · exact Or.inr
                ⟨(zero_mem_byteAt _ _ _).not.mpr found, if_neg found⟩

section Bytes

variable {s : Pointer} {text : List Byte} (points : s.Points text) (c : Int)

include points

theorem strchr_first :
    ∃ result, strchr s c = .ok result ∧
      FirstOf s (byteAt (charOf c) text) result :=
  strchr_loop c points (Nat.lt_succ_of_le points.length_le)

theorem strrchr_last :
    ∃ result, strrchr s c = .ok result ∧
      LastOf s (byteAt (charOf c) text) result := by
  rcases strrchr_loop c points none
    (Nat.lt_succ_of_le points.length_le) with ⟨result, ran, last⟩
  exact ⟨result, by rwa [Option.or_none] at ran, last⟩

end Bytes

/-! ## Searching for a string -/

section Strings

variable {haystack needle : Pointer} {text pattern : List Byte}
  (subject : haystack.Points text) (search : needle.Points pattern)

include subject search

/-- What `memcmp` tells of a place where the needle has room. -/
theorem memcmp_place (room : pattern.length ≤ text.length) :
    ∃ c, memcmp haystack.reader needle.reader pattern.length = .ok c ∧
      (c = 0 ↔ pattern <+: text) := by
  have taken : (text.take pattern.length).length = pattern.length :=
    List.length_take_of_le room
  have compared := memcmpFrom_eq (subject.reads_take pattern.length)
    search.reads.front taken
  rw [taken] at compared
  exact ⟨_, compared,
    difference_take_eq_zero_iff subject.noNul search.noNul⟩

/-- The loop of `strstr` ends at the first place of the needle. -/
theorem strstr_loop
    (nonempty : pattern ≠ []) {turns : Nat} (enough : text.length < turns) :
    ∃ result,
      Loop.run Fault.diverged (strstrTurn needle pattern.length) turns
          (haystack, text.length) = .ok result ∧
        FirstOf haystack (occursAt pattern text) result := by
  induction turns generalizing haystack text with
  | zero => exact absurd enough (Nat.not_lt_zero _)
  | succ turns induction =>
      by_cases room : pattern.length ≤ text.length
      · rcases memcmp_place subject search room with ⟨c, compared, zero⟩
        cases text with
        | nil =>
            exact absurd (List.length_eq_zero_iff.mp (Nat.le_zero.mp room))
              nonempty
        | cons byte rest =>
            by_cases found : c = 0
            · refine ⟨some haystack, Loop.run_exit ?_ turns,
                FirstOf.here (zero.mp found)⟩
              simp only [strstrTurn, if_pos room, compared, bind,
                Except.bind, if_pos found]
              rfl
            · have turn : strstrTurn needle pattern.length
                  (haystack, (byte :: rest).length) =
                    .ok (.inl (haystack.add 1, rest.length)) := by
                simp only [strstrTurn, if_pos room, compared, bind,
                  Except.bind, if_neg found]
                rfl
              rcases induction subject.step
                (Nat.lt_of_succ_lt_succ enough) with ⟨result, ran, first⟩
              refine ⟨result, (Loop.run_continue turn turns).trans ran, ?_⟩
              exact FirstOf.step (zero.not.mp found) first
      · refine ⟨none, Loop.run_exit ?_ turns, ?_⟩
        · simp only [strstrTurn, if_neg room]
          rfl
        · apply Set.eq_empty_of_forall_notMem
          intro index occurs
          have short := List.IsPrefix.length_le occurs
          rw [List.length_drop] at short
          omega

/-- A needle that is not empty is searched from the start. -/
theorem strstr_run (nonempty : pattern ≠ []) :
    strstr haystack needle =
      Loop.run Fault.diverged (strstrTurn needle pattern.length)
        (haystack.string.length + 1) (haystack, text.length) := by
  have positive : ¬ pattern.length = 0 :=
    fun empty => nonempty (List.length_eq_zero_iff.mp empty)
  rw [strstr, strlen_eq search, strlen_eq subject]
  simp only [bind, Except.bind, if_neg positive]

theorem strstr_first (nonempty : pattern ≠ []) :
    ∃ result, strstr haystack needle = .ok result ∧
      FirstOf haystack (occursAt pattern text) result := by
  rw [strstr_run subject search nonempty]
  exact strstr_loop subject search nonempty
    (Nat.lt_succ_of_le subject.length_le)

end Strings

/-! ## Where `strstr` compares -/

/-- The first bytes that a pointer reads; none is read behind them. -/
def within (reader : Reader) (count : Nat) : Reader :=
  fun index => if index < count then reader index else .error .outOfBounds

/-- A turn goes on at the next byte, when the needle had room. -/
theorem strstrTurn_continues
    {needle : Pointer} {lenNeedle : Nat} {state next : Pointer × Nat}
    (turn : strstrTurn needle lenNeedle state = .ok (.inl next)) :
    lenNeedle ≤ state.2 ∧ next = (state.1.add 1, state.2 - 1) := by
  rcases state with ⟨haystack, lenHaystack⟩
  by_cases room : lenNeedle ≤ lenHaystack
  · cases compared : memcmp haystack.reader needle.reader lenNeedle with
    | error fault =>
        simp [strstrTurn, room, compared, bind, Except.bind] at turn
    | ok c =>
        by_cases found : c = 0
        · simp [strstrTurn, room, compared, found, bind, Except.bind, pure,
            Except.pure] at turn
        · refine ⟨room, ?_⟩
          simp only [strstrTurn, if_pos room, compared, bind, Except.bind,
            if_neg found, pure, Except.pure, Except.ok.injEq,
            Sum.inl.injEq] at turn
          exact turn.symm
  · simp [strstrTurn, room, pure, Except.pure] at turn

/-- The loop is at a place in the haystack, with what is left of it. -/
def At (string : CString) (state : Pointer × Nat) : Prop :=
  state.1.string = string ∧ ∃ text, state.1.Points text ∧
    text.length = state.2

/--
Wherever the loop comes to and compares, the needle ends in the haystack, and
no byte behind that is read.
-/
theorem strstr_inside
    {haystack needle place : Pointer} {text : List Byte}
    (subject : haystack.Points text) {lenNeedle left : Nat}
    (positive : 0 < lenNeedle)
    (reaches : Loop.Reaches (strstrTurn needle lenNeedle)
      (haystack, text.length) (place, left))
    (room : lenNeedle ≤ left) :
    place.offset + lenNeedle ≤ haystack.string.length ∧
      memcmp
          (within place.reader (haystack.string.length - place.offset))
          needle.reader lenNeedle =
        memcmp place.reader needle.reader lenNeedle := by
  have comes : At haystack.string (place, left) := by
    refine Loop.Reaches.invariant reaches ?_ ⟨rfl, text, subject, rfl⟩
    rintro ⟨place, left⟩ next ⟨same, rest, points, length⟩ turn
    rcases strstrTurn_continues turn with ⟨room, rfl⟩
    refine ⟨same, rest.drop 1, points.drop (by omega), ?_⟩
    rw [List.length_drop, length]
  rcases comes with ⟨same, rest, ⟨front, split, offset⟩, length⟩
  have total : haystack.string.length = place.offset + left := by
    rw [← same, CString.length, split, List.length_append, offset, length]
  refine ⟨by omega, ?_⟩
  refine memcmpFrom_congr ?_ (Nat.zero_add _) Comes.zero
  intro index inside _
  exact ⟨if_pos (by omega), rfl⟩

/-! ## The searches -/

/-- The string of one character. -/
def oneChar (c : Int) (nonzero : charOf c ≠ 0) : CString :=
  ⟨[charOf c], fun member => nonzero (List.mem_singleton.mp member).symm⟩

/--
`strstr` finds the first place of a needle, and compares inside the haystack
only.  `strchr` finds what `strstr` does for the string of one character, and
`strrchr` the last place of it.
-/
theorem searches_find
    (s needle : CString) (nonempty : needle.length ≠ 0)
    (c : Int) (nonzero : charOf c ≠ 0) :
    (∃ result, strstr s.start needle.start = .ok result ∧
      FirstOf s.start (occursAt needle.bytes s.bytes) result) ∧
    strstr s.start needle.start =
      Loop.run Fault.diverged (strstrTurn needle.start needle.length)
        (s.length + 1) (s.start, s.length) ∧
    (∀ place left,
      Loop.Reaches (strstrTurn needle.start needle.length)
          (s.start, s.length) (place, left) →
        needle.length ≤ left →
          place.offset + needle.length ≤ s.length ∧
            memcmp (within place.reader (s.length - place.offset))
                needle.start.reader needle.length =
              memcmp place.reader needle.start.reader needle.length) ∧
    strchr s.start c = strstr s.start (oneChar c nonzero).start ∧
    ∃ first last, strchr s.start c = .ok first ∧
      strrchr s.start c = .ok last ∧ (last = none ↔ first = none) ∧
      LastOf s.start (byteAt (charOf c) s.bytes) last := by
  have subject := Pointer.points_start s
  have search := Pointer.points_start needle
  have someByte : needle.bytes ≠ [] :=
    fun empty => nonempty (List.length_eq_zero_iff.mpr empty)
  rcases strchr_first subject c with ⟨first, found, isFirst⟩
  rcases strrchr_last subject c with ⟨last, foundLast, isLast⟩
  have oneByte : (oneChar c nonzero).start.Points [charOf c] :=
    Pointer.points_start (oneChar c nonzero)
  rcases strstr_first subject oneByte (List.cons_ne_nil _ _) with
    ⟨result, ran, firstOne⟩
  rw [occursAt_singleton] at firstOne
  refine ⟨strstr_first subject search someByte,
    strstr_run subject search someByte, ?_, ?_,
    first, last, found, foundLast, ?_, isLast⟩
  · intro place left reaches room
    exact strstr_inside subject (Nat.pos_of_ne_zero nonempty) reaches room
  · rw [found, ran, isFirst.unique firstOne]
  · rw [isLast.none_iff And.left, isFirst.none_iff And.left]

theorem searches_find_ana :
    (∃ result,
      strstr (CString.ofAscii "banana").start (CString.ofAscii "ana").start =
          .ok result ∧
        FirstOf (CString.ofAscii "banana").start
          (occursAt (ascii "ana") (ascii "banana")) result) ∧
    strstr (CString.ofAscii "banana").start (CString.ofAscii "ana").start =
      Loop.run Fault.diverged (strstrTurn (CString.ofAscii "ana").start 3)
        7 ((CString.ofAscii "banana").start, 6) ∧
    (∀ place left,
      Loop.Reaches (strstrTurn (CString.ofAscii "ana").start 3)
          ((CString.ofAscii "banana").start, 6) (place, left) →
        3 ≤ left →
          place.offset + 3 ≤ 6 ∧
            memcmp (within place.reader (6 - place.offset))
                (CString.ofAscii "ana").start.reader 3 =
              memcmp place.reader (CString.ofAscii "ana").start.reader 3) ∧
    strchr (CString.ofAscii "banana").start 97 =
      strstr (CString.ofAscii "banana").start
        (oneChar 97 (by decide)).start ∧
    ∃ first last, strchr (CString.ofAscii "banana").start 97 = .ok first ∧
      strrchr (CString.ofAscii "banana").start 97 = .ok last ∧
      (last = none ↔ first = none) ∧
      LastOf (CString.ofAscii "banana").start
        (byteAt (charOf 97) (ascii "banana")) last :=
  searches_find (.ofAscii "banana") (.ofAscii "ana") (by decide) 97
    (by decide)

/-! ## The terminator and the empty needle -/

/-- The string without bytes. -/
def emptyString : CString :=
  ⟨[], List.not_mem_nil⟩

theorem charOf_eq_zero {c : Int} (low : c % 256 = 0) : charOf c = 0 := by
  have remainder : (c % 2 ^ 8).toNat = 0 := by omega
  rw [charOf, UInt8.ofInt, remainder]
  rfl

/-- A NUL is at no place of a string. -/
theorem byteAt_zero (s : CString) : byteAt 0 s.bytes = ∅ :=
  Set.eq_empty_of_forall_notMem fun _ member =>
    s.noNul (List.mem_of_getElem? member)

/-- Neither the terminator nor the empty needle is found, in any string. -/
theorem terminator_not_found (s : CString) (c : Int) (low : c % 256 = 0) :
    ¬ strchr s.start c = .ok (some (s.start.add s.length)) ∧
    ¬ strrchr s.start c = .ok (some (s.start.add s.length)) ∧
    ¬ strstr s.start emptyString.start = .ok (some s.start) := by
  have subject := Pointer.points_start s
  have nowhere : byteAt (charOf c) s.bytes = ∅ := by
    rw [charOf_eq_zero low, byteAt_zero]
  rcases strchr_first subject c with ⟨first, found, isFirst⟩
  rcases strrchr_last subject c with ⟨last, foundLast, isLast⟩
  have turned : strstr s.start emptyString.start = .ok none := by
    rw [strstr, strlen_eq (Pointer.points_start emptyString)]
    rfl
  rw [found, (isFirst.none_iff And.left).mpr nowhere, foundLast,
    (isLast.none_iff And.left).mpr nowhere, turned]
  simp

theorem terminator_not_found_abc :
    ¬ strchr (CString.ofAscii "abc").start 0 =
        .ok (some ((CString.ofAscii "abc").start.add 3)) ∧
    ¬ strrchr (CString.ofAscii "abc").start 0 =
        .ok (some ((CString.ofAscii "abc").start.add 3)) ∧
    ¬ strstr (CString.ofAscii "abc").start emptyString.start =
        .ok (some (CString.ofAscii "abc").start) :=
  terminator_not_found (.ofAscii "abc") 0 (by decide)

/-- `strchr("abc", 0)` is `NULL`. -/
theorem strchr_terminator :
    ¬ ∀ (s : CString) (c : Int), c % 256 = 0 →
      strchr s.start c = .ok (some (s.start.add s.length)) ∧
        strrchr s.start c = .ok (some (s.start.add s.length)) ∧
        strstr s.start emptyString.start = .ok (some s.start) := by
  intro law
  have found := (law (.ofAscii "abc") 0 (by decide)).1
  exact absurd found (by decide)

end Nolibc.Strings.Search

import Nolibc.Strings.Copy

/-!
# Strings of bounded length

`strncat` and `strncpy` of `string.h`.  A source and a destination that do not
overlap are two values: what is stored into the one is not read from the other.

Of the source it is only known what it has up to its NUL, and no more than the
bound.  A reader that faults at every other index is such a source, so that a
run that ends has not read there.
-/

set_option autoImplicit false

namespace Nolibc.Strings.Bounded

open Nolibc.Machine
open Nolibc.Foundation
open Nolibc.Strings
open Nolibc.Strings.Copy

/-! ## The functions -/

/-- `while (size && (*dst = *src))`; `offset` is how far `src` has moved. -/
def strncatTurn (src : Reader) :
    Nat × Nat × Nat × Stores →
      Except Fault ((Nat × Nat × Nat × Stores) ⊕ (Nat × Stores))
  | (dst, offset, size, stores) => do
      if size ≠ 0 then
        let c ← src offset
        let stores := stores ++ [(dst, c)]
        if c ≠ 0 then
          pure (.inl (dst + 1, offset + 1, size - 1, stores))
        else
          pure (.inr (dst, stores))
      else
        pure (.inr (dst, stores))

/-- `strncat`; it returns where its destination begins. -/
def strncat (dst : CString) (src : Reader) (size : Nat) :
    Except Fault (Nat × Stores) := do
  let orig := 0
  let dst ← lengthFrom dst orig
  let (dst, stores) ← Loop.run Fault.diverged (strncatTurn src) (size + 1)
    (dst, 0, size, [])
  pure (orig, stores ++ [(dst, 0)])

/-- The `for` loop of `strncpy`; `src` stays at its NUL. -/
def strncpyTurn (src : Reader) (size : Nat) :
    Nat × Nat × Stores → Except Fault ((Nat × Nat × Stores) ⊕ Stores)
  | (len, offset, stores) => do
      if len < size then
        let c ← src offset
        let stores := stores ++ [(len, c)]
        let offset := if c ≠ 0 then offset + 1 else offset
        pure (.inl (len + 1, offset, stores))
      else
        pure (.inr stores)

/-- `strncpy`, of which the stores have indices into `dst`. -/
def strncpy (src : Reader) (size : Nat) : Except Fault (Nat × Stores) := do
  let dst := 0
  let stores ← Loop.run Fault.diverged (strncpyTurn src size) (size + 1)
    (0, 0, [])
  pure (dst, stores)

/-- A source has a string, as far as its NUL and the bound go. -/
def Gives (src : Reader) (string : CString) (n : Nat) : Prop :=
  ∀ index, index < n → index ≤ string.length → src index = string.read index

section Reading

variable {src : Reader} {string : CString} {n : Nat}
  (gives : Gives src string n)

include gives

theorem Gives.read
    {front rest : List Byte} (split : string.bytes = front ++ rest)
    (inside : front.length < n) : src front.length = .ok (deref rest) := by
  have within : front.length ≤ string.length := by
    rw [CString.length, split, List.length_append]
    omega
  rw [gives _ inside within, CString.read_append split]

end Reading

/-! ## `strncat` -/

section Appending

variable {src : Reader} {string : CString} {n start modulus : Nat}
  (gives : Gives src string n)
  (fits : start + (string.take n).length < modulus)

include gives fits

/-- A turn that appends a byte. -/
theorem strncatTurn_advance
    {front rest : List Byte} {c : Byte}
    (split : (string.take n).bytes = front ++ c :: rest) :
    strncatTurn src
        (start + front.length, front.length, n - front.length,
          Memory.burst modulus start front) =
      .ok (.inl (start + (front ++ [c]).length, (front ++ [c]).length,
        n - (front ++ [c]).length,
        Memory.burst modulus start (front ++ [c]))) := by
  have whole := (List.take_append_drop n string.bytes).symm
  rw [← CString.take_bytes, split, List.append_assoc, List.cons_append]
    at whole
  have nonzero : c ≠ 0 := CString.ne_zero_of_split whole
  have total : (string.take n).length = front.length + (rest.length + 1) := by
    rw [CString.length, split, List.length_append, List.length_cons]
  have most := CString.take_length string n
  have inside : front.length < n := by omega
  have room : n - front.length ≠ 0 := by omega
  rw [burst_concat (by omega), List.length_append, List.length_singleton]
  simp only [strncatTurn, if_pos room, gives.read whole inside, deref_cons,
    if_pos nonzero, bind, Except.bind, pure, Except.pure, Nat.sub_sub,
    Nat.add_assoc]

/-- The loop stores what is taken of the source, and its NUL if that is inside
the bound too. -/
theorem strncat_loop :
    ∃ last, Loop.run Fault.diverged (strncatTurn src) (n + 1)
        (start, 0, n, []) =
      .ok (start + (string.take n).length,
        Memory.burst modulus start (string.take n).bytes ++ last) ∧
      (last = [] ∨ last = [(start + (string.take n).length, 0)]) := by
  have most := CString.take_length string n
  have ends
      {last : Stores}
      (leave : strncatTurn src
          (start + (string.take n).length, (string.take n).length,
            n - (string.take n).length,
            Memory.burst modulus start (string.take n).bytes) =
        .ok (.inr (start + (string.take n).length,
          Memory.burst modulus start (string.take n).bytes ++ last))) :
      Loop.run Fault.diverged (strncatTurn src) (n + 1) (start, 0, n, []) =
        .ok (start + (string.take n).length,
          Memory.burst modulus start (string.take n).bytes ++ last) :=
    Loop.run_scan _
      (fun front _ => (start + front.length, front.length, n - front.length,
        Memory.burst modulus start front))
      (fun split => strncatTurn_advance gives fits split) leave
      (by rw [← CString.length]; omega)
  by_cases long : n ≤ string.length
  · have none : n - (string.take n).length = 0 := by omega
    refine ⟨[], ends ?_, Or.inl rfl⟩
    rw [List.append_nil]
    simp only [strncatTurn, none, ne_eq, not_true_eq_false, if_false, pure,
      Except.pure]
  · have room : n - (string.take n).length ≠ 0 := by omega
    have all : (string.take n).bytes = string.bytes :=
      List.take_of_length_le (by rw [← CString.length]; omega)
    have stop : src (string.take n).length = .ok 0 := by
      have atEnd := gives.read (List.append_nil string.bytes).symm
        (by rw [← CString.length]; omega)
      rwa [← all] at atEnd
    refine ⟨[(start + (string.take n).length, 0)], ends ?_, Or.inr rfl⟩
    simp only [strncatTurn, if_pos room, stop, ne_eq, not_true_eq_false,
      if_false, bind, Except.bind, pure, Except.pure]

end Appending

/-- What is appended is stored behind the string, and nothing else is. -/
theorem strncat_holds
    {src : Reader} {string : CString} {n : Nat} (gives : Gives src string n)
    {buf : Nat → Byte} {dst : CString} (holds : HoldsString buf dst) :
    ∃ stores, strncat dst src n = .ok (0, stores) ∧
      HoldsString (Memory.apply buf stores) (dst.append (string.take n)) ∧
      ∀ store ∈ stores, dst.length ≤ store.1 ∧
        store.1 < dst.length + (min n string.length + 1) := by
  have most := CString.take_length string n
  have fits : dst.length + (string.take n).length <
      dst.length + (string.take n).length + 1 := Nat.lt_succ_self _
  have stored := holdsString_append buf _ _ (string.take n) holds.1
    (Nat.le_of_lt fits)
  have copied {store : Nat × Byte}
      (member : store ∈ Memory.burst
        (dst.length + (string.take n).length + 1) dst.length
        (string.take n).bytes) :
      dst.length ≤ store.1 ∧
        store.1 < dst.length + (string.take n).length :=
    Memory.burst_inside (Nat.le_of_lt fits) member
  have counted : lengthFrom dst 0 = .ok dst.length :=
    lengthFrom_eq (List.nil_append dst.bytes).symm
  rcases strncat_loop gives fits with ⟨last, ran, ends⟩
  simp only [strncat, counted, ran, bind, Except.bind, pure, Except.pure]
  refine ⟨_, rfl, ?_, ?_⟩
  · rcases ends with rfl | rfl
    · rwa [List.append_nil]
    · -- the NUL of the source is stored, and then the one behind it
      rwa [Memory.apply_overwritten]
  · intro store member
    rw [List.mem_append, List.mem_append, List.mem_singleton] at member
    rcases member with (member | member) | rfl
    · have inside := copied member
      omega
    · rcases ends with rfl | rfl
      · cases member
      · rw [List.mem_singleton.mp member]
        dsimp only
        omega
    · dsimp only
      omega

/-! ## `strncpy` -/

/-- What `strncpy` stores: the string, and NULs up to the bound. -/
def padded (string : CString) (n : Nat) : List Byte :=
  (string.take n).bytes ++ List.replicate (n - string.length) 0

@[simp]
theorem padded_length (string : CString) (n : Nat) :
    (padded string n).length = n := by
  have most := CString.take_length string n
  have length : (string.take n).length = (string.take n).bytes.length := rfl
  rw [padded, List.length_append, List.length_replicate]
  omega

/-- A byte of it is one of the string, or a NUL from the end of the string
on. -/
theorem padded_split
    {string : CString} {n : Nat} {front rest : List Byte} {c : Byte}
    (split : padded string n = front ++ c :: rest) :
    (∃ more, string.bytes = front ++ c :: more) ∨
      (string.length ≤ front.length ∧ c = 0) := by
  have most := CString.take_length string n
  have fill (more : List Byte)
      (front_eq : front = (string.take n).bytes ++ more)
      (rest_eq : List.replicate (n - string.length) 0 = more ++ c :: rest) :
      string.length ≤ front.length ∧ c = 0 := by
    have many := congrArg List.length rest_eq
    rw [List.length_replicate, List.length_append, List.length_cons] at many
    have behind : front.length = (string.take n).length + more.length := by
      rw [front_eq, List.length_append, CString.length]
    have member : c ∈ List.replicate (n - string.length) (0 : Byte) := by
      rw [rest_eq]
      simp
    exact ⟨by omega, List.eq_of_mem_replicate member⟩
  rw [padded, List.append_eq_append_iff] at split
  rcases split with ⟨more, front_eq, rest_eq⟩ | ⟨more, taken, rest_eq⟩
  · exact Or.inr (fill more front_eq rest_eq)
  · cases more with
    | nil =>
        rw [List.append_nil] at taken
        exact Or.inr (fill [] (by rw [taken, List.append_nil])
          rest_eq.symm)
    | cons d more =>
        rw [List.cons_append, List.cons.injEq] at rest_eq
        rw [← rest_eq.1] at taken
        have whole := (List.take_append_drop n string.bytes).symm
        rw [← CString.take_bytes, taken, List.append_assoc,
          List.cons_append] at whole
        exact Or.inl ⟨_, whole⟩

section Copying

variable {src : Reader} {string : CString} {n : Nat}
  (gives : Gives src string n)

include gives

/-- A turn stores a byte; the source stays at its NUL. -/
theorem strncpyTurn_advance
    {front rest : List Byte} {c : Byte}
    (split : padded string n = front ++ c :: rest) :
    strncpyTurn src n
        (front.length, min front.length string.length,
          Memory.burst n 0 front) =
      .ok (.inl ((front ++ [c]).length,
        min (front ++ [c]).length string.length,
        Memory.burst n 0 (front ++ [c]))) := by
  have inside : front.length < n := by
    have total := congrArg List.length split
    rw [padded_length, List.length_append, List.length_cons] at total
    omega
  rw [burst_concat (by omega), List.length_append, List.length_singleton,
    Nat.zero_add]
  rcases padded_split split with ⟨more, text⟩ | ⟨behind, rfl⟩
  · have nonzero : c ≠ 0 := CString.ne_zero_of_split text
    have total : string.length = front.length + (more.length + 1) := by
      rw [CString.length, text, List.length_append, List.length_cons]
    rw [Nat.min_eq_left (by omega), Nat.min_eq_left (by omega)]
    simp only [strncpyTurn, if_pos inside, gives.read text inside,
      deref_cons, if_pos nonzero, bind, Except.bind, pure, Except.pure]
  · have stop : src string.length = .ok 0 :=
      gives.read (List.append_nil string.bytes).symm
        (Nat.lt_of_le_of_lt behind inside)
    rw [Nat.min_eq_right behind, Nat.min_eq_right (by omega)]
    simp only [strncpyTurn, if_pos inside, stop, ne_eq, not_true_eq_false,
      if_false, bind, Except.bind, pure, Except.pure]

theorem strncpy_eq :
    strncpy src n = .ok (0, Memory.burst n 0 (padded string n)) := by
  have leave :
      strncpyTurn src n
          ((padded string n).length,
            min (padded string n).length string.length,
            Memory.burst n 0 (padded string n)) =
        .ok (.inr (Memory.burst n 0 (padded string n))) := by
    simp only [strncpyTurn, padded_length, Nat.lt_irrefl, if_false, pure,
      Except.pure]
  have enough : (padded string n).length < n + 1 := by
    rw [padded_length]
    exact Nat.lt_succ_self n
  have ran :
      Loop.run Fault.diverged (strncpyTurn src n) (n + 1) _ = _ :=
    Loop.run_scan (padded string n)
      (fun front _ => (front.length, min front.length string.length,
        Memory.burst n 0 front))
      (fun split => strncpyTurn_advance gives split) leave enough
  rw [List.length_nil, Nat.zero_min] at ran
  rw [strncpy, ← show Memory.burst n 0 ([] : List Byte) = [] from rfl, ran]
  rfl

/-- The first bytes are stored, every one of them and nothing else. -/
theorem strncpy_holds :
    ∃ stores, strncpy src n = .ok (0, stores) ∧
      (∀ buf : Nat → Byte,
        Memory.block (Memory.apply buf stores) 0 n = padded string n) ∧
      ∀ index, (∃ store ∈ stores, store.1 = index) ↔ index < n := by
  refine ⟨_, strncpy_eq gives, fun buf => ?_, fun index => ?_⟩
  · have length := padded_length string n
    have filled := Memory.block_apply_burst buf n 0 (padded string n) (by omega)
    rwa [length] at filled
  · rw [Memory.mem_burst_address, padded_length]
    constructor
    · rintro ⟨place, inside, rfl⟩
      exact Nat.mod_lt _ (Nat.zero_lt_of_lt inside)
    · intro inside
      exact ⟨index, inside, by rw [Nat.zero_add, Nat.mod_eq_of_lt inside]⟩

end Copying

/--
With a source that need not be readable behind its NUL or behind the bound,
`strncat` appends as much of it as the bound allows and stores nothing in front
of the old NUL or behind the new one; and `strncpy` stores all the bytes up to
the bound and no other, those of the source and then NULs.
-/
theorem strncat_strncpy_bounded
    (src : Reader) (string : CString) (n : Nat) (gives : Gives src string n) :
    (∀ (dst : CString) (buf : Nat → Byte), HoldsString buf dst →
      ∃ stores, strncat dst src n = .ok (0, stores) ∧
        HoldsString (Memory.apply buf stores)
          (dst.append (string.take n)) ∧
        (∀ store ∈ stores, dst.length ≤ store.1 ∧
          store.1 < dst.length + (min n string.length + 1)) ∧
        ∀ index, index < dst.length ∨
            dst.length + (min n string.length + 1) ≤ index →
          Memory.apply buf stores index = buf index) ∧
    ∃ stores, strncpy src n = .ok (0, stores) ∧
      (∀ buf : Nat → Byte,
        Memory.block (Memory.apply buf stores) 0 n =
            string.bytes.take (min n string.length) ++
              List.replicate (n - string.length) 0 ∧
          ∀ index, n ≤ index → Memory.apply buf stores index = buf index) ∧
      ∀ index, (∃ store ∈ stores, store.1 = index) ↔ index < n := by
  constructor
  · intro dst buf holds
    rcases strncat_holds gives holds with ⟨stores, ran, held, inside⟩
    refine ⟨stores, ran, held, inside, fun index outside => ?_⟩
    apply Memory.apply_frame
    intro store member equal
    have between := inside store member
    omega
  · rcases strncpy_holds gives with ⟨stores, ran, filled, places⟩
    have text : padded string n =
        string.bytes.take (min n string.length) ++
          List.replicate (n - string.length) 0 := by
      rw [padded, CString.take_bytes, ← List.take_take,
        CString.length, List.take_length]
    refine ⟨stores, ran, fun buf => ⟨?_, fun index outside => ?_⟩, places⟩
    · rw [filled, text]
    · apply Memory.apply_frame
      intro store member equal
      have inside := (places index).mp ⟨store, member, equal⟩
      omega

/-- A source that faults behind a bound, and behind its NUL. -/
def limited (string : CString) (n : Nat) : Reader :=
  fun index => if index < n then string.read index else .error .outOfBounds

theorem gives_limited (string : CString) (n : Nat) :
    Gives (limited string n) string n :=
  fun _ inside _ => if_pos inside

/-- The bound is inside the source. -/
theorem strncat_strncpy_bounded_two :
    (∃ stores,
      strncat (.ofAscii "xy") (limited (.ofAscii "abc") 2) 2 =
          .ok (0, stores) ∧
        HoldsString
          (Memory.apply (fun index => deref ((ascii "xy").drop index)) stores)
          (.ofAscii "xyab")) ∧
    ∃ stores, strncpy (limited (.ofAscii "abc") 2) 2 = .ok (0, stores) ∧
      ∀ buf : Nat → Byte,
        Memory.block (Memory.apply buf stores) 0 2 = ascii "ab" := by
  have both := strncat_strncpy_bounded (limited (.ofAscii "abc") 2)
    (.ofAscii "abc") 2 (gives_limited _ _)
  have holds :
      HoldsString (fun index => deref ((ascii "xy").drop index))
        (.ofAscii "xy") := by
    constructor <;> decide
  have appended :
      (CString.ofAscii "xy").append ((CString.ofAscii "abc").take 2) =
        .ofAscii "xyab" := by
    decide
  rcases both with ⟨appends, stores, ran, filled, -⟩
  rcases appends _ _ holds with ⟨more, appendRan, held, -⟩
  rw [appended] at held
  exact ⟨⟨more, appendRan, held⟩, stores, ran, fun buf => (filled buf).1⟩

end Nolibc.Strings.Bounded

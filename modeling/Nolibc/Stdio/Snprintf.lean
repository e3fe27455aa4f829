import Nolibc.Foundation.Memory
import Nolibc.Stdio.Pieces

/-!
# Formatting into a buffer

`vsnprintf` and `vsprintf` of `stdio.h`.  A call is described by its result
and by the list of its stores, at indices relative to `buf`.  An index is a
`size_t`: the byte before the buffer has index `SIZE_MAX`.

The engine charges only text to its budget.  Field padding is emitted as long
as any budget is left, however little, and is computed from the truncated
length; and the final NUL of a call with `size = 0` goes to `buf[-1]`.  The
theorems of this module say exactly when that matters.
-/

set_option autoImplicit false

namespace Nolibc.Stdio.Snprintf

open Nolibc.Machine
open Nolibc.Foundation
open Nolibc.Stdio.Printf
open Nolibc.Stdio.Directives
open Nolibc.Stdio.Pieces

variable {target : Target}

/-- A `size_t`. -/
abbrev SizeT (target : Target) := BitVec target.longBits

/-! ## The buffer callback -/

/-- What `__nolibc_sprintf_cb` works on: `*state` as an index into `buf`. -/
structure BufferState where
  state : Nat
  stores : List (Nat × Byte)
  errnum : Errno

/-- `__nolibc_sprintf_cb`: `memcpy(*state, buf, size); *state += size`. -/
def nolibcSprintfCb (target : Target) : Callback BufferState where
  call io buf :=
    (0,
      { io with
        stores :=
          io.stores ++ Memory.burst (2 ^ target.longBits) io.state buf
        state := (io.state + buf.length) % 2 ^ target.longBits })
  errno := BufferState.errnum

/-- What a call leaves behind. -/
structure Written where
  ret : Int
  stores : List (Nat × Byte)
  deriving DecidableEq, Repr

/-- `buf[(size_t)ret < size ? (size_t)ret : size - 1]`. -/
def nulIndex (size : SizeT target) (ret : Nat) : Nat :=
  if ret < size.toNat then ret else (size - 1).toNat

/-- `vsnprintf`, which stores a NUL behind the bytes of the engine. -/
def vsnprintf (size : SizeT target) (format : CString)
    (args : List (Arg target)) (errnum : Errno) :
    Except Fault Written := do
  let result ← nolibcPrintf (nolibcSprintfCb target) ⟨0, [], errnum⟩
    size.toNat format args
  if result.ret < 0 then
    return ⟨result.ret, result.io.stores⟩
  else
    return ⟨result.ret,
      result.io.stores ++ [(nulIndex size result.ret.toNat, 0)]⟩

/-- `snprintf`; `args` are the arguments behind `fmt`. -/
def snprintf (size : SizeT target) (format : CString)
    (args : List (Arg target)) (errnum : Errno) :
    Except Fault Written :=
  vsnprintf size format args errnum

/-- `vsnprintf(buf, SIZE_MAX, fmt, args)`. -/
def vsprintf (format : CString) (args : List (Arg target))
    (errnum : Errno) : Except Fault Written :=
  vsnprintf (BitVec.allOnes target.longBits) format args errnum

/-! ## The full expansion -/

/-- A callback that records what it is handed. -/
structure Recording where
  out : List Byte
  errnum : Errno

/-- A callback that records every chunk. -/
def recorder : Callback Recording where
  call io chunk := (0, { io with out := io.out ++ chunk })
  errno := Recording.errnum

/-- The bytes the engine emits with `n = SIZE_MAX`. -/
def expansion (errnum : Errno) (format : CString)
    (args : List (Arg target)) : Except Fault (List Byte) :=
  (nolibcPrintf recorder ⟨[], errnum⟩ target.sizeMax format args).map
    fun result => result.io.out

theorem recorder_succeeds : Succeeds recorder :=
  fun _ _ => rfl

theorem deliver_recorder (io : Recording) (list : List (List Byte)) :
    deliver recorder io list =
      { io with out := io.out ++ list.flatten } := by
  induction list generalizing io with
  | nil => simp [deliver]
  | cons chunk rest induction =>
      have step : deliver recorder io (chunk :: rest) =
          deliver recorder { io with out := io.out ++ chunk } rest := rfl
      rw [step, induction]
      simp

/-- The expansion is what the chunks of a `SIZE_MAX` budget add up to. -/
theorem expansion_eq
    {errnum : Errno} {format : CString} {args : List (Arg target)}
    {list : List Piece}
    (resolved : pieces errnum format args = .ok list) :
    expansion errnum format args =
      .ok (chunks target.sizeMax list).flatten := by
  have settled : ErrnoSettled recorder (directives format) :=
    Or.inr fun _ _ => rfl
  have start : pieces (recorder.errno ⟨[], errnum⟩) format args =
      .ok list := resolved
  obtain ⟨left, ran⟩ := nolibcPrintf_eq_pieces recorder_succeeds settled
    start target.sizeMax
  rw [expansion, ran, deliver_recorder]
  rfl

/-- An expansion shorter than `2 ^ 31` is not cut by the `SIZE_MAX` budget. -/
theorem expansion_render
    {list : List Piece}
    (short : (chunks target.sizeMax list).flatten.length < 2 ^ 31) :
    (chunks target.sizeMax list).flatten = render list := by
  apply chunks_uncut
  apply textLength_lt_of_chunks_lt
  rcases target.sizeMax_cases with size | size <;> omega

/-! ## A call in terms of its pieces -/

theorem sprintfCb_succeeds : Succeeds (nolibcSprintfCb target) :=
  fun _ _ => rfl

variable (target) in
theorem deliver_sprintfCb
    (io : BufferState) (list : List (List Byte)) :
    (deliver (nolibcSprintfCb target) io list).stores =
      io.stores ++
        Memory.burst (2 ^ target.longBits) io.state list.flatten := by
  induction list generalizing io with
  | nil => simp [deliver, Memory.burst]
  | cons chunk rest induction =>
      have step : deliver (nolibcSprintfCb target) io (chunk :: rest) =
          deliver (nolibcSprintfCb target)
            ((nolibcSprintfCb target).call io chunk).2 rest := rfl
      rw [step, induction]
      simp [nolibcSprintfCb, Memory.burst_append, Memory.burst_mod]

/-- The result of a call: the length of all the text and of the padding. -/
def retOf (size : Nat) (list : List Piece) : Int :=
  intOfUnsigned (padding size list + textLength list)

/-- The stores of the conversions, without the final NUL. -/
def bodyStores (target : Target) (size : Nat) (list : List Piece) :
    List (Nat × Byte) :=
  Memory.burst (2 ^ target.longBits) 0 (chunks size list).flatten

theorem vsnprintf_eq
    {errnum : Errno} {format : CString} {args : List (Arg target)}
    {list : List Piece}
    (resolved : pieces errnum format args = .ok list)
    (size : SizeT target) :
    vsnprintf size format args errnum =
      .ok ⟨retOf size.toNat list,
        bodyStores target size.toNat list ++
          (if retOf size.toNat list < 0 then
            []
          else
            [(nulIndex size (retOf size.toNat list).toNat, 0)])⟩ := by
  have settled : ErrnoSettled (nolibcSprintfCb target)
      (directives format) := Or.inr fun _ _ => rfl
  have start :
      pieces ((nolibcSprintfCb target).errno ⟨0, [], errnum⟩) format args =
        .ok list := resolved
  obtain ⟨left, ran⟩ := nolibcPrintf_eq_pieces sprintfCb_succeeds settled
    start size.toNat
  have stores := deliver_sprintfCb target ⟨0, [], errnum⟩
    (chunks size.toNat list)
  have ret : intOfUnsigned
      (padding size.toNat list + textLength list) =
        retOf size.toNat list := rfl
  rw [vsnprintf, ran]
  simp only [bind, Except.bind, pure, Except.pure, stores, ret,
    List.nil_append]
  split_ifs
  · simp [bodyStores]
  · rfl

theorem allOnes_toNat (target : Target) :
    (BitVec.allOnes target.longBits).toNat = target.sizeMax :=
  BitVec.toNat_allOnes

/-- The engine with a `SIZE_MAX` budget returns the length of a short
expansion. -/
theorem retOf_sizeMax
    (target : Target) {list : List Piece}
    (short : (render list).length < 2 ^ 31) :
    retOf target.sizeMax list = (render list).length := by
  have total := render_length list
  have room : textLength list < target.sizeMax := by
    rcases target.sizeMax_cases with size | size <;> omega
  rw [retOf, padding_uncut room, ← total, intOfUnsigned_of_lt short]

/-- `vsprintf` stores the whole expansion and a NUL behind it. -/
theorem vsprintf_eq
    {errnum : Errno} {format : CString} {args : List (Arg target)}
    {list : List Piece} (resolved : pieces errnum format args = .ok list)
    (short : (render list).length < 2 ^ 31) :
    vsprintf format args errnum =
      .ok ⟨(render list).length,
        Memory.burst (2 ^ target.longBits) 0 (render list) ++
          [((render list).length, 0)]⟩ := by
  have total := render_length list
  have large : 2 ^ 31 ≤ target.sizeMax := by
    rcases target.sizeMax_cases with size | size <;> omega
  have room : textLength list < target.sizeMax := by omega
  have nul : nulIndex (BitVec.allOnes target.longBits)
      (render list).length = (render list).length := by
    rw [nulIndex, allOnes_toNat, if_pos (by omega)]
  rw [vsprintf, vsnprintf_eq resolved, allOnes_toNat,
    retOf_sizeMax target short, if_neg (by omega), Int.toNat_natCast, nul,
    bodyStores, chunks_uncut room]

/-! ## Where a call stores -/

/--
No piece that is reached with budget left has a field wider than the part of
its text that still fits, so that no padding is emitted.
-/
def PaddingFree : Nat → List Piece → Prop
  | _, [] => True
  | n, piece :: rest =>
      (n = 0 ∨ piece.width ≤ min piece.text.length n) ∧
        PaddingFree (n - min piece.text.length n) rest

instance decidablePaddingFree :
    (n : Nat) → (list : List Piece) → Decidable (PaddingFree n list)
  | _, [] => isTrue True.intro
  | n, piece :: rest =>
      haveI := decidablePaddingFree (n - min piece.text.length n) rest
      inferInstanceAs (Decidable (_ ∧ _))

theorem paddingFree_iff (n : Nat) (list : List Piece) :
    PaddingFree n list ↔ padding n list = 0 := by
  induction list generalizing n with
  | nil => simp [PaddingFree, padding]
  | cons piece rest induction =>
      rw [PaddingFree, induction, padding_cons, Nat.add_eq_zero_iff]
      simp only [padding, Nat.add_zero]
      split_ifs <;> omega

/--
The condition under which a call stores inside its buffer.  A call with a
size stays inside when it pads nothing or when the whole expansion fits; a
call with `size = 0` stays inside when its result is negative, so that the
final NUL is not stored.
-/
def StaysInside (size : Nat) (list : List Piece) : Prop :=
  if size = 0 then
    2 ^ 31 ≤ textLength list % 2 ^ 32
  else
    PaddingFree size list ∨ (render list).length ≤ size

instance (size : Nat) (list : List Piece) :
    Decidable (StaysInside size list) :=
  inferInstanceAs (Decidable
    (if size = 0 then
      2 ^ 31 ≤ textLength list % 2 ^ 32
    else
      PaddingFree size list ∨ (render list).length ≤ size))

/-- The padding of a call whose text fits is at most the full padding. -/
theorem padding_le_of_textLength_le
    {n : Nat} {list : List Piece} (room : textLength list ≤ n) :
    padding n list ≤ fullPadding list := by
  induction list generalizing n with
  | nil => simp [padding]
  | cons piece rest induction =>
      rw [textLength_cons] at room
      have whole : min piece.text.length n = piece.text.length := by omega
      have tail := induction (n := n - piece.text.length) (by omega)
      rw [fullPadding_cons, padding, whole]
      split_ifs <;> omega

/-- The bytes stored by the conversions fit exactly under the condition. -/
theorem chunks_length_le_iff
    {size : Nat} (positive : size ≠ 0) (list : List Piece) :
    (chunks size list).flatten.length ≤ size ↔ StaysInside size list := by
  rw [StaysInside, if_neg positive, paddingFree_iff, chunks_length,
    render_length]
  constructor
  · intro fits
    by_cases unpadded : padding size list = 0
    · exact Or.inl unpadded
    · have room : textLength list < size := by omega
      rw [padding_uncut room] at fits
      omega
  · rintro (unpadded | fits)
    · omega
    · have bounded := padding_le_of_textLength_le
        (show textLength list ≤ size by omega)
      omega

/-- The stores of the conversions stay below `size` when they are that few. -/
theorem bodyStores_inside_iff
    (size : SizeT target) (list : List Piece) :
    (∀ store ∈ bodyStores target size.toNat list, store.1 < size.toNat) ↔
      (chunks size.toNat list).flatten.length ≤ size.toNat := by
  have range := size.isLt
  constructor
  · intro inside
    by_contra longer
    obtain ⟨store, member, equal⟩ := Memory.mem_burst_address.mpr
      ⟨size.toNat, Nat.lt_of_not_le longer,
        show (0 + size.toNat) % 2 ^ target.longBits = size.toNat by
          rw [Nat.zero_add, Nat.mod_eq_of_lt range]⟩
    have below := inside store member
    omega
  · intro fits store member
    obtain ⟨index, below, found⟩ :=
      Memory.mem_burst_address.mp ⟨store, member, rfl⟩
    rw [Nat.zero_add, Nat.mod_eq_of_lt (by omega)] at found
    omega

theorem sub_one_toNat
    (size : SizeT target) (positive : size.toNat ≠ 0) :
    (size - 1).toNat = size.toNat - 1 := by
  have range := size.isLt
  have one : (1 : SizeT target).toNat = 1 := by
    rcases target.longBits_cases with bits | bits <;>
      simp [bits]
  have wrapped :
      2 ^ target.longBits - 1 + size.toNat =
        size.toNat - 1 + 2 ^ target.longBits := by omega
  rw [BitVec.toNat_sub, one, wrapped, Nat.add_mod_right,
    Nat.mod_eq_of_lt (by omega)]

/-- With a size, the final NUL always stays inside. -/
theorem nulIndex_lt
    (size : SizeT target) (positive : size.toNat ≠ 0) (ret : Nat) :
    nulIndex size ret < size.toNat := by
  unfold nulIndex
  split_ifs with below
  · exact below
  · rw [sub_one_toNat size positive]
    omega

/--
A call stores inside `buf[0] .. buf[size-1]` exactly when its directives and
arguments stay inside.
-/
theorem vsnprintf_inside_iff
    (size : SizeT target) (format : CString) (args : List (Arg target))
    (errnum : Errno) (matching : Matching format args) :
    ∃ list result,
      pieces errnum format args = .ok list ∧
        vsnprintf size format args errnum = .ok result ∧
        ((∀ store ∈ result.stores, store.1 < size.toNat) ↔
          StaysInside size.toNat list) := by
  obtain ⟨list, resolved⟩ := pieces_of_matching errnum matching
  refine ⟨list, _, resolved, vsnprintf_eq resolved size, ?_⟩
  simp only [List.forall_mem_append]
  rw [bodyStores_inside_iff]
  by_cases zero : size.toNat = 0
  · rw [StaysInside, if_pos zero, zero, chunks_zero, retOf, padding_zero,
      Nat.zero_add, ← intOfUnsigned_neg_iff]
    split_ifs with negative <;> simp [negative]
  · rw [chunks_length_le_iff zero, and_iff_left_iff_imp]
    intro _
    split_ifs
    · simp
    · simpa using nulIndex_lt size zero _

/--
A field of four in a buffer of two: the three spaces alone overrun it, and the
conversion is stored behind the end of the buffer.
-/
theorem vsnprintf_field_overruns :
    Matching (.ofAscii "%4s")
        [(.string (some (.ofAscii "a")) : Arg .x86_64)] ∧
      ∃ result,
        vsnprintf 2 (.ofAscii "%4s")
            [(.string (some (.ofAscii "a")) : Arg .x86_64)] 0 = .ok result ∧
          ¬ ∀ store ∈ result.stores,
            store.1 < (2 : SizeT Target.x86_64).toNat :=
  ⟨by decide,
    ⟨4, [(0, 32), (1, 32), (2, 32), (3, 97), (1, 0)]⟩, rfl, by decide⟩

theorem vsnprintf_inside_iff_field :
    ∃ list result,
      pieces 0 (.ofAscii "%4s")
          [(.string (some (.ofAscii "a")) : Arg .x86_64)] = .ok list ∧
        vsnprintf 5 (.ofAscii "%4s")
            [(.string (some (.ofAscii "a")) : Arg .x86_64)] 0 = .ok result ∧
        ((∀ store ∈ result.stores,
            store.1 < (5 : SizeT Target.x86_64).toNat) ↔
          StaysInside (5 : SizeT Target.x86_64).toNat list) :=
  vsnprintf_inside_iff 5 (.ofAscii "%4s")
    [(.string (some (.ofAscii "a")) : Arg .x86_64)] 0 (by decide)

/-! ## Truncation without field widths -/

/-- The field width of a directive. -/
def fieldWidth : Directive → Nat
  | .run _ => 0
  | .numeric width _ _ => width
  | .string width => width
  | .errnoText width => width

/-- No directive of the format has a field width. -/
def NoFieldWidth (format : CString) : Prop :=
  ∀ directive ∈ directives format, fieldWidth directive = 0

instance (format : CString) : Decidable (NoFieldWidth format) :=
  inferInstanceAs
    (Decidable (∀ directive ∈ directives format, fieldWidth directive = 0))

theorem pieceOf_width
    {errnum : Errno} {directive : Directive}
    {args left : List (Arg target)} {piece : Piece}
    (fetched : pieceOf errnum args directive = .ok (piece, left)) :
    piece.width = fieldWidth directive := by
  cases directive with
  | run bytes =>
      cases fetched
      rfl
  | errnoText width =>
      cases fetched
      rfl
  | numeric width lpref conv =>
      rcases pieceOf_numeric_inv fetched with ⟨v, _, rfl⟩
      rfl
  | string width =>
      rcases pieceOf_string_inv fetched with ⟨string, _, rfl⟩
      rfl

theorem piecesOf_width
    {errnum : Errno} {list : List Directive}
    {args left : List (Arg target)} {found : List Piece}
    (noWidth : ∀ directive ∈ list, fieldWidth directive = 0)
    (fetched : piecesOf errnum list args = .ok (found, left)) :
    ∀ piece ∈ found, piece.width = 0 := by
  induction list generalizing args found with
  | nil =>
      cases fetched
      simp
  | cons directive rest induction =>
      rcases piecesOf_split fetched with
        ⟨piece, remaining, ahead, one, more, rfl⟩
      rw [List.forall_mem_cons]
      exact ⟨(pieceOf_width one).trans (noWidth _ List.mem_cons_self),
        induction
          (fun other member =>
            noWidth other (List.mem_cons_of_mem _ member)) more⟩

theorem pieces_width
    {errnum : Errno} {format : CString} {args : List (Arg target)}
    {list : List Piece} (noWidth : NoFieldWidth format)
    (resolved : pieces errnum format args = .ok list) :
    ∀ piece ∈ list, piece.width = 0 := by
  rcases piecesOf_of_pieces resolved with ⟨left, fetched⟩
  exact piecesOf_width noWidth fetched

/-- Without widths there is no padding. -/
theorem padding_of_width
    {list : List Piece} (noWidth : ∀ piece ∈ list, piece.width = 0)
    (n : Nat) : padding n list = 0 := by
  induction list generalizing n with
  | nil => rfl
  | cons piece rest induction =>
      rw [List.forall_mem_cons] at noWidth
      simp [padding, noWidth.1, induction noWidth.2]

/-- Without widths the chunks of a budget are a prefix of the expansion. -/
theorem chunks_of_width
    {list : List Piece} (noWidth : ∀ piece ∈ list, piece.width = 0)
    (n : Nat) : (chunks n list).flatten = (render list).take n := by
  induction list generalizing n with
  | nil => simp [chunks, render]
  | cons piece rest induction =>
      rw [List.forall_mem_cons] at noWidth
      have opened : render (piece :: rest) = piece.text ++ render rest := by
        simp [render, Piece.render, noWidth.1]
      rw [opened, List.take_append, chunks_cons, List.flatten_append,
        induction noWidth.2]
      by_cases spent : n = 0
      · simp [spent, chunks]
      · have rest : n - min piece.text.length n =
            n - piece.text.length := by omega
        have cut : piece.text.take (min piece.text.length n) =
            piece.text.take n := by
          rw [← List.take_take, List.take_of_length_le (l := piece.text.take n)]
          simp
        simp [chunks, spent, noWidth.1, rest, cut]

/-- The buffer after a call. -/
def bufferAfter (buf : Nat → Byte) (result : Written) : Nat → Byte :=
  Memory.apply buf result.stores

/-- A buffer of `size ≥ 1` bytes holds an expansion, cut if it must be. -/
structure HoldsTruncated (size : Nat) (full : List Byte)
    (buf : Nat → Byte) (result : Written) : Prop where
  ret : result.ret = full.length
  inside : ∀ store ∈ result.stores, store.1 < size
  kept :
    (List.range (min full.length (size - 1))).map (bufferAfter buf result) =
      full.take (min full.length (size - 1))
  nul : bufferAfter buf result (min full.length (size - 1)) = 0

/-- Storing the cut expansion and then the NUL leaves a truncated buffer. -/
theorem holdsTruncated_of_stores
    (buf : Nat → Byte) {modulus size : Nat} (positive : size ≠ 0)
    (range : size < modulus) (full : List Byte) :
    HoldsTruncated size full buf
      ⟨full.length,
        Memory.burst modulus 0 (full.take size) ++
          [(min full.length (size - 1), 0)]⟩ where
  ret := rfl
  inside := by
    intro store member
    rcases List.mem_append.mp member with inBody | isNul
    · obtain ⟨index, below, found⟩ :=
        Memory.mem_burst_address.mp ⟨store, inBody, rfl⟩
      rw [List.length_take] at below
      rw [Nat.zero_add, Nat.mod_eq_of_lt (by omega)] at found
      omega
    · rw [List.mem_singleton.mp isNul]
      simp only
      omega
  kept := by
    apply List.ext_getElem
    · simp
    · intro index inside _
      rw [List.length_map, List.length_range] at inside
      have missed : index ≠ min full.length (size - 1) := by omega
      have stored : index < (full.take size).length := by
        rw [List.length_take]
        omega
      have fits : 0 + (full.take size).length ≤ modulus := by
        rw [List.length_take]
        omega
      have written := Memory.apply_burst buf fits stored
      rw [Nat.zero_add] at written
      rw [List.getElem_map, List.getElem_range, bufferAfter,
        Memory.apply_append, Memory.apply_singleton,
        Function.update_of_ne missed, written]
      simp
  nul := by
    rw [bufferAfter, Memory.apply_append, Memory.apply_singleton,
      Function.update_self]

/-- The stores of a call without field widths. -/
theorem vsnprintf_of_width
    {errnum : Errno} {format : CString} {args : List (Arg target)}
    {list : List Piece} (resolved : pieces errnum format args = .ok list)
    (widths : ∀ piece ∈ list, piece.width = 0)
    (short : (render list).length < 2 ^ 31)
    (size : SizeT target) (positive : size.toNat ≠ 0) :
    vsnprintf size format args errnum =
      .ok ⟨(render list).length,
        Memory.burst (2 ^ target.longBits) 0
            ((render list).take size.toNat) ++
          [(min (render list).length (size.toNat - 1), 0)]⟩ := by
  have ret : retOf size.toNat list = (render list).length := by
    have total := render_length list
    rw [← padding_uncut (Nat.lt_succ_self (textLength list)),
      padding_of_width widths, Nat.zero_add] at total
    rw [retOf, padding_of_width widths, Nat.zero_add, ← total,
      intOfUnsigned_of_lt short]
  have nul : nulIndex size (render list).length =
      min (render list).length (size.toNat - 1) := by
    unfold nulIndex
    rw [sub_one_toNat size positive]
    split_ifs <;> omega
  rw [vsnprintf_eq resolved, ret, if_neg (by omega), Int.toNat_natCast,
    nul, bodyStores, chunks_of_width widths]

/--
Without field widths, a call with `size ≥ 1` leaves the first
`min (length, size - 1)` bytes of the expansion and a NUL, stores nothing at
or behind `size`, and returns the length of the expansion.
-/
theorem vsnprintf_truncates
    (size : SizeT target) (positive : 0 < size.toNat)
    (format : CString) (noWidth : NoFieldWidth format)
    (args : List (Arg target)) (matching : Matching format args)
    (errnum : Errno) (buf : Nat → Byte) :
    ∃ full result,
      expansion errnum format args = .ok full ∧
        vsnprintf size format args errnum = .ok result ∧
        (full.length < 2 ^ 31 →
          HoldsTruncated size.toNat full buf result) := by
  obtain ⟨list, resolved⟩ := pieces_of_matching errnum matching
  refine ⟨_, _, expansion_eq resolved, vsnprintf_eq resolved size, ?_⟩
  intro short
  have rendered := expansion_render short
  rw [rendered] at short ⊢
  have call := vsnprintf_of_width resolved
    (pieces_width noWidth resolved) short size (by omega)
  rw [vsnprintf_eq resolved, Except.ok.injEq] at call
  rw [call]
  exact holdsTruncated_of_stores buf (by omega) size.isLt (render list)

theorem vsnprintf_truncates_literal :
    ∃ full result,
      expansion 0 (.ofAscii "ab%sde")
          [(.string (some (.ofAscii "c")) : Arg .x86_64)] = .ok full ∧
        vsnprintf 4 (.ofAscii "ab%sde")
            [(.string (some (.ofAscii "c")) : Arg .x86_64)] 0 = .ok result ∧
        (full.length < 2 ^ 31 →
          HoldsTruncated (4 : SizeT Target.x86_64).toNat full
            (fun _ => 0xAA) result) :=
  vsnprintf_truncates 4 (by decide)
    (.ofAscii "ab%sde") (by decide)
    [(.string (some (.ofAscii "c")) : Arg .x86_64)]
    (by decide) 0 (fun _ => 0xAA)

/-! ## The result of a truncated call -/

/-- The padding of the conversions that are reached without budget. -/
def lostPadding : Nat → List Piece → Nat
  | _, [] => 0
  | n, piece :: rest =>
      (if n = 0 then piece.width - piece.text.length else 0) +
        lostPadding (n - min piece.text.length n) rest

/-- What the conversion cut by the budget gets on top of its own padding. -/
def extraPadding : Nat → List Piece → Nat
  | _, [] => 0
  | n, piece :: rest =>
      (if n = 0 then
        0
      else
        (piece.width - min piece.text.length n) -
          (piece.width - piece.text.length)) +
        extraPadding (n - min piece.text.length n) rest

/-- The cut conversion gains exactly the padding the others lose. -/
def PaddingKept (size : Nat) (list : List Piece) : Prop :=
  extraPadding size list = lostPadding size list

instance (size : Nat) (list : List Piece) :
    Decidable (PaddingKept size list) :=
  inferInstanceAs
    (Decidable (extraPadding size list = lostPadding size list))

theorem padding_balance (n : Nat) (list : List Piece) :
    padding n list + lostPadding n list =
      fullPadding list + extraPadding n list := by
  induction list generalizing n with
  | nil => rfl
  | cons piece rest induction =>
      have tail := induction (n - min piece.text.length n)
      rw [padding, lostPadding, extraPadding, fullPadding_cons]
      split_ifs <;> omega

theorem padding_le_render (n : Nat) (list : List Piece) :
    padding n list ≤ (render list).length := by
  induction list generalizing n with
  | nil => simp [padding]
  | cons piece rest induction =>
      have tail := induction (n - min piece.text.length n)
      have opened : (render (piece :: rest)).length =
          piece.width - piece.text.length + piece.text.length +
            (render rest).length := by
        rw [render_length, render_length, fullPadding_cons,
          textLength_cons]
        omega
      rw [padding, opened]
      split_ifs <;> omega

/-- A call returns the length of a short expansion when its padding is kept. -/
theorem retOf_eq_iff
    {list : List Piece} (short : (render list).length < 2 ^ 31)
    (size : Nat) :
    retOf size list = (render list).length ↔ PaddingKept size list := by
  have balance := padding_balance size list
  have bounded := padding_le_render size list
  have total := render_length list
  rw [retOf, ← intOfUnsigned_of_lt short, intOfUnsigned_eq_iff, PaddingKept]
  omega

/--
Two calls both return the length of the expansion exactly when both sizes keep
the padding.
-/
theorem vsnprintf_same_ret_iff
    (first second : SizeT target) (format : CString) (args : List (Arg target))
    (matching : Matching format args) (errnum : Errno) :
    ∃ list full firstResult secondResult,
      pieces errnum format args = .ok list ∧
        expansion errnum format args = .ok full ∧
        vsnprintf first format args errnum = .ok firstResult ∧
        vsnprintf second format args errnum = .ok secondResult ∧
        (full.length < 2 ^ 31 →
          ((firstResult.ret = secondResult.ret ∧
              firstResult.ret = full.length) ↔
            PaddingKept first.toNat list ∧
              PaddingKept second.toNat list)) := by
  obtain ⟨list, resolved⟩ := pieces_of_matching errnum matching
  refine ⟨list, _, _, _, resolved, expansion_eq resolved,
    vsnprintf_eq resolved first, vsnprintf_eq resolved second, ?_⟩
  intro short
  have rendered := expansion_render short
  rw [rendered] at short ⊢
  rw [← retOf_eq_iff short, ← retOf_eq_iff short]
  constructor
  · rintro ⟨same, isLength⟩
    exact ⟨isLength, same.symm.trans isLength⟩
  · rintro ⟨firstLength, secondLength⟩
    exact ⟨firstLength.trans secondLength.symm, firstLength⟩

/--
A field of five behind three literal bytes: with no budget left for it the
padding is neither emitted nor counted.
-/
theorem vsnprintf_ret_depends_on_size :
    Matching (.ofAscii "abc%5s")
        [(.string (some (.ofAscii "x")) : Arg .x86_64)] ∧
      (∃ full,
        expansion 0 (.ofAscii "abc%5s")
            [(.string (some (.ofAscii "x")) : Arg .x86_64)] = .ok full ∧
          full.length = 8) ∧
      (∃ result,
        vsnprintf 1 (.ofAscii "abc%5s")
            [(.string (some (.ofAscii "x")) : Arg .x86_64)] 0 = .ok result ∧
          result.ret = 4) ∧
      (∃ result,
        vsnprintf 9 (.ofAscii "abc%5s")
            [(.string (some (.ofAscii "x")) : Arg .x86_64)] 0 = .ok result ∧
          result.ret = 8) :=
  ⟨by decide, ⟨_, rfl, rfl⟩, ⟨_, rfl, by decide⟩, ⟨_, rfl, by decide⟩⟩

theorem vsnprintf_same_ret_iff_field :
    ∃ list full firstResult secondResult,
      pieces 0 (.ofAscii "abc%5s")
          [(.string (some (.ofAscii "x")) : Arg .x86_64)] = .ok list ∧
        expansion 0 (.ofAscii "abc%5s")
            [(.string (some (.ofAscii "x")) : Arg .x86_64)] = .ok full ∧
        vsnprintf 1 (.ofAscii "abc%5s")
            [(.string (some (.ofAscii "x")) : Arg .x86_64)] 0 =
          .ok firstResult ∧
        vsnprintf 9 (.ofAscii "abc%5s")
            [(.string (some (.ofAscii "x")) : Arg .x86_64)] 0 =
          .ok secondResult ∧
        (full.length < 2 ^ 31 →
          ((firstResult.ret = secondResult.ret ∧
              firstResult.ret = full.length) ↔
            PaddingKept (1 : SizeT Target.x86_64).toNat list ∧
              PaddingKept (9 : SizeT Target.x86_64).toNat list)) :=
  vsnprintf_same_ret_iff 1 9 (.ofAscii "abc%5s")
    [(.string (some (.ofAscii "x")) : Arg .x86_64)] (by decide) 0

end Nolibc.Stdio.Snprintf

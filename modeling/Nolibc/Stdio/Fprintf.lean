import Nolibc.Stdio.Snprintf
import Nolibc.Sys

/-!
# Formatting to a stream

`_fwrite` and `vfprintf` of `stdio.h`, over a kernel that decides how many
bytes of each `write()` it takes.  A stream is the complement of a descriptor.

A schedule of short writes never loses a byte, because `_fwrite` retries with
what is left; so the stream and the buffer functions, which run the same
engine, produce the same bytes and the same result.
-/

set_option autoImplicit false

namespace Nolibc.Stdio.Fprintf

open Nolibc.Machine
open Nolibc.Foundation
open Nolibc.Stdio.Printf
open Nolibc.Stdio.Directives
open Nolibc.Stdio.Pieces
open Nolibc.Stdio.Snprintf
open Nolibc.Sys

variable {target : Target}

/-! ## Writing to a descriptor -/

/--
The kernel behind a descriptor: what the system call numbered `call` returns
when it is given `buf`, either a count or a negated error code.
-/
abbrev Schedule := (call : Nat) → (buf : List Byte) → Int

/-- Every `write()` takes between one byte and all of them. -/
def ShortWrites (schedule : Schedule) : Prop :=
  ∀ call buf, buf ≠ [] →
    1 ≤ schedule call buf ∧ schedule call buf ≤ buf.length

/-- What the descriptor received, and `errno`. -/
structure StreamState where
  delivered : List Byte
  calls : Nat
  errnum : Errno

instance : HasErrno StreamState where
  setErrno errnum io := { io with errnum }

/-- `sys_write`. -/
def sysWrite (schedule : Schedule) (fd : Int) (buf : List Byte)
    (io : StreamState) : Int × StreamState :=
  if fd < 0 then
    (-EBADF.toNat, io)
  else
    let ret := schedule io.calls buf
    (ret,
      { io with
        delivered := io.delivered ++ buf.take ret.toNat
        calls := io.calls + 1 })

/-- `write`. -/
def write (schedule : Schedule) (fd : Int) (buf : List Byte)
    (io : StreamState) : Int × StreamState :=
  let (ret, io) := sysWrite schedule fd buf io
  sysret ret io

/-- `while (size)` of `_fwrite`; `buf` is what is left of the buffer. -/
def fwriteLoop (schedule : Schedule) (fd : Int) (buf : List Byte)
    (io : StreamState) : Int × StreamState :=
  if buf = [] then
    (0, io)
  else if (write schedule fd buf io).1 ≤ 0 then
    (-1, (write schedule fd buf io).2)
  else
    fwriteLoop schedule fd
      (buf.drop (write schedule fd buf io).1.toNat)
      (write schedule fd buf io).2
termination_by buf.length
decreasing_by
  rename_i nonempty positive
  have long : 0 < buf.length := List.length_pos_of_ne_nil nonempty
  rw [List.length_drop]
  omega

/-- `_fwrite`, which returns 0 when all of the buffer is written. -/
def _fwrite (schedule : Schedule) (buf : List Byte) (stream : Int)
    (io : StreamState) : Int × StreamState :=
  let (fd, io) := fileno stream io
  fwriteLoop schedule fd buf io

/-- `__nolibc_fprintf_cb`. -/
def nolibcFprintfCb (schedule : Schedule) (stream : Int) :
    Callback StreamState where
  call io buf := _fwrite schedule buf stream io
  errno := StreamState.errnum

/-- `vfprintf`, of which the budget is `SIZE_MAX`. -/
def vfprintf (schedule : Schedule) (stream : Int) (format : CString)
    (args : List (Arg target)) (io : StreamState) :
    Except Fault (Return target StreamState) :=
  nolibcPrintf (nolibcFprintfCb schedule stream) io target.sizeMax format
    args

/-! ## Short writes lose nothing -/

/-- The state after a buffer has been delivered completely. -/
def Delivered (io : StreamState) (buf : List Byte)
    (after : StreamState) : Prop :=
  after.delivered = io.delivered ++ buf ∧ after.errnum = io.errnum

theorem write_of_shortWrites
    {schedule : Schedule} (short : ShortWrites schedule)
    {fd : Int} (valid : 0 ≤ fd) {buf : List Byte} (nonempty : buf ≠ [])
    (io : StreamState) :
    write schedule fd buf io =
      (schedule io.calls buf,
        { io with
          delivered :=
            io.delivered ++ buf.take (schedule io.calls buf).toNat
          calls := io.calls + 1 }) := by
  have accepted := short io.calls buf nonempty
  simp only [write, sysWrite, if_neg (show ¬ fd < 0 by omega)]
  exact sysret_of_nonneg (by omega) _

/-- The retry loop ends with every byte delivered, in order. -/
theorem fwriteLoop_of_shortWrites
    {schedule : Schedule} (short : ShortWrites schedule)
    {fd : Int} (valid : 0 ≤ fd) (buf : List Byte) (io : StreamState) :
    (fwriteLoop schedule fd buf io).1 = 0 ∧
      Delivered io buf (fwriteLoop schedule fd buf io).2 := by
  induction size : buf.length using Nat.strong_induction_on
    generalizing buf io with
  | h size induction =>
      subst size
      rw [fwriteLoop]
      by_cases empty : buf = []
      · rw [if_pos empty]
        exact ⟨rfl, by simp [empty], rfl⟩
      · have accepted := short io.calls buf empty
        have long : 0 < buf.length := List.length_pos_of_ne_nil empty
        rw [if_neg empty]
        simp only [write_of_shortWrites short valid empty]
        rw [if_neg (by omega)]
        obtain ⟨succeeded, delivered, errnum⟩ := induction _
          (by rw [List.length_drop]; omega)
          (buf.drop (schedule io.calls buf).toNat)
          { io with
            delivered :=
              io.delivered ++ buf.take (schedule io.calls buf).toNat
            calls := io.calls + 1 } rfl
        exact ⟨succeeded,
          by rw [delivered, List.append_assoc, List.take_append_drop],
          errnum⟩

section ValidStream

variable {schedule : Schedule} (short : ShortWrites schedule)
  {stream : Int} (valid : stream < 0)

include short valid

theorem fwrite_of_shortWrites (buf : List Byte) (io : StreamState) :
    (_fwrite schedule buf stream io).1 = 0 ∧
      Delivered io buf (_fwrite schedule buf stream io).2 := by
  simp only [_fwrite, fileno, if_neg (show ¬ stream ≥ 0 by omega)]
  exact fwriteLoop_of_shortWrites short (by omega) buf io

theorem fprintfCb_succeeds :
    Succeeds (nolibcFprintfCb schedule stream) :=
  fun io buf => (fwrite_of_shortWrites short valid buf io).1

theorem fprintfCb_errno (io : StreamState) (buf : List Byte) :
    (nolibcFprintfCb schedule stream).errno
        ((nolibcFprintfCb schedule stream).call io buf).2 =
      (nolibcFprintfCb schedule stream).errno io :=
  (fwrite_of_shortWrites short valid buf io).2.2

theorem deliver_fprintfCb
    (io : StreamState) (list : List (List Byte)) :
    (deliver (nolibcFprintfCb schedule stream) io list).delivered =
      io.delivered ++ list.flatten := by
  induction list generalizing io with
  | nil => simp [deliver]
  | cons chunk rest induction =>
      have step : deliver (nolibcFprintfCb schedule stream) io
            (chunk :: rest) =
          deliver (nolibcFprintfCb schedule stream)
            (_fwrite schedule chunk stream io).2 rest := rfl
      rw [step, induction,
        (fwrite_of_shortWrites short valid chunk io).2.1]
      simp

/--
Whatever the schedule of short writes, `vfprintf` delivers the bytes that
`vsprintf` stores before its final NUL, and returns the same value.
-/
theorem vfprintf_eq_vsprintf
    (format : CString) (args : List (Arg target))
    (matching : Matching format args) (io : StreamState)
    (buf : Nat → Byte) :
    ∃ full streamed stored,
      expansion io.errnum format args = .ok full ∧
        vfprintf schedule stream format args io = .ok streamed ∧
        vsprintf format args io.errnum = .ok stored ∧
        (full.length < 2 ^ 31 →
          streamed.ret = stored.ret ∧
            streamed.io.delivered =
              io.delivered ++
                (List.range stored.ret.toNat).map
                  (bufferAfter buf stored) ∧
            bufferAfter buf stored stored.ret.toNat = 0) := by
  obtain ⟨list, resolved⟩ := pieces_of_matching io.errnum matching
  obtain ⟨left, ran⟩ := nolibcPrintf_eq_pieces
    (fprintfCb_succeeds short valid)
    (Or.inr (fprintfCb_errno short valid)) resolved target.sizeMax
  refine ⟨_, _, _, expansion_eq resolved, ran,
    vsnprintf_eq resolved _, ?_⟩
  intro small
  have rendered := expansion_render small
  rw [rendered] at small
  have stored := vsprintf_eq resolved small
  rw [vsprintf, vsnprintf_eq resolved, Except.ok.injEq] at stored
  have size : target.sizeMax ≠ 0 ∧
      min (render list).length (target.sizeMax - 1) =
        (render list).length ∧
      (render list).take target.sizeMax = render list := by
    rcases target.sizeMax_cases with size | size <;>
      exact ⟨by omega, by omega, List.take_of_length_le (by omega)⟩
  have holds := holdsTruncated_of_stores buf size.1 target.sizeMax_lt
    (render list)
  rw [size.2.1, size.2.2] at holds
  have kept := holds.kept
  have nul := holds.nul
  rw [size.2.1, List.take_length] at kept
  rw [size.2.1] at nul
  rw [stored, deliver_fprintfCb short valid, rendered, Int.toNat_natCast]
  exact ⟨retOf_sizeMax target small, by rw [kept], nul⟩

end ValidStream

theorem vfprintf_eq_vsprintf_byte_by_byte :
    ∃ full streamed stored,
      expansion 0 (.ofAscii "%3s!")
          [(.string (some (.ofAscii "ab")) : Arg .x86_64)] = .ok full ∧
        vfprintf (fun _ _ => 1) (-2) (.ofAscii "%3s!")
            [(.string (some (.ofAscii "ab")) : Arg .x86_64)] ⟨[], 0, 0⟩ =
          .ok streamed ∧
        vsprintf (.ofAscii "%3s!")
            [(.string (some (.ofAscii "ab")) : Arg .x86_64)] 0 = .ok stored ∧
        (full.length < 2 ^ 31 →
          streamed.ret = stored.ret ∧
            streamed.io.delivered =
              [] ++
                (List.range stored.ret.toNat).map
                  (bufferAfter (fun _ => 0) stored) ∧
            bufferAfter (fun _ => 0) stored stored.ret.toNat = 0) :=
  vfprintf_eq_vsprintf
    (fun _ buf nonempty =>
      ⟨by decide, by
        have long : 0 < buf.length := List.length_pos_of_ne_nil nonempty
        omega⟩)
    (by decide) (.ofAscii "%3s!")
    [(.string (some (.ofAscii "ab")) : Arg .x86_64)] (by decide)
    ⟨[], 0, 0⟩ (fun _ => 0)

end Nolibc.Stdio.Fprintf

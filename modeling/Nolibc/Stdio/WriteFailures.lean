import Nolibc.Stdio.Fwrite

/-!
# Formatting to a stream that fails

When a call of the callback fails, the engine leaves its loop; but where the
call is the one of a padding byte, the `break` only leaves the padding loop,
and the text of the field is handed over all the same.  What is left out then
is in the middle of the output and not at its end.

`vfprintf_prefix_iff` says for which formats and arguments no pattern of
failing writes shows the gap, and `vfprintf_reports_iff` for which ones the
result tells a failed call from one that succeeded.
-/

set_option autoImplicit false

namespace Nolibc.Stdio.WriteFailures

open Nolibc.Machine
open Nolibc.Stdio.Printf
open Nolibc.Stdio.Directives
open Nolibc.Stdio.Pieces
open Nolibc.Stdio.Snprintf
open Nolibc.Stdio.Fprintf
open Nolibc.Stdio.Fwrite
open Nolibc.Sys

variable {target : Target} {σ : Type}

/-! ## Callbacks that append -/

/--
A callback that appends part of every chunk to an output: all of it when it
succeeds, and then `errno` is left alone.
-/
structure Appends (cb : Callback σ) (out : σ → List Byte) : Prop where
  sends : ∀ io chunk, ∃ sent, sent <+: chunk ∧
    out (cb.call io chunk).2 = out io ++ sent
  success : ∀ io chunk, (cb.call io chunk).1 = 0 →
    out (cb.call io chunk).2 = out io ++ chunk ∧
      cb.errno (cb.call io chunk).2 = cb.errno io

/-- A byte of padding. -/
abbrev space : Byte := ' '.toUInt8

/-- The spaces of a field of which `w` bytes of text are emitted. -/
def fieldPadding (width w : Nat) : List (List Byte) :=
  List.replicate (width - w) [space]

/-- Every byte is a space. -/
def Spaces (text : List Byte) : Prop :=
  ∀ byte ∈ text, byte = space

/--
Only spaces come behind the padding of a field, in its text and in all that
follows, while `n` bytes of text may go out.
-/
def PaddingAtEnd : Nat → List Piece → Prop
  | _, [] => True
  | n, piece :: rest =>
      let w := min piece.text.length n
      (n = 0 ∨ piece.width ≤ w ∨
          Spaces (piece.text.take w ++ (chunks (n - w) rest).flatten)) ∧
        PaddingAtEnd (n - w) rest

/--
The calls for padding bytes succeed, or only spaces come behind them, as far
as the engine gets.
-/
def PaddingHolds (cb : Callback σ) : σ → Nat → List Piece → Prop
  | _, _, [] => True
  | io, n, piece :: rest =>
      let w := min piece.text.length n
      (n = 0 ∨ Accepts cb io (fieldPadding piece.width w) ∨
          Spaces (piece.text.take w ++ (chunks (n - w) rest).flatten)) ∧
        (Accepts cb io (chunks n [piece]) →
          PaddingHolds cb (deliver cb io (chunks n [piece])) (n - w) rest)

theorem Spaces.eq_replicate {text : List Byte} (spaces : Spaces text) :
    text = List.replicate text.length space :=
  List.eq_replicate_iff.mpr ⟨rfl, spaces⟩

theorem spaces_replicate (count : Nat) :
    Spaces (List.replicate count space) :=
  fun _ member => List.eq_of_mem_replicate member

theorem spaces_append {first second : List Byte} :
    Spaces (first ++ second) ↔ Spaces first ∧ Spaces second :=
  List.forall_mem_append

/-- Fewer spaces are a prefix of more. -/
theorem Spaces.isPrefix
    {short long : List Byte} (few : Spaces short) (many : Spaces long)
    (fewer : short.length ≤ long.length) : short <+: long := by
  rw [few.eq_replicate, many.eq_replicate]
  exact ⟨List.replicate (long.length - short.length) space, by
    rw [← List.replicate_add, Nat.add_sub_cancel' fewer]⟩

theorem PaddingAtEnd.holds
    (cb : Callback σ) {n : Nat} {list : List Piece}
    (atEnd : PaddingAtEnd n list) (io : σ) : PaddingHolds cb io n list := by
  induction list generalizing n io with
  | nil => exact True.intro
  | cons piece rest induction =>
      rcases atEnd with ⟨here, later⟩
      refine ⟨?_, fun _ => induction later _⟩
      rcases here with spent | narrow | spaces
      · exact Or.inl spent
      · have none : piece.width - min piece.text.length n = 0 :=
          Nat.sub_eq_zero_of_le narrow
        rw [fieldPadding, none]
        exact Or.inr (Or.inl True.intro)
      · exact Or.inr (Or.inr spaces)

namespace Appends

variable {cb : Callback σ} {out : σ → List Byte} (appends : Appends cb out)

include appends

theorem out_deliver
    {io : σ} {list : List (List Byte)} (accepts : Accepts cb io list) :
    out (deliver cb io list) = out io ++ list.flatten := by
  induction list generalizing io with
  | nil => exact (List.append_nil _).symm
  | cons chunk rest induction =>
      have step : deliver cb io (chunk :: rest) =
          deliver cb (cb.call io chunk).2 rest := rfl
      rw [step, induction accepts.2, (appends.success io chunk accepts.1).1,
        List.flatten_cons, List.append_assoc]

theorem errno_deliver
    {io : σ} {list : List (List Byte)} (accepts : Accepts cb io list) :
    cb.errno (deliver cb io list) = cb.errno io :=
  Pieces.errno_deliver
    (fun io chunk succeeded => (appends.success io chunk succeeded).2) accepts

/-- Whatever fails, the padding loop appends at most its padding. -/
theorem padLoop_sends (w width written : Nat) (io : σ) :
    ∃ count, count ≤ width - w ∧
      out (padLoop cb w width written io).2 =
        out io ++ List.replicate count space := by
  induction width generalizing written io with
  | zero => exact ⟨0, Nat.zero_le _, (List.append_nil _).symm⟩
  | succ width induction =>
      rw [padLoop]
      split_ifs with wider
      · rcases appends.sends io [space] with ⟨sent, ⟨unsent, split⟩, first⟩
        have one : sent = List.replicate sent.length space :=
          List.eq_replicate_iff.mpr ⟨rfl, fun byte member =>
            List.mem_singleton.mp (split ▸ List.mem_append_left _ member)⟩
        have short := congrArg List.length split
        rw [List.length_append, List.length_singleton] at short
        by_cases failed : (cb.call io [space]).1 ≠ 0
        · simp only [if_pos failed]
          exact ⟨sent.length, by omega, by rw [first, ← one]⟩
        · simp only [if_neg failed]
          rcases induction ((written + 1) % 2 ^ 32)
              (cb.call io [space]).2 with ⟨count, fits, later⟩
          have whole := (appends.success io [space] (not_not.mp failed)).1
          refine ⟨count + 1, by omega, ?_⟩
          rw [later, whole, List.append_assoc, List.replicate_succ]
          rfl
      · exact ⟨0, Nat.zero_le _, (List.append_nil _).symm⟩

end Appends

/-! ## Directives under a callback that fails -/

theorem flush_spent
    (cb : Callback σ) (output : Output target σ) (spent : output.n = 0)
    (width : Nat) (text : List Byte) :
    flush cb width text output =
      .inl { output with
        written := (output.written + text.length) % 2 ^ 32 } := by
  rw [flush, if_neg (not_not_intro spent)]

theorem flush_unspent
    (cb : Callback σ) (output : Output target σ) (unspent : output.n ≠ 0)
    (width : Nat) (text : List Byte) :
    flush cb width text output =
      let w := min text.length output.n
      let padded := padLoop cb w width output.written output.io
      let called := cb.call padded.2 (text.take w)
      if called.1 ≠ 0 then
        .inr { output with
          n := output.n - w, written := padded.1, io := called.2 }.finish
      else
        .inl { output with
          n := output.n - w
          written := (padded.1 + text.length) % 2 ^ 32
          io := called.2 } := by
  rw [flush, if_pos unspent]

theorem chunks_unspent {n : Nat} (unspent : n ≠ 0) (piece : Piece) :
    chunks n [piece] =
      fieldPadding piece.width (min piece.text.length n) ++
        [piece.text.take (min piece.text.length n)] := by
  simp only [chunks, ne_eq, unspent, not_false_eq_true, if_true,
    List.append_nil, fieldPadding]

theorem chunks_unspent_flatten {n : Nat} (unspent : n ≠ 0) (piece : Piece) :
    (chunks n [piece]).flatten =
      List.replicate (piece.width - min piece.text.length n) space ++
        piece.text.take (min piece.text.length n) := by
  rw [chunks_unspent unspent, List.flatten_append, List.flatten_singleton,
    fieldPadding, List.flatten_replicate_singleton]

/-- Another `errno` only changes the text of a directive that prints it. -/
theorem pieceOf_other
    {errnum : Errno} {args left : List (Arg target)}
    {directive : Directive} {piece : Piece}
    (fetched : pieceOf errnum args directive = .ok (piece, left))
    (other : Errno) :
    ∃ text, pieceOf other args directive = .ok (⟨piece.width, text⟩, left) ∧
      (text = piece.text ∨ piece.text = strerror errnum) := by
  cases directive with
  | run bytes => exact ⟨piece.text, fetched, Or.inl rfl⟩
  | numeric width lpref conv => exact ⟨piece.text, fetched, Or.inl rfl⟩
  | string width => exact ⟨piece.text, fetched, Or.inl rfl⟩
  | errnoText width =>
      cases fetched
      exact ⟨strerror other, rfl, Or.inr rfl⟩

/-- The text of an `errno` starts with a letter. -/
theorem not_spaces_strerror
    (errnum : Errno) {count : Nat} (positive : 0 < count) :
    ¬ Spaces ((strerror errnum).take count) := by
  have letter : ∃ rest, strerror errnum = 'e'.toUInt8 :: rest := ⟨_, rfl⟩
  rcases letter with ⟨rest, starts⟩
  rcases Nat.exists_eq_add_of_lt positive with ⟨more, rfl⟩
  intro spaces
  rw [starts, List.take_succ_cons] at spaces
  exact absurd (spaces _ List.mem_cons_self) (by decide)

/-- A directive of which spaces come out prints the same for any `errno`. -/
theorem pieceOf_of_spaces
    {errnum : Errno} {args left : List (Arg target)}
    {directive : Directive} {piece : Piece}
    (fetched : pieceOf errnum args directive = .ok (piece, left))
    {n : Nat} (unspent : n ≠ 0)
    (spaces : Spaces (piece.text.take (min piece.text.length n)))
    (other : Errno) :
    pieceOf other args directive = .ok (piece, left) := by
  rcases pieceOf_other fetched other with ⟨text, found, plain | printed⟩
  · rwa [plain] at found
  · have long : 0 < piece.text.length := by
      rw [printed]
      exact List.length_pos_of_ne_nil (List.cons_ne_nil _ _)
    have some : 0 < min piece.text.length n := by omega
    rw [printed] at spaces
    exact absurd spaces (not_spaces_strerror errnum (printed ▸ some))

namespace Appends

variable {cb : Callback σ} {out : σ → List Byte} (appends : Appends cb out)

include appends

/-- Whatever fails, a flush appends padding and a part of its text. -/
theorem flush_sends
    {output : Output target σ} (unspent : output.n ≠ 0) (piece : Piece) :
    ∃ count sent,
      count ≤ piece.width - min piece.text.length output.n ∧
      sent <+: piece.text.take (min piece.text.length output.n) ∧
      match flush cb piece.width piece.text output with
      | .inr result =>
          out result.io =
            out output.io ++ (List.replicate count space ++ sent)
      | .inl next =>
          next.n = output.n - min piece.text.length output.n ∧
            next.args = output.args ∧
            out next.io =
              out output.io ++ (List.replicate count space ++ sent) := by
  rw [flush_unspent cb _ unspent]
  generalize min piece.text.length output.n = w
  rcases padLoop_sends appends w piece.width output.written output.io with
    ⟨count, fits, spaced⟩
  rcases appends.sends
      (padLoop cb w piece.width output.written output.io).2
      (piece.text.take w) with ⟨sent, part, more⟩
  rw [spaced, List.append_assoc] at more
  refine ⟨count, sent, fits, part, ?_⟩
  simp only
  split_ifs with succeeded
  · exact more
  · exact ⟨rfl, rfl, more⟩

/-- Once its padding is out, a flush succeeds or breaks off in the text. -/
theorem flush_of_padded
    (output : Output target σ) (unspent : output.n ≠ 0) {piece : Piece}
    (small : output.written < 2 ^ 32)
    (padded : Accepts cb output.io
      (fieldPadding piece.width (min piece.text.length output.n))) :
    Accepts cb output.io (chunks output.n [piece]) ∨
      ∃ result sent, flush cb piece.width piece.text output = .inr result ∧
        out result.io = out output.io ++ sent ∧
        sent <+: (chunks output.n [piece]).flatten := by
  rw [flush_unspent cb _ unspent, chunks_unspent unspent, accepts_append,
    List.flatten_append]
  generalize min piece.text.length output.n = w at padded ⊢
  simp only [padLoop_of_accepts padded small]
  have spaced := appends.out_deliver padded
  by_cases failed : (cb.call (deliver cb output.io
      (fieldPadding piece.width w)) (piece.text.take w)).1 ≠ 0
  · rcases appends.sends (deliver cb output.io (fieldPadding piece.width w))
        (piece.text.take w) with ⟨sent, part, more⟩
    rw [spaced, List.append_assoc] at more
    refine Or.inr ⟨_, _, if_pos failed, more, ?_⟩
    rw [List.flatten_singleton, List.prefix_append_right_inj]
    exact part
  · exact Or.inl ⟨padded, not_not.mp failed, True.intro⟩

/-- A flush of spaces appends spaces, and no more than it should. -/
theorem flush_spaces
    (output : Output target σ) (unspent : output.n ≠ 0) {piece : Piece}
    (spaces : Spaces (chunks output.n [piece]).flatten) :
    ∃ sent, Spaces sent ∧
      sent.length ≤ (chunks output.n [piece]).flatten.length ∧
      match flush cb piece.width piece.text output with
      | .inr result => out result.io = out output.io ++ sent
      | .inl next =>
          next.n = output.n - min piece.text.length output.n ∧
            next.args = output.args ∧
            out next.io = out output.io ++ sent := by
  rw [chunks_unspent_flatten unspent] at spaces ⊢
  rcases flush_sends appends unspent piece with
    ⟨count, sent, fits, part, outcome⟩
  refine ⟨List.replicate count space ++ sent,
    spaces_append.mpr ⟨spaces_replicate count, fun byte member =>
      (spaces_append.mp spaces).2 byte (part.subset member)⟩, ?_, outcome⟩
  rw [List.length_append, List.length_append, List.length_replicate,
    List.length_replicate]
  exact Nat.add_le_add fits part.length_le

/--
Where only spaces are left to emit, no more spaces than that come out,
whatever fails.
-/
theorem emit_spaces
    {list : List Directive} (output : Output target σ) {errnum : Errno}
    {fetched : List Piece} {left : List (Arg target)}
    (resolved : piecesOf errnum list output.args = .ok (fetched, left))
    (spaces : Spaces (chunks output.n fetched).flatten) :
    ∃ result sent, emit cb list output = .ok result ∧
      out result.io = out output.io ++ sent ∧ Spaces sent ∧
      sent.length ≤ (chunks output.n fetched).flatten.length := by
  induction list generalizing output fetched with
  | nil =>
      exact ⟨output.finish, [], rfl, (List.append_nil _).symm,
        spaces_replicate 0, Nat.zero_le _⟩
  | cons directive rest induction =>
      rcases piecesOf_split resolved with
        ⟨piece, args, ahead, one, more, rfl⟩
      rw [chunks_cons, List.flatten_append, spaces_append] at spaces
      rw [chunks_cons, List.flatten_append, List.length_append]
      -- What the directives behind this one do, from any state.
      have later (next : Output target σ)
          (budget : next.n = output.n - min piece.text.length output.n)
          (kept : next.args = args) :=
        induction next (kept ▸ more) (budget ▸ spaces.2)
      by_cases spent : output.n = 0
      · rcases pieceOf_other one (cb.errno output.io) with ⟨text, found, _⟩
        rw [emit, execute_eq_flush cb found,
          flush_spent cb { output with args } spent, proceed]
        rcases later
            ⟨output.n, (output.written + text.length) % 2 ^ 32, args,
              output.io⟩ (by rw [spent, Nat.zero_sub]) rfl with
          ⟨result, sent, ran, appended, blank, short⟩
        refine ⟨result, sent, ran, appended, blank, short.trans ?_⟩
        rw [spent, Nat.zero_sub]
        exact Nat.le_add_left _ _
      · have blankText := spaces.1
        rw [chunks_unspent_flatten spent, spaces_append] at blankText
        rw [emit, execute_eq_flush cb
          (pieceOf_of_spaces one spent blankText.2 (cb.errno output.io))]
        rcases flush_spaces appends { output with args } spent spaces.1 with
          ⟨sent, blankSent, fewer, outcome⟩
        cases flushed : flush cb piece.width piece.text
            { output with args } with
        | inr result =>
            rw [flushed] at outcome
            exact ⟨result, sent, rfl, outcome, blankSent,
              fewer.trans (Nat.le_add_right _ _)⟩
        | inl next =>
            rw [flushed] at outcome
            rcases outcome with ⟨budget, kept, appended⟩
            rcases later _ budget kept with
              ⟨result, moreSent, ran, moreAppended, blankMore, short⟩
            rw [appended, List.append_assoc] at moreAppended
            refine ⟨result, _, ran, moreAppended,
              spaces_append.mpr ⟨blankSent, blankMore⟩, ?_⟩
            rw [List.length_append]
            rw [budget] at short
            exact Nat.add_le_add fewer short

/--
While the padding holds, what comes out is a prefix of the expansion, whatever
fails.
-/
theorem emit_prefix
    {list : List Directive} (output : Output target σ)
    (small : output.written < 2 ^ 32)
    {fetched : List Piece} {left : List (Arg target)}
    (resolved : piecesOf (cb.errno output.io) list output.args =
      .ok (fetched, left))
    (holds : PaddingHolds cb output.io output.n fetched) :
    ∃ result sent, emit cb list output = .ok result ∧
      out result.io = out output.io ++ sent ∧
      sent <+: (chunks output.n fetched).flatten := by
  induction list generalizing output fetched with
  | nil =>
      exact ⟨output.finish, [], rfl, (List.append_nil _).symm,
        List.nil_prefix⟩
  | cons directive rest induction =>
      rcases piecesOf_split resolved with
        ⟨piece, args, ahead, one, more, rfl⟩
      rcases holds with ⟨here, onward⟩
      -- A piece that the callback accepts leaves the rest to the induction.
      have accepted
          (accepts : Accepts cb output.io (chunks output.n [piece])) :
          ∃ result sent, emit cb (directive :: rest) output = .ok result ∧
            out result.io = out output.io ++ sent ∧
            sent <+: (chunks output.n (piece :: ahead)).flatten := by
        have flushed := flush_of_accepts { output with args } accepts small
        rw [← appends.errno_deliver accepts] at more
        rcases induction
            ⟨output.n - min piece.text.length output.n,
              (output.written + (padding output.n [piece] +
                piece.text.length)) % 2 ^ 32,
              args, deliver cb output.io (chunks output.n [piece])⟩
            (Nat.mod_lt _ (Nat.two_pow_pos 32)) more
            (onward accepts) with ⟨result, sent, ran, appended, part⟩
        rw [appends.out_deliver accepts, List.append_assoc] at appended
        refine ⟨result, _, ?_, appended, ?_⟩
        · rw [emit, execute_eq_flush cb one, flushed, proceed]
          exact ran
        · rw [chunks_cons output.n piece ahead, List.flatten_append,
            List.prefix_append_right_inj]
          exact part
      by_cases spent : output.n = 0
      · apply accepted
        rw [spent, chunks_zero]
        exact True.intro
      · rcases here with zero | padded | spaces
        · exact absurd zero spent
        · rcases flush_of_padded appends { output with args } spent small
              padded with
            accepts | ⟨result, sent, flushed, appended, part⟩
          · exact accepted accepts
          · refine ⟨result, sent, ?_, appended, ?_⟩
            · rw [emit, execute_eq_flush cb one, flushed, proceed]
            · rw [chunks_cons output.n piece ahead, List.flatten_append]
              exact part.trans (List.prefix_append _ _)
        · have all : Spaces
              (chunks output.n (piece :: ahead)).flatten := by
            rw [chunks_cons, List.flatten_append,
              chunks_unspent_flatten spent, List.append_assoc,
              spaces_append]
            exact ⟨spaces_replicate _, spaces⟩
          rcases appends.emit_spaces _ resolved all with
            ⟨result, sent, ran, appended, blank, fewer⟩
          exact ⟨result, sent, ran, appended, blank.isPrefix all fewer⟩

end Appends

/-! ## Streams -/

theorem fprintfCb_appends
    (schedule : Schedule) {stream : Int} (valid : stream < 0) :
    Appends (nolibcFprintfCb schedule stream) StreamState.delivered := by
  have call (io : StreamState) (chunk : List Byte) :
      (nolibcFprintfCb schedule stream).call io chunk =
        fwriteLoop schedule (-stream - 1) chunk io := by
    simp only [nolibcFprintfCb, _fwrite, fileno,
      if_neg (Int.not_le.mpr valid), ge_iff_le]
  have descriptor : 0 ≤ -stream - 1 := by omega
  constructor
  · intro io chunk
    rcases (fwriteLoop_sends schedule descriptor chunk io).1 with
      ⟨sent, part, appended, _⟩
    rw [call]
    exact ⟨sent, part, appended⟩
  · intro io chunk
    rcases fwriteLoop_sends schedule descriptor chunk io with
      ⟨⟨sent, _, appended, whole⟩, kept⟩
    rw [call]
    intro succeeded
    rw [whole.mp succeeded] at appended
    exact ⟨appended, kept succeeded⟩

/-- Nothing is ever delivered to a stream that is not valid. -/
theorem fprintfCb_invalid
    (schedule : Schedule) {stream : Int} (invalid : 0 ≤ stream)
    (io : StreamState) (chunk : List Byte) :
    ((nolibcFprintfCb schedule stream).call io chunk).2.delivered =
      io.delivered := by
  simp only [nolibcFprintfCb, _fwrite, fileno, ge_iff_le, if_pos invalid]
  exact (fwriteLoop_invalid schedule chunk _).2

/-- To a stream that is not valid nothing is delivered. -/
theorem vfprintf_invalid
    (schedule : Schedule) (stream : Int) {format : CString}
    {args : List (Arg target)} (matching : Matching format args)
    (io : StreamState) (invalid : 0 ≤ stream) :
    ∃ result, vfprintf schedule stream format args io = .ok result ∧
      result.io.delivered = io.delivered := by
  rcases emit_related (nolibcFprintfCb schedule stream)
      (fun before after => after.delivered = before.delivered) (fun _ => rfl)
      (fun first second => second.trans first)
      (fprintfCb_invalid schedule invalid) ⟨target.sizeMax, 0, args, io⟩
      matching with
    ⟨result, ran, same⟩
  exact ⟨result, (nolibcPrintf_eq_emit _ _ _ _ _).trans ran, same⟩

/-! ## Which bytes are delivered -/

/-- What is delivered is a prefix of the expansion. -/
def DeliversPrefix (schedule : Schedule) (stream : Int) (format : CString)
    (args : List (Arg target)) (io : StreamState) : Prop :=
  ∃ full result sent,
    expansion io.errnum format args = .ok full ∧
      vfprintf schedule stream format args io = .ok result ∧
      result.io.delivered = io.delivered ++ sent ∧ sent <+: full

/-- In every run in which the padding holds, a prefix is delivered. -/
theorem deliversPrefix_of_holds
    {format : CString} {args : List (Arg target)}
    (matching : Matching format args) {io : StreamState}
    {list : List Piece} (resolved : pieces io.errnum format args = .ok list)
    {schedule : Schedule} {stream : Int}
    (holds : PaddingHolds (nolibcFprintfCb schedule stream) io
      target.sizeMax list) :
    DeliversPrefix schedule stream format args io := by
  have full := expansion_eq resolved
  by_cases valid : stream < 0
  · rcases piecesOf_of_pieces resolved with ⟨left, fetched⟩
    rcases Appends.emit_prefix (fprintfCb_appends schedule valid)
        ⟨target.sizeMax, 0, args, io⟩ (Nat.two_pow_pos 32) fetched holds with
      ⟨result, sent, ran, appended, part⟩
    exact ⟨_, result, sent, full,
      (nolibcPrintf_eq_emit _ _ _ _ _).trans ran, appended, part⟩
  · rcases vfprintf_invalid schedule stream matching io
        (Int.not_lt.mp valid) with ⟨result, ran, same⟩
    exact ⟨_, result, [], full, ran,
      same.trans (List.append_nil _).symm, List.nil_prefix⟩

/-! ## A single write that fails -/

/-- Every write takes its whole buffer, but the one numbered `failAt`. -/
def failsAt (failAt : Nat) : Schedule :=
  fun call buf => if call = failAt then 0 else buf.length

/-- What the callback of a stream over such a kernel does. -/
def failsAtCallback (failAt : Nat) : Callback StreamState where
  call io chunk :=
    if chunk = [] then
      (0, io)
    else if io.calls = failAt then
      (-1, { io with calls := io.calls + 1 })
    else
      (0, ⟨io.delivered ++ chunk, io.calls + 1, io.errnum⟩)
  errno := StreamState.errnum

theorem fprintfCb_failsAt
    (failAt : Nat) {stream : Int} (valid : stream < 0) :
    nolibcFprintfCb (failsAt failAt) stream = failsAtCallback failAt := by
  have descriptor : ¬ -stream - 1 < 0 := by omega
  rw [nolibcFprintfCb, failsAtCallback, Callback.mk.injEq]
  refine ⟨?_, rfl⟩
  funext io chunk
  simp only [_fwrite, fileno, ge_iff_le, if_neg (Int.not_le.mpr valid)]
  rw [fwriteLoop]
  by_cases empty : chunk = []
  · rw [if_pos empty, if_pos empty]
  · have long : 0 < chunk.length := List.length_pos_of_ne_nil empty
    rw [if_neg empty, if_neg empty]
    by_cases failing : io.calls = failAt
    · simp [write, sysWrite, sysret, descriptor, failsAt, failing]
    · have whole : write (failsAt failAt) (-stream - 1) chunk io =
          ((chunk.length : Int),
            (⟨io.delivered ++ chunk, io.calls + 1, io.errnum⟩ :
              StreamState)) := by
        simp [write, sysWrite, sysret, descriptor, failsAt, failing]
      rw [whole, if_neg (by simp [empty]), if_neg failing, fwriteLoop,
        if_pos (by simp)]

/-- How many writes a list of chunks takes when none of them is short. -/
def writes (list : List (List Byte)) : Nat :=
  (list.filter fun chunk => chunk ≠ []).length

/-- Before and behind its failure, such a kernel takes every chunk. -/
theorem failsAt_accepts
    {failAt : Nat} (io : StreamState) (list : List (List Byte))
    (apart : io.calls + writes list ≤ failAt ∨ failAt < io.calls) :
    Accepts (failsAtCallback failAt) io list ∧
      deliver (failsAtCallback failAt) io list =
        ⟨io.delivered ++ list.flatten, io.calls + writes list,
          io.errnum⟩ := by
  induction list generalizing io with
  | nil => exact ⟨True.intro, by simp [deliver, writes]⟩
  | cons chunk rest induction =>
      by_cases empty : chunk = []
      · have call : (failsAtCallback failAt).call io chunk = (0, io) :=
          if_pos empty
        have same : writes (chunk :: rest) = writes rest := by
          simp [writes, empty]
        rw [same] at apart ⊢
        rcases induction io apart with ⟨accepts, delivered⟩
        constructor
        · rw [Accepts, call]
          exact ⟨rfl, accepts⟩
        · have step : deliver (failsAtCallback failAt) io (chunk :: rest) =
              deliver (failsAtCallback failAt)
                ((failsAtCallback failAt).call io chunk).2 rest := rfl
          rw [step, call, delivered, empty, List.flatten_cons,
            List.nil_append]
      · have more : writes (chunk :: rest) = writes rest + 1 := by
          simp [writes, empty]
        have different : io.calls ≠ failAt := by omega
        have call : (failsAtCallback failAt).call io chunk =
            (0, ⟨io.delivered ++ chunk, io.calls + 1, io.errnum⟩) :=
          (if_neg empty).trans (if_neg different)
        have apartRest :
            io.calls + 1 + writes rest ≤ failAt ∨ failAt < io.calls + 1 := by
          omega
        rcases induction
            ⟨io.delivered ++ chunk, io.calls + 1, io.errnum⟩ apartRest with
          ⟨accepts, delivered⟩
        constructor
        · rw [Accepts, call]
          exact ⟨rfl, accepts⟩
        · have step : deliver (failsAtCallback failAt) io (chunk :: rest) =
              deliver (failsAtCallback failAt)
                ((failsAtCallback failAt).call io chunk).2 rest := rfl
          rw [step, call, delivered, more, List.flatten_cons,
            List.append_assoc, Nat.add_assoc, Nat.add_comm 1]

theorem failsAtCallback_errno
    (failAt : Nat) (io : StreamState) (chunk : List Byte) :
    (failsAtCallback failAt).errno
        ((failsAtCallback failAt).call io chunk).2 = io.errnum := by
  simp only [failsAtCallback]
  split_ifs
  · rfl
  · rfl
  · rfl

/-- A flush of which the first padding byte fails goes on with its text. -/
theorem flush_failsAt
    (output : Output target StreamState) (unspent : output.n ≠ 0)
    {piece : Piece}
    (wide : min piece.text.length output.n < piece.width) :
    flush (failsAtCallback output.io.calls) piece.width piece.text output =
      .inl
        { n := output.n - min piece.text.length output.n
          written := (output.written + piece.text.length) % 2 ^ 32
          args := output.args
          io := deliver (failsAtCallback output.io.calls)
            { output.io with calls := output.io.calls + 1 }
            [piece.text.take (min piece.text.length output.n)] } := by
  rw [flush_unspent _ _ unspent]
  generalize min piece.text.length output.n = w at wide ⊢
  have skipped : padLoop (failsAtCallback output.io.calls) w piece.width
      output.written output.io =
        (output.written,
          { output.io with calls := output.io.calls + 1 }) := by
    cases width : piece.width with
    | zero =>
        rw [width] at wide
        exact absurd wide (Nat.not_lt_zero w)
    | succ count =>
        rw [width] at wide
        have failed : (failsAtCallback output.io.calls).call output.io
            [space] =
              (-1, { output.io with calls := output.io.calls + 1 }) := by
          simp [failsAtCallback]
        simp only [padLoop, if_pos wide, failed, ne_eq, if_true,
          show ¬ (-1 : Int) = 0 by decide, not_false_eq_true]
  have accepts := (failsAt_accepts
    { output.io with calls := output.io.calls + 1 } [piece.text.take w]
    (Or.inr (Nat.lt_succ_self _))).1
  simp only [skipped, accepts.1, ne_eq, not_true_eq_false, if_false]
  rfl

/-- A text that is a prefix of itself behind some spaces is all spaces. -/
theorem spaces_of_shifted
    {count : Nat} {text : List Byte}
    (shifted : text <+: List.replicate (count + 1) space ++ text) :
    Spaces text := by
  induction text with
  | nil => exact spaces_replicate 0
  | cons byte rest induction =>
      rw [List.replicate_succ, List.cons_append,
        List.cons_prefix_cons] at shifted
      rcases shifted with ⟨rfl, shifted⟩
      have onward : rest <+: List.replicate (count + 1) space ++ rest := by
        rw [List.replicate_succ', List.append_assoc]
        exact shifted
      intro other member
      rcases List.mem_cons.mp member with rfl | later
      · rfl
      · exact induction onward other later

/-- Where the first padding byte fails, all but the padding comes out. -/
theorem emit_failsAt
    {directive : Directive} {rest : List Directive}
    {output : Output target StreamState} (unspent : output.n ≠ 0)
    {piece : Piece} {ahead : List Piece} {args left : List (Arg target)}
    (one : pieceOf output.io.errnum output.args directive =
      .ok (piece, args))
    (more : piecesOf output.io.errnum rest args = .ok (ahead, left))
    (wide : min piece.text.length output.n < piece.width) :
    ∃ result,
      emit (failsAtCallback output.io.calls) (directive :: rest) output =
          .ok result ∧
        result.io.delivered =
          output.io.delivered ++
            (piece.text.take (min piece.text.length output.n) ++
              (chunks (output.n - min piece.text.length output.n)
                ahead).flatten) := by
  have behind (io : StreamState) (later : output.io.calls < io.calls)
      (list : List (List Byte)) :=
    failsAt_accepts io list (Or.inr later)
  have flushed := flush_failsAt { output with args } unspent wide
  have text := (behind { output.io with calls := output.io.calls + 1 }
    (Nat.lt_succ_self _)
    [piece.text.take (min piece.text.length output.n)]).2
  rw [text] at flushed
  have kept : ErrnoKept (failsAtCallback output.io.calls) rest :=
    Or.inr fun io chunk _ => failsAtCallback_errno output.io.calls io chunk
  let next : Output target StreamState :=
    ⟨output.n - min piece.text.length output.n,
      (output.written + piece.text.length) % 2 ^ 32, args,
      ⟨output.io.delivered ++
          [piece.text.take (min piece.text.length output.n)].flatten,
        output.io.calls + 1 +
          writes [piece.text.take (min piece.text.length output.n)],
        output.io.errnum⟩⟩
  have small : next.written < 2 ^ 32 := Nat.mod_lt _ (by decide)
  have last : output.io.calls < next.io.calls :=
    Nat.lt_of_lt_of_le (Nat.lt_succ_self _) (Nat.le_add_right _ _)
  rcases behind next.io last (chunks next.n ahead) with
    ⟨accepts, delivered⟩
  have ran := emit_of_accepts kept _ small more accepts
  rw [delivered] at ran
  refine ⟨_, Eq.trans ?_ ran, ?_⟩
  · rw [emit, execute_eq_flush (failsAtCallback output.io.calls) one,
      flushed]
    rfl
  · simp only [next, List.flatten_singleton, List.append_assoc]

/--
Where something else than spaces comes behind the padding of a field, the
failure of its first byte leaves a gap.
-/
theorem emit_gap
    {list : List Directive} (output : Output target StreamState)
    (small : output.written < 2 ^ 32)
    {fetched : List Piece} {left : List (Arg target)}
    (resolved : piecesOf output.io.errnum list output.args =
      .ok (fetched, left))
    (gap : ¬ PaddingAtEnd output.n fetched) :
    ∃ failAt, output.io.calls ≤ failAt ∧ ∃ result sent,
      emit (failsAtCallback failAt) list output = .ok result ∧
        result.io.delivered = output.io.delivered ++ sent ∧
        ¬ sent <+: (chunks output.n fetched).flatten := by
  induction list generalizing output fetched with
  | nil =>
      cases resolved
      exact absurd True.intro gap
  | cons directive rest induction =>
      rcases piecesOf_split resolved with
        ⟨piece, args, ahead, one, more, rfl⟩
      by_cases later : PaddingAtEnd
          (output.n - min piece.text.length output.n) ahead
      · have here : ¬ (output.n = 0 ∨
            piece.width ≤ min piece.text.length output.n ∨
            Spaces (piece.text.take (min piece.text.length output.n) ++
              (chunks (output.n - min piece.text.length output.n)
                ahead).flatten)) :=
          fun safe => gap ⟨safe, later⟩
        rw [not_or, not_or, Nat.not_le] at here
        rcases here with ⟨unspent, wide, other⟩
        rcases emit_failsAt unspent one more wide with
          ⟨result, ran, appended⟩
        refine ⟨output.io.calls, Nat.le_refl _, result, _, ran, appended,
          ?_⟩
        rcases Nat.exists_eq_add_of_lt wide with ⟨count, width⟩
        have missing : piece.width - min piece.text.length output.n =
            count + 1 := by omega
        rw [chunks_cons, List.flatten_append,
          chunks_unspent_flatten unspent, missing, List.append_assoc]
        exact fun shifted => other (spaces_of_shifted shifted)
      · let next : Output target StreamState :=
          ⟨output.n - min piece.text.length output.n,
            (output.written + (padding output.n [piece] +
              piece.text.length)) % 2 ^ 32,
            args,
            ⟨output.io.delivered ++ (chunks output.n [piece]).flatten,
              output.io.calls + writes (chunks output.n [piece]),
              output.io.errnum⟩⟩
        have counted : next.written < 2 ^ 32 :=
          Nat.mod_lt
            (output.written + (padding output.n [piece] +
              piece.text.length)) (Nat.two_pow_pos 32)
        rcases induction next counted more later with
          ⟨failAt, after, result, sent, ran, appended, notPrefix⟩
        rcases failsAt_accepts _ _ (Or.inl after) with ⟨accepts, delivered⟩
        have flushed := flush_of_accepts { output with args } accepts small
        refine ⟨failAt, (Nat.le_add_right _ _).trans after, result, _, ?_,
          appended.trans (List.append_assoc _ _ _), ?_⟩
        · rw [emit, execute_eq_flush (failsAtCallback failAt) one, flushed,
            proceed, delivered]
          exact ran
        · rw [chunks_cons output.n piece ahead, List.flatten_append,
            List.prefix_append_right_inj]
          exact notPrefix

/-- In the expansion of a call only spaces come behind the padding. -/
def EndsInPadding (errnum : Errno) (format : CString)
    (args : List (Arg target)) : Prop :=
  ∀ list, pieces errnum format args = .ok list →
    PaddingAtEnd target.sizeMax list

/-- In a run no write of a padding byte fails in front of something other than
spaces. -/
def PaddingWritten (schedule : Schedule) (stream : Int) (format : CString)
    (args : List (Arg target)) (io : StreamState) : Prop :=
  ∀ list, pieces io.errnum format args = .ok list →
    PaddingHolds (nolibcFprintfCb schedule stream) io target.sizeMax list

/--
A run in which the padding is written delivers a prefix of the expansion; and
whatever writes fail and whatever writes succeed behind them, a prefix is
delivered exactly when only spaces come behind the padding of the expansion.
-/
theorem vfprintf_prefix_iff
    (format : CString) (args : List (Arg target))
    (matching : Matching format args) (io : StreamState) :
    (∀ schedule stream, PaddingWritten schedule stream format args io →
        DeliversPrefix schedule stream format args io) ∧
      ((∀ schedule stream, DeliversPrefix schedule stream format args io) ↔
        EndsInPadding io.errnum format args) := by
  rcases pieces_of_matching io.errnum matching with ⟨list, resolved⟩
  refine ⟨fun schedule stream written =>
    deliversPrefix_of_holds matching resolved (written list resolved),
    ?_, ?_⟩
  · intro delivers list resolved
    by_contra gap
    rcases piecesOf_of_pieces resolved with ⟨left, fetched⟩
    rcases emit_gap ⟨target.sizeMax, 0, args, io⟩ (Nat.two_pow_pos 32) fetched
        gap with
      ⟨failAt, _, result, sent, ran, appended, notPrefix⟩
    rcases delivers (failsAt failAt) (-2) with
      ⟨full, other, part, expanded, called, delivered, isPrefix⟩
    have valid : (-2 : Int) < 0 := by decide
    rw [vfprintf, fprintfCb_failsAt failAt valid, nolibcPrintf_eq_emit, ran,
      Except.ok.injEq] at called
    rw [expansion_eq resolved, Except.ok.injEq] at expanded
    rw [← called, appended] at delivered
    rw [List.append_cancel_left delivered, expanded] at notPrefix
    exact notPrefix isPrefix
  · intro atEnd schedule stream
    exact deliversPrefix_of_holds matching resolved
      ((atEnd list resolved).holds (nolibcFprintfCb schedule stream) io)

theorem vfprintf_prefix_iff_padded :
    (∀ schedule stream,
        PaddingWritten schedule stream (.ofAscii "%3s")
            [(.string (some (.ofAscii "ab")) : Arg .x86_64)] ⟨[], 0, 0⟩ →
          DeliversPrefix schedule stream (.ofAscii "%3s")
            [(.string (some (.ofAscii "ab")) : Arg .x86_64)] ⟨[], 0, 0⟩) ∧
      ((∀ schedule stream,
          DeliversPrefix schedule stream (.ofAscii "%3s")
            [(.string (some (.ofAscii "ab")) : Arg .x86_64)] ⟨[], 0, 0⟩) ↔
        EndsInPadding 0 (.ofAscii "%3s")
          [(.string (some (.ofAscii "ab")) : Arg .x86_64)]) :=
  vfprintf_prefix_iff (.ofAscii "%3s")
    [(.string (some (.ofAscii "ab")) : Arg .x86_64)] (by decide) ⟨[], 0, 0⟩

/-- The first write, of the padding byte, fails, and `ab` is delivered. -/
theorem vfprintf_skips_padding :
    ¬ DeliversPrefix (failsAt 0) (-2) (.ofAscii "%3s")
      [(.string (some (.ofAscii "ab")) : Arg .x86_64)] ⟨[], 0, 0⟩ := by
  rintro ⟨full, result, sent, expanded, called, delivered, isPrefix⟩
  have valid : (-2 : Int) < 0 := by decide
  have whole : expansion 0 (.ofAscii "%3s")
      [(.string (some (.ofAscii "ab")) : Arg .x86_64)] =
        .ok (ascii " ab") := rfl
  have ran : nolibcPrintf (failsAtCallback 0) ⟨[], 0, 0⟩
      Target.x86_64.sizeMax (.ofAscii "%3s")
      [(.string (some (.ofAscii "ab")) : Arg .x86_64)] =
        .ok ⟨2, [], ⟨ascii "ab", 2, 0⟩⟩ := rfl
  rw [vfprintf, fprintfCb_failsAt 0 valid, ran, Except.ok.injEq] at called
  rw [whole, Except.ok.injEq] at expanded
  rw [← called, List.nil_append] at delivered
  rw [← delivered, ← expanded] at isPrefix
  exact absurd isPrefix (by decide)

/-! ## What the result tells -/

/-- A result that is not negative means that everything was delivered. -/
def ReportsFailure (schedule : Schedule) (stream : Int) (format : CString)
    (args : List (Arg target)) (io : StreamState) : Prop :=
  ∃ full result,
    expansion io.errnum format args = .ok full ∧
      vfprintf schedule stream format args io = .ok result ∧
      (0 ≤ result.ret → result.io.delivered = io.delivered ++ full)

/-- No write fails when the expansion is written from its start. -/
def AllWritten (schedule : Schedule) (stream : Int) (format : CString)
    (args : List (Arg target)) (io : StreamState) : Prop :=
  ∀ list, pieces io.errnum format args = .ok list →
    Accepts (nolibcFprintfCb schedule stream) io
      (chunks target.sizeMax list)

/-- A callback of which only the calls without a byte succeed. -/
def Rejects (cb : Callback σ) : Prop :=
  ∀ io chunk, (cb.call io chunk).1 = 0 ↔ chunk = []

/-- When the first write fails, the count is the one from the start. -/
theorem emit_rejected
    {cb : Callback σ} (rejects : Rejects cb) {list : List Directive}
    (output : Output target σ) (unspent : output.n ≠ 0)
    (small : output.written < 2 ^ 32)
    (matching : MatchesDirectives list output.args) :
    ∃ result, emit cb list output = .ok result ∧
      result.ret = intOfUnsigned output.written := by
  induction list generalizing output with
  | nil => exact ⟨output.finish, rfl, rfl⟩
  | cons directive rest induction =>
      rcases pieceOf_of_matches (cb.errno output.io) matching with
        ⟨piece, left, fetched, remaining⟩
      have counted (w written : Nat) (io : σ) :
          (padLoop cb w piece.width written io).1 = written := by
        cases piece.width with
        | zero => rfl
        | succ width =>
            have failed : (cb.call io [space]).1 ≠ 0 :=
              (rejects io [space]).not.mpr (List.cons_ne_nil _ _)
            rw [padLoop]
            split_ifs
            · simp only [if_pos failed]
            · rfl
      have flushed := flush_unspent cb { output with args := left } unspent
        piece.width piece.text
      rw [emit, execute_eq_flush cb fetched, flushed]
      simp only [counted, rejects _ _, ne_eq]
      by_cases empty : piece.text = []
      · simp only [empty, List.length_nil, Nat.zero_min, Nat.sub_zero,
          Nat.add_zero, List.take_nil, not_true_eq_false, if_false, proceed,
          Nat.mod_eq_of_lt small]
        exact induction _ unspent small remaining
      · have some : piece.text.take (min piece.text.length output.n) ≠
            [] := by
          rw [Ne, List.take_eq_nil_iff, not_or]
          have long : 0 < piece.text.length :=
            List.length_pos_of_ne_nil empty
          exact ⟨by omega, empty⟩
        rw [if_pos some]
        exact ⟨_, rfl, rfl⟩

/-- Every write takes nothing. -/
def takesNothing : Schedule :=
  fun _ _ => 0

/-- A kernel that takes nothing makes every call with a byte fail. -/
theorem takesNothing_call (stream : Int) (io : StreamState)
    (chunk : List Byte) :
    (((nolibcFprintfCb takesNothing stream).call io chunk).1 = 0 ↔
        chunk = []) ∧
      ((nolibcFprintfCb takesNothing stream).call io chunk).2.delivered =
        io.delivered := by
  have nothing (fd : Int) (io : StreamState) :
      (write takesNothing fd chunk io).1 ≤ 0 ∧
        (write takesNothing fd chunk io).2.delivered = io.delivered := by
    by_cases valid : 0 ≤ fd
    · rcases write_valid takesNothing valid chunk io with
        ⟨failed_iff, delivered, _⟩
      exact ⟨failed_iff.mpr (Int.le_refl 0),
        delivered.trans (List.append_nil _)⟩
    · have failed : write takesNothing fd chunk io =
          (-1, { io with errnum := EBADF }) := by
        simp only [write, sysWrite, if_pos (Int.not_le.mp valid)]
        rfl
      rw [failed]
      exact ⟨show (-1 : Int) ≤ 0 by decide, rfl⟩
  have opened : (fileno stream io).2.delivered = io.delivered := by
    rw [fileno]
    split_ifs
    · rfl
    · rfl
  simp only [nolibcFprintfCb, _fwrite]
  rw [fwriteLoop]
  split_ifs with empty failed
  · exact ⟨iff_of_true rfl empty, opened⟩
  · exact ⟨iff_of_false (show ¬ (-1 : Int) = 0 by decide) empty,
      (nothing _ _).2.trans opened⟩
  · exact absurd (nothing _ _).1 failed

/-- A stream that is not valid only accepts chunks without a byte. -/
theorem accepts_invalid
    {schedule : Schedule} {stream : Int} (invalid : 0 ≤ stream)
    {io : StreamState} {list : List (List Byte)}
    (accepts : Accepts (nolibcFprintfCb schedule stream) io list) :
    list.flatten = [] := by
  induction list generalizing io with
  | nil => rfl
  | cons chunk rest induction =>
      have empty : chunk = [] := by
        by_contra nonempty
        have failed (io : StreamState) :
            write schedule (-1) chunk io =
              (-1, { io with errnum := EBADF }) := rfl
        have rejected := accepts.1
        simp only [nolibcFprintfCb, _fwrite, fileno, ge_iff_le,
          if_pos invalid] at rejected
        rw [fwriteLoop, failed, if_neg nonempty,
          if_pos (show (-1 : Int) ≤ 0 by decide)] at rejected
        exact absurd rejected (show ¬ (-1 : Int) = 0 by decide)
      rw [List.flatten_cons, empty, induction accepts.2, List.nil_append]

section Result

variable (schedule : Schedule) (stream : Int) {format : CString}
  {args : List (Arg target)} (matching : Matching format args)
  (io : StreamState)

include matching

/-- When no write fails, everything is delivered. -/
theorem reportsFailure_of_written
    (written : AllWritten schedule stream format args io) :
    ReportsFailure schedule stream format args io := by
  rcases pieces_of_matching io.errnum matching with ⟨list, resolved⟩
  have accepts := written list resolved
  have full := expansion_eq resolved
  by_cases valid : stream < 0
  · have appends := fprintfCb_appends schedule valid
    rcases piecesOf_of_pieces resolved with ⟨left, fetched⟩
    have kept : ErrnoKept (nolibcFprintfCb schedule stream)
        (directives format) :=
      Or.inr fun io chunk succeeded =>
        (appends.success io chunk succeeded).2
    have ran := emit_of_accepts kept ⟨target.sizeMax, 0, args, io⟩
      (Nat.two_pow_pos 32) fetched accepts
    exact ⟨_, _, full, (nolibcPrintf_eq_emit _ _ _ _ _).trans ran,
      fun _ => appends.out_deliver accepts⟩
  · rcases vfprintf_invalid schedule stream matching io
        (Int.not_lt.mp valid) with ⟨result, ran, same⟩
    rw [accepts_invalid (Int.not_lt.mp valid) accepts] at full
    exact ⟨_, result, full, ran,
      fun _ => same.trans (List.append_nil _).symm⟩

/-- When nothing is to be delivered, nothing is missing. -/
theorem reportsFailure_of_empty
    (nothing : expansion io.errnum format args = .ok []) :
    ReportsFailure schedule stream format args io := by
  by_cases valid : stream < 0
  · rcases pieces_of_matching io.errnum matching with ⟨list, resolved⟩
    rcases piecesOf_of_pieces resolved with ⟨left, fetched⟩
    have empty := expansion_eq resolved
    rw [nothing, Except.ok.injEq] at empty
    rcases Appends.emit_spaces (fprintfCb_appends schedule valid)
        ⟨target.sizeMax, 0, args, io⟩ fetched (empty ▸ spaces_replicate 0) with
      ⟨result, sent, ran, appended, _, short⟩
    rw [← empty, List.length_nil, Nat.le_zero,
      List.length_eq_zero_iff] at short
    rw [short] at appended
    exact ⟨[], result, nothing, (nolibcPrintf_eq_emit _ _ _ _ _).trans ran,
      fun _ => appended⟩
  · rcases vfprintf_invalid schedule stream matching io
        (Int.not_lt.mp valid) with ⟨result, ran, same⟩
    exact ⟨[], result, nothing, ran,
      fun _ => same.trans (List.append_nil _).symm⟩

/-- When no byte can be written, the result is zero all the same. -/
theorem vfprintf_takesNothing :
    ∃ result, vfprintf takesNothing stream format args io = .ok result ∧
      result.ret = 0 ∧ result.io.delivered = io.delivered := by
  have rejects : Rejects (nolibcFprintfCb takesNothing stream) :=
    fun io chunk => (takesNothing_call stream io chunk).1
  have unspent : target.sizeMax ≠ 0 := by
    rcases target.sizeMax_cases with size | size
    · omega
    · omega
  rcases emit_rejected rejects ⟨target.sizeMax, 0, args, io⟩ unspent
      (Nat.two_pow_pos 32) matching with
    ⟨result, ran, zero⟩
  rcases emit_related (nolibcFprintfCb takesNothing stream)
      (fun before after => after.delivered = before.delivered) (fun _ => rfl)
      (fun first second => second.trans first)
      (fun io chunk => (takesNothing_call stream io chunk).2)
      ⟨target.sizeMax, 0, args, io⟩ matching with
    ⟨other, again, same⟩
  rw [ran, Except.ok.injEq] at again
  rw [← again] at same
  exact ⟨result, (nolibcPrintf_eq_emit _ _ _ _ _).trans ran, zero, same⟩

/--
A run in which no write fails delivers what its result tells; and the result
tells it in every run exactly when the expansion is empty.
-/
theorem vfprintf_reports_iff :
    (∀ schedule, AllWritten schedule stream format args io →
        ReportsFailure schedule stream format args io) ∧
      ((∀ schedule, ReportsFailure schedule stream format args io) ↔
        expansion io.errnum format args = .ok []) := by
  refine ⟨fun schedule => reportsFailure_of_written schedule stream
    matching io, ?_, fun nothing schedule =>
      reportsFailure_of_empty schedule stream matching io nothing⟩
  intro reports
  rcases reports takesNothing with ⟨full, result, expanded, called, tells⟩
  rcases vfprintf_takesNothing stream matching io with
    ⟨other, ran, zero, same⟩
  rw [called, Except.ok.injEq] at ran
  rw [← ran] at zero same
  have delivered := tells (Int.le_of_eq zero.symm)
  rw [same, List.self_eq_append_right] at delivered
  rw [expanded, delivered]

end Result

theorem vfprintf_reports_iff_padded :
    (∀ schedule,
        AllWritten schedule (-2) (.ofAscii "%3s")
            [(.string (some (.ofAscii "ab")) : Arg .x86_64)] ⟨[], 0, 0⟩ →
          ReportsFailure schedule (-2) (.ofAscii "%3s")
            [(.string (some (.ofAscii "ab")) : Arg .x86_64)]
            ⟨[], 0, 0⟩) ∧
      ((∀ schedule,
          ReportsFailure schedule (-2) (.ofAscii "%3s")
            [(.string (some (.ofAscii "ab")) : Arg .x86_64)]
            ⟨[], 0, 0⟩) ↔
        expansion 0 (.ofAscii "%3s")
          [(.string (some (.ofAscii "ab")) : Arg .x86_64)] = .ok []) :=
  vfprintf_reports_iff (-2) (by decide) ⟨[], 0, 0⟩

/-- The write of `b` fails, and the call returns 1 for the `a` before it. -/
theorem vfprintf_hides_failure :
    ¬ ReportsFailure (failsAt 1) (-2) (.ofAscii "a%s")
      [(.string (some (.ofAscii "b")) : Arg .x86_64)] ⟨[], 0, 0⟩ := by
  rintro ⟨full, result, expanded, called, tells⟩
  have valid : (-2 : Int) < 0 := by decide
  have whole : expansion 0 (.ofAscii "a%s")
      [(.string (some (.ofAscii "b")) : Arg .x86_64)] =
        .ok (ascii "ab") := rfl
  have ran : nolibcPrintf (failsAtCallback 1) ⟨[], 0, 0⟩
      Target.x86_64.sizeMax (.ofAscii "a%s")
      [(.string (some (.ofAscii "b")) : Arg .x86_64)] =
        .ok ⟨1, [], ⟨ascii "a", 2, 0⟩⟩ := rfl
  rw [vfprintf, fprintfCb_failsAt 1 valid, ran, Except.ok.injEq] at called
  rw [whole, Except.ok.injEq] at expanded
  rw [← called, ← expanded] at tells
  exact absurd (tells (by decide)) (by decide)

end Nolibc.Stdio.WriteFailures

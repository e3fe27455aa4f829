import Nolibc.Stdio.Directives

/-!
# What reaches a callback that always succeeds

When no call of the callback fails, the output of the engine only depends on
the widths and the texts of its conversions: the `pieces` of a call.  `chunks`
is the list of the buffers handed to the callback when a budget of `n` bytes
is left, and `emit_pieces` reduces a run of the engine to it.

The rest of the module measures these chunks.  Everything a call stores is
padding and text, and only the text is charged to the budget.
-/

set_option autoImplicit false

namespace Nolibc.Stdio.Pieces

open Nolibc.Machine
open Nolibc.Stdio.Printf
open Nolibc.Stdio.Directives

variable {target : Target} {σ : Type}

/-! ## Matching arguments -/

/-- The type of the argument a directive reads, if it reads one. -/
def demand (target : Target) : Directive → Option ArgKind
  | .run _ => none
  | .numeric _ lpref conv => some (numericKind target lpref conv)
  | .string _ => some .string
  | .errnoText _ => none

/-- The argument types a list of directives reads, in order. -/
def demands (target : Target) (list : List Directive) : List ArgKind :=
  list.filterMap (demand target)

/-- The arguments start with the ones the directives read. -/
def MatchesDirectives (list : List Directive) (args : List (Arg target)) :
    Prop :=
  demands target list <+: args.map Arg.kind

/-- The argument list has the types the format asks for. -/
def Matching (format : CString) (args : List (Arg target)) : Prop :=
  MatchesDirectives (directives format) args

instance (format : CString) (args : List (Arg target)) :
    Decidable (Matching format args) :=
  inferInstanceAs (Decidable (_ <+: _))

theorem vaArg_of_kind
    {kind : ArgKind} (numeric : kind ≠ .string)
    {arg : Arg target} (equal : arg.kind = kind)
    (rest : List (Arg target)) :
    ∃ v, vaArg kind (arg :: rest) = .ok (v, rest) := by
  cases arg with
  | string value => exact absurd equal.symm numeric
  | int value =>
      exact ⟨_, if_pos (show kind = .int from equal.symm)⟩
  | long value =>
      exact ⟨_, if_pos (show kind = .long from equal.symm)⟩
  | longLong value =>
      exact ⟨_, if_pos (show kind = .longLong from equal.symm)⟩
  | pointer value =>
      exact ⟨_, if_pos (show kind = .pointer from equal.symm)⟩

theorem vaString_of_kind
    {arg : Arg target} (equal : arg.kind = .string)
    (rest : List (Arg target)) :
    ∃ string, vaString (arg :: rest) = .ok (string, rest) := by
  cases arg with
  | string value => exact ⟨value, rfl⟩
  | int value => cases equal
  | long value => cases equal
  | longLong value => cases equal
  | pointer value => cases equal

theorem numericKind_ne_string (lpref conv : Byte) :
    numericKind target lpref conv ≠ .string := by
  unfold numericKind
  split_ifs <;> simp

/-! ## Pieces -/

/-- A directive with its argument: the text it prints in a field. -/
structure Piece where
  width : Nat
  text : List Byte
  deriving DecidableEq, Repr

/-- Fetch the argument of one directive. -/
def pieceOf (errnum : Errno) (args : List (Arg target)) :
    Directive → Except Fault (Piece × List (Arg target))
  | .run bytes => .ok (⟨0, bytes⟩, args)
  | .numeric width lpref conv => do
      let (v, args) ← vaArg (numericKind target lpref conv) args
      return (⟨width, textOf (tmpbuf target lpref conv v)⟩, args)
  | .string width => do
      let (string, args) ← vaString args
      return (⟨width, stringText string⟩, args)
  | .errnoText width => .ok (⟨width, strerror errnum⟩, args)

/-- Fetch the arguments of a list of directives. -/
def piecesOf (errnum : Errno) :
    List Directive → List (Arg target) →
      Except Fault (List Piece × List (Arg target))
  | [], args => .ok ([], args)
  | directive :: rest, args =>
      match pieceOf errnum args directive with
      | .error fault => .error fault
      | .ok (piece, args) =>
          match piecesOf errnum rest args with
          | .error fault => .error fault
          | .ok (pieces, args) => .ok (piece :: pieces, args)

/-- The pieces a call prints. -/
def pieces (errnum : Errno) (format : CString) (args : List (Arg target)) :
    Except Fault (List Piece) :=
  (piecesOf errnum (directives format) args).map Prod.fst

theorem piecesOf_cons
    {errnum : Errno} {directive : Directive} {rest : List Directive}
    {args left unused : List (Arg target)} {piece : Piece}
    {list : List Piece}
    (first : pieceOf errnum args directive = .ok (piece, left))
    (others : piecesOf errnum rest left = .ok (list, unused)) :
    piecesOf errnum (directive :: rest) args =
      .ok (piece :: list, unused) := by
  simp only [piecesOf, first, others]

/-- A list that was fetched was fetched one directive after the other. -/
theorem piecesOf_split
    {errnum : Errno} {directive : Directive} {rest : List Directive}
    {args unused : List (Arg target)} {list : List Piece}
    (resolved : piecesOf errnum (directive :: rest) args =
      .ok (list, unused)) :
    ∃ piece left ahead,
      pieceOf errnum args directive = .ok (piece, left) ∧
        piecesOf errnum rest left = .ok (ahead, unused) ∧
        list = piece :: ahead := by
  rw [piecesOf] at resolved
  cases first : pieceOf errnum args directive with
  | error fault => simp [first] at resolved
  | ok value =>
      rcases value with ⟨piece, left⟩
      cases others : piecesOf errnum rest left with
      | error fault => simp [first, others] at resolved
      | ok value =>
          rcases value with ⟨ahead, unused⟩
          simp only [first, others, Except.ok.injEq,
            Prod.mk.injEq] at resolved
          rcases resolved with ⟨rfl, rfl⟩
          exact ⟨piece, left, ahead, rfl, others, rfl⟩

/-- The text of a number is that of the argument that was fetched. -/
theorem pieceOf_numeric_inv
    {errnum : Errno} {width : Nat} {lpref conv : Byte}
    {args left : List (Arg target)} {piece : Piece}
    (fetched : pieceOf errnum args (.numeric width lpref conv) =
      .ok (piece, left)) :
    ∃ v, vaArg (numericKind target lpref conv) args = .ok (v, left) ∧
      piece = ⟨width, textOf (tmpbuf target lpref conv v)⟩ := by
  cases equal : vaArg (numericKind target lpref conv) args with
  | error fault => simp [pieceOf, equal, bind, Except.bind] at fetched
  | ok value =>
      simp only [pieceOf, equal, bind, Except.bind, pure, Except.pure,
        Except.ok.injEq, Prod.mk.injEq] at fetched
      rcases fetched with ⟨rfl, rfl⟩
      exact ⟨value.1, rfl, rfl⟩

theorem pieceOf_string_inv
    {errnum : Errno} {width : Nat} {args left : List (Arg target)}
    {piece : Piece}
    (fetched : pieceOf errnum args (.string width) = .ok (piece, left)) :
    ∃ string, vaString args = .ok (string, left) ∧
      piece = ⟨width, stringText string⟩ := by
  cases equal : vaString args with
  | error fault => simp [pieceOf, equal, bind, Except.bind] at fetched
  | ok value =>
      simp only [pieceOf, equal, bind, Except.bind, pure, Except.pure,
        Except.ok.injEq, Prod.mk.injEq] at fetched
      rcases fetched with ⟨rfl, rfl⟩
      exact ⟨value.1, rfl, rfl⟩

/-- A directive finds its argument in front of those of the others. -/
theorem pieceOf_of_matches
    (errnum : Errno) {directive : Directive} {rest : List Directive}
    {args : List (Arg target)}
    (matching : MatchesDirectives (directive :: rest) args) :
    ∃ piece left, pieceOf errnum args directive = .ok (piece, left) ∧
      MatchesDirectives rest left := by
  cases directive with
  | run bytes => exact ⟨_, args, rfl, matching⟩
  | errnoText width => exact ⟨_, args, rfl, matching⟩
  | numeric width lpref conv =>
      cases args with
      | nil => simp [MatchesDirectives, demands, demand] at matching
      | cons arg left =>
          obtain ⟨equal, remaining⟩ :
              numericKind target lpref conv = arg.kind ∧
                MatchesDirectives rest left := by
            simpa [MatchesDirectives, demands, demand,
              List.cons_prefix_cons] using matching
          obtain ⟨v, fetched⟩ := vaArg_of_kind
            (numericKind_ne_string lpref conv) equal.symm left
          exact ⟨_, left, by rw [pieceOf, fetched]; rfl, remaining⟩
  | string width =>
      cases args with
      | nil => simp [MatchesDirectives, demands, demand] at matching
      | cons arg left =>
          obtain ⟨equal, remaining⟩ :
              ArgKind.string = arg.kind ∧ MatchesDirectives rest left := by
            simpa [MatchesDirectives, demands, demand,
              List.cons_prefix_cons] using matching
          obtain ⟨string, fetched⟩ := vaString_of_kind equal.symm left
          exact ⟨_, left, by rw [pieceOf, fetched]; rfl, remaining⟩

theorem piecesOf_of_matches
    (errnum : Errno) {list : List Directive} {args : List (Arg target)}
    (matching : MatchesDirectives list args) :
    ∃ fetched, piecesOf errnum list args = .ok fetched := by
  induction list generalizing args with
  | nil => exact ⟨_, rfl⟩
  | cons directive rest induction =>
      rcases pieceOf_of_matches errnum matching with
        ⟨piece, left, fetched, remaining⟩
      rcases induction remaining with ⟨⟨ahead, unused⟩, fetchedRest⟩
      exact ⟨(piece :: ahead, unused), piecesOf_cons fetched fetchedRest⟩

/-! ## Chunks -/

/-- The buffers handed to the callback while `n` bytes of text may go out. -/
def chunks : Nat → List Piece → List (List Byte)
  | _, [] => []
  | n, piece :: rest =>
      let w := min piece.text.length n
      (if n ≠ 0 then
        List.replicate (piece.width - w) [' '.toUInt8] ++
          [piece.text.take w]
      else
        []) ++ chunks (n - w) rest

/-- The spaces among these chunks. -/
def padding : Nat → List Piece → Nat
  | _, [] => 0
  | n, piece :: rest =>
      let w := min piece.text.length n
      (if n ≠ 0 then piece.width - w else 0) + padding (n - w) rest

/-- The length of all the texts. -/
def textLength (list : List Piece) : Nat :=
  (list.map fun piece => piece.text.length).sum

@[simp]
theorem textLength_nil : textLength [] = 0 :=
  rfl

@[simp]
theorem textLength_cons (piece : Piece) (rest : List Piece) :
    textLength (piece :: rest) = piece.text.length + textLength rest := by
  simp [textLength]

/-- The state of a callback after a list of calls. -/
def deliver (cb : Callback σ) (io : σ) (list : List (List Byte)) : σ :=
  list.foldl (fun io chunk => (cb.call io chunk).2) io

theorem deliver_append
    (cb : Callback σ) (io : σ) (first second : List (List Byte)) :
    deliver cb io (first ++ second) =
      deliver cb (deliver cb io first) second := by
  simp [deliver]

/-- No call of the callback fails. -/
def Succeeds (cb : Callback σ) : Prop :=
  ∀ io chunk, (cb.call io chunk).1 = 0

/-- No call fails when the callback is handed a list of chunks. -/
def Accepts (cb : Callback σ) : σ → List (List Byte) → Prop
  | _, [] => True
  | io, chunk :: rest =>
      (cb.call io chunk).1 = 0 ∧ Accepts cb (cb.call io chunk).2 rest

theorem accepts_append
    (cb : Callback σ) (io : σ) (first second : List (List Byte)) :
    Accepts cb io (first ++ second) ↔
      Accepts cb io first ∧ Accepts cb (deliver cb io first) second := by
  induction first generalizing io with
  | nil => exact (and_iff_right True.intro).symm
  | cons chunk rest induction =>
      have step : deliver cb io (chunk :: rest) =
          deliver cb (cb.call io chunk).2 rest := rfl
      rw [List.cons_append, Accepts, Accepts, induction, step, and_assoc]

theorem Succeeds.accepts
    {cb : Callback σ} (succeeds : Succeeds cb) (io : σ)
    (list : List (List Byte)) : Accepts cb io list := by
  induction list generalizing io with
  | nil => exact True.intro
  | cons chunk rest induction => exact ⟨succeeds io chunk, induction _⟩

/-- No directive reads `errno`, or the callback leaves `errno` alone. -/
def ErrnoSettled (cb : Callback σ) (list : List Directive) : Prop :=
  (∀ width, .errnoText width ∉ list) ∨
    ∀ io chunk, cb.errno (cb.call io chunk).2 = cb.errno io

/-- No directive reads `errno`, or a call that succeeds leaves it alone. -/
def ErrnoKept (cb : Callback σ) (list : List Directive) : Prop :=
  (∀ width, .errnoText width ∉ list) ∨
    ∀ io chunk, (cb.call io chunk).1 = 0 →
      cb.errno (cb.call io chunk).2 = cb.errno io

theorem ErrnoSettled.kept
    {cb : Callback σ} {list : List Directive}
    (settled : ErrnoSettled cb list) : ErrnoKept cb list := by
  rcases settled with absent | stable
  · exact Or.inl absent
  · exact Or.inr fun io chunk _ => stable io chunk

theorem ErrnoKept.tail
    {cb : Callback σ} {directive : Directive} {rest : List Directive}
    (kept : ErrnoKept cb (directive :: rest)) : ErrnoKept cb rest := by
  rcases kept with absent | stable
  · exact Or.inl fun width member =>
      absent width (List.mem_cons_of_mem _ member)
  · exact Or.inr stable

theorem errno_deliver
    {cb : Callback σ}
    (stable : ∀ io chunk, (cb.call io chunk).1 = 0 →
      cb.errno (cb.call io chunk).2 = cb.errno io)
    {io : σ} {list : List (List Byte)} (accepts : Accepts cb io list) :
    cb.errno (deliver cb io list) = cb.errno io := by
  induction list generalizing io with
  | nil => rfl
  | cons chunk rest induction =>
      exact (induction accepts.2).trans (stable io chunk accepts.1)

/-- Padding that the callback accepts is written to the width. -/
theorem padLoop_of_accepts
    {cb : Callback σ} {w width written : Nat} {io : σ}
    (accepts : Accepts cb io (List.replicate (width - w) [' '.toUInt8]))
    (small : written < 2 ^ 32) :
    padLoop cb w width written io =
      ((written + (width - w)) % 2 ^ 32,
        deliver cb io (List.replicate (width - w) [' '.toUInt8])) := by
  induction width generalizing written io with
  | zero =>
      simp only [padLoop, Nat.zero_sub, Nat.add_zero,
        Nat.mod_eq_of_lt small]
      rfl
  | succ width induction =>
      rw [padLoop]
      split_ifs with wider
      · have fewer : width + 1 - w = (width - w) + 1 := by omega
        rw [fewer, List.replicate_succ] at accepts ⊢
        simp only [accepts.1, ne_eq, not_true_eq_false, if_false,
          induction accepts.2 (Nat.mod_lt _ (by decide))]
        congr 1
        omega
      · have none : width + 1 - w = 0 := by omega
        simp only [none, Nat.add_zero, Nat.mod_eq_of_lt small]
        rfl

/-- Flushing a piece hands over its chunks and counts padding and text. -/
theorem flush_of_accepts
    {cb : Callback σ} {piece : Piece} (output : Output target σ)
    (accepts : Accepts cb output.io (chunks output.n [piece]))
    (small : output.written < 2 ^ 32) :
    flush cb piece.width piece.text output =
      .inl
        { n := output.n - min piece.text.length output.n
          written :=
            (output.written + (padding output.n [piece] +
              piece.text.length)) % 2 ^ 32
          args := output.args
          io := deliver cb output.io (chunks output.n [piece]) } := by
  unfold flush
  by_cases spent : output.n = 0
  · simp [spent, padding, chunks, deliver]
  · simp only [chunks, ne_eq, spent, not_false_eq_true, if_true,
      List.append_nil, accepts_append] at accepts
    rcases accepts with ⟨padded, written, _⟩
    simp only [ne_eq, spent, not_false_eq_true, if_true,
      padLoop_of_accepts padded small, written, not_true_eq_false, if_false,
      padding, chunks, Nat.add_zero, List.append_nil, deliver_append]
    congr 2
    omega

theorem chunks_cons (n : Nat) (piece : Piece) (rest : List Piece) :
    chunks n (piece :: rest) =
      chunks n [piece] ++
        chunks (n - min piece.text.length n) rest := by
  simp [chunks]

theorem padding_cons (n : Nat) (piece : Piece) (rest : List Piece) :
    padding n (piece :: rest) =
      padding n [piece] +
        padding (n - min piece.text.length n) rest := by
  simp [padding]

/-- Executing a directive flushes the piece it stands for. -/
theorem execute_eq_flush
    (cb : Callback σ) {directive : Directive} {output : Output target σ}
    {piece : Piece} {left : List (Arg target)}
    (fetched : pieceOf (cb.errno output.io) output.args directive =
      .ok (piece, left)) :
    execute cb output directive =
      .ok (flush cb piece.width piece.text { output with args := left }) := by
  cases directive with
  | run bytes =>
      cases fetched
      rfl
  | errnoText width =>
      cases fetched
      rfl
  | numeric width lpref conv =>
      rcases pieceOf_numeric_inv fetched with ⟨v, found, rfl⟩
      simp [execute, found, bind, Except.bind, pure, Except.pure]
  | string width =>
      rcases pieceOf_string_inv fetched with ⟨string, found, rfl⟩
      simp [execute, found, bind, Except.bind, pure, Except.pure]

/-- Without `%m` the pieces do not depend on `errno`. -/
theorem piecesOf_errno
    {list : List Directive}
    (absent : ∀ width, .errnoText width ∉ list)
    (first second : Errno) (args : List (Arg target)) :
    piecesOf first list args = piecesOf second list args := by
  induction list generalizing args with
  | nil => rfl
  | cons directive rest induction =>
      have same : pieceOf first args directive =
          pieceOf second args directive := by
        cases directive with
        | errnoText width => exact absurd (by simp) (absent width)
        | run bytes => rfl
        | numeric width lpref conv => rfl
        | string width => rfl
      have tail (left : List (Arg target)) :
          piecesOf first rest left = piecesOf second rest left :=
        induction
          (fun width member =>
            absent width (List.mem_cons_of_mem _ member)) left
      simp only [piecesOf, same, tail]

/-- The directives left see the same `errno` as the first one. -/
theorem ErrnoKept.piecesOf_deliver
    {cb : Callback σ} {list : List Directive} (kept : ErrnoKept cb list)
    {io : σ} {handed : List (List Byte)} (accepts : Accepts cb io handed)
    (args : List (Arg target)) :
    piecesOf (cb.errno (deliver cb io handed)) list args =
      piecesOf (cb.errno io) list args := by
  rcases kept with absent | stable
  · exact piecesOf_errno absent _ _ args
  · rw [errno_deliver stable accepts]

/--
Executing directives while no call of the callback fails hands over the chunks
of their pieces, and counts their padding and their text.
-/
theorem emit_of_accepts
    {cb : Callback σ} {list : List Directive} (kept : ErrnoKept cb list)
    (output : Output target σ) (small : output.written < 2 ^ 32)
    {fetched : List Piece} {left : List (Arg target)}
    (resolved : piecesOf (cb.errno output.io) list output.args =
      .ok (fetched, left))
    (accepts : Accepts cb output.io (chunks output.n fetched)) :
    emit cb list output =
      .ok
        ⟨intOfUnsigned
            (output.written + (padding output.n fetched +
              textLength fetched)),
          left, deliver cb output.io (chunks output.n fetched)⟩ := by
  induction list generalizing output fetched with
  | nil =>
      cases resolved
      rfl
  | cons directive rest induction =>
      rcases piecesOf_split resolved with
        ⟨piece, args, ahead, one, more, rfl⟩
      rw [chunks_cons, accepts_append] at accepts
      rcases accepts with ⟨acceptsFirst, acceptsRest⟩
      have resolvedRest := kept.tail.piecesOf_deliver acceptsFirst args
      rw [more] at resolvedRest
      have smallNext : ({ output with args } : Output target σ).written <
          2 ^ 32 := small
      have flushed := flush_of_accepts { output with args } acceptsFirst
        smallNext
      rw [emit, execute_eq_flush cb one, flushed, proceed,
        induction kept.tail _ (Nat.mod_lt _ (by decide)) resolvedRest
          acceptsRest,
        chunks_cons output.n piece ahead,
        padding_cons output.n piece ahead, textLength_cons,
        deliver_append]
      congr 2
      rw [intOfUnsigned_eq_iff]
      simp only
      omega

/--
Executing directives with a callback that always succeeds hands over the
chunks of their pieces, and counts their padding and their text.
-/
theorem emit_eq_pieces
    {cb : Callback σ} (succeeds : Succeeds cb)
    {list : List Directive} (settled : ErrnoSettled cb list)
    {output : Output target σ} (small : output.written < 2 ^ 32)
    {fetched : List Piece} {left : List (Arg target)}
    (resolved : piecesOf (cb.errno output.io) list output.args =
      .ok (fetched, left)) :
    emit cb list output =
      .ok
        ⟨intOfUnsigned
            (output.written + (padding output.n fetched +
              textLength fetched)),
          left, deliver cb output.io (chunks output.n fetched)⟩ :=
  emit_of_accepts settled.kept _ small resolved
    (succeeds.accepts output.io (chunks output.n fetched))

theorem piecesOf_of_pieces
    {errnum : Errno} {format : CString} {args : List (Arg target)}
    {list : List Piece} (resolved : pieces errnum format args = .ok list) :
    ∃ left, piecesOf errnum (directives format) args = .ok (list, left) := by
  unfold pieces at resolved
  cases fetched : piecesOf errnum (directives format) args with
  | error fault => simp [fetched, Except.map] at resolved
  | ok value =>
      simp only [fetched, Except.map, Except.ok.injEq] at resolved
      exact ⟨value.2, by rw [← resolved]⟩

/-- A call of the engine whose callback always succeeds. -/
theorem nolibcPrintf_eq_pieces
    {cb : Callback σ} (succeeds : Succeeds cb) {format : CString}
    (settled : ErrnoSettled cb (directives format))
    {io : σ} {args : List (Arg target)} {list : List Piece}
    (resolved : pieces (cb.errno io) format args = .ok list) (n : Nat) :
    ∃ left,
      nolibcPrintf cb io n format args =
        .ok ⟨intOfUnsigned (padding n list + textLength list), left,
          deliver cb io (chunks n list)⟩ := by
  rcases piecesOf_of_pieces resolved with ⟨left, fetched⟩
  let start : Output target σ := ⟨n, 0, args, io⟩
  have nothing : start.written < 2 ^ 32 := Nat.two_pow_pos 32
  refine ⟨left, ?_⟩
  rw [nolibcPrintf_eq_emit, emit_eq_pieces succeeds settled nothing fetched,
    Nat.zero_add]

theorem pieces_of_matching
    (errnum : Errno) {format : CString} {args : List (Arg target)}
    (matching : Matching format args) :
    ∃ list, pieces errnum format args = .ok list := by
  obtain ⟨fetched, resolved⟩ := piecesOf_of_matches errnum matching
  exact ⟨fetched.1, by rw [pieces, resolved]; rfl⟩

/-! ## Any callback -/

section Related

variable {cb : Callback σ} {R : σ → σ → Prop} (refl : ∀ io, R io io)
  (trans : ∀ {first second third : σ},
    R first second → R second third → R first third)
  (calls : ∀ io chunk, R io (cb.call io chunk).2)

include refl trans calls

theorem padLoop_related (w width written : Nat) (io : σ) :
    R io (padLoop cb w width written io).2 := by
  induction width generalizing written io with
  | zero => exact refl io
  | succ width induction =>
      have first := calls io [' '.toUInt8]
      rw [padLoop]
      split_ifs
      · simp only
        split_ifs
        · exact first
        · exact trans first (induction _ _)
      · exact refl io

theorem flush_related
    (width : Nat) (text : List Byte) (output : Output target σ) :
    match flush cb width text output with
    | .inl next => R output.io next.io ∧ next.args = output.args
    | .inr result => R output.io result.io ∧ result.args = output.args := by
  unfold flush
  split_ifs
  · have called := trans
      (padLoop_related refl trans calls (min text.length output.n) width
        output.written output.io)
      (calls _ (text.take (min text.length output.n)))
    simp only
    split_ifs
    · exact ⟨called, rfl⟩
    · exact ⟨called, rfl⟩
  · exact ⟨refl output.io, rfl⟩

variable (cb R) in
/--
With the arguments the directives ask for, a run ends, and relates the states
of the callback as a sequence of calls does.
-/
theorem emit_related
    {list : List Directive} (output : Output target σ)
    (matching : MatchesDirectives list output.args) :
    ∃ result, emit cb list output = .ok result ∧
      R output.io result.io := by
  induction list generalizing output with
  | nil => exact ⟨output.finish, rfl, refl output.io⟩
  | cons directive rest induction =>
      rcases pieceOf_of_matches (cb.errno output.io) matching with
        ⟨piece, left, fetched, remaining⟩
      have flushed := flush_related refl trans calls piece.width piece.text
        { output with args := left }
      rw [emit, execute_eq_flush cb fetched]
      cases outcome : flush cb piece.width piece.text
          { output with args := left } with
      | inr result =>
          rw [outcome] at flushed
          exact ⟨result, rfl, flushed.1⟩
      | inl next =>
          rw [outcome] at flushed
          rcases induction next (flushed.2.symm ▸ remaining) with
            ⟨result, ran, related⟩
          exact ⟨result, ran, trans flushed.1 related⟩

end Related

/-! ## Measuring chunks -/

/-- A piece in its field, as it goes out when nothing is cut. -/
def Piece.render (piece : Piece) : List Byte :=
  List.replicate (piece.width - piece.text.length) ' '.toUInt8 ++
    piece.text

/-- The expansion of a list of pieces. -/
def render (list : List Piece) : List Byte :=
  list.flatMap Piece.render

/-- The spaces in the expansion. -/
def fullPadding (list : List Piece) : Nat :=
  (list.map fun piece => piece.width - piece.text.length).sum

@[simp]
theorem fullPadding_cons (piece : Piece) (rest : List Piece) :
    fullPadding (piece :: rest) =
      piece.width - piece.text.length + fullPadding rest := by
  simp [fullPadding]

theorem render_length (list : List Piece) :
    (render list).length = fullPadding list + textLength list := by
  induction list with
  | nil => rfl
  | cons piece rest induction =>
      simp only [render, List.flatMap_cons, List.length_append,
        Piece.render, List.length_replicate, fullPadding_cons,
        textLength_cons] at induction ⊢
      omega

@[simp]
theorem chunks_zero (list : List Piece) : chunks 0 list = [] := by
  induction list with
  | nil => rfl
  | cons piece rest induction => simp [chunks, induction]

@[simp]
theorem padding_zero (list : List Piece) : padding 0 list = 0 := by
  induction list with
  | nil => rfl
  | cons piece rest induction => simp [padding, induction]

/-- A call stores its padding, and its text up to the budget. -/
theorem chunks_length (n : Nat) (list : List Piece) :
    (chunks n list).flatten.length =
      padding n list + min n (textLength list) := by
  induction list generalizing n with
  | nil => simp [chunks, padding]
  | cons piece rest induction =>
      rw [chunks_cons, List.flatten_append, List.length_append,
        induction, padding_cons, textLength_cons]
      by_cases spent : n = 0
      · simp [spent]
      · simp only [chunks, padding, ne_eq, spent, not_false_eq_true,
          if_true, List.append_nil, Nat.add_zero, List.flatten_append,
          List.flatten_cons, List.flatten_nil, List.length_append,
          List.length_take, List.flatten_replicate_singleton,
          List.length_replicate]
        omega

/-- With a budget larger than the text nothing is cut. -/
theorem chunks_uncut
    {n : Nat} {list : List Piece} (room : textLength list < n) :
    (chunks n list).flatten = render list := by
  induction list generalizing n with
  | nil => rfl
  | cons piece rest induction =>
      rw [textLength_cons] at room
      have whole : min piece.text.length n = piece.text.length := by omega
      have left : n ≠ 0 := by omega
      simp only [chunks, whole, ne_eq, left, not_false_eq_true, if_true,
        List.flatten_append, List.flatten_replicate_singleton,
        List.flatten_cons, List.flatten_nil, List.append_nil,
        List.take_length, induction (n := n - piece.text.length)
          (by omega), render, List.flatMap_cons, Piece.render]

theorem padding_uncut
    {n : Nat} {list : List Piece} (room : textLength list < n) :
    padding n list = fullPadding list := by
  have sizes := chunks_length n list
  rw [chunks_uncut room, render_length] at sizes
  omega

/-- Unless it fills the budget, the output is the whole expansion. -/
theorem textLength_lt_of_chunks_lt
    {n : Nat} {list : List Piece}
    (short : (chunks n list).flatten.length < n) :
    textLength list < n := by
  rw [chunks_length] at short
  omega

end Nolibc.Stdio.Pieces

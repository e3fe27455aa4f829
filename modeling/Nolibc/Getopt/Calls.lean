import Nolibc.Getopt.Parser

/-!
# What a call of `getopt` does

Every branch of the code is described where its conditions hold: the search
in `optstring`, an option and its argument, and the arguments that are not
options.
-/

set_option autoImplicit false

namespace Nolibc.GetoptCalls

open Nolibc.Machine
open Nolibc.Foundation
open Nolibc.Getopt
open Nolibc.GetoptParser

/-! ## Reading the strings -/

/-- The search skips what is not `c`, and stops at it or at the NUL. -/
theorem search_eq
    {optstring : Pointer} {skipped stop : List Byte}
    (points : optstring.Points (skipped ++ stop)) {c : Byte}
    (absent : c ∉ skipped) (stops : deref stop = 0 ∨ deref stop = c) :
    search optstring c = .ok (skipped.length + 1, deref stop) := by
  have fits := points.length_le
  rw [List.length_append] at fits
  have leaves : ¬ (deref stop ≠ 0 ∧ deref stop ≠ c) := by
    rintro ⟨nonzero, different⟩
    rcases stops with zero | found
    · exact nonzero zero
    · exact different found
  have leave : searchTurn optstring c skipped.length =
      .ok (.inr (skipped.length + 1, deref stop)) := by
    simp only [searchTurn, points.add.load, bind, Except.bind, pure,
      Except.pure, if_neg leaves]
  have advance {front rest : List Byte} {d : Byte}
      (split : skipped = front ++ d :: rest) :
      searchTurn optstring c front.length =
        .ok (.inl (front ++ [d]).length) := by
    have here : optstring.Points (front ++ d :: (rest ++ stop)) := by
      simpa [split] using points
    have nonzero : d ≠ 0 := here.add.ne_zero
    have different : d ≠ c := by
      rintro rfl
      exact absent (by simp [split])
    rw [List.length_append, List.length_singleton]
    simp only [searchTurn, here.add.load, deref_cons, bind, Except.bind,
      pure, Except.pure, if_pos (And.intro nonzero different)]
  exact Loop.run_scan _ (fun front _ => front.length) advance leave (by
      rw [CString.length] at fits ⊢
      omega)

/-- A pointer that reads a byte other than NUL is at that byte. -/
theorem eq_cons_of_deref
    {text : List Byte} {byte : Byte} (reads : deref text = byte)
    (nonzero : byte ≠ 0) :
    ∃ rest, text = byte :: rest := by
  cases text with
  | nil => exact absurd reads.symm nonzero
  | cons first rest => exact ⟨rest, congrArg (· :: rest) reads⟩

/-- What is left of `optstring` behind the mode. -/
theorem points_behindMode (optstring : CString) :
    (if deref optstring.bytes = '-'.toUInt8 ∨
        deref optstring.bytes = '+'.toUInt8 then
      optstring.start.add 1
    else
      optstring.start).Points (behindMode optstring.bytes) := by
  unfold behindMode
  split_ifs with mode
  · apply (Pointer.points_start optstring).drop
    cases bytes : optstring.bytes with
    | nil =>
        rw [bytes] at mode
        exact absurd mode (by decide)
    | cons byte rest => simp
  · exact Pointer.points_start optstring

theorem argvAt_of_drop
    {argv : List CString} {index : Nat} {arg : CString}
    {rest : List CString} (here : argv.drop index = arg :: rest) :
    index < argv.length ∧ argvAt argv index = .ok (some arg) ∧
      argv.drop (index + 1) = rest := by
  have inside : index < argv.length := by
    by_contra outside
    rw [List.drop_eq_nil_of_le (Nat.le_of_not_lt outside)] at here
    exact absurd here (by simp)
  rw [List.drop_eq_getElem_cons inside, List.cons.injEq] at here
  refine ⟨inside, ?_, here.2⟩
  rw [argvAt, dif_pos inside, here.1]

theorem argvAt_of_end
    {argv : List CString} {index : Nat} (atEnd : index = argv.length) :
    argvAt argv index = .ok none := by
  rw [argvAt, dif_neg (by omega), if_pos atEnd]

/-! ## Arguments of options -/

section Branches

variable {target : Target} {argv : List CString}

/-- What is printed does not depend on the state. -/
theorem complain_eq
    (nonempty : 0 < argv.length) (format : CString) (c : Byte)
    (printed : Bool) :
    ∃ messages, ∀ state, complain argv format c printed state =
      .ok { state with diagnostics := state.diagnostics ++ messages } := by
  cases printed with
  | false =>
      refine ⟨[], fun state => ?_⟩
      rw [List.append_nil]
      rfl
  | true =>
      have program : argvAt argv 0 = .ok (some argv[0]) := dif_pos nonempty
      refine ⟨[⟨format, some argv[0], c⟩], fun state => ?_⟩
      rw [complain, if_pos rfl, program]
      rfl

theorem unrecognized_eq
    (nonempty : 0 < argv.length) {optstring : Pointer} {text : List Byte}
    (points : optstring.Points text) (c : Byte) (opterr : Int) :
    ∃ messages, ∀ state, state.opterr = opterr →
      unrecognized target argv optstring c state =
        .ok ('?'.toNat,
          { state with
            optopt := target.charToInt c
            diagnostics := state.diagnostics ++ messages }) := by
  rcases complain_eq nonempty (.ofAscii "%s: unrecognized option: %c\n") c
      (deref text ≠ ':'.toUInt8 && opterr ≠ 0) with ⟨messages, printed⟩
  refine ⟨messages, fun state same => ?_⟩
  simp only [unrecognized, points.load, same, bind, Except.bind]
  rw [printed]
  rfl

section WithArgument

variable {optstring : Pointer} {text : List Byte} {i : Nat}
  {second : Byte} {state : State}
  (points : optstring.Points text)
  (reading : (optstring.add (i + 1)).load = .ok second)

include reading

variable (target state) in
/-- The argument is the rest of the cluster, or the next one. -/
theorem withArgument_taken
    (takes : second ≠ ':'.toUInt8 ∨ state.optpos ≠ 0) {string : CString}
    (next : argvAt argv state.optind = .ok (some string))
    (inside : state.optind < argv.length) (c : Byte) :
    withArgument target argv optstring i c state =
      .ok (target.charToInt c,
        { state with
          optarg := some (string.start.add state.optpos)
          optind := state.optind + 1
          optpos := 0 }) := by
  have notMissing : ¬ state.optind + 1 > argv.length := by omega
  simp only [withArgument, reading, if_pos takes, next, if_neg notMissing,
    bind, Except.bind, pure, Except.pure, Option.map_some]

variable (target state) in
/-- An optional argument is not looked for behind the cluster. -/
theorem withArgument_none
    (doubled : second = ':'.toUInt8) (atEnd : state.optpos = 0)
    (inside : state.optind ≤ argv.length) (c : Byte) :
    withArgument target argv optstring i c state =
      .ok (target.charToInt c, { state with optarg := none }) := by
  have stays : ¬ (second ≠ ':'.toUInt8 ∨ state.optpos ≠ 0) := by
    rintro (different | inCluster)
    · exact different doubled
    · exact inCluster atEnd
  have notMissing : ¬ state.optind > argv.length := by omega
  simp only [withArgument, reading, if_neg stays, if_neg notMissing,
    bind, Except.bind, pure, Except.pure]

include points

omit reading

variable (target argv) in
/-- There is no argument left to take. -/
theorem withArgument_missing
    (reading : (optstring.add (i + 1)).load = .ok second)
    (takes : second ≠ ':'.toUInt8) (nonempty : 0 < argv.length)
    (c : Byte) (opterr : Int) :
    ∃ messages, ∀ state : State, state.optind = argv.length →
      state.opterr = opterr →
      withArgument target argv optstring i c state =
        .ok (if deref text = ':'.toUInt8 then ':'.toNat else '?'.toNat,
          { state with
            optarg := none
            optind := state.optind + 1
            optpos := 0
            optopt := target.charToInt c
            diagnostics := state.diagnostics ++ messages }) := by
  have missing : argv.length + 1 > argv.length := Nat.lt_succ_self _
  by_cases colon : deref text = ':'.toUInt8
  · refine ⟨[], fun state last same => ?_⟩
    simp only [withArgument, reading, if_pos (Or.inl takes), last,
      argvAt_of_end, if_pos missing, points.load, if_pos colon, bind,
      Except.bind, pure, Except.pure, Option.map_none, List.append_nil]
  · rcases complain_eq nonempty
        (.ofAscii "%s: option requires argument: %c\n") c
        (decide (opterr ≠ 0)) with ⟨messages, printed⟩
    refine ⟨messages, fun state last same => ?_⟩
    simp only [withArgument, reading, if_pos (Or.inl takes), last, same,
      argvAt_of_end, if_pos missing, points.load, if_neg colon, printed,
      bind, Except.bind, pure, Except.pure, Option.map_none]

end WithArgument

end Branches

/-! ## The choice -/

section Steps

variable {target : Target} {argv : List CString} {optstring : CString}

/-- The state behind an option that takes no argument. -/
def advance (state : State) (position : Nat) (more : List Byte) : State :=
  if more = [] then
    { state with optind := state.optind + 1, optpos := 0 }
  else
    { state with optpos := position + 1 }

/-- `option` behind the reading of the character and of the mode. -/
def choose
    (target : Target) (argv : List CString) (optstring : Pointer)
    (c : Byte) (state : State) : Except Fault (Int × State) := do
  let (i, d) ← search optstring c
  if d ≠ c ∨ c = ':'.toUInt8 then
    unrecognized target argv optstring c state
  else
    let mark ← (optstring.add i).load
    if mark = ':'.toUInt8 then
      withArgument target argv optstring i c state
    else
      pure (target.charToInt c, state)

/-- The character is read, and the position moved behind it. -/
theorem option_eq
    {arg : CString} {state : State} {front more : List Byte} {c : Byte}
    (split : arg.bytes = '-'.toUInt8 :: (front ++ c :: more))
    (position : (if state.optpos = 0 then 1 else state.optpos) =
      front.length + 1) :
    option target argv optstring arg state =
      choose target argv
        (if deref optstring.bytes = '-'.toUInt8 ∨
            deref optstring.bytes = '+'.toUInt8 then
          optstring.start.add 1
        else
          optstring.start) c
        (advance state (front.length + 1) more) := by
  have current : arg.read (front.length + 1) = .ok c :=
    CString.read_append (by rw [split, List.cons_append])
  have splitBehind :
      arg.bytes = ('-'.toUInt8 :: (front ++ [c])) ++ more := by
    simp [split]
  have following : arg.read (front.length + 1 + 1) = .ok (deref more) := by
    simpa using CString.read_append splitBehind
  have mode : optstring.read 0 = .ok (deref optstring.bytes) :=
    CString.read_append optstring.bytes.nil_append.symm
  have moved :
      (if deref more = 0 then
        { state with optind := state.optind + 1, optpos := 0 }
      else
        { state with optpos := front.length + 1 + 1 }) =
        advance state (front.length + 1) more := by
    cases more with
    | nil => rfl
    | cons byte more =>
        have nonzero : byte ≠ 0 := CString.ne_zero_of_split splitBehind
        rw [advance, deref_cons, if_neg nonzero, if_neg (by simp)]
  simp only [option, position, current, following, mode, moved, bind,
    Except.bind]
  rfl

section Choose

variable {pointer : Pointer} {text : List Byte} {c : Byte}
  (points : pointer.Points text)

include points

variable (target) in
theorem choose_unknown
    (nonempty : 0 < argv.length) (nonzero : c ≠ 0)
    (unlisted : c ∉ text ∨ c = ':'.toUInt8) (opterr : Int) :
    ∃ messages, ∀ state, state.opterr = opterr →
      choose target argv pointer c state =
        .ok ('?'.toNat,
          { state with
            optopt := target.charToInt c
            diagnostics := state.diagnostics ++ messages }) := by
  have refused : ∃ i d, search pointer c = .ok (i, d) ∧
      (d ≠ c ∨ c = ':'.toUInt8) := by
    by_cases member : c ∈ text
    · rcases List.eq_append_cons_of_mem member with
        ⟨front, after, split, first⟩
      have here : pointer.Points (front ++ c :: after) := split ▸ points
      exact ⟨_, _, search_eq here first (Or.inr rfl),
        Or.inr (unlisted.resolve_left (not_not_intro member))⟩
    · have all : pointer.Points (text ++ []) := by
        rwa [List.append_nil]
      exact ⟨_, _, search_eq all member (Or.inl rfl),
        Or.inl fun same => nonzero same.symm⟩
  rcases refused with ⟨i, d, found, refused⟩
  rcases unrecognized_eq nonempty points c opterr
    with ⟨messages, reported⟩
  refine ⟨messages, fun state same => ?_⟩
  simp only [choose, found, bind, Except.bind, if_pos refused]
  exact reported state same

end Choose

section Listed

variable {pointer : Pointer} {front after : List Byte} {c : Byte}
  (points : pointer.Points (front ++ c :: after)) (first : c ∉ front)
  (notColon : c ≠ ':'.toUInt8)

include points first notColon

variable (target argv) in
/-- A listed character is looked up, and the byte behind it read. -/
theorem choose_listed (state : State) :
    choose target argv pointer c state =
      if deref after = ':'.toUInt8 then
        withArgument target argv pointer (front.length + 1) c state
      else
        .ok (target.charToInt c, state) := by
  have found : search pointer c = .ok (front.length + 1, c) :=
    search_eq points first (Or.inr rfl)
  have accepted : ¬ (c ≠ c ∨ c = ':'.toUInt8) := by
    rintro (different | colon)
    · exact different rfl
    · exact notColon colon
  have split : pointer.Points ((front ++ [c]) ++ after) := by
    simpa using points
  have mark : (pointer.add (front.length + 1)).load = .ok (deref after) := by
    have behind := split.add.load
    rwa [List.length_append, List.length_singleton] at behind
  simp only [choose, found, bind, Except.bind, if_neg accepted, mark]
  rfl

omit first notColon

/-- The byte behind the colon of an option. -/
theorem load_behind_colon (nonempty : after ≠ []) :
    (pointer.add (front.length + 1 + 1)).load =
      .ok (deref (after.drop 1)) := by
  cases after with
  | nil => exact absurd rfl nonempty
  | cons colon after =>
      have split : pointer.Points ((front ++ [c, colon]) ++ after) := by
        simpa using points
      have behind := split.add.load
      rwa [List.length_append] at behind

end Listed

/-! ## The arguments -/

section Call

variable {state : State} {arg : CString} {rest : List CString}
  (positive : 0 < state.optind)

include positive

theorem getopt_end (atEnd : argv.length ≤ state.optind) :
    getopt target argv optstring state = .ok (-1, state) := by
  have notZero : ¬ state.optind = 0 := Nat.ne_of_gt positive
  simp only [getopt, if_neg notZero, if_pos atEnd, ge_iff_le, pure,
    Except.pure]

variable (here : argv.drop state.optind = arg :: rest)

include here

variable (target optstring) in
theorem getopt_operand (notDash : deref arg.bytes ≠ '-'.toUInt8) :
    getopt target argv optstring state =
      if deref optstring.bytes = '-'.toUInt8 then
        .ok (1,
          { state with
            optarg := some arg.start
            optind := state.optind + 1 })
      else
        .ok (-1, state) := by
  rcases argvAt_of_drop here with ⟨inside, current, _⟩
  have notZero : ¬ state.optind = 0 := Nat.ne_of_gt positive
  have notEnd : ¬ argv.length ≤ state.optind := Nat.not_le_of_lt inside
  have first : arg.read 0 = .ok (deref arg.bytes) :=
    CString.read_append arg.bytes.nil_append.symm
  have mode : optstring.read 0 = .ok (deref optstring.bytes) :=
    CString.read_append optstring.bytes.nil_append.symm
  simp only [getopt, if_neg notZero, if_neg notEnd, ge_iff_le, current,
    first, if_pos notDash, mode, bind, Except.bind, pure, Except.pure]

variable {chars : List Byte} (split : arg.bytes = '-'.toUInt8 :: chars)

include split

variable (target optstring) in
/-- An argument that starts with a dash. -/
theorem getopt_dash :
    getopt target argv optstring state =
      if chars = [] then
        .ok (-1, state)
      else if chars = ['-'.toUInt8] then
        .ok (-1, { state with optind := state.optind + 1 })
      else
        option target argv optstring arg state := by
  rcases argvAt_of_drop here with ⟨inside, current, _⟩
  have notZero : ¬ state.optind = 0 := Nat.ne_of_gt positive
  have notEnd : ¬ argv.length ≤ state.optind := Nat.not_le_of_lt inside
  have splitDash : arg.bytes = ['-'.toUInt8] ++ chars := split
  have first : arg.read 0 = .ok '-'.toUInt8 :=
    CString.read_append (split.trans (List.nil_append _).symm)
  have second : arg.read 1 = .ok (deref chars) :=
    CString.read_append splitDash
  simp only [getopt, if_neg notZero, if_neg notEnd, ge_iff_le, current,
    first, second, ne_eq, not_true, if_false, bind, Except.bind, pure,
    Except.pure]
  cases chars with
  | nil => rw [deref_nil, if_pos rfl, if_pos rfl]
  | cons c more =>
      have nonzero : c ≠ 0 := CString.ne_zero_of_split splitDash
      have splitSecond : arg.bytes = ['-'.toUInt8, c] ++ more := split
      rw [deref_cons, if_neg nonzero, if_neg (List.cons_ne_nil c more)]
      by_cases dash : c = '-'.toUInt8
      · have third : arg.read 2 = .ok (deref more) :=
          CString.read_append splitSecond
        rw [if_pos dash, third]
        cases more with
        | nil => simp only [deref_nil, dash, if_true]
        | cons d more =>
            have present : d ≠ 0 := CString.ne_zero_of_split splitSecond
            simp only [deref_cons, present, List.cons.injEq,
              List.cons_ne_nil, and_false, if_false]
      · have notDashes : c :: more ≠ ['-'.toUInt8] := by
          intro same
          exact dash (List.cons.inj same).1
        rw [if_neg dash, if_neg notDashes]

end Call

end Steps

end Nolibc.GetoptCalls

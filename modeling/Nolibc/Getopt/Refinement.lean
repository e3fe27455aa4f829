import Nolibc.Getopt.Calls

/-!
# `getopt` against the parser

`getoptAll_eq_parse` says that the calls of `getopt` report what the parser
reports, one option a call, and leave `optind` behind what the parser
consumed.  The simulation goes through `Stands`: where in the argument list a
state of `getopt` is, and what the parser has still to say from there.
-/

set_option autoImplicit false

namespace Nolibc.GetoptRefinement

open Nolibc.Machine
open Nolibc.Getopt
open Nolibc.GetoptParser
open Nolibc.GetoptCalls

/-! ## Where a call stands -/

/--
A state between two arguments, or inside a cluster, and what the parser has
to say from there.
-/
inductive Stands
    (target : Target) (options : Syntax) (argv : List CString) :
    Nat → Nat → Parsed → Prop where
  | between {optind : Nat} (positive : 0 < optind) :
      Stands target options argv optind 0
        (parse target options optind (texts (argv.drop optind)))
  | inside
      {optind : Nat} {arg : CString} {rest : List CString}
      {front chars : List Byte} (positive : 0 < optind)
      (here : argv.drop optind = arg :: rest)
      (split : arg.bytes = '-'.toUInt8 :: (front ++ chars))
      (started : front ≠ []) (nonempty : chars ≠ []) :
      Stands target options argv optind (front.length + 1)
        (resume target options optind chars (texts rest))

/-- A call reports the next option, and stands where the rest begins. -/
structure Reports
    (target : Target) (options : Syntax) (argv : List CString)
    (state : State) (parsed : Parsed) (ret : Int) (next : State) : Prop where
  notEnd : ret ≠ -1
  pushed : ∃ report later,
    parsed = later.push report ∧ ret = report.ret ∧
      next.argument = report.optarg.getD state.argument ∧
      next.optopt = report.optopt.getD state.optopt ∧
      Stands target options argv next.optind next.optpos later

/-! ## One option of a cluster -/

section Steps

variable {target : Target} {argv : List CString} {optstring : CString}

section Cluster

variable {state : State} {arg : CString} {rest : List CString}
  {front more : List Byte} {c : Byte}
  (here : argv.drop state.optind = arg :: rest)

theorem advance_argument (position : Nat) :
    (advance state position more).argument = state.argument := by
  unfold advance
  split_ifs <;> rfl

theorem advance_optopt (position : Nat) :
    (advance state position more).optopt = state.optopt := by
  unfold advance
  split_ifs <;> rfl

include here

variable (target) in
theorem stands_next (options : Syntax) :
    Stands target options argv (state.optind + 1) 0
      (parse target options (state.optind + 1) (texts rest)) := by
  rcases argvAt_of_drop here with ⟨_, _, behind⟩
  rw [← behind]
  exact Stands.between (Nat.succ_pos state.optind)

/-- Behind an option without argument stands the rest of its cluster. -/
theorem advance_stands
    (positive : 0 < state.optind)
    (split : arg.bytes = '-'.toUInt8 :: (front ++ c :: more))
    (options : Syntax) :
    Stands target options argv
      (advance state (front.length + 1) more).optind
      (advance state (front.length + 1) more).optpos
      (resume target options state.optind more (texts rest)) := by
  unfold advance
  split_ifs with last
  · rw [last, resume_nil]
    exact stands_next _ here options
  · have deeper : arg.bytes = '-'.toUInt8 :: ((front ++ [c]) ++ more) := by
      simp [split]
    have stands : Stands target options argv state.optind
        ((front ++ [c]).length + 1)
        (resume target options state.optind more (texts rest)) :=
      .inside positive here deeper (by simp) last
    rwa [List.length_append, List.length_singleton] at stands

/-- A character which is not an option is reported, and passed over. -/
theorem unknown_reports
    (positive : 0 < state.optind)
    (split : arg.bytes = '-'.toUInt8 :: (front ++ c :: more))
    {options : Syntax} (unlisted : options.options.lookup c = none)
    (diagnostics : List Diagnostic) :
    Reports target options argv state
      (resume target options state.optind (c :: more) (texts rest))
      '?'.toNat
      { advance state (front.length + 1) more with
        optopt := target.charToInt c, diagnostics } := by
  constructor
  · decide
  · refine ⟨unknown target c,
      resume target options state.optind more (texts rest),
      resume_unknown state.optind more (texts rest) unlisted, rfl,
      ?_, rfl, advance_stands here positive split options⟩
    exact advance_argument (front.length + 1)

/-- An option without argument is reported, and passed over. -/
theorem flag_reports
    (positive : 0 < state.optind)
    (split : arg.bytes = '-'.toUInt8 :: (front ++ c :: more))
    {options : Syntax} (listed : options.options.lookup c = some .flag) :
    Reports target options argv state
      (resume target options state.optind (c :: more) (texts rest))
      c.toNat (advance state (front.length + 1) more) := by
  constructor
  · omega
  · exact ⟨plain c, resume target options state.optind more (texts rest),
      resume_flag state.optind more (texts rest) listed, rfl,
      advance_argument (front.length + 1),
      advance_optopt (front.length + 1),
      advance_stands here positive split options⟩

section Argument

variable {pointer : Pointer} {text after : List Byte} {i : Nat}
  {mark : Marking} (points : pointer.Points text)
  (reading : (pointer.add (i + 1)).load = .ok (deref (after.drop 1)))
  {options : Syntax}

include reading

/-- The rest of a cluster is the argument of an option that takes one. -/
theorem attached_reports
    (split : arg.bytes = '-'.toUInt8 :: (front ++ c :: more))
    (listed : options.options.lookup c = some mark)
    (takes : mark ≠ .flag) (nonempty : more ≠ []) (small : c.toNat < 128) :
    ∃ next, withArgument target argv pointer i c
        (advance state (front.length + 1) more) =
          .ok (c.toNat, next) ∧
      Reports target options argv state
        (resume target options state.optind (c :: more) (texts rest))
        c.toNat next := by
  rcases argvAt_of_drop here with ⟨inside, current, _⟩
  have moved : advance state (front.length + 1) more =
      { state with optpos := front.length + 1 + 1 } := if_neg nonempty
  have taken := withArgument_taken target
    { state with optpos := front.length + 1 + 1 } reading
    (Or.inr (Nat.succ_ne_zero _)) current inside c
  rw [target.charToInt_of_lt small] at taken
  rw [moved]
  refine ⟨_, taken, ?_⟩
  have argument :
      arg.bytes.drop (0 + (front.length + 1 + 1)) = more := by
    simp [split]
  have pushed :
      resume target options state.optind (c :: more) (texts rest) =
        (parse target options (state.optind + 1) (texts rest)).push
          (taking c (some more)) := by
    cases mark with
    | flag => exact absurd rfl takes
    | required =>
        exact resume_attached state.optind more (texts rest) listed nonempty
    | optional =>
        rw [resume_optional state.optind more (texts rest) listed,
          if_neg nonempty]
  constructor
  · omega
  · exact ⟨taking c (some more), _, pushed, rfl,
      congrArg some argument, rfl, stands_next _ here options⟩

/-- At the end of its cluster an option has no optional argument. -/
theorem optional_reports
    (listed : options.options.lookup c = some .optional)
    (doubled : deref (after.drop 1) = ':'.toUInt8)
    (last : more = []) (small : c.toNat < 128) :
    ∃ next, withArgument target argv pointer i c
        (advance state (front.length + 1) more) =
          .ok (c.toNat, next) ∧
      Reports target options argv state
        (resume target options state.optind (c :: more) (texts rest))
        c.toNat next := by
  rcases argvAt_of_drop here with ⟨inside, _, _⟩
  have moved : advance state (front.length + 1) more =
      { state with optind := state.optind + 1, optpos := 0 } := if_pos last
  have none := withArgument_none target
    { state with optind := state.optind + 1, optpos := 0 } reading doubled rfl
    inside c
  rw [target.charToInt_of_lt small] at none
  rw [moved]
  refine ⟨_, none, ?_⟩
  constructor
  · omega
  · refine ⟨taking c .none, _, ?_, rfl, rfl, rfl, stands_next _ here options⟩
    rw [resume_optional state.optind more (texts rest) listed, if_pos last]

include points

/-- At the end of its cluster an option takes the next argument whole. -/
theorem required_reports
    (listed : options.options.lookup c = some .required)
    (colon : options.colon = decide (deref text = ':'.toUInt8))
    (single : deref (after.drop 1) ≠ ':'.toUInt8)
    (last : more = []) (small : c.toNat < 128) :
    ∃ ret next, withArgument target argv pointer i c
        (advance state (front.length + 1) more) = .ok (ret, next) ∧
      Reports target options argv state
        (resume target options state.optind (c :: more) (texts rest))
        ret next := by
  rcases argvAt_of_drop here with ⟨inside, _, behind⟩
  have moved : advance state (front.length + 1) more =
      { state with optind := state.optind + 1, optpos := 0 } := if_pos last
  rw [moved, last]
  cases rest with
  | nil =>
      have atEnd : state.optind + 1 = argv.length := by
        have none := List.drop_eq_nil_iff.mp behind
        omega
      rcases withArgument_missing _ argv points reading single (by omega) c
          state.opterr with
        ⟨messages, missed⟩
      have called := missed
        { state with optind := state.optind + 1, optpos := 0 } atEnd rfl
      refine ⟨_, _, called, ?_⟩
      constructor
      · split_ifs <;> decide
      · have pushed :
            resume target options state.optind [c] (texts []) =
              (parse target options (state.optind + 1 + 1)
                (texts (argv.drop (state.optind + 1 + 1)))).push
                (missing target options c) := by
          rw [List.drop_eq_nil_of_le (by omega)]
          exact resume_missing state.optind listed
        refine ⟨missing target options c, _, pushed, ?_, rfl, rfl,
          Stands.between (Nat.succ_pos _)⟩
        simp only [missing, colon, decide_eq_true_eq]
  | cons string rest =>
      rcases argvAt_of_drop behind with ⟨available, next, beyond⟩
      have taken := withArgument_taken target
        { state with optind := state.optind + 1, optpos := 0 } reading
        (Or.inl single) next available c
      rw [target.charToInt_of_lt small] at taken
      refine ⟨_, _, taken, ?_⟩
      constructor
      · omega
      · refine ⟨taking c (some string.bytes), _,
          resume_separate state.optind (texts rest) listed string.bytes,
          rfl, rfl, rfl, ?_⟩
        exact stands_next _ behind options

end Argument

end Cluster

/-- Inside a cluster a call reports what the parser has next. -/
theorem option_reports
    (sevenBit : ∀ byte ∈ optstring.bytes, byte.toNat < 128)
    {state : State} {arg : CString} {rest : List CString}
    {front more : List Byte} {c : Byte} (positive : 0 < state.optind)
    (here : argv.drop state.optind = arg :: rest)
    (split : arg.bytes = '-'.toUInt8 :: (front ++ c :: more))
    (position : (if state.optpos = 0 then 1 else state.optpos) =
      front.length + 1) :
    ∃ ret next, option target argv optstring arg state =
        .ok (ret, next) ∧
      Reports target (syntaxOf optstring.bytes) argv state
        (resume target (syntaxOf optstring.bytes) state.optind (c :: more)
          (texts rest)) ret next := by
  have points := points_behindMode optstring
  rw [option_eq split position]
  by_cases member : c ∈ behindMode optstring.bytes ∧ c ≠ ':'.toUInt8
  · rcases member with ⟨member, notColon⟩
    have small : c.toNat < 128 := sevenBit c (mem_of_mem_behindMode member)
    rcases List.eq_append_cons_of_mem member with
      ⟨before, after, listedAt, first⟩
    have table : (syntaxOf optstring.bytes).options.lookup c =
        some (marking after) := by
      rw [syntaxOf, listedAt]
      exact lookup_of_first notColon first
    have pointsAt := points
    rw [listedAt] at pointsAt
    rw [choose_listed _ _ pointsAt first notColon]
    rcases marking_cases after with
      ⟨noColon, flag⟩ | ⟨colon, afterNonempty, single | doubled⟩
    · rw [flag] at table
      rw [if_neg noColon, target.charToInt_of_lt small]
      exact ⟨_, _, rfl, flag_reports here positive split table⟩
    · rw [single.2] at table
      rw [if_pos colon]
      have reading := load_behind_colon pointsAt afterNonempty
      by_cases last : more = []
      · exact required_reports here points reading table rfl single.1
          last small
      · exact ⟨_, attached_reports here reading split table (by decide)
          last small⟩
    · rw [doubled.2] at table
      rw [if_pos colon]
      have reading := load_behind_colon pointsAt afterNonempty
      by_cases last : more = []
      · exact ⟨_, optional_reports here reading table doubled.1 last small⟩
      · exact ⟨_, attached_reports here reading split table (by decide)
          last small⟩
  · have unlisted : c ∉ behindMode optstring.bytes ∨ c = ':'.toUInt8 := by
      by_cases colon : c = ':'.toUInt8
      · exact Or.inr colon
      · exact Or.inl fun isMember => member ⟨isMember, colon⟩
    have nonempty : 0 < argv.length :=
      Nat.zero_lt_of_lt (argvAt_of_drop here).1
    have splitHere : arg.bytes = ('-'.toUInt8 :: front) ++ c :: more := split
    have nonzero : c ≠ 0 := CString.ne_zero_of_split splitHere
    rcases choose_unknown _ points nonempty nonzero unlisted
        (advance state (front.length + 1) more).opterr with
      ⟨messages, chosen⟩
    exact ⟨_, _, chosen _ rfl, unknown_reports here positive split
      (lookup_of_absent unlisted) _⟩

/-! ## One call -/

/-- A call that ends the options, where the parser has none left. -/
structure Ends (parsed : Parsed) (ret : Int) (next : State) : Prop where
  none : parsed.reports = []
  ret : ret = -1
  index : next.optind = parsed.index

/-- What a call makes of what the parser has left. -/
def Answers
    (target : Target) (options : Syntax) (argv : List CString)
    (state : State) (parsed : Parsed)
    (result : Except Fault (Int × State)) : Prop :=
  ∃ ret next, result = .ok (ret, next) ∧
    (Ends parsed ret next ∨
      Reports target options argv state parsed ret next)

/-- Inside a cluster a call goes on with its next option. -/
theorem getopt_inside
    (sevenBit : ∀ byte ∈ optstring.bytes, byte.toNat < 128)
    {state : State} {arg : CString} {rest : List CString}
    {front more : List Byte} {c : Byte} (positive : 0 < state.optind)
    (here : argv.drop state.optind = arg :: rest)
    (split : arg.bytes = '-'.toUInt8 :: (front ++ c :: more))
    (notDashes : front ++ c :: more ≠ ['-'.toUInt8])
    (position : (if state.optpos = 0 then 1 else state.optpos) =
      front.length + 1) :
    Answers target (syntaxOf optstring.bytes) argv state
      (resume target (syntaxOf optstring.bytes) state.optind (c :: more)
        (texts rest))
      (getopt target argv optstring state) := by
  rcases option_reports sevenBit positive here split position with
    ⟨ret, next, chosen, reports⟩
  refine ⟨ret, next, ?_, Or.inr reports⟩
  rw [getopt_dash _ _ positive here split, if_neg (by simp), if_neg notDashes]
  exact chosen

/-- An operand is reported, or ends the options. -/
theorem getopt_before_operand
    {state : State} {arg : CString} {rest : List CString}
    (positive : 0 < state.optind) (settled : state.optpos = 0)
    (here : argv.drop state.optind = arg :: rest)
    (operand : deref arg.bytes ≠ '-'.toUInt8) :
    Answers target (syntaxOf optstring.bytes) argv state
      (parse target (syntaxOf optstring.bytes) state.optind
        (arg.bytes :: texts rest))
      (getopt target argv optstring state) := by
  have called := getopt_operand target optstring positive here operand
  rw [parse_operand target (syntaxOf optstring.bytes) state.optind
    (texts rest) operand]
  by_cases inOrder : deref optstring.bytes = '-'.toUInt8
  · have reported : (syntaxOf optstring.bytes).inOrder = true :=
      decide_eq_true inOrder
    have next := stands_next target here (syntaxOf optstring.bytes)
    rw [← settled] at next
    rw [if_pos inOrder] at called
    rw [if_pos reported]
    refine ⟨_, _, called, Or.inr ?_⟩
    constructor
    · decide
    · exact ⟨⟨1, some (some arg.bytes), none⟩, _, rfl, rfl, rfl, rfl, next⟩
  · have stops : ¬ (syntaxOf optstring.bytes).inOrder = true := by
      rwa [syntaxOf, decide_eq_true_eq]
    rw [if_neg inOrder] at called
    rw [if_neg stops]
    exact ⟨_, _, called, Or.inl ⟨rfl, rfl, rfl⟩⟩

/-- Between two arguments a call does what the parser does with the next. -/
theorem getopt_between
    (sevenBit : ∀ byte ∈ optstring.bytes, byte.toNat < 128)
    {state : State} (positive : 0 < state.optind)
    (settled : state.optpos = 0) :
    Answers target (syntaxOf optstring.bytes) argv state
      (parse target (syntaxOf optstring.bytes) state.optind
        (texts (argv.drop state.optind)))
      (getopt target argv optstring state) := by
  cases here : argv.drop state.optind with
  | nil =>
      have atEnd : argv.length ≤ state.optind := List.drop_eq_nil_iff.mp here
      exact ⟨_, _, getopt_end positive atEnd, Or.inl ⟨rfl, rfl, rfl⟩⟩
  | cons arg rest =>
      rw [texts, List.map_cons]
      by_cases dash : deref arg.bytes = '-'.toUInt8
      · rcases eq_cons_of_deref dash (by decide) with ⟨chars, split⟩
        have called := getopt_dash target optstring positive here split
        cases chars with
        | nil =>
            rw [if_pos rfl] at called
            refine ⟨_, _, called, Or.inl ?_⟩
            rw [split, parse_dash]
            constructor <;> rfl
        | cons c more =>
            have isCluster : asCluster arg.bytes = some (c :: more) := by
              rw [split]
              rfl
            rw [if_neg (List.cons_ne_nil c more)] at called
            by_cases dashes : c :: more = ['-'.toUInt8]
            · rw [if_pos dashes] at called
              refine ⟨_, _, called, Or.inl ?_⟩
              rw [parse, isCluster]
              simp only [if_pos dashes]
              constructor <;> rfl
            · have notDashes : [] ++ c :: more ≠ ['-'.toUInt8] := dashes
              rw [parse_cluster target _ _ _ isCluster dashes]
              exact getopt_inside sevenBit positive here split notDashes
                (if_pos settled)
      · exact getopt_before_operand positive settled here dash

/-- Every call makes of the parser's next report what it is. -/
theorem getopt_answers
    (sevenBit : ∀ byte ∈ optstring.bytes, byte.toNat < 128)
    {state : State} {parsed : Parsed}
    (stands : Stands target (syntaxOf optstring.bytes) argv state.optind
      state.optpos parsed) :
    Answers target (syntaxOf optstring.bytes) argv state parsed
      (getopt target argv optstring state) := by
  cases state with
  | mk optarg optind opterr optopt optpos diagnostics =>
      cases stands with
      | between positive => exact getopt_between sevenBit positive rfl
      | @inside arg rest front chars positive here split started
          nonempty =>
          cases chars with
          | nil => exact absurd rfl nonempty
          | cons c more =>
              have notDashes : front ++ c :: more ≠ ['-'.toUInt8] := by
                cases front with
                | nil => exact absurd rfl started
                | cons d front => simp
              exact getopt_inside sevenBit positive here split notDashes
                (if_neg (Nat.succ_ne_zero _))

end Steps

/-! ## All calls -/

/-- From a place the parser is at, the calls observe what it reports. -/
theorem getoptAll_of_stands
    {target : Target} {argv : List CString} {optstring : CString}
    (sevenBit : ∀ byte ∈ optstring.bytes, byte.toNat < 128)
    {state : State} {parsed : Parsed}
    (stands : Stands target (syntaxOf optstring.bytes) argv state.optind
      state.optpos parsed)
    {turns : Nat} (enough : parsed.reports.length < turns) :
    ∃ final, getoptAll target argv optstring turns state =
        .ok (observe state.argument state.optopt parsed.reports, final) ∧
      final.optind = parsed.index := by
  induction turns generalizing state parsed with
  | zero => exact absurd enough (Nat.not_lt_zero _)
  | succ turns induction =>
      rcases getopt_answers sevenBit stands with
        ⟨ret, next, called, ends | reports⟩
      · refine ⟨next, ?_, ends.index⟩
        rw [getoptAll, called]
        simp only [bind, Except.bind, ends.ret, if_true, ends.none, observe,
          pure, Except.pure]
      · rcases reports.pushed with
          ⟨report, later, pushed, same, argument, optopt, onward⟩
        have notEnd : report.ret ≠ -1 := same ▸ reports.notEnd
        have fewer : later.reports.length < turns := by
          rw [pushed, Parsed.push, List.length_cons] at enough
          exact Nat.lt_of_succ_lt_succ enough
        rcases induction onward fewer with ⟨final, rest, index⟩
        refine ⟨final, ?_, ?_⟩
        · rw [getoptAll, called]
          simp only [bind, Except.bind, same, if_neg notEnd, rest, pushed,
            Parsed.push, observe, argument, optopt, pure, Except.pure]
        · rw [index, pushed, Parsed.push]

/--
`getopt` called until it returns -1, from `optind` one and no cluster begun:
the results, with `optarg` and `optopt` as each call leaves them, are those of
the parser, and `optind` is the index the parser ends at.
-/
theorem getoptAll_eq_parse
    (target : Target) (argv : List CString) (optstring : CString)
    (sevenBit : ∀ byte ∈ optstring.bytes, byte.toNat < 128)
    (state : State) (first : state.optind = 1) (settled : state.optpos = 0)
    (turns : Nat)
    (enough : (parse target (syntaxOf optstring.bytes) 1
      (texts (argv.drop 1))).reports.length < turns) :
    ∃ final, getoptAll target argv optstring turns state =
        .ok (observe state.argument state.optopt
          (parse target (syntaxOf optstring.bytes) 1
            (texts (argv.drop 1))).reports, final) ∧
      final.optind =
        (parse target (syntaxOf optstring.bytes) 1
          (texts (argv.drop 1))).index := by
  apply getoptAll_of_stands sevenBit _ enough
  rw [first, settled]
  exact Stands.between Nat.one_pos

theorem getoptAll_eq_parse_attached :
    ∃ final, getoptAll .x86_64
        [.ofAscii "tar", .ofAscii "-xz", .ofAscii "-ffile", .ofAscii "-C",
          .ofAscii "dir", .ofAscii "--", .ofAscii "name"]
        (.ofAscii "xf:C:") 6 ⟨none, 1, 1, 0, 0, []⟩ =
      .ok ([⟨'x'.toNat, none, 0⟩, ⟨'?'.toNat, none, 'z'.toNat⟩,
        ⟨'f'.toNat, some (ascii "file"), 'z'.toNat⟩,
        ⟨'C'.toNat, some (ascii "dir"), 'z'.toNat⟩], final) ∧
      final.optind = 6 := by
  rcases getoptAll_eq_parse .x86_64
    [.ofAscii "tar", .ofAscii "-xz", .ofAscii "-ffile", .ofAscii "-C",
      .ofAscii "dir", .ofAscii "--", .ofAscii "name"]
    (.ofAscii "xf:C:") (by decide) ⟨none, 1, 1, 0, 0, []⟩ rfl rfl 6
    (by decide) with ⟨final, called, index⟩
  refine ⟨final, called.trans ?_, index.trans ?_⟩
  · exact congrArg (fun list => Except.ok (list, final)) (by decide)
  · decide

end Nolibc.GetoptRefinement

import Nolibc.Foundation.Simulation
import Nolibc.Getopt.Calls

/-!
# The states between the calls of `getopt`

`Standing` is what `optind` and `__optpos` have in common with the arguments
whenever a call returns: between two arguments nothing is pending, and inside
a cluster the next option of it is.  The calls keep it on every way out.

A call only looks at the two counters and `opterr`; what it does with the
rest of the state is its `Effect`.  States at the same `Place` see the same
effects, so that a scan that is started again is the same scan.
-/

set_option autoImplicit false

namespace Nolibc.GetoptReachable

open Nolibc.Machine
open Nolibc.Foundation.Simulation
open Nolibc.Getopt
open Nolibc.GetoptParser
open Nolibc.GetoptCalls

/-! ## Where a call stands -/

/--
The counters between two calls: a pending position is that of a byte behind
the dash of an argument.
-/
structure Standing (argv : List CString) (optind optpos : Nat) : Prop where
  positive : 1 ≤ optind
  bounded : optind ≤ argv.length + 1
  pending : optpos ≠ 0 →
    ∃ arg c,
      optind < argv.length ∧ argvAt argv optind = .ok (some arg) ∧
        arg.read 0 = .ok '-'.toUInt8 ∧ 1 < optpos ∧
        arg.read optpos = .ok c ∧ c ≠ 0

/--
What is left to read: the bytes of the arguments, with their NULs, less those
of a cluster that are behind.
-/
def unread (argv : List CString) (optind optpos : Nat) : Nat :=
  (argv.drop optind).foldr (fun arg rest => arg.length + 1 + rest) 0 -
    optpos

/--
The four ends of the options: no argument is left, the next one is an operand
that is not reported, or it is `-`, or `--`.
-/
def EndsScan (argv : List CString) (optstring : CString)
    (optind : Nat) : Prop :=
  match argv.drop optind with
  | [] => True
  | arg :: _ =>
      deref arg.bytes ≠ '-'.toUInt8 ∧
          deref optstring.bytes ≠ '-'.toUInt8 ∨
        arg.bytes = ['-'.toUInt8] ∨
        arg.bytes = ['-'.toUInt8, '-'.toUInt8]

/-- The part of a state that a call looks at. -/
structure Place where
  optind : Nat
  optpos : Nat
  opterr : Int

/-- What a state says about the place where the next call goes on. -/
def placeOf (state : State) : Place :=
  ⟨state.optind, state.optpos, state.opterr⟩

/-- What a call does: its result, where it moves, and what it sets. -/
structure Effect where
  ret : Int
  optind : Nat
  optpos : Nat
  optarg : Option (Option Pointer)
  optopt : Option Int
  messages : List Diagnostic

/-- The state behind a call: what it does not set stays. -/
def Effect.apply (effect : Effect) (state : State) : State where
  optarg := effect.optarg.getD state.optarg
  optind := effect.optind
  opterr := state.opterr
  optopt := effect.optopt.getD state.optopt
  optpos := effect.optpos
  diagnostics := state.diagnostics ++ effect.messages

theorem standing_between
    {argv : List CString} {optind : Nat} (positive : 1 ≤ optind)
    (bounded : optind ≤ argv.length + 1) : Standing argv optind 0 :=
  ⟨positive, bounded, fun impossible => absurd rfl impossible⟩

section Argument

variable {argv : List CString} {optind : Nat} {arg : CString}
  {rest : List CString} (here : argv.drop optind = arg :: rest)

include here

theorem unread_here (optpos : Nat) :
    unread argv optind optpos =
      arg.length + 1 + unread argv (optind + 1) 0 - optpos := by
  rw [unread, unread, here, (argvAt_of_drop here).2.2, List.foldr_cons,
    Nat.sub_zero]

/-- A pending position splits the cluster it is in. -/
theorem Standing.cluster
    {optpos : Nat} (standing : Standing argv optind optpos)
    (pending : optpos ≠ 0) :
    ∃ front c more,
      arg.bytes = '-'.toUInt8 :: (front ++ c :: more) ∧ front ≠ [] ∧
        optpos = front.length + 1 := by
  rcases standing.pending pending with
    ⟨other, c, _, current, first, further, reads, nonzero⟩
  rw [(argvAt_of_drop here).2.1, Except.ok.injEq,
    Option.some.injEq] at current
  subst current
  rcases CString.split_of_read first (by decide) with
    ⟨nothing, chars, dash, none⟩
  rw [List.eq_nil_of_length_eq_zero none, List.nil_append] at dash
  rcases CString.split_of_read reads nonzero with
    ⟨behind, more, split, position⟩
  cases behind with
  | nil =>
      rw [List.length_nil] at position
      omega
  | cons d front =>
      have same := dash.symm.trans split
      rw [List.cons_append, List.cons.injEq] at same
      rw [List.length_cons] at position
      refine ⟨front, c, more, by rw [dash, same.2], ?_, position.symm⟩
      rintro rfl
      rw [List.length_nil] at position
      omega

end Argument

theorem unread_le
    (argv : List CString) {first second : Nat} (later : first ≤ second) :
    unread argv second 0 ≤ unread argv first 0 := by
  induction later with
  | refl => exact Nat.le_refl _
  | @step second _ induction =>
      refine Nat.le_trans ?_ induction
      cases here : argv.drop second with
      | nil =>
          have none : argv.drop (second + 1) = [] :=
            List.drop_eq_nil_of_le
              (Nat.le_succ_of_le (List.drop_eq_nil_iff.mp here))
          rw [unread, none]
          exact Nat.zero_le _
      | cons arg rest =>
          rw [unread_here here 0, Nat.sub_zero]
          exact Nat.le_add_left _ _

/-- The counters are in order again, and there is less to read. -/
structure Progresses (argv : List CString) (optind optpos : Nat)
    (effect : Effect) : Prop where
  standing : Standing argv effect.optind effect.optpos
  less : unread argv effect.optind effect.optpos <
    unread argv optind optpos

section Cluster

variable {argv : List CString} {optind optpos : Nat} {arg : CString}
  {rest : List CString} (here : argv.drop optind = arg :: rest)

include here

/-- A call that moves to a later argument. -/
theorem progresses_later
    (inside : optpos ≤ arg.length) {effect : Effect}
    (later : optind < effect.optind)
    (bounded : effect.optind ≤ argv.length + 1)
    (settled : effect.optpos = 0) :
    Progresses argv optind optpos effect := by
  constructor
  · rw [settled]
    exact standing_between (Nat.succ_le_of_lt (Nat.zero_lt_of_lt later))
      bounded
  · have fewer := unread_le argv (Nat.succ_le_of_lt later)
    rw [Nat.succ_eq_add_one] at fewer
    rw [settled, unread_here here]
    omega

/-- A call that moves behind the next option of a cluster. -/
theorem progresses_advance
    (positive : 1 ≤ optind) {front more : List Byte} {c : Byte}
    (split : arg.bytes = '-'.toUInt8 :: (front ++ c :: more))
    (position : optpos ≤ front.length + 1) {effect : Effect}
    (moved : effect.optind = if more = [] then optind + 1 else optind)
    (settled : effect.optpos =
      if more = [] then 0 else front.length + 1 + 1) :
    Progresses argv optind optpos effect := by
  rcases argvAt_of_drop here with ⟨inside, current, _⟩
  have length : arg.length = front.length + more.length + 2 := by
    rw [CString.length, split, List.length_cons, List.length_append,
      List.length_cons]
    omega
  by_cases last : more = []
  · rw [if_pos last] at moved settled
    exact progresses_later here (by omega) (by omega) (by omega) settled
  · rw [if_neg last] at moved settled
    have long := List.length_pos_of_ne_nil last
    constructor
    · rw [moved, settled]
      refine ⟨positive, by omega, fun _ => ?_⟩
      have splitBehind :
          arg.bytes = ('-'.toUInt8 :: (front ++ [c])) ++ more := by
        simp [split]
      have first : arg.read 0 = .ok '-'.toUInt8 :=
        CString.read_append (split.trans (List.nil_append _).symm)
      have behind := CString.read_append splitBehind
      rw [List.length_cons, List.length_append,
        List.length_singleton] at behind
      refine ⟨arg, deref more, inside, current, first, by omega, behind,
        ?_⟩
      cases more with
      | nil => exact absurd rfl last
      | cons d more => exact CString.ne_zero_of_split splitBehind
    · rw [moved, settled, unread_here here, unread_here here]
      omega

end Cluster

/-! ## What a call does -/

section Steps

variable {target : Target} {argv : List CString} {optstring : CString}

/-- A call makes of every state at a place what one effect makes of it. -/
def Acts (place : Place) (effect : Effect)
    (call : State → Except Fault (Int × State)) : Prop :=
  ∀ state, placeOf state = place →
    call state = .ok (effect.ret, effect.apply state)

/-- The effect of a call that passes over an option of a cluster. -/
def passing (place : Place) (position : Nat) (more : List Byte) (ret : Int)
    (optopt : Option Int) (messages : List Diagnostic) : Effect where
  ret := ret
  optind := if more = [] then place.optind + 1 else place.optind
  optpos := if more = [] then 0 else position + 1
  optarg := none
  optopt := optopt
  messages := messages

/-- The effect of a call that moves to an argument and sets `optarg`. -/
def taking (optind : Nat) (ret : Int) (optarg : Option Pointer)
    (optopt : Option Int) (messages : List Diagnostic) : Effect where
  ret := ret
  optind := optind
  optpos := 0
  optarg := some optarg
  optopt := optopt
  messages := messages

theorem advance_eq (state : State) (position : Nat) (more : List Byte) :
    advance state position more =
      { state with
        optind := if more = [] then state.optind + 1 else state.optind
        optpos := if more = [] then 0 else position + 1 } := by
  unfold advance
  split_ifs
  · rfl
  · rfl

section Cluster

variable {place : Place} {arg : CString} {rest : List CString}
  {front more : List Byte} {c : Byte}
  (here : argv.drop place.optind = arg :: rest)
  (split : arg.bytes = '-'.toUInt8 :: (front ++ c :: more))

include here split

/-- A character that is no option. -/
theorem unknown_acts
    {pointer : Pointer} {text : List Byte} (points : pointer.Points text)
    (unlisted : c ∉ text ∨ c = ':'.toUInt8) :
    ∃ messages,
      Acts place
        (passing place (front.length + 1) more '?'.toNat
          (some (target.charToInt c)) messages)
        fun state =>
          choose target argv pointer c
            (advance state (front.length + 1) more) := by
  have nonempty : 0 < argv.length :=
    Nat.zero_lt_of_lt (argvAt_of_drop here).1
  have splitHere : arg.bytes = ('-'.toUInt8 :: front) ++ c :: more := split
  have nonzero : c ≠ 0 := CString.ne_zero_of_split splitHere
  rcases choose_unknown target points nonempty nonzero unlisted
      place.opterr with
    ⟨messages, chosen⟩
  refine ⟨messages, ?_⟩
  rintro state rfl
  have called := chosen (advance state (front.length + 1) more)
    (by rw [advance_eq]; rfl)
  refine called.trans ?_
  rw [advance_eq]
  rfl

omit split

section Listed

variable {pointer : Pointer} {text after : List Byte} {i : Nat}
  (points : pointer.Points text)
  (reading : (pointer.add (i + 1)).load = .ok (deref (after.drop 1)))

include reading

/-- The rest of a cluster is the argument of the option. -/
theorem attached_acts (nonempty : more ≠ []) :
    Acts place
      (taking (place.optind + 1) (target.charToInt c)
        (some (arg.start.add (front.length + 1 + 1))) none [])
      fun state =>
        withArgument target argv pointer i c
          (advance state (front.length + 1) more) := by
  rintro state rfl
  rcases argvAt_of_drop here with ⟨inside, current, _⟩
  have taken := withArgument_taken target
    { state with optpos := front.length + 1 + 1 } reading
    (Or.inr (Nat.succ_ne_zero _)) current inside c
  have moved : advance state (front.length + 1) more =
      { state with optpos := front.length + 1 + 1 } := if_neg nonempty
  simp only [moved, taken, Effect.apply, taking, List.append_nil]
  rfl

/-- At the end of its cluster an option has no optional argument. -/
theorem optional_acts
    (doubled : deref (after.drop 1) = ':'.toUInt8) (position : Nat) :
    Acts place
      (taking (place.optind + 1) (target.charToInt c) none none [])
      fun state =>
        withArgument target argv pointer i c
          (advance state position []) := by
  rintro state rfl
  have inside : state.optind + 1 ≤ argv.length := (argvAt_of_drop here).1
  have none := withArgument_none target
    { state with optind := state.optind + 1, optpos := 0 } reading doubled rfl
    inside c
  have moved : advance state position [] =
      { state with optind := state.optind + 1, optpos := 0 } := if_pos rfl
  simp only [moved, none, Effect.apply, taking, List.append_nil]
  rfl

include points

/-- At the end of its cluster an option takes the next argument, if any. -/
theorem required_acts
    (single : deref (after.drop 1) ≠ ':'.toUInt8) (position : Nat) :
    ∃ ret optarg optopt messages,
      place.optind + 2 ≤ argv.length + 1 ∧
        Acts place (taking (place.optind + 2) ret optarg optopt messages)
          fun state =>
            withArgument target argv pointer i c
              (advance state position []) := by
  rcases argvAt_of_drop here with ⟨inside, _, behind⟩
  have moved (state : State) : advance state position [] =
      { state with optind := state.optind + 1, optpos := 0 } := if_pos rfl
  cases rest with
  | nil =>
      have atEnd : place.optind + 1 = argv.length := by
        have none := List.drop_eq_nil_iff.mp behind
        omega
      rcases withArgument_missing target argv points reading single (by omega) c
          place.opterr with
        ⟨messages, missed⟩
      refine ⟨if deref text = ':'.toUInt8 then ':'.toNat else '?'.toNat,
        none, some (target.charToInt c), messages, by omega, ?_⟩
      rintro state rfl
      have called := missed
        { state with optind := state.optind + 1, optpos := 0 } atEnd rfl
      simp only [moved, called]
      rfl
  | cons string rest =>
      rcases argvAt_of_drop behind with ⟨available, next, beyond⟩
      refine ⟨target.charToInt c, some (string.start.add 0), none, [],
        by omega, ?_⟩
      rintro state rfl
      have taken := withArgument_taken target
        { state with optind := state.optind + 1, optpos := 0 } reading
        (Or.inl single) next available c
      simp only [moved, taken, Effect.apply, taking, List.append_nil]
      rfl

end Listed

/-- An option with a colon behind it takes an argument, if it finds one. -/
theorem argument_acts
    {pointer : Pointer} {before after : List Byte}
    (points : pointer.Points (before ++ c :: after))
    (colon : deref after = ':'.toUInt8)
    (inArgument : place.optpos ≤ arg.length) :
    ∃ effect, Progresses argv place.optind place.optpos effect ∧
      Acts place effect fun state =>
        withArgument target argv pointer (before.length + 1) c
          (advance state (front.length + 1) more) := by
  have afterNonempty : after ≠ [] := by
    rintro rfl
    exact absurd colon (by decide)
  have reading := load_behind_colon points afterNonempty
  have last : place.optind + 1 ≤ argv.length + 1 :=
    Nat.le_succ_of_le (argvAt_of_drop here).1
  by_cases isLast : more = []
  · subst isLast
    by_cases single : deref (after.drop 1) ≠ ':'.toUInt8
    · rcases required_acts here points reading single (front.length + 1) with
        ⟨ret, optarg, optopt, messages, bounded, acts⟩
      exact ⟨_, progresses_later here inArgument
        (Nat.lt_succ_of_lt (Nat.lt_succ_self _)) bounded rfl, acts⟩
    · exact ⟨_, progresses_later here inArgument (Nat.lt_succ_self _) last
        rfl, optional_acts here reading (not_not.mp single) (front.length + 1)⟩
  · exact ⟨_, progresses_later here inArgument (Nat.lt_succ_self _) last
      rfl, attached_acts here reading isLast⟩

/-- The next option of a cluster is read, and the counters moved behind it. -/
theorem option_acts
    (positive : 1 ≤ place.optind)
    (split : arg.bytes = '-'.toUInt8 :: (front ++ c :: more))
    (position : (if place.optpos = 0 then 1 else place.optpos) =
      front.length + 1) :
    ∃ effect, Progresses argv place.optind place.optpos effect ∧
      Acts place effect (option target argv optstring arg) := by
  have behind : place.optpos ≤ front.length + 1 := by
    split_ifs at position
    · omega
    · exact Nat.le_of_eq position
  have progresses (ret : Int) (optopt : Option Int)
      (messages : List Diagnostic) :
      Progresses argv place.optind place.optpos
        (passing place (front.length + 1) more ret optopt messages) :=
    progresses_advance here positive split behind rfl rfl
  obtain ⟨pointer, points, opened⟩ : ∃ pointer : Pointer,
      pointer.Points (behindMode optstring.bytes) ∧
        ∀ state, placeOf state = place →
          option target argv optstring arg state =
            choose target argv pointer c
              (advance state (front.length + 1) more) :=
    ⟨_, points_behindMode optstring, fun state same =>
      option_eq split (by rw [← position, ← same]; rfl)⟩
  by_cases member : c ∈ behindMode optstring.bytes ∧ c ≠ ':'.toUInt8
  · rcases member with ⟨member, notColon⟩
    rcases List.eq_append_cons_of_mem member with
      ⟨before, after, listedAt, first⟩
    rw [listedAt] at points
    have listed := choose_listed target argv points first notColon
    by_cases colon : deref after = ':'.toUInt8
    · have inArgument : place.optpos ≤ arg.length := by
        rw [CString.length, split, List.length_cons, List.length_append,
          List.length_cons]
        omega
      rcases argument_acts here points colon inArgument with
        ⟨effect, less, acts⟩
      refine ⟨effect, less, fun state same => ?_⟩
      rw [opened state same, listed, if_pos colon]
      exact acts state same
    · refine ⟨_, progresses (target.charToInt c) none [], ?_⟩
      intro state same
      rw [opened state same, listed, if_neg colon, advance_eq, ← same]
      simp only [Effect.apply, passing, List.append_nil]
      rfl
  · have unlisted : c ∉ behindMode optstring.bytes ∨ c = ':'.toUInt8 := by
      by_cases colon : c = ':'.toUInt8
      · exact Or.inr colon
      · exact Or.inl fun isMember => member ⟨isMember, colon⟩
    rcases unknown_acts here split points unlisted with ⟨messages, acts⟩
    refine ⟨_, progresses '?'.toNat (some (target.charToInt c)) messages,
      ?_⟩
    intro state same
    rw [opened state same]
    exact acts state same

end Cluster

/-- The effect of a call that ends the scan at an index. -/
def ending (optind : Nat) : Effect where
  ret := -1
  optind := optind
  optpos := 0
  optarg := none
  optopt := none
  messages := []

/-- What one call does at a place, and whether it ends the scan. -/
structure Calls (target : Target) (argv : List CString)
    (optstring : CString) (place : Place) (effect : Effect) : Prop where
  acts : Acts place effect (getopt target argv optstring)
  ends : EndsScan argv optstring place.optind →
    ∃ optind, effect = ending optind ∧ Standing argv optind 0
  goesOn : ¬ EndsScan argv optstring place.optind →
    Progresses argv place.optind place.optpos effect

theorem calls_end
    {place : Place} (settled : place.optpos = 0)
    (standing : Standing argv place.optind 0)
    (ended : EndsScan argv optstring place.optind)
    (called : ∀ state, placeOf state = place →
      getopt target argv optstring state = .ok (-1, state)) :
    Calls target argv optstring place (ending place.optind) where
  acts := by
    rintro state rfl
    have same : (ending (placeOf state).optind).apply state = state := by
      rcases state with ⟨optarg, optind, opterr, optopt, optpos, printed⟩
      cases settled
      simp only [Effect.apply, ending, List.append_nil]
      rfl
    rw [same]
    exact called state rfl
  ends := fun _ => ⟨_, rfl, standing⟩
  goesOn := fun goesOn => absurd ended goesOn

/-- Where a cluster is, its next option is read. -/
theorem calls_cluster
    {place : Place} {arg : CString} {rest : List CString}
    (front : List Byte) {more : List Byte} {c : Byte}
    (positive : 1 ≤ place.optind)
    (here : argv.drop place.optind = arg :: rest)
    (split : arg.bytes = '-'.toUInt8 :: (front ++ c :: more))
    (notDashes : front ++ c :: more ≠ ['-'.toUInt8])
    (position : (if place.optpos = 0 then 1 else place.optpos) =
      front.length + 1) :
    ∃ effect, Calls target argv optstring place effect := by
  rcases option_acts here positive split position with
    ⟨effect, progresses, acts⟩
  have nonempty : front ++ c :: more ≠ [] := by simp
  refine ⟨effect, ?_, ?_, fun _ => progresses⟩
  · rintro state rfl
    rw [getopt_dash _ _ positive here split, if_neg nonempty, if_neg notDashes]
    exact acts state rfl
  · intro ended
    rw [EndsScan, here] at ended
    rcases ended with ⟨operand, _⟩ | dash | dashes
    · rw [split, deref_cons] at operand
      exact absurd rfl operand
    · rw [split, List.cons.injEq] at dash
      exact absurd dash.2 nonempty
    · rw [split, List.cons.injEq] at dashes
      exact absurd dashes.2 notDashes

/-- Between two arguments, at one that does not start with a dash. -/
theorem calls_operand
    {place : Place} {arg : CString} {rest : List CString}
    (positive : 1 ≤ place.optind) (settled : place.optpos = 0)
    (standing : Standing argv place.optind 0)
    (here : argv.drop place.optind = arg :: rest)
    (operand : deref arg.bytes ≠ '-'.toUInt8) :
    ∃ effect, Calls target argv optstring place effect := by
  by_cases inOrder : deref optstring.bytes = '-'.toUInt8
  · have reported : ¬ EndsScan argv optstring place.optind := by
      rw [EndsScan, here]
      rintro (⟨_, stops⟩ | dash | dashes)
      · exact stops inOrder
      · rw [dash] at operand
        exact operand rfl
      · rw [dashes] at operand
        exact operand rfl
    have inArgument : place.optpos ≤ arg.length := by
      rw [settled]
      exact Nat.zero_le _
    refine ⟨taking (place.optind + 1) 1 (some arg.start) none [], ?_,
      fun ended => absurd ended reported, fun _ =>
        progresses_later here inArgument (Nat.lt_succ_self _)
          (Nat.le_succ_of_le (argvAt_of_drop here).1) rfl⟩
    rintro state rfl
    have zero : state.optpos = 0 := settled
    rw [getopt_operand _ _ positive here operand, if_pos inOrder]
    simp only [Effect.apply, taking, List.append_nil, zero]
    rfl
  · refine ⟨_, calls_end settled standing
      (by rw [EndsScan, here]; exact Or.inl ⟨operand, inOrder⟩) ?_⟩
    rintro state rfl
    rw [getopt_operand _ _ positive here operand, if_neg inOrder]

/-- Between two arguments, at one that starts with a dash. -/
theorem calls_dash
    {place : Place} {arg : CString} {rest : List CString}
    {chars : List Byte} (positive : 1 ≤ place.optind)
    (settled : place.optpos = 0)
    (standing : Standing argv place.optind 0)
    (here : argv.drop place.optind = arg :: rest)
    (split : arg.bytes = '-'.toUInt8 :: chars) :
    ∃ effect, Calls target argv optstring place effect := by
  cases chars with
  | nil =>
      refine ⟨_, calls_end settled standing
        (by rw [EndsScan, here]; exact Or.inr (Or.inl split)) ?_⟩
      rintro state rfl
      rw [getopt_dash _ _ positive here split, if_pos rfl]
  | cons c more =>
      by_cases dashes : c :: more = ['-'.toUInt8]
      · have ended : EndsScan argv optstring place.optind := by
          rw [EndsScan, here]
          exact Or.inr (Or.inr (split.trans (congrArg _ dashes)))
        refine ⟨ending (place.optind + 1), ?_, fun _ => ⟨_, rfl,
          standing_between (Nat.succ_le_succ (Nat.zero_le _))
            (Nat.succ_le_succ (Nat.le_of_lt (argvAt_of_drop here).1))⟩,
          fun goesOn => absurd ended goesOn⟩
        rintro state rfl
        have zero : state.optpos = 0 := settled
        rw [getopt_dash _ _ positive here split,
          if_neg (List.cons_ne_nil c more), if_pos dashes]
        simp only [Effect.apply, ending, List.append_nil, zero]
        rfl
      · exact calls_cluster [] positive here split dashes (if_pos settled)

/-- Every call has an effect that its place determines. -/
theorem exists_calls
    (target : Target) (optstring : CString) (place : Place)
    (standing : Standing argv place.optind place.optpos) :
    ∃ effect, Calls target argv optstring place effect := by
  have positive := standing.positive
  cases here : argv.drop place.optind with
  | nil =>
      have atEnd : argv.length ≤ place.optind := List.drop_eq_nil_iff.mp here
      have settled : place.optpos = 0 := by
        by_contra pending
        rcases standing.pending pending with ⟨_, _, inside, _⟩
        omega
      exact ⟨_, calls_end settled (settled ▸ standing)
        (by rw [EndsScan, here]; exact True.intro)
        (by
          rintro state rfl
          exact getopt_end positive atEnd)⟩
  | cons arg rest =>
      by_cases pending : place.optpos = 0
      · have between : Standing argv place.optind 0 := pending ▸ standing
        by_cases dash : deref arg.bytes = '-'.toUInt8
        · rcases eq_cons_of_deref dash (by decide) with ⟨chars, split⟩
          exact calls_dash positive pending between here split
        · exact calls_operand positive pending between here dash
      · rcases standing.cluster here pending with
          ⟨front, c, more, split, started, position⟩
        have notDashes : front ++ c :: more ≠ ['-'.toUInt8] := by
          cases front with
          | nil => exact absurd rfl started
          | cons d front => simp
        exact calls_cluster _ positive here split notDashes
          ((if_neg pending).trans position)

end Steps

/-! ## Whole scans -/

section Scans

variable (target : Target) (argv : List CString) (optstring : CString)

/-- One call, labelled with its effect. -/
def Call (state : State) (effect : Effect) (next : State) : Prop :=
  getopt target argv optstring state = .ok (effect.ret, next) ∧
    next = effect.apply state

/--
The states after any number of calls.  Behind a call that ends a scan the
caller may set `optind` to one or zero, and call again.
-/
inductive Reachable : State → Prop where
  | start (optarg : Option Pointer) (opterr optopt : Int)
      (printed : List Diagnostic) :
      Reachable ⟨optarg, 1, opterr, optopt, 0, printed⟩
  | call {state next : State} {ret : Int} (before : Reachable state)
      (called : getopt target argv optstring state = .ok (ret, next)) :
      Reachable next
  | restart {state ended next : State} {ret again : Int} {reset : Nat}
      (before : Reachable state)
      (ends : EndsScan argv optstring state.optind)
      (called : getopt target argv optstring state = .ok (ret, ended))
      (small : reset ≤ 1)
      (recalled : getopt target argv optstring
        { ended with optind := reset } = .ok (again, next)) :
      Reachable next

variable {target argv optstring}

theorem standing_start (argv : List CString) : Standing argv 1 0 :=
  standing_between (Nat.le_refl 1) (Nat.succ_le_succ (Nat.zero_le _))

namespace Calls

variable {place : Place} {effect : Effect}
  (calls : Calls target argv optstring place effect)

include calls

theorem standing : Standing argv effect.optind effect.optpos := by
  by_cases ended : EndsScan argv optstring place.optind
  · rcases calls.ends ended with ⟨optind, rfl, standing⟩
    exact standing
  · exact (calls.goesOn ended).standing

/-- What is called is the effect of the place. -/
theorem called_eq
    {state next : State} {ret : Int} (same : placeOf state = place)
    (called : getopt target argv optstring state = .ok (ret, next)) :
    ret = effect.ret ∧ next = effect.apply state := by
  rw [calls.acts state same, Except.ok.injEq, Prod.mk.injEq] at called
  exact ⟨called.1.symm, called.2.symm⟩

end Calls

/-- With `optind` zero a call starts at one, outside any cluster. -/
theorem getopt_zero {state : State} (zero : state.optind = 0) :
    getopt target argv optstring state =
      getopt target argv optstring
        { state with optind := 1, optpos := 0 } := by
  simp only [getopt, zero, if_true, Nat.one_ne_zero, if_false]

/-- A call with `optind` one or zero does what the first call does. -/
theorem acts_reset
    {effect : Effect} {opterr : Int}
    (calls : Calls target argv optstring ⟨1, 0, opterr⟩ effect)
    (state : State) (small : state.optind ≤ 1)
    (settled : state.optpos = 0) (same : state.opterr = opterr) :
    getopt target argv optstring state =
      .ok (effect.ret, effect.apply state) := by
  subst same
  by_cases zero : state.optind = 0
  · rw [getopt_zero zero]
    exact calls.acts { state with optind := 1, optpos := 0 } rfl
  · have one : state.optind = 1 :=
      Nat.le_antisymm small (Nat.one_le_iff_ne_zero.mpr zero)
    exact calls.acts state (by rw [placeOf, one, settled])

/-- A call that ends a scan leaves no cluster pending. -/
theorem settled_of_ends
    {state next : State} {ret : Int}
    (standing : Standing argv state.optind state.optpos)
    (ends : EndsScan argv optstring state.optind)
    (called : getopt target argv optstring state = .ok (ret, next)) :
    ret = -1 ∧ next.optpos = 0 := by
  rcases exists_calls target optstring (placeOf state) standing with
    ⟨effect, calls⟩
  rcases calls.called_eq rfl called with ⟨result, after⟩
  rcases calls.ends ends with ⟨optind, rfl, _⟩
  exact ⟨result, congrArg State.optpos after⟩

/-- The counters are in order whenever a call returns. -/
theorem Reachable.standing
    {state : State} (reachable : Reachable target argv optstring state) :
    Standing argv state.optind state.optpos := by
  induction reachable with
  | start optarg opterr optopt printed => exact standing_start argv
  | @call state next ret _ called standing =>
      rcases exists_calls target optstring (placeOf state) standing
        with ⟨effect, calls⟩
      rw [(calls.called_eq rfl called).2]
      exact calls.standing
  | @restart state ended next ret again reset _ ends called small recalled
      standing =>
      have settled := (settled_of_ends standing ends called).2
      rcases exists_calls target optstring ⟨1, 0, ended.opterr⟩
          (standing_start argv) with
        ⟨effect, calls⟩
      rw [acts_reset calls { ended with optind := reset } small settled rfl,
        Except.ok.injEq, Prod.mk.injEq] at recalled
      rw [← recalled.2]
      exact calls.standing

/-- A scan ends after no more calls than there are bytes left. -/
theorem exists_ending_run
    (state : State) (standing : Standing argv state.optind state.optpos) :
    ∃ effects last,
      Run (Call target argv optstring) state effects last ∧
        effects.length ≤ unread argv state.optind state.optpos ∧
        EndsScan argv optstring last.optind := by
  induction size : unread argv state.optind state.optpos
    using Nat.strongRecOn generalizing state with
  | ind size induction =>
      subst size
      by_cases ends : EndsScan argv optstring state.optind
      · exact ⟨[], state, .done state, Nat.zero_le _, ends⟩
      · rcases exists_calls target optstring (placeOf state) standing
          with ⟨effect, calls⟩
        rcases calls.goesOn ends with ⟨onward, less⟩
        rcases induction _ less (effect.apply state) onward rfl with
          ⟨effects, last, run, short, ended⟩
        exact ⟨effect :: effects, last,
          .more ⟨calls.acts state rfl, rfl⟩ run,
          Nat.succ_le_of_lt (Nat.lt_of_le_of_lt short less), ended⟩

/-- States at the same place have runs with the same effects. -/
theorem exists_common_run
    (count : Nat) (first second : State)
    (standing : Standing argv first.optind first.optpos)
    (same : placeOf first = placeOf second) :
    ∃ effects last other,
      effects.length = count ∧
        Run (Call target argv optstring) first effects last ∧
        Run (Call target argv optstring) second effects other := by
  induction count generalizing first second with
  | zero =>
      exact ⟨[], first, second, rfl, .done first, .done second⟩
  | succ count induction =>
      rcases exists_calls target optstring (placeOf first) standing
        with ⟨effect, calls⟩
      have onward : placeOf (effect.apply first) =
          placeOf (effect.apply second) := by
        have opterr := congrArg Place.opterr same
        exact congrArg (Place.mk effect.optind effect.optpos) opterr
      rcases induction (effect.apply first) (effect.apply second)
          calls.standing onward with
        ⟨effects, last, other, length, run, again⟩
      exact ⟨effect :: effects, last, other, congrArg (· + 1) length,
        .more ⟨calls.acts first rfl, rfl⟩ run,
        .more ⟨calls.acts second same.symm, rfl⟩ again⟩

/-- A scan that is started again has the effects of the first one. -/
theorem exists_replay
    (count : Nat) {first again : State} (one : first.optind = 1)
    (settled : first.optpos = 0) (small : again.optind ≤ 1)
    (settledAgain : again.optpos = 0)
    (same : first.opterr = again.opterr) :
    ∃ effects last other,
      effects.length = count ∧
        Run (Call target argv optstring) first effects last ∧
        Run (Call target argv optstring) again effects other := by
  cases count with
  | zero => exact ⟨[], first, again, rfl, .done first, .done again⟩
  | succ count =>
      rcases exists_calls target optstring ⟨1, 0, first.opterr⟩
          (standing_start argv) with
        ⟨effect, calls⟩
      have onward : placeOf (effect.apply first) =
          placeOf (effect.apply again) :=
        congrArg (Place.mk effect.optind effect.optpos) same
      rcases exists_common_run count (effect.apply first)
          (effect.apply again) calls.standing onward with
        ⟨effects, last, other, length, run, replay⟩
      refine ⟨effect :: effects, last, other, congrArg (· + 1) length,
        .more ⟨?_, rfl⟩ run, .more ⟨?_, rfl⟩ replay⟩
      · exact acts_reset calls _ (Nat.le_of_eq one) settled rfl
      · exact acts_reset calls _ small settledAgain same.symm

/--
In every state that calls of `getopt` reach, from none on and with scans
started again or not: the counters are in order, and the next call reads
nothing out of bounds.  A call ends the scan, and then leaves no cluster
pending, or there is less left to read behind it; so that every scan ends.
Once it has, setting `optind` to one or zero replays the calls of the first
scan, however many: each has the same result, and sets the same to the same.
-/
theorem getopt_reachable
    (target : Target) (argv : List CString) (optstring : CString) :
    (∀ state, Reachable target argv optstring state →
      Standing argv state.optind state.optpos ∧
        ∃ ret next,
          getopt target argv optstring state = .ok (ret, next)) ∧
    (∀ state ret next, Reachable target argv optstring state →
      getopt target argv optstring state = .ok (ret, next) →
      (EndsScan argv optstring state.optind →
        ret = -1 ∧ next.optpos = 0) ∧
      (¬ EndsScan argv optstring state.optind →
        unread argv next.optind next.optpos <
          unread argv state.optind state.optpos)) ∧
    (∀ state, Reachable target argv optstring state →
      ∃ effects last,
        Run (Call target argv optstring) state effects last ∧
          effects.length ≤ unread argv state.optind state.optpos ∧
          EndsScan argv optstring last.optind) ∧
    ∀ state ret ended reset first, Reachable target argv optstring state →
      EndsScan argv optstring state.optind →
      getopt target argv optstring state = .ok (ret, ended) →
      reset ≤ 1 → first.optind = 1 → first.optpos = 0 →
      first.opterr = ended.opterr →
      ∀ count, ∃ effects last other,
        effects.length = count ∧
          Run (Call target argv optstring) first effects last ∧
          Run (Call target argv optstring)
            { ended with optind := reset } effects other := by
  refine ⟨?_, ?_, fun state reachable =>
    exists_ending_run state reachable.standing, ?_⟩
  · intro state reachable
    rcases exists_calls target optstring (placeOf state) reachable.standing with
      ⟨effect, calls⟩
    exact ⟨reachable.standing, _, _, calls.acts state rfl⟩
  · intro state ret next reachable called
    refine ⟨fun ends => settled_of_ends reachable.standing ends called, ?_⟩
    intro goesOn
    rcases exists_calls target optstring (placeOf state) reachable.standing with
      ⟨effect, calls⟩
    rw [(calls.called_eq rfl called).2]
    exact (calls.goesOn goesOn).less
  · intro state ret ended reset first reachable ends called small one
      settled same count
    exact exists_replay count one settled small
      (settled_of_ends reachable.standing ends called).2 same

end Scans

end Nolibc.GetoptReachable

import Nolibc.Getopt

/-!
# A parser of argument lists

The parser of this module reads a list of arguments from left to right and
says what every option of it is, without any position to remember between two
of them.  Its options come from a table made of `optstring`.

`resume` is the parser started inside a cluster; its equations, one for each
kind of option, are what a caller that handles one option at a time needs.
-/

set_option autoImplicit false

namespace Nolibc.GetoptParser

open Nolibc.Machine
open Nolibc.Getopt

/-! ## The reference parser -/

/-- What an option takes. -/
inductive Marking where
  | flag
  | required
  | optional
  deriving DecidableEq, Repr

/-- The colons behind an option. -/
def marking : List Byte → Marking
  | first :: second :: _ =>
      if first ≠ ':'.toUInt8 then
        .flag
      else if second ≠ ':'.toUInt8 then
        .required
      else
        .optional
  | [only] => if only ≠ ':'.toUInt8 then .flag else .required
  | [] => .flag

/-- The options of a string, in its order. -/
def optionTable : List Byte → List (Byte × Marking)
  | [] => []
  | c :: rest =>
      if c = ':'.toUInt8 then
        optionTable rest
      else
        (c, marking rest) :: optionTable rest

/-- What `optstring` selects. -/
structure Syntax where
  /-- Operands are reported, and do not end the options. -/
  inOrder : Bool
  /-- A missing argument is reported as a colon. -/
  colon : Bool
  options : List (Byte × Marking)

/-- What is left of a string behind a leading `-` or `+`. -/
def behindMode (optstring : List Byte) : List Byte :=
  if deref optstring = '-'.toUInt8 ∨ deref optstring = '+'.toUInt8 then
    optstring.drop 1
  else
    optstring

/-- A leading `-` or `+`, and then a colon, select the mode. -/
def syntaxOf (optstring : List Byte) : Syntax where
  inOrder := decide (deref optstring = '-'.toUInt8)
  colon := decide (deref (behindMode optstring) = ':'.toUInt8)
  options := optionTable (behindMode optstring)

/--
What is reported of one option: a value, and the settings of `optarg` and
`optopt` where there are some.
-/
structure Report where
  ret : Int
  optarg : Option (Option (List Byte))
  optopt : Option Int
  deriving DecidableEq

section Parser

variable (target : Target) (options : Syntax)

/-- An option that is not in the table. -/
def unknown (c : Byte) : Report :=
  ⟨'?'.toNat, none, some (target.charToInt c)⟩

/-- An option without an argument. -/
def plain (c : Byte) : Report :=
  ⟨c.toNat, none, none⟩

/-- An option with its argument, where it has one. -/
def taking (c : Byte) (argument : Option (List Byte)) : Report :=
  ⟨c.toNat, some argument, none⟩

/-- An option at the end of the arguments which takes one. -/
def missing (c : Byte) : Report :=
  ⟨if options.colon then ':'.toNat else '?'.toNat, some none,
    some (target.charToInt c)⟩

/--
The options of a cluster; the last of them may need the argument behind the
cluster, and is then given apart.
-/
def cluster : List Byte → List Report × Option Byte
  | [] => ([], none)
  | c :: more =>
      match options.options.lookup c with
      | none =>
          let (reports, pending) := cluster more
          (unknown target c :: reports, pending)
      | some .flag =>
          let (reports, pending) := cluster more
          (plain c :: reports, pending)
      | some .required =>
          if more = [] then ([], some c) else ([taking c (some more)], none)
      | some .optional =>
          ([taking c (if more = [] then none else some more)], none)

/-- The reports of an argument list, and the index they end at. -/
structure Parsed where
  reports : List Report
  index : Nat
  deriving DecidableEq

/-- An argument that is a cluster of options, and its options. -/
def asCluster : List Byte → Option (List Byte)
  | dash :: c :: more =>
      if dash = '-'.toUInt8 then some (c :: more) else none
  | _ => none

/-- Read the arguments from the one at `index` on. -/
def parse (index : Nat) : List (List Byte) → Parsed
  | [] => ⟨[], index⟩
  | arg :: rest =>
      match asCluster arg with
      | none =>
          if options.inOrder = true ∧ deref arg ≠ '-'.toUInt8 then
            let parsed := parse (index + 1) rest
            ⟨⟨1, some (some arg), none⟩ :: parsed.reports, parsed.index⟩
          else
            ⟨[], index⟩
      | some chars =>
          if chars = ['-'.toUInt8] then
            ⟨[], index + 1⟩
          else
            let (reports, pending) := cluster target options chars
            match pending, rest with
            | none, rest =>
                let parsed := parse (index + 1) rest
                ⟨reports ++ parsed.reports, parsed.index⟩
            | some c, [] =>
                ⟨reports ++ [missing target options c], index + 2⟩
            | some c, argument :: rest =>
                let parsed := parse (index + 2) rest
                ⟨reports ++ taking c (some argument) :: parsed.reports,
                  parsed.index⟩

end Parser

/-- What the caller observes of reports, from some `optarg` and `optopt`. -/
def observe : Option (List Byte) → Int → List Report → List Observation
  | _, _, [] => []
  | optarg, optopt, report :: rest =>
      let optarg := report.optarg.getD optarg
      let optopt := report.optopt.getD optopt
      ⟨report.ret, optarg, optopt⟩ :: observe optarg optopt rest

/-! ## The table -/

/-- The table has the first occurrence of a character. -/
theorem lookup_of_first
    {c : Byte} (notColon : c ≠ ':'.toUInt8) {front after : List Byte}
    (first : c ∉ front) :
    (optionTable (front ++ c :: after)).lookup c =
      some (marking after) := by
  induction front with
  | nil =>
      rw [List.nil_append, optionTable, if_neg notColon,
        List.lookup_cons_self]
  | cons d front induction =>
      have different : (c == d) = false := by
        rw [beq_eq_false_iff_ne]
        rintro rfl
        exact first (by simp)
      have later := induction fun member => first (by simp [member])
      rw [List.cons_append, optionTable]
      split_ifs
      · exact later
      · rw [List.lookup_cons, different]
        exact later

/-- The table has neither absent characters nor the colon. -/
theorem lookup_of_absent
    {c : Byte} {text : List Byte}
    (absent : c ∉ text ∨ c = ':'.toUInt8) :
    (optionTable text).lookup c = none := by
  induction text with
  | nil => rfl
  | cons d text induction =>
      have later := induction (absent.imp_left fun notIn member =>
        notIn (by simp [member]))
      rw [optionTable]
      split_ifs with colon
      · exact later
      · have different : (c == d) = false := by
          rw [beq_eq_false_iff_ne]
          rintro rfl
          rcases absent with notIn | isColon
          · exact notIn (by simp)
          · exact colon isColon
        rw [List.lookup_cons, different]
        exact later

theorem mem_of_mem_behindMode
    {text : List Byte} {c : Byte} (member : c ∈ behindMode text) :
    c ∈ text := by
  unfold behindMode at member
  split_ifs at member
  · exact List.mem_of_mem_drop member
  · exact member

/-- The code reads the colons behind an option the way the table does. -/
theorem marking_cases (after : List Byte) :
    (deref after ≠ ':'.toUInt8 ∧ marking after = .flag) ∨
      (deref after = ':'.toUInt8 ∧ after ≠ [] ∧
        ((deref (after.drop 1) ≠ ':'.toUInt8 ∧
            marking after = .required) ∨
          (deref (after.drop 1) = ':'.toUInt8 ∧
            marking after = .optional))) := by
  cases after with
  | nil => exact Or.inl ⟨by decide, rfl⟩
  | cons first rest =>
      by_cases colon : first = ':'.toUInt8
      · right
        refine ⟨colon, by simp, ?_⟩
        cases rest with
        | nil =>
            left
            have atEnd : deref (List.drop 1 [first]) = 0 := rfl
            refine ⟨by rw [atEnd]; decide, ?_⟩
            rw [marking, if_neg (not_not_intro colon)]
        | cons second rest =>
            by_cases doubled : second = ':'.toUInt8
            · right
              refine ⟨doubled, ?_⟩
              rw [marking, if_neg (not_not_intro colon),
                if_neg (not_not_intro doubled)]
            · left
              refine ⟨doubled, ?_⟩
              rw [marking, if_neg (not_not_intro colon), if_pos doubled]
      · left
        refine ⟨colon, ?_⟩
        cases rest with
        | nil => rw [marking, if_pos colon]
        | cons second rest => rw [marking, if_pos colon]

/-! ## Reading on -/

section Reading

variable (target : Target) (options : Syntax)

/-- The parser's view of arguments. -/
def texts (argv : List CString) : List (List Byte) :=
  argv.map CString.bytes

/-- What is left to say inside a cluster at `index`. -/
def resume (index : Nat) (chars : List Byte)
    (rest : List (List Byte)) : Parsed :=
  match cluster target options chars, rest with
  | (reports, none), rest =>
      ⟨reports ++ (parse target options (index + 1) rest).reports,
        (parse target options (index + 1) rest).index⟩
  | (reports, some c), [] =>
      ⟨reports ++ [missing target options c], index + 2⟩
  | (reports, some c), argument :: rest =>
      ⟨reports ++ taking c (some argument) ::
          (parse target options (index + 2) rest).reports,
        (parse target options (index + 2) rest).index⟩

/-- Put a report in front. -/
def Parsed.push (report : Report) (parsed : Parsed) : Parsed :=
  ⟨report :: parsed.reports, parsed.index⟩

theorem parse_operand
    (index : Nat) {arg : List Byte} (rest : List (List Byte))
    (operand : deref arg ≠ '-'.toUInt8) :
    parse target options index (arg :: rest) =
      if options.inOrder then
        (parse target options (index + 1) rest).push
          ⟨1, some (some arg), none⟩
      else
        ⟨[], index⟩ := by
  have notCluster : asCluster arg = none := by
    cases arg with
    | nil => rfl
    | cons byte text =>
        cases text with
        | nil => rfl
        | cons c more => exact if_neg operand
  rw [parse, notCluster]
  simp only [operand, ne_eq, not_false_eq_true, and_true]
  rfl

theorem parse_dash (index : Nat) (rest : List (List Byte)) :
    parse target options index (['-'.toUInt8] :: rest) = ⟨[], index⟩ := by
  have stops : ¬ (options.inOrder = true ∧
      deref ['-'.toUInt8] ≠ '-'.toUInt8) :=
    fun operand => operand.2 rfl
  rw [parse, asCluster]
  · exact if_neg stops
  · rintro dash c more ⟨⟩

theorem parse_cluster
    (index : Nat) {arg chars : List Byte} (rest : List (List Byte))
    (isCluster : asCluster arg = some chars)
    (notDashes : chars ≠ ['-'.toUInt8]) :
    parse target options index (arg :: rest) =
      resume target options index chars rest := by
  rw [parse, isCluster]
  simp only [if_neg notDashes, resume]
  rcases cluster target options chars with ⟨reports, pending⟩
  cases pending with
  | none => rfl
  | some c =>
      cases rest with
      | nil => rfl
      | cons argument rest => rfl

@[simp]
theorem resume_nil (index : Nat) (rest : List (List Byte)) :
    resume target options index [] rest =
      parse target options (index + 1) rest := by
  simp [resume, cluster]

section Options

variable {target options} {c : Byte} (index : Nat) (more : List Byte)
  (rest : List (List Byte))

/-- An option which is not pending is reported first. -/
theorem resume_push
    {report : Report}
    (continues : cluster target options (c :: more) =
      (report :: (cluster target options more).1,
        (cluster target options more).2)) :
    resume target options index (c :: more) rest =
      (resume target options index more rest).push report := by
  unfold resume
  rw [continues]
  rcases cluster target options more with ⟨reports, pending⟩
  cases pending with
  | none => rfl
  | some waiting =>
      cases rest with
      | nil => rfl
      | cons argument rest => rfl

theorem resume_unknown
    (unlisted : options.options.lookup c = none) :
    resume target options index (c :: more) rest =
      (resume target options index more rest).push (unknown target c) := by
  apply resume_push
  rw [cluster, unlisted]

theorem resume_flag
    (listed : options.options.lookup c = some .flag) :
    resume target options index (c :: more) rest =
      (resume target options index more rest).push (plain c) := by
  apply resume_push
  rw [cluster, listed]

theorem resume_attached
    (listed : options.options.lookup c = some .required)
    (nonempty : more ≠ []) :
    resume target options index (c :: more) rest =
      (parse target options (index + 1) rest).push
        (taking c (some more)) := by
  have taken : cluster target options (c :: more) =
      ([taking c (some more)], none) := by
    simp only [cluster, listed, if_neg nonempty]
  unfold resume
  rw [taken]
  rfl

theorem resume_separate
    (listed : options.options.lookup c = some .required)
    (argument : List Byte) :
    resume target options index [c] (argument :: rest) =
      (parse target options (index + 2) rest).push
        (taking c (some argument)) := by
  have pending : cluster target options [c] = ([], some c) := by
    simp only [cluster, listed, if_true]
  unfold resume
  rw [pending]
  rfl

theorem resume_missing
    (listed : options.options.lookup c = some .required) :
    resume target options index [c] [] =
      ⟨[missing target options c], index + 2⟩ := by
  have pending : cluster target options [c] = ([], some c) := by
    simp only [cluster, listed, if_true]
  unfold resume
  rw [pending]
  rfl

theorem resume_optional
    (listed : options.options.lookup c = some .optional) :
    resume target options index (c :: more) rest =
      (parse target options (index + 1) rest).push
        (taking c (if more = [] then none else some more)) := by
  have taken : cluster target options (c :: more) =
      ([taking c (if more = [] then none else some more)], none) := by
    simp only [cluster, listed]
  unfold resume
  rw [taken]
  rfl

end Options

end Reading

end Nolibc.GetoptParser

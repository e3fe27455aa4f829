import Nolibc.Foundation.Loop
import Nolibc.Machine

/-!
# The initial stack

What the kernel leaves on the stack of a new process, and the three walks over
it: `_start_c` of `crt.h` up to the constructors, `getauxval` of `sys/auxv.h`
and `getenv` of `stdlib.h`.

The stack is one block of words, a pointer into it is the index of the word it
points to, and nothing is behind the block: a walk that does not stop at its
terminator faults.  The strings are elsewhere.  The counters are natural
numbers: no vector or string is as long as `INT_MAX`.
-/

set_option autoImplicit false

namespace Nolibc.Crt

open Nolibc.Machine
open Nolibc.Foundation

/-! ## The code -/

/-- The word at an index of the block. -/
def word (block : List Nat) (index : Nat) : Except Fault Nat :=
  if inside : index < block.length then
    .ok block[index]
  else
    .error .outOfBounds

/-- `environ` and `_auxv`, null until they are found. -/
structure Globals where
  environ : Option Nat
  auxv : Option Nat
  deriving DecidableEq, Repr

/-- What `_start_c` has when it calls the constructors. -/
structure Started where
  argc : Nat
  argv : Nat
  envp : Nat
  globals : Globals
  deriving DecidableEq, Repr

section Code

variable (block : List Nat)

/-- `for (auxv = (void *)envp; *auxv++;);` -/
def skipTurn (auxv : Nat) : Except Fault (Nat ⊕ Nat) := do
  let entry ← word block auxv
  if entry ≠ 0 then
    pure (.inl (auxv + 1))
  else
    pure (.inr (auxv + 1))

/-- The loop from `envp` to the word behind its `NULL`. -/
def skipVector (envp : Nat) : Except Fault Nat :=
  Loop.run Fault.diverged (skipTurn block) (block.length + 1) envp

/-- `_start_c` up to the constructors; `sp` points to the block. -/
def startC : Except Fault Started := do
  let argc ← word block 0
  let argv := 1
  let envp := argv + argc + 1
  let auxv ← skipVector block envp
  pure ⟨argc, argv, envp, ⟨some envp, some auxv⟩⟩

/-- One turn of the loop of `getauxval` over the pairs of the vector. -/
def auxvTurn (type auxv : Nat) : Except Fault (Nat ⊕ Nat) := do
  let key ← word block auxv
  let last ←
    if key = 0 then do
      let value ← word block (auxv + 1)
      pure (decide (value = 0))
    else
      pure false
  if last then
    pure (.inr 0)
  else if key = type then do
    let value ← word block (auxv + 1)
    pure (.inr value)
  else
    pure (.inl (auxv + 2))

/-- `getauxval`, which returns 0 before `_auxv` is set. -/
def getauxval (globals : Globals) (type : Nat) : Except Fault Nat :=
  match globals.auxv with
  | none => pure 0
  | some auxv =>
      Loop.run Fault.diverged (auxvTurn block type) (block.length + 1) auxv

/-- `for (i = 0; name[i] && name[i] == environ[idx][i];) i++;` -/
def compareTurn (name text : CString) (i : Nat) :
    Except Fault (Nat ⊕ Nat) := do
  let c ← name.read i
  if c ≠ 0 then
    let d ← text.read i
    if c = d then
      pure (.inl (i + 1))
    else
      pure (.inr i)
  else
    pure (.inr i)

variable (texts : Nat → Option CString)

/-- The string a pointer points to. -/
def textAt (pointer : Nat) : Except Fault CString :=
  match texts pointer with
  | some text => .ok text
  | none => .error .outOfBounds

/-- One turn of the outer loop of `getenv`, with the inner one in it. -/
def getenvTurn (name : CString) (environ idx : Nat) :
    Except Fault (Nat ⊕ Option Pointer) := do
  let pointer ← word block (environ + idx)
  if pointer ≠ 0 then
    let text ← textAt texts pointer
    let i ← Loop.run Fault.diverged (compareTurn name text)
      (name.length + 1) 0
    let c ← name.read i
    if c = 0 then
      let d ← text.read i
      if d = '='.toUInt8 then
        pure (.inr (some (text.start.add (i + 1))))
      else
        pure (.inl (idx + 1))
    else
      pure (.inl (idx + 1))
  else
    pure (.inr none)

/-- `getenv`, which returns `NULL` before `environ` is set. -/
def getenv (globals : Globals) (name : CString) :
    Except Fault (Option Pointer) :=
  match globals.environ with
  | none => pure none
  | some environ =>
      Loop.run Fault.diverged (getenvTurn block texts name environ)
        (block.length + 1) 0

end Code

/-! ## What the kernel sets up -/

/-- The vectors of a new process, and the strings of its environment. -/
structure Startup where
  argv : List Nat
  environ : List Nat
  auxv : List (Nat × Nat)
  texts : Nat → Option CString
  argv_nonnull : 0 ∉ argv
  environ_nonnull : 0 ∉ environ
  environ_texts : ∀ pointer ∈ environ, ∃ text, texts pointer = some text
  auxv_nonzero : ∀ entry ∈ auxv, entry.1 ≠ 0

namespace Startup

variable (startup : Startup)

/-- The words of an auxiliary vector, without the pair that ends it. -/
def pairWords (auxv : List (Nat × Nat)) : List Nat :=
  auxv.flatMap fun entry => [entry.1, entry.2]

/-- The stack: it ends with the last pair of the auxiliary vector. -/
def block : List Nat :=
  startup.argv.length ::
    (startup.argv ++ 0 :: (startup.environ ++ 0 ::
      (pairWords startup.auxv ++ [0, 0])))

/-- The strings of the environment. -/
def strings : List CString :=
  startup.environ.filterMap startup.texts

end Startup

/-- The words from an index on are those of a list, and the first null ends
them. -/
def VectorAt (block : List Nat) (index : Nat) (list : List Nat) : Prop :=
  0 ∉ list ∧
    ∃ front rest, block = front ++ (list ++ 0 :: rest) ∧
      index = front.length

/-- The value of the first pair of a type, or 0. -/
def auxvValue (auxv : List (Nat × Nat)) (type : Nat) : Nat :=
  (auxv.findSome? fun entry =>
    if entry.1 = type then some entry.2 else none).getD 0

/-- What is behind `name=`, when a string starts with that. -/
def valueIn (name text : CString) : Option Pointer :=
  if name.bytes ++ ['='.toUInt8] <+: text.bytes then
    some (text.start.add (name.length + 1))
  else
    none

/-- A value is the text behind the `=`. -/
theorem valueIn_points
    {name text : CString} {pointer : Pointer}
    (inside : valueIn name text = some pointer) :
    ∃ value, text.bytes = name.bytes ++ '='.toUInt8 :: value ∧
      pointer.Points value := by
  rw [valueIn] at inside
  split_ifs at inside with starts
  rcases starts with ⟨value, split⟩
  cases inside
  refine ⟨value, by simp [← split], name.bytes ++ ['='.toUInt8],
    split.symm, ?_⟩
  simp [Pointer.add, CString.start, CString.length]

/-! ## The layout -/

section Layout

variable {block : List Nat}

theorem word_append
    (front : List Nat) {rest : List Nat} {entry : Nat}
    (split : block = front ++ entry :: rest) :
    word block front.length = .ok entry := by
  have inside : front.length < block.length := by
    rw [split, List.length_append, List.length_cons]
    omega
  rw [word, dif_pos inside]
  simp [split]

/-- A word behind two runs of words. -/
theorem word_behind
    {before front rest : List Nat} {entry : Nat}
    (split : block = before ++ (front ++ entry :: rest)) :
    word block (before.length + front.length) = .ok entry := by
  rw [← List.append_assoc] at split
  rw [← List.length_append]
  exact word_append _ split

/-- The walk over a vector ends behind its null. -/
theorem skipVector_eq
    {index : Nat} {list : List Nat} (vector : VectorAt block index list) :
    skipVector block index = .ok (index + list.length + 1) := by
  rcases vector with ⟨nonnull, before, after, whole, rfl⟩
  have advance {front rest : List Nat} {entry : Nat}
      (split : list = front ++ entry :: rest) :
      skipTurn block (before.length + front.length) =
        .ok (.inl (before.length + (front ++ [entry]).length)) := by
    have nonzero : entry ≠ 0 := by
      rintro rfl
      exact nonnull (by simp [split])
    have place : block =
        before ++ (front ++ entry :: (rest ++ 0 :: after)) := by
      simp [whole, split]
    have read := word_behind place
    simp only [skipTurn, read, bind, Except.bind, pure, Except.pure,
      if_pos nonzero, List.length_append, List.length_singleton, Nat.add_assoc]
  have leave : skipTurn block (before.length + list.length) =
      .ok (.inr (before.length + list.length + 1)) := by
    have read := word_behind whole
    simp [skipTurn, read, bind, Except.bind, pure, Except.pure]
  have enough : list.length < block.length + 1 := by
    rw [whole]
    simp only [List.length_append, List.length_cons]
    omega
  exact Loop.run_scan _ (fun front _ => before.length + front.length) advance
    leave enough

end Layout

namespace Startup

variable (startup : Startup)

theorem argv_vector : VectorAt startup.block 1 startup.argv :=
  ⟨startup.argv_nonnull, [startup.argv.length], _, rfl, rfl⟩

/-- Where the environment begins. -/
def envp : Nat :=
  startup.argv.length + 2

theorem environ_vector :
    VectorAt startup.block startup.envp startup.environ := by
  refine ⟨startup.environ_nonnull,
    startup.argv.length :: (startup.argv ++ [0]),
    pairWords startup.auxv ++ [0, 0], ?_, ?_⟩
  · simp [block]
  · simp [envp]

/-- What `_start_c` finds. -/
def started : Started where
  argc := startup.argv.length
  argv := 1
  envp := startup.envp
  globals :=
    ⟨some startup.envp, some (startup.envp + startup.environ.length + 1)⟩

theorem startC_eq : startC startup.block = .ok startup.started := by
  have argc : word startup.block 0 = .ok startup.argv.length :=
    word_append [] rfl
  have envp : 1 + startup.argv.length + 1 = startup.envp := by
    rw [Startup.envp]
    omega
  simp only [startC, argc, bind, Except.bind, envp,
    skipVector_eq startup.environ_vector]
  rfl

end Startup

/-! ## The auxiliary vector -/

section Auxiliary

theorem length_pairWords (auxv : List (Nat × Nat)) :
    (Startup.pairWords auxv).length = 2 * auxv.length := by
  induction auxv with
  | nil => rfl
  | cons entry rest induction =>
      have words : Startup.pairWords (entry :: rest) =
          entry.1 :: entry.2 :: Startup.pairWords rest := rfl
      rw [words, List.length_cons, List.length_cons, List.length_cons,
        induction]
      omega

/-- Two words behind some pairs. -/
theorem words_behind
    {block before rest : List Nat} {front : List (Nat × Nat)}
    {key value : Nat}
    (split : block =
      before ++ (Startup.pairWords front ++ key :: value :: rest)) :
    word block (before.length + 2 * front.length) = .ok key ∧
      word block (before.length + 2 * front.length + 1) = .ok value := by
  have second : block =
      before ++ ((Startup.pairWords front ++ [key]) ++ value :: rest) := by
    simp [split]
  have atFirst := word_behind split
  have atSecond := word_behind second
  rw [length_pairWords] at atFirst
  rw [List.length_append, length_pairWords] at atSecond
  exact ⟨atFirst, atSecond⟩

variable {block before : List Nat} {auxv : List (Nat × Nat)}
  (whole : block = before ++ (Startup.pairWords auxv ++ [0, 0]))

include whole

/-- `getauxval` stops at the first pair of the type or at the last pair. -/
theorem getauxval_eq
    (nonzero : ∀ entry ∈ auxv, entry.1 ≠ 0) {globals : Globals}
    (found : globals.auxv = some before.length) (type : Nat) :
    getauxval block globals type = .ok (auxvValue auxv type) := by
  have turn {front rest : List (Nat × Nat)} {entry : Nat × Nat}
      (split : auxv = front ++ entry :: rest) :
      auxvTurn block type (before.length + 2 * front.length) =
        if entry.1 = type then
          .ok (.inr entry.2)
        else
          .ok (.inl (before.length + 2 * (front ++ [entry]).length)) := by
    have member : entry ∈ auxv := by simp [split]
    have place : block =
        before ++ (Startup.pairWords front ++
          entry.1 :: entry.2 :: (Startup.pairWords rest ++ [0, 0])) := by
      simp [whole, split, Startup.pairWords]
    have words := words_behind place
    have next : before.length + 2 * front.length + 2 =
        before.length + 2 * (front ++ [entry]).length := by
      rw [List.length_append, List.length_singleton]
      omega
    simp only [auxvTurn, words.1, words.2, bind, Except.bind, pure,
      Except.pure, if_neg (nonzero entry member), Bool.false_eq_true,
      if_false, next]
  have leave : auxvTurn block type (before.length + 2 * auxv.length) =
      .ok (.inr 0) := by
    have words := words_behind whole
    simp [auxvTurn, words.1, words.2, bind, Except.bind, pure, Except.pure]
  have enough : auxv.length < block.length + 1 := by
    rw [whole, List.length_append, List.length_append, length_pairWords]
    omega
  rw [getauxval, found]
  refine Loop.run_search (fun front _ => before.length + 2 * front.length)
    (fun entry => if entry.1 = type then some entry.2 else none) ?_ ?_ leave
    enough
  · intro front rest entry split other
    rw [turn split, if_neg]
    intro same
    rw [if_pos same] at other
    cases other
  · intro front rest entry value split here
    split_ifs at here with same
    cases here
    rw [turn split, if_pos same]

end Auxiliary

/-! ## The environment -/

section Environment

/-- What two strings have in common, up to where the first of them ends or
they differ. -/
theorem exists_common
    {name : List Byte} (noNul : (0 : Byte) ∉ name) (text : List Byte) :
    ∃ common n t, name = common ++ n ∧ text = common ++ t ∧
      (n = [] ∨ deref n ≠ 0 ∧ deref n ≠ deref t) := by
  induction name generalizing text with
  | nil => exact ⟨[], [], text, rfl, rfl, Or.inl rfl⟩
  | cons c name induction =>
      have nonzero : c ≠ 0 := fun zero => noNul (by simp [zero])
      by_cases same : c = deref text
      · cases text with
        | nil => exact absurd same nonzero
        | cons d text =>
            rcases induction
                (fun member => noNul (List.mem_cons_of_mem c member))
              text with ⟨common, n, t, nameSplit, textSplit, stop⟩
            refine ⟨c :: common, n, t, ?_, ?_, stop⟩
            · rw [nameSplit, List.cons_append]
            · rw [textSplit, List.cons_append, same, deref_cons]
      · exact ⟨[], c :: name, text, rfl, rfl, Or.inr ⟨nonzero, same⟩⟩

variable {name text : CString} {common n t : List Byte}
  (nameSplit : name.bytes = common ++ n)
  (textSplit : text.bytes = common ++ t)
  (stop : n = [] ∨ deref n ≠ 0 ∧ deref n ≠ deref t)

include nameSplit textSplit stop

theorem compare_eq :
    Loop.run Fault.diverged (compareTurn name text) (name.length + 1) 0 =
      .ok common.length := by
  have advance {front rest : List Byte} {c : Byte}
      (split : common = front ++ c :: rest) :
      compareTurn name text front.length =
        .ok (.inl (front ++ [c]).length) := by
    have nameRest : name.bytes = front ++ c :: (rest ++ n) := by
      simp [nameSplit, split]
    have textRest : text.bytes = front ++ c :: (rest ++ t) := by
      simp [textSplit, split]
    have nonzero : c ≠ 0 := CString.ne_zero_of_split nameRest
    simp only [compareTurn, CString.read_append nameRest,
      CString.read_append textRest, deref_cons, bind, Except.bind, pure,
      Except.pure, if_pos nonzero, if_true, List.length_append,
      List.length_singleton]
  have leave : compareTurn name text common.length =
      .ok (.inr common.length) := by
    simp only [compareTurn, CString.read_append nameSplit,
      CString.read_append textSplit, bind, Except.bind, pure, Except.pure]
    rcases stop with rfl | ⟨nonzero, differs⟩
    · rw [deref_nil, if_neg (fun nonzero => nonzero rfl)]
    · rw [if_pos nonzero, if_neg differs]
  have enough : common.length < name.length + 1 := by
    have total := congrArg List.length nameSplit
    rw [List.length_append] at total
    have length : name.length = name.bytes.length := rfl
    omega
  exact Loop.run_scan _ (fun front _ => front.length) advance leave enough

theorem valueIn_eq :
    valueIn name text =
      if n = [] ∧ deref t = '='.toUInt8 then
        some (text.start.add (common.length + 1))
      else
        none := by
  have starts : name.bytes ++ ['='.toUInt8] <+: text.bytes ↔
      n = [] ∧ deref t = '='.toUInt8 := by
    rw [nameSplit, textSplit, List.append_assoc,
      List.prefix_append_right_inj]
    cases n with
    | nil =>
        cases t with
        | nil => simp
        | cons d t => simp [eq_comm]
    | cons c n =>
        cases t with
        | nil => simp
        | cons d t =>
            have differs : c ≠ d := (stop.resolve_left (by simp)).2
            simp [differs]
  by_cases here : n = [] ∧ deref t = '='.toUInt8
  · have whole : name.length = common.length := by
      rw [CString.length, nameSplit, here.1, List.append_nil]
    rw [valueIn, if_pos (starts.mpr here), if_pos here, whole]
  · rw [valueIn, if_neg (starts.not.mpr here), if_neg here]

end Environment

section Getenv

variable {block before after environ : List Nat}
  {texts : Nat → Option CString}
  (whole : block = before ++ (environ ++ 0 :: after))
  (name : CString)

include whole

/-- A turn at a pointer looks at its string. -/
theorem getenvTurn_pointer
    {front rest : List Nat} {pointer : Nat} {text : CString}
    (split : environ = front ++ pointer :: rest) (nonnull : pointer ≠ 0)
    (points : texts pointer = some text) :
    getenvTurn block texts name before.length front.length =
      match valueIn name text with
      | some value => .ok (.inr (some value))
      | none => .ok (.inl (front ++ [pointer]).length) := by
  have place : block =
      before ++ (front ++ pointer :: (rest ++ 0 :: after)) := by
    simp [whole, split]
  have read := word_behind place
  rcases exists_common name.noNul text.bytes with
    ⟨common, n, t, nameSplit, textSplit, stop⟩
  simp only [getenvTurn, read, bind, Except.bind, if_pos nonnull, textAt,
    points, compare_eq nameSplit textSplit stop,
    CString.read_append nameSplit, CString.read_append textSplit,
    valueIn_eq nameSplit textSplit stop, pure, Except.pure,
    List.length_append, List.length_singleton]
  rcases stop with rfl | ⟨nonzero, _⟩
  · rw [deref_nil, if_pos rfl]
    by_cases equals : deref t = '='.toUInt8
    · rw [if_pos equals, if_pos ⟨rfl, equals⟩]
    · rw [if_neg equals, if_neg (fun both => equals both.2)]
  · have more : n ≠ [] := by
      rintro rfl
      exact nonzero rfl
    rw [if_neg nonzero, if_neg (fun both => more both.1)]

theorem getenvTurn_null :
    getenvTurn block texts name before.length environ.length =
      .ok (.inr none) := by
  have read := word_behind whole
  simp [getenvTurn, read, bind, Except.bind, pure, Except.pure]

/-- `getenv` finds the first string that starts with `name=`. -/
theorem getenv_eq
    (nonnull : 0 ∉ environ)
    (readable : ∀ pointer ∈ environ, ∃ text, texts pointer = some text)
    {globals : Globals} (found : globals.environ = some before.length) :
    getenv block texts globals name =
      .ok ((environ.filterMap texts).findSome? (valueIn name)) := by
  have searched (pointer : Nat) (member : pointer ∈ environ) :
      ∃ text, texts pointer = some text ∧ pointer ≠ 0 := by
    rcases readable pointer member with ⟨text, points⟩
    refine ⟨text, points, ?_⟩
    rintro rfl
    exact nonnull member
  have outcome :
      (environ.findSome?
        (Option.map some ∘ fun pointer =>
          (texts pointer).bind (valueIn name))).getD none =
        (environ.filterMap texts).findSome? (valueIn name) := by
    rw [← List.map_findSome?, ← List.head?_filterMap,
      ← List.filterMap_filterMap, List.head?_filterMap]
    cases (environ.filterMap texts).findSome? (valueIn name) with
    | none => rfl
    | some value => rfl
  have enough : environ.length < block.length + 1 := by
    rw [whole]
    simp only [List.length_append, List.length_cons]
    omega
  rw [getenv, found, ← outcome]
  refine Loop.run_search (fun front _ => front.length)
    (Option.map some ∘ fun pointer => (texts pointer).bind (valueIn name)) ?_ ?_
    (getenvTurn_null whole name) enough
  · intro front rest pointer split missing
    rcases searched pointer (by simp [split]) with ⟨text, points, nonnull⟩
    simp only [Function.comp_apply, points, Option.bind_some,
      Option.map_eq_none_iff] at missing
    rw [getenvTurn_pointer whole name split nonnull points, missing]
  · intro front rest pointer value split here
    rcases searched pointer (by simp [split]) with ⟨text, points, nonnull⟩
    simp only [Function.comp_apply, points, Option.bind_some,
      Option.map_eq_some_iff] at here
    rcases here with ⟨target, inside, rfl⟩
    rw [getenvTurn_pointer whole name split nonnull points, inside]

end Getenv

/-! ## A process that starts -/

/--
After the layout walk `argv` and `environ` are the vectors the kernel made,
`getauxval` looks a type up among the pairs, and `getenv` a name among the
strings.  No word behind the last pair is read.
-/
theorem startup_vectors (startup : Startup) :
    ∃ started, startC startup.block = .ok started ∧
      started.argc = startup.argv.length ∧
      VectorAt startup.block started.argv startup.argv ∧
      VectorAt startup.block started.envp startup.environ ∧
      started.globals.environ = some started.envp ∧
      (∀ type, getauxval startup.block started.globals type =
        .ok (auxvValue startup.auxv type)) ∧
      ∀ name, getenv startup.block startup.texts started.globals name =
        .ok (startup.strings.findSome? (valueIn name)) := by
  rcases startup.environ_vector.2 with ⟨before, after, whole, place⟩
  refine ⟨startup.started, startup.startC_eq, rfl, startup.argv_vector,
    startup.environ_vector, rfl, ?_, ?_⟩
  · intro type
    have words : startup.block =
        (startup.argv.length ::
          (startup.argv ++ 0 :: (startup.environ ++ [0]))) ++
            (Startup.pairWords startup.auxv ++ [0, 0]) := by
      simp [Startup.block]
    refine getauxval_eq words startup.auxv_nonzero ?_ type
    simp only [Startup.started, Startup.envp, List.length_cons,
      List.length_append, List.length_nil, Option.some.injEq]
    omega
  · intro name
    exact getenv_eq whole name startup.environ_nonnull startup.environ_texts
      (congrArg some place)

/-- A process with the variables `AB=1` and `A=2`. -/
def twoVariables : Startup where
  argv := [5]
  environ := [7, 8]
  auxv := [(6, 4096)]
  texts := fun pointer =>
    if pointer = 7 then
      some (.ofAscii "AB=1")
    else if pointer = 8 then
      some (.ofAscii "A=2")
    else
      none
  argv_nonnull := by decide
  environ_nonnull := by decide
  environ_texts := by simp
  auxv_nonzero := by decide

/-- The first variable, of which the name is only the beginning, is passed. -/
example :
    getenv twoVariables.block twoVariables.texts twoVariables.started.globals
        (.ofAscii "A") =
      .ok (some ⟨.ofAscii "A=2", 2⟩) := by
  decide

end Nolibc.Crt

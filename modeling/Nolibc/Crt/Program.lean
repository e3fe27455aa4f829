import Nolibc.Crt
import Nolibc.Foundation.Memory

/-!
# A whole program

`_start_c` of `crt.h` from the stack it is given to the `exit` it ends in, and
`exit`, `_exit` and `sys_exit` of `sys.h`.

The handlers and `main` are arbitrary.  A handler changes the memory of the
process and returns; `main` changes it and either returns a number or calls
`exit` with one.  What is observed of a program is, in order, the calls that
`_start_c` makes and the system call that ends the process.
-/

set_option autoImplicit false

namespace Nolibc.Crt

open Nolibc.Machine
open Nolibc.Foundation

/-- What the constructors and `main` are called with. -/
structure Arguments where
  argc : Nat
  argv : Nat
  envp : Nat
  deriving DecidableEq, Repr

/-- What a program does that its trace shows. -/
inductive Event (Handler : Type) where
  | ctor (handler : Handler) (arguments : Arguments)
  | main (arguments : Arguments)
  | dtor (handler : Handler)
  | exit (status : BitVec 32)
  deriving DecidableEq, Repr

/-- How `main` ends: it returns, or it calls `exit` and does not return. -/
inductive Ending where
  | returns (exitcode : BitVec 32)
  | exits (status : BitVec 32)
  deriving DecidableEq, Repr

/-- An array of handlers between its two symbols, which are both null when the
program has no such array. -/
structure HandlerArray (Handler : Type) where
  start : Nat
  stop : Nat
  slots : Nat → Handler

/-- The memory of a process and what has been observed of it. -/
structure Process (Handler State : Type) where
  state : State
  trace : List (Event Handler)

/-- What a program brings; `memory` is its memory once `environ` and `_auxv`
are set. -/
structure Program (Handler State : Type) where
  preinitArray : HandlerArray Handler
  initArray : HandlerArray Handler
  finiArray : HandlerArray Handler
  construct : Handler → Arguments → State → State
  main : Arguments → State → Ending × State
  destruct : Handler → State → State
  memory : Globals → State

/-! ## The code -/

namespace Process

variable {Handler State : Type}

/-- `sys_exit`: the kernel sees the low byte of the status. -/
def sysExit (status : BitVec 32) (process : Process Handler State) :
    Process Handler State :=
  { process with trace := process.trace ++ [.exit (status &&& 255)] }

/-- `_exit`. -/
def _exit (status : BitVec 32) (process : Process Handler State) :
    Process Handler State :=
  process.sysExit status

/-- `exit`, which is `_exit` and runs no handler. -/
def exit (status : BitVec 32) (process : Process Handler State) :
    Process Handler State :=
  process._exit status

end Process

namespace Program

variable {Handler State : Type}
variable (program : Program Handler State)

/-- `(*ctor_func)(argc, argv, envp)` -/
def ctor (arguments : Arguments) (process : Process Handler State)
    (handler : Handler) : Process Handler State :=
  ⟨program.construct handler arguments process.state,
    process.trace ++ [.ctor handler arguments]⟩

/-- `(*dtor_func)()` -/
def dtor (process : Process Handler State) (handler : Handler) :
    Process Handler State :=
  ⟨program.destruct handler process.state, process.trace ++ [.dtor handler]⟩

/-- One turn of the loop over `.init_array`, from its start. -/
def ctorTurn (array : HandlerArray Handler) (arguments : Arguments) :
    Nat × Process Handler State →
      Except Fault ((Nat × Process Handler State) ⊕ Process Handler State)
  | (ctorFunc, process) =>
      if ctorFunc < array.stop then
        pure (.inl (ctorFunc + 1,
          program.ctor arguments process (array.slots ctorFunc)))
      else
        pure (.inr process)

/-- `for (ctor_func = start; ctor_func < end; ctor_func++)` -/
def ctorLoop (array : HandlerArray Handler) (arguments : Arguments)
    (process : Process Handler State) :
    Except Fault (Process Handler State) :=
  Loop.run Fault.diverged (program.ctorTurn array arguments)
    (array.stop - array.start + 1) (array.start, process)

/-- One turn of the loop over `.fini_array`, from its end. -/
def dtorTurn (array : HandlerArray Handler) :
    Nat × Process Handler State →
      Except Fault ((Nat × Process Handler State) ⊕ Process Handler State)
  | (dtorFunc, process) =>
      if array.start < dtorFunc then
        let dtorFunc := dtorFunc - 1
        pure (.inl (dtorFunc,
          program.dtor process (array.slots dtorFunc)))
      else
        pure (.inr process)

/-- `for (dtor_func = end; dtor_func > start;)` -/
def dtorLoop (array : HandlerArray Handler)
    (process : Process Handler State) :
    Except Fault (Process Handler State) :=
  Loop.run Fault.diverged (program.dtorTurn array)
    (array.stop - array.start + 1) (array.stop, process)

/-- The call of `main`, which returns a status or ends the process. -/
def callMain (arguments : Arguments) (process : Process Handler State) :
    Ending × Process Handler State :=
  let ended := program.main arguments process.state
  (ended.1, ⟨ended.2, process.trace ++ [.main arguments]⟩)

/-- `_start_c`; the block is the stack. -/
def run (block : List Nat) : Except Fault (Process Handler State) := do
  let started ← startC block
  let arguments : Arguments := ⟨started.argc, started.argv, started.envp⟩
  let process : Process Handler State :=
    ⟨program.memory started.globals, []⟩
  let process ← program.ctorLoop program.preinitArray arguments process
  let process ← program.ctorLoop program.initArray arguments process
  match program.callMain arguments process with
  | (.returns exitcode, process) =>
      let process ← program.dtorLoop program.finiArray process
      pure (process.exit exitcode)
  | (.exits status, process) =>
      -- `main` is left from inside, by the system call
      pure (process.exit status)

end Program

/-! ## What is promised -/

/-- The handlers of an array in the order of their slots. -/
def HandlerArray.handlers {Handler : Type} (array : HandlerArray Handler) :
    List Handler :=
  Memory.block array.slots array.start (array.stop - array.start)

/-- The number that `main` returns or calls `exit` with. -/
def Ending.number : Ending → BitVec 32
  | .returns exitcode => exitcode
  | .exits status => status

/-- What `_start_c` passes on. -/
def Startup.arguments (startup : Startup) : Arguments :=
  ⟨startup.argv.length, 1, startup.envp⟩

namespace Program

variable {Handler State : Type}
variable (program : Program Handler State) (startup : Startup)

/-- The memory once all constructors have been called. -/
def constructed : State :=
  (program.preinitArray.handlers ++ program.initArray.handlers).foldl
    (fun state handler => program.construct handler startup.arguments state)
    (program.memory startup.started.globals)

/-- How `main` ends in that memory. -/
def ending : Ending :=
  (program.main startup.arguments (program.constructed startup)).1

/-- What is to be observed up to the end of `main`. -/
def untilMain : List (Event Handler) :=
  program.preinitArray.handlers.map (.ctor · startup.arguments) ++
    program.initArray.handlers.map (.ctor · startup.arguments) ++
    [.main startup.arguments]

/-- What is to be observed of a program that ends with a number. -/
def promised (status : BitVec 32) : List (Event Handler) :=
  program.untilMain startup ++
    program.finiArray.handlers.reverse.map .dtor ++
    [.exit (status &&& 255)]

/-- The program runs to its end, and what is observed of it is what is promised
for the number with which `main` returns or calls `exit`. -/
def KeepsOrder : Prop :=
  ∃ process, program.run startup.block = .ok process ∧
    process.trace =
      program.promised startup (program.ending startup).number

/-! ## The loops over the handlers -/

section Loops

variable {program : Program Handler State} {startup : Startup}

theorem handlers_length (array : HandlerArray Handler) :
    array.handlers.length = array.stop - array.start :=
  Memory.block_length _ _ _

/-- A handler of an array is in the slot behind the handlers before it. -/
theorem slot_eq
    {array : HandlerArray Handler} {front rest : List Handler}
    {handler : Handler}
    (split : array.handlers = front ++ handler :: rest) :
    array.slots (array.start + front.length) = handler ∧
      array.start + front.length + rest.length + 1 = array.stop := by
  have total := congrArg List.length split
  rw [handlers_length, List.length_append, List.length_cons] at total
  have here : array.handlers[front.length]? = some handler := by simp [split]
  rw [HandlerArray.handlers, Memory.block,
    List.getElem?_eq_getElem (by simp; omega)] at here
  refine ⟨?_, by omega⟩
  simpa using here

theorem ctorLoop_eq
    (array : HandlerArray Handler) (arguments : Arguments)
    (process : Process Handler State) :
    program.ctorLoop array arguments process =
      .ok (array.handlers.foldl (program.ctor arguments) process) := by
  have advance {front rest : List Handler} {handler : Handler}
      (split : array.handlers = front ++ handler :: rest) :
      program.ctorTurn array arguments
          (array.start + front.length,
            front.foldl (program.ctor arguments) process) =
        .ok (.inl (array.start + (front ++ [handler]).length,
          (front ++ [handler]).foldl (program.ctor arguments) process)) := by
    rcases slot_eq split with ⟨slot, behind⟩
    have inside : array.start + front.length < array.stop := by omega
    rw [ctorTurn, if_pos inside, slot, List.foldl_append,
      List.length_append, List.length_singleton]
    rfl
  have leave :
      program.ctorTurn array arguments
          (array.start + array.handlers.length,
            array.handlers.foldl (program.ctor arguments) process) =
        .ok (.inr
          (array.handlers.foldl (program.ctor arguments) process)) := by
    have outside : ¬ array.start + array.handlers.length < array.stop := by
      rw [handlers_length]
      omega
    rw [ctorTurn, if_neg outside]
    rfl
  have enough :
      array.handlers.length < array.stop - array.start + 1 := by
    rw [handlers_length]
    omega
  exact Loop.run_scan _ (fun front _ => (array.start + front.length,
      front.foldl (program.ctor arguments) process)) advance leave enough

/-- The loop that runs downward reads the array from its end. -/
theorem dtorLoop_eq
    (array : HandlerArray Handler) (process : Process Handler State) :
    program.dtorLoop array process =
      .ok (array.handlers.reverse.foldl program.dtor process) := by
  have advance {front rest : List Handler} {handler : Handler}
      (split : array.handlers.reverse = front ++ handler :: rest) :
      program.dtorTurn array
          (array.stop - front.length, front.foldl program.dtor process) =
        .ok (.inl (array.stop - (front ++ [handler]).length,
          (front ++ [handler]).foldl program.dtor process)) := by
    have forward :
        array.handlers = rest.reverse ++ handler :: front.reverse := by
      rw [← array.handlers.reverse_reverse, split]
      simp
    rcases slot_eq forward with ⟨slot, behind⟩
    simp only [List.length_reverse] at slot behind
    have inside : array.start < array.stop - front.length := by omega
    have next :
        array.stop - front.length - 1 = array.start + rest.length := by
      omega
    have shorter :
        array.stop - (front ++ [handler]).length =
          array.start + rest.length := by
      rw [List.length_append, List.length_singleton]
      omega
    rw [dtorTurn, if_pos inside, shorter, List.foldl_append]
    simp only [next, slot]
    rfl
  have leave :
      program.dtorTurn array
          (array.stop - array.handlers.reverse.length,
            array.handlers.reverse.foldl program.dtor process) =
        .ok (.inr (array.handlers.reverse.foldl program.dtor process)) := by
    have outside :
        ¬ array.start < array.stop - array.handlers.reverse.length := by
      rw [List.length_reverse, handlers_length]
      omega
    rw [dtorTurn, if_neg outside]
    rfl
  have enough :
      array.handlers.reverse.length < array.stop - array.start + 1 := by
    rw [List.length_reverse, handlers_length]
    omega
  exact Loop.run_scan _ (fun front _ => (array.stop - front.length,
      front.foldl program.dtor process)) advance leave enough

/-- What the constructors of an array do to a process. -/
theorem foldl_ctor
    (arguments : Arguments) (handlers : List Handler)
    (process : Process Handler State) :
    handlers.foldl (program.ctor arguments) process =
      ⟨handlers.foldl
          (fun state handler => program.construct handler arguments state)
          process.state,
        process.trace ++ handlers.map (.ctor · arguments)⟩ := by
  induction handlers generalizing process with
  | nil => simp
  | cons handler handlers induction =>
      rw [List.foldl_cons, induction]
      simp [ctor]

theorem foldl_dtor_trace
    (handlers : List Handler) (process : Process Handler State) :
    (handlers.foldl program.dtor process).trace =
      process.trace ++ handlers.map .dtor := by
  induction handlers generalizing process with
  | nil => simp
  | cons handler handlers induction =>
      rw [List.foldl_cons, induction]
      simp [dtor]

end Loops

/-! ## The two ways out -/

section Runs

variable {program : Program Handler State} {startup : Startup}

/-- The process when `main` ends. -/
def atMainEnd (program : Program Handler State) (startup : Startup) :
    Process Handler State :=
  ⟨(program.main startup.arguments (program.constructed startup)).2,
    program.untilMain startup⟩

/-- Every program runs to its end; the destructors are called when `main`
returns, and only then. -/
theorem run_eq (program : Program Handler State) (startup : Startup) :
    program.run startup.block =
      match program.ending startup with
      | .returns exitcode =>
          .ok ((program.finiArray.handlers.reverse.foldl program.dtor
            (program.atMainEnd startup)).exit exitcode)
      | .exits status => .ok ((program.atMainEnd startup).exit status) := by
  have arguments :
      (⟨startup.started.argc, startup.started.argv,
        startup.started.envp⟩ : Arguments) = startup.arguments := rfl
  have ended :
      program.callMain startup.arguments
          ⟨program.constructed startup,
            program.preinitArray.handlers.map (.ctor · startup.arguments) ++
              program.initArray.handlers.map
                (.ctor · startup.arguments)⟩ =
        (program.ending startup, program.atMainEnd startup) := rfl
  simp only [run, Startup.startC_eq, bind, Except.bind, arguments,
    ctorLoop_eq, foldl_ctor, List.nil_append, ← List.foldl_append]
  rw [constructed] at ended
  rw [ended]
  cases program.ending startup with
  | returns exitcode =>
      simp only [dtorLoop_eq]
      rfl
  | exits status => rfl

/-- A program keeps the order when `main` returns. -/
theorem keepsOrder_of_returns
    {exitcode : BitVec 32}
    (returns : program.ending startup = .returns exitcode) :
    program.KeepsOrder startup := by
  refine ⟨(program.finiArray.handlers.reverse.foldl program.dtor
    (program.atMainEnd startup)).exit exitcode, ?_, ?_⟩
  · rw [run_eq, returns]
  · rw [returns]
    simp only [Process.exit, Process._exit, Process.sysExit,
      foldl_dtor_trace]
    rfl

/-- Out of `exit`, a program keeps the order exactly if it has no
destructors. -/
theorem keepsOrder_iff_of_exits
    {status : BitVec 32}
    (exits : program.ending startup = .exits status) :
    program.KeepsOrder startup ↔ program.finiArray.handlers = [] := by
  have run :
      program.run startup.block =
        .ok ((program.atMainEnd startup).exit status) := by
    rw [run_eq, exits]
  have observed :
      ((program.atMainEnd startup).exit status).trace =
        program.untilMain startup ++ [.exit (status &&& 255)] := rfl
  rw [KeepsOrder, run, exits]
  constructor
  · rintro ⟨process, same, trace⟩
    cases same
    rw [observed, promised, List.append_assoc] at trace
    have lengths := congrArg List.length (List.append_cancel_left trace)
    simp only [List.length_append, List.length_map, List.length_reverse,
      List.length_singleton] at lengths
    exact List.eq_nil_of_length_eq_zero (by omega)
  · intro none
    refine ⟨_, rfl, ?_⟩
    rw [observed, promised, none]
    simp [Ending.number]

/-- A program keeps the order exactly if `main` returns or there is no
destructor to be called. -/
theorem keepsOrder_iff (program : Program Handler State)
    (startup : Startup) :
    program.KeepsOrder startup ↔
      (∃ exitcode, program.ending startup = .returns exitcode) ∨
        program.finiArray.handlers = [] := by
  cases ending : program.ending startup with
  | returns exitcode =>
      exact iff_of_true (keepsOrder_of_returns ending)
        (Or.inl ⟨exitcode, rfl⟩)
  | exits status =>
      rw [keepsOrder_iff_of_exits ending]
      constructor
      · exact Or.inr
      · rintro (⟨exitcode, impossible⟩ | none)
        · cases impossible
        · exact none

end Runs

/-- A program with one destructor whose `main` ends at once. -/
def withDestructor (ending : Ending) : Program Unit Unit where
  preinitArray := ⟨0, 0, fun _ => ()⟩
  initArray := ⟨0, 0, fun _ => ()⟩
  finiArray := ⟨0, 1, fun _ => ()⟩
  construct _ _ state := state
  main _ state := (ending, state)
  destruct _ state := state
  memory _ := ()

/-- No arguments, no environment, no auxiliary vector. -/
def bareStartup : Startup where
  argv := []
  environ := []
  auxv := []
  texts _ := none
  argv_nonnull := by simp
  environ_nonnull := by simp
  environ_texts := by simp
  auxv_nonzero := by simp

/-- `return 3` calls the destructor and `exit(3)` does not. -/
theorem exit_skips_destructor :
    ((withDestructor (.returns 3)).run bareStartup.block).map
        Process.trace =
      .ok [.main bareStartup.arguments, .dtor (), .exit 3] ∧
    ((withDestructor (.exits 3)).run bareStartup.block).map
        Process.trace =
      .ok [.main bareStartup.arguments, .exit 3] ∧
    ¬ (withDestructor (.exits 3)).KeepsOrder bareStartup := by
  refine ⟨rfl, rfl, ?_⟩
  have exits : (withDestructor (.exits 3)).ending bareStartup = .exits 3 :=
    rfl
  have handlers :
      (withDestructor (.exits 3)).finiArray.handlers = [()] := rfl
  rw [keepsOrder_iff_of_exits exits, handlers]
  exact List.cons_ne_nil () []

end Program

end Nolibc.Crt

import Mathlib.Data.List.Basic
import Mathlib.Logic.Relation

/-!
# Loops with an exit

A C loop is a body which, from a state, either continues with another state,
leaves with a result, or fails.  `run` iterates such a body for a bounded
number of turns and reports a designated error when the turns are used up, so
that a loop which never ends is never mistaken for one which returns.

The rules below are those of total correctness.  `run_ends` is the general
one, with an invariant of the states that the loop reaches and a measure that
every turn decreases.  `run_search` is the one for a loop that reads a list
element by element until it finds something, and `run_scan` for one that reads
all of it; either needs one turn more than the list has elements.
`run_congr` says when a loop may be replaced by another.
-/

set_option autoImplicit false

namespace Nolibc.Foundation.Loop

universe u v

variable {ε State Result : Type u}

/-- Iterate `body` for at most the given number of turns. -/
def run (exhausted : ε) (body : State → Except ε (State ⊕ Result)) :
    Nat → State → Except ε Result
  | 0, _ => .error exhausted
  | turns + 1, state =>
      match body state with
      | .error failure => .error failure
      | .ok (.inl next) => run exhausted body turns next
      | .ok (.inr result) => .ok result

/-- The states at which a loop comes to the start of its body. -/
def Reaches (body : State → Except ε (State ⊕ Result)) :
    State → State → Prop :=
  Relation.ReflTransGen fun state next => body state = .ok (.inl next)

section Rules

variable {exhausted : ε} {body : State → Except ε (State ⊕ Result)}

theorem run_continue
    {state next : State} (step : body state = .ok (.inl next))
    (turns : Nat) :
    run exhausted body (turns + 1) state =
      run exhausted body turns next := by
  simp [run, step]

theorem run_exit
    {state : State} {result : Result}
    (step : body state = .ok (.inr result)) (turns : Nat) :
    run exhausted body (turns + 1) state = .ok result := by
  simp [run, step]

theorem run_fail
    {state : State} {failure : ε}
    (step : body state = .error failure) (turns : Nat) :
    run exhausted body (turns + 1) state = .error failure := by
  simp [run, step]

/-- Two bodies that agree wherever the first one goes are the same loop. -/
theorem run_congr
    {other : State → Except ε (State ⊕ Result)} (invariant : State → Prop)
    (same : ∀ {state : State}, invariant state → other state = body state)
    (preserved : ∀ {state next : State}, invariant state →
      body state = .ok (.inl next) → invariant next)
    {start : State} (starts : invariant start) (turns : Nat) :
    run exhausted other turns start = run exhausted body turns start := by
  induction turns generalizing start with
  | zero => rfl
  | succ turns induction =>
      have here := same starts
      cases step : body start with
      | error failure =>
          rw [run_fail step, run_fail (here.trans step)]
      | ok outcome =>
          cases outcome with
          | inr result =>
              rw [run_exit step, run_exit (here.trans step)]
          | inl next =>
              rw [run_continue step, run_continue (here.trans step)]
              exact induction (preserved starts step)

/-- What every turn preserves holds of all the states that are reached. -/
theorem Reaches.invariant
    {invariant : State → Prop} {start last : State}
    (reaches : Reaches body start last)
    (preserved : ∀ {state next : State}, invariant state →
      body state = .ok (.inl next) → invariant next)
    (starts : invariant start) : invariant last := by
  induction reaches with
  | refl => exact starts
  | tail _ step induction => exact preserved induction step

/--
A loop of which every turn decreases a measure ends as its body does in a
state that it reaches.
-/
theorem run_ends
    {invariant : State → Prop} {measure : State → Nat}
    (preserved : ∀ {state next : State}, invariant state →
      body state = .ok (.inl next) →
        invariant next ∧ measure next < measure state)
    {start : State} (starts : invariant start)
    (turns : Nat) (enough : measure start < turns) :
    ∃ last, Reaches body start last ∧ invariant last ∧
      ((∃ failure, body last = .error failure ∧
          run exhausted body turns start = .error failure) ∨
        ∃ result, body last = .ok (.inr result) ∧
          run exhausted body turns start = .ok result) := by
  induction turns generalizing start with
  | zero => exact absurd enough (Nat.not_lt_zero _)
  | succ turns induction =>
      cases step : body start with
      | error failure =>
          exact ⟨start, .refl, starts,
            Or.inl ⟨failure, step, run_fail step turns⟩⟩
      | ok outcome =>
          cases outcome with
          | inr result =>
              exact ⟨start, .refl, starts,
                Or.inr ⟨result, step, run_exit step turns⟩⟩
          | inl next =>
              rcases preserved starts step with ⟨onward, less⟩
              rw [run_continue step]
              rcases induction onward (by omega) with
                ⟨last, reaches, holds, ends⟩
              exact ⟨last, .head step reaches, holds, ends⟩

/--
A loop that searches a list: `place` is its state with what has been read and
what is left, and `found` the result of an item at which it leaves.
-/
theorem run_search
    {Item : Type v} {list : List Item} (place : List Item → List Item → State)
    (found : Item → Option Result) {missing : Result}
    (advance : ∀ {front rest : List Item} {item : Item},
      list = front ++ item :: rest → found item = none →
        body (place front (item :: rest)) =
          .ok (.inl (place (front ++ [item]) rest)))
    (hit : ∀ {front rest : List Item} {item : Item} {result : Result},
      list = front ++ item :: rest → found item = some result →
        body (place front (item :: rest)) = .ok (.inr result))
    (leave : body (place list []) = .ok (.inr missing))
    {turns : Nat} (enough : list.length < turns) :
    run exhausted body turns (place [] list) =
      .ok ((list.findSome? found).getD missing) := by
  have search {front rest : List Item} (split : list = front ++ rest)
      {turns : Nat} (enough : rest.length < turns) :
      run exhausted body turns (place front rest) =
        .ok ((rest.findSome? found).getD missing) := by
    induction rest generalizing front turns with
    | nil =>
        cases turns with
        | zero => exact absurd enough (Nat.not_lt_zero _)
        | succ turns =>
            rw [List.append_nil] at split
            rw [← split]
            exact run_exit leave turns
    | cons item rest induction =>
        cases turns with
        | zero => exact absurd enough (Nat.not_lt_zero _)
        | succ turns =>
            rw [List.findSome?_cons]
            cases outcome : found item with
            | none =>
                have onward : list = (front ++ [item]) ++ rest := by
                  rw [split, List.append_assoc, List.singleton_append]
                rw [run_continue (advance split outcome)]
                exact induction onward (Nat.lt_of_succ_lt_succ enough)
            | some result => exact run_exit (hit split outcome) turns
  exact search (List.nil_append list).symm enough

/-- A loop that reads a list to its end. -/
theorem run_scan
    {Item : Type v} (list : List Item) (place : List Item → List Item → State)
    {result : Result}
    (advance : ∀ {front rest : List Item} {item : Item},
      list = front ++ item :: rest →
        body (place front (item :: rest)) =
          .ok (.inl (place (front ++ [item]) rest)))
    (leave : body (place list []) = .ok (.inr result))
    {turns : Nat} (enough : list.length < turns) :
    run exhausted body turns (place [] list) = .ok result := by
  have searched : run exhausted body turns (place [] list) = _ :=
    run_search place (fun _ => none) (fun split _ => advance split)
      (fun _ impossible =>
        absurd impossible (Option.some_ne_none _).symm) leave enough
  have nothing : list.findSome? (fun _ => (none : Option Result)) = none :=
    List.findSome?_eq_none_iff.mpr fun _ _ => rfl
  rw [searched, nothing]
  rfl

end Rules

end Nolibc.Foundation.Loop

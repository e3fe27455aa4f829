import Mathlib.Order.Basic

/-!
# Labelled runs and forward simulation

A transition system is a relation between states, labelled with what can be
seen of a step.  A forward simulation relates the states of an implementation
to those of a specification so that every step of the implementation is
answered by a step of the specification with the same label; the rule of this
module lifts it from steps to runs of any length.
-/

set_option autoImplicit false

namespace Nolibc.Foundation.Simulation

universe u v w

variable {State : Type u} {Abstract : Type w} {Label : Type v}

/-- The runs of a transition system with the labels of their steps. -/
inductive Run (step : State → Label → State → Prop) :
    State → List Label → State → Prop where
  | done (state : State) : Run step state [] state
  | more
      {first next last : State} {label : Label} {labels : List Label}
      (head : step first label next) (tail : Run step next labels last) :
      Run step first (label :: labels) last

/-- Every implementation step is answered by a specification step. -/
def Simulates
    (implementation : State → Label → State → Prop)
    (specification : Abstract → Label → Abstract → Prop)
    (related : Abstract → State → Prop) : Prop :=
  ∀ {abstract : Abstract} {state next : State} {label : Label},
    related abstract state → implementation state label next →
      ∃ nextAbstract, specification abstract label nextAbstract ∧
        related nextAbstract next

/-- A forward simulation answers whole runs. -/
theorem Simulates.run
    {implementation : State → Label → State → Prop}
    {specification : Abstract → Label → Abstract → Prop}
    {related : Abstract → State → Prop}
    (simulates : Simulates implementation specification related)
    {abstract : Abstract} {state last : State} {labels : List Label}
    (start : related abstract state)
    (ran : Run implementation state labels last) :
    ∃ lastAbstract, Run specification abstract labels lastAbstract ∧
      related lastAbstract last := by
  induction ran generalizing abstract with
  | done state => exact ⟨abstract, .done abstract, start⟩
  | more head tail induction =>
      rcases simulates start head with ⟨nextAbstract, answer, onward⟩
      rcases induction onward with ⟨lastAbstract, answers, finish⟩
      exact ⟨lastAbstract, .more answer answers, finish⟩

end Nolibc.Foundation.Simulation

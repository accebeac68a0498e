import PlanConstraints.Traverse
import PlanConstraints.Formula.Polish

set_option autoImplicit false

/-!
# Automaton: finite automata with guarded transitions

A temporal property is followed by a finite automaton: every step of a plan takes a transition whose
guard, a propositional formula, is true.  States are numbered from 0 in the order of the list.
-/

namespace PlanConstraints

variable {α β : Type}

/-- A step from one state to another, allowed where the guard is true. -/
structure Transition (α : Type) where
  source : Nat
  target : Nat
  guard : Formula α
  deriving DecidableEq

/-- A state with the transitions that leave it. -/
structure State (α : Type) where
  name : String
  /-- The number of the state. -/
  id : Nat
  isInitial : Bool
  isAccepting : Bool
  transitions : List (Transition α)
  deriving DecidableEq

/-- A finite automaton. -/
structure Automaton (α : Type) where
  name : String
  states : List (State α)
  /-- The number of the initial state. -/
  initial : Nat
  deriving DecidableEq

namespace Automaton

def state? (a : Automaton α) (id : Nat) : Option (State α) := a.states[id]?

def stateOfName? (a : Automaton α) (name : String) : Option (State α) :=
  a.states.find? fun s => s.name = name

def stateName (a : Automaton α) (id : Nat) : String :=
  match a.state? id with
  | some s => s.name
  | none => ""

def transitions (a : Automaton α) : List (Transition α) := a.states.flatMap State.transitions

/-- The name of a transition, made of its ends and its guard. -/
def transitionName [Named α] (a : Automaton α) (t : Transition α) : String :=
  "(" ++ a.stateName t.source ++ " (" ++ t.guard.polish ++ ") -> " ++ a.stateName t.target ++ ")"

/-! ## Text -/

def stateText [Named α] (a : Automaton α) (s : State α) : String :=
  "  " ++ s.name ++ (if s.isInitial then " [init]" else "")
    ++ (if s.isAccepting then " [accepting]" else "") ++ "\n"
    ++ String.join (s.transitions.map fun t =>
      "    (" ++ t.guard.polish ++ ") -> " ++ a.stateName t.target ++ "\n")

def text [Named α] (a : Automaton α) : String :=
  "automaton " ++ a.name ++ "\n" ++ String.join (a.states.map a.stateText)

/-! ## Atoms -/

/-- Renames the atoms of every guard. -/
def renameAtoms [Named α] [Named β] (table : List (String × β)) (a : Automaton α) :
    Except FormulaError (Automaton β) :=
  let renameTransition (t : Transition α) : Except FormulaError (Transition β) :=
    match t.guard.renameAtoms table with
    | .error e => .error e
    | .ok guard => .ok ⟨t.source, t.target, guard⟩
  let renameState (s : State α) : Except FormulaError (State β) :=
    match traverse renameTransition s.transitions with
    | .error e => .error e
    | .ok transitions => .ok ⟨s.name, s.id, s.isInitial, s.isAccepting, transitions⟩
  match traverse renameState a.states with
  | .error e => .error e
  | .ok states => .ok ⟨a.name, states, a.initial⟩

end Automaton

end PlanConstraints

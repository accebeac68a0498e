import PlanConstraints.Task.Basic

set_option autoImplicit false

/-!
# Planning tasks: plans

Running sequences of operators from the initial state.  A plan is a sequence each of whose operators
is applicable in its turn, and after which the goal is true.
-/

namespace PlanConstraints

/-- Why a sequence of operators comes to a halt. -/
inductive Halt where
  /-- No operator has the name. -/
  | unknown
  | inapplicable
  deriving DecidableEq, Repr

/-- The states behind the first one that a sequence of operators goes through, and why it came to a
halt if it did. -/
structure Trace where
  states : List Assignment
  halt : Option Halt
  deriving DecidableEq, Repr

namespace Task

/-- The state after a sequence of operators, if each is applicable in its turn. -/
def run? (state : Assignment) : List Operator → Option Assignment
  | [] => some state
  | op :: ops => if op.isApplicable state then run? (op.apply state) ops else none

/-- All goals are true. -/
def isGoal (t : Task) (state : Assignment) : Bool := t.goal.all (Fact.holds state)

def operator? (t : Task) (name : String) : Option Operator :=
  t.operators.find? fun op => op.name = name

/-- The states that the first operators of the given names lead to, one after the other. -/
def trace (t : Task) (state : Assignment) : List String → Trace
  | [] => ⟨[], none⟩
  | name :: names =>
    match t.operator? name with
    | none => ⟨[], some .unknown⟩
    | some op =>
      if op.isApplicable state then
        let next := op.apply state
        let trace := t.trace next names
        ⟨next :: trace.states, trace.halt⟩
      else ⟨[], some .inapplicable⟩

/-- Applies the first applicable operator at most that many times. -/
def firstApplicable (t : Task) (state : Assignment) : Nat → List (Operator × Assignment)
  | 0 => []
  | n + 1 =>
    match t.operators.find? fun op => op.isApplicable state with
    | none => []
    | some op => (op, op.apply state) :: t.firstApplicable (op.apply state) n

end Task

end PlanConstraints

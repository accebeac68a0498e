import PlanConstraints.ActionSet.Basic
import PlanConstraints.Formula.Polish

set_option autoImplicit false

/-!
# Properties of plans

A property constrains the actions of a plan.  In the dialect of action sets its formula is
propositional, and an atom is true if the plan uses an action of the set that it names.  In the
temporal dialect atoms are also facts of the planning task, and the formula speaks about the course
of the plan.
-/

namespace PlanConstraints

/-- Languages of properties. -/
inductive Dialect where
  | actionSets
  | temporal
  deriving DecidableEq, Repr

def Dialect.text : Dialect → String
  | actionSets => "action-sets"
  | temporal => "ltl"

def Dialect.ofText? (text : String) : Option Dialect :=
  match text with
  | "action-sets" => some actionSets
  | "ltl" => some temporal
  | _ => none

/-- A named formula that a plan has to satisfy, or should satisfy if it is soft. -/
structure Property where
  name : Symbol
  formula : Formula Symbol
  soft : Bool
  deriving DecidableEq

namespace Property

def kind (p : Property) : String := if p.soft then "soft" else "hard"

def text (p : Property) : String :=
  p.kind ++ "-property " ++ p.name.name ++ ": " ++ p.formula.polish

def usesSet (p : Property) (set : String) : Bool := p.formula.atoms.any fun a => a.name = set

/-- The property with a suffix behind its name and all its atoms. -/
def withSuffix (p : Property) (suffix : String) : Property :=
  { p with name := p.name.rename (p.name.name ++ suffix), formula := p.formula.addSuffix suffix }

end Property

/-- What a property file declares. -/
structure PropertySet where
  actionSets : ActionSets
  /-- The properties of the dialect of action sets. -/
  properties : List Property
  /-- The properties of the temporal dialect. -/
  temporal : List Property
  /-- Ends of the names of values that are to be marked as soft goals. -/
  softGoals : List String
  deriving DecidableEq

namespace PropertySet

def empty : PropertySet := ⟨.empty, [], [], []⟩

/-- The first property of a name, in the dialect of action sets. -/
def property? (s : PropertySet) (name : String) : Option Property :=
  s.properties.find? fun p => p.name.name = name

def usedBy (s : PropertySet) (p : Property) : List String := s.actionSets.names.filter p.usesSet

end PropertySet

end PlanConstraints

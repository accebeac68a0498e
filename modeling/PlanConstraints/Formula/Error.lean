import PlanConstraints.Source.Message

set_option autoImplicit false

/-!
# Formula: errors

What can be wrong with a formula, and how it is reported.  An error that names a symbol read from an
input points at it.
-/

namespace PlanConstraints

/-- Causes for which a formula is refused. -/
inductive FormulaError where
  /-- The tokens end where an operand of the operator should start. -/
  | missingOperand (operator : Symbol)
  /-- There is no token at all. -/
  | emptyFormula
  /-- A token follows a complete formula. -/
  | trailingToken (token : Symbol)
  /-- A guard without tokens. -/
  | emptyGuard
  /-- A group of a guard that is not closed where it ends. -/
  | unbalancedGuard
  /-- A token of a guard that cannot start an operand. -/
  | unexpectedInGuard (token : String)
  /-- The guard ends where an operand should start. -/
  | guardEnds
  /-- A token follows a complete guard. -/
  | trailingInGuard (token guard : String)
  /-- A temporal operator where only propositional ones are allowed. -/
  | temporal (operator : String)
  /-- An atom without a new name. -/
  | unknownAtom (atom : Symbol)
  /-- A formula that does not read as a clause. -/
  | notDisjunctive (formula : String)

namespace FormulaError

/-- What is wrong, for the errors in the form of a formula. -/
def malformation? : FormulaError → Option String
  | missingOperand operator => some ("missing operand of `" ++ operator.name ++ "`")
  | emptyFormula => some "empty formula"
  | trailingToken token =>
    some ("unexpected token `" ++ token.name ++ "` after the end of the formula")
  | emptyGuard => some "empty guard"
  | unbalancedGuard => some "unbalanced parenthesis in guard"
  | unexpectedInGuard token => some ("unexpected `" ++ token ++ "` in guard")
  | guardEnds => some "guard ends unexpectedly"
  | trailingInGuard token guard =>
    some ("unexpected `" ++ token ++ "` in guard `" ++ guard ++ "`")
  | temporal _ | unknownAtom _ | notDisjunctive _ => none

def message : FormulaError → String
  | temporal operator =>
    "temporal operator `" ++ operator ++ "` is not allowed in a propositional formula"
  | unknownAtom atom => "unknown constant `" ++ atom.name ++ "`"
  | notDisjunctive formula => "formula is not in disjunctive normal form: " ++ formula
  | error => "malformed formula: " ++ error.malformation?.getD ""

def symbol? : FormulaError → Option Symbol
  | missingOperand operator => some operator
  | trailingToken token => some token
  | unknownAtom atom => some atom
  | _ => none

/-- The error as it is reported, pointing at the symbol at fault if that was read from an input. -/
def toMessage (error : FormulaError) : Message :=
  match error.symbol? with
  | some ⟨_, some origin⟩ => origin.invalid error.message
  | _ => .ofTitle error.message

end FormulaError

end PlanConstraints

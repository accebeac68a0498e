import PlanConstraints.Formula.NormalForm
import PlanConstraints.Formula.Polish

set_option autoImplicit false

/-!
# Formula: clauses

A formula in disjunctive normal form is a list of clauses, each a list of literals.  The empty list
of clauses is false, the empty clause is true.
-/

namespace PlanConstraints

/-- An atom or its negation. -/
structure Literal (α : Type) where
  atom : α
  negated : Bool
  deriving DecidableEq

/-- A conjunction of literals. -/
abbrev Clause (α : Type) := List (Literal α)

variable {α : Type}

namespace Literal

/-- What two literals have in common that say the same. -/
def key [Named α] (l : Literal α) : String × Bool := (nameOf l.atom, l.negated)

def text [Named α] (l : Literal α) : String :=
  if l.negated then "!" ++ nameOf l.atom else nameOf l.atom

def toFormula (l : Literal α) : Formula α := if l.negated then .neg (.atom l.atom) else .atom l.atom

/-- The literal is true. -/
def holds (value : α → Bool) (l : Literal α) : Bool := value l.atom != l.negated

end Literal

namespace Clause

def text [Named α] (c : Clause α) : String :=
  "\x7b" ++ ", ".intercalate (c.map Literal.text) ++ "\x7d"

/-- Some atom stands in the clause both plain and negated. -/
def isContradictory [Named α] (c : Clause α) : Bool :=
  c.any fun l => c.any fun l' => nameOf l'.atom = nameOf l.atom && l'.negated != l.negated

/-- Every literal is true. -/
def holds (value : α → Bool) (c : Clause α) : Bool := c.all (Literal.holds value)

/-- The conjunction of the literals. -/
def toFormula : Clause α → Formula α
  | [] => .const true
  | l :: rest => rest.foldl (fun f l => .and f l.toFormula) l.toFormula

end Clause

namespace Formula

/-- The literals of a conjunction from left to right, and nothing if a conjunct is false. -/
def literals [Named α] : Formula α → Except FormulaError (Option (Clause α))
  | .const true => .ok (some [])
  | .const false => .ok none
  | .atom a => .ok (some [⟨a, false⟩])
  | .unary .neg (.atom a) => .ok (some [⟨a, true⟩])
  | .unary .neg (.const true) => .ok none
  | .unary .neg (.const false) => .ok (some [])
  | .unary .neg f => .error (.notDisjunctive (Formula.neg f).polish)
  | .binary .and f g =>
    match f.literals with
    | .error e => .error e
    | .ok left =>
      match g.literals with
      | .error e => .error e
      | .ok right =>
        match left, right with
        | some left, some right => .ok (some (left ++ right))
        | _, _ => .ok none
  | .binary .or f g => .error (.notDisjunctive (Formula.or f g).polish)
  | .unary op _ => .error (.temporal op.sign)
  | .binary op _ _ => .error (.temporal op.sign)

/-- The clause of a conjunction, each literal once; no clause at all if a conjunct is false. -/
def clause [Named α] (f : Formula α) : Except FormulaError (List (Clause α)) :=
  match f.literals with
  | .error e => .error e
  | .ok none => .ok []
  | .ok (some ls) => .ok [distinctBy Literal.key ls]

/-- The clauses of a formula in disjunctive normal form, in order. -/
def clauses [Named α] : Formula α → Except FormulaError (List (Clause α))
  | .binary .or f g =>
    match f.clauses with
    | .error e => .error e
    | .ok left =>
      match g.clauses with
      | .error e => .error e
      | .ok right => .ok (left ++ right)
  | f => f.clause

/-- The disjunction of the clauses. -/
def ofClauses : List (Clause α) → Formula α
  | [] => .const false
  | c :: rest => rest.foldl (fun f c => .or f c.toFormula) c.toFormula

end Formula

end PlanConstraints

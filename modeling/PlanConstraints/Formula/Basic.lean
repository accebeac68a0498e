import PlanConstraints.Distinct
import PlanConstraints.Formula.Error

set_option autoImplicit false

/-!
# Formula: propositional and temporal formulas

Formulas over atoms of any type.  The temporal operators stand only in formulas that are handed to
an external translator; every other formula is propositional and has a truth value under an
assignment of its atoms.

Main statements: negating a propositional formula flips its truth value, and a formula has a truth
value exactly if it is propositional.
-/

namespace PlanConstraints

/-- Operators with one operand. -/
inductive UnaryOp where
  | neg
  /-- At some time. -/
  | eventually
  /-- At all times. -/
  | always
  /-- At the next time. -/
  | next
  deriving DecidableEq, Repr

/-- Operators with two operands. -/
inductive BinaryOp where
  | and
  | or
  /-- The first operand holds until the second does, which happens. -/
  | strongUntil
  /-- The first operand holds until the second does, or forever. -/
  | weakUntil
  deriving DecidableEq, Repr

def UnaryOp.sign : UnaryOp → String
  | neg => "!"
  | eventually => "<>"
  | always => "[]"
  | next => "X"

def BinaryOp.sign : BinaryOp → String
  | and => "&&"
  | or => "||"
  | strongUntil => "U"
  | weakUntil => "W"

/-- The operator speaks about time. -/
def UnaryOp.isTemporal : UnaryOp → Bool
  | neg => false
  | eventually | always | next => true

/-- The operator speaks about time. -/
def BinaryOp.isTemporal : BinaryOp → Bool
  | and | or => false
  | strongUntil | weakUntil => true

/-- Formulas over atoms of type `α`. -/
inductive Formula (α : Type) where
  | const (value : Bool)
  | atom (a : α)
  | unary (op : UnaryOp) (f : Formula α)
  | binary (op : BinaryOp) (f g : Formula α)
  deriving DecidableEq

namespace Formula

variable {α β : Type}

@[match_pattern] abbrev neg (f : Formula α) : Formula α := .unary .neg f

@[match_pattern] abbrev and (f g : Formula α) : Formula α := .binary .and f g

@[match_pattern] abbrev or (f g : Formula α) : Formula α := .binary .or f g

/-! ## Temporal operators -/

/-- The first temporal operator, read from the left. -/
def firstTemporal? : Formula α → Option String
  | .const _ | .atom _ => none
  | .unary op f => if op.isTemporal then some op.sign else f.firstTemporal?
  | .binary op f g =>
    if op.isTemporal then some op.sign
    else
      match f.firstTemporal? with
      | some sign => some sign
      | none => g.firstTemporal?

def isPropositional (f : Formula α) : Bool := f.firstTemporal?.isNone

def isTrue : Formula α → Bool
  | .const true => true
  | _ => false

/-! ## Truth -/

/-- The truth value of a propositional formula when the atoms have the given values. -/
def eval (value : α → Bool) : Formula α → Except FormulaError Bool
  | .const b => .ok b
  | .atom a => .ok (value a)
  | .unary .neg f =>
    match f.eval value with
    | .ok b => .ok !b
    | .error e => .error e
  | .binary .and f g =>
    match f.eval value, g.eval value with
    | .ok b, .ok c => .ok (b && c)
    | .ok _, .error e => .error e
    | .error e, _ => .error e
  | .binary .or f g =>
    match f.eval value, g.eval value with
    | .ok b, .ok c => .ok (b || c)
    | .ok _, .error e => .error e
    | .error e, _ => .error e
  | .unary op _ => .error (.temporal op.sign)
  | .binary op _ _ => .error (.temporal op.sign)

/-- The negation, with negations moved down to the atoms. -/
def negate : Formula α → Formula α
  | .const b => .const !b
  | .atom a => .neg (.atom a)
  | .unary .neg f => f
  | .unary op f => .neg (.unary op f)
  | .binary .and f g => .or f.negate g.negate
  | .binary .or f g => .and f.negate g.negate
  | .binary op f g => .neg (.binary op f g)

/-- A formula has a truth value exactly if it is propositional. -/
theorem eval_isOk_iff (value : α → Bool) (f : Formula α) :
    (∃ b, f.eval value = .ok b) ↔ f.isPropositional = true := by
  induction f with
  | const b => simp [eval, isPropositional, firstTemporal?]
  | atom a => simp [eval, isPropositional, firstTemporal?]
  | unary op f ih =>
    cases op with
    | neg =>
      simp only [isPropositional, firstTemporal?, UnaryOp.isTemporal, eval] at *
      cases h : f.eval value <;> simp_all
    | _ => simp [eval, isPropositional, firstTemporal?, UnaryOp.isTemporal]
  | binary op f g ihf ihg =>
    cases op with
    | strongUntil => simp [eval, isPropositional, firstTemporal?, BinaryOp.isTemporal]
    | weakUntil => simp [eval, isPropositional, firstTemporal?, BinaryOp.isTemporal]
    | _ =>
      simp only [isPropositional, firstTemporal?, BinaryOp.isTemporal, eval] at *
      cases hf : f.eval value <;> cases hg : g.eval value <;>
        cases tf : f.firstTemporal? <;> simp_all

/-- Negating flips the truth value. -/
theorem eval_negate (value : α → Bool) (f : Formula α) :
    f.negate.eval value = (f.eval value).map (!·) := by
  induction f with
  | const b => rfl
  | atom a => rfl
  | unary op f ih =>
    cases op with
    | neg => cases h : f.eval value <;> simp [negate, eval, h, Except.map]
    | _ => rfl
  | binary op f g ihf ihg =>
    cases op with
    | strongUntil => rfl
    | weakUntil => rfl
    | _ =>
      cases hf : f.eval value <;> cases hg : g.eval value <;>
        simp_all [negate, eval, Except.map]

/-! ## Atoms -/

/-- The atoms from left to right, with repetitions. -/
def atoms : Formula α → List α
  | .const _ => []
  | .atom a => [a]
  | .unary _ f => f.atoms
  | .binary _ f g => f.atoms ++ g.atoms

/-- The atoms in order of first occurrence, each name once. -/
def constants [Named α] (f : Formula α) : List α := distinctBy nameOf f.atoms

/-- The formula with every atom replaced. -/
def map (rename : α → β) : Formula α → Formula β
  | .const b => .const b
  | .atom a => .atom (rename a)
  | .unary op f => .unary op (f.map rename)
  | .binary op f g => .binary op (f.map rename) (g.map rename)

theorem atoms_map {β : Type} (rename : α → β) (f : Formula α) :
    (f.map rename).atoms = f.atoms.map rename := by
  induction f with
  | const b => rfl
  | atom a => rfl
  | unary op f ih => exact ih
  | binary op f g ihf ihg => rw [map, atoms, atoms, List.map_append, ihf, ihg]

/-- The formula with every atom replaced by a formula, if there is one for each; otherwise the error
of the first atom without. -/
def substitute {ε : Type} (image : α → Except ε (Formula β)) : Formula α → Except ε (Formula β)
  | .const b => .ok (.const b)
  | .atom a => image a
  | .unary op f =>
    match f.substitute image with
    | .ok f => .ok (.unary op f)
    | .error e => .error e
  | .binary op f g =>
    match f.substitute image with
    | .error e => .error e
    | .ok f =>
      match g.substitute image with
      | .error e => .error e
      | .ok g => .ok (.binary op f g)

/-- The formula that stands for an atom of the given new name: a constant for the names `true` and
`false`. -/
def ofName [Named β] (b : β) : Formula β :=
  if nameOf b = "true" then .const true
  else if nameOf b = "false" then .const false
  else .atom b

/-- Renames every atom through a table from old names to new atoms. -/
def renameAtoms [Named α] [Named β] (table : List (String × β)) (f : Formula α) :
    Except FormulaError (Formula β) :=
  f.substitute fun a =>
    match table.find? fun entry => entry.1 = nameOf a with
    | some entry => .ok (.ofName entry.2)
    | none => .error (.unknownAtom (toSymbol a))

/-- Puts a text behind the name of every atom. -/
def addSuffix (suffix : String) (f : Formula Symbol) : Formula Symbol :=
  f.map fun a => a.rename (a.name ++ suffix)

end Formula

end PlanConstraints

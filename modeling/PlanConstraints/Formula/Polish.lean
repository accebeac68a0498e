import PlanConstraints.Text.Blank
import PlanConstraints.Formula.Basic

set_option autoImplicit false

/-!
# Formula: Polish form

The form of formulas in property files: every operator stands in front of its operands, and words
are separated by white space, as in `&& a || b ! c`.  No parentheses are needed.

Reading goes through the words once, with a stack of the operators that still wait for operands.
-/

namespace PlanConstraints

namespace Formula

variable {α : Type}

/-! ## Writing -/

def words [Named α] : Formula α → List String
  | .const true => ["true"]
  | .const false => ["false"]
  | .atom a => [nameOf a]
  | .unary op f => op.sign :: f.words
  | .binary op f g => op.sign :: (f.words ++ g.words)

def polish [Named α] (f : Formula α) : String := " ".intercalate f.words

/-! ## Reading -/

/-- What a word of the Polish form stands for. -/
inductive Meaning where
  | unary (op : UnaryOp)
  | binary (op : BinaryOp)
  | const (value : Bool)
  | atom
  deriving DecidableEq

/-- The meaning of a word; the constants may also be written as digits. -/
def Meaning.ofWord (word : String) : Meaning :=
  match word with
  | "!" => unary .neg
  | "<>" => unary .eventually
  | "[]" => unary .always
  | "X" => unary .next
  | "&&" => binary .and
  | "||" => binary .or
  | "U" => binary .strongUntil
  | "W" => binary .weakUntil
  | "true" | "1" => const true
  | "false" | "0" => const false
  | _ => atom

/-- An operator that has been read and still waits for operands, with the word it was read from. -/
inductive Pending (α : Type) where
  | unary (word : α) (op : UnaryOp)
  | first (word : α) (op : BinaryOp)
  | second (word : α) (op : BinaryOp) (f : Formula α)

def Pending.word : Pending α → α
  | unary word _ | first word _ | second word _ _ => word

/-- Gives a complete operand to the innermost operator.  The result is the whole formula when no
operator waits any more, and otherwise the operators that still wait. -/
def resume (f : Formula α) : List (Pending α) → Formula α ⊕ List (Pending α)
  | [] => .inl f
  | .unary _ op :: stack => resume (.unary op f) stack
  | .first word op :: stack => .inr (.second word op f :: stack)
  | .second _ op g :: stack => resume (.binary op g f) stack

/-- Adds an atom to those seen, unless one of its name is there. -/
def noteAtom [Named α] (seen : List α) (a : α) : List α :=
  if seen.any fun b => nameOf b = nameOf a then seen else seen ++ [a]

/-- A formula read from the head of a list of words. -/
structure Reading (α : Type) where
  formula : Formula α
  /-- The words behind the formula. -/
  rest : List α
  /-- The atoms in order of first occurrence, each name once. -/
  constants : List α

/-- Reads on with operators that wait and atoms that have been seen. -/
def readFrom [Named α] (stack : List (Pending α)) (seen : List α) :
    List α → Except FormulaError (Reading α)
  | [] =>
    match stack with
    | [] => .error .emptyFormula
    | pending :: _ => .error (.missingOperand (toSymbol pending.word))
  | word :: rest =>
    match Meaning.ofWord (nameOf word) with
    | .unary op => readFrom (.unary word op :: stack) seen rest
    | .binary op => readFrom (.first word op :: stack) seen rest
    | .const value =>
      match resume (.const value) stack with
      | .inl formula => .ok ⟨formula, rest, seen⟩
      | .inr stack => readFrom stack seen rest
    | .atom =>
      match resume (.atom word) stack with
      | .inl formula => .ok ⟨formula, rest, noteAtom seen word⟩
      | .inr stack => readFrom stack (noteAtom seen word) rest

def read [Named α] (words : List α) : Except FormulaError (Reading α) := readFrom [] [] words

def ofWords [Named α] (words : List α) : Except FormulaError (Formula α) :=
  match read words with
  | .error e => .error e
  | .ok reading =>
    match reading.rest with
    | [] => .ok reading.formula
    | word :: _ => .error (.trailingToken (toSymbol word))

def propositionalOfWords [Named α] (words : List α) : Except FormulaError (Formula α) :=
  match ofWords words with
  | .error e => .error e
  | .ok formula =>
    match formula.firstTemporal? with
    | some sign => .error (.temporal sign)
    | none => .ok formula

def ofText (text : String) : Except FormulaError (Formula String) := ofWords (Text.wordsOf text)

end Formula

end PlanConstraints

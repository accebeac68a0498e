import PlanConstraints.Formula.Polish
import PlanConstraints.Text.Letter

set_option autoImplicit false

/-!
# Formula: operators between operands

The form of formulas that programs which turn temporal formulas into automata read and print.  A
formula is written with parentheses around every binary operation; a guard is read with `||` weaker
than `&&` and `&&` weaker than `!`, both binary operators grouping to the left.

Reading goes through the tokens once, with a stack of the contexts that are still open.
-/

namespace PlanConstraints

namespace Formula

variable {α : Type}

/-! ## Writing -/

/-- A constant or an atom. -/
def isLeaf : Formula α → Bool
  | .const _ | .atom _ => true
  | .unary _ _ | .binary _ _ _ => false

/-- The text of an operand of a unary operator, in parentheses unless it is a leaf or has them. -/
def enclose (leaf : Bool) (text : List Char) : List Char :=
  if leaf || (text.head? == some '(' && text.getLast? == some ')') then text
  else '(' :: (text ++ [')'])

/-- The characters of the form with operators between operands.  A weak until is spelled out, since
not every translator knows it: `f` until `g`, or `f` at all times. -/
def infixChars [Named α] : Formula α → List Char
  | .const true => "true".toList
  | .const false => "false".toList
  | .atom a => (nameOf a).toList
  | .unary op f => op.sign.toList ++ enclose f.isLeaf f.infixChars
  | .binary .weakUntil f g =>
    "((".toList ++ f.infixChars ++ " U ".toList ++ g.infixChars ++ ") || []".toList
      ++ enclose f.isLeaf f.infixChars ++ [')']
  | .binary op f g =>
    '(' :: (f.infixChars ++ ' ' :: (op.sign.toList ++ ' ' :: (g.infixChars ++ [')'])))

/-- The form with operators between operands. -/
def infixed [Named α] (f : Formula α) : String := String.ofList f.infixChars

end Formula

/-! ## Tokens of a guard -/

namespace Guard

/-- Tokens of a guard. -/
inductive Token where
  | opening
  | closing
  | neg
  | and
  | or
  | word (name : String)
  deriving DecidableEq, Repr

def Token.text : Token → String
  | opening => "("
  | closing => ")"
  | neg => "!"
  | and => "&&"
  | or => "||"
  | word name => name

/-- The tokens of a text whose first word has begun with the characters of `begun`, the last one
first.  A sign of conjunction or disjunction may be doubled. -/
def tokensAfter (begun : List Char) : List Char → List Token
  | [] => flush begun []
  | '(' :: cs => flush begun (.opening :: tokensAfter [] cs)
  | ')' :: cs => flush begun (.closing :: tokensAfter [] cs)
  | '!' :: cs => flush begun (.neg :: tokensAfter [] cs)
  | '&' :: '&' :: cs => flush begun (.and :: tokensAfter [] cs)
  | '&' :: cs => flush begun (.and :: tokensAfter [] cs)
  | '|' :: '|' :: cs => flush begun (.or :: tokensAfter [] cs)
  | '|' :: cs => flush begun (.or :: tokensAfter [] cs)
  | c :: cs =>
    if Text.isBlank c then flush begun (tokensAfter [] cs)
    else tokensAfter (c :: begun) cs
where
  /-- Ends the word that has begun. -/
  flush (begun : List Char) (tokens : List Token) : List Token :=
    if begun.isEmpty then tokens else .word (String.ofList begun.reverse) :: tokens

def tokens (cs : List Char) : List Token := tokensAfter [] cs

/-! ## Reading a guard -/

/-- A context whose operand is being read. -/
inductive Context where
  | neg
  | group
  | and (left : Formula String)
  | or (left : Formula String)

/-- Completes the negations on top of the stack. -/
def closeNegations (f : Formula String) : List Context → Formula String × List Context
  | .neg :: stack => closeNegations (.neg f) stack
  | stack => (f, stack)

/-- Completes the conjunction on top of the stack, if there is one, with its last operand. -/
def closeConjunction (f : Formula String) (stack : List Context) :
    Formula String × List Context :=
  match closeNegations f stack with
  | (f, .and left :: stack) => (.and left f, stack)
  | other => other

/-- Completes the disjunction on top of the stack, if there is one, with its last operand. -/
def closeDisjunction (f : Formula String) (stack : List Context) :
    Formula String × List Context :=
  match closeConjunction f stack with
  | (f, .or left :: stack) => (.or left f, stack)
  | other => other

def formulaOfWord (name : String) : Formula String :=
  match name with
  | "true" | "1" => .const true
  | "false" | "0" => .const false
  | _ => .atom name

/-- Reads on: at the start of an operand, or behind the operand `operand`. -/
def readFrom (guard : String) (stack : List Context) (operand : Option (Formula String)) :
    List Token → Except FormulaError (Formula String)
  | [] =>
    match operand with
    | none => .error .guardEnds
    | some f =>
      match closeDisjunction f stack with
      | (f, []) => .ok f
      | (_, _ :: _) => .error .unbalancedGuard
  | token :: rest =>
    match operand with
    | none =>
      match token with
      | .neg => readFrom guard (.neg :: stack) none rest
      | .opening => readFrom guard (.group :: stack) none rest
      | .word name => readFrom guard stack (some (formulaOfWord name)) rest
      | token => .error (.unexpectedInGuard token.text)
    | some f =>
      match token with
      | .and =>
        match closeConjunction f stack with
        | (f, stack) => readFrom guard (.and f :: stack) none rest
      | .or =>
        match closeDisjunction f stack with
        | (f, stack) => readFrom guard (.or f :: stack) none rest
      | token =>
        match closeDisjunction f stack with
        | (_, []) => .error (.trailingInGuard token.text guard)
        | (f, _ :: stack) =>
          match token with
          | .closing => readFrom guard stack (some f) rest
          | _ => .error .unbalancedGuard

/-- Reads the tokens of a guard with operators between operands. -/
def ofTokens (guard : String) (tokens : List Token) : Except FormulaError (Formula String) :=
  match tokens with
  | [] => .error .emptyGuard
  | tokens => readFrom guard [] none tokens

/-! ## Enclosing parentheses -/

/-- Every parenthesis of the text is closed in it, when `depth` more are open in front. -/
def isBalanced (depth : Nat) : List Char → Bool
  | [] => depth == 0
  | '(' :: cs => isBalanced (depth + 1) cs
  | ')' :: cs => if depth = 0 then false else isBalanced (depth - 1) cs
  | _ :: cs => isBalanced depth cs

/-- The text between a first character `(` and a last character `)` that belong together. -/
def inside? (cs : List Char) : Option (List Char) :=
  match cs with
  | '(' :: rest =>
    if rest.getLast? = some ')' && isBalanced 0 rest.dropLast then some rest.dropLast else none
  | _ => none

theorem length_of_inside? {cs inner : List Char} (h : inside? cs = some inner) :
    inner.length < cs.length := by
  unfold inside? at h
  split at h
  · split at h
    · cases h
      simp only [List.length_dropLast, List.length_cons]
      omega
    · cases h
  · cases h

/-- The text without the parentheses that enclose all of it. -/
def stripParens (cs : List Char) : List Char :=
  match _h : inside? cs with
  | some inner => stripParens (Text.trim inner)
  | none => cs
termination_by cs.length
decreasing_by exact Nat.lt_of_le_of_lt (Text.length_trim_le _) (length_of_inside? _h)

/-! ## Guards -/

/-- The Polish reading of a guard: it has to be complete and propositional, and the names of its
atoms consist of letters, digits and underscores. -/
def polish? (text : String) : Option (Formula String) :=
  match Formula.ofText text with
  | .error _ => none
  | .ok f =>
    if f.atoms.all (fun a => a.toList.all Text.isNameChar) && f.isPropositional then some f
    else none

/-- Reads the guard of a transition: in Polish form if it can be read so, and otherwise with
operators between operands. -/
def ofText (text : String) : Except FormulaError (Formula String) :=
  let cs := stripParens (Text.trim text.toList)
  let guard := String.ofList cs
  match polish? guard with
  | some f => .ok f
  | none => ofTokens guard (tokens cs)

end Guard

end PlanConstraints

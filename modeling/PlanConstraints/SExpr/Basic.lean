import PlanConstraints.Source.Message
import PlanConstraints.Text.LowerCase

set_option autoImplicit false

/-!
# Symbolic expressions

The nested lists in which planning domains and problems are written.  Letter case does not matter:
atoms are read in lower case.  A semicolon starts a comment that lasts to the end of the line.

Reading goes through the tokens once, with a stack of the lists that are still open.
-/

namespace PlanConstraints

/-- An atom or a list of expressions. -/
inductive SExpr where
  | atom (name : Symbol)
  | list (items : List SExpr) (span : Span)

/-- Causes for which an expression is refused. -/
inductive SExprError where
  /-- A parenthesis that is not closed. -/
  | unclosed (paren : Span)
  /-- A closing parenthesis that closes nothing. -/
  | unexpectedClosing (paren : Span)
  /-- The text ends where an expression should start. -/
  | endOfInput
  /-- Something follows the expression. -/
  | trailing (token : Span)
  /-- The list ends where an item should follow. -/
  | endOfList (list : Span)
  | expectedAtom (found : Span)
  | expectedWord (word : String) (found : Span)
  | expectedList (found : Span)

def SExprError.toMessage : SExprError → Message
  | unclosed paren => paren.invalid "unclosed parenthesis"
  | unexpectedClosing paren => paren.invalid "unexpected closing parenthesis"
  | endOfInput => .ofTitle "unexpected end of input"
  | trailing token => token.invalid "unexpected content after the end of the definition"
  | endOfList list => list.invalid "unexpected end of list"
  | expectedAtom found => found.invalid "expected an atom"
  | expectedWord word found => found.invalid ("expected `" ++ word ++ "`")
  | expectedList found => found.invalid "expected a list"

namespace SExpr

/-- The part of the text that the expression covers. -/
def span : SExpr → Span
  | .atom name => name.span
  | .list _ span => span

def isAtom (e : SExpr) (name : String) : Bool :=
  match e with
  | .atom s => s.name == name
  | .list _ _ => false

/-! ## Tokens -/

/-- Tokens with the byte at which they start. -/
inductive Token where
  | opening (pos : Nat)
  | closing (pos : Nat)
  | atom (pos : Nat) (text : List Char)
  deriving DecidableEq, Repr

/-- Where the scan of a text stands. -/
inductive Scan where
  /-- Between tokens. -/
  | between
  /-- In an atom that started at the given byte, with its characters so far, the last one first. -/
  | inAtom (start : Nat) (begun : List Char)
  | inComment

/-- The token that ends here, if an atom was being read. -/
def Scan.flush (scan : Scan) (tokens : List Token) : List Token :=
  match scan with
  | inAtom start begun => .atom start begun.reverse :: tokens
  | between | inComment => tokens

/-- The tokens of the characters that follow, the first of which starts at byte `pos`. -/
def tokensFrom (scan : Scan) (pos : Nat) : List Char → List Token
  | [] => scan.flush []
  | c :: cs =>
    let next := pos + c.utf8Size
    match scan with
    | .inComment => tokensFrom (if c = '\n' then .between else .inComment) next cs
    | scan =>
      if c = ';' then scan.flush (tokensFrom .inComment next cs)
      else if c = '(' then scan.flush (.opening pos :: tokensFrom .between next cs)
      else if c = ')' then scan.flush (.closing pos :: tokensFrom .between next cs)
      else if Text.isBlank c then scan.flush (tokensFrom .between next cs)
      else
        match scan with
        | .inAtom start begun => tokensFrom (.inAtom start (c :: begun)) next cs
        | _ => tokensFrom (.inAtom pos [c]) next cs

def tokens (cs : List Char) : List Token := tokensFrom .between 0 cs

def Token.span (input : Input) : Token → Span
  | opening pos | closing pos => ⟨input, pos, pos + 1⟩
  | atom pos text => ⟨input, pos, pos + Text.byteLength text⟩

def ofAtom (input : Input) (pos : Nat) (text : List Char) : SExpr :=
  .atom ⟨Text.lowerCase (String.ofList text), some (Token.span input (.atom pos text))⟩

/-! ## Reading -/

/-- A list that is still open: where it starts and its items so far, the last one first. -/
structure OpenList where
  start : Nat
  items : List SExpr

/-- Reads on with open lists, the innermost one first, up to the end of the outermost one. -/
def readFrom (input : Input) (stack : List OpenList) :
    List Token → Except SExprError (SExpr × List Token)
  | [] =>
    match stack with
    | [] => .error .endOfInput
    | inner :: _ => .error (.unclosed (Token.span input (.opening inner.start)))
  | .opening pos :: rest => readFrom input (⟨pos, []⟩ :: stack) rest
  | .atom pos text :: rest =>
    match stack with
    | [] => .ok (ofAtom input pos text, rest)
    | inner :: outer =>
      readFrom input ({ inner with items := ofAtom input pos text :: inner.items } :: outer) rest
  | .closing pos :: rest =>
    match stack with
    | [] => .error (.unexpectedClosing (Token.span input (.closing pos)))
    | [inner] => .ok (.list inner.items.reverse ⟨input, inner.start, pos + 1⟩, rest)
    | inner :: next :: outer =>
      let list : SExpr := .list inner.items.reverse ⟨input, inner.start, pos + 1⟩
      readFrom input ({ next with items := list :: next.items } :: outer) rest

/-- Reads the one expression that an input consists of. -/
def ofInput (input : Input) : Except SExprError SExpr :=
  match readFrom input [] (tokens input.text.toList) with
  | .error e => .error e
  | .ok (e, []) => .ok e
  | .ok (_, token :: _) => .error (.trailing (token.span input))

/-! ## Going through a list -/

/-- The rest of a list, with the span of the whole list. -/
structure Cursor where
  items : List SExpr
  span : Span

/-- A cursor in front of the first item. -/
def cursor? : SExpr → Option Cursor
  | .atom _ => none
  | .list items span => some ⟨items, span⟩

namespace Cursor

/-- The next item; the cursor moves behind it. -/
def next (c : Cursor) : Except SExprError (SExpr × Cursor) :=
  match c.items with
  | [] => .error (.endOfList c.span)
  | e :: rest => .ok (e, ⟨rest, c.span⟩)

/-- The cursor behind the next item. -/
def advance (c : Cursor) : Cursor := ⟨c.items.drop 1, c.span⟩

def nextAtom (c : Cursor) : Except SExprError (Symbol × Cursor) :=
  match c.next with
  | .error e => .error e
  | .ok (.atom name, c) => .ok (name, c)
  | .ok (.list _ span, _) => .error (.expectedAtom span)

/-- Passes the next item, which has to be the given atom. -/
def nextWord (c : Cursor) (word : String) : Except SExprError Cursor :=
  match c.next with
  | .error e => .error e
  | .ok (e, c) => if e.isAtom word then .ok c else .error (.expectedWord word e.span)

def nextList (c : Cursor) : Except SExprError (Cursor × Cursor) :=
  match c.next with
  | .error e => .error e
  | .ok (.list items span, c) => .ok (⟨items, span⟩, c)
  | .ok (.atom name, _) => .error (.expectedList name.span)

end Cursor

end SExpr

end PlanConstraints

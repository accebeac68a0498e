import PlanConstraints.Text.Blank

set_option autoImplicit false

/-!
# Source: inputs, spans and symbols

An input is a text with the name of the place it came from.  A span is a range of bytes of an input;
a symbol is a name that remembers the span it was read from, so that an error found much later can
still point at it.
-/

namespace PlanConstraints.Text

/-- The characters that begin in the bytes from `start` up to `stop`, when the text itself begins at
byte `pos`. -/
def sliceFrom (pos start stop : Nat) : List Char → List Char
  | [] => []
  | c :: cs =>
    if start ≤ pos ∧ pos < stop then c :: sliceFrom (pos + c.utf8Size) start stop cs
    else sliceFrom (pos + c.utf8Size) start stop cs

/-- The characters that begin in the bytes from `start` up to `stop`. -/
def slice (start stop : Nat) (cs : List Char) : List Char := sliceFrom 0 start stop cs

end PlanConstraints.Text

namespace PlanConstraints

/-- A text and where it came from: a file, or the command that printed it. -/
structure Input where
  text : String
  source : Option String
  deriving DecidableEq

def Input.ofText (text : String) : Input := ⟨text, none⟩

/-- The bytes of an input from `start` up to `stop`. -/
structure Span where
  input : Input
  start : Nat
  stop : Nat
  deriving DecidableEq

/-! ## Spans -/

namespace Span

def length (s : Span) : Nat := s.stop - s.start

def text (s : Span) : String := String.ofList (Text.slice s.start s.stop s.input.text.toList)

def before (s : Span) : List Char := Text.slice 0 s.start s.input.text.toList

def line (s : Span) : Nat := s.before.count '\n' + 1

/-- The column at which the span starts, counted from 1 in characters. -/
def column (s : Span) : Nat := (s.before.reverse.takeWhile (· != '\n')).length + 1

end Span

/-! ## Symbols -/

/-- A name and the span it was read from, if it was read from an input.  Two symbols mean the same
when they have the same name. -/
structure Symbol where
  name : String
  origin : Option Span
  deriving DecidableEq

namespace Symbol

def ofName (name : String) : Symbol := ⟨name, none⟩

/-- The same origin under another name. -/
def rename (s : Symbol) (name : String) : Symbol := ⟨name, s.origin⟩

/-- The origin of the symbol; one without origin is taken to be read from its own name. -/
def span (s : Symbol) : Span :=
  match s.origin with
  | some span => span
  | none => ⟨.ofText s.name, 0, Text.byteLength s.name.toList⟩

end Symbol

/-- Types whose values are names. -/
class Named (α : Type) where
  /-- The name, with its origin if it has one. -/
  toSymbol : α → Symbol

export Named (toSymbol)

instance : Named Symbol := ⟨id⟩

instance : Named String := ⟨Symbol.ofName⟩

def nameOf {α : Type} [Named α] (a : α) : String := (toSymbol a).name

@[simp] theorem nameOf_symbol (s : Symbol) : nameOf s = s.name := rfl

@[simp] theorem nameOf_string (s : String) : nameOf s = s := rfl

end PlanConstraints

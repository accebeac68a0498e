import PlanConstraints.Source.Line

set_option autoImplicit false

/-!
# Source: messages

What is told to the person who wrote an input: a title, the place in the input that is at fault and
further places that explain it.
-/

namespace PlanConstraints

/-- A place of an input with what is to be said about it. -/
structure Note where
  span : Span
  text : String
  deriving DecidableEq

/-- An error as it is reported. -/
structure Message where
  title : String
  /-- The place at fault. -/
  fault : Option Note
  /-- Other places that explain the error. -/
  notes : List Note
  deriving DecidableEq

/-- A place in a named source, as line and column counted from 1. -/
structure Location where
  source : String
  line : Nat
  column : Nat
  deriving DecidableEq

/-- The span starts at the end of a text, behind the end of its last line. -/
def Span.isBehindLastLine (s : Span) : Bool :=
  s.before.getLast? == some '\n' && s.before == s.input.text.toList

/-- The place where a span starts, for an input that names its source.  The end of a last line that
has been ended shows no line of its own: what starts there is shown one column behind the text of
the last line and the mark that ends it. -/
def Span.location? (s : Span) : Option Location :=
  s.input.source.map fun source =>
    if s.isBehindLastLine then
      let last := s.before.reverse.tail.takeWhile (· != '\n')
      let shown := if last.head? = some '\r' then last.tail else last
      ⟨source, s.line - 1, shown.length + 2⟩
    else ⟨source, s.line, s.column⟩

namespace Message

def ofTitle (title : String) : Message := ⟨title, none, []⟩

/-- The same message under another title. -/
def withTitle (m : Message) (title : String) : Message := { m with title := title }

/-- Adds a place that explains the error. -/
def addNote (m : Message) (span : Span) (text : String) : Message :=
  { m with notes := m.notes ++ [⟨span, text⟩] }

/-- The place at fault, if it lies in a named source. -/
def location? (m : Message) : Option Location :=
  match m.fault with
  | some fault => fault.span.location?
  | none => none

end Message

/-- Spans from this length in bytes on are not quoted in a title. -/
def Span.quotedBelow : Nat := 60

/-- The message that a span is at fault; a short one is quoted in the title. -/
def Span.invalid (s : Span) (text : String) : Message :=
  ⟨if s.length < Span.quotedBelow then text ++ ": " ++ s.text else text, some ⟨s, text⟩, []⟩

def Symbol.invalid (s : Symbol) (text : String) : Message := s.span.invalid text

end PlanConstraints

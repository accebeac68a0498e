import PlanConstraints.Source.Input
import PlanConstraints.Text.Split

set_option autoImplicit false

/-!
# Source: lines and tokens

Property files, planning tasks and automata are read line by line.  A line ends at a line feed; a
carriage return in front of it does not belong to the line.  The tokens of a line are its words,
each a symbol whose origin is the word itself.
-/

namespace PlanConstraints

/-- One line of an input. -/
structure Line where
  input : Input
  /-- Number of the line, counted from 1. -/
  number : Nat
  /-- Byte at which the line starts. -/
  start : Nat
  /-- The line without its end. -/
  text : String

namespace Text

/-- A line without the carriage return at its end, if there is one. -/
def dropReturn : List Char → List Char
  | [] => []
  | [c] => if c = '\r' then [] else [c]
  | c :: d :: cs => c :: dropReturn (d :: cs)

end Text

/-- The lines that the pieces make, when the first has the given number and starts at the given
byte. -/
def Line.ofPieces (input : Input) (number start : Nat) : List (List Char) → List Line
  | [] => []
  | piece :: more =>
    ⟨input, number, start, String.ofList (Text.dropReturn piece)⟩
      :: Line.ofPieces input (number + 1) (start + Text.byteLength piece + 1) more

def Input.lines (input : Input) : List Line :=
  Line.ofPieces input 1 0 (Text.split '\n' input.text.toList)

/-! ## Pieces of a line -/

/-- Consecutive characters of an input, with the byte at which they start. -/
structure Piece where
  input : Input
  start : Nat
  chars : List Char

namespace Piece

def text (p : Piece) : String := String.ofList p.chars

def span (p : Piece) : Span := ⟨p.input, p.start, p.start + Text.byteLength p.chars⟩

def isBlank (p : Piece) : Bool := p.chars.all Text.isBlank

/-- The piece without its first `n` characters. -/
def drop (n : Nat) (p : Piece) : Piece :=
  ⟨p.input, p.start + Text.byteLength (p.chars.take n), p.chars.drop n⟩

/-- The piece without the white space in front. -/
def trimLeft (p : Piece) : Piece := p.drop (p.chars.takeWhile Text.isBlank).length

/-- The piece without the white space behind. -/
def trimRight (p : Piece) : Piece := { p with chars := Text.trimRight p.chars }

/-- The piece without the white space around it; nothing is left of a blank piece, where it
starts. -/
def trim (p : Piece) : Piece :=
  if p.isBlank then { p with chars := [] } else p.trimLeft.trimRight

end Piece

namespace Line

def piece (l : Line) : Piece := ⟨l.input, l.start, l.text.toList⟩

def range (l : Line) : Span := l.piece.span

/-- The line without the white space around it. -/
def trimmed (l : Line) : String := l.piece.trim.text

def isBlank (l : Line) : Bool := l.piece.isBlank

/-- The span of a part of the line, found by the place of the part; what does not stand in the line
gets the span of the whole line. -/
def subSpan (l : Line) (part : Piece) : Span :=
  if l.start ≤ part.start ∧ part.span.stop ≤ l.range.stop then
    ⟨l.input, part.start, part.span.stop⟩
  else l.range

def span (l : Line) : Span := l.subSpan l.piece.trim

/-- The words of a part of the line. -/
def tokensOf (l : Line) (part : Piece) : List Symbol :=
  (Text.wordsFrom part.start part.chars).map fun (start, word) =>
    ⟨String.ofList word, some (l.subSpan ⟨part.input, start, word⟩)⟩

def tokens (l : Line) : List Symbol := l.tokensOf l.piece

end Line

end PlanConstraints

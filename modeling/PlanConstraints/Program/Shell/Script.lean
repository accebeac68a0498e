import PlanConstraints.Program.Bytes

set_option autoImplicit false

/-!
# Shell: scripts

A script is a sequence of commands.  The words of a command are made of parts: text, and what is put
in its place when the command runs: values of parameters, the output of commands, and numbers.
-/

namespace PlanConstraints.Shell

/-- What is made of the value of a parameter.  An empty value may count as none. -/
inductive Use where
  | value
  /-- The number of its bytes. -/
  | length
  /-- The word stands for a missing value. -/
  | otherwise (emptyIsNone : Bool)
  /-- The word stands for a value that there is. -/
  | instead (emptyIsNone : Bool)
  /-- A missing value becomes that of the word. -/
  | assign (emptyIsNone : Bool)
  /-- A missing value is an error. -/
  | demand (emptyIsNone : Bool)
  /-- The value without what matches the word at its start. -/
  | withoutStart (longest : Bool)
  /-- The value without what matches the word at its end. -/
  | withoutEnd (longest : Bool)
  /-- Nothing is known by what is written. -/
  | unknown
  deriving DecidableEq

/-- What a redirection does to a stream. -/
inductive RedirectKind where
  | read
  | write
  /-- Writes to a file even if there is one. -/
  | overwrite
  | append
  | readWrite
  /-- Another stream takes its place. -/
  | copy
  /-- The text that is read stands in the script. -/
  | here
  deriving DecidableEq

mutual

/-- A part of a word.  A part in quotation is not cut into words. -/
inductive Part where
  | text (cs : Bytes) (quoted : Bool)
  | parameter (name : Bytes) (use : Use) (word : List Part) (quoted : Bool)
  | output (c : Command) (quoted : Bool)
  | number (expression : List Part) (quoted : Bool)

inductive Command where
  | nothing
  | simple (line : Nat) (assignments words : List (List Part)) (redirects : List Redirect)
  | redirected (line : Nat) (c : Command) (redirects : List Redirect)
  | subshell (line : Nat) (c : Command) (redirects : List Redirect)
  | pipeline (cs : List Command)
  | background (c : Command)
  | invert (c : Command)
  | both (c d : Command)
  | either (c d : Command)
  | sequence (cs : List Command)
  | choice (condition c d : Command)
  /-- Runs a command as long as a condition succeeds, or fails. -/
  | loop (whileSuccess : Bool) (condition c : Command)
  | each (line : Nat) (name : Bytes) (words : List (List Part)) (c : Command)
  /-- Runs the first command one of whose patterns the subject matches. -/
  | select (line : Nat) (subject : List Part) (branches : List (List (List Part) × Command))
  | define (line : Nat) (name : Bytes) (c : Command)

inductive Redirect where
  | mk (number : Nat) (kind : RedirectKind) (target : List Part)

end

abbrev Word := List Part

/-- The text of a word that is nothing but text without quotation. -/
def Word.plain? : Word → Option Bytes
  | [.text cs false] => some cs
  | _ => none

/-! ## Names -/

def startsName (c : Char) : Bool := c.isAlpha || c == '_'

def isInName (c : Char) : Bool := c.isAlphanum || c == '_'

/-- The name of a parameter that a script can set. -/
def isName : Bytes → Bool
  | [] => false
  | c :: cs => startsName c && cs.all isInName

def isSpecial (c : Char) : Bool := c.isDigit || "!$*@?-#".toList.contains c

/-- The name in front of an equals sign, and the bytes behind that. -/
def splitAssignment? (cs : Bytes) : Option (Bytes × Bytes) :=
  match cs.span (· != '=') with
  | (name, _ :: value) => if isName name then some (name, value) else none
  | _ => none

def Word.assignment? : Word → Option (Bytes × Word)
  | .text cs false :: more =>
    (splitAssignment? cs).map fun (name, value) =>
      (name, if value = [] then more else .text value false :: more)
  | _ => none

end PlanConstraints.Shell

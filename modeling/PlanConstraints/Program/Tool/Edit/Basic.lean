import PlanConstraints.Program.Regex.Basic

set_option autoImplicit false

/-!
# Tools: scripts that edit lines

An edit script is a list of commands, which are run on every line of the input.  An address in front
of a command says on which lines it is run.
-/

namespace PlanConstraints.Tool.Edit

/-- An expression, which is the one that was used last if none is given. -/
abbrev Sought := Option (Regex × Regex.Mode)

/-- Lines that are addressed. -/
inductive Address where
  | line (number : Nat)
  | last
  | found (sought : Sought)
  /-- The first line and every one so many lines behind it. -/
  | every (first step : Nat)

/-- Where a range of lines ends. -/
inductive RangeEnd where
  | at (a : Address)
  /-- So many lines behind the first one. -/
  | behind (count : Nat)
  /-- The next line whose number is a multiple. -/
  | multiple (count : Nat)

/-- The lines on which a command is run. -/
structure Selection where
  first : Option Address
  range : Option RangeEnd
  /-- The lines that are not addressed. -/
  negated : Bool

/-- How letters are changed while a replacement is put together. -/
inductive Casing where
  | upper
  | lower
  | nextUpper
  | nextLower
  | plain
  deriving DecidableEq

/-- A piece of a replacement. -/
inductive Piece where
  | text (cs : Bytes)
  /-- What a group has matched; the group zero is the whole. -/
  | group (number : Nat)
  | casing (c : Casing)

/-- A replacement of what an expression matches. -/
structure Substitution where
  sought : Sought
  pieces : List Piece
  /-- The first occurrence that is replaced. -/
  number : Nat
  /-- All others behind it are, too. -/
  global : Bool
  /-- The line is printed if something was replaced. -/
  prints : Bool
  /-- The line is written to this file if something was replaced. -/
  file : Option Bytes

inductive Action where
  | openBlock
  | closeBlock
  | append (text : Bytes)
  | insert (text : Bytes)
  | change (text : Bytes)
  | branch (label : Bytes)
  /-- Goes on elsewhere if something was replaced, or if nothing was. -/
  | branchIf (replaced : Bool) (label : Bytes)
  | label (name : Bytes)
  | delete
  | deleteFirst
  | printName
  | getHeld
  | appendHeld
  | hold
  | appendToHeld
  | exchange
  | list (width : Option Nat)
  | next
  | appendNext
  | print
  | printFirst
  | quit (status : Nat) (prints : Bool)
  | readFile (path : Bytes)
  | readLine (path : Bytes)
  | writeFile (path : Bytes) (onlyFirst : Bool)
  | substitute (s : Substitution)
  | replaceChars (pairs : List (Char × Char))
  | number
  | clear
  | nothing

structure Command where
  selection : Selection
  action : Action

end PlanConstraints.Tool.Edit

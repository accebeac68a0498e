import PlanConstraints.Automaton.Basic
import PlanConstraints.Formula.Infixed

set_option autoImplicit false

/-!
# Automaton: never-claims

The text form in which programs that translate temporal formulas print an automaton.  A header names
a state, and the lines below it give its transitions:

    never {
    T0_init :
        if
        :: (p) -> goto accept_S1
        :: (1) -> goto T0_init
        fi;
    accept_S1 :
        skip
    }

States are numbered in the order in which they are first named, by their own header or as the target
of a transition.  The name of a state tells its role: the one that ends with `init` is initial,
those that start with `accept` are accepting.
-/

namespace PlanConstraints

/-- Causes for which a never-claim is refused. -/
inductive AutomatonError where
  /-- A transition that no header precedes. -/
  | transitionOutside (line : Line)
  /-- A transition that is not written as a guard and a target. -/
  | notATransition (line : Line)
  /-- A line that is nothing of what may stand in a never-claim. -/
  | unexpectedLine (line : Line)
  /-- A guard that is not a formula. -/
  | invalidGuard (line : Line) (guard : Span) (error : FormulaError)
  /-- No name ends with `init`. -/
  | noInitialState (automaton : String)
  /-- Two names end with `init`. -/
  | severalInitialStates (automaton first second : String)

namespace AutomatonError

def malformed (line : Line) (reason : String) : String :=
  "malformed automaton (line " ++ toString line.number ++ "): " ++ reason

def message : AutomatonError → String
  | transitionOutside line => malformed line "transition outside of any state"
  | notATransition line => malformed line "expected `:: (<guard>) -> goto <state>`"
  | unexpectedLine line => malformed line "unexpected line"
  | invalidGuard line _ error =>
    "invalid guard (line " ++ toString line.number ++ "): " ++ error.message
  | noInitialState automaton => "automaton `" ++ automaton ++ "` has no initial state"
  | severalInitialStates automaton first second =>
    "automaton `" ++ automaton ++ "` has several initial states: " ++ first ++ " and " ++ second

/-- The part of the never-claim at fault. -/
def span? : AutomatonError → Option Span
  | transitionOutside line | notATransition line | unexpectedLine line => some line.span
  | invalidGuard _ guard _ => some guard
  | noInitialState _ | severalInitialStates _ _ _ => none

def toMessage (error : AutomatonError) : Message :=
  match error.span? with
  | some span => span.invalid error.message
  | none => .ofTitle error.message

end AutomatonError

namespace NeverClaim

/-! ## The parts of a line -/

/-- The characters in front of a comment, which lasts to the end of the line. -/
def beforeComment : List Char → List Char
  | [] => []
  | '/' :: '*' :: _ => []
  | c :: cs => c :: beforeComment cs

/-- The line without its comment and the white space around it. -/
def content (line : Line) : Piece :=
  Piece.trim ⟨line.input, line.start, beforeComment line.text.toList⟩

/-- The characters of which names of states are made. -/
def isStateChar (c : Char) : Bool := c.isAlphanum || c == '_'

/-- Cuts a header into the name of the state and what follows the colon. -/
def header? (p : Piece) : Option (String × Piece) :=
  let name := p.chars.takeWhile isStateChar
  let rest := (p.drop name.length).trimLeft
  match name, rest.chars with
  | _ :: _, ':' :: _ => some (String.ofList name, (rest.drop 1).trimLeft)
  | _, _ => none

/-- The characters in front of the last arrow and behind it. -/
def splitArrow? : List Char → Option (List Char × List Char)
  | [] => none
  | [_] => none
  | '-' :: '>' :: cs =>
    match splitArrow? cs with
    | some (front, back) => some ('-' :: '>' :: front, back)
    | none => some ([], cs)
  | c :: d :: cs =>
    match splitArrow? (d :: cs) with
    | some (front, back) => some (c :: front, back)
    | none => none

/-- The name of the state behind the word `goto`. -/
def target? (cs : List Char) : Option String :=
  match Text.trimLeft cs with
  | 'g' :: 'o' :: 't' :: 'o' :: cs =>
    match cs with
    | [] => none
    | c :: _ =>
      let named := Text.trimLeft cs
      let name := named.takeWhile isStateChar
      let rest := Text.trimLeft (named.dropWhile isStateChar)
      if Text.isBlank c && !name.isEmpty && (rest == [] || rest == [';']) then
        some (String.ofList name)
      else none
  | _ => none

/-- Cuts a transition, which starts with two colons, into its guard and its target. -/
def transition? (p : Piece) : Option (Piece × String) :=
  let body := p.drop 2
  match splitArrow? body.chars with
  | none => none
  | some (front, back) =>
    match target? back with
    | none => none
    | some target => some (({ body with chars := front } : Piece).trimLeft.trimRight, target)

/-! ## Building the automaton -/

/-- What has been read of a never-claim. -/
structure Draft where
  states : List (State String)
  /-- The state whose transitions are being read. -/
  current : Option Nat

namespace Draft

/-- The number of a state that is named, which becomes a new state unless it was named before. -/
def mention (d : Draft) (name : String) : Draft × Nat :=
  match d.states.find? fun s => s.name = name with
  | some s => (d, s.id)
  | none =>
    let id := d.states.length
    let state : State String :=
      ⟨name, id, "init".toList.isSuffixOf name.toList, "accept".toList.isPrefixOf name.toList, []⟩
    ({ d with states := d.states ++ [state] }, id)

/-- Adds a transition behind those that leave its source. -/
def addTransition (d : Draft) (t : Transition String) : Draft :=
  { d with
    states := d.states.map fun s =>
      if s.id = t.source then { s with transitions := s.transitions ++ [t] } else s }

/-- Reads what a line holds besides a header. -/
def readBody (d : Draft) (line : Line) (body : Piece) : Except AutomatonError Draft :=
  match body.text with
  | "" | "\x7d" | "if" | "false" | "false;" => .ok d
  | "fi" | "fi;" => .ok { d with current := none }
  | "skip" | "skip;" =>
    match d.current with
    | none => .error (.transitionOutside line)
    | some s => .ok (d.addTransition ⟨s, s, .const true⟩)
  | _ =>
    if "never".toList.isPrefixOf body.chars then .ok d
    else if "::".toList.isPrefixOf body.chars then
      match d.current with
      | none => .error (.transitionOutside line)
      | some source =>
        match transition? body with
        | none => .error (.notATransition line)
        | some (guard, target) =>
          match Guard.ofText guard.text with
          | .error e => .error (.invalidGuard line guard.span e)
          | .ok formula =>
            let (d, target) := d.mention target
            .ok (d.addTransition ⟨source, target, formula⟩)
    else .error (.unexpectedLine line)

def readLine (d : Draft) (line : Line) : Except AutomatonError Draft :=
  let content := content line
  match header? content with
  | none => d.readBody line content
  | some (name, body) =>
    let (d, id) := d.mention name
    { d with current := some id }.readBody line body

/-- The automaton of the states that were read, which needs exactly one initial state. -/
def toAutomaton (d : Draft) (name : String) : Except AutomatonError (Automaton String) :=
  match d.states.filter State.isInitial with
  | [] => .error (.noInitialState name)
  | [s] => .ok ⟨name, d.states, s.id⟩
  | first :: second :: _ => .error (.severalInitialStates name first.name second.name)

end Draft

/-- The automaton that a never-claim describes. -/
def toAutomaton (name : String) (input : Input) : Except AutomatonError (Automaton String) :=
  match foldSteps Draft.readLine ⟨[], none⟩ input.lines with
  | .error e => .error e
  | .ok d => d.toAutomaton name

end NeverClaim

end PlanConstraints

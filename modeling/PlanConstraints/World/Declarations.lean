import PlanConstraints.Traverse
import PlanConstraints.SExpr.Basic
import PlanConstraints.World.Basic

set_option autoImplicit false

/-!
# World: declarations of a domain and a problem

The types and constants come from the sections of a planning domain, the objects from a problem.
All other sections are passed over.

    (define (domain d) (:types truck car - vehicle) (:constants depot - location) ...)
    (define (problem p) (:objects t1 t2 - truck) ...)
-/

namespace PlanConstraints

namespace World

/-- The two kinds of definitions. -/
inductive Definition where
  | domain
  | problem
  deriving DecidableEq, Repr

/-- The word by which a definition calls itself. -/
def Definition.keyword : Definition → String
  | domain => "domain"
  | problem => "problem"

/-- Causes for which the declarations of a definition are refused. -/
inductive DeclarationError where
  | form (error : SExprError)
  /-- The definition does not name itself where it should. -/
  | expectedName (error : SExprError)
  /-- An atom where a section is expected. -/
  | expectedSection (found : Span)
  /-- A list where a type is expected. -/
  | typeList (found : Span)
  | conflict (error : TypeConflict)

def DeclarationError.toMessage : DeclarationError → Message
  | form error | expectedName error => error.toMessage
  | expectedSection found => found.invalid "expected a section"
  | typeList found => found.invalid "`either` types are not supported"
  | conflict error => error.toMessage

/-- Causes for which a domain or a problem is refused. -/
inductive ReadError where
  /-- The text is not one expression. -/
  | text (error : SExprError)
  /-- Its declarations cannot be used. -/
  | declarations (definition : Definition) (error : DeclarationError)

def ReadError.toMessage : ReadError → Message
  | text error => error.toMessage
  | declarations definition error =>
    error.toMessage.withTitle ("invalid " ++ definition.keyword)

/-! ## Reading -/

/-- Reads names in groups, each followed by a hyphen and a type; names behind the last group have no
type.  The names of the group that is being read are given first. -/
def typedNames (list : Span) (group : List Symbol) :
    List SExpr → Except DeclarationError (List (Symbol × String))
  | [] => .ok (group.map fun name => (name, topType))
  | .list _ span :: _ => .error (.form (.expectedAtom span))
  | .atom name :: rest =>
    if name.name = "-" then
      match rest with
      | [] => .error (.form (.endOfList list))
      | .list _ span :: _ => .error (.typeList span)
      | .atom type :: rest =>
        match typedNames list [] rest with
        | .error e => .error e
        | .ok names => .ok (group.map (fun name => (name, type.name)) ++ names)
    else typedNames list (group ++ [name]) rest

/-- Declares the types or objects of a section. -/
def readSection (w : World) (e : SExpr) : Except DeclarationError World :=
  match e.cursor? with
  | none => .error (.expectedSection e.span)
  | some c =>
    match c.nextAtom with
    | .error e => .error (.form e)
    | .ok (key, c) =>
      match key.name with
      | ":types" =>
        match typedNames c.span [] c.items with
        | .error e => .error e
        | .ok names => .ok (names.foldl (fun w (name, type) => w.addType name.name (some type)) w)
      | ":constants" | ":objects" =>
        match typedNames c.span [] c.items with
        | .error e => .error e
        | .ok names =>
          match foldSteps (fun w (name, type) => World.declare w name type) w names with
          | .error e => .error (.conflict e)
          | .ok w => .ok w
      | _ => .ok w

/-- The sections of a definition of the given kind. -/
def sections (definition : Definition) (e : SExpr) : Except DeclarationError (List SExpr) :=
  match e.cursor? with
  | none => .error (.form (.expectedList e.span))
  | some c =>
    match c.nextWord "define" with
    | .error e => .error (.form e)
    | .ok c =>
      match c.nextList with
      | .error e => .error (.expectedName e)
      | .ok (name, c) =>
        match name.nextWord definition.keyword with
        | .error e => .error (.form e)
        | .ok _ => .ok c.items

def readDefinition (definition : Definition) (w : World) (e : SExpr) :
    Except DeclarationError World :=
  match sections definition e with
  | .error e => .error e
  | .ok sections => foldSteps readSection w sections

/-- Adds what the text of a definition declares. -/
def readInput (definition : Definition) (w : World) (input : Input) : Except ReadError World :=
  match SExpr.ofInput input with
  | .error e => .error (.text e)
  | .ok e =>
    match readDefinition definition w e with
    | .error e => .error (.declarations definition e)
    | .ok w => .ok w

/-- The types and objects of a problem and its domain, if that is given. -/
def ofInputs (domain : Option Input) (problem : Input) : Except ReadError World :=
  match domain with
  | none => readInput .problem .empty problem
  | some domain =>
    match readInput .domain .empty domain with
    | .error e => .error e
    | .ok w => readInput .problem w problem

end World

end PlanConstraints

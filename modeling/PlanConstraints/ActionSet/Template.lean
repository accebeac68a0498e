import PlanConstraints.Traverse
import PlanConstraints.World.Basic

set_option autoImplicit false

/-!
# Action sets: templates

A template describes ground actions by the name of the action and, for every parameter, an object, a
type whose objects are all allowed, or `*` for any object.
-/

namespace PlanConstraints

/-- What a template allows at the place of a parameter. -/
inductive Param where
  | object (name : String)
  /-- Any object. -/
  | any
  /-- Any object of the type. -/
  | type (name : String)
  deriving DecidableEq, Repr

/-- The word that stands for any object. -/
def anyObject : String := "*"

namespace Param

def text : Param → String
  | object name => name
  | any => anyObject
  | type name => name

/-- The parameter allows the object. -/
def accepts (w : World) (object : String) : Param → Bool
  | .object name => name == object
  | .any => true
  | .type name => (w.objectsOf name).contains object

end Param

/-- A description of ground actions. -/
structure Template where
  name : String
  params : List Param
  deriving DecidableEq, Repr

/-- Causes for which an action set is refused. -/
inductive TemplateError where
  /-- A parameter that is neither a type nor an object. -/
  | unknownParameter (param : Symbol)
  /-- An action with another number of parameters than in an earlier template of the set. -/
  | arityMismatch (set : String) (action : Symbol) (expected found : Nat)
  /-- A template without an action. -/
  | emptyTemplate (set : Symbol)

namespace TemplateError

def message : TemplateError → String
  | unknownParameter param =>
    "unknown parameter `" ++ param.name ++ "`: neither a type nor an object"
  | arityMismatch set action expected found =>
    "action `" ++ action.name ++ "` has " ++ toString found ++ " parameters in set `" ++ set
      ++ "` but " ++ toString expected ++ " in a previous template"
  | emptyTemplate set => "empty action template in set `" ++ set.name ++ "`"

def symbol : TemplateError → Symbol
  | unknownParameter param => param
  | arityMismatch _ action _ _ => action
  | emptyTemplate set => set

def toMessage (e : TemplateError) : Message := e.symbol.invalid e.message

end TemplateError

namespace Template

def arity (t : Template) : Nat := t.params.length

def words (t : Template) : List String := t.name :: t.params.map Param.text

def text (t : Template) : String := " ".intercalate t.words

/-- The template describes the ground action. -/
def describes (w : World) (t : Template) (name : String) (objects : List String) : Bool :=
  t.name == name && t.params.length == objects.length
    && (t.params.zip objects).all fun (param, object) => param.accepts w object

/-- The parameter that a word stands for; a word that names both a type and an object stands for the
type. -/
def readParam (w : World) (word : Symbol) : Except TemplateError Param :=
  let name := Text.lowerSymbol word.name
  if name = anyObject then .ok .any
  else if w.isType name then .ok (.type name)
  else if w.isObject name then .ok (.object name)
  else .error (.unknownParameter (word.rename name))

end Template

end PlanConstraints

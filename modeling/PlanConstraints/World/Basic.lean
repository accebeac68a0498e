import PlanConstraints.Source.Message
import PlanConstraints.Text.LowerCase

set_option autoImplicit false

/-!
# World: types and objects

The types of a planning problem, each with its parent, and the objects, each with its type.  The
type `object` is the root of the hierarchy and needs no declaration.  Names do not depend on letter
case: declarations put them in lower case, and queries expect them so.

Nothing keeps declarations from making the hierarchy cyclic, so walks along it are bounded by the
number of types: that many steps reach every ancestor.
-/

namespace PlanConstraints

/-- The root of the type hierarchy. -/
def topType : String := "object"

/-- Declared types and objects. -/
structure World where
  /-- Every declared type with its parent. -/
  parents : List (String × String)
  /-- Every object with its type, in order of declaration. -/
  objects : List (String × String)
  deriving DecidableEq

/-- A declaration gives an object a type other than the one it has. -/
structure TypeConflict where
  object : Symbol
  previous : String
  found : String

namespace TypeConflict

def message (e : TypeConflict) : String :=
  "object `" ++ e.object.name ++ "` is declared with both types `" ++ e.previous ++ "` and `"
    ++ e.found ++ "`"

/-- The error as it is reported, pointing at the second declaration. -/
def toMessage (e : TypeConflict) : Message := e.object.invalid e.message

end TypeConflict

namespace World

/-- No type but the root, and no object. -/
def empty : World := ⟨[], []⟩

def parentOf? (w : World) (type : String) : Option String := w.parents.lookup type

def typeOf? (w : World) (object : String) : Option String := w.objects.lookup object

/-! ## Queries -/

def isType (w : World) (name : String) : Bool := name == topType || (w.parentOf? name).isSome

def isObject (w : World) (name : String) : Bool := (w.typeOf? name).isSome

/-- The second type is reached from the first in fewer than `steps` steps from child to parent. -/
def reaches (w : World) : Nat → String → String → Bool
  | 0, _, _ => false
  | steps + 1, sub, type =>
    sub == type ||
      match w.parentOf? sub with
      | some parent => w.reaches steps parent type
      | none => false

/-- The second type is the first one or an ancestor of it. -/
def isSubtype (w : World) (sub type : String) : Bool := w.reaches (w.parents.length + 1) sub type

/-- The object belongs to the type, directly or through inheritance; to the root belongs anything.
-/
def isInstance (w : World) (object type : String) : Bool :=
  type == topType ||
    match w.typeOf? object with
    | some declared => w.isSubtype declared type
    | none => false

/-- The objects of a type, in order of declaration. -/
def objectsOf (w : World) (type : String) : List String :=
  (w.objects.map (·.1)).filter fun object => w.isInstance object type

/-! ## Declarations -/

/-- Replaces the value of a key, or puts a new key behind the others. -/
def setEntry (key value : String) : List (String × String) → List (String × String)
  | [] => [(key, value)]
  | (k, v) :: entries =>
    if k = key then (k, value) :: entries else (k, v) :: setEntry key value entries

/-- Declares a type, a child of the root if no parent is given.  A later declaration replaces the
parent. -/
def addType (w : World) (name : String) (parent : Option String) : World :=
  let name := Text.lowerSymbol name
  if name = topType then w
  else
    let parent := match parent with
      | some parent => Text.lowerSymbol parent
      | none => topType
    { w with parents := setEntry name parent w.parents }

/-- Declares an object; its type is declared with it if it is not known.  An object that already has
another type keeps it, which is an error. -/
def addObject (w : World) (name : Symbol) (type : String) : World × Option TypeConflict :=
  let object := Text.lowerSymbol name.name
  let type := Text.lowerSymbol type
  let w := if type ≠ topType ∧ w.parentOf? type = none then w.addType type none else w
  match w.typeOf? object with
  | none => ({ w with objects := w.objects ++ [(object, type)] }, none)
  | some previous =>
    if previous = type then (w, none) else (w, some ⟨name.rename object, previous, type⟩)

/-- Declares an object that must not conflict with an earlier declaration. -/
def declare (w : World) (name : Symbol) (type : String) : Except TypeConflict World :=
  match w.addObject name type with
  | (w, none) => .ok w
  | (_, some conflict) => .error conflict

end World

end PlanConstraints

import PlanConstraints.ActionSet.Template

set_option autoImplicit false

/-!
# Action sets: tries of parameters

All templates of one action are kept in a trie over their parameters, so that templates that start
alike are looked at together.
-/

namespace PlanConstraints

/-- A parameter together with the objects of its type, if it is a type. -/
structure Edge where
  param : Param
  members : List String
  deriving DecidableEq, Repr

namespace Edge

/-- The edge for a parameter. -/
def ofParam (w : World) (param : Param) : Edge :=
  match param with
  | .type name => ⟨param, w.objectsOf name⟩
  | _ => ⟨param, []⟩

/-- The edge can be followed with the object. -/
def accepts (edge : Edge) (object : String) : Bool :=
  match edge.param with
  | .object name => name == object
  | .any => true
  | .type _ => edge.members.contains object

theorem accepts_ofParam (w : World) (param : Param) (object : String) :
    (ofParam w param).accepts object = param.accepts w object := by
  cases param <;> rfl

end Edge

/-- The branches that leave a place of the trie: an edge, the trie below it, and the branches beside
it. -/
inductive Trie where
  | nil
  | branch (edge : Edge) (below beside : Trie)
  deriving DecidableEq, Repr

namespace Trie

def ofEdges : List Edge → Trie
  | [] => .nil
  | edge :: edges => .branch edge (ofEdges edges) .nil

/-- Adds a list of parameters, below the edges that are there for its beginning. -/
def insert (edges : List Edge) : Trie → Trie
  | .nil => ofEdges edges
  | .branch edge below beside =>
    match edges with
    | [] => .branch edge below beside
    | first :: rest =>
      if edge.param = first.param then .branch edge (insert rest below) beside
      else .branch edge below (insert edges beside)

/-- Some path of the trie accepts the objects one by one.  There is a path for no object. -/
def accepts (objects : List String) : Trie → Bool
  | .nil => objects.isEmpty
  | .branch edge below beside =>
    match objects with
    | [] => true
    | object :: rest => (edge.accepts object && accepts rest below) || accepts objects beside

end Trie

/-- The templates of one action. -/
structure Matcher where
  action : String
  /-- Number of parameters of the action. -/
  arity : Nat
  trie : Trie
  deriving DecidableEq, Repr

namespace Matcher

/-- Some template describes the action with the given objects. -/
def accepts (m : Matcher) (objects : List String) : Bool :=
  objects.length == m.arity && m.trie.accepts objects

end Matcher

end PlanConstraints

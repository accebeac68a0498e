import PlanConstraints.ActionSet.Trie

set_option autoImplicit false

/-!
# Action sets: named sets of ground actions

An action set is declared by a block of templates and holds the ground actions that one of them
describes.  The block is kept as it was read, since a class of properties fills in its own
parameters there.
-/

namespace PlanConstraints

/-- The declaration of an action set: its name and the words of each template. -/
structure SetBlock where
  name : Symbol
  lines : List (List Symbol)
  deriving DecidableEq

namespace SetBlock

/-- The argument for a word, if that is one of the parameters. -/
def argumentFor (params args : List Symbol) (word : Symbol) : Symbol :=
  match (params.zip args).find? fun pair => pair.1.name = word.name with
  | some (_, arg) => word.rename arg.name
  | none => word

/-- The name of an instance: the arguments are put behind the name, each after an underscore. -/
def instanceName (name : String) (args : List Symbol) : String :=
  args.foldl (fun name arg => name ++ "_" ++ arg.name) name

/-- The block with arguments in the place of parameters. -/
def instantiate (b : SetBlock) (params args : List Symbol) : SetBlock :=
  ⟨b.name.rename (instanceName b.name.name args),
    b.lines.map fun line => line.map (argumentFor params args)⟩

/-- The text of the block in a property file. -/
def text (b : SetBlock) : String :=
  "set " ++ b.name.name ++ " " ++ toString b.lines.length ++ "\n"
    ++ String.join (b.lines.map fun line => " ".intercalate (line.map Symbol.name) ++ "\n")

end SetBlock

/-- A named set of ground actions. -/
structure ActionSet where
  block : SetBlock
  templates : List Template
  /-- The templates by action, in order of the first template of each. -/
  matchers : List Matcher
  deriving DecidableEq

namespace ActionSet

def name (s : ActionSet) : String := s.block.name.name

/-- Adds a template to the matcher of its action, or as a new matcher.  The action is given as it is
written, for the error that it has another number of parameters in an earlier template. -/
def addTemplate (w : World) (set : String) (action : Symbol) (t : Template) :
    List Matcher → Except TemplateError (List Matcher)
  | [] => .ok [⟨t.name, t.arity, Trie.ofEdges (t.params.map (Edge.ofParam w))⟩]
  | m :: rest =>
    if m.action = t.name then
      if m.arity = t.arity then
        .ok ({ m with trie := m.trie.insert (t.params.map (Edge.ofParam w)) } :: rest)
      else .error (.arityMismatch set (action.rename t.name) m.arity t.arity)
    else
      match addTemplate w set action t rest with
      | .error e => .error e
      | .ok rest => .ok (m :: rest)

/-- Reads the templates of a block behind those that have been read. -/
def readLines (w : World) (set : Symbol) (templates : List Template) (matchers : List Matcher) :
    List (List Symbol) → Except TemplateError (List Template × List Matcher)
  | [] => .ok (templates, matchers)
  | [] :: _ => .error (.emptyTemplate set)
  | (action :: params) :: rest =>
    match traverse (Template.readParam w) params with
    | .error e => .error e
    | .ok params =>
      let t : Template := ⟨Text.lowerSymbol action.name, params⟩
      match addTemplate w set.name action t matchers with
      | .error e => .error e
      | .ok matchers => readLines w set (templates ++ [t]) matchers rest

def ofBlock (w : World) (b : SetBlock) : Except TemplateError ActionSet :=
  match readLines w b.name [] [] b.lines with
  | .error e => .error e
  | .ok (templates, matchers) => .ok ⟨b, templates, matchers⟩

/-- The ground action belongs to the set. -/
def contains (s : ActionSet) (name : String) (objects : List String) : Bool :=
  let name := Text.lowerCase name
  match s.matchers.find? fun m => m.action = name with
  | some m => m.accepts (objects.map Text.lowerSymbol)
  | none => false

/-- The words of the name of an operator, which may be in parentheses. -/
def operatorWords (operator : String) : List String :=
  let trimmed := Text.trim operator.toList
  let inner := match trimmed with
    | '(' :: rest => if rest.getLast? = some ')' then rest.dropLast else trimmed
    | _ => trimmed
  (Text.words inner).map String.ofList

/-- The ground action that the name of an operator spells out belongs to the set. -/
def containsOperator (s : ActionSet) (operator : String) : Bool :=
  match operatorWords operator with
  | [] => false
  | name :: objects => s.contains name objects

def text (s : ActionSet) : String :=
  s.name ++ ": \x7b" ++ ", ".intercalate (s.templates.map Template.text) ++ "\x7d"

end ActionSet

/-! ## Collections -/

/-- Action sets with different names, in order of declaration. -/
structure ActionSets where
  sets : List ActionSet
  deriving DecidableEq

namespace ActionSets

def empty : ActionSets := ⟨[]⟩

def get? (c : ActionSets) (name : String) : Option ActionSet := c.sets.find? fun s => s.name = name

def contains (c : ActionSets) (name : String) : Bool := (c.get? name).isSome

/-- Adds a set, unless there is one of its name; also tells whether it was added. -/
def add (c : ActionSets) (s : ActionSet) : ActionSets × Bool :=
  if c.contains s.name then (c, false) else (⟨c.sets ++ [s]⟩, true)

def names (c : ActionSets) : List String := c.sets.map ActionSet.name

end ActionSets

end PlanConstraints

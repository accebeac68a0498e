import PlanConstraints.Compile.Basic
import PlanConstraints.Formula.Clause
import PlanConstraints.Traverse

set_option autoImplicit false

/-!
# Compiling temporal properties

Every temporal property is followed by an automaton.  The states and transitions of all automata
become part of the task, whose operators and the transitions of each automaton take strict turns:
after every operator of the task each automaton makes one transition, which reads the facts of the
state reached and the action sets used so far.
-/

namespace PlanConstraints

/-! ## Automata of properties -/

/-- The name under which a translator sees the atom of a number. -/
def genericName (number : Nat) : String := "c" ++ toString number

/-- Atoms with their generic names. -/
def genericTable (atoms : List Symbol) : List (String × String) :=
  atoms.zipIdx.map fun (a, i) => (a.name, genericName i)

/-- Generic names with their atoms, and the names that translators have for truth. -/
def atomTable (atoms : List Symbol) : List (String × Symbol) :=
  (atoms.zipIdx.map fun (a, i) => (genericName i, a))
    ++ [("true", .ofName "true"), ("1", .ofName "true")]

/-- The formula of a property as a translator sees it: with generic names in the place of the atoms,
since it may not take the characters of the names of facts. -/
def genericFormula (p : Property) : Except CompileError String :=
  match p.formula.renameAtoms (genericTable p.formula.constants) with
  | .error e => .error (.formula p.name e)
  | .ok generic => .ok generic.infixed

/-- The automaton of a property, by the answer of a translator about its formula.  The description
says where the never-claim comes from. -/
def automatonOfAnswer (p : Property) (description : String)
    (answer : Except TranslatorError String) : Except CompileError (Automaton Symbol) :=
  match answer with
  | .error e => .error (.translator p.name e)
  | .ok claim =>
    match NeverClaim.toAutomaton p.name.name ⟨claim, some description⟩ with
    | .error e => .error (.automaton p.name e)
    | .ok automaton =>
      match automaton.renameAtoms (atomTable p.formula.constants) with
      | .error e => .error (.formula p.name e)
      | .ok automaton => .ok automaton

def automatonOf (translator : Translator) (p : Property) :
    Except CompileError (Automaton Symbol) :=
  match genericFormula p with
  | .error e => .error e
  | .ok formula =>
    automatonOfAnswer p (translator.describe formula) (translator.translate formula)

/-! ## Auxiliary variables -/

/-- A task with its auxiliary variables: each tells whether a fact is true, for a fact that is
negated somewhere. -/
structure Tracked where
  task : Task
  trackers : List (Fact × VarId)

/-- What an operator does to the auxiliary variable of a fact: it follows each of its effects on the
variable of the fact. -/
def trackingEffects (f : Fact) (tracker : VarId) (op : Operator) : List Effect :=
  (op.effects.filter fun e => e.var == f.var).map fun e =>
    ⟨tracker, none, if e.post = f.value then 1 else 0, e.conditions⟩

/-- The auxiliary variable of a fact, added to the task if there is none. -/
def Tracked.track (m : Tracked) (f : Fact) (atom : String) : Tracked × VarId :=
  match m.trackers.lookup f with
  | some var => (m, var)
  | none =>
    let var := m.task.nextVar
    let init := if f.holds m.task.init then 1 else 0
    let t := m.task.addStateVariable ["false_aux_" ++ atom, "true_aux_" ++ atom] init
    let t := t.mapOperators fun op =>
      { op with effects := op.effects ++ trackingEffects f var op }
    (⟨t, m.trackers ++ [(f, var)]⟩, var)

/-! ## Transitions -/

/-- What the atoms of a guard refer to. -/
structure Scope where
  options : CompileOptions
  usedVars : List (String × VarId)
  /-- The property whose automaton is compiled. -/
  property : Symbol

/-- The condition that a literal puts on a variable. -/
def Scope.literalTest (s : Scope) (m : Tracked) (l : Literal Symbol) :
    Except CompileError (Tracked × Fact) :=
  match s.usedVars.lookup l.atom.name with
  | some var => .ok (m, ⟨var, if l.negated then 0 else 1⟩)
  | none =>
    match m.task.findFact? l.atom.name with
    | none => .error (.unknownFact s.property l.atom)
    | some f =>
      if !l.negated then .ok (m, f)
      else
        let size := match m.task.vars[f.var]? with
          | some v => v.values.length
          | none => 0
        if size = 2 then .ok (m, ⟨f.var, 1 - f.value⟩)
        else if s.options.auxiliaryVariables then
          let (m, var) := m.track f l.atom.name
          .ok (m, ⟨var, 0⟩)
        else .error (.unsupportedNegation s.property l.atom size)

/-- Adds the condition of a literal to those of a clause. -/
def Scope.addTest (s : Scope) (state : Tracked × List Fact) (l : Literal Symbol) :
    Except CompileError (Tracked × List Fact) :=
  match s.literalTest state.1 l with
  | .error e => .error e
  | .ok (m, f) => .ok (m, if state.2.contains f then state.2 else state.2 ++ [f])

/-- Two of the conditions are on the same variable. -/
def isConflicting : List Fact → Bool
  | [] => false
  | f :: fs => (fs.any fun g => g.var == f.var) || isConflicting fs

/-- A transition with what its operators have in common. -/
structure Move where
  name : String
  effects : List Effect

/-- The operator for a clause of a guard; its number is part of its name if there are more. -/
def Move.operator (move : Move) (number? : Option Nat) (tests : List Fact) : Operator where
  name := match number? with
    | some number => move.name ++ " [" ++ toString number ++ "]"
    | none => move.name
  prevail := tests
  effects := move.effects
  cost := 0

/-- Adds the operator for a clause, unless the clause cannot be true. -/
def Scope.addClause (s : Scope) (move : Move) (several : Bool) (state : Tracked × List Operator)
    (clause : Clause Symbol × Nat) : Except CompileError (Tracked × List Operator) :=
  match foldSteps s.addTest (state.1, []) clause.1 with
  | .error e => .error e
  | .ok (m, tests) =>
    if clause.1.isContradictory || isConflicting tests then .ok (m, state.2)
    else
      .ok (m, state.2 ++ [move.operator (if several then some clause.2 else none) tests])

/-- The variables for the state of an automaton. -/
structure AutomatonVars where
  position : VarId
  accepting : VarId

/-- What a transition does: it moves on, and sets the acceptance according to the mode. -/
def transitionEffects (acceptance : Acceptance)
    (vars : AutomatonVars) (source target : State Symbol) :
    List Effect :=
  let value (s : State Symbol) : Nat := if s.isAccepting then 1 else 0
  .assign vars.position (some source.id) target.id ::
    if acceptance = .exact || target.isAccepting then
      [.assign vars.accepting (some (value source)) (value target)]
    else []

/-- Adds the operators for a transition, one for every clause of its guard. -/
def Scope.addTransition (s : Scope) (a : Automaton Symbol) (vars : AutomatonVars)
    (state : Tracked × List Operator) (t : Transition Symbol) :
    Except CompileError (Tracked × List Operator) :=
  match a.state? t.source, a.state? t.target with
  | some source, some target =>
    let move : Move :=
      ⟨a.name ++ ": " ++ a.transitionName t,
        transitionEffects s.options.acceptance vars source target⟩
    if t.guard.isTrue then .ok (state.1, state.2 ++ [move.operator none []])
    else
      match t.guard.toDnf.clauses with
      | .error e => .error (.formula s.property e)
      | .ok clauses => foldSteps (s.addClause move (clauses.length > 1)) state clauses.zipIdx
  | _, _ => .ok state

/-! ## Automata in the task -/

/-- The values for the state of an automaton; there are at least two. -/
def positionValues (a : Automaton Symbol) : List String :=
  let place (word : String) (s : State Symbol) : String :=
    word ++ "(" ++ s.name ++ "," ++ a.name ++ ")"
  match a.states with
  | [s] => [place "at" s, place "not_at" s]
  | states => states.map (place "at")

def acceptingValues (softMark : String) (soft : Bool) (name : String) : List String :=
  ["not_accepting(" ++ name ++ ")",
    (if soft then softMark else "") ++ "accepting(" ++ name ++ ")"]

/-- Adds the variables for an automaton; its acceptance becomes a goal if goals are added. -/
def addAutomaton (options : CompileOptions) (soft : Bool) (t : Task) (a : Automaton Symbol) :
    Task × AutomatonVars :=
  let position := t.nextVar
  let t := t.addStateVariable (positionValues a) a.initial
  let accepting := t.nextVar
  let initiallyAccepting := match a.state? a.initial with
    | some s => if s.isAccepting then 1 else 0
    | none => 0
  let t := t.addStateVariable (acceptingValues options.softMark soft a.name) initiallyAccepting
  let t := if options.addGoals then t.addGoal ⟨accepting, 1⟩ else t
  (t, ⟨position, accepting⟩)

/-- What has been compiled of the automata: the task, and the variables and the operators of each
automaton. -/
structure Product where
  tracked : Tracked
  vars : List AutomatonVars
  moves : List (List Operator)

/-- Adds the variables of an automaton and makes the operators for its transitions. -/
def Product.add (options : CompileOptions) (usedVars : List (String × VarId)) (product : Product)
    (p : Property × Automaton Symbol) : Except CompileError Product :=
  let (t, vars) := addAutomaton options p.1.soft product.tracked.task p.2
  let scope : Scope := ⟨options, usedVars, p.1.name⟩
  match foldSteps (scope.addTransition p.2 vars) ({ product.tracked with task := t }, [])
      p.2.transitions with
  | .error e => .error e
  | .ok (m, ops) => .ok ⟨m, product.vars ++ [vars], product.moves ++ [ops]⟩

/-! ## Taking turns -/

def turnValues (automata : List (Automaton Symbol)) : List String :=
  "sync(world)" :: automata.map fun a => "sync(" ++ a.name ++ ")"

/-- The operator is applicable only in its turn, and passes it on to the next of `count`. -/
def takeTurn (turn : VarId) (count owner : Nat) (op : Operator) : Operator :=
  op.addEffect (.assign turn (some owner) ((owner + 1) % count))

/-- The operators of the automata, each in the turn of its automaton; the first one is in the turn
`owner`. -/
def movesInTurn (turn : VarId) (count owner : Nat) : List (List Operator) → List Operator
  | [] => []
  | ops :: more => ops.map (takeTurn turn count owner) ++ movesInTurn turn count (owner + 1) more

/-- Adds the variable for whose turn it is; if goals are added, plans end in the turn of the task.
-/
def addTurns (options : CompileOptions) (t : Task) (automata : List (Automaton Symbol)) : Task :=
  let turned := t.addStateVariable (turnValues automata) 0
  if options.addGoals then turned.addGoal ⟨t.nextVar, 0⟩ else turned

/-- The task with the operators of the automata, all of them in turns. -/
def Product.inTurns (product : Product) (turn : VarId) (count : Nat) : Task :=
  let t := product.tracked.task.mapOperators (takeTurn turn count 0)
  { t with operators := t.operators ++ movesInTurn turn count 1 product.moves }

/-! ## Compilation -/

/-- The task in which the use of action sets is recorded. -/
def recordingOf (t : Task) (set : PropertySet) : Recording :=
  recordSets t t.operators.length set.actionSets

/-- Compiles the automata of the temporal properties, whose operators do not take turns yet. -/
def productOf (options : CompileOptions) (t : Task) (set : PropertySet)
    (automata : List (Automaton Symbol)) : Except CompileError Product :=
  let recording := recordingOf t set
  foldSteps (Product.add options recording.usedVars)
    ⟨⟨addTurns options recording.task automata, []⟩, [], []⟩ (set.temporal.zip automata)

/-- Compiles the temporal properties, with their automata, into a task. -/
def compileAutomata (options : CompileOptions) (t : Task) (set : PropertySet)
    (automata : List (Automaton Symbol)) : Except CompileError Compiled :=
  if set.temporal.isEmpty then .ok ⟨t, [], [], [], [], 0⟩
  else
    match productOf options t set automata with
    | .error e => .error e
    | .ok product =>
      let recording := recordingOf t set
      .ok
        { task := product.inTurns recording.task.nextVar (set.temporal.length + 1)
          usedVars := recording.usedVars
          propertyVars := []
          emptySets := recording.emptySets
          automata := automata.map fun a => (a.name, a.states.length)
          auxiliary := product.tracked.trackers.length }

/-- Compiles the temporal properties into a task. -/
def compileTemporal (options : CompileOptions) (translator : Translator) (t : Task)
    (set : PropertySet) : Except CompileError Compiled :=
  match traverse (automatonOf translator) set.temporal with
  | .error e => .error e
  | .ok automata => compileAutomata options t set automata

end PlanConstraints

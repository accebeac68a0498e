import PlanConstraints.Compile.ActionSets
import PlanConstraints.Compile.Temporal
import PlanConstraints.File.Tree
import PlanConstraints.Formula.NormalForm
import PlanConstraints.Property.Basic

set_option autoImplicit false

/-!
# What is made of properties

Properties of either dialect are compiled into a task (`compile`), or property files are written for
pairs of them (`Exclusivity.write`).

Whether a property can hold without another one is a property again.  For every ordered pair of
properties with different names there is a property file with this single property and the action
sets it needs: a plan that satisfies it shows that the first property does not entail the second.
-/

namespace PlanConstraints

/-- Compiles the properties of a dialect into a task. -/
def compile (dialect : Dialect) (options : CompileOptions) (translator : Translator) (t : Task)
    (set : PropertySet) : Except CompileError Compiled :=
  match dialect with
  | .actionSets => compileActionSets options t set
  | .temporal => compileTemporal options translator t set

/-! ## Property files for pairs of properties -/

namespace Exclusivity

/-- Causes for which the files cannot be written. -/
inductive Failure where
  /-- Only properties of the dialect of action sets can be paired. -/
  | dialect
  | folder (path : String) (error : FileError)
  | file (path : String) (error : FileError)
  deriving DecidableEq, Repr

def Failure.message : Failure → String
  | dialect => "exclusivity files can only be generated for action-set properties"
  | folder path error => "could not create the folder " ++ path ++ ": " ++ error.message
  | file path error => "could not write " ++ path ++ ": " ++ error.message

/-- The formula that is true if the first property holds and the second does not. -/
def formula (p q : Property) : Formula Symbol := (Formula.and p.formula q.formula.negate).toDnf

/-- The name of the property that the first one holds without the second, and of its file. -/
def pairName (p q : Property) : String := p.name.name ++ "-" ++ q.name.name

/-- The action sets that one of two properties uses. -/
def usedSets (set : PropertySet) (p q : Property) : List ActionSet :=
  set.actionSets.sets.filter fun s => p.usesSet s.name || q.usesSet s.name

def text (set : PropertySet) (p q : Property) : String :=
  "#" ++ p.formula.polish ++ "\n#" ++ q.formula.polish ++ "\n\n"
    ++ String.join ((usedSets set p q).map fun s => s.block.text ++ "\n")
    ++ "property " ++ pairName p q ++ "\n" ++ (formula p q).polish ++ "\n"

/-- The ordered pairs of properties with different names. -/
def pairs (set : PropertySet) : List (Property × Property) :=
  set.properties.flatMap fun p =>
    (set.properties.filter fun q => p.name.name ≠ q.name.name).map fun q => (p, q)

def path (folder : String) (p q : Property) : String := Path.inFolder folder (pairName p q)

/-- Writes the files of pairs into a folder that exists.  The answer is their paths; if a file
cannot be written, those before it stay. -/
def writePairs (files : FileTree) (set : PropertySet) (folder : String) :
    List (Property × Property) → FileTree × Except Failure (List String)
  | [] => (files, .ok [])
  | (p, q) :: more =>
    let path := path folder p q
    match files.write path (text set p q) with
    | .error e => (files, .error (.file path e))
    | .ok files =>
      match writePairs files set folder more with
      | (files, .error e) => (files, .error e)
      | (files, .ok paths) => (files, .ok (path :: paths))

/-- Writes the files of all pairs into a folder, which is made if it is missing. -/
def write (files : FileTree) (dialect : Dialect) (set : PropertySet) (folder : String) :
    FileTree × Except Failure (List String) :=
  match dialect with
  | .temporal => (files, .error .dialect)
  | .actionSets =>
    match files.makeFolders folder with
    | (files, some e) => (files, .error (.folder folder e))
    | (files, none) => writePairs files set folder (pairs set)

end Exclusivity

end PlanConstraints

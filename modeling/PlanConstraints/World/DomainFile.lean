import PlanConstraints.File.Tree
import PlanConstraints.Text.Quoted

set_option autoImplicit false

/-!
# World: the file of a domain

A problem file says nothing about the file of its domain.  By convention the domain has a name that
goes with the name of the problem and lies in the same folder or in the one above.
-/

namespace PlanConstraints

namespace DomainFile

/-- Causes for which no domain is found. -/
inductive SearchError where
  /-- The path of the problem ends in no name. -/
  | noName
  | noFile (candidates : List String)
  deriving DecidableEq, Repr

def SearchError.message : SearchError → String
  | noName => "Invalid file"
  | noFile candidates =>
    "Could not find a domain file in the same or parent directory as the problem file. "
      ++ "Candidates: [" ++ ", ".intercalate (candidates.map Text.quoted) ++ "]"

/-- What stands in front of an ending: some characters, none of which is a line feed. -/
def stem? (ending : String) (name : List Char) : Option (List Char) :=
  let stem := name.take (name.length - ending.length)
  if stem ≠ [] ∧ '\n' ∉ stem ∧ name = stem ++ ending.toList then some stem else none

/-- The number in the name of a numbered problem. -/
def number? (name : List Char) : Option (List Char) :=
  let start := "instance-".toList
  match stem? ".pddl" name with
  | none => none
  | some stem =>
    let digits := stem.drop start.length
    if start.isPrefixOf stem ∧ digits ≠ [] ∧ digits.all Char.isDigit then some digits else none

/-- The names that the domain of a problem may have, in the order in which they are looked for. -/
def candidates (problemName : String) : List String :=
  let name := problemName.toList
  let pair := match stem? ".pb.pddl" name with
    | some stem => [String.ofList stem ++ ".dom.pddl"]
    | none => []
  let single := match stem? ".pddl" name with
    | some stem =>
      [String.ofList stem ++ "-domain.pddl", "domain-" ++ String.ofList stem ++ ".pddl"]
    | none => []
  let numbered := match number? name with
    | some digits => ["domain-" ++ String.ofList digits ++ ".pddl"]
    | none => []
  "domain.pddl" :: (pair ++ single ++ numbered)

/-- The folders in which the domain of a problem may lie: that of the problem and the one above. -/
def searchedFolders (problem : Path) : List Path :=
  match problem.folder? with
  | none => []
  | some folder =>
    match folder.folder? with
    | none => [folder]
    | some outer => [folder, outer]

def find (files : FileTree) (problem : String) : Except SearchError String :=
  let path := Path.ofText problem
  match path.fileName? with
  | none => .error .noName
  | some name =>
    let names := candidates name
    let paths := names.flatMap fun name =>
      (searchedFolders path).map fun folder => Path.inFolder folder.text name
    match paths.find? files.contains with
    | some path => .ok path
    | none => .error (.noFile names)

end DomainFile

end PlanConstraints

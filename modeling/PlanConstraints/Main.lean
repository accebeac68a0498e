import PlanConstraints.CommandLine.Run
import PlanConstraints.Program.Known

set_option autoImplicit false

/-!
# The program

Reads the files that a run may look at, runs, and writes the files that the run has changed.
-/

namespace PlanConstraints.CommandLine

/-- What is found on disk at a path. -/
def diskEntry? (path : String) : IO (Option Entry) := do
  let here ← IO.currentDir
  try
    let _ ← (here / path).readDir
    return some .folder
  catch _ =>
    try
      let bytes ← IO.FS.readBinFile path
      return some (.ofBytes bytes.toList)
    catch _ => return none

/-- Copies what is found on disk on the way to a path. -/
def load (files : FileTree) (path : String) : IO FileTree := do
  let mut files := files
  for p in (Path.ofText path).folders.reverse do
    match files.resolve p with
    | .ok (.absent address) =>
      match ← diskEntry? p.text with
      | some e => files := files.setEntry address e
      | none => pure ()
    | _ => pure ()
  return files

/-- The paths at which a run may look. -/
def pathsOf (o : Options) : List String :=
  let search (problem : String) : List String :=
    (searchedIn problem).flatMap fun folder =>
      (DomainFile.candidates (((Path.ofText problem).fileName?).getD "")).map fun name =>
        Path.inFolder folder name
  o.properties :: (o.sas.toList ++ o.problem.toList ++ o.domain.toList ++ o.output.toList
    ++ o.exclusivityFolder.toList ++ o.problem.toList.flatMap search)
where
  searchedIn (problem : String) : List String :=
    (DomainFile.searchedFolders (.ofText problem)).map Path.text

/-- The files that a run may look at.  A translator may look at any file of the current folder. -/
def loadFor (o : Options) : IO FileTree := do
  let here ← IO.currentDir
  let start := Program.system.makeFolders here.toString
  let address := (Path.ofText here.toString).pieces.filter Path.isStep
  let mut files : FileTree := { start.1 with start := address }
  for path in pathsOf o do
    files ← load files path
  if o.dialect = .temporal then
    for e in ← here.readDir do
      files ← load files e.fileName
  return files

/-- Writes what a run has changed. -/
def store (before after : FileTree) : IO Unit := do
  for (address, e) in after.entries do
    let path := "/" ++ String.ofList (Text.join '/' address)
    if before.get? address ≠ some e then
      match e with
      | .folder => IO.FS.createDirAll path
      | .text content => IO.FS.writeFile path content
      | .bytes content => IO.FS.writeBinFile path ⟨content.toArray⟩
      | .device _ | .program _ => pure ()

/-- The environment, as far as a run looks at it, and that of programs. -/
def loadEnvironment : IO (Environment × List (Bytes × Bytes)) := do
  let names := [translatorProgram.variableName, translatorFlag.variableName, softMark.variableName]
  let mut held : List (String × String) := []
  for name in names do
    match ← IO.getEnv name with
    | some value => held := (name, value) :: held
    | none => pure ()
  let value (name : String) : EnvValue :=
    match held.lookup name with
    | some value => .set value
    | none => .unset
  return (value, Program.environment ++ held.map fun (n, v) => (Bytes.ofText n, Bytes.ofText v))

end PlanConstraints.CommandLine

open PlanConstraints CommandLine in
def main (args : List String) : IO UInt32 := do
  match Options.ofArgs args with
  | .error e =>
    IO.eprintln e.message
    return e.exitCode.toUInt32
  | .ok o =>
    let files ← loadFor o
    let (settings, environment) ← loadEnvironment
    let result := (runOptions o ⟨settings, Program.run, environment⟩ files).toResult
    store files result.files
    IO.print result.output
    match result.error with
    | some m => IO.eprintln (report m)
    | none => pure ()
    return result.exitCode.toUInt32

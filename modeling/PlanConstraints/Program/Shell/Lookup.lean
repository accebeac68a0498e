import PlanConstraints.Program.Shell.Builtin.Folder

set_option autoImplicit false

/-!
# Shell: what the names of commands stand for

A name stands for a command of the shell, for a function that a script has defined, or for a
program, which is looked for in the folders of a list.
-/

namespace PlanConstraints.Shell

/-- The names of commands of the shell that are not special. -/
def plainNames : List String :=
  ["[", "alias", "bg", "cd", "chdir", "command", "echo", "false", "fg", "getopts", "hash", "jobs",
    "kill", "printf", "pwd", "read", "test", "true", "type", "ulimit", "umask", "unalias", "wait"]

/-- What the name of a command stands for. -/
inductive Meaning where
  | builtin (special : Bool)
  | function (c : Command)
  /-- A program of a name, which lies at a path. -/
  | program (path : Bytes) (name : String)
  /-- A file that is not a program. -/
  | file (path : Bytes)
  | unknown (reason : String)

/-- Where programs are looked for if nothing is said about that. -/
def usualFolders : Bytes :=
  "/usr/local/sbin:/usr/local/bin:/usr/sbin:/usr/bin:/sbin:/bin".toList

/-- Looks for a program in folders; `reason` is why none has been found yet. -/
def findProgram (files : FileTree) (name : Bytes) (reason : String) : List Bytes → Meaning
  | [] => .unknown reason
  | folder :: more =>
    let path := inFolder folder name
    match files.resolve (.ofText path.text) with
    | .ok (.found _ (.program program)) => .program path program
    | .ok (.found _ _) => findProgram files name "Permission denied" more
    | .error .nameTooLong => findProgram files name "File name too long" more
    | _ => findProgram files name reason more

def meaningOfPath (files : FileTree) (path : Bytes) : Meaning :=
  match files.resolve (.ofText path.text) with
  | .ok (.found _ (.program program)) => .program path program
  | .ok (.found _ _) => .file path
  | .error .nameTooLong => .unknown "File name too long"
  | _ => .unknown "not found"

def programOf (files : FileTree) (folders? : Option Bytes) (name : Bytes) : Meaning :=
  if name.contains '/' then meaningOfPath files name
  else findProgram files name "not found" (splitColons (folders?.getD usualFolders))

def State.programOf (s : State) (name : Bytes) : Meaning :=
  Shell.programOf s.system.files (s.parameter? "PATH".toList) name

def State.meaningOf (s : State) (functions : Bool) (name : Bytes) : Meaning :=
  let text := String.ofList name
  match if functions then s.functions.lookup name else none with
  | some c => .function c
  | none =>
    if text = "local" ∨ specialNames.contains text then .builtin true
    else if plainNames.contains text then .builtin false
    else s.programOf name

def noteFound (name : Bytes) : Action Unit :=
  modify fun s =>
    if name.contains '/' ∨ s.found.contains name then s else { s with found := s.found ++ [name] }

/-! ## Telling what names stand for -/

/-- Tells what a name stands for, in words or so that a script can use it. -/
def describe (inWords : Bool) (name : Bytes) : Action Unit := do
  let s ← get
  let line (words short : Bytes) : Action Unit :=
    out ((if inWords then name ++ words else short) ++ ['\n'])
  if keywords.contains (String.ofList name) then line " is a shell keyword".toList name
  else
    match s.aliases.lookup name with
    | some text =>
      line (" is an alias for ".toList ++ text)
        ("alias ".toList ++ name ++ '=' :: singleQuoted text)
    | none =>
      match s.meaningOf true name with
      | .builtin special =>
        line (if special then " is a special shell builtin" else " is a shell builtin").toList name
      | .function _ => line " is a shell function".toList name
      | .program path _ =>
        let known := s.found.contains name
        noteFound name
        line ((if known then " is a tracked alias for " else " is ").toList ++ path) path
      | .file path => line (" is ".toList ++ path) path
      | .unknown _ =>
        if inWords then out (name ++ ": not found\n".toList)
        setLast 127

def describeAll (args : List Bytes) : Action Unit := do
  let (_, args) ← lettersOf "" "" args
  setLast 0
  args.forM (describe true)

/-- Tells what a name stands for, as an option asks for it. -/
def describeOne (args : List Bytes) : Action Unit := do
  let (letters, args) ← lettersOf "pvV" "" args
  setLast 0
  let asked := letters.filter fun l => l.1 != 'p'
  match asked, args with
  | _ :: _, name :: _ => describe (asked.any fun l => l.1 == 'V') name
  | _, _ => pure ()

/-- Lists the programs that have been found, looks for others, or forgets them. -/
def hash (args : List Bytes) : Action Unit := do
  let (letters, args) ← lettersOf "r" "" args
  setLast 0
  if letters.any fun l => l.1 == 'r' then modify fun s => { s with found := [] }
  else if args.isEmpty then
    for name in (← get).found do
      match (← get).programOf name with
      | .program path _ => out (path ++ ['\n'])
      | _ => pure ()
  else
    for name in args do
      let s ← get
      match s.meaningOf true name with
      | .program _ _ => noteFound name
      | .unknown reason =>
        complain (name ++ ": ".toList ++ reason.toList)
        setLast 1
      | _ => pure ()

end PlanConstraints.Shell

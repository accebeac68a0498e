import PlanConstraints.Program.Tool.Job

set_option autoImplicit false

/-!
# Tools: names of files

The folder and the name of a file are taken from its path.
-/

namespace PlanConstraints.Tool

/-- The text without slashes at its end; a path of nothing but slashes keeps one. -/
def withoutSlashes (path : Bytes) : Bytes :=
  match (path.reverse.dropWhile (· == '/')).reverse with
  | [] => if path = [] then [] else ['/']
  | cs => cs

def lastName (path : Bytes) : Bytes :=
  match withoutSlashes path with
  | ['/'] => ['/']
  | cs => (cs.reverse.takeWhile (· != '/')).reverse

def folderOf (path : Bytes) : Bytes :=
  match withoutSlashes path with
  | ['/'] => ['/']
  | cs =>
    if cs.contains '/' then
      withoutSlashes (cs.take (cs.length - (cs.reverse.takeWhile (· != '/')).length))
    else ['.']

def withoutEnding (ending name : Bytes) : Bytes :=
  if ending.length < name.length ∧ ending.isSuffixOf name
    then name.take (name.length - ending.length)
  else name

def basename : Job Unit := do
  let g ← given ⟨[letter 'a' ["multiple"], valued 's' ["suffix"], letter 'z' ["zero"]], false, 1⟩
  let ending := if g.has 'z' then '\x00' else '\n'
  let show_ (suffix path : Bytes) : Job Unit :=
    let name := lastName path
    print ((if name = ['/'] then name else withoutEnding suffix name) ++ [ending])
  match g.operands with
  | [] => refuse "missing operand".toList
  | operands =>
    if g.has 'a' || g.has 's' then operands.forM (show_ ((g.last? 's').getD []))
    else
      match operands with
      | [path] => show_ [] path
      | [path, suffix] => show_ suffix path
      | _ => refuse ("extra operand ".toList ++ quoted ((operands[2]?).getD []))

/-- Prints the folders that paths lead into. -/
def dirname : Job Unit := do
  let g ← given ⟨[letter 'z' ["zero"]], false, 1⟩
  let ending := if g.has 'z' then '\x00' else '\n'
  match g.operands with
  | [] => refuse "missing operand".toList
  | operands => operands.forM fun path => print (folderOf path ++ [ending])

/-- The path of the folder in which relative paths start. -/
def hereOf (files : FileTree) : Bytes :=
  if files.start = [] then ['/']
  else .ofText (String.ofList (files.start.flatMap fun name => '/' :: name))

/-- Prints the path of the folder in which relative paths start. -/
def pwd : Job Unit := do
  let _ ← given ⟨[letter 'L' ["logical"], letter 'P' ["physical"]], true, 1⟩
  print (hereOf (← get).files ++ ['\n'])

def plainAddress (files : FileTree) (path : Bytes) : List Bytes :=
  let pieces := Text.split '/' path
  let start := if path.head? = some '/' then []
    else files.start.map fun name => Bytes.ofText (String.ofList name)
  pieces.foldl (fun address piece =>
    if piece = [] ∨ piece = ['.'] then address
    else if piece = ['.', '.'] then address.dropLast
    else address ++ [piece]) start

def realpath (all : Bool) : Job Unit := do
  let g ← given ⟨[letter 'e' ["canonicalize-existing"], letter 'm' ["canonicalize-missing"],
    letter 'f' ["canonicalize"], letter 's' ["strip", "no-symlinks"], letter 'q' ["quiet"],
    letter 'n' ["no-newline"]], true, 1⟩
  match g.operands with
  | [] => refuse "missing operand".toList
  | operands =>
    for path in operands do
      let files := (← get).files
      let found := match files.resolve (.ofText path.text) with
        | .ok (.found _ _) => true
        | .ok (.absent _) => !g.has 'e'
        | .error _ => g.has 'm'
      if !all && !g.has 'f' && !g.has 'e' && !g.has 'm' then note 1
      else if found then
        let address := plainAddress files path
        print ((if address.isEmpty then ['/'] else address.flatMap fun name => '/' :: name)
          ++ (if g.has 'n' then [] else ['\n']))
      else if all then failOn (fileName path ++ ": No such file or directory".toList)
      else note 1

end PlanConstraints.Tool

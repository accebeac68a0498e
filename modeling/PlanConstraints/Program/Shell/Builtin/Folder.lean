import PlanConstraints.Program.Shell.Builtin.Control

set_option autoImplicit false

/-!
# Shell: commands of the shell about the surroundings

The folder in which relative paths start, the rights of new files, and limits.
-/

namespace PlanConstraints.Shell

/-! ## Folders -/

def pathOf (address : Address) : Bytes :=
  if address = [] then ['/']
  else .ofText (String.ofList (address.flatMap fun name => '/' :: name))

def State.folder (s : State) : Bytes := pathOf s.system.files.start

def splitColons (text : Bytes) : List Bytes := Text.split ':' text

def inFolder (folder name : Bytes) : Bytes := if folder = [] then name else folder ++ '/' :: name

/-- Goes to a folder; tells whether there is one. -/
def goTo (path : Bytes) : Action Bool := do
  let s ← get
  match s.system.files.resolve (.ofText path.text) with
  | .ok (.found address .folder) =>
    let old := s.folder
    set { s with system := { s.system with files := { s.system.files with start := address } } }
    let seen (v : Variable) : Variable := { v with exported := true }
    setValue "OLDPWD".toList old
    markVariable "OLDPWD".toList seen
    setValue "PWD".toList (pathOf address)
    markVariable "PWD".toList seen
    return true
  | _ => return false

def goToFirst (name : Bytes) : List Bytes → Action (Option Bytes)
  | [] => return none
  | folder :: more => do
    if ← goTo (inFolder folder name) then return some folder else goToFirst name more

def startsHere (path : Bytes) : Bool :=
  match path.takeWhile (· != '/') with
  | [] => path != []
  | ['.'] | ['.', '.'] => true
  | _ => false

/-- Goes to a folder: that of the user, the last one, or one that is named. -/
def changeFolder (args : List Bytes) : Action Unit := do
  let (_, args) ← lettersOf "LP" "" args
  let s ← get
  let dest := match args.head? with
    | none => (s.parameter? "HOME".toList).getD []
    | some ['-'] => (s.parameter? "OLDPWD".toList).getD []
    | some path => path
  let listed := if startsHere dest then [] else splitColons ((s.parameter? "CDPATH".toList).getD [])
  match ← goToFirst (if dest = [] then ['.'] else dest) (listed ++ [[]]) with
  | none => fail ("can't cd to ".toList ++ dest)
  | some folder =>
    setLast 0
    if args.head? = some ['-'] ∨ folder ≠ [] then out ((← get).folder ++ ['\n'])

def printFolder (args : List Bytes) : Action Unit := do
  let _ ← lettersOf "LP" "" args
  setLast 0
  out ((← get).folder ++ ['\n'])

/-! ## Rights -/

def rightLetters (bits : Nat) : Bytes :=
  (if bits / 4 % 2 = 1 then ['r'] else []) ++ (if bits / 2 % 2 = 1 then ['w'] else [])
    ++ (if bits % 2 = 1 then ['x'] else [])

def rightBits (letters : Bytes) : Option Nat :=
  if letters.all "rwxXst".toList.contains then
    some ((if letters.contains 'r' then 4 else 0) + (if letters.contains 'w' then 2 else 0)
      + (if letters.contains 'x' ∨ letters.contains 'X' then 1 else 0))
  else none

/-- The rights behind a change of those of some users by one clause. -/
def changeRights (rights : Nat) (clause : Bytes) : Option Nat :=
  let users := clause.takeWhile "ugoa".toList.contains
  match clause.drop users.length with
  | sign :: letters =>
    if sign = '=' ∨ sign = '+' ∨ sign = '-' then
      (rightBits letters).map fun bits =>
        let all := users = [] ∨ users.contains 'a'
        let change (user : Char) (shift : Nat) : Nat :=
          let old := rights / shift % 8
          let new := if !all && !users.contains user then old
            else if sign = '=' then bits
            else if sign = '+' then old ||| bits
            else old ^^^ (old &&& bits)
          new * shift
        change 'u' 64 + change 'g' 8 + change 'o' 1
    else none
  | [] => none

def octalValue? (digits : Bytes) : Option Nat :=
  if digits.all fun c => '0' ≤ c ∧ c ≤ '7'
    then some (digits.foldl (fun n c => n * 8 + (c.toNat - '0'.toNat)) 0)
  else none

/-- Prints the rights that new files do not have, or sets them. -/
def setMask (args : List Bytes) : Action Unit := do
  let (letters, args) ← lettersOf "S" "" args
  let s ← get
  setLast 0
  match args with
  | [] =>
    if letters.isEmpty then
      out ('0' :: [64, 8, 1].map (fun n => Char.ofNat ('0'.toNat + s.mask / n % 8)) ++ ['\n'])
    else
      let rights := 0o777 - s.mask
      out ("u=".toList ++ rightLetters (rights / 64)
        ++ ",g=".toList ++ rightLetters (rights / 8 % 8)
        ++ ",o=".toList ++ rightLetters (rights % 8) ++ ['\n'])
  | arg :: _ =>
    if arg.head?.any Char.isDigit then
      match octalValue? arg with
      | some n => set { s with mask := n % 0o1000, last := 0 }
      | none => fail ("Illegal number: ".toList ++ arg)
    else
      let rights := (Text.split ',' arg).foldl (fun r clause => r.bind (changeRights · clause))
        (some (0o777 - s.mask))
      match rights with
      | some rights => set { s with mask := 0o777 - rights, last := 0 }
      | none => fail ("Illegal mode: ".toList ++ arg)

def times : Action Unit := do
  setLast 0
  let none := "0m0.000000s 0m0.000000s\n".toList
  out (none ++ none)

/-- Prints a limit; there are none. -/
def limit (args : List Bytes) : Action Unit := do
  let (_, args) ← lettersOf "HSatfdscmlpnvwr" "" args
  setLast 0
  match args with
  | [] => out "unlimited\n".toList
  | arg :: _ =>
    if arg = "unlimited".toList ∨ (Bytes.natural? arg).isSome then pure ()
    else fail "bad number".toList

end PlanConstraints.Shell

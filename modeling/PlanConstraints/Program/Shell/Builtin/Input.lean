import PlanConstraints.Program.Shell.Builtin.Control

set_option autoImplicit false

/-!
# Shell: commands of the shell that read

Options are read from arguments one after the other, and parameters are set to the fields of a line
of the input.
-/

namespace PlanConstraints.Shell

/-! ## Options of a script -/

/-- What reading an option comes to. -/
structure OptionRead where
  /-- The letter, or a sign for what is wrong. -/
  letter : Char
  /-- What the parameter for values becomes. -/
  value : Option Bytes
  /-- What is complained about. -/
  complaint : Bytes
  /-- The argument at which reading goes on. -/
  next : Nat
  /-- The place in the argument before that. -/
  place : Nat

/-- A letter among those that are known, and whether it takes a value. -/
def findLetter (c : Char) : Bytes → Option Bool
  | [] => none
  | d :: ds =>
    if d = c then some (ds.head? == some ':')
    else
      match ds with
      | ':' :: more => findLetter c more
      | ds => findLetter c ds

/-- Reads the option whose letter stands in front of `rest` in an argument; `next` is the argument
behind that one. -/
def readOption (known : Bytes) (args : List Bytes) (c : Char) (rest : Bytes) (place next : Nat) :
    OptionRead :=
  let quiet := known.head? == some ':'
  match findLetter c (if quiet then known.tail else known) with
  | none =>
    if quiet then ⟨'?', some [c], [], next, place⟩
    else ⟨'?', none, "Illegal option -".toList ++ [c, '\n'], next, place⟩
  | some false => ⟨c, some [], [], next, place⟩
  | some true =>
    match rest, args[next - 1]? with
    | [], none =>
      if quiet then ⟨':', some [c], [], next, 0⟩
      else ⟨'?', none, "No arg for -".toList ++ c :: " option\n".toList, next, 0⟩
    | [], some value => ⟨c, some value, [], next + 1, 0⟩
    | rest, _ => ⟨c, some rest, [], next, 0⟩

/-- Reads the next option from arguments; there may be none. -/
def nextOption (known : Bytes) (args : List Bytes) (next place : Nat) : Option OptionRead :=
  let present := (args[next - 2]?).getD []
  match if 1 < next ∧ 0 < place then present.drop place else [] with
  | c :: rest => some (readOption known args c rest (place + 1) next)
  | [] =>
    match args[next - 1]? with
    | some ['-', '-'] => none
    | some ('-' :: c :: rest) => some (readOption known args c rest 2 (next + 1))
    | _ => none

/-- Reads the next option of the script, and sets parameters to what it is. -/
def getOption (args : List Bytes) : Action Unit := do
  match args with
  | known :: name :: more =>
    let s ← get
    let args := if more.isEmpty then s.args else more
    let (next, place) :=
      if args.length + 1 < s.nextArg then (1, 0) else (s.nextArg, s.letterPlace)
    match nextOption known args next place with
    | some o =>
      match o.value with
      | some value => setValue "OPTARG".toList value
      | none => unsetValue "OPTARG".toList
      if o.complaint ≠ [] then
        let _ ← write 2 o.complaint
      setValue "OPTIND".toList (Bytes.ofNat o.next)
      modify fun s => { s with letterPlace := o.place }
      setLast 0
      assignParameter name [o.letter]
    | none =>
      let next := if args[next - 1]? = some ['-', '-'] then next + 1 else next
      setValue "OPTIND".toList (Bytes.ofNat next)
      setLast 1
      assignParameter name ['?']
  | _ => fail "Usage: getopts optstring var [arg...]".toList

/-! ## Lines -/

/-- Takes a line from the front of bytes: its characters, each with whether a backslash stands
before it, whether the line has an end, and what stands behind it. -/
def splitInput (raw : Bool) : Bytes → List (Char × Bool) × Bool × Bytes
  | [] => ([], false, [])
  | '\n' :: rest => ([], true, rest)
  | '\\' :: c :: rest =>
    if raw then
      let (line, ended, behind) := splitInput raw (c :: rest)
      (('\\', false) :: line, ended, behind)
    else
      let (line, ended, behind) := splitInput raw rest
      (if c = '\n' then line else (c, true) :: line, ended, behind)
  | c :: rest =>
    let (line, ended, behind) := splitInput raw rest
    let skipped := c = '\x00' ∨ (c = '\\' ∧ !raw)
    (if skipped then line else (c, false) :: line, ended, behind)

def separatesField (separators : Bytes) (c : Char × Bool) : Bool :=
  !c.2 && separators.contains c.1

/-- The character separates fields, and counts for nothing at the ends of these. -/
def isFieldBlank (separators : Bytes) (c : Char × Bool) : Bool :=
  separatesField separators c && usualSeparators.contains c.1

/-- The first field, and what stands behind what separates it from the next one. -/
def splitField (separators : Bytes) (cs : List (Char × Bool)) :
    List (Char × Bool) × List (Char × Bool) :=
  let field := cs.takeWhile fun c => !separatesField separators c
  let rest := (cs.drop field.length).dropWhile (isFieldBlank separators)
  match rest with
  | c :: more =>
    if separatesField separators c then (field, more.dropWhile (isFieldBlank separators))
    else (field, rest)
  | [] => (field, [])

def lastField (separators : Bytes) (cs : List (Char × Bool)) : List (Char × Bool) :=
  match splitField separators cs with
  | (field, []) => field
  | _ => (cs.reverse.dropWhile (isFieldBlank separators)).reverse

def setFields (separators : Bytes) (cs : List (Char × Bool)) : List Bytes → Action Unit
  | [] => pure ()
  | [name] => assignParameter name ((lastField separators cs).map (·.1))
  | name :: names => do
    let (field, rest) := splitField separators cs
    assignParameter name (field.map (·.1))
    setFields separators rest names

/-- Sets parameters to the fields of the next line of the input. -/
def readLineInto (args : List Bytes) : Action Unit := do
  let (letters, names) ← lettersOf "r" "p" args
  if names.isEmpty then fail "arg count".toList
  match ← peek 0 with
  | .error _ =>
    names.forM fun name => assignParameter name []
    setLast 1
  | .ok bytes =>
    let (line, ended, behind) := splitInput (letters.any fun l => l.1 == 'r') bytes
    leave 0 behind
    let separators := (← get).separators?.getD usualSeparators
    setFields separators (line.dropWhile (isFieldBlank separators)) names
    setLast (if ended then 0 else 1)

end PlanConstraints.Shell

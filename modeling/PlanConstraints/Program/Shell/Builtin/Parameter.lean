import PlanConstraints.Program.Shell.Builtin.Control

set_option autoImplicit false

/-!
# Shell: commands of the shell that set parameters

Options and arguments of the shell, parameters with their marks, and words that stand for other
texts.
-/

namespace PlanConstraints.Shell

/-! ## Options of the shell -/

def idleOptionNames : List String := ["nolog", "debug"]

def setOption (on : Bool) (letter : Char) : Action Unit := do
  if (optionLetters.lookup letter).isNone then fail ("Illegal option -".toList ++ [letter])
  else
    modify fun s =>
      let others := s.options.filter (· != letter)
      { s with options := if on then letter :: others else others }

/-- Lists the options: so that they can be read, or as commands that set them. -/
def listOptions (asCommands : Bool) : Action Unit := do
  let s ← get
  if !asCommands then out "Current option settings\n".toList
  let states := optionLetters.map (fun (letter, name) => (name, s.options.contains letter))
    ++ idleOptionNames.map fun name => (name, false)
  for (name, on) in states do
    if asCommands then
      out ("set ".toList ++ [if on then '-' else '+', 'o', ' '] ++ name.toList ++ ['\n'])
    else
      let fill := List.replicate (16 - name.length) ' '
      out (name.toList ++ fill ++ (if on then "on\n" else "off\n").toList)

def setNamedOption (on : Bool) : List Bytes → Action Unit
  | [] => listOptions (!on)
  | name :: _ => do
    let text := String.ofList name
    match optionLetters.find? fun o => o.2 == text with
    | some (letter, _) => setOption on letter
    | none =>
      if idleOptionNames.contains text then pure ()
      else fail ("Illegal option -o ".toList ++ name)

/-- Sets the options of a group of letters; the letter for a name takes the next argument.  On the
call of a shell there is a letter for a script.  Returns the other arguments, and whether there is a
script. -/
def setGroup (onCall on : Bool) : Bytes → List Bytes → Action (List Bytes × Bool)
  | [], args => return (args, false)
  | c :: cs, args => do
    if c = 'c' ∧ onCall then
      let (args, _) ← setGroup onCall on cs args
      return (args, true)
    else if c = 'o' then
      setNamedOption on args
      setGroup onCall on cs args.tail
    else
      setOption on c
      setGroup onCall on cs args

/-- What is left of arguments behind the options. -/
structure Behind where
  args : List Bytes
  /-- The options have been ended on purpose. -/
  ended : Bool
  /-- One of the arguments is a script. -/
  script : Bool

def setOptions (onCall : Bool) : Nat → List Bytes → Action Behind
  | 0, args => return ⟨args, false, false⟩
  | _, [] => return ⟨[], false, false⟩
  | bound + 1, arg :: args => do
    match arg with
    | ['-'] =>
      if !onCall then
        modify fun s => { s with options := s.options.filter fun c => c != 'x' && c != 'v' }
      return ⟨args, false, false⟩
    | ['-', '-'] => return ⟨args, true, false⟩
    | sign :: cs =>
      if sign = '-' ∨ sign = '+' then
        let (args, script) ← setGroup onCall (sign == '-') cs args
        let b ← setOptions onCall bound args
        return { b with script := script || b.script }
      else return ⟨arg :: args, false, false⟩
    | [] => return ⟨arg :: args, false, false⟩

/-! ## Lists of parameters -/

/-- Lists parameters as a script sets them. -/
def listVariables (front : Bytes) (kept : Variable → Bool) : Action Unit := do
  let shown := ((← get).parameters.filter fun v => kept v.2).mergeSort fun a b =>
    !Bytes.isBefore b.1 a.1
  for (name, v) in shown do
    let value := match v.value with
      | some value => '=' :: singleQuoted value
      | none => []
    out (front ++ name ++ value ++ ['\n'])

def setAll (args : List Bytes) : Action Unit := do
  setLast 0
  match args with
  | [] => listVariables [] fun v => v.value.isSome
  | args =>
    let b ← setOptions false (args.length + 1) args
    if b.ended || !b.args.isEmpty then
      modify fun s => { s with args := b.args, nextArg := 1, letterPlace := 0 }

/-- Takes away values of parameters, or functions. -/
def unset (args : List Bytes) : Action Unit := do
  let (letters, args) ← lettersOf "vf" "" args
  let functions := (letters.getLast?.map (·.1)) == some 'f'
  for name in args do
    if functions then
      modify fun s => { s with functions := s.functions.filter fun f => f.1 != name }
    else if isName name then unsetValue name
    else fail (name ++ ": bad variable name".toList)
  setLast 0

/-! ## Marks -/

/-- Marks parameters, which may also be set, or lists those that have the mark. -/
def markAll (command : Bytes) (mark : Variable → Variable) (marked : Variable → Bool)
    (args : List Bytes) : Action Unit := do
  let (letters, args) ← lettersOf "p" "" args
  setLast 0
  if args.isEmpty ∨ !letters.isEmpty then listVariables (command ++ [' ']) marked
  else
    for arg in args do
      let name := arg.takeWhile (· != '=')
      if !isName name then fail (name ++ ": bad variable name".toList)
      else
        if name.length < arg.length then setValue name (arg.drop (name.length + 1))
        markVariable name mark

def exportAll : List Bytes → Action Unit :=
  markAll "export".toList (fun v => { v with exported := true }) Variable.exported

/-- Marks parameters that cannot be set any more. -/
def fixAll : List Bytes → Action Unit :=
  markAll "readonly".toList (fun v => { v with fixed := true }) Variable.fixed

/-- Makes parameters those of the function that is running. -/
def makeLocal (args : List Bytes) : Action Unit := do
  if (← get).locals.isEmpty then fail "not in a function".toList
  for arg in args do
    let name := arg.takeWhile (· != '=')
    if name ≠ optionsKey ∧ !isName name then fail (name ++ ": bad variable name".toList)
    keepOuter name
    if name.length < arg.length then setValue name (arg.drop (name.length + 1))
  setLast 0

/-! ## Words for other texts -/

/-- A word and the text that it stands for, as a script sets them. -/
def aliasText (name text : Bytes) : Bytes := name ++ '=' :: singleQuoted text

/-- Lets words stand for other texts, or shows what they stand for. -/
def setAliases (args : List Bytes) : Action Unit := do
  setLast 0
  if args.isEmpty then
    for (name, text) in (← get).aliases.mergeSort fun a b => !Bytes.isBefore b.1 a.1 do
      out (aliasText name text ++ ['\n'])
  for arg in args do
    let name := arg.take 1 ++ (arg.drop 1).takeWhile (· != '=')
    if name.length < arg.length then
      modify fun s => { s with aliases := replaceIn name (arg.drop (name.length + 1)) s.aliases }
    else
      match (← get).aliases.lookup arg with
      | some text => out (aliasText arg text ++ ['\n'])
      | none =>
        let _ ← write 2 ("alias: ".toList ++ arg ++ " not found\n".toList)
        setLast 1

/-- Lets words stand for themselves again. -/
def unsetAliases (args : List Bytes) : Action Unit := do
  let (letters, args) ← lettersOf "a" "" args
  setLast 0
  if !letters.isEmpty then modify fun s => { s with aliases := [] }
  else
    for name in args do
      let s ← get
      if (s.aliases.lookup name).isSome then
        set { s with aliases := s.aliases.filter fun a => a.1 != name }
      else
        let _ ← write 2 ("unalias: ".toList ++ name ++ " not found\n".toList)
        setLast 1

end PlanConstraints.Shell

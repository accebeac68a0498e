import PlanConstraints.Program.Shell.Cursor
import PlanConstraints.Program.System

set_option autoImplicit false

/-!
# Shell: the state of a shell

What a shell knows while it runs commands: its parameters, the functions that scripts have defined,
the streams through which it reads and writes, and how the last command ended.  A command may end
more than itself: a loop, a function, or the whole shell.
-/

namespace PlanConstraints.Shell

/-- A parameter that scripts can set. -/
structure Variable where
  value : Option Bytes
  /-- Programs that are started see the parameter. -/
  exported : Bool
  fixed : Bool

/-- What a command ends besides itself. -/
inductive Stop where
  /-- The shell, with the status of the last command. -/
  | exit
  /-- The shell, by a signal. -/
  | signal (n : Nat)
  /-- The command, by an error; unless something takes notice, also the shell. -/
  | failure
  /-- A function, or a script that is read by another one. -/
  | back
  /-- That many loops. -/
  | leaveLoops (n : Nat)
  /-- That many loops but one, and one round of that one. -/
  | nextRound (n : Nat)

/-- A command in the background. -/
structure Job where
  number : Nat
  /-- The status with which it has ended, or will end. -/
  status : Nat
  /-- The time at which it was started. -/
  began : Nat
  /-- It was waited for. -/
  waited : Bool
  /-- It was told to have ended. -/
  listed : Bool
  /-- The signal that has stopped it. -/
  stopped : Option Nat

/-- A command in the background that takes time, with what it sees of the shell that has started it.
-/
structure Delayed where
  number : Nat
  /-- The time at which it was started, and that at which it ends. -/
  began : Nat
  due : Nat
  command : Command
  parameters : List (Bytes × Variable)
  args : List Bytes
  streams : List (Nat × Nat)

/-- What a shell knows. -/
structure State where
  system : System
  /-- The name of the shell, as it is shown. -/
  name : Bytes
  /-- The number that stands for the shell itself. -/
  number : Nat
  /-- The command of the shell that is running, as it is shown. -/
  command : Option Bytes
  /-- The line of the command that is running. -/
  line : Nat
  /-- The places of the open files, by the numbers of streams. -/
  streams : List (Nat × Nat)
  parameters : List (Bytes × Variable)
  functions : List (Bytes × Command)
  aliases : List (Bytes × Bytes)
  args : List Bytes
  /-- The letters of the options that are set. -/
  options : List Char
  /-- The status of the last command. -/
  last : Nat
  /-- The status of the last command that was run for its output within the present one. -/
  given : Nat
  /-- Scripts that are run when signals arrive; that of the number zero is run at the end. -/
  traps : List (Nat × Bytes)
  /-- Signals that have arrived and whose scripts are still to be run. -/
  arrived : List Nat
  /-- Signals to shells around this one: the number of the shell, and that of the signal. -/
  sent : List (Nat × Nat)
  /-- The numbers of the shells around this one. -/
  around : List Nat
  /-- A failing command does not end a shell that ends with failing commands. -/
  tested : Bool
  /-- The number of loops that are running. -/
  loops : Nat
  /-- The number of functions, and scripts read by others, that are running. -/
  calls : Nat
  /-- The parameters as they were before a function made them its own; one list for every function.
  -/
  locals : List (List (Bytes × Option Variable))
  /-- The argument at which reading options goes on, counted from one. -/
  nextArg : Nat
  /-- The place in that argument, or zero at its start. -/
  letterPlace : Nat
  /-- The commands in the background, the last one first. -/
  jobs : List Job
  /-- Those of them that end later. -/
  delayed : List Delayed
  /-- The time that has passed, in millionths of a second. -/
  clock : Nat
  /-- The time at which the shell is stopped. -/
  deadline : Option Nat
  /-- The number of the last command in the background. -/
  lastJob : Option Nat
  /-- The shell runs within another one that has the same number. -/
  isInner : Bool
  /-- Nothing comes behind the command that is running, which may take the place of the shell. -/
  isLast : Bool
  /-- What stands in front of a traced command is being expanded. -/
  tracing : Bool
  /-- What the command of the shell that is running prints at its end, the last piece first. -/
  printed : List Bytes
  /-- The rights that new files do not have. -/
  mask : Nat
  /-- Programs that have been found by their names alone. -/
  found : List Bytes

/-- What a shell does. -/
abbrev Action := EStateM Stop State

/-! ## Streams -/

def write (number : Nat) (bytes : Bytes) : Action (Except System.Fault Unit) := do
  let s ← get
  match s.streams.lookup number with
  | none => return .error .badFile
  | some place =>
    match s.system.write place bytes with
    | .ok system =>
      set { s with system := system }
      return .ok ()
    | .error e => return .error e

def peek (number : Nat) : Action (Except System.Fault Bytes) := do
  let s ← get
  match s.streams.lookup number with
  | none => return .error .badFile
  | some place => return s.system.peek place

def leave (number : Nat) (left : Bytes) : Action Unit := do
  modify fun s =>
    match s.streams.lookup number with
    | none => s
    | some place => { s with system := s.system.leave place left }

def State.front (s : State) (line : Nat) : Bytes :=
  s.name ++ ": ".toList ++ Bytes.ofNat line ++ ": ".toList ++
    match s.command with
    | some name => name ++ ": ".toList
    | none => []

/-- Complains about the command on the present line. -/
def complain (text : Bytes) : Action Unit := do
  let s ← get
  let _ ← write 2 (s.front s.line ++ text ++ ['\n'])

def failAs {α : Type} (status : Nat) (text : Bytes) : Action α := do
  complain text
  modify fun s => { s with last := status }
  throw .failure

def fail {α : Type} (text : Bytes) : Action α := failAs 2 text

def hasOption (letter : Char) : Action Bool := return (← get).options.contains letter

def setLast (status : Nat) : Action Unit := modify fun s => { s with last := status }

/-! ## Parameters -/

/-- The value of a parameter that scripts can set. -/
def State.parameter? (s : State) (name : Bytes) : Option Bytes :=
  (s.parameters.lookup name).bind Variable.value

def replaceIn {α : Type} (name : Bytes) (a : α) : List (Bytes × α) → List (Bytes × α)
  | [] => [(name, a)]
  | (other, b) :: more =>
    if other = name then (name, a) :: more else (other, b) :: replaceIn name a more

def setValue (name value : Bytes) : Action Unit := do
  let s ← get
  let old := (s.parameters.lookup name).getD ⟨none, false, false⟩
  if old.fixed then fail (name ++ ": is read only".toList)
  else
    let new := { old with value := some value, exported := old.exported || s.options.contains 'a' }
    set { s with
      parameters := replaceIn name new s.parameters
      nextArg :=
        if name = "OPTIND".toList then max 1 ((Bytes.natural? value).getD 1) else s.nextArg
      letterPlace := if name = "OPTIND".toList then 0 else s.letterPlace
      found := if name = "PATH".toList then [] else s.found }

/-- Changes what is known of a parameter besides its value. -/
def markVariable (name : Bytes) (mark : Variable → Variable) : Action Unit :=
  modify fun s =>
    let old := (s.parameters.lookup name).getD ⟨none, false, false⟩
    { s with parameters := replaceIn name (mark old) s.parameters }

/-- Takes the value of a parameter away, unless it is fixed. -/
def unsetValue (name : Bytes) : Action Unit := do
  let s ← get
  match s.parameters.lookup name with
  | none => pure ()
  | some old =>
    if old.fixed then fail (name ++ ": is read only".toList)
    else set { s with parameters := s.parameters.filter fun v => v.1 != name }

/-- The characters at which values are cut into words, if they are given. -/
def State.separators? (s : State) : Option Bytes := s.parameter? "IFS".toList

def State.environment (s : State) : List (Bytes × Bytes) :=
  s.parameters.filterMap fun (name, v) =>
    match v.value with
    | some value => if v.exported then some (name, value) else none
    | none => none

def assignParameter (name value : Bytes) : Action Unit :=
  if isName name then setValue name value
  else fail (name ++ ": bad variable name".toList)

/-- The place where the options of a shell are kept among the parameters of a function. -/
def optionsKey : Bytes := ['-']

/-- Keeps a parameter, so that it is as it was behind the present function. -/
def keepOuter (name : Bytes) : Action Unit :=
  modify fun s =>
    let held : Option Variable :=
      if name = optionsKey then some ⟨some s.options, false, false⟩ else s.parameters.lookup name
    match s.locals with
    | [] => s
    | frame :: frames =>
      if frame.any fun kept => kept.1 == name then s
      else { s with locals := ((name, held) :: frame) :: frames }

def State.withKept (s : State) (name : Bytes) (held : Option Variable) : State :=
  match held with
  | some v =>
    if name = optionsKey then { s with options := v.value.getD [] }
    else { s with parameters := replaceIn name v s.parameters }
  | none => { s with parameters := s.parameters.filter fun v => v.1 != name }

def firstNumber : Nat := 4242

def optionLetters : List (Char × String) :=
  [('e', "errexit"), ('f', "noglob"), ('I', "ignoreeof"), ('i', "interactive"), ('m', "monitor"),
    ('n', "noexec"), ('s', "stdin"), ('x', "xtrace"), ('v', "verbose"), ('V', "vi"), ('E', "emacs"),
    ('C', "noclobber"), ('a', "allexport"), ('b', "notify"), ('u', "nounset"), ('p', "privileged")]

/-! ## Ways to end -/

/-- Runs an action to its end, and tells what else it ends. -/
def catching {α : Type} (a : Action α) : Action (Except Stop α) := fun s =>
  match a s with
  | .ok x s => .ok (.ok x) s
  | .error e s => .ok (.error e) s

def rethrow {α : Type} : Except Stop α → Action α
  | .ok x => return x
  | .error e => throw e

/-- Runs an action that may have parameters of its own. -/
def withLocals {α : Type} (a : Action α) : Action α := do
  modify fun s => { s with locals := [] :: s.locals }
  let r ← catching a
  modify fun s =>
    let s := (s.locals.headD []).foldl (fun s kept => s.withKept kept.1 kept.2) s
    { s with locals := s.locals.tail }
  rethrow r

/-- Runs an action whose failure does not end the shell. -/
def tested {α : Type} (a : Action α) : Action α := do
  let old := (← get).tested
  modify fun s => { s with tested := true }
  let r ← catching a
  modify fun s => { s with tested := old }
  rethrow r

end PlanConstraints.Shell

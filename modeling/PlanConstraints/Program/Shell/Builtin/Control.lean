import PlanConstraints.Program.Shell.Redirection

set_option autoImplicit false

/-!
# Shell: commands of the shell that direct it

Leaving loops, functions and the shell, and sending and catching signals.
-/

namespace PlanConstraints.Shell

/-! ## Arguments -/

/-- Reads options, which are letters that may have values.  Returns them and the other arguments. -/
def readLetters (plain valued : List Char) :
    Nat → List Bytes → Action (List (Char × Bytes) × List Bytes)
  | 0, args => return ([], args)
  | _, [] => return ([], [])
  | bound + 1, arg :: args => do
    match arg with
    | ['-', '-'] => return ([], args)
    | '-' :: c :: cs =>
      if plain.contains c then
        let (letters, rest) ← readLetters plain valued bound
          (if cs = [] then args else ('-' :: cs) :: args)
        return ((c, []) :: letters, rest)
      else if valued.contains c then
        match cs, args with
        | [], [] => fail ("No arg for -".toList ++ c :: " option".toList)
        | [], value :: args =>
          let (letters, rest) ← readLetters plain valued bound args
          return ((c, value) :: letters, rest)
        | cs, args =>
          let (letters, rest) ← readLetters plain valued bound args
          return ((c, cs) :: letters, rest)
      else fail ("Illegal option -".toList ++ [c])
    | arg => return ([], arg :: args)

def lettersOf (plain valued : String) (args : List Bytes) :
    Action (List (Char × Bytes) × List Bytes) :=
  readLetters plain.toList valued.toList (args.flatten.length + args.length + 1) args

def numberLimit : Nat := Nat.pow 2 31

def numberOf (arg : Bytes) : Action Nat := do
  match Bytes.natural? arg with
  | some n => if n < numberLimit then return n else fail ("Illegal number: ".toList ++ arg)
  | none => fail ("Illegal number: ".toList ++ arg)

def out (bytes : Bytes) : Action Unit := modify fun s => { s with printed := bytes :: s.printed }

/-- A text between quotation marks, as a script writes it. -/
def singleQuoted (text : Bytes) : Bytes :=
  let rec inside (close : Bytes) : Bytes → Bytes
    | [] => close
    | '\'' :: cs =>
      if close = ['\''] then "'\"'".toList ++ inside ['"'] cs else '\'' :: inside ['"'] cs
    | c :: cs =>
      if close = ['\''] then c :: inside ['\''] cs else "\"'".toList ++ c :: inside ['\''] cs
  '\'' :: inside ['\''] text

/-! ## Leaving -/

def leaveLoops (next : Bool) (args : List Bytes) : Action Unit := do
  let n ←
    match args with
    | [] => pure 1
    | arg :: _ =>
      let n ← numberOf arg
      if n = 0 then fail ("Illegal number: ".toList ++ arg) else pure n
  setLast 0
  let n := min n (← get).loops
  if n = 0 then pure ()
  else throw (if next then .nextRound n else .leaveLoops n)

def back (args : List Bytes) : Action Unit := do
  match args with
  | [] => pure ()
  | arg :: _ => setLast (← numberOf arg)
  throw .back

def exit (args : List Bytes) : Action Unit := do
  match args with
  | [] => pure ()
  | arg :: _ => setLast (← numberOf arg)
  throw .exit

/-- Takes arguments of the script away from the front. -/
def shift (args : List Bytes) : Action Unit := do
  let n ←
    match args with
    | [] => pure 1
    | arg :: _ => numberOf arg
  let s ← get
  if s.args.length < n then fail "can't shift that many".toList
  else set { s with args := s.args.drop n, last := 0 }

/-! ## Signals -/

def signalNames : List (String × Nat) :=
  ((List.range 32).filterMap fun n =>
    if n = 16 then none else (ExitStatus.signalName? n).map fun name => (name, n))
    ++ [("RTMIN", 34), ("RTMAX", 64)]

def signalOf? (word : Bytes) : Option Nat :=
  match Bytes.natural? word with
  | some n => if n ≤ 64 then some n else none
  | none => signalNames.lookup (String.ofList (word.map Char.toUpper))

def signalName? (n : Nat) : Option Bytes :=
  (signalNames.find? fun s => s.2 == n).map (·.1.toList)

def killUsage : Bytes :=
  ("Usage: kill [-s sigspec | -signum | -sigspec] [pid | job]... or\n"
    ++ "kill -l [exitstatus]").toList

def State.jobAt? (s : State) (word : Bytes) : Option Job :=
  match word with
  | '%' :: digits =>
    match Bytes.natural? digits with
    | some n => if n = 0 then none else s.jobs.reverse[n - 1]?
    | none => if digits = [] ∨ digits = ['%'] ∨ digits = ['+'] then s.jobs.head? else none
  | _ => none

def keyboardSignals : List Nat := [2, 3]

/-- The state in which a command in the background has been stopped by a signal. -/
def State.stopJob (s : State) (pid n : Nat) : State :=
  { s with
    delayed := s.delayed.filter fun d => d.number != pid
    jobs := s.jobs.map fun j =>
      if j.number = pid then { j with status := 128 + n, stopped := some n } else j }

/-- Sends a signal to a process; only the shell itself and its commands in the background are known.
-/
def sendTo (n : Nat) (target : Bytes) : Action Unit := do
  let number := match target with
    | '-' :: cs => cs
    | cs => cs
  match target with
  | '%' :: _ =>
    if ((← get).jobAt? target).isNone then fail ("No such job: ".toList ++ target)
    else
      complain "No such process\n".toList
      setLast 1
  | _ =>
    match Bytes.natural? number with
    | none => fail ("Illegal number: ".toList ++ target)
    | some pid =>
      let s ← get
      if n = 0 ∧ (pid = s.number ∨ s.around.contains pid) then pure ()
      else if pid = s.number then receive n
      else if s.around.contains pid then set { s with sent := s.sent ++ [(pid, n)] }
      else if s.delayed.any fun d => d.number == pid then
        if n ≠ 0 ∧ !(idleSignals ++ haltingSignals ++ keyboardSignals).contains n
          then set (s.stopJob pid n)
      else if s.jobs.any fun j => j.number == pid && !j.waited && j.began == s.clock then pure ()
      else
        complain "No such process\n".toList
        setLast 1

def sendSignal (n : Nat) (targets : List Bytes) : Action Unit := do
  match targets with
  | [] => fail killUsage
  | targets =>
    setLast 0
    targets.forM (sendTo n)

/-- Sends the signal that the arguments name, or lists names of signals. -/
def kill (args : List Bytes) : Action Unit := do
  match args with
  | [['-', 'l']] =>
    setLast 0
    out ((List.range 65).flatMap fun n => match signalName? n with
      | some name => name ++ ['\n']
      | none => Bytes.ofNat n ++ ['\n'])
  | ['-', 'l'] :: word :: _ =>
    let n ← numberOf word
    match signalName? (if 128 < n then n - 128 else n) with
    | some name =>
      setLast 0
      out (name ++ ['\n'])
    | none => fail ("invalid signal number or exit status: ".toList ++ word)
  | ['-', '-'] :: targets => sendSignal 15 targets
  | [['-', 's']] => fail "No arg for -s option".toList
  | ['-', 's'] :: word :: targets =>
    match signalOf? word with
    | some n => sendSignal n (if targets.head? = some "--".toList then targets.tail else targets)
    | none => fail ("invalid signal number or name: ".toList ++ word)
  | ('-' :: c :: cs) :: targets =>
    match signalOf? (c :: cs) with
    | some n => sendSignal n (if targets.head? = some "--".toList then targets.tail else targets)
    | none => fail ("Illegal option -".toList ++ [c])
  | targets => sendSignal 15 targets

/-- The number of what a script is run for: a signal, or zero for the end of the shell. -/
def occasionOf? (word : Bytes) : Option Nat :=
  if word.map Char.toUpper = "EXIT".toList then some 0 else signalOf? word

/-- Sets the script that is run on an occasion, or takes it away. -/
def setTrap (script : Option Bytes) (word : Bytes) : Action Unit := do
  match occasionOf? word with
  | none =>
    let _ ← write 2 ("trap: ".toList ++ word ++ ": bad trap\n".toList)
    setLast 1
  | some n =>
    modify fun s =>
      let others := s.traps.filter fun t => t.1 != n
      { s with traps := match script with
        | some script => (n, script) :: others
        | none => others }

/-- Sets the scripts that are run on occasions, or shows them. -/
def trap (args : List Bytes) : Action Unit := do
  let (_, args) ← lettersOf "" "" args
  setLast 0
  match args with
  | [] =>
    for n in List.range 65 do
      match (← get).traps.lookup n with
      | some script =>
        let name := if n = 0 then "EXIT".toList else (signalName? n).getD (Bytes.ofNat n)
        out ("trap -- ".toList ++ singleQuoted script ++ ' ' :: name ++ ['\n'])
      | none => pure ()
  | [word] => setTrap none word
  | action :: words =>
    if action = ['-'] ∨ (Bytes.natural? action).isSome then
      (if action = ['-'] then words else action :: words).forM (setTrap none)
    else words.forM (setTrap (some action))

end PlanConstraints.Shell

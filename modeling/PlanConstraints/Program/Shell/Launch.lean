import PlanConstraints.Program.Shell.Builtin.Parameter
import PlanConstraints.Program.Shell.Lookup
import PlanConstraints.Program.Tool.Job

set_option autoImplicit false

/-!
# Shell: starting programs

A program that a shell starts works on the open files of the shell.  It may be a tool, which prints
what its call asks for, or another shell.
-/

namespace PlanConstraints.Shell

/-! ## Ends of programs -/

def signalWords : List (Nat × String) :=
  [(1, "Hangup"), (3, "Quit"), (4, "Illegal instruction"), (5, "Trace/breakpoint trap"),
    (6, "Aborted"), (7, "Bus error"), (8, "Floating point exception"), (9, "Killed"),
    (10, "User defined signal 1"), (11, "Segmentation fault"), (12, "User defined signal 2"),
    (14, "Alarm clock"), (15, "Terminated"), (16, "Stack fault"), (24, "CPU time limit exceeded"),
    (25, "File size limit exceeded"), (26, "Virtual timer expired"),
    (27, "Profiling timer expired"),
    (29, "I/O possible"), (30, "Power failure"), (31, "Bad system call")]

/-- What is said of a program that was stopped by a signal, if anything is. -/
def signalText? (n : Nat) : Option Bytes :=
  if n = 2 ∨ n = 13 then none
  else if 34 ≤ n then some ("Real-time signal ".toList ++ Bytes.ofNat (n - 34))
  else some ((signalWords.lookup n).getD ("Signal " ++ toString n)).toList

/-- Takes notice of how a program has ended.  One that has taken the place of the shell ends it. -/
def noteEnd (status : ExitStatus) : Action Unit := do
  match status with
  | .code n => setLast n
  | .signal n =>
    let s ← get
    if s.isLast ∧ !s.isInner ∧ s.traps.isEmpty then throw (.signal n)
    match signalText? n with
    | some text =>
      let _ ← write 2 (text ++ ['\n'])
    | none => pure ()
    setLast (128 + n)

/-! ## Tools -/

/-- What a tool says whose output cannot be written, and the status with which it ends. -/
def outputComplaint (program : String) (f : System.Fault) : String × Nat :=
  match program with
  | "cat" =>
    if f = .badFile then ("standard output: " ++ f.message, 1)
      else ("write error: " ++ f.message, 1)
  | "sed" => ("couldn't flush stdout: " ++ f.message, 4)
  | "grep" | "sort" => ("write error: " ++ f.message, 2)
  | _ => ("write error: " ++ f.message, 1)

/-- Writes what a tool has written; tells why the output could not be written, if it could not. -/
def writeAll (fault : Option System.Fault) : List (Stream × Bytes) → Action (Option System.Fault)
  | [] => return fault
  | (stream, bytes) :: more => do
    if bytes = [] then writeAll fault more
    else
      match stream with
      | .complaint =>
        let _ ← write 2 bytes
        writeAll fault more
      | .output =>
        match ← write 1 bytes with
        | .ok () => writeAll fault more
        | .error f => writeAll (some f) more

/-- Runs what a tool does on the open files of the shell.  It may be the end of the tool. -/
def runJob {α : Type} (job : Tool.Job α) (c : Start) : Action (Except ExitStatus α) := do
  let input := match ← peek 0 with
    | .ok bytes => bytes
    | .error _ => []
  let s ← get
  let stays := match (s.streams.lookup 0).map fun place => (s.system.get place).medium with
    | some (.file _) => true
    | _ => false
  let call : Call := ⟨c.name, c.args, input, stays, c.environment, s.system.files⟩
  let (a?, p) : Option α × Tool.Progress := match job (.fresh call) with
    | .ok a p => (some a, p)
    | .error _ p => (none, p)
  set { s with system := { s.system with files := p.files } }
  if p.tookInput then leave 0 p.input
  match ← writeAll none p.written.reverse with
  | none =>
    match a? with
    | some a => if p.status = 0 then return .ok a else return .error (.code p.status)
    | none => return .error (.code p.status)
  | some f =>
    let (text, status) := outputComplaint c.program f
    let _ ← write 2 (c.name ++ ": ".toList ++ text.toList ++ ['\n'])
    return .error (.code status)

def runTool (tool : Tool.Job Unit) (c : Start) : Action ExitStatus := do
  match ← runJob tool c with
  | .ok () => return .code 0
  | .error status => return status

/-! ## Shells -/

def usualVariables (folder : Bytes) : List (Bytes × Variable) :=
  [("IFS", usualSeparators), ("OPTIND", ['1']), ("PATH", usualFolders), ("PPID", ['1']),
    ("PS1", ['#', ' ']), ("PS2", ['>', ' ']), ("PS4", ['+', ' '])].map
      (fun (name, value) => (name.toList, ⟨some value, false, false⟩))
    ++ [("PWD".toList, ⟨some folder, true, false⟩)]

def State.fresh (system : System) (streams : List (Nat × Nat)) (name : Bytes) (number : Nat)
    (around : List Nat) (environment : List (Bytes × Bytes)) : State :=
  let folder := pathOf system.files.start
  let given := environment.filter fun (name, _) =>
    isName name && name != "IFS".toList && name != "PWD".toList && name != "PPID".toList
  { system := system
    name := name
    number := number
    command := none
    line := 0
    streams := streams
    parameters := given.foldl
      (fun vs (name, value) => replaceIn name ⟨some value, true, false⟩ vs) (usualVariables folder)
    functions := []
    aliases := []
    args := []
    options := []
    last := 0
    given := 0
    traps := []
    arrived := []
    sent := []
    around := around
    tested := false
    loops := 0
    calls := 0
    locals := []
    nextArg := 1
    letterPlace := 0
    jobs := []
    delayed := []
    clock := 0
    deadline := none
    lastJob := none
    isInner := false
    isLast := true
    tracing := false
    printed := []
    mask := 0o022
    found := [] }

def readScript (path : Bytes) : Action Bytes := do
  let s ← get
  match openToRead s.system.files path with
  | .error e =>
    fail ("cannot open ".toList ++ path ++ ": ".toList ++ (reasonWith "No such file" e).toList)
  | .ok (.stream number) =>
    match ← peek number with
    | .ok bytes =>
      leave number []
      return bytes
    | .error _ => return []
  | .ok (.file f) =>
    match f.medium with
    | .file address => return s.system.files.bytesAt address
    | _ => return []

/-- Runs a shell by its arguments: a script that is one of them, that of a file, or the input. -/
def runByArgs (self : Engine) (args : List Bytes) : Action Unit := do
  let b ← setOptions true (args.length + 1) args
  let begin (args : List Bytes) : Action Unit := modify fun s => { s with args := args, line := 1 }
  match b.script, b.args with
  | true, [] => fail "-c requires an argument".toList
  | true, script :: rest =>
    modify fun s => { s with name := rest.headD s.name }
    begin rest.tail
    if ← hasOption 's' then runInnerScript self script else runScript self script
  | false, rest =>
    match (← get).options.contains 's', rest with
    | false, path :: rest =>
      let script ← readScript path
      modify fun s => { s with name := path }
      begin rest
      runInnerScript self script
    | _, rest =>
      begin rest
      match ← peek 0 with
      | .error _ => pure ()
      | .ok script =>
        leave 0 []
        runInnerScript self script

/-- Runs a shell within the present one, on its open files. -/
def runShell (self : Engine) (c : Start) : Action ExitStatus := do
  let outer ← get
  let ignored := outer.traps.filter fun t => t.1 != 0 && t.2 == []
  set { State.fresh outer.system outer.streams c.name
    (outer.number + 1) (outer.number :: outer.around)
      c.environment with
    traps := ignored, delayed := outer.delayed, clock := outer.clock, deadline := outer.deadline }
  let r ← catching (toEnd self (runByArgs self c.args))
  let inner ← get
  set (outer.behind inner)
  deliver inner.sent
  match r with
  | .error (.signal n) => return .signal n
  | _ => return .code (inner.last % 256)

end PlanConstraints.Shell

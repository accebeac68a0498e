import PlanConstraints.Program.Shell.Field
import PlanConstraints.Program.Shell.Reader
import PlanConstraints.Program.Shell.State

set_option autoImplicit false

/-!
# Shell: scripts and processes

Commands run other commands: those that stand in them, those of scripts, and those that have to
leave the shell as it is, which run within it.  An engine runs commands up to a depth; what is here
runs everything else with it.
-/

namespace PlanConstraints.Shell

/-- How parts are expanded. -/
structure Expanding where
  /-- The word makes words of a command. -/
  full : Bool
  /-- The text of the word may be cut into words. -/
  cuts : Bool
  /-- A tilde stands for a folder at the start. -/
  tilde : Bool
  /-- A tilde does so behind a colon, too. -/
  colons : Bool

/-- What starts a program within a shell. -/
structure Start where
  /-- The name by which the program is known. -/
  program : String
  /-- How it is called. -/
  name : Bytes
  args : List Bytes
  environment : List (Bytes × Bytes)

/-- Runs commands, expands words and starts programs within others. -/
structure Engine where
  run : Command → Action Unit
  parts : Expanding → List Part → Action (List Glyph)
  start : Start → Action ExitStatus

/-! ## Scripts -/

def Cursor.isAtEnd (cursor : Cursor) : Bool :=
  match cursor.pushed with
  | some .finish => true
  | _ => false

/-- Runs an action that is not the last one of the shell, unless that is known. -/
def asLast {α : Type} (isLast : Bool) (a : Action α) : Action α := do
  let old := (← get).isLast
  modify fun s => { s with isLast := s.isLast && isLast }
  let r ← catching a
  modify fun s => { s with isLast := old }
  rethrow r

def runLines (self : Engine) : Nat → Cursor → Action Unit
  | 0, _ => pure ()
  | bound + 1, cursor => do
    match { cursor with aliases := (← get).aliases }.readLine with
    | .finished => pure ()
    | .failed e =>
      modify fun s => { s with line := e.line }
      fail e.fault.message.toList
    | .command c cursor =>
      asLast cursor.isAtEnd (self.run c)
      runLines self bound cursor

def runScript (self : Engine) (script : Bytes) : Action Unit :=
  runLines self (script.length + 1) (.start [] 1 script)

def runInnerScript (self : Engine) (script : Bytes) : Action Unit :=
  asLast false (runScript self script)

/-! ## Signals -/

/-- The signals that do nothing unless a script asks for something. -/
def idleSignals : List Nat := [17, 18, 23, 28]

/-- The signals that only halt what they reach. -/
def haltingSignals : List Nat := [19, 20, 21, 22]

def receive (n : Nat) : Action Unit := do
  let s ← get
  if s.isInner then set { s with sent := s.sent ++ [(s.number, n)] }
  else
    match s.traps.lookup n with
    | some [] => if n = 9 then throw (.signal n) else pure ()
    | some _ => if n = 9 then throw (.signal n) else set { s with arrived := s.arrived ++ [n] }
    | none => if idleSignals.contains n then pure () else throw (.signal n)

/-- Signals that were sent by a shell within this one reach this one, or are sent on. -/
def deliver (sent : List (Nat × Nat)) : Action Unit := do
  for (number, n) in sent do
    let s ← get
    if number = s.number then receive n else set { s with sent := s.sent ++ [(number, n)] }

def runTraps (self : Engine) : Action Unit := do
  let s ← get
  if s.isInner ∨ s.arrived.isEmpty then pure ()
  else
    set { s with arrived := [] }
    for n in s.arrived do
      match s.traps.lookup n with
      | some script =>
        runInnerScript self script
        setLast s.last
      | none => pure ()

def runLastTrap (self : Engine) : Action Unit := do
  let s ← get
  match s.traps.lookup 0 with
  | none => pure ()
  | some script =>
    set { s with traps := s.traps.filter fun t => t.1 != 0 }
    match ← catching (runInnerScript self script) with
    | .error (.signal n) => throw (.signal n)
    | .error .exit | .error .failure => pure ()
    | _ => setLast s.last

/-! ## Processes -/

/-- Runs an action to the end of its process; only a signal ends more than that. -/
def toEnd (self : Engine) (a : Action Unit) : Action Unit := do
  match ← catching a with
  | .error (.signal n) => throw (.signal n)
  | _ => runLastTrap self

/-- The state behind a process that has run within a shell. -/
def State.behind (outer inner : State) : State :=
  let start := outer.system.files.start
  { outer with
    system := { inner.system with files := { inner.system.files with start := start } }
    delayed := inner.delayed
    clock := inner.clock }

/-- Runs an action in a process of its own, which leaves the shell as it is but for the files. -/
def inProcess (self : Engine) (a : Action Unit) : Action Unit := do
  let outer ← get
  set { outer with
    isInner := true
    isLast := false
    arrived := []
    sent := []
    traps := outer.traps.filter fun t => t.2 == []
    jobs := [] }
  let r ← catching (toEnd self a)
  let inner ← get
  set { outer.behind inner with last := inner.last }
  deliver inner.sent
  match r with
  | .error (.signal n) => throw (.signal n)
  | _ => pure ()

def withStream (number place : Nat) (a : Action Unit) : Action Unit := do
  let old := (← get).streams
  modify fun s => { s with streams := (number, place) :: s.streams.filter fun t => t.1 != number }
  let r ← catching a
  modify fun s => { s with streams := old }
  rethrow r

/-- Puts back what stood in the places of some streams. -/
def restoreStreams (old : List (Nat × Nat)) (numbers : List Nat) : Action Unit :=
  modify fun s =>
    { s with
      streams := old.filter (fun t => numbers.contains t.1)
        ++ s.streams.filter fun t => !numbers.contains t.1 }

def openFile (f : OpenFile) : Action Nat := do
  let s ← get
  let (system, place) := s.system.add f
  set { s with system := system }
  return place

/-- The bytes that a command prints, run in a process of its own. -/
def outputOf (self : Engine) (c : Command) : Action Bytes := do
  let place ← openFile (.pipe [])
  let last := (← get).last
  withStream 1 place (inProcess self (self.run c))
  let s ← get
  set { s with last := last, given := s.last }
  return (s.system.get place).content

end PlanConstraints.Shell

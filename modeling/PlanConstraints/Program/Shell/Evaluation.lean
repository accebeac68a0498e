import PlanConstraints.Program.Shell.Background
import PlanConstraints.Program.Shell.Builtin.Input
import PlanConstraints.Program.Shell.Builtin.Output
import PlanConstraints.Program.Shell.Launcher

set_option autoImplicit false

/-!
# Shell: running commands

A simple command is made of the words that its parts expand to.  The first word says what is run: a
command of the shell, a function, or a program.  Other commands run the commands that stand in them.
-/

namespace PlanConstraints.Shell

/-! ## Commands of the shell -/

/-- The end of a function or script that a command of the shell leaves is the end of the action. -/
def untilBack (a : Action Unit) : Action Unit := do
  match ← catching a with
  | .error .back => pure ()
  | r => rethrow r

def runArgs (self : Engine) (args : List Bytes) : Action Unit := do
  let script := Bytes.joined [' '] args
  setLast 0
  if script ≠ [] then runInnerScript self script

def findScript (files : FileTree) (name : Bytes) : List Bytes → Option Bytes
  | [] => none
  | folder :: more =>
    let path := inFolder folder name
    if isPlainFile files path then some path else findScript files name more

def runFile (self : Engine) (args : List Bytes) : Action Unit := do
  let (_, args) ← lettersOf "" "" args
  match args with
  | [] => setLast 0
  | name :: _ =>
    let s ← get
    let path ←
      if name.contains '/' then pure name
      else
        let folders := splitColons ((s.parameter? "PATH".toList).getD usualFolders)
        match findScript s.system.files name folders with
        | some path => pure path
        | none => fail (name ++ ": not found".toList)
    let script ← readScript path
    modify fun s => { s with command := some path, last := 0, calls := s.calls + 1 }
    let r ← catching (untilBack (runInnerScript self script))
    modify fun s => { s with line := s.line, calls := s.calls - 1 }
    rethrow r

/-- Lets a program take the place of the shell, if there is one. -/
def replaceShell (self : Engine) (args : List Bytes) : Action Unit := do
  let (_, args) ← lettersOf "" "" args
  match args with
  | [] => setLast 0
  | name :: args =>
    let s ← get
    let refused (reason : String) (status : Nat) : Action Unit := do
      complain (name ++ ": ".toList ++ reason.toList)
      setLast status
      throw .exit
    match s.programOf name with
    | .program _ program =>
      modify fun s => { s with traps := s.traps.filter fun t => t.2 == [] }
      match ← self.start ⟨program, name, args, s.environment⟩ with
      | .code n =>
        setLast n
        throw .exit
      | .signal n => throw (.signal n)
    | .file _ => refused "Permission denied" 126
    | .unknown reason => refused reason (if reason = "not found" then 127 else 126)
    | _ => refused "not found" 127

def runBuiltin (self : Engine) (name : String) (args : List Bytes) : Action Unit :=
  match name with
  | "." => runFile self args
  | "[" => test true args
  | "alias" => setAliases args
  | "bg" | "fg" => continueJob args
  | "break" => leaveLoops false args
  | "cd" | "chdir" => changeFolder args
  | "command" => describeOne args
  | "continue" => leaveLoops true args
  | "echo" => echo args
  | "eval" => runArgs self args
  | "exec" => replaceShell self args
  | "exit" => exit args
  | "export" => exportAll args
  | "false" => setLast 1
  | "getopts" => getOption args
  | "hash" => hash args
  | "jobs" => listJobs args
  | "kill" => kill args
  | "local" => makeLocal args
  | "printf" => printf args
  | "pwd" => printFolder args
  | "read" => readLineInto args
  | "readonly" => fixAll args
  | "return" => back args
  | "set" => setAll args
  | "shift" => shift args
  | "test" => test false args
  | "times" => times
  | "trap" => trap args
  | "type" => describeAll args
  | "ulimit" => limit args
  | "umask" => setMask args
  | "unalias" => unsetAliases args
  | "unset" => unset args
  | "wait" => wait self args
  | _ => setLast 0

/-- Writes what a command of the shell prints; it fails if that cannot be done. -/
def writePrinted (name : Bytes) : Action Unit := do
  let s ← get
  set { s with printed := [] }
  match s.printed.reverse.flatten with
  | [] => pure ()
  | bytes =>
    match ← write 1 bytes with
    | .ok () => pure ()
    | .error _ =>
      modify fun s => { s with command := some name }
      complain (name ++ ": I/O error".toList)
      setLast (s.last ||| 1)

/-- Runs a command of the shell under its name.  A failure is the end of the shell, if the command
is special. -/
def runNamed (self : Engine) (special : Bool) (name : Bytes) (args : List Bytes) : Action Unit := do
  let outer ← get
  set { outer with command := some name, printed := [] }
  let r ← catching (runBuiltin self (String.ofList name) args)
  writePrinted name
  modify fun s => { s with command := outer.command, printed := outer.printed }
  match r with
  | .error .failure => if special then throw .failure else pure ()
  | r => rethrow r

/-! ## Functions and programs -/

def callLimit : Nat := 1000

def runFunction (self : Engine) (c : Command) (args : List Bytes) : Action Unit := do
  let s ← get
  if callLimit ≤ s.calls then
    fail
      ("Maximum function recursion depth (".toList ++ Bytes.ofNat callLimit ++ ") reached".toList)
  set { s with args := args, loops := 0, calls := s.calls + 1, nextArg := 1, letterPlace := 0 }
  let r ← catching (untilBack (asLast false (self.run c)))
  modify fun t =>
    { t with
      args := s.args, loops := s.loops, calls := s.calls, nextArg := s.nextArg
      letterPlace := s.letterPlace }
  rethrow r

/-- Starts a program, or says why that cannot be done. -/
def runProgram (self : Engine) (name : Bytes) (args : List Bytes) (m : Meaning) : Action Unit := do
  let refused (reason : String) (status : Nat) : Action Unit := do
    complain (name ++ ": ".toList ++ reason.toList)
    setLast status
  match m with
  | .program _ program =>
    noteFound name
    noteEnd (← self.start ⟨program, name, args, (← get).environment⟩)
  | .file _ => refused "Permission denied" 126
  | .unknown reason => refused reason 127
  | _ => refused "not found" 127

/-! ## Simple commands -/

/-- The words of a simple command as far as they are expanded. -/
structure Expanded where
  /-- All words. -/
  words : List Bytes
  /-- The number of words in front of that which says what is run. -/
  skip : Nat
  /-- Words that are still to be expanded. -/
  rest : List Word

def Expanded.next (self : Engine) (e : Expanded) : List Word → Action (Option Expanded)
  | [] => return none
  | w :: ws => do
    match ← expandWord self w with
    | [] => e.next self ws
    | words => return some { e with words := e.words ++ words, rest := ws }

def Expanded.reach (self : Engine) (e : Expanded) (place : Nat) : Action (Option Expanded) :=
  if place < e.words.length then return some e else e.next self e.rest

/-- Looks behind the options of the command that runs another one: the words with the place of that
one, or nothing if the command is not to run one. -/
def Expanded.behindOptions (self : Engine) : Nat → Expanded → Nat → Action (Expanded × Option Nat)
  | 0, e, _ => return (e, none)
  | bound + 1, e, place => do
    match ← e.reach self place with
    | none => return ({ e with rest := [] }, none)
    | some e =>
      match (e.words[place]?).getD [] with
      | ['-', '-'] =>
        match ← e.reach self (place + 1) with
        | none => return ({ e with rest := [] }, none)
        | some e => return (e, some (place + 1))
      | '-' :: c :: cs =>
        if (c :: cs).all (· == 'p') then Expanded.behindOptions self bound e (place + 1)
        else return (e, none)
      | _ => return (e, some place)

/-- What a simple command runs. -/
structure Selected where
  words : Expanded
  meaning : Meaning
  /-- The first word names a special command of the shell. -/
  special : Bool

/-- Finds out what the first words say; a command that runs another one may stand in front. -/
def select (self : Engine) (functions : Bool) (special : Option Bool) :
    Nat → Expanded → Action Selected
  | 0, e => return ⟨e, .unknown "not found", false⟩
  | bound + 1, e => do
    let name := (e.words[e.skip]?).getD []
    let meaning := (← get).meaningOf functions name
    match meaning with
    | .builtin isSpecial =>
      let special := special.getD isSpecial
      if name = "command".toList then
        match ← e.behindOptions self (e.words.length + e.rest.length + 2) (e.skip + 1) with
        | (e, none) => return ⟨e, meaning, special⟩
        | (e, some place) => select self false (some special) bound { e with skip := place }
      else return ⟨e, meaning, special⟩
    | meaning => return ⟨e, meaning, special.getD false⟩

/-- Commands of the shell whose arguments may set parameters. -/
def takesAssignments (name : Bytes) : Bool :=
  ["export", "readonly", "local"].contains (String.ofList name)

def expandAssignment (self : Engine) (w : Word) : Action (List Bytes) := do
  match w.assignment? with
  | some (name, value) => return [name ++ '=' :: (← expandValue self value)]
  | none => expandWord self w

def traceFront (self : Engine) : Action Bytes := do
  let s ← get
  let text := (s.parameter? "PS4".toList).getD "+ ".toList
  let read : Read (List Part) := do
    let inner := readers 50
    readText inner.toNested text
  match read (.start [] 1 text) with
  | .error _ _ => return text
  | .ok parts _ => return textOf (← self.parts ⟨false, false, false, false⟩ parts)

def traceWords (self : Engine) (place? : Option Nat) (words : List Bytes) : Action Unit := do
  let s ← get
  if s.options.contains 'x' ∧ !s.tracing then
    set { s with tracing := true }
    let front ← traceFront self
    modify fun s =>
      let line := front ++ Bytes.joined [' '] words ++ ['\n']
      let system := match place? with
        | none => s.system
        | some place => match s.system.write place line with
          | .ok system => system
          | .error _ => s.system
      { s with system := system, tracing := false }

/-- Runs what the words of a simple command say. -/
def runSelected (self : Engine) (s : Selected) : Action Unit := do
  match s.words.words.drop s.words.skip with
  | [] => modify fun s => { s with last := s.given }
  | name :: args =>
    match s.meaning with
    | .builtin _ => runNamed self s.special name args
    | .function c => runFunction self c args
    | m => runProgram self name args m

/-- Sets the parameters of a simple command, which may be for the command only; returns them with
their values. -/
def assignAll (self : Engine) (outside seen : Bool) : List Word → Action (List Bytes)
  | [] => return []
  | w :: ws => do
    match w.assignment? with
    | none => assignAll self outside seen ws
    | some (name, word) =>
      let value ← expandValue self word
      if outside then
        setValue name value
        if seen then markVariable name fun v => { v with exported := true }
      else
        keepOuter name
        setValue name value
        markVariable name fun v => { v with exported := true }
      return (name ++ '=' :: value) :: (← assignAll self outside seen ws)

def runSimple (self : Engine) (line : Nat) (assignments words : List Word)
    (redirects : List Redirect) : Action Unit := do
  modify fun s => { s with line := line, given := 0 }
  let selected : Selected ←
    match ← Expanded.next self ⟨[], 0, []⟩ words with
    | none => pure ⟨⟨[], 0, []⟩, .builtin false, false⟩
    | some e => select self true none (words.length + e.words.length) e
  let e := selected.words
  let name := (e.words[e.skip]?).getD []
  let isBuiltin := match selected.meaning with
    | .builtin _ => true
    | _ => false
  let expand := if isBuiltin && takesAssignments name then expandAssignment else expandWord
  let more ← e.rest.mapM (expand self)
  let selected := { selected with words := { e with words := e.words ++ more.flatten, rest := [] } }
  let isExec := isBuiltin && name == "exec".toList
  let hasArgs := e.skip + 1 < selected.words.words.length
  let outside := e.words.isEmpty || selected.special
  let old := (← get).streams
  let targets ← expandTargets self redirects
  let made ← redirectAll self targets
  let work : Action Unit := do
    if made then
      let set ← assignAll self outside (isExec && hasArgs) assignments
      traceWords self (old.lookup 2) (set ++ selected.words.words)
      runSelected self selected
    else if selected.special then throw .failure
    else pure ()
  let r ← catching (if outside then work else withLocals work)
  let keeps := isExec && made && match r with
    | .ok _ => true
    | .error _ => false
  if !keeps then restoreStreams old (targets.map Target.number)
  rethrow r

/-! ## Loops -/

def roundLimit : Nat := 200000

/-- Runs a round of a loop; tells whether the loop goes on. -/
def inRound (a : Action Unit) : Action Bool := do
  match ← catching a with
  | .ok () => return true
  | .error (.leaveLoops n) => if 1 < n then throw (.leaveLoops (n - 1)) else return false
  | .error (.nextRound n) => if 1 < n then throw (.nextRound (n - 1)) else return true
  | .error e => throw e

/-- Runs an action in which one more loop can be left. -/
def inLoop (a : Action Unit) : Action Unit := do
  let old := (← get).loops
  modify fun s => { s with loops := old + 1 }
  let r ← catching (asLast false a)
  modify fun s => { s with loops := old }
  rethrow r

/-- Runs a command as long as a condition succeeds, or fails.  The status is that of the command
when it last ran. -/
def runLoop (self : Engine) (whileSuccess : Bool) (condition c : Command) (status : Nat) :
    Nat → Action Unit
  | 0 => setLast status
  | bound + 1 => do
    let asked ← catching (tested (self.run condition))
    match asked with
    | .error (.leaveLoops n) =>
      if 1 < n then throw (.leaveLoops (n - 1)) else setLast status
    | .error (.nextRound n) =>
      if 1 < n then throw (.nextRound (n - 1))
      else runLoop self whileSuccess condition c status bound
    | .error e => throw e
    | .ok () =>
      if ((← get).last == 0) == whileSuccess then
        if ← inRound (self.run c) then
          runLoop self whileSuccess condition c (← get).last bound
        else pure ()
      else setLast status

def runEach (self : Engine) (name : Bytes) (c : Command) : List Bytes → Action Unit
  | [] => pure ()
  | word :: words => do
    setValue name word
    if ← inRound (self.run c) then runEach self name c words else pure ()

/-! ## Selections -/

def matchesOne (self : Engine) (subject : Bytes) : List Word → Action Bool
  | [] => return false
  | w :: ws => do
    let signs := signsOf (← self.parts ⟨false, false, true, false⟩ w)
    if accepts (.ofSigns signs) subject then return true else matchesOne self subject ws

def runBranches (self : Engine) (subject : Bytes) : List (List Word × Command) → Action Unit
  | [] => setLast 0
  | (patterns, c) :: more => do
    if ← matchesOne self subject patterns then
      match c with
      | .nothing => setLast 0
      | c => self.run c
    else runBranches self subject more

/-! ## Processes -/

/-- Looks for the program that a command names, which is known from then on. -/
def findAhead (c : Command) : Action Unit := do
  match c with
  | .simple _ _ (w :: _) _ =>
    match Word.plain? w with
    | some name =>
      if isName name then
        match (← get).meaningOf true name with
        | .program _ _ => noteFound name
        | _ => pure ()
    | none => pure ()
  | _ => pure ()

/-- Runs commands at the same time, each of which reads what the one before it prints. -/
def runPipeline (self : Engine) (input : Option Nat) : List Command → Action Unit
  | [] => pure ()
  | c :: cs => do
    let work := inProcess self (self.run c)
    let work := match input with
      | some place => withStream 0 place work
      | none => work
    match cs with
    | [] => work
    | cs =>
      let place ← openFile (.pipe [])
      withStream 1 place work
      runPipeline self (some place) cs

/-! ## Commands -/

/-- A failing command ends a shell that was told so. -/
def checkLast : Action Unit := do
  let s ← get
  if s.options.contains 'e' ∧ !s.tested ∧ s.last ≠ 0 then throw .exit

def runAll (self : Engine) : List Command → Action Unit
  | [] => pure ()
  | [c] => self.run c
  | c :: cs => do
    asLast false (self.run c)
    runAll self cs

def runHere (self : Engine) : Command → Action Unit
  | .nothing => pure ()
  | .simple line assignments words redirects => do
    runSimple self line assignments words redirects
    checkLast
  | .redirected line c redirects => do
    modify fun s => { s with line := line }
    asLast false (withRedirects self redirects (self.run c))
  | .subshell line c redirects => do
    modify fun s => { s with line := line }
    let targets ← expandTargets self redirects
    inProcess self do
      if ← redirectAll self targets then self.run c
    checkLast
  | .pipeline cs => do
    cs.forM findAhead
    runPipeline self none cs
    checkLast
  | .background c => runBehind self c
  | .invert c => do
    tested (asLast false (self.run c))
    modify fun s => { s with last := if s.last = 0 then 1 else 0 }
  | .both c d => do
    tested (asLast false (self.run c))
    if (← get).last = 0 then self.run d
  | .either c d => do
    tested (asLast false (self.run c))
    if (← get).last ≠ 0 then self.run d
  | .sequence cs => runAll self cs
  | .choice condition c d => do
    tested (asLast false (self.run condition))
    if (← get).last = 0 then self.run c
    else
      match d with
      | .nothing => setLast 0
      | d => self.run d
  | .loop whileSuccess condition c => inLoop (runLoop self whileSuccess condition c 0 roundLimit)
  | .each line name words c => do
    modify fun s => { s with line := line }
    let words := (← words.mapM (expandWord self)).flatten
    setLast 0
    inLoop (runEach self name c words)
  | .select line subject branches => do
    modify fun s => { s with line := line }
    runBranches self (← expandText self subject) branches
  | .define _ name c =>
    modify fun s => { s with functions := replaceIn name c s.functions, last := 0 }

/-- Runs a command, and before and behind it the scripts of signals that have arrived. -/
def runCommand (self : Engine) (c : Command) : Action Unit := do
  if ← hasOption 'n' then pure ()
  else
    runTraps self
    runHere self c
    runTraps self

/-! ## Engines -/

def startProgram (self : Engine) (tool? : String → Option (Tool.Job Unit)) (c : Start) :
    Action ExitStatus := do
  match c.program with
  | "sh" => runShell self c
  | program =>
    match launcher? program, tool? program with
    | some launcher, _ => launcher self c
    | none, some tool => do
      let status ← runTool tool c
      if program = "sleep" then passTime self ((c.args.filterMap Tool.duration?).foldl (· + ·) 0)
      return status
    | none, none => return .code 127

/-- The engine for commands that stand in others no deeper than that. -/
def engine (tool? : String → Option (Tool.Job Unit)) : Nat → Engine
  | 0 => ⟨fun _ => throw .exit, fun _ _ => return [], fun _ => return .code 127⟩
  | depth + 1 =>
    let self := engine tool? depth
    ⟨runCommand self, fun m => expandParts self m true, startProgram self tool?⟩

def commandDepth : Nat := 6000

def runAlone (tool? : String → Option (Tool.Job Unit)) (program : String) (c : Call) : Outcome :=
  let self := engine tool? commandDepth
  let system : System := ⟨c.files, #[.pipe c.input, .pipe [], .pipe []]⟩
  let s := State.fresh system [(0, 0), (1, 1), (2, 2)] c.name firstNumber [] c.environment
  let work : Action ExitStatus := do
    let status ← self.start ⟨program, c.name, c.args, c.environment⟩
    runDelayedAll self
    return status
  let (status, s) := match work s with
    | .ok status s => (status, s)
    | .error (.signal n) s => (.signal n, s)
    | .error _ s => (.code (s.last % 256), s)
  { written := [(.output, (s.system.get 1).content), (.complaint, (s.system.get 2).content)]
    status := status
    files := s.system.files }

end PlanConstraints.Shell

import PlanConstraints.Program.Shell.Builtin.Control
import PlanConstraints.Program.Shell.Launch

set_option autoImplicit false

/-!
# Shell: commands in the background

A command in the background that takes no time is run at once.  One that takes time is run when the
shell waits for it, when so much time has passed, or at the end.
-/

namespace PlanConstraints.Shell

/-! ## Time -/

def runDelayed (self : Engine) (d : Delayed) : Action Unit := do
  let outer ← get
  set { outer with
    delayed := outer.delayed.filter fun e => e.number != d.number
    clock := d.began
    parameters := d.parameters
    args := d.args
    streams := d.streams
    tested := false
    deadline := none }
  let r ← catching (inProcess self (self.run d.command))
  let inner ← get
  set { outer.behind inner with
    clock := max outer.clock inner.clock
    arrived := inner.arrived
    sent := inner.sent
    jobs := outer.jobs.map fun (j : Job) =>
      if j.number = d.number then { j with status := inner.last } else j }
  rethrow r

/-- The command that ends first of those that end up to a time. -/
def State.nextDue? (s : State) (time : Nat) : Option Delayed :=
  s.delayed.foldl (fun found d =>
    if time < d.due then found
    else
      match found with
      | none => some d
      | some e => if d.due < e.due then some d else found) none

/-- Runs the commands that end up to a time, in the order of their ends. -/
def runDue (self : Engine) (time : Nat) : Nat → Action Unit
  | 0 => pure ()
  | bound + 1 => do
    match (← get).nextDue? time with
    | none => pure ()
    | some d =>
      runDelayed self d
      runDue self time bound

def runUntil (self : Engine) (time : Nat) : Action Unit := do
  runDue self time ((← get).delayed.length + 1)

def runDelayedAll (self : Engine) : Action Unit := do
  let s ← get
  runUntil self ((s.delayed.map Delayed.due).foldl max 0)

/-- Lets time pass.  A shell that has a deadline is stopped then. -/
def passTime (self : Engine) (duration : Nat) : Action Unit := do
  if 0 < duration then
    let s ← get
    let time := s.clock + duration
    match s.deadline with
    | some deadline =>
      if deadline < time then
        runUntil self deadline
        modify fun s => { s with clock := max s.clock deadline }
        throw (.signal 15)
    | none => pure ()
    runUntil self time
    modify fun s => { s with clock := max s.clock time }

/-! ## Jobs -/

/-- Runs a command in the background.  If it takes time, it is put off. -/
def runBehind (self : Engine) (c : Command) : Action Unit := do
  let outer ← get
  let place ← openFile .null
  let number := outer.number + 100 + outer.jobs.length
  let streams := (0, place) :: outer.streams.filter fun t => t.1 != 0
  let before ← get
  let r ← catching (withStream 0 place (inProcess self (do
    modify fun s => { s with tested := false, deadline := none }
    self.run c)))
  let s ← get
  let isPutOff := outer.clock < s.clock
  let job : Job := ⟨number, s.last, outer.clock, false, false, none⟩
  let d : Delayed := ⟨number, outer.clock, s.clock, c, outer.parameters, outer.args, streams⟩
  set { (if isPutOff then { before with delayed := outer.delayed ++ [d] } else s) with
    last := 0, given := outer.given, lastJob := some number, jobs := job :: outer.jobs }
  if !isPutOff then rethrow r

def waitFor (self : Engine) (arg : Bytes) : Action Unit := do
  let number ←
    match arg with
    | '%' :: _ =>
      match (← get).jobAt? arg with
      | some j => pure j.number
      | none => fail ("No such job: ".toList ++ arg)
    | arg => numberOf arg
  match (← get).delayed.find? fun d => d.number == number with
  | some d =>
    runUntil self d.due
    modify fun s => { s with clock := max s.clock d.due }
  | none => pure ()
  match (← get).jobs.find? fun j => j.number == number with
  | none => setLast 127
  | some j =>
    match if j.waited then none else j.stopped.bind signalText? with
    | some text =>
      let _ ← write 2 (text ++ ['\n'])
    | none => pure ()
    modify fun s =>
      { s with
        last := j.status
        jobs := s.jobs.map fun k =>
          if k.number = number then { k with waited := true } else k }

def wait (self : Engine) (args : List Bytes) : Action Unit := do
  let (_, args) ← lettersOf "" "" args
  setLast 0
  if args.isEmpty then
    let s ← get
    let last := (s.delayed.map Delayed.due).foldl max s.clock
    runUntil self last
    modify fun s =>
      { s with
        clock := max s.clock last
        last := 0
        jobs := s.jobs.map fun j => { j with waited := true } }
  else args.forM (waitFor self)

/-- A command in the background may still run. -/
def State.isRunning (s : State) (j : Job) : Bool :=
  (s.delayed.any fun d => d.number == j.number) || (j.began == s.clock && !j.waited)

def State.shownJob (s : State) (place : Nat) (mark : Char) (j : Job) : Bytes :=
  let status :=
    if s.isRunning j then "Running".toList
    else
      match j.stopped with
      | some n => (signalText? n).getD []
      | none =>
        if j.status = 0 then "Done".toList else "Done(".toList ++ Bytes.ofNat j.status ++ [')']
  let text := '[' :: Bytes.ofNat place ++ [']', ' ', mark, ' '] ++ status
  text ++ List.replicate (33 - text.length) ' ' ++ ['\n']

/-- Lists the commands in the background that run or have ended since they were listed last. -/
def listJobs (args : List Bytes) : Action Unit := do
  let (letters, args) ← lettersOf "lp" "" args
  setLast 0
  let s ← get
  let places := s.jobs.reverse.zipIdx.reverse
  let chosen ←
    if args.isEmpty then pure (places.filter fun (j, _) => !j.listed)
    else args.mapM fun arg => do
      match s.jobAt? arg with
      | some j => return (j, (places.find? fun (k, _) => k.number == j.number).elim 0 (·.2))
      | none => fail ("No such job: ".toList ++ arg)
  for (j, i) in chosen do
    let t ← get
    let current := (t.jobs.filter fun j => !j.listed).map Job.number
    let mark :=
      if current.head? = some j.number then '+'
        else if current[1]? = some j.number then '-' else ' '
    if letters.any fun l => l.1 == 'p' then out (Bytes.ofNat j.number ++ ['\n'])
    else
      out (s.shownJob (i + 1) mark j)
      if !s.isRunning j then
        modify fun t =>
          { t with
            jobs := t.jobs.map fun (k : Job) =>
              if k.number = j.number then { k with listed := true } else k }

def continueJob (args : List Bytes) : Action Unit := do
  match args, (← get).jobs with
  | [], [] => fail "No current job".toList
  | [], _ => fail "job (null) not created under job control".toList
  | arg :: _, _ => fail ("No such job: ".toList ++ arg)

end PlanConstraints.Shell

import PlanConstraints.File.Tree
import PlanConstraints.Program.Bytes
import PlanConstraints.Translator

set_option autoImplicit false

/-!
# Programs

What a program is started with, and what is seen of it: the bytes it prints, those it complains
with, how it ends, and the files it leaves.  A program can serve as a translator of temporal
formulas.

What runs a program is a parameter (`Runner`), as is the translator of a compilation.  Nothing is
proved of the programs themselves; what a run makes of the answers of any program is said in
`PlanConstraints.Proofs.CommandLine.Run`.
-/

namespace PlanConstraints

/-- How a program ends. -/
inductive ExitStatus where
  | code (n : Nat)
  /-- The program was stopped by a signal. -/
  | signal (n : Nat)
  deriving DecidableEq, Repr

namespace ExitStatus

/-- The names of signals, from that with the number one on, without the letters that all have. -/
def signalNames : List String :=
  ["HUP", "INT", "QUIT", "ILL", "TRAP", "ABRT", "BUS", "FPE", "KILL", "USR1", "SEGV", "USR2",
    "PIPE", "ALRM", "TERM", "STKFLT", "CHLD", "CONT", "STOP", "TSTP", "TTIN", "TTOU", "URG", "XCPU",
    "XFSZ", "VTALRM", "PROF", "WINCH", "IO", "PWR", "SYS"]

def signalName? (n : Nat) : Option String := if n = 0 then none else signalNames[n - 1]?

def text : ExitStatus → String
  | code n => "exit status: " ++ toString n
  | signal n =>
    "signal: " ++ toString n ++
      match signalName? n with
      | some name => " (SIG" ++ name ++ ")"
      | none => ""

def number : ExitStatus → Nat
  | code n => n
  | signal n => 128 + n

end ExitStatus

/-- Where a program writes. -/
inductive Stream where
  | output
  | complaint
  deriving DecidableEq

/-- What a program is started with. -/
structure Call where
  /-- How the program is called. -/
  name : Bytes
  args : List Bytes
  input : Bytes
  /-- The input is a file, in which what has been read too far can be read again. -/
  inputStays : Bool
  environment : List (Bytes × Bytes)
  files : FileTree

/-- What is seen of a program that has run. -/
structure Outcome where
  /-- What was written, in this order. -/
  written : List (Stream × Bytes)
  status : ExitStatus
  files : FileTree

namespace Outcome

def on (o : Outcome) (stream : Stream) : Bytes :=
  o.written.flatMap fun (s, bytes) => if s = stream then bytes else []

end Outcome

/-- Runs programs; there may be a reason why a program cannot run. -/
abbrev Runner := Call → Except String Outcome

/-- The text that a program printed about a formula. -/
def Outcome.answer (program formula : String) (o : Outcome) : Except TranslatorError String :=
  if o.status ≠ .code 0 then
    .error (.failed program formula o.status.text
      (String.ofList (Text.trim (o.on .complaint).text.toList)))
  else
    match Text.decode (o.on .output).toList with
    | .error e => .error (.invalidOutput program e.message)
    | .ok cs =>
      if cs.all Text.isBlank then .error (.emptyOutput program formula)
      else .ok (String.ofList cs)

/-- A program that serves as a translator: it is given a flag and the formula; an empty flag is left
out. -/
structure TranslatorProgram where
  run : Runner
  program : String
  flag : String
  environment : List (Bytes × Bytes)

namespace TranslatorProgram

def call (p : TranslatorProgram) (files : FileTree) (formula : String) : Call where
  name := .ofText p.program
  args := (if p.flag = "" then [formula] else [p.flag, formula]).map .ofText
  input := []
  inputStays := false
  environment := p.environment
  files := files

/-- The files that the program leaves, and its answer. -/
def translate (p : TranslatorProgram) (files : FileTree) (formula : String) :
    FileTree × Except TranslatorError String :=
  if (p.program :: p.flag :: [formula]).any fun s => s.toList.contains '\x00' then
    (files, .error (.spawn p.program "nul byte found in provided data"))
  else
    match p.run (p.call files formula) with
    | .error reason => (files, .error (.spawn p.program reason))
    | .ok o => (o.files, o.answer p.program formula)

/-- How the answer of the program about a formula is described. -/
def describe (p : TranslatorProgram) (formula : String) : String :=
  p.program ++ " " ++ p.flag ++ " '" ++ formula ++ "'"

/-- The translator that runs the program on the given files. -/
def toTranslator (p : TranslatorProgram) (files : FileTree) : Translator where
  translate formula := (p.translate files formula).2
  describe := p.describe

end TranslatorProgram

end PlanConstraints

import PlanConstraints.Program.Basic
import PlanConstraints.Program.Tool.Quoting

set_option autoImplicit false

/-!
# Tools: jobs

A tool is a program that reads its input or files, and prints.  A job is what it does from the call
to its end: it writes, complains, notes that something failed, and goes on or stops.
-/

namespace PlanConstraints.Tool

/-- How far a job has come. -/
structure Progress where
  call : Call
  /-- What was written, the last first. -/
  written : List (Stream × Bytes)
  status : Nat
  files : FileTree
  input : Bytes
  tookInput : Bool
  /-- What is said behind a complaint about an option, if that is not where more is told. -/
  hint : Option Bytes

/-- What a tool does; it may stop early. -/
abbrev Job := EStateM Unit Progress

def Progress.fresh (c : Call) : Progress := ⟨c, [], 0, c.files, c.input, false, none⟩

def print (bytes : Bytes) : Job Unit :=
  modify fun p => { p with written := (.output, bytes) :: p.written }

def warn (bytes : Bytes) : Job Unit :=
  modify fun p => { p with written := (.complaint, bytes) :: p.written }

def complain (text : Bytes) : Job Unit := do
  warn ((← get).call.name ++ ": ".toList ++ text ++ ['\n'])

/-- The job ends with this status, unless it ends with another one that is no success. -/
def note (status : Nat) : Job Unit :=
  modify fun p => { p with status := if p.status = 0 then status else p.status }

def failOn (text : Bytes) : Job Unit := do
  complain text
  note 1

def stop {α : Type} (status : Nat) : Job α := do
  modify fun p => { p with status := status }
  throw ()

def fail {α : Type} (text : Bytes) (status : Nat := 1) : Job α := do
  complain text
  stop status

/-- Complains, says where more is told, and stops. -/
def refuse {α : Type} (text : Bytes) (status : Nat := 1) : Job α := do
  complain text
  let p ← get
  warn (p.hint.getD ("Try '".toList ++ p.call.name ++ " --help' for more information.\n".toList))
  stop status

/-! ## Files -/

def reasonOf : FileError → Bytes
  | .notFound => "No such file or directory".toList
  | .alreadyExists => "File exists".toList
  | .notAFolder => "Not a directory".toList
  | .isAFolder => "Is a directory".toList
  | .nameTooLong => "File name too long".toList
  | .notText | .zeroByte => "Invalid argument".toList
  | .noSpace => "No space left on device".toList

def takeInput : Job Bytes := do
  let p ← get
  set { p with input := [], tookInput := true }
  return p.input

def contentOf (path : Bytes) : Job (Except FileError Bytes) := do
  let p ← get
  match p.files.resolve (.ofText path.text) with
  | .error e => return .error e
  | .ok (.absent _) => return .error .notFound
  | .ok (.found _ (.device (.stream 0 _))) => return .ok (← takeInput)
  | .ok (.found _ e) =>
    match e.bytes? with
    | some bytes => return .ok (.ofList bytes)
    | none => return .error .isAFolder

/-- Puts bytes back that have been taken from the input, if they can be read from there again. -/
def giveBack (bytes : Bytes) : Job Unit :=
  modify fun p => if p.call.inputStays then { p with input := bytes } else p

/-- The bytes of a file, or of the input where a hyphen stands; a file that cannot be read is a
fault, and the job goes on.  What is said of the fault depends on whether the file is a folder. -/
def sourceOr (path : Bytes) (missing folder : Bytes → Bytes) : Job (Option Bytes) := do
  if path = ['-'] then return some (← takeInput)
  else
    match ← contentOf path with
    | .ok bytes => return some bytes
    | .error e =>
      let text := if e = .isAFolder then folder path else missing path
      failOn (text ++ ": ".toList ++ reasonOf e)
      return none

/-- The bytes of a file, or of the input where a hyphen stands; a file that cannot be read is a
fault, and the job goes on. -/
def source? (path : Bytes) : Job (Option Bytes) := sourceOr path fileName fileName

/-- The files that operands name, or the input if there are none. -/
def pathsOf (operands : List Bytes) : List Bytes := if operands.isEmpty then [['-']] else operands

/-- Goes through the bytes of files, or of the input if none is named. -/
def eachSource {α : Type} (operands : List Bytes)
    (start : α) (f : α → Bytes → Job α) : Job Unit := do
  let _ ← (pathsOf operands).foldlM (fun a path => do
    match ← source? path with
    | some bytes => f a bytes
    | none => return a) start

def writeFile (path content : Bytes) (append : Bool) : Job (Except FileError Unit) := do
  let p ← get
  match p.files.fileTarget (.ofText path.text) with
  | .error e => return .error e
  | .ok address =>
    match p.files.get? address with
    | some (.device .null) => return .ok ()
    | some (.device .full) => return if content = [] then .ok () else .error .noSpace
    | some (.device (.stream n _)) =>
      if n = 2 then warn content else print content
      return .ok ()
    | old =>
      let before : List UInt8 := if append then (old.bind Entry.bytes?).getD [] else []
      set { p with files := p.files.setEntry address (.ofBytes (before ++ content.toList)) }
      return .ok ()

/-! ## Options -/

/-- Whether an option takes a value. -/
inductive Valued where
  | never
  | always
  /-- Only where it is attached. -/
  | sometimes
  deriving DecidableEq

/-- An option: its key, which is its letter if it has one and no byte otherwise, and its names. -/
structure Known where
  key : Char
  names : List String
  value : Valued

def letter (c : Char) (names : List String := []) : Known := ⟨c, names, .never⟩

def valued (c : Char) (names : List String := []) : Known := ⟨c, names, .always⟩

/-- Options as they are given, by their keys, and what else is. -/
structure Given where
  options : List (Char × Bytes)
  operands : List Bytes

def Given.has (g : Given) (key : Char) : Bool := g.options.any fun o => o.1 == key

def Given.last? (g : Given) (key : Char) : Option Bytes :=
  (g.options.reverse.find? fun o => o.1 == key).map (·.2)

def Given.withOption (key : Char) (value : Bytes) (g : Given) : Given :=
  { g with options := (key, value) :: g.options }

/-- The options that a name may mean: the one of that name, or all whose names it starts. -/
def optionsNamed (known : List Known) (name : Bytes) : List (String × Known) :=
  let all := known.flatMap fun k => k.names.map fun n => (n, k)
  match all.find? fun (n, _) => n.toList == name with
  | some found => [found]
  | none => all.filter fun (n, _) => name.isPrefixOf n.toList

/-- How the arguments of a tool are read. -/
structure Style where
  known : List Known
  /-- Options may stand behind other arguments. -/
  anywhere : Bool
  /-- The status for options that are not known. -/
  status : Nat

mutual

def readLetters (s : Style) (bound : Nat) (group : Bytes) (args : List Bytes) : Job Given :=
  match bound, group with
  | 0, _ => return ⟨[], []⟩
  | bound + 1, [] => readArgs s bound args
  | bound + 1, c :: cs => do
    match s.known.find? fun k => k.key == c with
    | none => refuse ("invalid option -- '".toList ++ [c, '\'']) s.status
    | some k =>
      match k.value, cs, args with
      | .never, cs, args => return (← readLetters s bound cs args).withOption c []
      | .sometimes, cs, args => return (← readArgs s bound args).withOption c cs
      | .always, [], [] =>
        refuse ("option requires an argument -- '".toList ++ [c, '\'']) s.status
      | .always, [], value :: args => return (← readArgs s bound args).withOption c value
      | .always, cs, args => return (← readArgs s bound args).withOption c cs

def readArgs (s : Style) (bound : Nat) (args : List Bytes) : Job Given :=
  match bound, args with
  | 0, _ => return ⟨[], []⟩
  | _, [] => return ⟨[], []⟩
  | bound + 1, arg :: args => do
    match arg with
    | ['-', '-'] => return ⟨[], args⟩
    | '-' :: '-' :: body =>
      let (name, attached) := body.span (· != '=')
      let shown := "'--".toList ++ name ++ ['\'']
      match optionsNamed s.known name with
      | [] => refuse ("unrecognized option '".toList ++ arg.takeWhile (· != '=') ++ ['\'']) s.status
      | (full, k) :: others =>
        let full := "'--".toList ++ full.toList ++ ['\'']
        if others.any fun o => o.2.key != k.key then
          let names := ((optionsNamed s.known name).map fun o => " '--" ++ o.1 ++ "'").flatMap
            String.toList
          refuse ("option ".toList ++ shown ++ " is ambiguous; possibilities:".toList
            ++ names) s.status
        else
          match k.value, attached, args with
          | .never, [], args => return (← readArgs s bound args).withOption k.key []
          | .never, _ :: _, _ =>
            refuse ("option ".toList ++ full ++ " doesn't allow an argument".toList) s.status
          | _, _ :: value, args => return (← readArgs s bound args).withOption k.key value
          | .sometimes, [], args => return (← readArgs s bound args).withOption k.key []
          | .always, [], value :: args => return (← readArgs s bound args).withOption k.key value
          | .always, [], [] =>
            refuse ("option ".toList ++ full ++ " requires an argument".toList) s.status
    | '-' :: c :: cs => readLetters s bound (c :: cs) args
    | arg =>
      if s.anywhere then
        let g ← readArgs s bound args
        return { g with operands := arg :: g.operands }
      else return ⟨[], arg :: args⟩

end

def given (s : Style) : Job Given := do
  let args := (← get).call.args
  readArgs s (2 * args.flatten.length + 4 * args.length + 4) args

end PlanConstraints.Tool

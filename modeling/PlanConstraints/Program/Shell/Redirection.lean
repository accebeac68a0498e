import PlanConstraints.Program.Shell.Expansion

set_option autoImplicit false

/-!
# Shell: redirections

A redirection puts a file, another stream or a text of the script in the place of a stream, or
closes the stream.  The redirections of a command hold while it runs.
-/

namespace PlanConstraints.Shell

/-- The reason for which a file cannot be used, without its number. -/
def reasonOf : FileError → String
  | .notFound => "No such file or directory"
  | .alreadyExists => "File exists"
  | .notAFolder => "Not a directory"
  | .isAFolder => "Is a directory"
  | .nameTooLong => "File name too long"
  | .notText | .zeroByte => "Invalid argument"
  | .noSpace => "No space left on device"

/-- The reason with the words of the shell where the way to a file is missing. -/
def reasonWith (missing : String) : FileError → String
  | .notFound | .notAFolder => missing
  | e => reasonOf e

/-- A file that is opened, or a stream that takes its place. -/
inductive Opened where
  | file (f : OpenFile)
  | stream (number : Nat)

def openedAt (address : Address) (e : Entry) (f : OpenFile) : Opened :=
  match e with
  | .device .null => .file { f with medium := .null }
  | .device .full => .file { f with medium := .full }
  | .device (.stream number _) => .stream number
  | .folder => .file { f with medium := .folder }
  | _ => .file { f with medium := .file address }

def openToRead (files : FileTree) (path : Bytes) : Except FileError Opened :=
  match files.resolve (.ofText path.text) with
  | .error e => .error e
  | .ok (.absent _) => .error .notFound
  | .ok (.found address e) => .ok (openedAt address e ⟨.null, true, false, false, 0, [], []⟩)

/-- How a file is opened to write to it. -/
structure WriteMode where
  reads : Bool
  appends : Bool
  /-- The file loses what it held. -/
  empties : Bool

/-- Opens a file to write to it; it is made if it is missing. -/
def openToWrite (files : FileTree) (path : Bytes) (m : WriteMode) :
    Except FileError (FileTree × Opened) :=
  match files.fileTarget (.ofText path.text) with
  | .error e => .error e
  | .ok address =>
    let f : OpenFile := ⟨.null, m.reads, true, m.appends, 0, [], []⟩
    match files.get? address with
    | none => .ok (files.setEntry address (.text ""), openedAt address (.text "") f)
    | some e =>
      .ok (if m.empties then files.setBytesAt address [] else files, openedAt address e f)

/-- The path leads to a file that holds something, or could. -/
def isPlainFile (files : FileTree) (path : Bytes) : Bool :=
  match files.resolve (.ofText path.text) with
  | .ok (.found _ (.text _)) | .ok (.found _ (.bytes _)) | .ok (.found _ (.program _)) => true
  | _ => false

/-- The place of what has been opened; a stream that is closed has none. -/
def placeOf (opened : Opened) : Action (Option Nat) := do
  match opened with
  | .file f => return some (← openFile f)
  | .stream number => return (← get).streams.lookup number

def setStream (number : Nat) (place? : Option Nat) : Action Unit :=
  modify fun s =>
    let others := s.streams.filter fun t => t.1 != number
    { s with
      streams := match place? with
        | some place => (number, place) :: others
        | none => others }

/-- A redirection with the text of its word; the text that stands in the script is expanded only
when the redirection is made. -/
structure Target where
  number : Nat
  kind : RedirectKind
  text : Bytes
  parts : List Part

def expandTargets (self : Engine) : List Redirect → Action (List Target)
  | [] => return []
  | .mk number kind parts :: more => do
    let text ←
      match kind with
      | .here => pure []
      | .copy =>
        let text := (← expandWord self parts).headD []
        if text = ['-'] ∨ (text.length = 1 ∧ text.all Char.isDigit) then pure text
        else fail "Syntax error: Bad fd number".toList
      | _ => expandText self parts
    return ⟨number, kind, text, parts⟩ :: (← expandTargets self more)

def redirect (self : Engine) (t : Target) : Action Unit := do
  let files := (← get).system.files
  let writeTo (m : WriteMode) : Action Unit := do
    match openToWrite files t.text m with
    | .error e =>
      fail ("cannot create ".toList ++ t.text ++ ": ".toList
        ++ (reasonWith "Directory nonexistent" e).toList)
    | .ok (files, opened) =>
      modify fun s => { s with system := { s.system with files := files } }
      setStream t.number (← placeOf opened)
  match t.kind with
  | .here =>
    let text := textOf (← self.parts ⟨false, false, false, false⟩ t.parts)
    setStream t.number (some (← openFile (.pipe text)))
  | .copy =>
    match t.text with
    | ['-'] => setStream t.number none
    | text =>
      match (← get).streams.lookup (Bytes.valueOf text) with
      | some place => setStream t.number (some place)
      | none => fail (text ++ ": Bad file descriptor".toList)
  | .read =>
    match openToRead files t.text with
    | .error e =>
      fail ("cannot open ".toList ++ t.text ++ ": ".toList ++ (reasonWith "No such file" e).toList)
    | .ok opened => setStream t.number (← placeOf opened)
  | .readWrite => writeTo ⟨true, false, false⟩
  | .append => writeTo ⟨false, true, false⟩
  | .overwrite => writeTo ⟨false, false, true⟩
  | .write =>
    if (← hasOption 'C') && isPlainFile files t.text then
      fail ("cannot create ".toList ++ t.text ++ ": File exists".toList)
    else writeTo ⟨false, false, true⟩

/-- Makes redirections; tells whether all could be made. -/
def redirectAll (self : Engine) (targets : List Target) : Action Bool := do
  match ← catching (targets.forM (redirect self)) with
  | .ok _ => return true
  | .error .failure => return false
  | .error e => throw e

/-- Runs a command behind redirections; where these cannot be made, that is its end. -/
def withRedirects (self : Engine) (redirects : List Redirect) (a : Action Unit) : Action Unit := do
  let targets ← expandTargets self redirects
  let old := (← get).streams
  let made ← redirectAll self targets
  let r ← if made then catching a else pure (.ok ())
  restoreStreams old (targets.map Target.number)
  rethrow r

end PlanConstraints.Shell

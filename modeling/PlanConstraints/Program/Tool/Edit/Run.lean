import PlanConstraints.Program.Tool.Edit.Reader
import PlanConstraints.Program.Tool.Job

set_option autoImplicit false

/-!
# Tools: running edit scripts

A script is run on every line of the input.  It works on the line, and can hold a text from one line
to the next.  What commands put behind a line is printed when the script is done with it.
-/

namespace PlanConstraints.Tool.Edit

/-- A line of the input: its text, whether it has an end, and the name of its file. -/
structure InputLine where
  text : Bytes
  ended : Bool
  file : Bytes
  /-- The line is the last one of its file. -/
  lastOfFile : Bool

/-- What is put behind a line. -/
inductive Behind where
  | text (bytes : Bytes)
  | file (path : Bytes)

/-- How a script is run. -/
structure Mode where
  /-- Lines are not printed unless a command does. -/
  quiet : Bool
  /-- Every file has a last line, and line numbers start anew. -/
  separate : Bool
  ending : Char
  width : Nat

/-- What is known while a script runs. -/
structure Progress where
  /-- The lines that are still to be read. -/
  input : List InputLine
  line : Bytes
  /-- The line ends with an end of a line. -/
  ended : Bool
  file : Bytes
  isLast : Bool
  /-- The line is the last one of its file. -/
  fileEnds : Bool
  number : Nat
  held : Bytes
  behind : List Behind
  /-- Something was replaced since the line was read. -/
  replaced : Bool
  lastSought : Option (Regex × Regex.Mode)
  /-- The ends of the ranges that are open, by the places of their commands; the number of the last
  line, if it is known. -/
  ranges : List (Nat × Option Nat)
  /-- Commands whose ranges have been closed, and cannot be opened by a line number. -/
  closed : List Nat
  /-- What has been written, the last first; no path stands for the output. -/
  written : List (Option Bytes × Bytes)
  /-- Files whose last line has no end. -/
  openEnded : List (Option Bytes)
  /-- The lines of files that are read line by line, as far as they are left. -/
  readFiles : List (Bytes × List Bytes)
  files : FileTree

/-- How the run of a script on a line ends. -/
inductive Stop where
  /-- The line is done; it may be printed. -/
  | next (prints : Bool)
  /-- The script runs again on what is left of the line. -/
  | again
  | quit (status : Nat) (prints : Bool)
  | fault (message : String)

/-- Runs commands. -/
abbrev Run := EStateM Stop Progress

/-! ## Writing -/

/-- Writes a text to a file, or to the output; the end of a line may be missing. -/
def put (m : Mode) (path : Option Bytes) (text : Bytes) (ended : Bool) : Run Unit := do
  let p ← get
  let front : Bytes := if p.openEnded.contains path then [m.ending] else []
  let body := front ++ text ++ (if ended then [m.ending] else [])
  set { p with
    written := (path, body) :: p.written
    openEnded := if ended then p.openEnded.filter (· != path) else path :: p.openEnded }

def putRaw (m : Mode) (bytes : Bytes) : Run Unit := do
  let p ← get
  if bytes ≠ [] then
    let front : Bytes := if p.openEnded.contains none then [m.ending] else []
    set { p with written := (none, front ++ bytes) :: p.written
                 openEnded := p.openEnded.filter (· != none) }

/-- The bytes of a file, or none if it cannot be read. -/
def bytesOf (path : Bytes) : Run Bytes := do
  let files := (← get).files
  match files.resolve (.ofText path.text) with
  | .ok (.found _ e) => return .ofList ((e.bytes?).getD [])
  | _ => return []

def putBehind (m : Mode) : Run Unit := do
  for b in (← get).behind do
    match b with
    | .text bytes => putRaw m bytes
    | .file path => putRaw m (← bytesOf path)
  modify fun p => { p with behind := [] }

def finishLine (m : Mode) (prints : Bool) : Run Unit := do
  let p ← get
  if prints && !m.quiet then put m none p.line p.ended
  putBehind m

/-! ## Reading -/

def nextInput (m : Mode) : Run (Option InputLine) := do
  let p ← get
  match p.input with
  | [] => return none
  | line :: more =>
    set { p with
      input := more
      ended := line.ended
      file := line.file
      isLast := more.isEmpty || (m.separate && line.lastOfFile)
      number := if m.separate && p.fileEnds then 1 else p.number + 1
      fileEnds := line.lastOfFile }
    return some line

/-! ## Lines that are addressed -/

def resolveSought (s : Sought) : Run (Regex × Regex.Mode) := do
  match s with
  | some r =>
    modify fun p => { p with lastSought := some r }
    return r
  | none =>
    match (← get).lastSought with
    | some r => return r
    | none => throw (.fault "no previous regular expression")

def Address.holds : Address → Run Bool
  | .line n => return (← get).number == n
  | .last => return (← get).isLast
  | .found s => do
    let (r, mode) ← resolveSought s
    return Regex.occursIn mode r (← get).line
  | .every first step => do
    let n := (← get).number
    return if step = 0 then n == first else first ≤ n && (n - first) % step == 0

/-- The number of the last line of a range, if it is known, once the range has been opened. -/
def RangeEnd.lastNumber? (number : Nat) : RangeEnd → Option Nat
  | .at (.line n) => some n
  | .at _ => none
  | .behind n => some (number + n)
  | .multiple n => some (if n = 0 then number else (number / n + 1) * n)

def inRange (place : Nat) (first : Address) (finish : RangeEnd) : Run Bool := do
  let p ← get
  let closeRange : Run Unit := modify fun p =>
    { p with ranges := p.ranges.filter fun r => r.1 != place, closed := place :: p.closed }
  let isOpen := (p.ranges.lookup place).isSome || (match first with
    | .line 0 => !p.closed.contains place
    | _ => false)
  if isOpen then
    match (p.ranges.lookup place).join, finish with
    | some n, _ =>
      if n ≤ p.number then closeRange
      if p.number ≤ n then return true else first.holds
    | none, .at a =>
      if ← a.holds then closeRange
      return true
    | none, _ => return true
  else if ← first.holds then
    match finish.lastNumber? p.number with
    | some n =>
      if p.number < n then modify fun p => { p with ranges := (place, some n) :: p.ranges }
    | none => modify fun p => { p with ranges := (place, none) :: p.ranges }
    return true
  else return false

def Selection.holds (s : Selection) (place : Nat) : Run Bool := do
  let answer ←
    match s.first, s.range with
    | none, _ => pure true
    | some a, none => a.holds
    | some a, some e => inRange place a e
  return answer != s.negated

/-! ## Replacing -/

/-- How the letters of a replacement are changed: the lasting way, and the way for the next letter.
-/
abbrev CasingState := Casing × Casing

def cased (s : CasingState) (text : Bytes) : CasingState × Bytes :=
  match text with
  | [] => (s, [])
  | c :: cs =>
    let lasting (c : Char) : Char := match s.1 with
      | .upper => c.toUpper
      | .lower => c.toLower
      | _ => c
    let first := match s.2 with
      | .nextUpper => c.toUpper
      | .nextLower => c.toLower
      | _ => lasting c
    ((s.1, .plain), first :: cs.map lasting)

def replacementText (o : Regex.Occurrence) (s : CasingState) : List Piece → Bytes
  | [] => []
  | .text cs :: more =>
    let (s, out) := cased s cs
    out ++ replacementText o s more
  | .group n :: more =>
    let (s, out) := cased s (if n = 0 then o.text else (o.groups.lookup n).getD [])
    out ++ replacementText o s more
  | .casing c :: more =>
    match c with
    | .nextUpper | .nextLower => replacementText o (s.1, c) more
    | c => replacementText o (c, .plain) more

/-- Replaces occurrences from the one of a number on.  `passed` is the text in front, in reverse,
and `adjacent` tells that another occurrence ends here. -/
def replaceFrom (r : Regex) (mode : Regex.Mode) (s : Substitution) :
    Nat → Nat → Bytes → Bool → Bytes → Bytes × Bool
  | 0, _, _, _, rest => (rest, false)
  | bound + 1, number, passed, adjacent, rest =>
    match Regex.findFrom mode r passed (rest.length + 1) rest with
    | none => (rest, false)
    | some o =>
      let skipped := rest.take (rest.length - (o.text.length + o.behind.length))
      let step (number : Nat) (out : Bytes) : Bytes × Bool :=
        match o.text, o.behind with
        | [], [] => (skipped ++ out, true)
        | [], c :: behind =>
          let (more, _) :=
            replaceFrom r mode s bound number (c :: (skipped.reverse ++ passed)) false behind
          (skipped ++ out ++ c :: more, true)
        | text, behind =>
          let (more, _) :=
            replaceFrom r mode s bound number
              (text.reverse ++ skipped.reverse ++ passed) true behind
          (skipped ++ out ++ more, true)
      if o.text = [] ∧ skipped = [] ∧ adjacent then
        match o.behind with
        | [] => ([], false)
        | c :: behind =>
          let (more, found) := replaceFrom r mode s bound number (c :: passed) false behind
          (c :: more, found)
      else if number < s.number then
        match o.text, o.behind with
        | [], [] => (rest, false)
        | [], c :: behind =>
          let (more, found) :=
            replaceFrom r mode s bound (number + 1) (c :: (skipped.reverse ++ passed)) false behind
          (skipped ++ c :: more, found)
        | text, behind =>
          let (more, found) := replaceFrom r mode s bound (number + 1)
            (text.reverse ++ skipped.reverse ++ passed) true behind
          (skipped ++ text ++ more, found)
      else
        let out := replacementText o (.plain, .plain) s.pieces
        if s.global then step (number + 1) out
        else (skipped ++ out ++ o.behind, true)

def substitute (m : Mode) (s : Substitution) : Run Unit := do
  let (r, mode) ← resolveSought s.sought
  let p ← get
  match replaceFrom r mode s (2 * p.line.length + 4) 1 [] false p.line with
  | (_, false) => pure ()
  | (line, true) =>
    set { p with line := line, replaced := true, lastSought := some (r, mode) }
    if s.prints then put m none line p.ended
    match s.file with
    | some path => put m (some path) line p.ended
    | none => pure ()

/-! ## Listing -/

def listed (c : Char) : Bytes :=
  if c = '\\' then ['\\', '\\']
  else if isPrintable c then [c]
  else '\\' :: escapeOf c

def wrapped (width used : Nat) : List Bytes → Bytes
  | [] => []
  | piece :: more =>
    if 1 < width ∧ width - 1 < used + piece.length then
      '\\' :: '\n' :: piece ++ wrapped width piece.length more
    else piece ++ wrapped width (used + piece.length) more

/-! ## Commands -/

/-- The place of the end of the block that is open in front of a place. -/
def blockEnd (commands : Array Command) : Nat → Nat → Nat → Nat
  | 0, _, place => place
  | bound + 1, depth, place =>
    match (commands[place]?).map Command.action with
    | none => place
    | some .openBlock => blockEnd commands bound (depth + 1) (place + 1)
    | some .closeBlock => if depth = 0 then place
      else blockEnd commands bound (depth - 1) (place + 1)
    | some _ => blockEnd commands bound depth (place + 1)

/-- The place of a label; an empty one stands for the end of the script. -/
def labelPlace? (commands : Array Command) (name : Bytes) : Option Nat :=
  if name = [] then some commands.size
  else
    commands.findIdx? fun c =>
      match c.action with
      | .label other => other == name
      | _ => false

def firstLine (text : Bytes) : Bytes := text.takeWhile (· != '\n')

/-- Reads another line; if there is none, the script ends. -/
def nextLine (m : Mode) : Run InputLine := do
  match ← nextInput m with
  | some line => return line
  | none => throw (.quit 0 true)

def runAction (m : Mode) (commands : Array Command) (place : Nat) (s : Selection) (a : Action) :
    Run Nat := do
  let p ← get
  let go (label : Bytes) : Run Nat := return (labelPlace? commands label).getD commands.size
  let next := place + 1
  match a with
  | .openBlock | .closeBlock | .label _ | .nothing => return next
  | .append text =>
    set { p with behind := p.behind ++ [Behind.text text] }
    return next
  | .insert text =>
    putRaw m text
    return next
  | .change text =>
    let inside := s.range.isSome && !s.negated && (p.ranges.lookup place).isSome
    if !inside then putRaw m text
    throw (.next false)
  | .branch label => go label
  | .branchIf wanted label =>
    set { p with replaced := false }
    if p.replaced = wanted then go label else return next
  | .delete => throw (.next false)
  | .deleteFirst =>
    match p.line.dropWhile (· != '\n') with
    | [] => throw (.next false)
    | _ :: rest =>
      set { p with line := rest }
      throw .again
  | .printName =>
    put m none p.file true
    return next
  | .getHeld =>
    set { p with line := p.held }
    return next
  | .appendHeld =>
    set { p with line := p.line ++ '\n' :: p.held }
    return next
  | .hold =>
    set { p with held := p.line }
    return next
  | .appendToHeld =>
    set { p with held := p.held ++ '\n' :: p.line }
    return next
  | .exchange =>
    set { p with held := p.line, line := p.held }
    return next
  | .list width =>
    let width := width.getD m.width
    put m none (wrapped width 0 (p.line.map listed ++ [['$']])) true
    return next
  | .next =>
    if p.input.isEmpty then throw (.quit 0 true)
    finishLine m true
    let line ← nextLine m
    modify fun p => { p with line := line.text }
    return next
  | .appendNext =>
    if p.input.isEmpty then throw (.quit 0 true)
    putBehind m
    let line ← nextLine m
    modify fun p => { p with line := p.line ++ '\n' :: line.text }
    return next
  | .print =>
    put m none p.line p.ended
    return next
  | .printFirst =>
    put m none (firstLine p.line) true
    return next
  | .quit status prints => throw (.quit status prints)
  | .readFile path =>
    set { p with behind := p.behind ++ [Behind.file path] }
    return next
  | .readLine path =>
    let lines ←
      match p.readFiles.lookup path with
      | some lines => pure lines
      | none => Bytes.lines <$> bytesOf path
    match lines with
    | [] => pure ()
    | line :: more =>
      set { p with
        behind := p.behind ++ [Behind.text (line ++ ['\n'])]
        readFiles := (path, more) :: p.readFiles.filter fun f => f.1 != path }
    return next
  | .writeFile path onlyFirst =>
    put m (some path) (if onlyFirst then firstLine p.line else p.line) (onlyFirst || p.ended)
    return next
  | .substitute r =>
    substitute m r
    return next
  | .replaceChars pairs =>
    set { p with line := p.line.map fun c => (pairs.lookup c).getD c }
    return next
  | .number =>
    putRaw m (Bytes.ofNat p.number ++ ['\n'])
    return next
  | .clear =>
    set { p with line := [] }
    return next

def runFrom (m : Mode) (commands : Array Command) : Nat → Nat → Run Unit
  | 0, _ => throw (.quit 4 false)
  | bound + 1, place => do
    match commands[place]? with
    | none => throw (.next true)
    | some c =>
      if ← c.selection.holds place then
        runFrom m commands bound (← runAction m commands place c.selection c.action)
      else
        match c.action with
        | .openBlock => runFrom m commands bound (blockEnd commands commands.size 0 (place + 1) + 1)
        | _ => runFrom m commands bound (place + 1)

def stopOf (commands : Run Unit) : Run Stop := fun p =>
  match commands p with
  | .ok _ p => .ok (.next true) p
  | .error s p => .ok s p

/-- Scripts run no more commands than that on a line. -/
def stepLimit : Nat := 200000

/-- Runs a script on all lines; returns the status. -/
def runLines (m : Mode) (commands : Array Command) (fresh : Bool) : Nat → Run Nat
  | 0 => return 0
  | bound + 1 => do
    if fresh then
      match ← nextInput m with
      | none => return 0
      | some line => modify fun p => { p with line := line.text, replaced := false }
    match ← stopOf (runFrom m commands stepLimit 0) with
    | .next prints =>
      finishLine m prints
      runLines m commands true bound
    | .again =>
      putBehind m
      runLines m commands false bound
    | .quit status prints =>
      finishLine m prints
      return status
    | .fault message => throw (.fault message)

end PlanConstraints.Tool.Edit

namespace PlanConstraints.Tool

open Edit

def editedLines (ending : Char) (files : List (Bytes × Bytes)) : List InputLine :=
  files.flatMap fun (name, bytes) =>
    let pieces := Text.split ending bytes
    let isEnded := pieces.getLast? == some []
    let texts := if isEnded then pieces.dropLast else pieces
    texts.dropLast.map (fun text => ⟨text, true, name, false⟩)
      ++ texts.getLast?.toList.map fun text => ⟨text, isEnded, name, true⟩

/-- Where a fault lies: the number of the expression, and of the character in it. -/
def placeInScripts (number : Nat) : List Bytes → Nat → Nat × Nat
  | script :: more, passed =>
    if passed ≤ script.length ∨ more = [] then (number, passed)
    else placeInScripts (number + 1) more (passed - (script.length + 1))
  | [], passed => (number, passed)

def writeEdited (written : List (Option Bytes × Bytes)) : Job Unit := do
  let paths := (written.filterMap (·.1)).eraseDups
  for path in paths do
    if path ≠ "/dev/stdout".toList ∧ path ≠ "/dev/stderr".toList then
      let bytes := (written.filter fun w => w.1 == some path).flatMap (·.2)
      match ← writeFile path bytes false with
      | .ok () => pure ()
      | .error e => fail ("couldn't open file ".toList ++ path ++ ": ".toList ++ reasonOf e) 4
  for (path?, bytes) in written do
    if path? = none ∨ path? = some "/dev/stdout".toList then print bytes
    else if path? = some "/dev/stderr".toList then warn bytes

def missingLabel? (commands : Array Command) : Option Bytes :=
  (commands.toList.filterMap fun c =>
    match c.action with
    | .branch label | .branchIf _ label => some label
    | _ => none).find? fun label => (labelPlace? commands label).isNone

def filesOf (commands : Array Command) : List Bytes :=
  commands.toList.filterMap fun c =>
    match c.action with
    | .writeFile path _ => some path
    | .substitute s => s.file
    | _ => none

def runEdit (m : Mode) (commands : Array Command) (files : List (Bytes × Bytes)) :
    Job (Nat × List (Option Bytes × Bytes)) := do
  let lines := editedLines m.ending files
  let start : Edit.Progress :=
    { input := lines, line := [], ended := true, file := ['-'], isLast := false, fileEnds := false,
      number := 0, held := [], behind := [], replaced := false, lastSought := none, ranges := [],
      closed := [], written := [], openEnded := [], readFiles := [], files := (← get).files }
  let bytes := (files.flatMap (·.2)).length
  match Edit.runLines m commands true (2 * bytes + lines.length + 2) start with
  | .ok status p => return (status, p.written.reverse)
  | .error (.fault message) p =>
    writeEdited p.written.reverse
    fail ("-e expression #1, char 0: ".toList ++ message.toList)
  | .error _ p => return (0, p.written.reverse)

def sed : Job Unit := do
  let g ← given ⟨[letter 'n' ["quiet", "silent"], valued 'e' ["expression"], valued 'f' ["file"],
    letter 'E' ["regexp-extended"], letter 'r', letter 's' ["separate"],
    ⟨'i', ["in-place"], .sometimes⟩,
    letter 'u' ["unbuffered"], letter 'z' ["null-data"], valued 'l' ["line-length"],
    letter 'p' ["posix"], letter 'd' ["debug"]], true, 1⟩
  let asked := g.options.filter fun o => o.1 == 'e' || o.1 == 'f'
  let (scripts, operands) ←
    if asked.isEmpty then
      match g.operands with
      | [] => stop 1
      | script :: more => pure ([script], more)
    else
      let scripts ← asked.mapM fun (key, text) => do
        if key = 'e' then return text
        else
          match ← if text = ['-'] then Except.ok <$> takeInput else contentOf text with
          | .ok bytes => return if bytes.getLast? = some '\n' then bytes.dropLast else bytes
          | .error e =>
            fail ("couldn't open file ".toList ++ text ++ ": ".toList ++ reasonOf e) 4
      pure (scripts, g.operands)
  let script := Bytes.joined ['\n'] scripts
  let quiet := g.has 'n' || script.take 3 = ['#', 'n', '\n'] || script = ['#', 'n']
  match Edit.read (g.has 'E' || g.has 'r') script with
  | .error (message, passed) =>
    let (number, place) := placeInScripts 1 scripts passed
    fail ("-e expression #".toList ++ Bytes.ofNat number ++ ", char ".toList ++ Bytes.ofNat place
      ++ ": ".toList ++ message.toList)
  | .ok commands =>
    let commands := commands.toArray
    match missingLabel? commands with
    | some label => fail ("can't find label for jump to \x60".toList ++ label ++ ['\'']) 4
    | none => pure ()
    let m : Mode :=
      { quiet := quiet, separate := g.has 's' || g.has 'i'
        ending := if g.has 'z' then '\x00' else '\n'
        width := ((g.last? 'l').bind Bytes.natural?).getD 70 }
    for path in filesOf commands do
      if path ≠ "/dev/stdout".toList ∧ path ≠ "/dev/stderr".toList then
        match ← writeFile path [] false with
        | .ok () => pure ()
        | .error e => fail ("couldn't open file ".toList ++ path ++ ": ".toList ++ reasonOf e) 4
    let paths := pathsOf operands
    let read ← paths.mapM fun path => do
      if path = ['-'] ∧ !g.has 'i' then return some (path, ← takeInput)
      else
        match ← contentOf path with
        | .ok bytes => return some (path, bytes)
        | .error .isAFolder =>
          if g.has 'i' then
            failWithStatus 4 ("couldn't edit ".toList ++ path ++ ": not a regular file".toList)
          else fail ("read error on ".toList ++ path ++ ": Is a directory".toList) 4
          return none
        | .error e =>
          failWithStatus 2 ("can't read ".toList ++ path ++ ": ".toList ++ reasonOf e)
          return none
    let found := read.filterMap id
    if g.has 'i' then
      for (path, bytes) in found do
        let (status, written) ← runEdit m commands [(path, bytes)]
        let inside := (written.filter fun w => w.1.isNone).flatMap (·.2)
        writeEdited (written.filter fun w => w.1.isSome)
        let suffix := (g.last? 'i').getD []
        if suffix ≠ [] then
          let _ ← writeFile (path ++ suffix) bytes false
        let _ ← writeFile path inside false
        note status
    else
      let (status, written) ← runEdit m commands found
      writeEdited written
      if status ≠ 0 then stop status
where
  failWithStatus (status : Nat) (text : Bytes) : Job Unit := do
    complain text
    note status

end PlanConstraints.Tool

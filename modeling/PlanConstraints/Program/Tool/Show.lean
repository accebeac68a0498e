import PlanConstraints.Program.Tool.Job

set_option autoImplicit false

/-!
# Tools: showing files

Files are printed as they are, with marks, in part, or the other way round.
-/

namespace PlanConstraints.Tool

/-! ## Whole files -/

/-- How the bytes of files are marked. -/
structure Marking where
  numbers : Bool
  /-- Only lines that are not empty are numbered. -/
  onlyFull : Bool
  ends : Bool
  tabs : Bool
  controls : Bool
  squeezes : Bool

def Marking.char (m : Marking) (c : Char) : Bytes :=
  if c = '\t' then if m.tabs then ['^', 'I'] else ['\t']
  else if !m.controls then [c]
  else
    let low (n : Nat) : Bytes :=
      if n < 32 then ['^', Char.ofNat (n + 64)] else if n = 127 then ['^', '?'] else [Char.ofNat n]
    let n := c.toNat
    if 128 ≤ n then 'M' :: '-' :: low (n - 128) else low n

def rightAligned (width : Nat) (text : Bytes) : Bytes :=
  List.replicate (width - text.length) ' ' ++ text

/-- Lines as they are shown.  `number` is that of the next line, and `blank` tells that the last one
was empty. -/
def Marking.lines (m : Marking) (ended : Bool) (number : Nat) (blank : Bool) : List Bytes → Bytes
  | [] => []
  | line :: more =>
    if m.squeezes && blank && line.isEmpty then m.lines ended number blank more
    else
      let numbered := if m.onlyFull then !line.isEmpty else m.numbers
      let front := if numbered then rightAligned 6 (Bytes.ofNat number) ++ ['\t'] else []
      let isOpen := more.isEmpty && !ended
      let body := line.flatMap m.char
      let body :=
        if m.ends && !m.controls && !isOpen && line.getLast? == some '\r'
          then body.dropLast ++ ['^', 'M']
        else body
      front ++ body ++ (if isOpen then [] else if m.ends then ['$', '\n'] else ['\n'])
        ++ m.lines ended (if numbered then number + 1 else number) line.isEmpty more

def Marking.bytes (m : Marking) (bytes : Bytes) : Bytes :=
  let (lines, ended) := Bytes.linesFrom [] bytes
  m.lines ended 1 false lines

def cat : Job Unit := do
  let g ← given ⟨[letter 'A' ["show-all"], letter 'b' ["number-nonblank"], letter 'e',
    letter 'E' ["show-ends"], letter 'n' ["number"], letter 's' ["squeeze-blank"], letter 't',
    letter 'T' ["show-tabs"], letter 'u', letter 'v' ["show-nonprinting"]], true, 1⟩
  let all := g.has 'A'
  let m : Marking :=
    { numbers := g.has 'n', onlyFull := g.has 'b', ends := g.has 'E' || g.has 'e' || all
      tabs := g.has 'T' || g.has 't' || all
      controls := g.has 'v' || g.has 'e' || g.has 't' || all, squeezes := g.has 's' }
  let marks := m.numbers || m.onlyFull || m.ends || m.tabs || m.controls || m.squeezes
  eachSource g.operands [] fun before bytes => do
    if marks then
      let all := before ++ bytes
      print ((m.bytes all).drop (m.bytes before).length)
      return all
    else
      print bytes
      return []

def tac : Job Unit := do
  let g ← given ⟨[], true, 1⟩
  for path in pathsOf g.operands do
    match ← sourceOr path
      (fun name => "failed to open ".toList ++ quoted name ++ " for reading".toList)
        (fun name => quoted name ++ ": read error".toList) with
    | none => pure ()
    | some bytes =>
      let (lines, ended) := Bytes.linesFrom [] bytes
      match ended, lines.reverse with
      | false, last :: more => print (last ++ Bytes.unlines more)
      | _, lines => print (Bytes.unlines lines)

def rev : Job Unit := do
  let g ← given ⟨[], true, 1⟩
  for path in pathsOf g.operands do
    match ← sourceOr path (fun name => "cannot open ".toList ++ name) (fun name => name) with
    | none => pure ()
    | some bytes =>
      let (lines, ended) := Bytes.linesFrom [] bytes
      let text := Bytes.joined ['\n'] (lines.map List.reverse)
      print (if ended && !lines.isEmpty then text ++ ['\n'] else text)

/-! ## Parts of files -/

/-- The letters behind a number that make it larger. -/
def multiplier? (text : Bytes) : Option Nat :=
  match String.ofList text with
  | "" => some 1
  | "b" => some 512
  | "kB" => some 1000
  | "k" | "K" | "KiB" => some 1024
  | "MB" => some (1000 * 1000)
  | "m" | "M" | "MiB" => some (1024 * 1024)
  | "GB" => some (1000 * 1000 * 1000)
  | "g" | "G" | "GiB" => some (1024 * 1024 * 1024)
  | _ => none

/-- The number that a text stands for, with letters behind it. -/
def countOf? (text : Bytes) : Option Nat :=
  let (digits, letters) := Bytes.splitDigits text
  if digits = [] then none else (multiplier? letters).map (· * Bytes.valueOf digits)

/-- A part of a file: so many lines or bytes, counted from one end. -/
structure Extent where
  lines : Bool
  count : Nat
  /-- The number counts from the other end. -/
  other : Bool

def Extent.pieces (e : Extent) (bytes : Bytes) : List Bytes :=
  if e.lines then
    let (lines, ended) := Bytes.linesFrom [] bytes
    if ended then lines.map (· ++ ['\n'])
    else lines.dropLast.map (· ++ ['\n']) ++ lines.getLast?.toList
  else bytes.map ([·])

def Extent.start (e : Extent) (bytes : Bytes) : Bytes :=
  let pieces := e.pieces bytes
  (if e.other then pieces.take (pieces.length - e.count) else pieces.take e.count).flatten

def Extent.finish (e : Extent) (bytes : Bytes) : Bytes :=
  let pieces := e.pieces bytes
  (if e.other then pieces.drop (e.count - 1) else pieces.drop (pieces.length - e.count)).flatten

/-- The extent that an option asks for; a sign tells from which end the number counts. -/
def readExtent (sign : Char) (lines : Bool) (text : Bytes) : Job Extent := do
  let (other, body) := match text with
    | '-' :: body => (sign == '-', body)
    | '+' :: body => (sign == '+', body)
    | body => (false, body)
  match countOf? body with
  | some n => return ⟨lines, n, other⟩
  | none =>
    fail ("invalid number of ".toList ++ (if lines then "lines" else "bytes").toList ++ ": ".toList
      ++ quoted (if sign = '-' then (if other then text else body) else text))

/-- The options of the old way to ask for a number: a sign, digits and a letter. -/
def oldExtent? (sign : Char) (arg : Bytes) : Option Extent :=
  match arg with
  | s :: body =>
    let (digits, letters) := Bytes.splitDigits body
    if digits = [] ∨ (s ≠ '-' ∧ s ≠ sign) then none
    else
      let n := Bytes.valueOf digits
      let other := s == '+'
      match letters with
      | [] | ['l'] | ['q'] | ['v'] | ['f'] => some ⟨true, n, other⟩
      | ['c'] => some ⟨false, n, other⟩
      | _ => none
  | [] => none

/-- Prints parts of files, with their names if there are several. -/
def showParts (old? : Option Extent) (sign : Char) (part : Extent → Bytes → Bytes) (front : Bool) :
    Job Unit := do
  let p ← get
  if old?.isSome then set { p with call := { p.call with args := p.call.args.tail } }
  let g ← given ⟨[valued 'n' ["lines"], valued 'c' ["bytes"], letter 'q' ["quiet", "silent"],
    letter 'v' ["verbose"], letter 'z' ["zero-terminated"], ⟨'f', ["follow"], .sometimes⟩], true, 1⟩
  let asked := g.options.filter fun o => o.1 == 'n' || o.1 == 'c'
  let extents ← asked.mapM fun (key, text) => readExtent sign (key == 'n') text
  let e := (extents.getLast?.or old?).getD ⟨true, 10, false⟩
  let paths := pathsOf g.operands
  let named := (1 < paths.length || g.has 'v') && !g.has 'q'
  let _ ← paths.foldlM (fun (shown : Nat) path => do
    match ← sourceOr path
      (fun name => "cannot open ".toList ++ quoted name ++ " for reading".toList)
        (fun name => "error reading ".toList ++ quoted name) with
    | none => return shown
    | some bytes =>
      if named then
        let name := if path = ['-'] then "standard input".toList else path
        print ((if 0 < shown then ['\n'] else []) ++ "==> ".toList ++ name ++ " <==\n".toList)
      print (part e bytes)
      if front && path = ['-'] then giveBack (bytes.drop (part e bytes).length)
      return shown + 1) 0

def head : Job Unit := do
  let args := (← get).call.args
  showParts ((args.head?).bind (oldExtent? '-')) '-' Extent.start true

def tail : Job Unit := do
  let args := (← get).call.args
  showParts ((args.head?).bind (oldExtent? '+')) '+' Extent.finish false

end PlanConstraints.Tool

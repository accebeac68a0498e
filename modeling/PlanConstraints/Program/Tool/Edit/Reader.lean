import PlanConstraints.Program.Regex.Reader
import PlanConstraints.Program.Tool.Edit.Basic

set_option autoImplicit false

/-!
# Tools: reading edit scripts

A script is read command by command.  A fault is reported with the number of characters that have
been read up to it.
-/

namespace PlanConstraints.Tool.Edit

/-- Causes for which a script cannot be read. -/
inductive Fault where
  | text (message : String)
  /-- What is wrong lies at no place. -/
  | nowhere (message : String)

/-- What is still to be read. -/
structure Cursor where
  rest : Bytes
  /-- The number of characters that have been read. -/
  passed : Nat
  /-- Expressions are written in the extended way. -/
  extended : Bool
  /-- Blocks that are open. -/
  depth : Nat

abbrev Read := EStateM Fault Cursor

def failWith {α : Type} (message : String) : Read α := throw (.text message)

def peekChar : Read (Option Char) := return (← get).rest.head?

def takeChar : Read (Option Char) := do
  let s ← get
  match s.rest with
  | [] => return none
  | c :: rest =>
    set { s with rest := rest, passed := s.passed + 1 }
    return some c

/-- Takes characters as long as a test accepts them. -/
def takeWhile (test : Char → Bool) : Read Bytes := do
  let s ← get
  let taken := s.rest.takeWhile test
  set { s with rest := s.rest.drop taken.length, passed := s.passed + taken.length }
  return taken

def skipBlanks : Read Unit := do
  let _ ← takeWhile fun c => c == ' ' || c == '\t' || c == '\r' || c == '\x0b' || c == '\x0c'

def takeNumber : Read Nat := return Bytes.valueOf (← takeWhile Char.isDigit)

/-! ## Texts between marks -/

/-- How a text between marks is read. -/
structure MarkStyle where
  mark : Char
  /-- The text is an expression, in whose brackets a mark is none. -/
  expression : Bool
  /-- Signs of the expression; a mark that is one of them keeps the backslash in front of it. -/
  signs : List Char

/-- The text up to a mark.  A mark behind a backslash is none.  `inside` is the place in brackets.
-/
def splitMark (m : MarkStyle) : Option Nat → Bytes → Option (Bytes × Bytes)
  | _, [] | none, ['\\'] => none
  | none, '\\' :: c :: cs =>
    let kept : Bytes :=
      if c = '\n' then ['\n']
      else if c = m.mark then if m.expression ∧ m.signs.contains c then ['\\', c] else [c]
      else ['\\', c]
    (splitMark m none cs).map fun (text, rest) => (kept ++ text, rest)
  | inside, c :: cs =>
    let goOn (inside : Option Nat) : Option (Bytes × Bytes) :=
      (splitMark m inside cs).map fun (text, rest) => (c :: text, rest)
    if c = '\n' then none
    else
      match inside with
      | some place =>
        if c = ']' ∧ 1 ≤ place then goOn none
        else if c = '^' ∧ place = 0 then goOn (some 0)
        else goOn (some (place + 1))
      | none =>
        if c = m.mark then some ([], cs)
        else if c = '[' ∧ m.expression then goOn (some 0)
        else goOn none

def takeMarked (mark : Char) (expression : Bool) (message : String) : Read Bytes := do
  let s ← get
  let signs := if s.extended then ".*[]^$+?()\x7b|\x7d" else ".*[]^$"
  match splitMark ⟨mark, expression, signs.toList⟩ none s.rest with
  | some (text, rest) =>
    set { s with rest := rest, passed := s.passed + (s.rest.length - rest.length) }
    return text
  | none =>
    set { s with rest := [], passed := s.passed + s.rest.length }
    failWith message

/-- The expression that a text is; an empty one stands for that which was used last. -/
def readSought (text : Bytes) (folds byLines : Bool) : Read Sought := do
  if text = [] then return none
  else
    match Regex.ofBytes ⟨(← get).extended, true, false⟩ (Regex.withoutCodes text.length text) with
    | .ok r => return some (r, ⟨folds, byLines⟩)
    | .error f => failWith f.message

/-! ## Addresses -/

def takeAddressFlags : Nat → Bool × Bool → Read (Bool × Bool)
  | 0, flags => return flags
  | bound + 1, flags => do
    match ← peekChar with
    | some 'I' =>
      let _ ← takeChar
      takeAddressFlags bound (true, flags.2)
    | some 'M' =>
      let _ ← takeChar
      takeAddressFlags bound (flags.1, true)
    | _ => return flags

def readAddress? : Read (Option Address) := do
  match ← peekChar with
  | some '$' =>
    let _ ← takeChar
    return some .last
  | some c =>
    if c.isDigit then
      let n ← takeNumber
      skipBlanks
      if (← peekChar) == some '~' then
        let _ ← takeChar
        return some (.every n (← takeNumber))
      else return some (.line n)
    else if c = '/' ∨ c = '\\' then
      let _ ← takeChar
      let mark ← if c = '\\' then takeChar else pure (some '/')
      match mark with
      | none => failWith "unexpected \x60,'"
      | some mark =>
        let text ← takeMarked mark true "unterminated address regex"
        let (folds, byLines) ← takeAddressFlags 8 (false, false)
        return some (.found (← readSought text folds byLines))
    else return none
  | none => return none

def readRangeEnd : Read RangeEnd := do
  match ← peekChar with
  | some '+' =>
    let _ ← takeChar
    return .behind (← takeNumber)
  | some '~' =>
    let _ ← takeChar
    return .multiple (← takeNumber)
  | _ =>
    match ← readAddress? with
    | some a => return .at a
    | none =>
      let _ ← takeChar
      failWith "unexpected \x60,'"

def isZero : Option Address → Bool
  | some (.line 0) => true
  | _ => false

def Selection.endsAtFound (s : Selection) : Bool :=
  match s.range with
  | some (.at (.found _)) => true
  | _ => false

def readSelection : Read Selection := do
  let first ← readAddress?
  skipBlanks
  let range ←
    if first.isSome ∧ (← peekChar) == some ',' then
      let _ ← takeChar
      skipBlanks
      some <$> readRangeEnd
    else pure none
  skipBlanks
  let negated ← if (← peekChar) == some '!' then
      let _ ← takeChar
      skipBlanks
      if (← peekChar) == some '!' then
        let _ ← takeChar
        failWith "multiple \x60!'s"
      pure true
    else pure false
  return ⟨first, range, negated⟩

/-! ## Texts of commands -/

/-- The text of a command up to the end of the line, in which a backslash is left out; the end of a
line behind one belongs to the text. -/
def takeText : Nat → Read Bytes
  | 0 => return []
  | bound + 1 => do
    match ← takeChar with
    | none => return ['\n']
    | some '\n' => return ['\n']
    | some '\\' =>
      match ← takeChar with
      | none => return ['\n']
      | some c => return c :: (← takeText bound)
    | some c => return c :: (← takeText bound)

def readAdded : Read Bytes := do
  skipBlanks
  let bound := (← get).rest.length + 1
  match ← peekChar with
  | none => failWith "expected \\ after \x60a', \x60c' or \x60i'"
  | some '\\' =>
    let _ ← takeChar
    skipBlanks
    match ← peekChar with
    | some '\n' =>
      let _ ← takeChar
      match ← peekChar with
      | none => failWith "expected \\ after \x60a', \x60c' or \x60i'"
      | some _ => takeText bound
    | none => return []
    | some _ => takeText bound
  | some _ => takeText bound

def takeLine : Read Bytes := takeWhile (· != '\n')

/-- Takes a label: what stands up to the end of the line, a blank or a semicolon. -/
def takeLabel : Read Bytes := do
  skipBlanks
  takeWhile fun c => !Bytes.isSpace c && c != ';'

def takeFileName : Read Bytes := do
  skipBlanks
  match ← takeLine with
  | [] => failWith "missing filename in r/R/w/W commands"
  | name => return name

/-! ## Replacements -/

/-- The pieces of a replacement; `text` is that in front, in reverse. -/
def piecesOf (text : Bytes) : Nat → Bytes → List Piece
  | 0, _ => []
  | _, [] => if text = [] then [] else [.text text.reverse]
  | bound + 1, c :: cs =>
    let before : List Piece := if text = [] then [] else [.text text.reverse]
    let behind (p : Piece) (rest : Bytes) : List Piece := before ++ p :: piecesOf [] bound rest
    match c, cs with
    | '&', cs => behind (.group 0) cs
    | '\\', d :: ds =>
      if d.isDigit then behind (.group (d.toNat - '0'.toNat)) ds
      else
        match d with
        | 'U' => behind (.casing .upper) ds
        | 'L' => behind (.casing .lower) ds
        | 'u' => behind (.casing .nextUpper) ds
        | 'l' => behind (.casing .nextLower) ds
        | 'E' => behind (.casing .plain) ds
        | d =>
          match Regex.controlOf? d with
          | some control => piecesOf (control :: text) bound ds
          | none =>
            let code := match d with
              | 'd' => Regex.readCode 10 3 ds
              | 'o' => Regex.readCode 8 3 ds
              | 'x' => Regex.readCode 16 2 ds
              | _ => none
            match code with
            | some (code, rest) => piecesOf (code :: text) bound rest
            | none => piecesOf (d :: text) bound ds
    | c, cs => piecesOf (c :: text) bound cs

/-- The letters behind a replacement. -/
structure Flags where
  number : Option Nat
  global : Bool
  prints : Bool
  folds : Bool
  byLines : Bool
  file : Option Bytes

def readFlags : Nat → Flags → Read Flags
  | 0, f => return f
  | bound + 1, f => do
    match ← peekChar with
    | some 'g' =>
      let _ ← takeChar
      if f.global then failWith "multiple \x60g' options to \x60s' command"
      readFlags bound { f with global := true }
    | some 'p' =>
      let _ ← takeChar
      if f.prints then failWith "multiple \x60p' options to \x60s' command"
      readFlags bound { f with prints := true }
    | some 'i' | some 'I' =>
      let _ ← takeChar
      readFlags bound { f with folds := true }
    | some 'm' | some 'M' =>
      let _ ← takeChar
      readFlags bound { f with byLines := true }
    | some 'w' =>
      let _ ← takeChar
      return { f with file := some (← takeFileName) }
    | some c =>
      if c.isDigit then
        let n ← takeNumber
        if f.number.isSome then failWith "multiple number options to \x60s' command"
        if n = 0 then failWith "number option to \x60s' command may not be zero"
        readFlags bound { f with number := some n }
      else if c = '\x7d' ∨ c = '#' then return f
      else if c = '\n' ∨ c = ';' then
        let _ ← takeChar
        return f
      else if c = ' ' ∨ c = '\t' ∨ c = '\r' then
        let _ ← takeChar
        readFlags bound f
      else
        let _ ← takeChar
        failWith "unknown option to \x60s'"
    | none => return f

def greatestGroup (pieces : List Piece) : Nat :=
  pieces.foldl (fun n p =>
    match p with
    | .group k => max n k
    | _ => n) 0

def readSubstitution : Read Substitution := do
  let unfinished := "unterminated \x60s' command"
  match ← takeChar with
  | none | some '\n' | some '\\' => failWith unfinished
  | some mark =>
    let sought ← takeMarked mark true unfinished
    let replacement ← takeMarked mark false unfinished
    let f ← readFlags ((← get).rest.length + 1) ⟨none, false, false, false, false, none⟩
    let pieces := piecesOf [] (replacement.length + 1) replacement
    let r ← readSought sought f.folds f.byLines
    let greatest := greatestGroup pieces
    match r with
    | some (r, _) =>
      if r.groupCount < greatest then
        failWith ("invalid reference \\" ++ toString greatest ++ " on \x60s' command's RHS")
    | none => pure ()
    return ⟨r, pieces, f.number.getD 1, f.global, f.prints, f.file⟩

def listedChars : Bytes → Bytes
  | '\\' :: '\\' :: cs => '\\' :: listedChars cs
  | '\\' :: c :: cs =>
    match Regex.controlOf? c with
    | some control => control :: listedChars cs
    | none => '\\' :: c :: listedChars cs
  | c :: cs => c :: listedChars cs
  | [] => []

def readReplacedChars : Read (List (Char × Char)) := do
  let unfinished := "unterminated \x60y' command"
  match ← takeChar with
  | none => failWith unfinished
  | some mark =>
    let first := listedChars (← takeMarked mark false unfinished)
    let second := listedChars (← takeMarked mark false unfinished)
    if first.length ≠ second.length then failWith "strings for \x60y' command are different lengths"
    return first.zip second

/-! ## Commands -/

/-- Nothing may stand behind a command but the end of the line, a semicolon or the end of a block.
-/
def finishCommand : Read Unit := do
  skipBlanks
  match ← peekChar with
  | none | some '\x7d' | some '#' => pure ()
  | some '\n' | some ';' =>
    let _ ← takeChar
  | some _ =>
    let _ ← takeChar
    failWith "extra characters after command"

def oneAddress (s : Selection) : Read Unit :=
  if s.range.isSome then failWith "command only uses one address" else pure ()

def readAction (s : Selection) (c : Char) : Read Action := do
  let plain (a : Action) : Read Action := do
    finishCommand
    return a
  let numbered (make : Option Nat → Action) : Read Action := do
    skipBlanks
    let digits ← takeWhile Char.isDigit
    finishCommand
    return make (if digits = [] then none else some (Bytes.valueOf digits))
  match c with
  | '\x7b' =>
    modify fun t => { t with depth := t.depth + 1 }
    return .openBlock
  | '\x7d' =>
    if (← get).depth = 0 then failWith "unexpected \x60\x7d'"
    if s.first.isSome then failWith "\x7d doesn't want any addresses"
    modify fun t => { t with depth := t.depth - 1 }
    plain .closeBlock
  | '#' =>
    if s.first.isSome then failWith "comments don't accept any addresses"
    let _ ← takeLine
    return .nothing
  | ':' =>
    if s.first.isSome then failWith ": doesn't want any addresses"
    match ← takeLabel with
    | [] => failWith "\":\" lacks a label"
    | name => return .label name
  | 'a' => return .append (← readAdded)
  | 'i' => return .insert (← readAdded)
  | 'c' => return .change (← readAdded)
  | 'b' => return .branch (← takeLabel)
  | 't' => return .branchIf true (← takeLabel)
  | 'T' => return .branchIf false (← takeLabel)
  | 'd' => plain .delete
  | 'D' => plain .deleteFirst
  | 'F' => plain .printName
  | 'g' => plain .getHeld
  | 'G' => plain .appendHeld
  | 'h' => plain .hold
  | 'H' => plain .appendToHeld
  | 'x' => plain .exchange
  | 'l' => numbered .list
  | 'n' => plain .next
  | 'N' => plain .appendNext
  | 'p' => plain .print
  | 'P' => plain .printFirst
  | 'q' =>
    oneAddress s
    numbered fun n => .quit (n.getD 0) true
  | 'Q' =>
    oneAddress s
    numbered fun n => .quit (n.getD 0) false
  | 'r' => return .readFile (← takeFileName)
  | 'R' => return .readLine (← takeFileName)
  | 'w' => return .writeFile (← takeFileName) false
  | 'W' => return .writeFile (← takeFileName) true
  | 's' => return .substitute (← readSubstitution)
  | 'y' =>
    let pairs ← readReplacedChars
    finishCommand
    return .replaceChars pairs
  | '=' => plain .number
  | 'z' => plain .clear
  | 'v' =>
    let _ ← takeLabel
    return .nothing
  | c => failWith ("unknown command: \x60" ++ String.singleton c ++ "'")

def readCommands : Nat → List Command → Read (List Command)
  | 0, acc => return acc.reverse
  | bound + 1, acc => do
    let _ ← takeWhile fun c => Bytes.isSpace c || c == ';'
    if (← get).rest.isEmpty then
      if 0 < (← get).depth then throw (.nowhere "unmatched \x60\x7b'")
      return acc.reverse
    else
      let s ← readSelection
      match ← takeChar with
      | none => failWith "missing command"
      | some c =>
        if isZero s.first ∧ !s.endsAtFound then failWith "invalid usage of line address 0"
        let a ← readAction s c
        readCommands bound (⟨s, a⟩ :: acc)

/-- Reads a script; a fault comes with the number of characters that have been read. -/
def read (extended : Bool) (script : Bytes) : Except (String × Nat) (List Command) :=
  match readCommands (script.length + 1) [] ⟨script, 0, extended, 0⟩ with
  | .ok commands _ => .ok commands
  | .error (.text message) s => .error (message, s.passed)
  | .error (.nowhere message) _ => .error (message, 0)

end PlanConstraints.Tool.Edit

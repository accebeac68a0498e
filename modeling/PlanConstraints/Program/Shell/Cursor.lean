import PlanConstraints.Program.Shell.Script

set_option autoImplicit false

/-!
# Shell: the text of a script while it is read

A script is read line by line, so that commands can change how later lines are read.  The cursor
holds what is still to be read.  A backslash at the end of a line joins the line with the next one.
The text that a redirection takes from the script is taken out when the redirection is read.
-/

namespace PlanConstraints.Shell

/-- Causes for which a script cannot be read. -/
inductive ScriptFault where
  | openQuotation
  | openBackquote
  | openBrace
  | openNumber
  | badVariable
  | badFunctionName
  | badFileNumber
  | unexpected (found : String) (expected : Option String)
  deriving DecidableEq

def ScriptFault.message : ScriptFault → String
  | openQuotation => "Syntax error: Unterminated quoted string"
  | openBackquote => "Syntax error: EOF in backquote substitution"
  | openBrace => "Syntax error: Missing '\x7d'"
  | openNumber => "Syntax error: Missing '))'"
  | badVariable => "Syntax error: Bad for loop variable"
  | badFunctionName => "Syntax error: Bad function name"
  | badFileNumber => "Syntax error: Bad fd number"
  | unexpected found none => "Syntax error: " ++ found ++ " unexpected"
  | unexpected found (some other) =>
    "Syntax error: " ++ found ++ " unexpected (expecting " ++ other ++ ")"

/-- A fault and the line on which it was found. -/
structure ScriptError where
  line : Nat
  fault : ScriptFault

/-! ## Tokens -/

inductive Token where
  | word (w : Word)
  | redirect (number : Nat) (kind : RedirectKind)
  /-- A redirection to a text in the script, whose lines may lose their tabs. -/
  | document (number : Nat) (tabs : Bool)
  /-- A word with a meaning of its own at the start of a command. -/
  | keyword (text : String)
  | sign (text : String)
  | newline
  | finish

/-- The words with a meaning of their own at the start of a command. -/
def keywords : List String :=
  ["!", "case", "do", "done", "elif", "else", "esac", "fi", "for", "if", "in", "then", "until",
    "while", "\x7b", "\x7d"]

def Token.text : Token → String
  | word _ => "word"
  | redirect _ _ | document _ _ => "redirection"
  | keyword text | sign text => "\"" ++ text ++ "\""
  | newline => "newline"
  | finish => "end of file"

def Token.endsList : Token → Bool
  | finish => true
  | sign text => text == ")" || text == ";;"
  | keyword text => ["do", "done", "elif", "else", "esac", "fi", "then", "\x7d"].contains text
  | _ => false

/-! ## The cursor -/

/-- What is still to be read. -/
structure Cursor where
  rest : Bytes
  /-- Reading on takes fewer steps. -/
  bound : Nat
  line : Nat
  /-- Lines that have been taken out behind the present one. -/
  taken : Nat
  /-- A token that is to be read again. -/
  pushed : Option Token
  /-- Words that stand for other texts. -/
  aliases : List (Bytes × Bytes)
  /-- The words whose texts are being read, with the lengths of what follows those texts. -/
  replaced : List (Bytes × Nat)
  /-- The lengths of what follows texts behind which a word may stand for another text, too. -/
  openEnds : List Nat

def Cursor.start (aliases : List (Bytes × Bytes)) (line : Nat) (script : Bytes) : Cursor :=
  ⟨script, script.length + 1000, line, 0, none, aliases, [], []⟩

/-- Reading moves a cursor. -/
abbrev Read := EStateM ScriptError Cursor

def failWith {α : Type} (fault : ScriptFault) : Read α := do
  throw ⟨(← get).line, fault⟩

def failAt {α : Type} (t : Token) (expected : Option String) : Read α :=
  failWith (.unexpected t.text expected)

/-- A bound on the number of steps that reading on can take. -/
def stepsLeft : Read Nat := do
  return (← get).bound

/-! ## Characters -/

def takeRaw : Read (Option Char) := do
  let s ← get
  match s.rest with
  | [] => return none
  | '\n' :: rest =>
    set { s with rest := rest, line := s.line + s.taken + 1, taken := 0 }
    return some '\n'
  | c :: rest =>
    set { s with rest := rest }
    return some c

/-- The text behind ends of lines that are no ends, and the number of these. -/
def skipJoins : Bytes → Bytes × Nat
  | '\\' :: '\n' :: cs =>
    let (cs, n) := skipJoins cs
    (cs, n + 1)
  | cs => (cs, 0)

def joinLines : Read Unit := do
  let s ← get
  match s.rest with
  | '\\' :: '\n' :: _ =>
    let (rest, n) := skipJoins s.rest
    set { s with rest := rest, line := s.line + n }
  | _ => pure ()

def peekChar : Read (Option Char) := do
  joinLines
  return (← get).rest.head?

def takeChar : Read (Option Char) := do
  joinLines
  takeRaw

def takeIf (c : Char) : Read Bool := do
  if (← peekChar) == some c then
    let _ ← takeRaw
    return true
  else return false

/-- Takes characters as long as a test accepts them. -/
def takeWhile (test : Char → Bool) : Nat → Bytes → Read Bytes
  | 0, taken => return taken.reverse
  | bound + 1, taken => do
    match ← peekChar with
    | some c =>
      if test c then
        let _ ← takeRaw
        takeWhile test bound (c :: taken)
      else return taken.reverse
    | none => return taken.reverse

/-- Takes the characters up to a quotation mark that ends them, as they are. -/
def takeQuotation : Nat → Bytes → Read Bytes
  | 0, taken => return taken.reverse
  | bound + 1, taken => do
    match ← takeRaw with
    | none => failWith .openQuotation
    | some '\'' => return taken.reverse
    | some c => takeQuotation bound (c :: taken)

/-- Takes the script up to a backquote, without the backslashes that keep signs from being read as
such. -/
def takeBackquoted (quoted : Bool) : Nat → Bytes → Read Bytes
  | 0, taken => return taken.reverse
  | bound + 1, taken => do
    match ← takeChar with
    | none => failWith .openBackquote
    | some '\x60' => return taken.reverse
    | some '\\' =>
      match ← takeRaw with
      | none => takeBackquoted quoted bound ('\\' :: taken)
      | some c =>
        let kept := c == '\\' || c == '\x60' || c == '$' || (quoted && c == '"')
        takeBackquoted quoted bound (if kept then c :: taken else c :: '\\' :: taken)
    | some c => takeBackquoted quoted bound (c :: taken)

/-- Reads another text from a line on, and goes on behind what has been read before. -/
def within {α : Type} (text : Bytes) (line : Nat) (read : Read α) : Read α := do
  let s ← get
  set { Cursor.start s.aliases line text with bound := s.bound + text.length }
  let a ← read
  set s
  return a

/-! ## Texts in a script -/

/-- What a search for the end of a line is in the middle of. -/
inductive Quotation where
  | none
  | single
  | double
  | comment
  deriving DecidableEq

/-- The text up to the end of a line that is not in quotation, and the text behind it. -/
def splitLine (q : Quotation) (start : Bool) : Bytes → Bytes × Option Bytes
  | [] => ([], none)
  | '\n' :: cs =>
    match q with
    | .none | .comment => ([], some cs)
    | q =>
      let (line, rest) := splitLine q false cs
      ('\n' :: line, rest)
  | '\\' :: c :: cs =>
    match q with
    | .none | .double =>
      let (line, rest) := splitLine q false cs
      ('\\' :: c :: line, rest)
    | q =>
      let (line, rest) := splitLine (if q = .single ∧ c = '\'' then .none else q) false cs
      ('\\' :: c :: line, rest)
  | c :: cs =>
    let next : Quotation :=
      match q, c with
      | .none, '\'' => .single
      | .single, '\'' => .none
      | .none, '"' => .double
      | .double, '"' => .none
      | .none, '#' => if start then .comment else .none
      | q, _ => q
    let (line, rest) := splitLine next (" \t;&|()".toList.contains c) cs
    (c :: line, rest)

/-- A line, what stands behind it, and the number of ends of lines in it and behind it.  Where lines
are joined, an end behind a backslash belongs to the line. -/
def takeLine (joins : Bool) : Bytes → Bytes × Option Bytes × Nat
  | [] => ([], none, 0)
  | ['\\'] => (['\\'], none, 0)
  | '\\' :: c :: cs =>
    if c = '\n' ∧ !joins then (['\\'], some cs, 1)
    else
      let (line, rest, n) := takeLine joins cs
      ('\\' :: c :: line, rest, if c = '\n' then n + 1 else n)
  | c :: cs =>
    if c = '\n' then ([], some cs, 1)
    else
      let (line, rest, n) := takeLine joins cs
      (c :: line, rest, n)

def joinedLine : Bytes → Bytes
  | '\\' :: '\n' :: cs => joinedLine cs
  | c :: cs => c :: joinedLine cs
  | [] => []

/-- The lines up to one that is the given text, the lines behind that one, and how many lines lie in
front of those. -/
def splitDocument (tabs joins : Bool) (mark : Bytes) : Nat → Bytes → Bytes × Bytes × Nat
  | 0, cs => (cs, [], 0)
  | _, [] => ([], [], 0)
  | bound + 1, cs =>
    let (line, rest, count) := takeLine joins cs
    let line := if tabs then line.dropWhile (· == '\t') else line
    if joinedLine line = mark then ([], rest.getD [], count)
    else
      match rest with
      | none => (line, [], count)
      | some rest =>
        let (inside, rest, n) := splitDocument tabs joins mark bound rest
        (line ++ '\n' :: inside, rest, n + count)

/-- Takes the text that ends at a mark out of the lines behind the present one. -/
def takeDocument (tabs joins : Bool) (mark : Bytes) : Read Bytes := do
  let s ← get
  match splitLine .none true s.rest with
  | (_, none) => return []
  | (line, some behind) =>
    let (inside, rest, n) := splitDocument tabs joins mark behind.length behind
    set { s with rest := line ++ '\n' :: rest, taken := s.taken + n }
    return inside

end PlanConstraints.Shell

import PlanConstraints.Program.Shell.WordReader

set_option autoImplicit false

/-!
# Shell: reading commands

Commands are read from tokens.  What a word means depends on where it stands: at the start of a
command it may be a keyword or stand for another text.  The first token that fits nowhere is a
fault.
-/

namespace PlanConstraints.Shell

/-! ## Tokens -/

/-- What a word may be. -/
structure WordRole where
  /-- Ends of lines count for nothing. -/
  overLines : Bool
  keyword : Bool
  replaceable : Bool

/-- The role of a word at the start of a command, behind ends of lines that count for nothing. -/
def WordRole.start : WordRole := ⟨true, true, true⟩

def WordRole.plain : WordRole := ⟨false, false, false⟩

def readSign (c : Char) : Read (Option Token) := do
  let double (one two : String) : Read (Option Token) := do
    let _ ← takeRaw
    return some (.sign (if ← takeIf c then two else one))
  match c with
  | '&' => double "&" "&&"
  | '|' => double "|" "||"
  | ';' => double ";" ";;"
  | '(' | ')' =>
    let _ ← takeRaw
    return some (.sign (String.singleton c))
  | '\n' =>
    let _ ← takeRaw
    return some .newline
  | _ => return none

/-- Reads the sign of a redirection of the stream of a number, if one is given. -/
def readRedirect (number : Option Nat) : Read Token := do
  match ← takeChar with
  | some '>' =>
    let n := number.getD 1
    if ← takeIf '>' then return .redirect n .append
    else if ← takeIf '|' then return .redirect n .overwrite
    else if ← takeIf '&' then return .redirect n .copy
    else return .redirect n .write
  | _ =>
    let n := number.getD 0
    if ← takeIf '<' then return .document n (← takeIf '-')
    else if ← takeIf '&' then return .redirect n .copy
    else if ← takeIf '>' then return .redirect n .readWrite
    else return .redirect n .read

def skipBlanks : Nat → Read Unit
  | 0 => pure ()
  | bound + 1 => do
    match ← peekChar with
    | some ' ' | some '\t' =>
      let _ ← takeRaw
      skipBlanks bound
    | some '#' =>
      modify fun s => { s with rest := s.rest.dropWhile (· != '\n') }
      skipBlanks bound
    | _ => pure ()

def readRaw (self : Nested) : Read Token := do
  match (← get).pushed with
  | some t =>
    modify fun s => { s with pushed := none }
    return t
  | none =>
    skipBlanks (← stepsLeft)
    match ← peekChar with
    | none => return .finish
    | some c =>
      match ← readSign c with
      | some t => return t
      | none =>
        let w ← readWord self
        let next ← peekChar
        if next == some '<' || next == some '>' then
          match w with
          | [] => readRedirect none
          | [.text [d] false] =>
            if d.isDigit then readRedirect (some (d.toNat - '0'.toNat)) else return .word w
          | _ => return .word w
        else return .word w

def pushBack (t : Token) : Read Unit := modify fun s => { s with pushed := some t }

/-- The texts behind which the cursor stands are no longer open. -/
def takeOpenEnd : Read Bool := do
  let s ← get
  if s.openEnds.isEmpty then return false
  else
    let length := s.rest.length
    let (left, done) := s.openEnds.partition fun n => n < length
    set { s with openEnds := left }
    return !done.isEmpty

/-- Puts the text of a word in its place, if there is one for it. -/
def replaceWord (name : Bytes) : Read Bool := do
  let s ← get
  match s.aliases.lookup name with
  | none => return false
  | some text =>
    let length := s.rest.length
    let active := s.replaced.filter fun (_, n) => n ≤ length
    if active.any fun (other, _) => other == name then return false
    else
      let blank := text.getLast? == some ' ' || text.getLast? == some '\t'
      set { s with
        rest := text ++ s.rest
        bound := s.bound + text.length
        replaced := (name, length) :: active
        openEnds := if blank then length :: s.openEnds else s.openEnds }
      return true

def readToken (self : Nested) (role : WordRole) : Nat → Read Token
  | 0 => return .finish
  | bound + 1 => do
    let fresh := (← get).pushed.isNone
    if fresh then skipBlanks (← stepsLeft)
    let behind ← if fresh then takeOpenEnd else pure false
    let t ← readRaw self
    match t with
    | .newline => if role.overLines then readToken self role bound else return t
    | .word w =>
      match Word.plain? w with
      | none => return t
      | some name =>
        if role.keyword ∧ keywords.contains (String.ofList name) then
          return .keyword (String.ofList name)
        else if role.replaceable || behind then
          if ← replaceWord name then readToken self { role with replaceable := true } bound
            else return t
        else return t
    | t => return t

def token (self : Nested) (role : WordRole) : Read Token := do
  readToken self role (← stepsLeft)

def expectKeyword (self : Nested) (text : String) (role : WordRole) : Read Unit := do
  match ← token self role with
  | .keyword found =>
    if found = text then pure () else failAt (.keyword found) (some ("\"" ++ text ++ "\""))
  | t => failAt t (some ("\"" ++ text ++ "\""))

/-! ## Redirections -/

/-- Reads what stands behind the sign of a redirection. -/
def readTarget (self : Nested) (t : Token) : Read (Option Redirect) := do
  match t with
  | .document number tabs =>
    skipBlanks (← stepsLeft)
    let (mark, quoted) ← readMark (← stepsLeft) [] false
    if mark = [] ∧ !quoted then failAt (← token self .plain) none
    else
      let text ← takeDocument tabs (!quoted) mark
      if quoted then return some (.mk number .here [.text text true])
      else return some (.mk number .here (← readText self text))
  | .redirect number kind =>
    match ← token self .plain with
    | .word w =>
      match kind, Word.plain? w with
      | .copy, some cs =>
        if cs = ['-'] ∨ (cs.length = 1 ∧ cs.all Char.isDigit) then return some (.mk number kind w)
        else failWith .badFileNumber
      | _, _ => return some (.mk number kind w)
    | t => failAt t none
  | _ => return none

def readRedirects (self : Nested) : Nat → List Redirect → Read (List Redirect)
  | 0, acc => return acc.reverse
  | bound + 1, acc => do
    let t ← token self (if acc.isEmpty then ⟨false, true, true⟩ else .plain)
    match ← readTarget self t with
    | some r => readRedirects self bound (r :: acc)
    | none =>
      pushBack t
      return acc.reverse

/-! ## Commands -/

/-- The readers for what stands within commands. -/
structure Inner extends Nested where
  /-- Reads a list of commands, which must not be empty. -/
  body : Read Command
  command : Read Command

/-- The names of commands of the shell that are special; no function can have them. -/
def specialNames : List String :=
  [".", ":", "break", "continue", "eval", "exec", "exit", "export", "readonly", "return", "set",
    "shift", "times", "trap", "unset"]

def readDefinition (self : Inner) (w : Word) : Read Command := do
  match ← token self.toNested .plain with
  | .sign ")" =>
    match Word.plain? w with
    | some name =>
      if isName name ∧ !specialNames.contains (String.ofList name) then
        let line := (← get).line
        return .define line name (← self.command)
      else failWith .badFunctionName
    | none => failWith .badFunctionName
  | t => failAt t (some "\")\"")

def readSimple (self : Inner) (line : Nat) :
    Nat → List Word → List Word → List Redirect → Read Command
  | 0, assignments, words, redirects =>
    return .simple line assignments.reverse words.reverse redirects.reverse
  | bound + 1, assignments, words, redirects => do
    let t ← token self.toNested ⟨false, false, words.isEmpty⟩
    match t with
    | .word w =>
      if words.isEmpty ∧ (Word.assignment? w).isSome then
        readSimple self line bound (w :: assignments) words redirects
      else readSimple self line bound assignments (w :: words) redirects
    | .redirect _ _ | .document _ _ =>
      match ← readTarget self.toNested t with
      | some r => readSimple self line bound assignments words (r :: redirects)
      | none => return .nothing
    | t =>
      match t, assignments, words, redirects with
      | .sign "(", [], [w], [] => readDefinition self w
      | t, _, _, _ =>
        pushBack t
        return .simple line assignments.reverse words.reverse redirects.reverse

/-- Reads the rest of a choice behind its first keyword. -/
def readChoice (self : Inner) : Nat → Read Command
  | 0 => return .nothing
  | bound + 1 => do
    let condition ← self.body
    expectKeyword self.toNested "then" .plain
    let c ← self.body
    match ← token self.toNested .plain with
    | .keyword "elif" => return .choice condition c (← readChoice self bound)
    | .keyword "else" =>
      let d ← self.body
      expectKeyword self.toNested "fi" .plain
      return .choice condition c d
    | .keyword "fi" => return .choice condition c .nothing
    | t => failAt t (some "\"fi\"")

/-- Reads the rest of a loop behind its first keyword. -/
def readLoop (self : Inner) (whileSuccess : Bool) : Read Command := do
  let condition ← self.body
  expectKeyword self.toNested "do" .plain
  let c ← self.body
  expectKeyword self.toNested "done" .plain
  return .loop whileSuccess condition c

/-- Reads the words of a loop over words, up to the end of the line or of the command. -/
def readWords (self : Inner) : Nat → List Word → Read (List Word)
  | 0, acc => return acc.reverse
  | bound + 1, acc => do
    match ← token self.toNested .plain with
    | .word w => readWords self bound (w :: acc)
    | .newline | .sign ";" => return acc.reverse
    | t => failAt t none

/-- Reads the rest of a loop over words behind its keyword. -/
def readEach (self : Inner) (line : Nat) : Read Command := do
  match ← token self.toNested .plain with
  | .word w =>
    match Word.plain? w with
    | some name =>
      if isName name then
        let words ←
          match ← token self.toNested .start with
          | .keyword "in" => readWords self (← stepsLeft) []
          | .sign ";" => pure [[.parameter ['@'] .value [] true]]
          | t =>
            pushBack t
            pure [[.parameter ['@'] .value [] true]]
        expectKeyword self.toNested "do" .start
        let c ← self.body
        expectKeyword self.toNested "done" .plain
        return .each line name words c
      else failWith .badVariable
    | none => failWith .badVariable
  | _ => failWith .badVariable

def readPatterns (self : Inner) (t : Token) : Nat → List Word → Read (List Word)
  | 0, acc => return acc.reverse
  | bound + 1, acc => do
    let w : Word ←
      match t with
      | .word w => pure w
      | .keyword text => pure [.text text.toList false]
      | t => failAt t (some "word")
    match ← token self.toNested ⟨false, false, true⟩ with
    | .sign "|" =>
      let t ← token self.toNested .plain
      readPatterns self t bound (w :: acc)
    | .sign ")" => return (w :: acc).reverse
    | t => failAt t (some "\")\"")

def readBranches (self : Inner) : Nat → List (List Word × Command) →
    Read (List (List Word × Command))
  | 0, acc => return acc.reverse
  | bound + 1, acc => do
    match ← token self.toNested ⟨true, true, false⟩ with
    | .keyword "esac" => return acc.reverse
    | t =>
      let t ←
        match t with
        | .sign "(" => token self.toNested .plain
        | t => pure t
      let patterns ← readPatterns self t (← stepsLeft) []
      let c ← self.commands
      match ← token self.toNested ⟨true, true, false⟩ with
      | .keyword "esac" => return ((patterns, c) :: acc).reverse
      | .sign ";;" => readBranches self bound ((patterns, c) :: acc)
      | t => failAt t (some "\";;\"")

def readSelection (self : Inner) (line : Nat) : Read Command := do
  match ← token self.toNested .plain with
  | .word w =>
    expectKeyword self.toNested "in" .start
    return .select line w (← readBranches self (← stepsLeft) [])
  | t => failAt t (some "word")

def redirected (line : Nat) (c : Command) (redirects : List Redirect) : Command :=
  match redirects, c with
  | [], c => c
  | redirects, .subshell _ c _ => .subshell line c redirects
  | redirects, c => .redirected line c redirects

def readCommand (self : Inner) (role : WordRole) : Read Command := do
  let t ← token self.toNested role
  let line := (← get).line
  let behind (c : Command) : Read Command := do
    return redirected line c (← readRedirects self.toNested (← stepsLeft) [])
  match t with
  | .keyword "if" => behind (← readChoice self (← stepsLeft))
  | .keyword "while" => behind (← readLoop self true)
  | .keyword "until" => behind (← readLoop self false)
  | .keyword "for" => behind (← readEach self line)
  | .keyword "case" => behind (← readSelection self line)
  | .sign "(" =>
    let c ← self.body
    match ← token self.toNested .plain with
    | .sign ")" => behind (.subshell line c [])
    | t => failAt t (some "\")\"")
  | .keyword "\x7b" =>
    let c ← self.body
    expectKeyword self.toNested "\x7d" .plain
    behind c
  | .word _ | .redirect _ _ | .document _ _ =>
    pushBack t
    readSimple self line (← stepsLeft) [] [] []
  | t => failAt t none

def readPipeline (self : Inner) : Nat → List Command → Read (List Command)
  | 0, acc => return acc.reverse
  | bound + 1, acc => do
    match ← token self.toNested .plain with
    | .sign "|" => readPipeline self bound ((← readCommand self .start) :: acc)
    | t =>
      pushBack t
      return acc.reverse

def readInverted (self : Inner) (role : WordRole) : Read Command := do
  let t ← token self.toNested role
  let invert := match t with
    | .keyword "!" => true
    | _ => false
  if !invert then pushBack t
  let first ← readCommand self ⟨false, true, true⟩
  let c ←
    match ← readPipeline self (← stepsLeft) [first] with
    | [c] => pure c
    | cs => pure (.pipeline cs)
  return if invert then .invert c else c

/-- Reads pipelines that are run one after the other as long as they succeed, or fail. -/
def readChain (self : Inner) : Nat → Command → Read Command
  | 0, c => return c
  | bound + 1, c => do
    match ← token self.toNested .plain with
    | .sign "&&" => readChain self bound (.both c (← readInverted self .start))
    | .sign "||" => readChain self bound (.either c (← readInverted self .start))
    | t =>
      pushBack t
      return c

/-- How a list of commands is read. -/
inductive ListKind where
  /-- Up to the end of the line. -/
  | line
  /-- Up to a token that ends it; there has to be a command. -/
  | body
  /-- Up to a token that ends it. -/
  | inner
  deriving DecidableEq

def sequenceOf : List Command → Command
  | [] => .nothing
  | [c] => c
  | cs => .sequence cs

def readList (self : Inner) (kind : ListKind) : Nat → List Command → Read (List Command)
  | 0, acc => return acc.reverse
  | bound + 1, acc => do
    let t ← token self.toNested ⟨kind != .line, true, true⟩
    match t with
    | .newline => return acc.reverse
    | .finish =>
      pushBack t
      return acc.reverse
    | t =>
      pushBack t
      if kind ≠ .line ∧ (kind = .inner ∨ !acc.isEmpty) ∧ t.endsList then return acc.reverse
      else
        let c ← readChain self bound (← readInverted self ⟨false, true, true⟩)
        match ← token self.toNested .plain with
        | .sign "&" => readList self kind bound (.background c :: acc)
        | .sign ";" => readList self kind bound (c :: acc)
        | .newline =>
          pushBack .newline
          readList self kind bound (c :: acc)
        | .finish =>
          pushBack .finish
          return (c :: acc).reverse
        | t =>
          if kind = .line then failAt t none
          else
            pushBack t
            return (c :: acc).reverse

/-! ## Scripts -/

/-- The readers of commands in which others stand that deep. -/
def readers : Nat → Inner
  | 0 =>
    let parts : Read (List Part) := failWith .openBrace
    let command : Read Command := failWith (.unexpected "end of file" none)
    ⟨⟨fun _ => parts, command, failWith .openBrace⟩, command, command⟩
  | depth + 1 =>
    let self := readers depth
    let nested (kind : ListKind) : Read Command := do
      return sequenceOf (← readList self kind (← stepsLeft) [])
    { parts := fun m => do readParts self.toNested m (← stepsLeft) 0 []
      commands := nested .inner
      token := token self.toNested .plain
      body := nested .body
      command := readCommand self .start }

def depthLimit : Nat := 1000

/-- What comes of reading the next line of a script with commands. -/
inductive Line where
  | command (c : Command) (rest : Cursor)
  | finished
  | failed (e : ScriptError)

/-- Reads the commands of a line, which may go on over other lines. -/
def Cursor.readLine (s : Cursor) : Line :=
  let read : Read (Option Command) := do
    let self := readers depthLimit
    let cs ← readList self .line (← stepsLeft) []
    let s ← get
    match cs, s.pushed with
    | [], some .finish => return none
    | cs, _ => return some (sequenceOf cs)
  match read { s with pushed := none } with
  | .ok none _ => .finished
  | .ok (some c) s => .command c s
  | .error e _ => .failed e

end PlanConstraints.Shell

import PlanConstraints.Program.Shell.Cursor

set_option autoImplicit false

/-!
# Shell: reading words

A word ends at a blank or at a sign that separates commands.  Quotation marks and backslashes keep
signs from being read as such; a dollar sign or a backquote starts a part whose value takes its
place.  Parts hold words of their own up to a brace, numbers up to two parentheses, and whole lists
of commands.
-/

namespace PlanConstraints.Shell

/-- Where the parts that are read end. -/
inductive PartsEnd where
  /-- At the end of a word. -/
  | word
  | quotation
  | brace
  | parentheses
  /-- With the text. -/
  | text
  deriving DecidableEq

/-- How parts are read. -/
structure PartsMode where
  stop : PartsEnd
  /-- Blanks and most signs stand for themselves. -/
  quoted : Bool
  /-- The parts stand within braces. -/
  inBrace : Bool
  /-- The parts stand in a text that a redirection takes from the script. -/
  inDocument : Bool

/-- The readers for what stands within parts. -/
structure Nested where
  parts : PartsMode → Read (List Part)
  /-- Reads commands up to a sign that ends them. -/
  commands : Read Command
  token : Read Token

/-- Puts a part in front of others, which are in reverse; texts of one kind become one. -/
def pushPart (p : Part) (acc : List Part) : List Part :=
  match p, acc with
  | .text cs quoted, .text ds alsoQuoted :: more =>
    if quoted = alsoQuoted then .text (ds ++ cs) quoted :: more
    else .text cs quoted :: .text ds alsoQuoted :: more
  | p, acc => p :: acc

/-- The parts that a quotation makes.  A quotation makes a word even if nothing stands in it, unless
it is nothing but all arguments. -/
def quotationParts (inside : List Part) : List Part :=
  match inside with
  | [.parameter ['@'] .value [] true] => inside
  | inside => .text [] true :: inside

/-! ## Parameters -/

def PartsMode.openFault? (m : PartsMode) : Option ScriptFault :=
  match m.stop with
  | .word | .text => none
  | .quotation => some .openQuotation
  | .brace => some (if m.quoted && !m.inDocument then .openQuotation else .openBrace)
  | .parentheses => some .openNumber

/-- The use of a parameter that a sign behind its name asks for. -/
def useOfSign? (sign : Char) (emptyIsNone : Bool) : Option Use :=
  match sign with
  | '-' => some (.otherwise emptyIsNone)
  | '+' => some (.instead emptyIsNone)
  | '?' => some (.demand emptyIsNone)
  | '=' => some (.assign emptyIsNone)
  | _ => none

/-- Reads the use of a parameter behind its name, unless its value alone is used. -/
def readUse : Read (Option Use) := do
  match ← takeChar with
  | some '\x7d' => return none
  | some '%' => return some (.withoutEnd (← takeIf '%'))
  | some '#' => return some (.withoutStart (← takeIf '#'))
  | some ':' =>
    match ← takeChar with
    | some c => return some ((useOfSign? c true).getD .unknown)
    | none => return some .unknown
  | some c => return some ((useOfSign? c false).getD .unknown)
  | none => return some .unknown

/-- Reads the name of a parameter between braces, and whether its length is asked for. -/
def readName (bound : Nat) : Read (Option (Bytes × Bool)) := do
  match ← peekChar with
  | none => return none
  | some '#' =>
    let _ ← takeRaw
    match ← peekChar with
    | some c =>
      if startsName c then return some (← takeWhile isInName bound [], true)
      else if c.isDigit then return some (← takeWhile Char.isDigit bound [], true)
      else if c = '\x7d' then return some (['#'], false)
      else
        let s ← get
        let _ ← takeRaw
        if (← peekChar) == some '\x7d' then
          return if isSpecial c then some ([c], true) else none
        else
          set s
          return some (['#'], false)
    | none => return some (['#'], false)
  | some c =>
    if startsName c then return some (← takeWhile isInName bound [], false)
    else if c.isDigit then return some (← takeWhile Char.isDigit bound [], false)
    else if c = '\x7d' then return none
    else
      let _ ← takeRaw
      return if isSpecial c then some ([c], false) else none

def readBraced (self : Nested) (m : PartsMode) (quoted : Bool) : Read Part := do
  let bound ← stepsLeft
  let word (quoted : Bool) : Read (List Part) :=
    self.parts { m with stop := .brace, quoted := quoted, inBrace := true }
  match ← readName bound with
  | none => return .parameter [] .unknown (← word m.quoted) quoted
  | some (name, true) =>
    if (← peekChar) == some '\x7d' then
      let _ ← takeRaw
      return .parameter name .length [] quoted
    else return .parameter name .unknown (← word m.quoted) quoted
  | some (name, false) =>
    match ← readUse with
    | none => return .parameter name .value [] quoted
    | some use =>
      let cut := match use with
        | .withoutStart _ | .withoutEnd _ => true
        | _ => false
      return .parameter name use (← word (m.quoted && !cut)) quoted

/-! ## Parts -/

def readCommands (self : Nested) : Read Command := do
  let s ← get
  set { s with pushed := none }
  let c ← self.commands
  match ← self.token with
  | .sign ")" =>
    modify fun after => { after with pushed := s.pushed }
    return c
  | t => failAt t (some "\")\"")

/-- Reads the part behind a dollar sign, or the sign itself. -/
def readDollar (self : Nested) (m : PartsMode) (quoted : Bool) : Read Part := do
  match ← peekChar with
  | some '(' =>
    let _ ← takeRaw
    if ← takeIf '(' then
      return .number
        (← self.parts { m with stop := .parentheses, quoted := true, inBrace := false })
        quoted
    else return .output (← readCommands self) quoted
  | some '\x7b' =>
    let _ ← takeRaw
    readBraced self m quoted
  | some c =>
    if startsName c then
      return .parameter (← takeWhile isInName (← stepsLeft) []) .value [] quoted
    else if isSpecial c then
      let _ ← takeRaw
      return .parameter [c] .value [] quoted
    else return .text ['$'] m.quoted
  | none => return .text ['$'] m.quoted

def readBackquoted (self : Nested) (m : PartsMode) (quoted : Bool) : Read Part := do
  let line := (← get).line
  let script ← takeBackquoted m.quoted (← stepsLeft) []
  return .output (← within script line self.commands) quoted

def endsWord (c : Char) : Bool := " \t\n;&|<>()".toList.contains c

/-- The text that a backslash and the character behind it stand for. -/
def keptText (m : PartsMode) (c : Char) : Bytes :=
  if m.quoted ∧ c ≠ '\\' ∧ c ≠ '\x60' ∧ c ≠ '$' ∧ (c ≠ '"' ∨ (m.inDocument ∧ !m.inBrace))
      ∧ (c ≠ '\x7d' ∨ !m.inBrace) then ['\\', c]
  else [c]

/-- Reads parts up to their end.  `level` counts open parentheses in a number, and tells whether a
quotation within braces that are in quotation is open. -/
def readParts (self : Nested) (m : PartsMode) : Nat → Nat → List Part → Read (List Part)
  | 0, _, acc => return acc.reverse
  | bound + 1, level, acc => do
    let quoted := m.quoted && !(m.stop == .brace && level == 1)
    match ← peekChar with
    | none =>
      match m.openFault? with
      | some fault => failWith fault
      | none => return acc.reverse
    | some c =>
      if m.stop = .word ∧ endsWord c then return acc.reverse
      else
        let _ ← takeRaw
        let next (p : Part) := readParts self m bound level (pushPart p acc)
        match c with
        | '\\' =>
          match ← takeRaw with
          | none => next (.text ['\\'] true)
          | some c => next (.text (keptText m c) true)
        | '\'' =>
          if m.quoted then next (.text [c] true)
          else next (.text (← takeQuotation (← stepsLeft) []) true)
        | '"' =>
          if m.stop = .quotation then return acc.reverse
          else if m.stop = .brace ∧ m.quoted then readParts self m bound (1 - level) acc
          else if m.quoted then next (.text [c] true)
          else
            let inside ← self.parts { m with stop := .quotation, quoted := true }
            readParts self m bound level ((quotationParts inside).reverse ++ acc)
        | '$' => next (← readDollar self m quoted)
        | '\x60' => next (← readBackquoted self m quoted)
        | '\x7d' =>
          if m.stop = .brace ∧ level = 0 then return acc.reverse else next (.text [c] m.quoted)
        | '(' =>
          if m.stop = .parentheses then
            readParts self m bound (level + 1) (pushPart (.text [c] true) acc)
          else next (.text [c] m.quoted)
        | ')' =>
          if m.stop = .parentheses then
            if 0 < level then readParts self m bound (level - 1) (pushPart (.text [c] true) acc)
            else if ← takeIf ')' then return acc.reverse
            else next (.text [c] true)
          else next (.text [c] m.quoted)
        | c => next (.text [c] m.quoted)

def readWord (self : Nested) : Read Word :=
  self.parts ⟨.word, false, false, false⟩

/-- Reads a word that ends a text in the script: only quotation is known in it.  Also tells whether
there was any. -/
def readMark : Nat → Bytes → Bool → Read (Bytes × Bool)
  | 0, acc, quoted => return (acc.reverse, quoted)
  | bound + 1, acc, quoted => do
    match ← peekChar with
    | none => return (acc.reverse, quoted)
    | some c =>
      if endsWord c then return (acc.reverse, quoted)
      else
        let _ ← takeRaw
        match c with
        | '\\' =>
          match ← takeRaw with
          | none => readMark bound ('\\' :: acc) true
          | some c => readMark bound (c :: acc) true
        | '\'' =>
          let inside ← takeQuotation (← stepsLeft) []
          readMark bound (inside.reverse ++ acc) true
        | '"' =>
          let inside ← takeWhile (· != '"') (← stepsLeft) []
          if ← takeIf '"' then readMark bound (inside.reverse ++ acc) true
            else failWith .openQuotation
        | c => readMark bound (c :: acc) quoted

def readText (self : Nested) (text : Bytes) : Read (List Part) := do
  let line := (← get).line
  within text (line + 1) (self.parts ⟨.text, true, false, true⟩)

end PlanConstraints.Shell

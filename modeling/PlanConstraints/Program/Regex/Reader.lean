import PlanConstraints.Program.Regex.Basic

set_option autoImplicit false

/-!
# Text: reading regular expressions

There are two ways to write expressions.  In the plain one, signs for groups, alternatives and
counts stand behind backslashes; in the extended one, they stand alone.
-/

namespace PlanConstraints.Regex

/-- Causes for which an expression cannot be read. -/
inductive Fault where
  | openBracket
  | openGroup
  | closedGroup
  | openCount
  | badCount
  | badClass
  | badCollation
  | badRange
  | badReference
  | lastBackslash
  | tooLarge
  | nothingBefore
  | emptyBracket
  deriving DecidableEq

def Fault.message : Fault → String
  | openBracket => "Unmatched [, [^, [:, [., or [="
  | openGroup => "Unmatched ( or \\("
  | closedGroup => "Unmatched ) or \\)"
  | openCount => "Unmatched \\\x7b"
  | badCount => "Invalid content of \\\x7b\\\x7d"
  | badClass => "Invalid character class name"
  | badCollation => "Invalid collation character"
  | badRange => "Invalid range end"
  | badReference => "Invalid back reference"
  | lastBackslash => "Trailing backslash"
  | tooLarge => "Regular expression too big"
  | nothingBefore => "Invalid preceding regular expression"
  | emptyBracket => "Invalid regular expression"

/-- How an expression is written. -/
structure Style where
  extended : Bool
  /-- Letters behind backslashes stand for control characters. -/
  escapes : Bool
  /-- In the extended way, a closing parenthesis may stand for itself, and so may the sign of a
  count; counts of nothing are left out. -/
  loose : Bool

/-- What is still to be read, and the number of groups so far. -/
structure Reading where
  rest : Bytes
  groups : Nat
  /-- The groups that have been closed. -/
  closed : List Nat
  /-- Signs of counts before which nothing stands, the last one first. -/
  idle : List Char

abbrev Read := EStateM Fault Reading

/-! ## Brackets -/

/-- The text up to a sign in front of a closing bracket, and what stands behind that. -/
def splitNamed (sign : Char) : Bytes → Option (Bytes × Bytes)
  | c :: ']' :: rest => if c = sign then some ([], rest) else
      (splitNamed sign (']' :: rest)).map fun (name, rest) => (c :: name, rest)
  | c :: rest => (splitNamed sign rest).map fun (name, rest) => (c :: name, rest)
  | [] => none

/-- Control characters that are written as letters behind a backslash. -/
def controlOf? : Char → Option Char
  | 'n' => some '\n'
  | 't' => some '\t'
  | 'f' => some '\x0c'
  | 'v' => some '\x0b'
  | 'a' => some '\x07'
  | 'r' => some '\r'
  | _ => none

/-- A character that ends a range in brackets, and what stands behind it. -/
def bracketChar (s : Style) : Bytes → Except Fault (Char × Bytes)
  | '[' :: sign :: rest =>
    if sign = '.' ∨ sign = '=' ∨ sign = ':' then
      match splitNamed sign rest with
      | none => .error .openBracket
      | some ([c], rest) => if sign = '.' then .ok (c, rest) else .error .badRange
      | some _ => .error (if sign = ':' then .badRange else .badCollation)
    else .ok ('[', sign :: rest)
  | '\\' :: c :: rest =>
    match if s.escapes then controlOf? c else none with
    | some control => .ok (control, rest)
    | none => .ok ('\\', c :: rest)
  | c :: rest => .ok (c, rest)
  | [] => .error .openBracket

/-- Reads what brackets list; at the start a closing bracket stands for itself. -/
def readBracket (s : Style) : Nat → Bool → Bytes → Except Fault (List Listed × Bytes)
  | 0, _, _ | _, _, [] => .error .openBracket
  | bound + 1, start, c :: rest =>
    let behind (item : Listed) (rest : Bytes) : Except Fault (List Listed × Bytes) :=
      (readBracket s bound false rest).map fun (items, rest) => (item :: items, rest)
    if c = ']' ∧ !start then .ok ([], rest)
    else if c = '-' ∧ !start ∧ rest.head?.any (· != ']') then .error .badRange
    else
      let single (item : Listed) (rest : Bytes) : Except Fault (List Listed × Bytes) :=
        match rest with
        | '-' :: d :: _ => if d = ']' then behind item rest else .error .badRange
        | rest => behind item rest
      match c, rest with
      | '[', ':' :: inside =>
        match splitNamed ':' inside with
        | some (name, rest) =>
          if isClassName (String.ofList name) then single (.named (String.ofList name)) rest
          else .error .badClass
        | none => .error .openBracket
      | '[', '=' :: inside =>
        match splitNamed '=' inside with
        | some ([c], rest) => single (.range c c) rest
        | some _ => .error .badCollation
        | none => .error .openBracket
      | c, rest =>
        match bracketChar s (c :: rest) with
        | .error f => .error f
        | .ok (first, '-' :: ']' :: rest) => behind (.range first first) ('-' :: ']' :: rest)
        | .ok (first, '-' :: rest) =>
          match bracketChar s rest with
          | .error f => .error f
          | .ok (last, rest) =>
            if last < first then .error .badRange else behind (.range first last) rest
        | .ok (first, rest) => behind (.range first first) rest

/-! ## Counts -/

def countLimit : Nat := 32768

/-- A count in front of its end, and what stands behind that: the least and the greatest number. -/
def readCount? (close : Bytes) (rest : Bytes) : Option ((Nat × Option Nat) × Bytes) :=
  let (first, more) := Bytes.splitDigits rest
  let least := Bytes.valueOf first
  match more with
  | ',' :: more =>
    let (second, more) := Bytes.splitDigits more
    let most := if second = [] then none else some (Bytes.valueOf second)
    (Bytes.behind? close more).map fun rest => ((least, most), rest)
  | more =>
    if first = [] then none
    else (Bytes.behind? close more).map fun rest => ((least, some least), rest)

/-! ## Expressions -/

def takeText (text : String) : Read Bool := do
  let s ← get
  match Bytes.behind? text.toList s.rest with
  | some rest =>
    set { s with rest := rest }
    return true
  | none => return false

def Style.sign (s : Style) (sign : String) : String := if s.extended then sign else "\\" ++ sign

def comes (text : String) : Read Bool := do
  return (Bytes.behind? text.toList (← get).rest).isSome

/-- The number that digits to a base stand for, at most that many, and what stands behind them. -/
def readCode (base limit : Nat) (cs : Bytes) : Option (Char × Bytes) :=
  let digit? (c : Char) : Option Nat :=
    let value :=
      if c.isDigit then c.toNat - '0'.toNat
      else if 'a' ≤ c.toLower ∧ c.toLower ≤ 'f' then c.toLower.toNat - 'a'.toNat + 10
      else base
    if value < base then some value else none
  let digits := (cs.take limit).takeWhile fun c => (digit? c).isSome
  if digits = [] then none
  else
    let value := digits.foldl (fun n c => n * base + (digit? c).getD 0) 0
    some (Char.ofNat (value % 256), cs.drop digits.length)

/-- A text in which codes behind backslashes have been replaced by what they stand for. -/
def withoutCodes : Nat → Bytes → Bytes
  | 0, cs => cs
  | bound + 1, cs =>
    match cs with
    | [] => []
    | '\\' :: c :: cs =>
      let code := match c with
        | 'd' => readCode 10 3 cs
        | 'o' => readCode 8 3 cs
        | 'x' => readCode 16 2 cs
        | _ => none
      match code with
      | some (code, rest) => code :: withoutCodes bound rest
      | none => '\\' :: c :: withoutCodes bound cs
    | c :: cs => c :: withoutCodes bound cs

def escaped (s : Style) (c : Char) : Read Regex := do
  let more (r : Regex) : Read Regex := return r
  match c with
  | 'w' => more (.oneOf false [.named "alnum", .range '_' '_'])
  | 'W' => more (.oneOf true [.named "alnum", .range '_' '_'])
  | 's' => more (.oneOf false [.named "space"])
  | 'S' => more (.oneOf true [.named "space"])
  | 'b' => more .wordEdge
  | 'B' => more .noWordEdge
  | '<' => more .wordStart
  | '>' => more .wordEnd
  | '\x60' => more .textStart
  | '\'' => more .textEnd
  | c =>
    if '1' ≤ c ∧ c ≤ '9' then
      let number := c.toNat - '0'.toNat
      if (← get).closed.contains number then return .again number else throw .badReference
    else if s.escapes then
      match controlOf? c with
      | some control => return .char control
      | none => return .char c
    else return .char c

/-- Reads counts behind an expression, which may have been counted before. -/
def readCounts (s : Style) (counted : Bool) : Nat → Regex → Read Regex
  | 0, r => return r
  | bound + 1, r => do
    if counted && !s.extended && !s.loose && ((← comes "*") || (← comes (s.sign "\x7b"))) then
      throw .nothingBefore
    if ← takeText "*" then readCounts s true bound (.several r 0 none)
    else if ← takeText (s.sign "+") then readCounts s true bound (.several r 1 none)
    else if ← takeText (s.sign "?") then readCounts s true bound (.several r 0 (some 1))
    else if ← comes (s.sign "\x7b") then
      let state ← get
      let inside := state.rest.drop (s.sign "\x7b").length
      match readCount? (s.sign "\x7d").toList inside with
      | some ((least, most), rest) =>
        if most.any (· < least) then throw .badCount
        else if countLimit ≤ max least (most.getD 0) then throw .tooLarge
        else
          set { state with rest := rest }
          readCounts s true bound (.several r least most)
      | none =>
        if s.extended && s.loose then return r
        else if (Bytes.splitAt? (s.sign "\x7d").toList inside).isSome then throw .badCount
        else throw .openCount
    else return r

/-- A sign of counts that comes next, as it is written, and its character. -/
def countSign? (s : Style) : Read (Option (String × Char)) := do
  for (sign, c) in [("*", '*'), (s.sign "+", '+'), (s.sign "?", '?'), (s.sign "\x7b", '\x7b')] do
    if ← comes sign then return some (sign, c)
  return none

def endsHere (s : Style) (depth : Nat) : Read Bool := do
  return (← get).rest.isEmpty || (← comes (s.sign "|"))
    || ((← comes (s.sign ")")) && (0 < depth || !(s.extended && s.loose)))

mutual

def readAtom (s : Style) (bound depth : Nat) (first : Bool) : Read Regex :=
  match bound with
  | 0 => return .nothing
  | bound + 1 => do
    let state ← get
    match state.rest with
    | [] => return .nothing
    | c :: rest =>
      if ← takeText (s.sign "(") then
        let number := (← get).groups + 1
        modify fun t => { t with groups := number }
        let r ← readEither s bound (depth + 1)
        if ← takeText (s.sign ")") then
          modify fun t => { t with closed := number :: t.closed }
          return .group number r
        else throw .openGroup
      else
        set { state with rest := rest }
        match c with
        | '.' => return .any
        | '[' =>
          let (negated, inside) := match rest with
            | '^' :: inside => (true, inside)
            | inside => (false, inside)
          match readBracket s (inside.length + 1) true inside with
          | .error f => throw (if inside = [] then .emptyBracket else f)
          | .ok (listed, rest) =>
            set { state with rest := rest }
            return .oneOf negated listed
        | '^' => if s.extended || first then return .lineStart else return .char '^'
        | '$' =>
          if s.extended then return .lineEnd
          else if ← endsHere s depth then return .lineEnd
          else return .char '$'
        | '\\' =>
          match rest with
          | [] => throw .lastBackslash
          | c :: rest =>
            set { state with rest := rest }
            escaped s c
        | c => return .char c

/-- Reads expressions one after the other.  `first` tells that they stand at the start of an
alternative, and `bare` that nothing stands before them that can be counted. -/
def readBoth (s : Style) (bound depth : Nat) (first bare : Bool) : Read Regex :=
  match bound with
  | 0 => return .nothing
  | bound + 1 => do
    if ← endsHere s depth then return .nothing
    else
      let sign? ← if bare then countSign? s else pure none
      match sign? with
      | some (sign, c) =>
        if s.extended then
          if !s.loose then throw .nothingBefore
          if first then modify fun t => { t with idle := c :: t.idle }
          let rest := (← get).rest
          let _ ← readCounts s false bound .nothing
          if (← get).rest.length < rest.length then readBoth s bound depth first true
          else
            let _ ← takeText sign
            return .both (.char c) (← readBoth s bound depth false false)
        else
          if c = '\x7b' ∧ !s.loose then throw .nothingBefore
          let _ ← takeText sign
          let r ← readCounts s false bound (.char c)
          return .both r (← readBoth s bound depth false false)
      | none =>
        let atom ← readAtom s bound depth first
        if atom.isAnchor then
          return .both atom (← readBoth s bound depth (first && s.extended) true)
        else
          let r ← readCounts s false bound atom
          return .both r (← readBoth s bound depth false false)

/-- Reads alternatives.  In each of them, only groups that were closed before all of them can be
asked for again. -/
def readEither (s : Style) (bound depth : Nat) : Read Regex :=
  match bound with
  | 0 => return .nothing
  | bound + 1 => do
    let closed := (← get).closed
    let r ← readBoth s bound depth true true
    if ← takeText (s.sign "|") then
      let closedFirst := (← get).closed
      modify fun t => { t with closed := closed }
      let others ← readEither s bound depth
      modify fun t => { t with closed := t.closed ++ closedFirst }
      return .either r others
    else return r

end

/-- Reads an expression; signs of counts before which nothing stands are reported. -/
def ofBytesReporting (s : Style) (text : Bytes) : Except Fault (Regex × List Char) :=
  let read : Read Regex := do
    let r ← readEither s (4 * text.length + 8) 0
    if (← get).rest.isEmpty then return r else throw .closedGroup
  match read ⟨text, 0, [], []⟩ with
  | .ok r state => .ok (r, state.idle.reverse)
  | .error f _ => .error f

def ofBytes (s : Style) (text : Bytes) : Except Fault Regex :=
  (ofBytesReporting s text).map (·.1)

def ofPlain (text : Bytes) : Regex := text.foldr (fun c r => .both (.char c) r) .nothing

end PlanConstraints.Regex

import PlanConstraints.Program.Shell.Script

set_option autoImplicit false

/-!
# Shell: arithmetic

Expressions over integers of 64 bits, with names of parameters, which can be set.  What follows an
operator that has decided the value is read but not evaluated.
-/

namespace PlanConstraints.Shell.Arithmetic

/-- The integer of 64 bits that a number is up to a multiple of two to the 64th. -/
def wrap (n : Int) : Int := (Int64.ofInt n).toInt

/-! ## Numbers -/

def digit? (c : Char) : Option Nat :=
  if c.isDigit then some (c.toNat - '0'.toNat)
  else if 'a' ≤ c ∧ c ≤ 'z' then some (c.toNat - 'a'.toNat + 10)
  else if 'A' ≤ c ∧ c ≤ 'Z' then some (c.toNat - 'A'.toNat + 10)
  else none

/-- Reads digits on from a value, and returns what stands behind them. -/
def readDigits (base value : Nat) : Bytes → Nat × Bytes
  | [] => (value, [])
  | c :: cs =>
    match digit? c with
    | some d => if d < base then readDigits base (value * base + d) cs else (value, c :: cs)
    | none => (value, c :: cs)

/-- Reads a number that starts with a digit: octal behind a zero, hexadecimal behind a zero and an
`x`.  Returns what stands behind it. -/
def readNumber (cs : Bytes) : Nat × Bytes :=
  match cs with
  | '0' :: x :: d :: more =>
    if (x = 'x' ∨ x = 'X') ∧ (digit? d).any (· < 16) then readDigits 16 0 (d :: more)
    else readDigits 8 0 cs
  | '0' :: _ => readDigits 8 0 cs
  | cs => readDigits 10 0 cs

def greatest : Int := Int64.maxValue.toInt

def least : Int := Int64.minValue.toInt

/-- The integer that the whole value of a parameter stands for; none stands for zero. -/
def integerOf? (value : Bytes) : Option Int :=
  let body := value.dropWhile Bytes.isSpace
  let (negative, digits) := match body with
    | '-' :: cs => (true, cs)
    | '+' :: cs => (false, cs)
    | cs => (false, cs)
  match digits with
  | [] => if body = [] then some 0 else none
  | c :: _ =>
    if c.isDigit then
      let (n, rest) := readNumber digits
      let n : Int := if negative then -(n : Int) else n
      if rest.all Bytes.isSpace ∧ least ≤ n ∧ n ≤ greatest then some n else none
    else none

/-! ## Tokens -/

inductive Token where
  | number (n : Int)
  | name (name : Bytes)
  | op (text : String)
  | unknown
  deriving DecidableEq

/-- The operators of more than one character come first. -/
def operators : List String :=
  ["<<=", ">>=", "<<", ">>", "<=", ">=", "==", "!=", "&&", "||", "*=", "/=", "%=", "+=", "-=", "&=",
    "^=", "|=", "*", "/", "%", "+", "-", "<", ">", "&", "^", "|", "!", "~", "?", ":", "(", ")", "="]

def tokens : Nat → Bytes → List Token
  | 0, _ => []
  | _, [] => []
  | bound + 1, c :: cs =>
    if c = ' ' ∨ c = '\t' ∨ c = '\n' then tokens bound cs
    else if c.isDigit then
      let (n, rest) := readNumber (c :: cs)
      .number (min n greatest) :: tokens bound rest
    else if startsName c then
      .name ((c :: cs).takeWhile isInName) :: tokens bound ((c :: cs).dropWhile isInName)
    else
      match operators.find? fun o => o.toList.isPrefixOf (c :: cs) with
      | some o => .op o :: tokens bound ((c :: cs).drop o.length)
      | none => .unknown :: tokens bound cs

/-! ## Evaluation -/

/-- Causes for which an expression has no value. -/
inductive Fault where
  | expected (what : String)
  | divisionByZero
  /-- The value of a parameter is no number. -/
  | badNumber (value : Bytes)
  deriving DecidableEq

/-- The tokens that are left, and the parameters that have been set. -/
structure State where
  rest : List Token
  values : Bytes → Bytes
  changed : List (Bytes × Bytes)

abbrev Calculation := EStateM Fault State

/-- How strongly an operator binds; a smaller number binds more strongly. -/
def binding? : String → Option Nat
  | "*" | "/" | "%" => some 0
  | "+" | "-" => some 1
  | "<<" | ">>" => some 2
  | "<" | "<=" | ">" | ">=" => some 3
  | "==" | "!=" => some 4
  | "&" => some 5
  | "^" => some 6
  | "|" => some 7
  | _ => none

def bits (n : Int) : BitVec 64 := BitVec.ofInt 64 n

def ofBool (b : Bool) : Int := if b then 1 else 0

/-- The value of an operator between two numbers. -/
def apply (op : String) (a b : Int) : Except Fault Int :=
  match op with
  | "*" => .ok (wrap (a * b))
  | "/" => if b = 0 then .error .divisionByZero else .ok (wrap (Int.tdiv a b))
  | "%" => if b = 0 then .error .divisionByZero else .ok (wrap (Int.tmod a b))
  | "+" => .ok (wrap (a + b))
  | "-" => .ok (wrap (a - b))
  | "<<" => .ok ((bits a <<< (bits b).toNat % 64)).toInt
  | ">>" => .ok ((bits a).sshiftRight ((bits b).toNat % 64)).toInt
  | "<" => .ok (ofBool (a < b))
  | "<=" => .ok (ofBool (a ≤ b))
  | ">" => .ok (ofBool (a > b))
  | ">=" => .ok (ofBool (a ≥ b))
  | "==" => .ok (ofBool (a == b))
  | "!=" => .ok (ofBool (a != b))
  | "&" => .ok (bits a &&& bits b).toInt
  | "^" => .ok (bits a ^^^ bits b).toInt
  | _ => .ok (bits a ||| bits b).toInt

def take : Calculation (Option Token) := do
  let s ← get
  match s.rest with
  | [] => return none
  | t :: rest =>
    set { s with rest := rest }
    return some t

def takeIf (op : String) : Calculation Bool := do
  let s ← get
  match s.rest with
  | .op found :: rest =>
    if found = op then
      set { s with rest := rest }
      return true
    else return false
  | _ => return false

def valueOf (name : Bytes) : Calculation Int := do
  let value := (← get).values name
  match integerOf? value with
  | some n => return n
  | none => throw (.badNumber value)

def assign (name : Bytes) (n : Int) : Calculation Unit :=
  modify fun s =>
    let digits := Bytes.ofInt n
    { s with
      values := fun other => if other = name then digits else s.values other
      changed := (name, digits) :: s.changed }

/-- The value of an operator between two numbers; the second one counts where nothing is evaluated.
-/
def combine (op : String) (idle : Bool) (a b : Int) : Calculation Int :=
  if idle then return b
  else
    match apply op a b with
    | .ok n => return n
    | .error e => throw e

/-- The readers for expressions in parentheses or behind operators. -/
structure Readers where
  assignment : Bool → Calculation Int
  conditional : Bool → Calculation Int
  disjunction : Bool → Calculation Int
  conjunction : Bool → Calculation Int
  unary : Bool → Calculation Int
  /-- Reads operators that bind more strongly than a number. -/
  binary : Nat → Bool → Calculation Int
  /-- Goes on behind a number with operators that bind more strongly than another number. -/
  further : Nat → Bool → Int → Calculation Int

def readUnary (self : Readers) (idle : Bool) : Calculation Int := do
  match ← take with
  | some (.number n) => return n
  | some (.name name) => if idle then return 0 else valueOf name
  | some (.op "(") =>
    let n ← self.assignment idle
    if ← takeIf ")" then return n else throw (.expected "')'")
  | some (.op "+") => self.unary idle
  | some (.op "-") => return wrap (-(← self.unary idle))
  | some (.op "!") => return ofBool ((← self.unary idle) == 0)
  | some (.op "~") => return wrap (-(← self.unary idle) - 1)
  | _ => throw (.expected "primary")

def readFurther (self : Readers) (limit : Nat) (idle : Bool) (a : Int) : Calculation Int := do
  let s ← get
  match s.rest with
  | .op op :: rest =>
    match binding? op with
    | some n =>
      if n < limit then
        set { s with rest := rest }
        let b ← self.binary n idle
        self.further limit idle (← combine op idle a b)
      else return a
    | none => return a
  | _ => return a

def readBinary (self : Readers) (limit : Nat) (idle : Bool) : Calculation Int := do
  self.further limit idle (← self.unary idle)

def readConjunction (self : Readers) (idle : Bool) : Calculation Int := do
  let a ← self.binary 8 idle
  if ← takeIf "&&" then
    let b ← self.conjunction (idle || a == 0)
    return ofBool (a != 0 && b != 0)
  else return a

def readDisjunction (self : Readers) (idle : Bool) : Calculation Int := do
  let a ← self.conjunction idle
  if ← takeIf "||" then
    let b ← self.disjunction (idle || a != 0)
    return ofBool (a != 0 || b != 0)
  else return a

def readConditional (self : Readers) (idle : Bool) : Calculation Int := do
  let a ← self.disjunction idle
  if ← takeIf "?" then
    let b ← self.assignment (idle || a == 0)
    if ← takeIf ":" then
      let c ← self.conditional (idle || a != 0)
      return if a != 0 then b else c
    else throw (.expected "':'")
  else return a

/-- The operator that an assignment applies to the old value, if it is one; a plain assignment
applies none. -/
def assignmentOf? (op : String) : Option (Option String) :=
  if op = "=" then some none
  else if ["<<=", ">>=", "*=", "/=", "%=", "+=", "-=", "&=", "^=", "|="].contains op then
    some (some (String.ofList op.toList.dropLast))
  else none

def readAssignment (self : Readers) (idle : Bool) : Calculation Int := do
  let s ← get
  match s.rest with
  | .name name :: .op op :: rest =>
    match assignmentOf? op with
    | none => self.conditional idle
    | some applied =>
      set { s with rest := rest }
      let n ← self.assignment idle
      if idle then return n
      else
        let n ←
          match applied with
          | none => pure n
          | some op => combine op false (← valueOf name) n
        assign name n
        return n
  | _ => self.conditional idle

def readers : Nat → Readers
  | 0 =>
    let fail : Calculation Int := throw (.expected "primary")
    ⟨fun _ => fail, fun _ => fail, fun _ => fail, fun _ => fail, fun _ => fail, fun _ _ => fail,
      fun _ _ _ => fail⟩
  | depth + 1 =>
    let self := readers depth
    ⟨readAssignment self, readConditional self, readDisjunction self, readConjunction self,
      readUnary self, readBinary self, readFurther self⟩

/-- The value of an expression, and the parameters it sets, latest first. -/
def evaluate (values : Bytes → Bytes) (expression : Bytes) :
    Except Fault (Int × List (Bytes × Bytes)) :=
  let ts := tokens expression.length expression
  let read : Calculation Int := do
    let n ← (readers (8 * ts.length + 8)).assignment false
    match ← take with
    | none => return n
    | some _ => throw (.expected "EOF")
  match read ⟨ts, values, []⟩ with
  | .ok n s => .ok (n, s.changed)
  | .error e _ => .error e

def Fault.message (expression : Bytes) : Fault → Bytes
  | expected what =>
    "arithmetic expression: expecting ".toList
      ++ what.toList ++ ": \"".toList ++ expression ++ ['"']
  | divisionByZero =>
    "arithmetic expression: division by zero: \"".toList ++ expression ++ ['"']
  | badNumber value => "Illegal number: ".toList ++ value

end PlanConstraints.Shell.Arithmetic

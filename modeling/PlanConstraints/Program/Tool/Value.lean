import PlanConstraints.Program.Regex.Reader
import PlanConstraints.Program.Tool.Job

set_option autoImplicit false

/-!
# Tools: values of expressions

The arguments are the signs of an expression, whose value is printed: a number or a text.
-/

namespace PlanConstraints.Tool

/-- The arguments that are left. -/
structure Operands where
  rest : List Bytes
  /-- The argument in front of them. -/
  before : Bytes

/-- Reads a part of an expression, and gives its value. -/
abbrev Valuing := StateT Operands Job

def badExpression {α : Type} (text : Bytes) : Valuing α :=
  (fail ("syntax error: ".toList ++ text) 2 : Job α)

def takeOperator (known : List String) : Valuing (Option String) := do
  let s ← get
  match s.rest with
  | arg :: rest =>
    match known.find? fun k => k.toList == arg with
    | some k =>
      set { s with rest := rest, before := arg }
      return some k
    | none => return none
  | [] => return none

def takeOperand : Valuing Bytes := do
  let s ← get
  match s.rest with
  | arg :: rest =>
    set { s with rest := rest, before := arg }
    return arg
  | [] => badExpression ("missing argument after ".toList ++ quoted s.before)

def integerValue? (text : Bytes) : Option Int :=
  match text with
  | '-' :: digits => (Bytes.natural? digits).map fun n => -(n : Int)
  | digits => (Bytes.natural? digits).map fun n => (n : Int)

def integerOrFail (text : Bytes) : Valuing Int := do
  match integerValue? text with
  | some n => return n
  | none => (fail "non-integer argument".toList 2 : Job Int)

def isNull (text : Bytes) : Bool :=
  text = [] || integerValue? text == some 0

/-- What an expression matches at the start of a text: that of its first group, or a number. -/
def matchValue (text pattern : Bytes) : Valuing Bytes := do
  match Regex.ofBytes ⟨false, false, true⟩ pattern with
  | .error f => (fail f.message.toList 2 : Job Bytes)
  | .ok r =>
    let hasGroup := 0 < r.groupCount
    match Regex.places ⟨false, false⟩ r.looksBack r ⟨none, text, []⟩ with
    | [] => return if hasGroup then [] else ['0']
    | p :: _ =>
      if hasGroup then return (p.groups.lookup 1).getD []
      else return Bytes.ofNat (text.length - p.rest.length)

def comparisonValue (operator : String) (a b : Bytes) : Bytes :=
  let order : Ordering := match integerValue? a, integerValue? b with
    | some x, some y => compare x y
    | _, _ => if Bytes.isBefore a b then .lt else if Bytes.isBefore b a then .gt else .eq
  let holds : Bool := match operator with
    | "<" => order == .lt
    | "<=" => order != .gt
    | "=" | "==" => order == .eq
    | "!=" => order != .eq
    | ">=" => order != .lt
    | _ => order == .gt
  if holds then ['1'] else ['0']

mutual

def valueOfOne (bound : Nat) : Valuing Bytes :=
  match bound with
  | 0 => return []
  | bound + 1 => do
    match ← takeOperator ["(", "+", ")"] with
    | some "+" => takeOperand
    | some "(" =>
      let v ← valueOfAny bound
      match ← takeOperator [")"] with
      | some _ => return v
      | none =>
        let s ← get
        match s.rest with
        | [] => badExpression ("expecting ')' after ".toList ++ quoted s.before)
        | arg :: _ => badExpression ("expecting ')' instead of ".toList ++ quoted arg)
    | some _ => badExpression "unexpected ')'".toList
    | none => takeOperand

def valueOfFunction (bound : Nat) : Valuing Bytes :=
  match bound with
  | 0 => return []
  | bound + 1 => do
    match ← takeOperator ["length", "match", "index", "substr"] with
    | some "length" => return Bytes.ofNat (← valueOfFunction bound).length
    | some "match" =>
      let text ← valueOfFunction bound
      matchValue text (← valueOfFunction bound)
    | some "index" =>
      let text ← valueOfFunction bound
      let chars ← valueOfFunction bound
      return match text.findIdx? chars.contains with
        | some i => Bytes.ofNat (i + 1)
        | none => ['0']
    | some _ =>
      let text ← valueOfFunction bound
      let place ← valueOfFunction bound
      let length ← valueOfFunction bound
      match integerValue? place, integerValue? length with
      | some p, some n =>
        return if p ≤ 0 ∨ n ≤ 0 then [] else (text.drop (p.toNat - 1)).take n.toNat
      | _, _ => return []
    | none => valueOfOne bound

def valueBehind (level bound : Nat) (v : Bytes) : Valuing Bytes :=
  match bound with
  | 0 => return v
  | bound + 1 => do
    let known := match level with
      | 0 => ["|"]
      | 1 => ["&"]
      | 2 => ["<=", "<", "==", "=", "!=", ">=", ">"]
      | 3 => ["+", "-"]
      | 4 => ["*", "/", "%"]
      | _ => [":"]
    match ← takeOperator known with
    | none => return v
    | some operator =>
      let w ← valueOfLevel (level + 1) bound
      let next ←
        match operator with
        | "|" => pure (if !isNull v then v else if isNull w then ['0'] else w)
        | "&" => pure (if isNull v || isNull w then ['0'] else v)
        | ":" => matchValue v w
        | "+" => do pure (Bytes.ofInt ((← integerOrFail v) + (← integerOrFail w)))
        | "-" => do pure (Bytes.ofInt ((← integerOrFail v) - (← integerOrFail w)))
        | "*" => do pure (Bytes.ofInt ((← integerOrFail v) * (← integerOrFail w)))
        | "/" | "%" => do
          let x ← integerOrFail v
          let y ← integerOrFail w
          if y = 0 then (fail "division by zero".toList 2 : Job Bytes)
          else pure (Bytes.ofInt (if operator = "/" then x.tdiv y else x.tmod y))
        | operator => pure (comparisonValue operator v w)
      valueBehind level bound next

/-- The value of operators of a level and those that bind more. -/
def valueOfLevel (level bound : Nat) : Valuing Bytes :=
  match bound with
  | 0 => return []
  | bound + 1 => do
    if level < 6 then
      let v ← valueOfLevel (level + 1) bound
      valueBehind level bound v
    else valueOfFunction bound

def valueOfAny (bound : Nat) : Valuing Bytes :=
  match bound with
  | 0 => return []
  | bound + 1 => valueOfLevel 0 bound

end

/-- Prints the value of an expression, and fails if it counts as false. -/
def expr : Job Unit := do
  let args := (← get).call.args
  let args := if args.head? = some "--".toList then args.tail else args
  if args.isEmpty then refuse "missing operand".toList 2
  let (v, s) ← (valueOfAny (20 * args.length + 20)).run ⟨args, []⟩
  match s.rest with
  | [] =>
    print (v ++ ['\n'])
    if isNull v then note 1
  | arg :: _ => fail ("syntax error: unexpected argument ".toList ++ quoted arg) 2

end PlanConstraints.Tool

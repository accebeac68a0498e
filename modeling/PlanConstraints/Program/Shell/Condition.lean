import PlanConstraints.File.Tree
import PlanConstraints.Program.Bytes

set_option autoImplicit false

/-!
# Shell: conditions

A condition compares texts or numbers, or asks for files.  Its words are the arguments of a command.
-/

namespace PlanConstraints.Shell

/-- Causes for which a condition has no answer. -/
inductive ConditionFault where
  | missingBracket
  | missingParenthesis
  | unexpectedOperator (word : Bytes)
  | badNumber (word : Bytes)
  | missingArgument (word : Bytes)
  deriving DecidableEq

def ConditionFault.message : ConditionFault → Bytes
  | missingBracket => "missing ]".toList
  | missingParenthesis => "closing paren expected".toList
  | unexpectedOperator word => word ++ ": unexpected operator".toList
  | badNumber word => "Illegal number: ".toList ++ word
  | missingArgument word => word ++ ": argument expected".toList

/-- The number of 64 bits that a word is, with blanks around it. -/
def integerOf? (word : Bytes) : Option Int :=
  let body := ((word.dropWhile Bytes.isSpace).reverse.dropWhile Bytes.isSpace).reverse
  let (negative, digits) := match body with
    | '-' :: cs => (true, cs)
    | '+' :: cs => (false, cs)
    | cs => (false, cs)
  match Bytes.natural? digits with
  | none => none
  | some n =>
    let value : Int := if negative then -(n : Int) else n
    if Int64.minValue.toInt ≤ value ∧ value ≤ Int64.maxValue.toInt then some value else none

def compareIntegers (test : Int → Int → Bool) (a b : Bytes) : Except ConditionFault Bool :=
  match integerOf? a, integerOf? b with
  | none, _ => .error (.badNumber a)
  | some _, none => .error (.badNumber b)
  | some x, some y => .ok (test x y)

/-- The answer that an operator between two words gives, if the operator is known. -/
def between? (files : FileTree) (a : Bytes) (operator : String) (b : Bytes) :
    Option (Except ConditionFault Bool) :=
  match operator with
  | "=" => some (.ok (a == b))
  | "!=" => some (.ok (a != b))
  | "<" => some (.ok (Bytes.isBefore a b))
  | ">" => some (.ok (Bytes.isBefore b a))
  | "-eq" => some (compareIntegers (· == ·) a b)
  | "-ne" => some (compareIntegers (· != ·) a b)
  | "-lt" => some (compareIntegers (· < ·) a b)
  | "-le" => some (compareIntegers (· ≤ ·) a b)
  | "-gt" => some (compareIntegers (· > ·) a b)
  | "-ge" => some (compareIntegers (· ≥ ·) a b)
  | "-ef" =>
    match files.resolve (.ofText a.text), files.resolve (.ofText b.text) with
    | .ok (.found x _), .ok (.found y _) => some (.ok (x == y))
    | _, _ => some (.ok false)
  | "-nt" | "-ot" => some (.ok false)
  | _ => none

def entryAt? (files : FileTree) (path : Bytes) : Option Entry :=
  match files.resolve (.ofText path.text) with
  | .ok (.found _ e) => some e
  | _ => none

/-- The answer that an operator in front of a word gives, if the operator is known. -/
def before? (files : FileTree) (operator : String) (a : Bytes) : Option Bool :=
  let e? := entryAt? files a
  match operator with
  | "-n" => some (a != [])
  | "-z" => some (a == [])
  | "-e" | "-r" | "-w" | "-O" | "-G" => some e?.isSome
  | "-f" =>
    match e? with
    | some (.text _) | some (.bytes _) | some (.program _) => some true
    | _ => some false
  | "-d" => some (e? == some .folder)
  | "-x" =>
    match e? with
    | some .folder | some (.program _) => some true
    | _ => some false
  | "-s" =>
    match e? with
    | some .folder => some true
    | some e => some (e.bytes? != some [])
    | none => some false
  | "-c" =>
    match e? with
    | some (.device _) => some true
    | _ => some false
  | "-b" | "-p" | "-S" | "-h" | "-L" | "-g" | "-k" | "-u" | "-t" => some false
  | _ => none

/-! ## Words -/

/-- What a word is in a condition. -/
inductive ConditionWord where
  | finish
  | operand
  /-- An operator in front of a word. -/
  | before (operator : String)
  /-- An operator between two words. -/
  | between (operator : String)
  | sign (text : String)
  deriving DecidableEq

def operatorOf? (word : Bytes) : Option ConditionWord :=
  let text := String.ofList word
  if ["!", "(", ")", "-a", "-o"].contains text then some (.sign text)
  else if (before? .empty text []).isSome then some (.before text)
  else if (between? .empty ['0'] text ['0']).isSome then some (.between text)
  else none

/-- The word can stand between two others. -/
def isBetween (word : Bytes) : Bool :=
  match operatorOf? word with
  | some (.between _) => true
  | _ => false

def firstWord : List Bytes → ConditionWord
  | [] => .finish
  | word :: more =>
    match operatorOf? word, more with
    | none, _ => .operand
    | some (.before _), [] => .operand
    | some (.before operator), next :: last =>
      if last ≠ [] ∧ isBetween next then .operand else .before operator
    | some (.sign "("), [] => .operand
    | some w, _ => w

/-! ## Answers -/

/-- An answer, and the words from the last one on that belongs to it. -/
abbrev Answering := Except ConditionFault (Bool × List Bytes)

def answerBefore (files : FileTree) (operator : String) (word : Bytes) :
    Except ConditionFault Bool :=
  if operator = "-t" ∧ (integerOf? word).isNone then .error (.badNumber word)
  else .ok ((before? files operator word).getD false)

mutual

/-- Answers alternatives at the start of words; the first word is known. -/
def anyOf (files : FileTree) : Nat → ConditionWord → List Bytes → Answering
  | 0, _, ws => .ok (false, ws)
  | bound + 1, first, ws =>
    match allOf files bound first ws with
    | .error f => .error f
    | .ok (a, ws) =>
      if firstWord ws.tail = .sign "-o" then
        match anyOf files bound (firstWord (ws.drop 2)) (ws.drop 2) with
        | .error f => .error f
        | .ok (b, ws) => .ok (a || b, ws)
      else .ok (a, ws)

/-- Answers conditions at the start of words that must all hold. -/
def allOf (files : FileTree) : Nat → ConditionWord → List Bytes → Answering
  | 0, _, ws => .ok (false, ws)
  | bound + 1, first, ws =>
    match inverted files bound first ws with
    | .error f => .error f
    | .ok (a, ws) =>
      if firstWord ws.tail = .sign "-a" then
        match allOf files bound (firstWord (ws.drop 2)) (ws.drop 2) with
        | .error f => .error f
        | .ok (b, ws) => .ok (a && b, ws)
      else .ok (a, ws)

def inverted (files : FileTree) : Nat → ConditionWord → List Bytes → Answering
  | 0, _, ws => .ok (false, ws)
  | bound + 1, first, ws =>
    if first = .sign "!" then
      let next := firstWord ws.tail
      match inverted files bound next (if next = .finish then ws else ws.tail) with
      | .error f => .error f
      | .ok (a, ws) => .ok (!a, ws)
    else single files bound first ws

/-- Answers a condition at the start of words that holds no other one beside it. -/
def single (files : FileTree) : Nat → ConditionWord → List Bytes → Answering
  | 0, _, ws => .ok (false, ws)
  | bound + 1, first, ws =>
    match first, ws with
    | .finish, _ | _, [] => .ok (false, ws)
    | .sign "(", _ :: inside =>
      if firstWord inside = .sign ")" then .ok (false, inside)
      else
        match anyOf files bound (firstWord inside) inside with
        | .error f => .error f
        | .ok (a, ws) =>
          if firstWord ws.tail = .sign ")" then .ok (a, ws.tail) else .error .missingParenthesis
    | .before operator, word :: rest =>
      match rest with
      | [] => .error (.missingArgument word)
      | a :: _ =>
        match answerBefore files operator a with
        | .error f => .error f
        | .ok answer => .ok (answer, rest)
    | _, a :: rest =>
      match firstWord rest, rest.tail with
      | .between operator, [] => .error (.missingArgument operator.toList)
      | .between operator, b :: more =>
        match between? files a operator b with
        | some (.ok answer) => .ok (answer, b :: more)
        | some (.error f) => .error f
        | none => .ok (false, ws)
      | _, _ => .ok (a != [], ws)

end

/-- The answer to a condition whose first word is known; all words must belong to it. -/
def answerAll (files : FileTree) (first : ConditionWord) (words : List Bytes) :
    Except ConditionFault Bool :=
  match anyOf files (8 * words.length + 8) first words with
  | .error f => .error f
  | .ok (_, word :: _ :: _) => .error (.unexpectedOperator word)
  | .ok (a, _) => .ok a

/-- The answer to a condition of at most `bound` words, which may have been inverted. -/
def conditionFrom (files : FileTree) (invert : Bool) : Nat → List Bytes → Except ConditionFault Bool
  | 0, _ | _, [] => .ok false
  | bound + 1, words =>
    let inner := (words.drop 1).dropLast
    let isFew := words.length = 3 ∨ words.length = 4
    let answer :=
      if words.length = 3 ∧ (words[1]?.map isBetween).getD false then
        answerAll files .operand words
      else if isFew ∧ words.head? = some ['('] ∧ words.getLast? = some [')'] then
        answerAll files (firstWord inner) inner
      else answerAll files (firstWord words) words
    if isFew ∧ ¬(words.length = 3 ∧ (words[1]?.map isBetween).getD false)
      ∧ words.head? = some ['!'] then
      conditionFrom files true bound words.tail
    else answer.map (· != invert)

/-- The answer to a condition.  A few words are read by their number. -/
def condition (files : FileTree) (words : List Bytes) : Except ConditionFault Bool :=
  conditionFrom files false (words.length + 1) words

end PlanConstraints.Shell

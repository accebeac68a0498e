import PlanConstraints.Program.Shell.Condition
import PlanConstraints.Program.Tool.Floating
import PlanConstraints.Program.Tool.Job

set_option autoImplicit false

/-!
# Tools: what is around a program

The environment, the user and the system are shown, conditions are tested, and time passes.
-/

namespace PlanConstraints.Tool

def printenv : Job Unit := do
  let g ← given ⟨[letter '0' ["null"]], false, 2⟩
  let ending := if g.has '0' then '\x00' else '\n'
  let environment := (← get).call.environment
  if g.operands.isEmpty then
    environment.forM fun (name, value) => print (name ++ '=' :: value ++ [ending])
  else
    for name in g.operands do
      match environment.lookup name with
      | some value => print (value ++ [ending])
      | none => note 1

def whoami : Job Unit := do
  let g ← given ⟨[], true, 1⟩
  match g.operands with
  | [] => print "root\n".toList
  | extra :: _ => refuse ("extra operand ".toList ++ quoted extra)

def identity : Job Unit := do
  let g ← given ⟨[letter 'a', letter 'u' ["user"], letter 'g' ["group"], letter 'G' ["groups"],
    letter 'n' ["name"], letter 'r' ["real"], letter 'z' ["zero"]], true, 1⟩
  let known (name : Bytes) : Bool := name == "root".toList || name == ['0']
  match g.operands.find? fun name => !known name with
  | some name => fail (quoted name ++ ": no such user".toList)
  | none => pure ()
  if g.has 'u' || g.has 'g' || g.has 'G' then
    print (if g.has 'n' then "root\n".toList else "0\n".toList)
  else if g.has 'n' || g.has 'r' then
    fail "printing only names or real IDs requires -u, -g, or -G".toList
  else print "uid=0(root) gid=0(root) groups=0(root)\n".toList

def uname : Job Unit := do
  let g ← given
    ⟨[letter 's' ["kernel-name"], letter 'o' ["operating-system"], letter 'm' ["machine"]],
    true, 1⟩
  match g.operands with
  | extra :: _ => refuse ("extra operand ".toList ++ quoted extra)
  | [] =>
    let parts := (if g.has 's' || g.options.isEmpty then ["Linux"] else [])
      ++ (if g.has 'm' then ["x86_64"] else []) ++ (if g.has 'o' then ["GNU/Linux"] else [])
    print (Bytes.joined [' '] (parts.map String.toList) ++ ['\n'])

def sleep : Job Unit := do
  let g ← given ⟨[], true, 1⟩
  if g.operands.isEmpty then refuse "missing operand".toList
  let wrong := g.operands.filter fun text => (duration? text).isNone
  match wrong.reverse with
  | [] => pure ()
  | last :: others =>
    for text in others.reverse do
      complain ("invalid time interval ".toList ++ quoted text)
    refuse ("invalid time interval ".toList ++ quoted last)

def repeatLimit : Nat := 20000

def yes : Job Unit := do
  let g ← given ⟨[], true, 1⟩
  let line := if g.operands.isEmpty then ['y'] else Bytes.joined [' '] g.operands
  print ((List.replicate repeatLimit (line ++ ['\n'])).flatten)

def conditionText : Shell.ConditionFault → Bytes
  | .missingBracket => "missing ']'".toList
  | .missingParenthesis => "missing ')'".toList
  | .unexpectedOperator word => "extra argument ".toList ++ quoted word
  | .badNumber word => "invalid integer ".toList ++ quoted word
  | .missingArgument word => "missing argument after ".toList ++ quoted word

/-- Tests a condition; where it is told so, the condition stands in front of a closing bracket. -/
def test (bracket : Bool) : Job Unit := do
  let p ← get
  let words := p.call.args
  if bracket ∧ words.getLast? ≠ some [']'] then fail (conditionText .missingBracket) 2
  let words := if bracket then words.dropLast else words
  match words with
  | [operator, _] =>
    if operator ≠ ['!'] ∧ (Shell.before? p.files operator.text []).isNone then
      if operator.head? = some '-'
        then fail (quoted operator ++ ": unary operator expected".toList) 2
      else fail (conditionText (.missingArgument (words.getLastD []))) 2
  | [first, operator, _] =>
    if first ≠ ['!'] ∧ first ≠ ['('] ∧ !Shell.isBetween operator then
      fail (quoted operator ++ ": binary operator expected".toList) 2
  | _ => pure ()
  match Shell.condition p.files words with
  | .ok true => pure ()
  | .ok false => stop 1
  | .error f => fail (conditionText f) 2

end PlanConstraints.Tool

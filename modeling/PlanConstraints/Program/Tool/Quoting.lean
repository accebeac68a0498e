import PlanConstraints.Program.Bytes

set_option autoImplicit false

/-!
# Tools: quoting in complaints

Complaints show names and arguments so that they can be told from the text around them: between
quotation marks with escapes, or in a form that a shell reads as the same name.
-/

namespace PlanConstraints.Tool

def isPrintable (c : Char) : Bool := ' ' ≤ c && c ≤ '~'

def escapeLetters : List (Char × Char) :=
  [('\x07', 'a'), ('\x08', 'b'), ('\x0c', 'f'), ('\n', 'n'), ('\r', 'r'), ('\t', 't'),
    ('\x0b', 'v')]

def octalDigits (c : Char) : Bytes :=
  [c.toNat / 64, c.toNat / 8 % 8, c.toNat % 8].map fun n => Char.ofNat ('0'.toNat + n)

/-- What is written behind a backslash for a character that cannot be seen. -/
def escapeOf (c : Char) : Bytes :=
  match escapeLetters.lookup c with
  | some letter => [letter]
  | none => octalDigits c

def quoted (text : Bytes) : Bytes :=
  let escaped := text.flatMap fun c =>
    if c = '\'' ∨ c = '\\' then ['\\', c] else if isPrintable c then [c] else '\\' :: escapeOf c
  '\'' :: escaped ++ ['\'']

/-- The character keeps a shell from reading a name as it is; a few do so at the start only. -/
def isShellSign (alone first : Bool) (c : Char) : Bool :=
  " !\"$&()*;<=>?[\\^\x60|'".toList.contains c || (first && (c == '#' || c == '~'))
    || (alone && (c == '\x7b' || c == '\x7d')) || !isPrintable c

/-- The character means the same between double quotation marks. -/
def keepsMeaning (first : Bool) (c : Char) : Bool :=
  (isPrintable c && !"!\"#$&()*;<=>?[\\^\x60\x7b|\x7d~".toList.contains c)
    || (first && (c == '#' || c == '~'))

/-- The text behind an opening quotation mark; `escaping` tells that an escape stands before it. -/
def shellQuotedFrom (escaping : Bool) : Bytes → Bytes
  | [] => ['\'']
  | c :: cs =>
    let close : Bytes := if escaping then "''".toList else []
    if c = '\'' then
      (if escaping then "'".toList else "'".toList) ++ "\\''".toList ++ shellQuotedFrom false cs
    else if isPrintable c then close ++ c :: shellQuotedFrom false cs
    else
      (if escaping then [] else "'$'".toList) ++ '\\' :: escapeOf c ++ shellQuotedFrom true cs

def shellQuoted (colons : Bool) (name : Bytes) : Bytes :=
  let needed := match name with
    | [] => true
    | c :: cs =>
      isShellSign cs.isEmpty true c || cs.any (isShellSign false false)
        || (colons && name.contains ':')
  if !needed then name
  else if name.contains '\'' && (name.head?.any (keepsMeaning true))
    && name.tail.all (keepsMeaning false)
  then '"' :: name ++ ['"']
  else '\'' :: shellQuotedFrom false name

def fileName (name : Bytes) : Bytes := shellQuoted true name

end PlanConstraints.Tool

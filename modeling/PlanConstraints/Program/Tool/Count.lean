import PlanConstraints.Program.Tool.Format

set_option autoImplicit false

/-!
# Tools: counting

What files hold is counted, and numbers are counted up.
-/

namespace PlanConstraints.Tool

/-! ## Counting what files hold -/

/-- What is counted. -/
structure Counts where
  lines : Nat
  words : Nat
  chars : Nat
  bytes : Nat
  /-- The length of the longest line. -/
  longest : Nat

namespace Counts

def none : Counts := ⟨0, 0, 0, 0, 0⟩

def wordCount (inside : Bool) : Bytes → Nat
  | [] => 0
  | c :: cs =>
    if Bytes.isSpace c then wordCount false cs
    else (if inside then 0 else 1) + wordCount true cs

/-- The length of a line, in which tabs go on to the next multiple of eight. -/
def lineLength (line : Bytes) : Nat :=
  line.foldl (fun n c =>
    if c = '\t' then (n / 8 + 1) * 8 else if ' ' ≤ c ∧ c ≤ '~' then n + 1 else n) 0

def ofBytes (bytes : Bytes) : Counts where
  lines := bytes.count '\n'
  words := wordCount false bytes
  chars := bytes.length
  bytes := bytes.length
  longest := ((Bytes.lines bytes).map lineLength).foldl max 0

def add (a b : Counts) : Counts :=
  ⟨a.lines + b.lines, a.words + b.words, a.chars + b.chars,
    a.bytes + b.bytes, max a.longest b.longest⟩

def shown (g : Given) (c : Counts) : List Nat :=
  let asked := [('l', c.lines), ('w', c.words), ('m', c.chars), ('c', c.bytes), ('L', c.longest)]
  if g.options.isEmpty then [c.lines, c.words, c.bytes]
  else (asked.filter fun a => g.has a.1).map (·.2)

end Counts

/-- Counts lines, words and bytes of files. -/
def wc : Job Unit := do
  let g ← given ⟨[letter 'l' ["lines"], letter 'w' ["words"], letter 'm' ["chars"],
    letter 'c' ["bytes"], letter 'L' ["max-line-length"]], true, 1⟩
  let p ← get
  let paths := pathsOf g.operands
  let sizes ← paths.mapM fun path => do
    if path = ['-'] then return p.input.length
    else
      match ← contentOf path with
      | .ok bytes => return bytes.length
      | .error _ => return 0
  let isPlain := paths.all fun path => path != ['-'] || p.call.inputStays
  let single := paths.length = 1 && (Counts.shown g .none).length = 1
  let width := if single then 1
    else if isPlain then (Bytes.ofNat (sizes.foldl (· + ·) 0)).length else 7
  let line (name : Option Bytes) (c : Counts) : Bytes :=
    let numbers := (Counts.shown g c).map fun n =>
      List.replicate (width - (Bytes.ofNat n).length) ' ' ++ Bytes.ofNat n
    Bytes.joined [' '] (numbers ++ name.toList) ++ ['\n']
  let total ← paths.foldlM (fun total path => do
    let counts ← match ← source? path with
      | some bytes => pure (some (Counts.ofBytes bytes))
      | none => pure (if p.files.isFolder (.ofText path.text) then some .none else none)
    match counts with
    | none => return total
    | some c =>
      print (line (if g.operands.isEmpty then none else some path) c)
      return total.add c) Counts.none
  if 1 < paths.length then print (line (some "total".toList) total)

/-! ## Counting up -/

/-- A decimal number: so many units of a power of ten. -/
structure Decimal where
  units : Int
  places : Nat

def Decimal.read? (text : Bytes) : Option Decimal :=
  let (negative, body) := match text with
    | '-' :: body => (true, body)
    | '+' :: body => (false, body)
    | body => (false, body)
  let (whole, rest) := Bytes.splitDigits body
  let (part, rest) := match rest with
    | '.' :: rest => Bytes.splitDigits rest
    | rest => ([], rest)
  if rest ≠ [] ∨ (whole = [] ∧ part = []) then none
  else
    let units : Int := Bytes.valueOf (whole ++ part)
    some ⟨if negative then -units else units, part.length⟩

def Decimal.unitsAt (d : Decimal) (places : Nat) : Int := d.units * Nat.pow 10 (places - d.places)

def decimalText (units : Int) (places width : Nat) : Bytes :=
  let digits := Bytes.ofNat units.natAbs
  let digits := List.replicate (places + 1 - digits.length) '0' ++ digits
  let whole := digits.take (digits.length - places)
  let body := if places = 0 then whole else whole ++ '.' :: digits.drop (digits.length - places)
  let sign : Bytes := if units < 0 then ['-'] else []
  sign ++ List.replicate (width - (sign.length + body.length)) '0' ++ body

def numbersFrom (first step last : Int) : Nat → List Int
  | 0 => []
  | bound + 1 =>
    if (0 < step ∧ last < first) ∨ (step < 0 ∧ first < last) then []
    else first :: numbersFrom (first + step) step last bound

def numberBound : Nat := 200000

/-- The argument is a number below zero, and no option. -/
def isNegativeNumber (arg : Bytes) : Bool :=
  match arg with
  | '-' :: c :: _ => c.isDigit || c == '.'
  | _ => false

/-- Marks the end of the options where a number below zero stands behind them.  `isValue` tells that
the next argument is the value of an option. -/
def markNumbers (isValue : Bool) : List Bytes → List Bytes
  | [] => []
  | arg :: args =>
    if isValue then arg :: markNumbers false args
    else if isNegativeNumber arg then ['-', '-'] :: arg :: args
    else if arg = ['-', '-'] ∨ arg.head? ≠ some '-' then arg :: args
    else arg :: markNumbers (arg = ['-', 's'] ∨ arg = ['-', 'f']) args

/-- Counts up from a first number to a last one. -/
def seq : Job Unit := do
  modify fun p => { p with call := { p.call with args := markNumbers false p.call.args } }
  let g ← given
    ⟨[valued 's' ["separator"], letter 'w' ["equal-width"], valued 'f' ["format"]], false, 1⟩
  let numbers ← g.operands.mapM fun text => do
    match Decimal.read? text with
    | some d => return d
    | none => refuse ("invalid floating point argument: ".toList ++ quoted text)
  let one : Decimal := ⟨1, 0⟩
  let range ←
    match numbers with
    | [] => refuse "missing operand".toList
    | [last] => pure (one, one, last)
    | [first, last] => pure (first, one, last)
    | [first, step, last] => pure (first, step, last)
    | _ => refuse ("extra operand ".toList ++ quoted ((g.operands[3]?).getD []))
  let (first, step, last) := range
  if step.units = 0 then
    refuse ("invalid Zero increment value: ".toList ++ quoted ((g.operands[1]?).getD []))
  let places := max first.places step.places
  let scale := max places last.places
  let values :=
    numbersFrom (first.unitsAt scale) (step.unitsAt scale) (last.unitsAt scale) numberBound
  let text (units : Int) : Bytes := decimalText (units / Nat.pow 10 (scale - places)) places 0
  let width := if g.has 'w' then
      max (text (first.unitsAt scale)).length (text ((values.getLast?).getD 0)).length
    else 0
  let lines := values.map fun units =>
    match g.last? 'f' with
    | some text => (format .program text [decimalText units scale 0]).bytes
    | none => decimalText (units / Nat.pow 10 (scale - places)) places width
  let separator := (g.last? 's').getD ['\n']
  if !lines.isEmpty then print (Bytes.joined separator lines ++ ['\n'])

end PlanConstraints.Tool

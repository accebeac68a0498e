import PlanConstraints.Program.Bytes
import PlanConstraints.Program.Tool.Escape
import PlanConstraints.Program.Tool.Job

set_option autoImplicit false

/-!
# Tools: characters and columns

Characters are replaced or taken out, columns of lines are picked, and lines are put side by side.
-/

namespace PlanConstraints.Tool

/-! ## Lists of characters -/

def allChars : List Char := (List.range 256).map Char.ofNat

/-- An item of a list of characters. -/
inductive Item where
  | chars (cs : List Char)
  /-- A character again and again, as often as is needed if no number is given. -/
  | again (c : Char) (count : Option Nat)

/-- A character of a list with its escape, and what stands behind it. -/
def itemChar : Bytes → Char × Bytes
  | '\\' :: c :: cs =>
    match (readDigits octal? 8 0 3 (c :: cs), simpleEscape? c) with
    | ((0, _), some control) => if c = 'e' then (c, cs) else (control, cs)
    | ((0, _), none) => (c, cs)
    | ((count, value), _) => (Char.ofNat (value % 256), (c :: cs).drop count)
  | c :: cs => (c, cs)
  | [] => ('\x00', [])

/-- The name in front of a sign and a bracket, and what stands behind these. -/
def splitNamed? (sign : Char) (cs : Bytes) : Option (Bytes × Bytes) := Bytes.splitAt? [sign, ']'] cs

/-- A character in brackets that is repeated, and what stands behind it. -/
def repeated? (cs : Bytes) : Option (Item × Bytes) :=
  let (c, rest) := itemChar cs
  match rest with
  | '*' :: rest =>
    let (digits, rest) := Bytes.splitDigits rest
    match rest with
    | ']' :: rest =>
      let count := if digits.head? = some '0' then
          (readDigits octal? 8 0 digits.length digits).2
        else Bytes.valueOf digits
      some (.again c (if count = 0 then none else some count), rest)
    | _ => none
  | _ => none

def readItems : Nat → Bytes → Job (List Item)
  | 0, _ | _, [] => return []
  | bound + 1, '[' :: ':' :: cs => do
    match splitNamed? ':' cs with
    | some (name, rest) =>
      let text := String.ofList name
      if isClassName text then
        return .chars (allChars.filter fun c => (inClass? text c).getD false)
          :: (← readItems bound rest)
      else fail ("invalid character class ".toList ++ quoted name)
    | none => return .chars ['['] :: (← readItems bound (':' :: cs))
  | bound + 1, cs => do
    let plain : Job (List Item) := do
      let (c, rest) := itemChar cs
      match rest with
      | '-' :: d :: more =>
        let (last, rest) := itemChar (d :: more)
        if last < c then
          fail ("range-endpoints of '".toList ++ cs.take (cs.length - rest.length)
            ++ "' are in reverse collating sequence order".toList)
        else return .chars (allChars.filter fun x => c ≤ x && x ≤ last) :: (← readItems bound rest)
      | rest => return .chars [c] :: (← readItems bound rest)
    match cs with
    | '[' :: '=' :: c :: '=' :: ']' :: rest => return .chars [c] :: (← readItems bound rest)
    | '[' :: inside =>
      match repeated? inside with
      | some (item, rest) => return item :: (← readItems bound rest)
      | none => plain
    | _ => plain

/-- The characters of items; those that are repeated as often as needed make so many of them. -/
def charsOf (length : Nat) (items : List Item) : List Char :=
  let fixed : Nat := (items.map fun
    | .chars cs => cs.length
    | .again _ count => count.getD 0).foldl (· + ·) 0
  items.flatMap fun
    | .chars cs => cs
    | .again c (some n) => List.replicate n c
    | .again c none => List.replicate (length - fixed) c

/-- Bytes without those that repeat the one before them and are listed. -/
def squeezed (listed : Char → Bool) : Option Char → Bytes → Bytes
  | _, [] => []
  | last, c :: cs =>
    if last = some c ∧ listed c then squeezed listed last cs else c :: squeezed listed (some c) cs

/-- Replaces characters of the input, or takes them out. -/
def tr : Job Unit := do
  let g ← given ⟨[letter 'c' ["complement"], letter 'C', letter 'd' ["delete"],
    letter 's' ["squeeze-repeats"], letter 't' ["truncate-set1"]], false, 1⟩
  let deletes := g.has 'd'
  let squeezes := g.has 's'
  let hint (text : String) : Job Unit := warn (text.toList ++ ['\n'])
  let more : Job Unit := do
    warn ("Try '".toList ++ (← get).call.name ++ " --help' for more information.\n".toList)
    stop 1
  let needed := if deletes == squeezes then 2 else 1
  let allowed := if deletes && !squeezes then 1 else 2
  match g.operands with
  | [] => refuse "missing operand".toList
  | operands =>
    if operands.length < needed then
      complain ("missing operand after ".toList ++ quoted (operands.getLastD []))
      hint (if squeezes then
          "Two strings must be given when both deleting and squeezing repeats."
        else "Two strings must be given when translating.")
      more
    if allowed < operands.length then
      complain ("extra operand ".toList ++ quoted ((operands[allowed]?).getD []))
      if allowed = 1 ∧ operands.length = 2 then
        hint "Only one string may be given when deleting without squeezing repeats."
      more
    let first := operands.headD []
    let set1 := charsOf 0 (← readItems (first.length + 1) first)
    let set1 := if g.has 'c' || g.has 'C' then allChars.filter fun c => !set1.contains c else set1
    let input ← takeInput
    match operands.tail.head? with
    | none =>
      if deletes then print (input.filter fun c => !set1.contains c)
      else print (squeezed set1.contains none input)
    | some second =>
      let set2 := charsOf set1.length (← readItems (second.length + 1) second)
      if deletes then
        print (squeezed set2.contains none (input.filter fun c => !set1.contains c))
      else if set2.isEmpty && !g.has 't' then
        fail "when not truncating set1, string2 must be non-empty".toList
      else
        let padded := set2 ++ List.replicate (set1.length - set2.length) (set2.getLastD '\x00')
        let pairs := (set1.zip (if g.has 't' then set2 else padded)).reverse
        let out := input.map fun c => (pairs.lookup c).getD c
        print (if squeezes then squeezed set2.contains none out else out)

/-! ## Columns -/

def readRanges (fields : Bool) (text : Bytes) : Job (List (Nat × Option Nat)) := do
  let isSeparator (c : Char) : Bool := c == ',' || c == ' ' || c == '\t'
  let pieces := (Text.split ',' (text.map fun c => if isSeparator c then ',' else c))
  pieces.mapM fun piece => do
    let (first, rest) := Bytes.splitDigits piece
    let number (digits : Bytes) : Job Nat := do
      let n := Bytes.valueOf digits
      if n = 0 then
        refuse (if fields then "fields are numbered from 1"
          else "byte/character positions are numbered from 1").toList
      else return n
    match first, rest with
    | [], ['-'] => refuse ("invalid range with no endpoint: -".toList)
    | [], [] =>
      let n ← number []
      return (n, some n)
    | first, [] => do
      let n ← number first
      return (n, some n)
    | first, '-' :: last =>
      let low ← if first = [] then pure 1 else number first
      match last with
      | [] => return (low, none)
      | last =>
        match Bytes.natural? last with
        | some high =>
          if high < low then refuse "invalid decreasing range".toList else return (low, some high)
        | none => refuse ("invalid field value ".toList ++ quoted piece)
    | _, _ =>
      refuse ((if fields then "invalid field value " else "invalid byte/character position ").toList
        ++ quoted piece)

def inRanges (ranges : List (Nat × Option Nat)) (n : Nat) : Bool :=
  ranges.any fun (low, high) => low ≤ n && high.all fun h => n ≤ h

/-- Prints the bytes or fields of lines that are asked for. -/
def cut : Job Unit := do
  let g ← given ⟨[valued 'b' ["bytes"], valued 'c' ["characters"], valued 'f' ["fields"],
    valued 'd' ["delimiter"], letter 's' ["only-delimited"], letter 'n', letter 'x' ["complement"],
    valued 'o' ["output-delimiter"], letter 'z' ["zero-terminated"]], true, 1⟩
  let lists := g.options.filter fun o => o.1 == 'b' || o.1 == 'c' || o.1 == 'f'
  match lists with
  | [] => refuse "you must specify a list of bytes, characters, or fields".toList
  | [(key, text)] =>
    let fields := key == 'f'
    let delimiter ←
      match g.last? 'd' with
      | none => pure '\t'
      | some [c] => pure c
      | some [] => pure '\x00'
      | some _ => refuse "the delimiter must be a single character".toList
    if !fields && (g.last? 'd').isSome then
      refuse "an input delimiter may be specified only when operating on fields".toList
    if !fields && g.has 's' then
      refuse ("suppressing non-delimited lines makes sense\n\tonly when operating on fields").toList
    let ranges ← readRanges fields text
    let wanted (i : Nat) : Bool := inRanges ranges (i + 1) != g.has 'x'
    let ending := if g.has 'z' then '\x00' else '\n'
    let part (line : Bytes) : Option Bytes :=
      if fields then
        if !line.contains delimiter then if g.has 's' then none else some line
        else
          let kept := (Text.split delimiter line).zipIdx.filter fun p => wanted p.2
          some (Bytes.joined ((g.last? 'o').getD [delimiter]) (kept.map (·.1)))
      else
        match g.last? 'o' with
        | none => some ((line.zipIdx.filter fun p => wanted p.2).map (·.1))
        | some between =>
          let runs := ranges.map fun (low, high) =>
            (line.drop (low - 1)).take (high.elim line.length fun h => h + 1 - low)
          some (Bytes.joined between (runs.filter (· != [])))
    for path in pathsOf g.operands do
      match ← source? path with
      | none => pure ()
      | some bytes =>
        let pieces := Text.split ending bytes
        let lines := if pieces.getLast? = some [] then pieces.dropLast else pieces
        print ((lines.filterMap part).flatMap (· ++ [ending]))
  | _ => refuse "only one list may be specified".toList

/-! ## Lines side by side -/

def separatorList : Bytes → List Bytes
  | '\\' :: c :: cs =>
    let one : Bytes := match c with
      | 'n' => ['\n']
      | 't' => ['\t']
      | '0' => []
      | '\\' => ['\\']
      | c => [c]
    one :: separatorList cs
  | c :: cs => [c] :: separatorList cs
  | [] => []

def joinedInTurn (separators : List Bytes) (turn : Nat) : List Bytes → Bytes
  | [] => []
  | [b] => b
  | b :: bs =>
    b ++ (separators[turn % separators.length]?).getD [] ++ joinedInTurn separators (turn + 1) bs

def rowsOf : Nat → List (List Bytes) → List (List Bytes)
  | 0, _ => []
  | bound + 1, columns =>
    if columns.all List.isEmpty then []
    else columns.map (·.headD []) :: rowsOf bound (columns.map List.tail)

/-- The columns that paths name, where the lines of the input are dealt out to all hyphens. -/
def dealLines (hyphens : Nat) (lines : List Bytes) (place : Nat) : List Bytes :=
  (lines.zipIdx.filter fun l => l.2 % hyphens == place).map (·.1)

/-- Prints lines of files side by side. -/
def paste : Job Unit := do
  let g ← given ⟨[valued 'd' ["delimiters"], letter 's' ["serial"], letter 'z' ["zero-terminated"]],
    true, 1⟩
  let separators := match separatorList ((g.last? 'd').getD ['\t']) with
    | [] => [[]]
    | list => list
  let paths := pathsOf g.operands
  let hyphens := paths.count ['-']
  let input ← if hyphens = 0 then pure [] else Bytes.lines <$> takeInput
  let folded ← paths.foldlM (fun ((columns, seen) : List (List Bytes) × Nat) path => do
    if path = ['-'] then
      let column := if g.has 's' then if seen = 0 then input else []
        else dealLines hyphens input seen
      return (columns ++ [column], seen + 1)
    else
      match ← source? path with
      | some bytes => return (columns ++ [Bytes.lines bytes], seen)
      | none => if g.has 's' then return (columns, seen) else stop 1) ([], 0)
  let columns := folded.1
  let rows := if g.has 's' then columns
    else rowsOf (columns.flatten.length + 1) columns
  print (rows.flatMap fun row => joinedInTurn separators 0 row ++ ['\n'])

def foldLine (spaces : Bool) (width : Nat) : Nat → Bytes → List Bytes
  | 0, line => [line]
  | bound + 1, line =>
    if line.length ≤ width then [line]
    else
      let head := line.take width
      let kept := (head.reverse.dropWhile fun c => c != ' ').length
      let length := if spaces && 0 < kept then kept else width
      line.take length :: foldLine spaces width bound (line.drop length)

/-- Prints files with lines no longer than a width. -/
def fold : Job Unit := do
  let g ← given ⟨[letter 'b' ["bytes"], letter 's' ["spaces"], valued 'w' ["width"]], true, 1⟩
  let text := (g.last? 'w').getD "80".toList
  match Bytes.natural? text with
  | some (width + 1) =>
    eachSource g.operands () fun _ bytes => do
      let (lines, ended) := Bytes.linesFrom [] bytes
      let folded := lines.map fun line =>
        Bytes.joined ['\n'] (foldLine (g.has 's') (width + 1) line.length line)
      let text := Bytes.joined ['\n'] folded
      print (if ended && !lines.isEmpty then text ++ ['\n'] else text)
  | _ => fail ("invalid number of columns: ".toList ++ quoted text)

end PlanConstraints.Tool

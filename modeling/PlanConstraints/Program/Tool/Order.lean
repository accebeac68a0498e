import PlanConstraints.Program.Tool.Floating
import PlanConstraints.Program.Tool.Show

set_option autoImplicit false

/-!
# Tools: order

Lines are put in order by keys, which are parts of them, and lines that are alike are put together.
-/

namespace PlanConstraints.Tool

/-! ## Numbers in lines -/

/-- The number at the start of a text: its digits count so many units of a power of ten. -/
def leadingNumber (text : Bytes) : Int × Nat :=
  let body := text.dropWhile fun c => c == ' ' || c == '\t'
  let (negative, body) := match body with
    | '-' :: body => (true, body)
    | body => (false, body)
  let (whole, rest) := Bytes.splitDigits body
  let part := match rest with
    | '.' :: rest => (Bytes.splitDigits rest).1
    | _ => []
  let units : Int := Bytes.valueOf (whole ++ part)
  (if negative then -units else units, part.length)

/-- Compares numbers with different numbers of places. -/
def compareScaled (a b : Int × Nat) : Ordering :=
  compare (a.1 * Nat.pow 10 (b.2 - a.2)) (b.1 * Nat.pow 10 (a.2 - b.2))

/-- The place of a text among numbers that may be written with exponents: those that are none come
first, then what has no value, and then numbers in their order. -/
def generalRank (text : Bytes) : Nat × Int × Int :=
  match BinaryFormat.extended.read? text with
  | none => (0, 0, 0)
  | some r =>
    match r.value with
    | .notANumber _ => (1, 0, 0)
    | .infinite negative => (if negative then 2 else 4, 0, 0)
    | .finite negative mantissa exponent =>
      (3, if negative then -(mantissa : Int) else mantissa, if mantissa = 0 then 0 else exponent)

/-- Compares texts as numbers that may be written with exponents. -/
def compareGeneral (a b : Bytes) : Ordering :=
  let (kindA, mantissaA, exponentA) := generalRank a
  let (kindB, mantissaB, exponentB) := generalRank b
  (compare kindA kindB).then
    (compare (mantissaA * Nat.pow 2 (exponentA - exponentB).toNat)
      (mantissaB * Nat.pow 2 (exponentB - exponentA).toNat))

/-- The size that a letter behind a number stands for. -/
def sizeRank (text : Bytes) : Nat :=
  let body := (text.dropWhile fun c => c == ' ' || c == '\t' || c == '-').dropWhile fun c =>
    c.isDigit || c == '.'
  match body.head? with
  | some 'K' | some 'k' => 1
  | some 'M' => 2
  | some 'G' => 3
  | some 'T' => 4
  | some 'P' => 5
  | some 'E' => 6
  | _ => 0

def monthOf (text : Bytes) : Nat :=
  let name :=
    String.ofList (((text.dropWhile fun c => c == ' ' || c == '\t').take 3).map Char.toUpper)
  (["JAN", "FEB", "MAR", "APR", "MAY", "JUN", "JUL", "AUG", "SEP", "OCT", "NOV", "DEC"].findIdx?
    (· == name)).elim 0 (· + 1)

/-- Where a character stands in names with numbers: letters come before other signs. -/
def versionRank (c : Char) : Nat :=
  if c = '~' then 0 else if c.isAlpha then c.toNat + 1 else c.toNat + 257

def compareVersionWords : Bytes → Bytes → Ordering
  | [], [] => .eq
  | [], c :: _ => if c = '~' then .gt else .lt
  | c :: _, [] => if c = '~' then .lt else .gt
  | c :: cs, d :: ds =>
    if c = d then compareVersionWords cs ds else compare (versionRank c) (versionRank d)

def compareVersions : Nat → Bytes → Bytes → Ordering
  | 0, _, _ => .eq
  | _, [], [] => .eq
  | bound + 1, a, b =>
    let wordA := a.takeWhile fun c => !c.isDigit
    let wordB := b.takeWhile fun c => !c.isDigit
    let (digitsA, restA) := Bytes.splitDigits (a.drop wordA.length)
    let (digitsB, restB) := Bytes.splitDigits (b.drop wordB.length)
    (compareVersionWords wordA wordB).then
      ((compare (Bytes.valueOf digitsA) (Bytes.valueOf digitsB)).then
        (compareVersions bound restA restB))

def compareBytes (a b : Bytes) : Ordering :=
  if Bytes.isBefore a b then .lt else if Bytes.isBefore b a then .gt else .eq

/-! ## Keys -/

/-- An end of a key: a field and a place in it. -/
structure KeyEnd where
  field : Nat
  place : Nat
  skipsBlanks : Bool

/-- A part of lines, and how it is compared. -/
structure Key where
  first : KeyEnd
  last : Option KeyEnd
  letters : List Char

/-- The lengths of a line up to the start and the end of a field, counted from zero. -/
def fieldBounds (separator : Option Char) (line : Bytes) (field : Nat) : Nat × Nat :=
  match separator with
  | some c =>
    let pieces := Text.split c line
    let before := (pieces.take field).foldl (fun n p => n + p.length + 1) 0
    (min before line.length, min (before + ((pieces[field]?).getD []).length) line.length)
  | none =>
    let isBlank (c : Char) : Bool := c == ' ' || c == '\t' || c == '\n'
    let rec go (n : Nat) (passed : Nat) (rest : Bytes) : Nat × Nat :=
      let blanks := (rest.takeWhile isBlank).length
      let word := ((rest.drop blanks).takeWhile fun c => !isBlank c).length
      match n with
      | 0 => (passed, passed + blanks + word)
      | n + 1 => go n (passed + blanks + word) (rest.drop (blanks + word))
    go field 0 line

def Key.part (separator : Option Char) (line : Bytes) (k : Key) : Bytes :=
  let blanksAt (place : Nat) : Nat :=
    ((line.drop place).takeWhile fun c => c == ' ' || c == '\t').length
  let (start, _) := fieldBounds separator line (k.first.field - 1)
  let start := if k.first.skipsBlanks then start + blanksAt start else start
  let start := min (start + (k.first.place - 1)) line.length
  let finish := match k.last with
    | none => line.length
    | some e =>
      let (fieldStart, fieldEnd) := fieldBounds separator line (e.field - 1)
      if e.place = 0 then fieldEnd
      else
        let fieldStart := if e.skipsBlanks then fieldStart + blanksAt fieldStart else fieldStart
        min (fieldStart + e.place) line.length
  (line.drop start).take (finish - start)

def comparedText (letters : List Char) (text : Bytes) : Bytes :=
  let text := if letters.contains 'd' then
      text.filter fun c => c.isAlphanum || c == ' ' || c == '\t'
    else text
  let text := if letters.contains 'i' then text.filter isPrintable else text
  if letters.contains 'f' then text.map Char.toUpper else text

def compareTexts (letters : List Char) (a b : Bytes) : Ordering :=
  let o :=
    if letters.contains 'g' then compareGeneral a b
    else if letters.contains 'n' then
      compareScaled (leadingNumber a) (leadingNumber b)
    else if letters.contains 'h' then
      let sign (text : Bytes) : Int := if (leadingNumber text).1 < 0 then -1 else 1
      (compare (sign a * (sizeRank a : Int)) (sign b * (sizeRank b : Int))).then
        (compareScaled (leadingNumber a) (leadingNumber b))
    else if letters.contains 'M' then compare (monthOf a) (monthOf b)
    else if letters.contains 'V' then compareVersions (a.length + b.length + 1) a b
    else compareBytes (comparedText letters a) (comparedText letters b)
  if letters.contains 'r' then o.swap else o

def orderLetters : List Char := ['b', 'd', 'f', 'g', 'h', 'i', 'M', 'n', 'r', 'V']

def readKeyEnd (text : Bytes) : Option ((Nat × Nat × Bool) × List Char × Bytes) :=
  let (field, rest) := Bytes.splitDigits text
  let (place, hasPlace, rest) := match rest with
    | '.' :: rest =>
      let (digits, rest) := Bytes.splitDigits rest
      (Bytes.valueOf digits, true, rest)
    | rest => (0, false, rest)
  let letters := rest.takeWhile orderLetters.contains
  if field = [] then none
  else some ((Bytes.valueOf field, place, hasPlace), letters, rest.drop letters.length)

def readKey (all : List Char) (text : Bytes) : Job Key := do
  let bad {α : Type} (reason : String) : Job α :=
    fail (reason.toList ++ ' ' :: quoted text) 2
  match readKeyEnd text with
  | none => bad "invalid number at field start: invalid count at start of"
  | some ((field, place, hasPlace), letters, rest) =>
    if field = 0 then
      bad "field number is zero: invalid field specification"
    let start := if hasPlace then place else 1
    match rest with
    | [] =>
      let used := if letters.isEmpty then all else letters
      return ⟨⟨field, start, used.contains 'b'⟩, none, used⟩
    | ',' :: rest =>
      match readKeyEnd rest with
      | some ((lastField, lastPlace, _), more, []) =>
        let own := letters ++ more
        let used := if own.isEmpty then all else own
        let ofEnd (own : List Char) : Bool :=
          if letters.isEmpty && more.isEmpty then all.contains 'b' else own.contains 'b'
        return ⟨⟨field, start, ofEnd letters⟩, some ⟨lastField, lastPlace, ofEnd more⟩, used⟩
      | _ => bad "stray character in field spec: invalid field specification"
    | _ => bad "stray character in field spec: invalid field specification"

def compareByKeys (separator : Option Char) (all : List Char) (keys : List Key) (a b : Bytes) :
    Ordering :=
  match keys with
  | [] =>
    let blank (text : Bytes) : Bytes :=
      if all.contains 'b' then text.dropWhile fun c => c == ' ' || c == '\t' else text
    compareTexts all (blank a) (blank b)
  | keys =>
    keys.foldl (fun o k =>
      o.then (compareTexts k.letters (k.part separator a) (k.part separator b))) .eq

/-- The first line that does not come behind the one before it, with its number. -/
def firstDisorder (strict : Bool) (order : Bytes → Bytes → Ordering) (number : Nat) :
    List Bytes → Option (Nat × Bytes)
  | a :: b :: more =>
    let o := order a b
    if o = .gt ∨ (strict ∧ o = .eq) then some (number + 1, b)
    else firstDisorder strict order (number + 1) (b :: more)
  | _ => none

/-- Lines without those that are like the one before them. -/
def withoutRepeats (same : Bytes → Bytes → Bool) : List Bytes → List Bytes
  | a :: b :: more =>
    if same a b then withoutRepeats same (a :: more) else a :: withoutRepeats same (b :: more)
  | lines => lines
termination_by lines => lines.length

def sort : Job Unit := do
  let g ← given ⟨[letter 'b' ["ignore-leading-blanks"], letter 'd' ["dictionary-order"],
    letter 'f' ["ignore-case"], letter 'g' ["general-numeric-sort"],
    letter 'h' ["human-numeric-sort"],
    letter 'i' ["ignore-nonprinting"], letter 'M' ["month-sort"], letter 'n' ["numeric-sort"],
    letter 'r' ["reverse"], letter 'V' ["version-sort"], letter 'c' ["check"], letter 'C',
    letter 'm' ["merge"], valued 'k' ["key"], valued 'o' ["output"], letter 's' ["stable"],
    valued 't' ["field-separator"], letter 'u' ["unique"], letter 'z' ["zero-terminated"],
    valued 'S' ["buffer-size"], valued 'T' ["temporary-directory"]], true, 2⟩
  let all := orderLetters.filter g.has
  let separator ←
    match g.last? 't' with
    | none => pure none
    | some [c] => pure (some c)
    | some ['\\', '0'] => pure (some '\x00')
    | some [] => fail "empty tab".toList 2
    | some text => fail ("multi-character tab ".toList ++ quoted text) 2
  let keys ← (g.options.filter fun o => o.1 == 'k').mapM fun o => readKey all o.2
  let ending := if g.has 'z' then '\x00' else '\n'
  let paths := pathsOf g.operands
  let texts ← paths.mapM fun path => do
    match ← sourceOr path (fun name => "cannot read: ".toList ++ fileName name)
        (fun name => "read failed: ".toList ++ fileName name) with
    | some bytes => return bytes
    | none => stop 2
  let parts := texts.map fun text =>
    let pieces := Text.split ending text
    if pieces.getLast? = some [] then pieces.dropLast else pieces
  let lines := parts.flatten
  let byKeys := compareByKeys separator all keys
  let order (a b : Bytes) : Ordering :=
    let o := byKeys a b
    if g.has 's' || g.has 'u' then o
    else o.then (if all.contains 'r' then (compareBytes a b).swap else compareBytes a b)
  if g.has 'c' || g.has 'C' then
    match firstDisorder (g.has 'u') order 1 lines with
    | none => pure ()
    | some (number, line) =>
      if g.has 'c' then
        let name := paths.headD ['-']
        complain (name ++ ':' :: Bytes.ofNat number ++ ": disorder: ".toList ++ line)
      note 1
  else
    let comes (a b : Bytes) : Bool := order a b != .gt
    let sorted := if g.has 'm' then parts.foldl (fun a b => List.merge a b comes) []
      else lines.mergeSort comes
    let sorted := if g.has 'u' then withoutRepeats (fun a b => byKeys a b == .eq) sorted else sorted
    let bytes := sorted.flatMap (· ++ [ending])
    match g.last? 'o' with
    | none => print bytes
    | some path =>
      match ← writeFile path bytes false with
      | .ok () => pure ()
      | .error e => fail ("open failed: ".toList ++ fileName path ++ ": ".toList ++ reasonOf e) 2

/-! ## Lines that are alike -/

def comparedPart (fields chars : Nat) (width : Option Nat) (line : Bytes) : Bytes :=
  let isBlank (c : Char) : Bool := c == ' ' || c == '\t'
  let rec skip : Nat → Bytes → Bytes
    | 0, rest => rest
    | n + 1, rest => skip n ((rest.dropWhile isBlank).dropWhile fun c => !isBlank c)
  let part := (skip fields line).drop chars
  match width with
  | some w => part.take w
  | none => part

/-- Lines in groups of those that are alike and follow each other. -/
def groupLines (same : Bytes → Bytes → Bool) : List Bytes → List (List Bytes)
  | [] => []
  | line :: more =>
    match groupLines same more with
    | (next :: rest) :: groups =>
      if same line next then (line :: next :: rest) :: groups
        else [line] :: (next :: rest) :: groups
    | groups => [line] :: groups

def countValue (g : Given) (key : Char) (what : String) : Job (Option Nat) := do
  match g.last? key with
  | none => return none
  | some text =>
    match Bytes.natural? text with
    | some n => return some n
    | none => fail (text ++ ": invalid number of ".toList ++ what.toList)

/-- Prints the lines of a file, each once where several are alike. -/
def uniq : Job Unit := do
  let g ← given ⟨[letter 'c' ["count"], letter 'd' ["repeated"], letter 'D', letter 'u' ["unique"],
    letter 'i' ["ignore-case"], valued 'f' ["skip-fields"], valued 's' ["skip-chars"],
    valued 'w' ["check-chars"], letter 'z' ["zero-terminated"]], true, 1⟩
  let fields := (← countValue g 'f' "fields to skip").getD 0
  let chars := (← countValue g 's' "bytes to skip").getD 0
  let width ← countValue g 'w' "bytes to compare"
  let ending := if g.has 'z' then '\x00' else '\n'
  let key (line : Bytes) : Bytes :=
    let part := comparedPart fields chars width line
    if g.has 'i' then part.map Char.toLower else part
  match g.operands with
  | _ :: _ :: extra :: _ => refuse ("extra operand ".toList ++ quoted extra)
  | operands =>
    match ← source? (operands.headD ['-']) with
    | none => pure ()
    | some bytes =>
      let pieces := Text.split ending bytes
      let lines := if pieces.getLast? = some [] then pieces.dropLast else pieces
      let groups := groupLines (fun a b => key a == key b) lines
      let out := groups.flatMap fun group =>
        let count := group.length
        let front := if g.has 'c' then rightAligned 7 (Bytes.ofNat count) ++ [' '] else []
        if (g.has 'd' || g.has 'D') && count = 1 then []
        else if g.has 'u' && 1 < count then []
        else if g.has 'D' then group.flatMap (· ++ [ending])
        else front ++ group.headD [] ++ [ending]
      match operands with
      | [_, path] =>
        match ← writeFile path out false with
        | .ok () => pure ()
        | .error e => fail (fileName path ++ ": ".toList ++ reasonOf e)
      | _ => print out

/-- Prints the lines of files with numbers in front of those that are not empty. -/
def nl : Job Unit := do
  let g ← given ⟨[valued 'b' ["body-numbering"], valued 'w' ["number-width"],
    valued 's' ["number-separator"], valued 'v' ["starting-line-number"],
    valued 'i' ["line-increment"],
    valued 'n' ["number-format"]], true, 1⟩
  let all := g.last? 'b' == some ['a']
  let none := g.last? 'b' == some ['n']
  let width := ((g.last? 'w').bind Bytes.natural?).getD 6
  let separator := (g.last? 's').getD ['\t']
  let start := ((g.last? 'v').bind Bytes.natural?).getD 1
  let step := ((g.last? 'i').bind Bytes.natural?).getD 1
  let shown (n : Nat) : Bytes :=
    let digits := Bytes.ofNat n
    match (g.last? 'n').map String.ofList with
    | some "ln" => digits ++ List.replicate (width - digits.length) ' '
    | some "rz" => List.replicate (width - digits.length) '0' ++ digits
    | _ => rightAligned width digits
  eachSource g.operands start fun n bytes =>
    (Bytes.lines bytes).foldlM (fun n line => do
      if !none && (all || !line.isEmpty) then
        print (shown n ++ separator ++ line ++ ['\n'])
        return n + step
      else
        print (List.replicate (width + separator.length) ' ' ++ line ++ ['\n'])
        return n) n

end PlanConstraints.Tool

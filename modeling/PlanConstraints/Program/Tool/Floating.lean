import PlanConstraints.Program.Bytes

set_option autoImplicit false

/-!
# Tools: binary floating point numbers

Numbers with a mantissa of a fixed number of bits, as they are read from decimal or hexadecimal
digits and printed again.  All steps between are exact; what lies halfway between two results goes
to the one whose last digit is even.  A duration is such a number that is not negative, with a
letter for its unit.
-/

namespace PlanConstraints.Tool

/-- A format of binary numbers: the bits of a mantissa, the least exponent of the last bit, and the
greatest exponent of a bit. -/
structure BinaryFormat where
  bits : Nat
  least : Int
  greatest : Int

def BinaryFormat.double : BinaryFormat := ⟨53, -1074, 1023⟩

def BinaryFormat.extended : BinaryFormat := ⟨64, -16445, 16383⟩

/-- A number: a mantissa times a power of two, behind a sign. -/
inductive Floating where
  | finite (negative : Bool) (mantissa : Nat) (exponent : Int)
  | infinite (negative : Bool)
  | notANumber (negative : Bool)
  deriving DecidableEq

/-! ## Rounding -/

/-- A quotient rounded to the nearest integer, of two the even one. -/
def roundQuotient (a b : Nat) : Nat :=
  let q := a / b
  let r := a % b
  if 2 * r < b then q else if b < 2 * r then q + 1 else if q % 2 = 0 then q else q + 1

def roundScaled (a b : Nat) (power : Int) : Nat :=
  if 0 ≤ power then roundQuotient (a * Nat.pow 2 power.toNat) b
  else roundQuotient a (b * Nat.pow 2 (-power).toNat)

def BinaryFormat.nearest (f : BinaryFormat) (negative : Bool) (a b : Nat) : Floating :=
  let guess : Int := (a.log2 : Int) - (b.log2 : Int)
  let top : Int :=
    if 0 ≤ guess then if b * Nat.pow 2 guess.toNat ≤ a then guess else guess - 1
    else if b ≤ a * Nat.pow 2 (-guess).toNat then guess else guess - 1
  let exponent := max (top - (f.bits : Int) + 1) f.least
  let mantissa := roundScaled a b (-exponent)
  let (mantissa, exponent) :=
    if mantissa = Nat.pow 2 f.bits then (Nat.pow 2 (f.bits - 1), exponent + 1)
      else (mantissa, exponent)
  if f.greatest < exponent + (f.bits : Int) - 1 ∧ mantissa ≠ 0 then .infinite negative
  else .finite negative mantissa exponent

/-! ## Reading -/

/-- What was read at the start of bytes: the number, whether it is out of range, and what stands
behind it. -/
structure FloatingRead where
  value : Floating
  outOfRange : Bool
  rest : Bytes

def hexDigit? (c : Char) : Option Nat :=
  if c.isDigit then some (c.toNat - '0'.toNat)
  else if 'a' ≤ c ∧ c ≤ 'f' then some (c.toNat - 'a'.toNat + 10)
  else if 'A' ≤ c ∧ c ≤ 'F' then some (c.toNat - 'A'.toNat + 10)
  else none

/-- Digits with a point among them: their value without the point, how many there are and how many
of them stand behind the point, and the rest. -/
def readFraction (digit? : Char → Option Nat)
    (base : Nat) (pointed : Bool) (value count behind : Nat) :
    Bytes → Nat × Nat × Nat × Bytes
  | [] => (value, count, behind, [])
  | c :: cs =>
    if c = '.' ∧ !pointed then readFraction digit? base true value count behind cs
    else
      match (digit? c).filter (· < base) with
      | some d =>
        readFraction digit? base pointed (value * base + d) (count + 1)
          (if pointed then behind + 1 else behind) cs
      | none => (value, count, behind, c :: cs)

def readExponent (letter : Char) (cs : Bytes) : Int × Bytes :=
  match cs with
  | c :: more =>
    if c.toLower = letter then
      let (negative, digits) := match more with
        | '-' :: more => (true, more)
        | '+' :: more => (false, more)
        | more => (false, more)
      let (ds, rest) := Bytes.splitDigits digits
      if ds = [] then (0, cs)
      else
        let n : Int := min (Bytes.valueOf ds) 1000000
        (if negative then -n else n, rest)
    else (0, cs)
  | [] => (0, [])

/-- The letters at the start are those of a word, whatever their case. -/
def startsWith (word : String) (cs : Bytes) : Bool :=
  (cs.take word.length).map Char.toLower == word.toList

def BinaryFormat.ofDigits (f : BinaryFormat) (negative : Bool) (value count : Nat) (base : Nat)
    (power : Int) (rest : Bytes) : FloatingRead :=
  if value = 0 then ⟨.finite negative 0 0, false, rest⟩
  else if 40000 < power + (count : Int) then ⟨.infinite negative, true, rest⟩
  else if power + (count : Int) < -40000 then ⟨.finite negative 0 0, true, rest⟩
  else
    let n :=
      if 0 ≤ power then f.nearest negative (value * Nat.pow base power.toNat) 1
      else f.nearest negative value (Nat.pow base (-power).toNat)
    let outside := match n with
      | .finite _ m _ => m = 0
      | _ => true
    ⟨n, outside, rest⟩

/-- Reads a number at the start of bytes, behind blanks, if there is one. -/
def BinaryFormat.read? (f : BinaryFormat) (text : Bytes) : Option FloatingRead :=
  let (negative, body) := match text.dropWhile Bytes.isSpace with
    | '-' :: cs => (true, cs)
    | '+' :: cs => (false, cs)
    | cs => (false, cs)
  if startsWith "infinity" body then some ⟨.infinite negative, false, body.drop 8⟩
  else if startsWith "inf" body then some ⟨.infinite negative, false, body.drop 3⟩
  else if startsWith "nan" body then some ⟨.notANumber negative, false, body.drop 3⟩
  else
    let decimal : Option FloatingRead :=
      let (value, count, behind, rest) := readFraction hexDigit? 10 false 0 0 0 body
      if count = 0 then none
      else
        let (power, rest) := readExponent 'e' rest
        some (f.ofDigits negative value count 10 (power - (behind : Int)) rest)
    match body with
    | '0' :: x :: digits =>
      if x = 'x' ∨ x = 'X' then
        let (value, count, behind, rest) := readFraction hexDigit? 16 false 0 0 0 digits
        if count = 0 then some (f.ofDigits negative 0 1 10 0 (x :: digits))
        else
          let (power, rest) := readExponent 'p' rest
          some (f.ofDigits negative value (4 * count) 2 (power - 4 * (behind : Int)) rest)
      else decimal
    | _ => decimal

/-! ## Printing -/

/-- The decimal digits of a mantissa times a power of two with that many places, without the point.
-/
def scaledDigits (mantissa : Nat) (exponent places : Int) : Bytes :=
  let a := mantissa * Nat.pow 10 places.toNat
  let b := Nat.pow 10 (-places).toNat
  Bytes.ofNat (roundScaled a b exponent)

def withPoint (places : Nat) (always : Bool) (digits : Bytes) : Bytes :=
  let filled := List.replicate (places + 1 - digits.length) '0' ++ digits
  let (whole, fraction) := filled.splitAt (filled.length - places)
  if places = 0 ∧ !always then whole else whole ++ '.' :: fraction

def printFixed (mantissa : Nat) (exponent : Int) (places : Nat) (point : Bool) : Bytes :=
  withPoint places point (scaledDigits mantissa exponent places)

/-- The digits of a number in front of and behind the point, that many behind it, and the power of
ten by which they are to be multiplied. -/
def scientificDigits (mantissa : Nat) (exponent : Int) (places : Nat) : Bytes × Int :=
  if mantissa = 0 then (List.replicate (places + 1) '0', 0)
  else
    let digits : Int :=
      if 0 ≤ exponent then (Bytes.ofNat (mantissa * Nat.pow 2 exponent.toNat)).length
      else
        let whole := mantissa / Nat.pow 2 (-exponent).toNat
        if whole ≠ 0 then (Bytes.ofNat whole).length
        else
          let zeros := (Bytes.ofNat (Nat.pow 2 (-exponent).toNat / mantissa)).length
          -- The number is less than one and at least ten to the power of minus `zeros`.
          if mantissa * Nat.pow 10 zeros ≥ Nat.pow 2 (-exponent).toNat * 10 then 2 - (zeros : Int)
          else if mantissa * Nat.pow 10 zeros ≥ Nat.pow 2 (-exponent).toNat then 1 - (zeros : Int)
          else -(zeros : Int)
    let power := digits - 1
    let ds := scaledDigits mantissa exponent ((places : Int) - power)
    if ds.length = places + 2 then (ds.dropLast, power + 1) else (ds, power)

/-- The exponent of a power of ten, of two digits at least. -/
def exponentText (letter : Char) (power : Int) : Bytes :=
  let digits := Bytes.ofNat power.natAbs
  letter :: (if power < 0 then '-' else '+') :: (List.replicate (2 - digits.length) '0' ++ digits)

/-- The number with one digit in front of the point, and a power of ten. -/
def printScientific (mantissa : Nat) (exponent : Int)
    (places : Nat) (point : Bool) (letter : Char) :
    Bytes :=
  let (digits, power) := scientificDigits mantissa exponent places
  withPoint places point digits ++ exponentText letter power

/-- A text without the zeros at its end that stand behind a point, and without the point if nothing
is left behind it. -/
def dropZeros (text : Bytes) : Bytes :=
  if text.contains '.' then
    let kept := text.reverse.dropWhile (· == '0')
    (if kept.head? = some '.' then kept.tail else kept).reverse
  else text

/-- The number with that many digits, in the shorter of both forms. -/
def printShorter (mantissa : Nat) (exponent : Int)
    (precision : Nat) (point : Bool) (letter : Char) :
    Bytes :=
  let precision := max precision 1
  let (digits, power) := scientificDigits mantissa exponent (precision - 1)
  if -4 ≤ power ∧ power < precision then
    let text := printFixed mantissa exponent ((precision : Int) - 1 - power).toNat point
    if point then text else dropZeros text
  else
    let text := withPoint (precision - 1) point digits
    (if point then text else dropZeros text) ++ exponentText letter power

def hexDigits (value count : Nat) : Bytes :=
  let digits := Nat.toDigits 16 value
  List.replicate (count - digits.length) '0' ++ digits

/-- The number with hexadecimal digits, of which the first one has that many bits, and a power of
two. -/
def printHexadecimal (bits lead mantissa : Nat) (exponent : Int) (precision : Option Nat)
    (point : Bool) : Bytes :=
  if mantissa = 0 then
    let zeros := List.replicate (precision.getD 0) '0'
    "0x0".toList ++ (if zeros = [] ∧ !point then [] else '.' :: zeros) ++ "p+0".toList
  else
    let shift := bits - 1 - mantissa.log2
    let places := (bits - lead) / 4
    let value := mantissa * Nat.pow 2 shift
    let power : Int := exponent - (shift : Int) + (4 * places : Int)
    let (value, places) := match precision with
      | some n => if n < places then (roundQuotient value (Nat.pow 16 (places - n)), n)
        else (value * Nat.pow 16 (n - places), n)
      | none => (value, places)
    let (value, power) :=
      if Nat.pow 2 lead ≤ value / Nat.pow 16 places then (value / Nat.pow 2 lead, power + lead)
      else (value, power)
    let fraction := hexDigits (value % Nat.pow 16 places) places
    let fraction := if precision.isSome then fraction
      else (fraction.reverse.dropWhile (· == '0')).reverse
    "0x".toList ++ Nat.toDigits 16 (value / Nat.pow 16 places)
      ++ (if fraction = [] ∨ places = 0 then if point then ['.'] else [] else '.' :: fraction)
      ++ 'p' :: (if power < 0 then '-' else '+') :: Bytes.ofNat power.natAbs

/-! ## Durations -/

def unitOf? : Char → Option Nat
  | 's' => some 1
  | 'm' => some 60
  | 'h' => some 3600
  | 'd' => some 86400
  | _ => none

def endless : Nat := Nat.pow 10 24

def duration? (text : Bytes) : Option Nat :=
  let unit? := text.getLast?.bind unitOf?
  let body := if unit?.isSome then text.dropLast else text
  let unit := unit?.getD 1 * 1000000
  match BinaryFormat.extended.read? body with
  | some ⟨value, _, []⟩ =>
    match value with
    | .finite true 0 _ => some 0
    | .finite false mantissa exponent =>
      some (if 0 ≤ exponent then min endless (mantissa * Nat.pow 2 (min exponent.toNat 100) * unit)
        else (mantissa * unit + Nat.pow 2 (-exponent).toNat / 2) / Nat.pow 2 (-exponent).toNat)
    | .infinite false => some endless
    | _ => none
  | _ => none

end PlanConstraints.Tool

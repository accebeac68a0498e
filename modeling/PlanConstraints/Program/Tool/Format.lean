import PlanConstraints.Program.Tool.Escape
import PlanConstraints.Program.Tool.Job

set_option autoImplicit false

/-!
# Tools: printing arguments

Arguments are printed in a format, or as they are with spaces between them.  A format is a text with
escapes and conversions.  A conversion starts with a percent sign, takes an argument and says how
that is printed.  The format is used again as long as arguments are left.
-/

namespace PlanConstraints.Tool

/-! ## Numbers -/

/-- What is wrong with an argument or a conversion. -/
inductive FormatFault where
  /-- An argument does not start with a number. -/
  | notNumeric (arg : Bytes)
  /-- Something stands behind the number of an argument. -/
  | partlyNumeric (arg : Bytes)
  /-- The number of an argument is too large. -/
  | outOfRange (arg : Bytes)
  /-- Something stands behind a character that is taken for a number. -/
  | behindCharacter (ignored : Bytes)
  | badWidth (arg : Bytes)
  | badPrecision (arg : Bytes)
  /-- Nothing is known by that name. -/
  | unknown (conversion : Bytes)
  /-- The format ends within a conversion. -/
  | incomplete (conversion : Bytes)
  /-- Digits of an escape are missing. -/
  | noDigits
  deriving DecidableEq

/-- The integer that an argument stands for, as far as it is one, and what is wrong with it.  A
number behind a zero is octal, one behind a zero and an `x` hexadecimal; a character behind a
quotation mark stands for its number. -/
def integerOf (arg : Bytes) : Int × Option FormatFault :=
  let body := arg.dropWhile Bytes.isSpace
  let (negative, digits) := match body with
    | '-' :: cs => (true, cs)
    | '+' :: cs => (false, cs)
    | cs => (false, cs)
  let (count, value) := match digits with
    | '0' :: x :: cs =>
      let (count, value) := readDigits hexDigit? 16 0 cs.length cs
      if (x = 'x' ∨ x = 'X') ∧ 0 < count then (count + 2, value)
      else readDigits octal? 8 0 digits.length digits
    | cs => readDigits (fun c => (hexDigit? c).filter (· < 10)) 10 0 cs.length cs
  match arg with
  | '"' :: c :: cs | '\'' :: c :: cs =>
    (c.toNat, if cs = [] then none else some (.behindCharacter cs))
  | _ =>
    let signed : Int := if negative then -(value : Int) else value
    if arg = [] then (0, none)
    else if count = 0 then (0, some (.notNumeric arg))
    else if count < digits.length then (signed, some (.partlyNumeric arg))
    else (signed, none)

/-- The integer that an argument stands for under the letter of a conversion: one of 64 bits, with a
sign or without. -/
def boundedInteger (letter : Char) (arg : Bytes) : Int × Option FormatFault :=
  let (value, fault) := integerOf arg
  let (least, greatest) : Int × Int :=
    if letter = 'd' ∨ letter = 'i' then (Int64.minValue.toInt, Int64.maxValue.toInt)
    else (-(UInt64.size - 1 : Int), (UInt64.size - 1 : Int))
  if value < least then
    (if letter = 'd' ∨ letter = 'i' then least else greatest, some (.outOfRange arg))
  else if greatest < value then (greatest, some (.outOfRange arg))
  else (value, fault)

/-- The number that an argument stands for, as far as it is one, and what is wrong with it. -/
def floatingOf (f : BinaryFormat) (arg : Bytes) : Floating × Option FormatFault :=
  match arg with
  | '"' :: c :: cs | '\'' :: c :: cs =>
    (.finite false c.toNat 0, if cs = [] then none else some (.behindCharacter cs))
  | [] => (.finite false 0 0, none)
  | arg =>
    match f.read? arg with
    | none => (.finite false 0 0, some (.notNumeric arg))
    | some r =>
      (r.value, if r.outOfRange then some (.outOfRange arg)
        else if r.rest ≠ [] then some (.partlyNumeric arg) else none)

/-! ## Conversions -/

/-- What stands between a percent sign and the letter of a conversion. -/
structure Directive where
  flags : List Char
  width : Nat
  precision : Option Nat

def Directive.has (d : Directive) (flag : Char) : Bool := d.flags.contains flag

def Directive.pad (d : Directive) (bytes : Bytes) : Bytes :=
  let fill := List.replicate (d.width - bytes.length) ' '
  if d.has '-' then bytes ++ fill else fill ++ bytes

/-- Signs and digits, with zeros between them up to the width if that is asked for. -/
def Directive.printNumber (d : Directive) (zeros : Bool) (signs digits : Bytes) : Bytes :=
  let fill := if d.has '0' ∧ !d.has '-' ∧ zeros then
      List.replicate (d.width - (signs.length + digits.length)) '0'
    else []
  d.pad (signs ++ fill ++ digits)

/-- The digits of a number, at least as many as the precision asks for. -/
def Directive.digits (d : Directive) (base value : Nat) : Bytes :=
  let digits := if value = 0 ∧ d.precision = some 0 then [] else Nat.toDigits base value
  List.replicate (d.precision.getD 0 - digits.length) '0' ++ digits

/-- What stands in front of the digits of a number with a sign. -/
def Directive.signs (d : Directive) (negative : Bool) : Bytes :=
  if negative then ['-'] else if d.has '+' then ['+'] else if d.has ' ' then [' '] else []

def Directive.printInteger (d : Directive) (letter : Char) (value : Int) : Bytes :=
  let zeros := d.precision.isNone
  let word : Nat := (value % (UInt64.size : Int)).toNat
  match letter with
  | 'u' => d.printNumber zeros [] (d.digits 10 word)
  | 'o' =>
    let digits := d.digits 8 word
    d.printNumber zeros []
      (if d.has '#' ∧ digits.head? ≠ some '0' then '0' :: digits else digits)
  | 'x' =>
    d.printNumber zeros (if d.has '#' ∧ word ≠ 0 then ['0', 'x'] else []) (d.digits 16 word)
  | 'X' =>
    d.printNumber zeros (if d.has '#' ∧ word ≠ 0 then ['0', 'X'] else [])
      ((d.digits 16 word).map Char.toUpper)
  | _ => d.printNumber zeros (d.signs (value < 0)) (d.digits 10 value.natAbs)

/-- The bytes of a number under the letter of a conversion. -/
def Directive.printFloating (d : Directive) (f : BinaryFormat) (letter : Char) (n : Floating) :
    Bytes :=
  let lower := letter.toLower
  let places := d.precision.getD 6
  let capital (text : Bytes) : Bytes := if letter = lower then text else text.map Char.toUpper
  match n with
  | .infinite negative => d.printNumber false (d.signs negative) (capital "inf".toList)
  | .notANumber negative => d.printNumber false (d.signs negative) (capital "nan".toList)
  | .finite negative m e =>
    if lower = 'a' then
      let text :=
        printHexadecimal f.bits (if f.bits = 64 then 4 else 1) m e d.precision (d.has '#')
      d.printNumber true (d.signs negative ++ capital (text.take 2)) (capital (text.drop 2))
    else
      let text := match lower with
        | 'f' => printFixed m e places (d.has '#')
        | 'e' => printScientific m e places (d.has '#') 'e'
        | _ => printShorter m e places (d.has '#') 'e'
      d.printNumber true (d.signs negative) (capital text)

/-! ## Reading conversions -/

/-- How formats are read. -/
structure FormatStyle where
  escapes : EscapeStyle
  /-- A conversion with a flag that it does not know is a fault, and numbers may have letters for
  their lengths. -/
  checks : Bool
  floating : BinaryFormat

def FormatStyle.shell : FormatStyle := ⟨⟨false, false, false, false⟩, false, .double⟩

def FormatStyle.program : FormatStyle := ⟨⟨false, true, true, true⟩, true, .extended⟩

def fits (flags : List Char) (precise : Bool) (letter : Char) : Bool :=
  let refused (flag : Char) : List Char :=
    match flag with
    | '\'' => "aAceEosxX".toList
    | '#' => "cdisu".toList
    | '0' => "cs".toList
    | _ => []
  "aAcdeEfFgGiosuxX".toList.contains letter
    && !(flags.any fun flag => (refused flag).contains letter)
    && !(precise && letter == 'c')

/-- A directive that has been read, with the text and the arguments behind it. -/
structure DirectiveRead where
  directive : Directive
  /-- A point stands in front of the letter. -/
  precise : Bool
  rest : Bytes
  args : List Bytes
  faults : List FormatFault
  /-- A number is too large to go on. -/
  stops : Bool

/-- Reads a number, or takes it from an argument where an asterisk stands. -/
def readCount (style : FormatStyle) (rest : Bytes) (args : List Bytes) :
    Option (Int × Bytes) × Bytes × List Bytes × List FormatFault :=
  match rest with
  | '*' :: rest =>
    match args with
    | [] => (some (0, []), rest, [], [])
    | arg :: args =>
      let (n, fault) := boundedInteger 'd' arg
      let n := if style.checks then n else (Int32.ofInt n).toInt
      (some (n, arg), rest, args, fault.toList)
  | rest =>
    let (digits, more) := Bytes.splitDigits rest
    (if digits = [] then none else some ((Bytes.valueOf digits : Int), []), more, args, [])

/-- Reads what stands between a percent sign and the letter of a conversion. -/
def readDirective (style : FormatStyle) (cs : Bytes) (args : List Bytes) : DirectiveRead :=
  let isFlag (c : Char) : Bool := "-+ #0'".toList.contains c || (style.checks && c == 'I')
  let flags := cs.takeWhile isFlag
  let (width?, rest, args, faults) := readCount style (cs.drop flags.length) args
  let width : Int := (width?.map (·.1)).getD 0
  let tooWide := style.checks && Nat.pow 2 31 ≤ width.natAbs
  let (precise, precision?, rest, args, more) := match rest with
    | '.' :: rest =>
      let (n?, rest, args, faults) := readCount style rest args
      (true, some (n?.getD (0, [])), rest, args, faults)
    | rest => (false, none, rest, args, [])
  let precision : Int := (precision?.map (·.1)).getD 0
  let tooPrecise := style.checks && Nat.pow 2 31 ≤ precision
  { directive := ⟨if width < 0 then '-' :: flags else flags, width.natAbs,
      if precise ∧ 0 ≤ precision then some precision.toNat else none⟩
    precise := precise
    rest := if style.checks then rest.dropWhile fun c => "hjlLtz".toList.contains c else rest
    args := args
    faults := faults ++ (if tooWide then [.badWidth ((width?.map (·.2)).getD [])] else [])
      ++ more ++ (if tooPrecise then [.badPrecision ((precision?.map (·.2)).getD [])] else [])
    stops := tooWide || tooPrecise }

/-! ## Formats -/

/-- What came of printing in a format. -/
structure Formatted where
  bytes : Bytes
  /-- The arguments that are still to be printed. -/
  args : List Bytes
  /-- Nothing more is printed. -/
  stopped : Bool
  faults : List FormatFault

def Formatted.behind (bytes : Bytes) (faults : List FormatFault) (f : Formatted) : Formatted :=
  { f with bytes := bytes ++ f.bytes, faults := faults ++ f.faults }

/-- The bytes of an argument under the letter of a conversion, what is wrong, and whether printing
stops. -/
def convert (style : FormatStyle) (d : Directive) (letter : Char) (arg : Bytes) :
    Option (Bytes × List FormatFault × Bool) :=
  match letter with
  | 's' =>
    some (d.pad (match d.precision with
      | some n => arg.take n
      | none => arg), [], false)
  | 'c' => some (d.pad [arg.head?.getD '\x00'], [], false)
  | 'b' =>
    let (bytes, stop) := unescape { style.escapes with behindZero := true, stops := true } arg
    let cut := match d.precision with
      | some n => bytes.take n
      | none => bytes
    some (d.pad cut, if stop = .failed then [.noDigits] else [], stop ≠ .whole)
  | 'q' => if style.checks then some (shellQuoted false arg, [], false) else none
  | letter =>
    if "diouxX".toList.contains letter then
      let (n, fault) := boundedInteger letter arg
      some (d.printInteger letter n, fault.toList, false)
    else if "aAeEfFgG".toList.contains letter then
      let (n, fault) := floatingOf style.floating arg
      some (d.printFloating style.floating letter n, fault.toList, false)
    else none

/-- Prints a format once; the first `skip` characters are done. -/
def formatOnce (style : FormatStyle) (args : List Bytes) (skip : Nat) : Bytes → Formatted
  | [] => ⟨[], args, false, []⟩
  | c :: cs =>
    match skip with
    | skip + 1 => formatOnce style args skip cs
    | 0 =>
      if c = '\\' then
        match style.checks, cs with
        | true, '"' :: _ => (formatOnce style args 1 cs).behind ['"'] []
        | _, _ =>
          match Escape.ofChars style.escapes cs with
          | .stop => ⟨[], args, true, []⟩
          | .incomplete => ⟨[], args, true, [.noDigits]⟩
          | .plain => (formatOnce style args 1 cs).behind (c :: cs.take 1) []
          | .bytes bytes length => (formatOnce style args length cs).behind bytes []
      else if c = '%' then
        match cs.head? with
        | some '%' => (formatOnce style args 1 cs).behind ['%'] []
        | next =>
          let bare := style.checks && (next == some 'b' || next == some 'q')
          let r := if bare then ⟨⟨[], 0, none⟩, false, cs, args, [], false⟩
            else readDirective style cs args
          let length := cs.length - r.rest.length
          let shown := c :: cs.take (length + 1)
          if r.stops then ⟨[], r.args, true, r.faults⟩
          else
            match r.rest with
            | [] => ⟨[], r.args, true, r.faults ++ [.incomplete shown]⟩
            | letter :: _ =>
              let known := bare || !style.checks || fits r.directive.flags r.precise letter
              match if known then convert style r.directive letter (r.args.head?.getD [])
                else none with
              | none => ⟨[], r.args, true, r.faults ++ [.unknown shown]⟩
              | some (bytes, faults, true) => ⟨bytes, r.args.tail, true, r.faults ++ faults⟩
              | some (bytes, faults, false) =>
                (formatOnce style r.args.tail (length + 1) cs).behind bytes (r.faults ++ faults)
      else (formatOnce style args 0 cs).behind [c] []

/-- Prints a format again as long as it takes arguments and some are left. -/
def formatAll (style : FormatStyle) (format : Bytes) (args : List Bytes) : Nat → Formatted
  | 0 => ⟨[], args, true, []⟩
  | bound + 1 =>
    let once := formatOnce style args 0 format
    if once.stopped ∨ once.args = [] ∨ once.args.length = args.length then once
    else (formatAll style format once.args bound).behind once.bytes once.faults

def format (style : FormatStyle) (text : Bytes) (args : List Bytes) : Formatted :=
  formatAll style text args (args.length + 1)

/-! ## The program -/

def FormatFault.message : FormatFault → Bytes
  | notNumeric arg => quoted arg ++ ": expected a numeric value".toList
  | partlyNumeric arg => quoted arg ++ ": value not completely converted".toList
  | outOfRange arg => quoted arg ++ ": Numerical result out of range".toList
  | behindCharacter ignored =>
    "warning: ".toList ++ ignored
      ++ ": character(s) following character constant have been ignored".toList
  | badWidth arg => "invalid field width: ".toList ++ quoted arg
  | badPrecision arg => "invalid precision: ".toList ++ quoted arg
  | unknown conversion | incomplete conversion =>
    conversion ++ ": invalid conversion specification".toList
  | noDigits => "missing hexadecimal number in escape".toList

def FormatFault.isWarning : FormatFault → Bool
  | behindCharacter _ => true
  | _ => false

/-- Prints arguments in the format that is the first of them. -/
def printf : Job Unit := do
  let args := (← get).call.args
  match if args.head? = some ['-', '-'] then args.tail else args with
  | [] => refuse "missing operand".toList
  | text :: args =>
    let result := format .program text args
    for f in result.faults do
      complain f.message
      if !f.isWarning then note 1
    print result.bytes
    if !result.stopped then
      match result.args with
      | [] => pure ()
      | arg :: _ =>
        complain ("warning: ignoring excess arguments, starting with ".toList ++ quoted arg)

/-! ## Arguments as they are -/

/-- How arguments are printed. -/
structure EchoMode where
  escapes : Bool
  newline : Bool

/-- The mode that an argument asks for, if the argument is nothing but a group of options. -/
def EchoMode.update? (m : EchoMode) (arg : Bytes) : Option EchoMode :=
  match arg with
  | '-' :: o :: os =>
    if (o :: os).all fun c => c == 'n' || c == 'e' || c == 'E' then
      some ((o :: os).foldl (fun m c =>
        if c = 'n' then { m with newline := false } else { m with escapes := c == 'e' }) m)
    else none
  | _ => none

def EchoMode.bytes (m : EchoMode) : List Bytes → Bytes
  | [] => if m.newline then ['\n'] else []
  | arg :: args =>
    match m.update? arg with
    | some m => m.bytes args
    | none =>
      let text := Bytes.joined [' '] (arg :: args)
      let ending : Bytes := if m.newline then ['\n'] else []
      if m.escapes then
        match unescape ⟨true, true, true, false⟩ text with
        | (bytes, .whole) => bytes ++ ending
        | (bytes, _) => bytes
      else text ++ ending

/-- Prints the arguments with spaces between them. -/
def echo : Job Unit := do
  print (EchoMode.bytes ⟨false, true⟩ (← get).call.args)

end PlanConstraints.Tool

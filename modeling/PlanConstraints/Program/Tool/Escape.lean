import PlanConstraints.Program.Tool.Floating

set_option autoImplicit false

/-!
# Tools: escapes

An escape starts with a backslash and stands for a byte, or for several.
-/

namespace PlanConstraints.Tool

def octal? (c : Char) : Option Nat :=
  if '0' ≤ c ∧ c ≤ '7' then some (c.toNat - '0'.toNat) else none

/-- The digits at the start of a text, at most `limit` of them, read on from `value`: their number,
and the value of all digits. -/
def readDigits (digit? : Char → Option Nat) (base value : Nat) : Nat → Bytes → Nat × Nat
  | 0, _ => (0, value)
  | _ + 1, [] => (0, value)
  | limit + 1, c :: cs =>
    match digit? c with
    | none => (0, value)
    | some d =>
      let (count, value) := readDigits digit? base (value * base + d) limit cs
      (count + 1, value)

/-- What stands behind a backslash. -/
inductive Escape where
  /-- Bytes, written with that many characters. -/
  | bytes (bytes : Bytes) (length : Nat)
  /-- Nothing more is printed. -/
  | stop
  /-- The backslash stands for itself. -/
  | plain
  /-- Digits are missing. -/
  | incomplete

def simpleEscape? : Char → Option Char
  | 'a' => some '\x07'
  | 'b' => some '\x08'
  | 'e' => some '\x1b'
  | 'f' => some '\x0c'
  | 'n' => some '\n'
  | 'r' => some '\r'
  | 't' => some '\t'
  | 'v' => some '\x0b'
  | '\\' => some '\\'
  | _ => none

/-- Which escapes are known. -/
structure EscapeStyle where
  /-- A zero in front of octal digits is not one of them. -/
  behindZero : Bool
  /-- There are escapes with hexadecimal digits, and one for a quotation mark in a format. -/
  extended : Bool
  /-- There is an escape with which printing stops. -/
  stops : Bool
  /-- There are escapes with the numbers of characters, which are shown where they are no bytes. -/
  numbered : Bool

/-- The escape with the number of a character, of at most that many digits. -/
def Escape.ofNumber (letter : Char) (limit : Nat) (cs : Bytes) : Escape :=
  match readDigits hexDigit? 16 0 limit cs with
  | (0, _) => .incomplete
  | (count, value) =>
    if value < 128 then .bytes [Char.ofNat value] (count + 1)
    else
      let letter := if value < 65536 then 'u' else letter
      let digits := (hexDigits value (if letter = 'u' then 4 else 8)).map Char.toUpper
      .bytes ('\\' :: letter :: digits) (count + 1)

/-- The escape that the characters behind a backslash make. -/
def Escape.ofChars (style : EscapeStyle) : Bytes → Escape
  | [] => .plain
  | c :: cs =>
    match simpleEscape? c with
    | some b => .bytes [b] 1
    | none =>
      if c = 'c' ∧ style.stops then .stop
      else if c = 'x' ∧ style.extended then
        match readDigits hexDigit? 16 0 2 cs with
        | (0, _) => if style.numbered then .incomplete else .plain
        | (count, value) => .bytes [Char.ofNat value] (count + 1)
      else if c = 'u' ∧ style.numbered then Escape.ofNumber c 4 cs
      else if c = 'U' ∧ style.numbered then Escape.ofNumber c 8 cs
      else if c = '0' ∧ style.behindZero then
        let (count, value) := readDigits octal? 8 0 3 cs
        .bytes [Char.ofNat (value % 256)] (count + 1)
      else
        match readDigits octal? 8 0 3 (c :: cs) with
        | (0, _) => .plain
        | (count, value) => .bytes [Char.ofNat (value % 256)] count

/-- How printing a text with escapes went on. -/
inductive Unescaped where
  | whole
  /-- An escape has stopped it. -/
  | stopped
  /-- Digits of an escape are missing. -/
  | failed
  deriving DecidableEq

/-- The bytes of a text with escapes.  The first `skip` characters belong to an escape that is done.
-/
def unescapeFrom (style : EscapeStyle) (skip : Nat) : Bytes → Bytes × Unescaped
  | [] => ([], .whole)
  | c :: cs =>
    match skip with
    | skip + 1 => unescapeFrom style skip cs
    | 0 =>
      let behind (bytes : Bytes) (more : Bytes × Unescaped) : Bytes × Unescaped :=
        (bytes ++ more.1, more.2)
      if c = '\\' then
        match Escape.ofChars style cs with
        | .stop => ([], .stopped)
        | .incomplete => ([], .failed)
        | .plain => behind [c] (unescapeFrom style 0 cs)
        | .bytes bytes length => behind bytes (unescapeFrom style length cs)
      else behind [c] (unescapeFrom style 0 cs)

def unescape (style : EscapeStyle) (cs : Bytes) : Bytes × Unescaped := unescapeFrom style 0 cs

end PlanConstraints.Tool

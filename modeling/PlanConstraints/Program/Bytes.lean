import PlanConstraints.Text.Utf8

set_option autoImplicit false

/-!
# Programs: bytes as characters

Programs work on bytes, whether these are a text or not, and look for signs among them.  A byte is
held as the character with its number.  What a reader sees as one character may thus be several
here.  Patterns and expressions list bytes as ranges, or as classes that have names, to which only
the characters of ASCII belong.
-/

namespace PlanConstraints

/-- Bytes, each held as the character with its number. -/
abbrev Bytes := List Char

namespace Bytes

def ofList (bytes : List UInt8) : Bytes := bytes.map fun b => Char.ofNat b.toNat

def toList (b : Bytes) : List UInt8 := b.map fun c => UInt8.ofNat c.toNat

def ofText (text : String) : Bytes := ofList (Text.encode text.toList)

/-- The text that the bytes are; pieces that are no text are replaced. -/
def text (b : Bytes) : String := String.ofList (Text.decodeLossy b.toList)

def ofNat (n : Nat) : Bytes := (toString n).toList

/-- The decimal digits of a number, behind its sign. -/
def ofInt (n : Int) : Bytes := (toString n).toList

theorem toList_ofList (bytes : List UInt8) : (ofList bytes).toList = bytes := by
  induction bytes with
  | nil => rfl
  | cons b bytes ih =>
    have hb : (Char.ofNat b.toNat).toNat = b.toNat := by
      have hlt := b.toNat_lt
      have hv : b.toNat.isValidChar := .inl (by omega)
      rw [Char.ofNat, dif_pos hv]
      rfl
    have hu : UInt8.ofNat b.toNat = b := by simp
    simp only [ofList, toList, List.map_cons, hb, hu] at ih ⊢
    rw [ih]

/-! ## Comparing -/

/-- The first bytes come before the second ones in a list in the order of bytes. -/
def isBefore : Bytes → Bytes → Bool
  | [], [] => false
  | [], _ :: _ => true
  | _ :: _, [] => false
  | a :: as, b :: bs => if a = b then isBefore as bs else a < b

def behind? : Bytes → Bytes → Option Bytes
  | [], b => some b
  | _ :: _, [] => none
  | a :: as, b :: bs => if a = b then behind? as bs else none

/-- The bytes up to the first place where others stand, and those behind that place. -/
def splitAt? (sign : Bytes) : Bytes → Option (Bytes × Bytes)
  | [] => if sign = [] then some ([], []) else none
  | c :: cs =>
    match behind? sign (c :: cs) with
    | some rest => some ([], rest)
    | none => (splitAt? sign cs).map fun (inside, rest) => (c :: inside, rest)

/-! ## Lines -/

/-- The lines, each without the line feed that ends it, and whether the last one is ended. -/
def linesFrom (line : Bytes) : Bytes → List Bytes × Bool
  | [] => if line = [] then ([], true) else ([line.reverse], false)
  | c :: cs =>
    if c = '\n' then
      let (lines, ended) := linesFrom [] cs
      (line.reverse :: lines, ended)
    else linesFrom (c :: line) cs

/-- The lines, each without the line feed that ends it. -/
def lines (b : Bytes) : List Bytes := (linesFrom [] b).1

def unlines (lines : List Bytes) : Bytes := lines.flatMap (· ++ ['\n'])

def joined (separator : Bytes) : List Bytes → Bytes
  | [] => []
  | [b] => b
  | b :: bs => b ++ separator ++ joined separator bs

/-- Digits at the start and what stands behind them. -/
def splitDigits (b : Bytes) : Bytes × Bytes := (b.takeWhile Char.isDigit, b.dropWhile Char.isDigit)

def valueOf (digits : Bytes) : Nat := digits.foldl (fun n c => n * 10 + (c.toNat - '0'.toNat)) 0

/-- The number that bytes stand for that are nothing but decimal digits. -/
def natural? (b : Bytes) : Option Nat :=
  if b ≠ [] ∧ b.all Char.isDigit then some (valueOf b) else none

def isSpace (c : Char) : Bool := c == ' ' || ('\t' ≤ c && c ≤ '\r')

end Bytes

/-! ## Classes -/

/-- What brackets list. -/
inductive Listed where
  | range (first last : Char)
  | named (name : String)
  deriving DecidableEq

def inClass? (name : String) (c : Char) : Option Bool :=
  let isGraph := '!' ≤ c && c ≤ '~'
  match name with
  | "alnum" => some c.isAlphanum
  | "alpha" => some c.isAlpha
  | "blank" => some (c == ' ' || c == '\t')
  | "cntrl" => some (c.toNat < 32 || c.toNat == 127)
  | "digit" => some c.isDigit
  | "graph" => some isGraph
  | "lower" => some c.isLower
  | "print" => some (isGraph || c == ' ')
  | "punct" => some (isGraph && !c.isAlphanum)
  | "space" => some (Bytes.isSpace c)
  | "upper" => some c.isUpper
  | "xdigit" => some (c.isDigit || ('a' ≤ c && c ≤ 'f') || ('A' ≤ c && c ≤ 'F'))
  | _ => none

def isClassName (name : String) : Bool := (inClass? name 'a').isSome

def Listed.has (c : Char) : Listed → Bool
  | range first last => first ≤ c && c ≤ last
  | named name => (inClass? name c).getD false

def isInWord (c : Char) : Bool := c.isAlphanum || c == '_'

end PlanConstraints

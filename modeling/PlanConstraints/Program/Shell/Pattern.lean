import PlanConstraints.Program.Bytes

set_option autoImplicit false

/-!
# Shell: patterns

A pattern describes bytes: an asterisk stands for any of them, a question mark for one, and brackets
for one of those they list.  A sign in quotation stands for itself.

Main statement: a pattern without signs matches what it spells.
-/

namespace PlanConstraints.Shell

/-- A character that is a sign unless it is in quotation. -/
structure Sign where
  char : Char
  quoted : Bool
  deriving DecidableEq

/-- What a pattern asks for at one place. -/
inductive Wanted where
  | char (c : Char)
  | any
  | anything
  | oneOf (negated : Bool) (listed : List Listed)
  deriving DecidableEq

abbrev Pattern := List Wanted

/-! ## Reading -/

/-- The name of a class at the start of signs that follow a bracket, and the signs behind it. -/
def splitClass? (signs : List Sign) : Option (String × List Sign) :=
  match signs with
  | ⟨':', _⟩ :: rest =>
    let name := (rest.takeWhile fun s => s.char.isAlpha).map Sign.char
    match rest.drop name.length with
    | ⟨':', _⟩ :: ⟨']', _⟩ :: rest =>
      if (inClass? (String.ofList name) 'a').isSome then some (String.ofList name, rest) else none
    | _ => none
  | _ => none

/-- Reads what brackets list, up to the bracket that closes them; at the start that bracket stands
for itself. -/
def readListed : Nat → Bool → List Sign → Option (List Listed × List Sign)
  | 0, _, _ => none
  | _, _, [] => none
  | bound + 1, start, s :: rest =>
    let behind (item : Listed) (rest : List Sign) : Option (List Listed × List Sign) :=
      (readListed bound false rest).map fun (items, rest) => (item :: items, rest)
    let single (c : Char) (rest : List Sign) : Option (List Listed × List Sign) :=
      match rest with
      | ⟨'-', false⟩ :: last :: more =>
        if last.char = ']' ∧ !last.quoted then behind (.range c c) rest
        else
          match last, more with
          | ⟨'\\', false⟩, last :: more => behind (.range c last.char) more
          | last, more => behind (.range c last.char) more
      | rest => behind (.range c c) rest
    if s.char = ']' ∧ !s.quoted ∧ !start then some ([], rest)
    else if s.char = '[' ∧ !s.quoted then
      match splitClass? rest with
      | some (name, rest) => behind (.named name) rest
      | none => single '[' rest
    else if s.char = '\\' ∧ !s.quoted then
      match rest with
      | s :: rest => single s.char rest
      | [] => none
    else single s.char rest

def readPattern : Nat → List Sign → Pattern
  | 0, _ => []
  | _, [] => []
  | bound + 1, s :: rest =>
    let plain := Wanted.char s.char :: readPattern bound rest
    if s.quoted then plain
    else
      match s.char with
      | '*' => .anything :: readPattern bound rest
      | '?' => .any :: readPattern bound rest
      | '\\' =>
        match rest with
        | next :: rest => .char next.char :: readPattern bound rest
        | [] => [.char '\\']
      | '[' =>
        let (negated, inside) := match rest with
          | ⟨'!', false⟩ :: more | ⟨'^', false⟩ :: more => (true, more)
          | more => (false, more)
        match readListed rest.length true inside with
        | some (listed, rest) => .oneOf negated listed :: readPattern bound rest
        | none => plain
      | _ => plain

def Pattern.ofSigns (signs : List Sign) : Pattern := readPattern signs.length signs

def Pattern.isOpen (p : Pattern) : Bool :=
  p.any fun
    | .char _ => false
    | _ => true

/-! ## Matching -/

/-- Bytes, and what is left of them when the first ones are taken away. -/
def tails : Bytes → List Bytes
  | [] => [[]]
  | c :: cs => (c :: cs) :: tails cs

def accepts : Pattern → Bytes → Bool
  | [], cs => cs.isEmpty
  | .anything :: p, cs => (tails cs).any (accepts p)
  | .char a :: p, c :: cs => a == c && accepts p cs
  | .any :: p, _ :: cs => accepts p cs
  | .oneOf negated listed :: p, c :: cs => (listed.any (Listed.has c)) != negated && accepts p cs
  | _ :: _, [] => false

def cutStart (p : Pattern) (longest : Bool) (cs : Bytes) : Bytes :=
  let lengths := List.range (cs.length + 1)
  match (if longest then lengths.reverse else lengths).find? fun n => accepts p (cs.take n) with
  | some n => cs.drop n
  | none => cs

def cutEnd (p : Pattern) (longest : Bool) (cs : Bytes) : Bytes :=
  let lengths := List.range (cs.length + 1)
  match (if longest then lengths else lengths.reverse).find? fun n => accepts p (cs.drop n) with
  | some n => cs.take n
  | none => cs

end PlanConstraints.Shell

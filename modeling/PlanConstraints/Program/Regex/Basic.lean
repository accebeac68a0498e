import PlanConstraints.Program.Bytes

set_option autoImplicit false

/-!
# Text: regular expressions

A regular expression describes texts.  Where one occurs in a text, the occurrence that starts first
counts, and of those the longest one.  The parts of an expression take as much as they can, the
first ones first.
-/

namespace PlanConstraints

inductive Regex where
  | nothing
  | char (c : Char)
  | any
  | oneOf (negated : Bool) (listed : List Listed)
  | both (r s : Regex)
  | either (r s : Regex)
  /-- What the expression matches is known by a number. -/
  | group (number : Nat) (r : Regex)
  | several (r : Regex) (least : Nat) (most : Option Nat)
  /-- What the group of a number has matched. -/
  | again (number : Nat)
  | lineStart
  | lineEnd
  | textStart
  | textEnd
  | wordStart
  | wordEnd
  | wordEdge
  | noWordEdge
  /-- No character of a word stands before, or behind. -/
  | noWordBefore
  | noWordBehind

namespace Regex

/-- How texts are compared with expressions. -/
structure Mode where
  /-- Capital letters count as small ones. -/
  folds : Bool
  /-- Ends of lines count as ends of the text. -/
  byLines : Bool

/-- A place in a text up to which it has been matched. -/
structure Place where
  before : Option Char
  rest : Bytes
  /-- What groups have matched. -/
  groups : List (Nat × Bytes)
  deriving DecidableEq

def looksBack : Regex → Bool
  | again _ => true
  | both r s | either r s => r.looksBack || s.looksBack
  | group _ r | several r _ _ => r.looksBack
  | _ => false

/-- The expression asks only for what stands around a place. -/
def isAnchor : Regex → Bool
  | lineStart | lineEnd | textStart | textEnd | wordStart | wordEnd | wordEdge | noWordEdge
  | noWordBefore | noWordBehind => true
  | _ => false

def groupCount : Regex → Nat
  | both r s | either r s => r.groupCount + s.groupCount
  | group _ r => r.groupCount + 1
  | several r _ _ => r.groupCount
  | _ => 0

/-- Puts a place in front of those with a longer rest, unless its like is there. -/
def insertPlace (exact : Bool) (p : Place) : List Place → List Place
  | [] => [p]
  | q :: qs =>
    if p.rest.length < q.rest.length then p :: q :: qs
    else if p.rest.length = q.rest.length ∧ (!exact ∨ p = q) then q :: qs
    else q :: insertPlace exact p qs

/-- The places in their order, the farthest first, without those that are there before. -/
def inOrder (exact : Bool) (places : List Place) : List Place :=
  places.foldl (fun found p => insertPlace exact p found) []

def Place.step (p : Place) : Option (Char × Place) :=
  match p.rest with
  | [] => none
  | c :: rest => some (c, { p with before := some c, rest := rest })

def Place.take (p : Place) (test : Char → Bool) : List Place :=
  match p.step with
  | some (c, next) => if test c then [next] else []
  | none => []

def Place.skip (same : Char → Char → Bool) (p : Place) : Bytes → List Place
  | [] => [p]
  | c :: cs =>
    match p.step with
    | some (d, next) => if same c d then next.skip same cs else []
    | none => []

/-- The place lies between a character of a word and one that is none: at its start, or at its end.
-/
def Place.isWordStart (p : Place) : Bool := !p.before.any isInWord && p.rest.head?.any isInWord

def Place.isWordEnd (p : Place) : Bool := p.before.any isInWord && !p.rest.head?.any isInWord

/-- The places that are reached by repeating a step.  `done` holds those reached so far, and `new`
those of them from which nothing has been tried. -/
def repeatFrom (exact : Bool) (step : Place → List Place) :
    Nat → Nat → Option Nat → List Place → List Place → List Place
  | 0, _, _, done, _ => done
  | bound + 1, least, most, done, new =>
    if new = [] ∨ most = some 0 then done
    else
      let reached := inOrder exact (new.flatMap step)
      let fresh := reached.filter fun p =>
        !done.any fun q => q.rest.length = p.rest.length && (!exact || q == p)
      let least := least - 1
      repeatFrom exact step bound least (most.map (· - 1))
        (if least = 0 then inOrder exact (fresh ++ done) else done)
        (if least = 0 then fresh else reached)

/-- The places up to which an expression matches, the farthest first. -/
def places (m : Mode) (exact : Bool) : Regex → Place → List Place
  | nothing, p => [p]
  | char c, p => p.take fun d => c == d || (m.folds && c.toLower == d.toLower)
  | any, p => p.take fun _ => true
  | oneOf negated listed, p =>
    p.take fun c =>
      (listed.any (Listed.has c)
        || (m.folds && (listed.any (Listed.has c.toLower) || listed.any (Listed.has c.toUpper))))
        != negated
  | both r s, p => inOrder exact ((places m exact r p).flatMap (places m exact s))
  | either r s, p => inOrder exact (places m exact r p ++ places m exact s p)
  | group number r, p =>
    (places m exact r p).map fun q =>
      let taken := p.rest.take (p.rest.length - q.rest.length)
      { q with groups := (number, taken) :: q.groups.filter fun g => g.1 != number }
  | several r least most, p =>
    repeatFrom exact (places m exact r) (p.rest.length + least + 1) least most
      (if least = 0 then [p] else []) [p]
  | again number, p =>
    match p.groups.lookup number with
    | some text => p.skip (fun c d => c == d || (m.folds && c.toLower == d.toLower)) text
    | none => []
  | lineStart, p =>
    if p.before = none ∨ (m.byLines ∧ p.before = some '\n') then [p] else []
  | lineEnd, p => if p.rest = [] ∨ (m.byLines ∧ p.rest.head? = some '\n') then [p] else []
  | textStart, p => if p.before = none then [p] else []
  | textEnd, p => if p.rest = [] then [p] else []
  | wordStart, p => if p.isWordStart then [p] else []
  | wordEnd, p => if p.isWordEnd then [p] else []
  | wordEdge, p => if p.isWordStart || p.isWordEnd then [p] else []
  | noWordEdge, p => if p.isWordStart || p.isWordEnd then [] else [p]
  | noWordBefore, p => if p.before.any isInWord then [] else [p]
  | noWordBehind, p => if p.rest.head?.any isInWord then [] else [p]

/-- An occurrence of an expression. -/
structure Occurrence where
  /-- The text before it, and behind it. -/
  before : Bytes
  text : Bytes
  behind : Bytes
  /-- What groups have matched. -/
  groups : List (Nat × Bytes)

/-- The first occurrence in a text behind `passed`, which is in reverse. -/
def findFrom (m : Mode) (r : Regex) (passed : Bytes) : Nat → Bytes → Option Occurrence
  | 0, _ => none
  | bound + 1, rest =>
    match places m r.looksBack r ⟨passed.head?, rest, []⟩ with
    | p :: _ =>
      some ⟨passed.reverse, rest.take (rest.length - p.rest.length), p.rest, p.groups⟩
    | [] =>
      match rest with
      | [] => none
      | c :: rest => findFrom m r (c :: passed) bound rest

def find (m : Mode) (r : Regex) (text : Bytes) : Option Occurrence :=
  findFrom m r [] (text.length + 1) text

/-- The expression that asks for one of several; it matches nothing if there are none. -/
def anyOf (rs : List Regex) : Regex :=
  match rs with
  | [] => .oneOf false []
  | r :: rs => rs.foldl either r

def occursIn (m : Mode) (r : Regex) (text : Bytes) : Bool := (find m r text).isSome

end Regex

end PlanConstraints

import PlanConstraints.Program.Shell.Arithmetic
import PlanConstraints.Program.Shell.Process

set_option autoImplicit false

/-!
# Shell: expanding words

Parts of words are replaced by the values of parameters, the output of commands and numbers; what
has been put in their place may be cut into several words, and these may be names of files.
-/

namespace PlanConstraints.Shell

/-! ## Values -/

/-- The value of a parameter, if it has one.  All arguments are not a value by themselves. -/
def State.valueOf? (s : State) (name : Bytes) : Option Bytes :=
  match name with
  | ['$'] => some (Bytes.ofNat s.number)
  | ['?'] => some (Bytes.ofNat s.last)
  | ['#'] => some (Bytes.ofNat s.args.length)
  | ['!'] => s.lastJob.map Bytes.ofNat
  | ['-'] => some ((optionLetters.reverse.map (·.1)).filter s.options.contains)
  | ['0'] => some s.name
  | name =>
    match Bytes.natural? name with
    | some (n + 1) => s.args[n]?
    | some 0 => some s.name
    | none => s.parameter? name

/-- The arguments with what stands between them if they are no words of their own. -/
def joinedArgs (s : State) (quoted full : Bool) : List Glyph :=
  let separator : List Glyph :=
    if !quoted && full then
      [.char (if s.separators?.isSome then '\x00' else ' ') false true]
    else
      match s.separators? with
      | none => [.char ' ' quoted true]
      | some [] => []
      | some (c :: _) => [.char c quoted true]
  separator.intercalate (s.args.map (glyphsOf quoted true))

def State.glyphsOf? (s : State) (m : Expanding) (name : Bytes) (quoted : Bool) :
    Option (List Glyph) :=
  match name with
  | ['@'] =>
    if quoted && m.full then
      some ([Glyph.cut].intercalate (s.args.map fun arg => .quotation :: glyphsOf true false arg))
    else some (joinedArgs s quoted m.full)
  | ['*'] => some (joinedArgs s quoted m.full)
  | name => (s.valueOf? name).map (glyphsOf quoted true)

/-- A parameter without a value is an error, if the shell was told so. -/
def demandValue (name : Bytes) (value : Option (List Glyph)) : Action (List Glyph) := do
  match value with
  | some gs => return gs
  | none =>
    if ← hasOption 'u' then fail (name ++ ": parameter not set".toList) else return []

/-! ## Parts -/

def expandParameter (self : Engine) (m : Expanding) (name : Bytes) (use : Use) (word : List Part)
    (quoted : Bool) : Action (List Glyph) := do
  let value? := (← get).glyphsOf? m name quoted
  let missing (emptyIsNone : Bool) : Bool :=
    match value? with
    | none => true
    | some gs => emptyIsNone && (textOf gs).isEmpty
  let inner : Action (List Glyph) :=
    self.parts { m with cuts := m.full && !quoted, tilde := true } word
  let text (parts : List Part) : Action Bytes := do
    return textOf (← self.parts ⟨false, false, true, false⟩ parts)
  match use with
  | .unknown => fail "Bad substitution".toList
  | .value => demandValue name value?
  | .length =>
    let gs ← demandValue name value?
    return glyphsOf quoted true (Bytes.ofNat (textOf gs).length)
  | .otherwise emptyIsNone => if missing emptyIsNone then inner else return value?.getD []
  | .instead emptyIsNone => if missing emptyIsNone then return [] else inner
  | .assign emptyIsNone =>
    if missing emptyIsNone then
      assignParameter name (← text word)
      return ((← get).glyphsOf? m name quoted).getD []
    else return value?.getD []
  | .demand emptyIsNone =>
    if missing emptyIsNone then
      let usual := if emptyIsNone then "parameter not set or null" else "parameter not set"
      let message ← if word.isEmpty then pure usual.toList else text word
      fail (name ++ ": ".toList ++ message)
    else return value?.getD []
  | .withoutStart longest =>
    let gs ← demandValue name value?
    let p := Pattern.ofSigns (signsOf (← self.parts ⟨false, false, true, false⟩ word))
    return glyphsOf quoted true (cutStart p longest (textOf gs))
  | .withoutEnd longest =>
    let gs ← demandValue name value?
    let p := Pattern.ofSigns (signsOf (← self.parts ⟨false, false, true, false⟩ word))
    return glyphsOf quoted true (cutEnd p longest (textOf gs))

def calculate (expression : Bytes) : Action Int := do
  let s ← get
  match Arithmetic.evaluate (fun name => (s.parameter? name).getD []) expression with
  | .error f => fail (f.message expression)
  | .ok (n, changed) =>
    for (name, value) in changed.reverse do setValue name value
    return n

/-- The folder that a tilde and a name stand for. -/
def homeOf? (s : State) (user : Bytes) : Option Bytes :=
  if user = [] then s.parameter? "HOME".toList
  else if user = "root".toList then some "/root".toList
  else none

/-- The glyphs of a text in which tildes stand for folders.  `more` tells that other parts follow.
-/
def expandTildes (s : State) (m : Expanding) (more : Bool) (start : Bool) : Nat → Bytes → List Glyph
  | 0, cs => glyphsOf false m.cuts cs
  | _, [] => []
  | bound + 1, c :: cs =>
    let next (start : Bool) : List Glyph :=
      .char c false m.cuts :: expandTildes s m more start bound cs
    if c = '~' ∧ start then
      let stops (c : Char) : Bool := c == '/' || (m.colons && c == ':')
      let user := cs.takeWhile fun c => !stops c
      let rest := cs.drop user.length
      if rest = [] ∧ more then next false
      else
        match homeOf? s user with
        | some home => glyphsOf true false home ++ expandTildes s m more false bound rest
        | none => next false
    else next (m.colons && c == ':')

/-- Expands a part of a word; `first` tells that it is the first one, and `more` that others follow.
-/
def expandPart (self : Engine) (m : Expanding) (first more : Bool) : Part → Action (List Glyph)
  | .text cs true => return if cs = [] then [.quotation] else glyphsOf true false cs
  | .text cs false => do
    let s ← get
    if m.tilde && (first || m.colons) then
      return expandTildes s m more first (cs.length + 1) cs
    else return glyphsOf false m.cuts cs
  | .parameter name use word quoted => expandParameter self m name use word quoted
  | .output c quoted => do
    let bytes ← outputOf self c
    let bytes := (bytes.reverse.dropWhile (· == '\n')).reverse.filter (· != '\x00')
    return glyphsOf quoted true bytes
  | .number expression quoted => do
    let text := textOf (← self.parts ⟨false, false, false, false⟩ expression)
    return glyphsOf quoted true (Bytes.ofInt (← calculate text))

def expandParts (self : Engine) (m : Expanding) (first : Bool) : List Part → Action (List Glyph)
  | [] => return []
  | p :: ps => do
    let gs ← expandPart self m first (!ps.isEmpty) p
    let more ← expandParts self m false ps
    return gs ++ more

/-! ## Words -/

def expandWord (self : Engine) (w : Word) : Action (List Bytes) := do
  let gs ← self.parts ⟨true, false, true, false⟩ w
  let s ← get
  let words := cutWords (s.separators?.getD usualSeparators) gs
  if s.options.contains 'f' then return words.map textOf
  else return words.flatMap (expandNames s.system.files)

def expandText (self : Engine) (w : Word) : Action Bytes := do
  return textOf (← self.parts ⟨false, false, true, false⟩ w)

def expandValue (self : Engine) (w : Word) : Action Bytes := do
  return textOf (← self.parts ⟨false, false, true, true⟩ w)

end PlanConstraints.Shell

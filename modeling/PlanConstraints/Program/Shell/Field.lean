import PlanConstraints.File.Tree
import PlanConstraints.Program.Shell.Pattern

set_option autoImplicit false

/-!
# Shell: words made of expanded parts

The parts of a word expand to glyphs: characters that remember whether they were in quotation and
whether the word may be cut at them.  Glyphs are cut into the words of a command, and words that are
patterns are replaced by the names of the files that they match.
-/

namespace PlanConstraints.Shell

/-- A character of an expanded word, or a mark between characters. -/
inductive Glyph where
  | char (c : Char) (quoted cuts : Bool)
  /-- A quotation, which makes a word even if nothing stands in it. -/
  | quotation
  /-- One word ends, and the next one starts. -/
  | cut
  deriving DecidableEq

def glyphsOf (quoted cuts : Bool) (cs : Bytes) : List Glyph := cs.map fun c => .char c quoted cuts

def textOf (gs : List Glyph) : Bytes :=
  gs.filterMap fun
    | .char c _ _ => some c
    | _ => none

def signsOf (gs : List Glyph) : List Sign :=
  gs.filterMap fun
    | .char c quoted _ => some ⟨c, quoted⟩
    | _ => none

/-! ## Cutting into words -/

/-- The characters at which values are cut if none are given. -/
def usualSeparators : Bytes := " \t\n".toList

/-- What has been read last while glyphs are cut. -/
inductive Cutting where
  | text
  | blank
  | separator
  deriving DecidableEq

/-- The glyph separates words, and is a blank, which counts for nothing at the ends of words. -/
def Glyph.separates? (separators : Bytes) : Glyph → Option Bool
  | .char c false true =>
    if c = '\x00' ∨ separators.contains c then some (c == '\x00' || usualSeparators.contains c)
    else none
  | _ => none

/-- Cuts glyphs into words; `word` is the present one in reverse. -/
def cutFrom (separators : Bytes) (before : Cutting) (word : List Glyph) :
    List Glyph → List (List Glyph)
  | [] => if word = [] then [] else [word.reverse]
  | .cut :: gs => word.reverse :: cutFrom separators .text [] gs
  | g :: gs =>
    match g.separates? separators with
    | none => cutFrom separators .text (g :: word) gs
    | some true =>
      match before with
      | .text =>
        if word = [] then cutFrom separators .text [] gs
        else word.reverse :: cutFrom separators .blank [] gs
      | before => cutFrom separators before [] gs
    | some false =>
      match before with
      | .blank => cutFrom separators .separator [] gs
      | _ => word.reverse :: cutFrom separators .separator [] gs

def cutWords (separators : Bytes) (gs : List Glyph) : List (List Glyph) :=
  cutFrom separators .text [] gs

/-! ## Names of files -/

def namesIn (files : FileTree) (path : Bytes) : List Bytes :=
  match files.resolve (.ofText (if path = [] then "." else path.text)) with
  | .ok (.found folder .folder) =>
    ".".toList :: "..".toList :: (files.entries.filterMap fun (address, _) =>
      match address.getLast? with
      | some name =>
        if address.length = folder.length + 1 ∧ folder.isPrefixOf address then
          some (Bytes.ofText (String.ofList name))
        else none
      | none => none).eraseDups
  | _ => []

/-- The pieces of a path that are patterns, between slashes. -/
def splitSigns (signs : List Sign) : List (List Sign) :=
  signs.foldr (fun s pieces =>
    match pieces with
    | [] => if s.char = '/' then [[], []] else [[s]]
    | piece :: more => if s.char = '/' then [] :: piece :: more else (s :: piece) :: more) [[]]

/-- A pattern matches a name in a folder; one that starts with a dot has to be asked for. -/
def matchesName (piece : List Sign) (name : Bytes) : Bool :=
  (name.head? != some '.' || (piece.head?.map Sign.char) == some '.'
    || (piece.take 2).map Sign.char == ['\\', '.'])
    && accepts (.ofSigns piece) name

def pathsFrom (files : FileTree) (path : Bytes) : List (List Sign) → List Bytes
  | [] => [path]
  | piece :: more =>
    let last := more.isEmpty
    let behind (name : Bytes) : List Bytes :=
      if last then [path ++ name] else pathsFrom files (path ++ name ++ ['/']) more
    if (Pattern.ofSigns piece).isOpen then
      ((namesIn files path).filter (matchesName piece)).flatMap behind
    else
      let name := (Pattern.ofSigns piece).filterMap fun
        | .char c => some c
        | _ => none
      if last ∧ !files.contains (path ++ name).text then [] else behind name

/-- The words that a word makes that may be a pattern. -/
def expandNames (files : FileTree) (gs : List Glyph) : List Bytes :=
  let signs := signsOf gs
  if (Pattern.ofSigns signs).isOpen then
    match pathsFrom files [] (splitSigns signs) with
    | [] => [textOf gs]
    | paths => paths.mergeSort fun a b => !Bytes.isBefore b a
  else [textOf gs]

end PlanConstraints.Shell

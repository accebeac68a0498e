import PlanConstraints.Program.Regex.Reader
import PlanConstraints.Program.Tool.Show

set_option autoImplicit false

/-!
# Tools: searching

Lines are selected in which an expression occurs, or in which it does not.  They are printed, with
lines around them if that is wanted, or counted.
-/

namespace PlanConstraints.Tool

/-! ## What is sought -/

/-- How expressions are written. -/
inductive Spelling where
  | simple
  | extended
  /-- A text stands for itself. -/
  | literal
  deriving DecidableEq

/-- How lines are selected. -/
structure Search where
  sought : Regex
  mode : Regex.Mode
  /-- Lines are selected in which nothing is found. -/
  inverted : Bool
  /-- So many lines are selected at most. -/
  most : Option Nat
  /-- The character that ends lines. -/
  ending : Char

/-- A line of a file. -/
structure Found where
  text : Bytes
  number : Nat
  /-- The number of bytes before the line. -/
  offset : Nat
  selected : Bool

/-- The lines of a file, of which no more are selected than are wanted. -/
def Search.lines (s : Search) (bytes : Bytes) : List Found :=
  let pieces := Text.split s.ending bytes
  let texts := if pieces.getLast? = some [] then pieces.dropLast else pieces
  let rec go (number offset selected : Nat) : List Bytes → List Found
    | [] => []
    | text :: more =>
      let wanted := s.most.all (selected < ·) && (Regex.occursIn s.mode s.sought text != s.inverted)
      ⟨text, number, offset, wanted⟩
        :: go (number + 1) (offset + text.length + 1)
          (if wanted then selected + 1 else selected) more
  go 1 0 0 texts

/-- The places in a text at which something is found that is not empty, each with what is found. -/
def Search.parts (s : Search) : Nat → Nat → Bytes → Bytes → List (Nat × Bytes)
  | 0, _, _, _ => []
  | bound + 1, offset, passed, rest =>
    match Regex.findFrom s.mode s.sought passed (rest.length + 1) rest with
    | none => []
    | some o =>
      let skipped := rest.take (rest.length - (o.text.length + o.behind.length))
      let offset := offset + skipped.length
      match o.text, o.behind with
      | [], [] => []
      | [], c :: behind => s.parts bound (offset + 1) (c :: (skipped.reverse ++ passed)) behind
      | text, behind =>
        (offset, text)
          :: s.parts bound (offset + text.length)
            (text.reverse ++ (skipped.reverse ++ passed)) behind

/-! ## What is shown -/

/-- What is shown of a file. -/
inductive Report where
  | lines
  /-- What was found in lines. -/
  | parts
  | count
  /-- The name of the file, if lines are selected, or if none are. -/
  | name (selected : Bool)
  | nothing
  deriving DecidableEq

/-- How lines are shown. -/
structure Layout where
  report : Report
  named : Bool
  numbered : Bool
  offsets : Bool
  aligned : Bool
  zeroed : Bool
  /-- The numbers of lines that are shown before and behind each selected one. -/
  context : Option (Nat × Nat)
  /-- What stands between lines that do not follow each other. -/
  gap : Option Bytes
  ending : Char

/-- For each line, whether it is marked or stands behind a marked one, at most at a distance; `left`
is the number of lines that are still near. -/
def nearMarks (distance left : Nat) : List Bool → List Bool
  | [] => []
  | marked :: more =>
    (marked || 0 < left) :: nearMarks distance (if marked then distance else left - 1) more

def shownMarks (context : Nat × Nat) (marks : List Bool) : List Bool :=
  List.zipWith (· || ·) (nearMarks context.1 0 marks.reverse).reverse (nearMarks context.2 0 marks)

def Layout.front (l : Layout) (name : Bytes) (width number offset : Nat) (sign : Char) : Bytes :=
  let shownName := if l.named then name ++ [if l.zeroed then '\x00' else sign] else []
  let place (shown : Bool) (n : Nat) : Bytes :=
    if shown
      then (if l.aligned then rightAligned width (Bytes.ofNat n) else Bytes.ofNat n) ++ [sign]
    else []
  let all := shownName ++ place l.numbered number ++ place l.offsets offset
  if l.aligned && !all.isEmpty then all ++ ['\t'] else all

def Layout.line (l : Layout) (s : Search) (name : Bytes) (width : Nat) (line : Found) : Bytes :=
  let sign := if line.selected then ':' else '-'
  match l.report with
  | .parts =>
    if line.selected && !s.inverted then
      (s.parts (line.text.length + 1) line.offset [] line.text).flatMap fun (offset, part) =>
        l.front name width line.number offset sign ++ part ++ [l.ending]
    else []
  | _ => l.front name width line.number line.offset sign ++ line.text ++ [l.ending]

/-- Lines as they are shown.  `last` is the number of the line that was shown last. -/
def Layout.lines (l : Layout) (s : Search) (name : Bytes) (width last : Nat) (someShown : Bool) :
    List (Found × Bool) → Bytes
  | [] => []
  | (line, shown) :: more =>
    if shown then
      let gap := match l.context, l.gap with
        | some _, some gap =>
          if someShown && last + 1 < line.number then gap ++ ['\n'] else []
        | _, _ => []
      gap ++ l.line s name width line ++ l.lines s name width line.number true more
    else l.lines s name width last someShown more

/-! ## Files -/

/-- What is done with folders. -/
inductive Folders where
  | read
  | enter
  | skip
  deriving DecidableEq

/-- The paths of the files in a folder and in the folders in it, behind the path of that. -/
def filesBelow (files : FileTree) (a : Address) : List Bytes :=
  files.entries.filterMap fun (address, e) =>
    match e with
    | .folder | .device _ => none
    | .text _ | .bytes _ | .program _ =>
      if a.isPrefixOf address ∧ a.length < address.length then
        some (Bytes.joined ['/'] ((address.drop a.length).map fun n => .ofText (String.ofList n)))
      else none

/-- A file that is searched: its name, its path, and whether it was found in a folder. -/
structure Searched where
  name : Bytes
  path : Bytes
  inFolder : Bool

def searchedAt (files : FileTree) (folders : Folders) (path : Bytes) : List Searched :=
  match folders, files.resolve (.ofText path.text) with
  | .enter, .ok (.found a .folder) =>
    let front := if path.getLast? = some '/' then path else path ++ ['/']
    (filesBelow files a).map fun p => ⟨front ++ p, front ++ p, true⟩
  | .skip, .ok (.found _ .folder) => []
  | _, _ => [⟨path, path, false⟩]

/-- How files are searched. -/
structure Task where
  search : Search
  layout : Layout
  folders : Folders
  silent : Bool
  /-- Names of files are shown, or not; if this is not said, it depends on the files. -/
  names : Option Bool
  /-- What is done with files that hold bytes of no text: they are taken as text, or left out. -/
  asText : Bool
  textOnly : Bool
  inputName : Bytes

/-- What is known of the search so far. -/
structure Tally where
  selected : Bool
  failed : Bool
  /-- Lines have been shown. -/
  shown : Bool

/-- Searches the bytes of a file; tells whether lines have been selected. -/
def Task.searchBytes (t : Task) (name : Bytes) (fromInput named shown : Bool) (bytes : Bytes) :
    Job (Bool × Bool) := do
  let l := { t.layout with named := named }
  let binary := t.search.ending == '\n' && !t.asText && bytes.contains '\x00'
  if binary && t.textOnly then return (false, false)
  let found := t.search.lines bytes
  let count := (found.filter (·.selected)).length
  let nameEnd := if l.zeroed then '\x00' else '\n'
  match l.report with
  | .nothing => return (0 < count, false)
  | .name wanted =>
    if (0 < count) == wanted then print (name ++ [nameEnd])
    return (0 < count, false)
  | .count =>
    let front := if named then name ++ [if l.zeroed then '\x00' else ':'] else []
    print (front ++ Bytes.ofNat count ++ ['\n'])
    return (0 < count, false)
  | .lines | .parts =>
    if binary then
      if 0 < count ∧ !(l.report == .parts && t.search.inverted) then
        print ("grep: ".toList ++ name ++ ": binary file matches\n".toList)
      return (0 < count, false)
    else
      let marks := shownMarks (l.context.getD (0, 0)) (found.map (·.selected))
      let width := if fromInput then 19 else (toString bytes.length).length
      let gap := if l.context.isSome ∧ shown ∧ 0 < count
        then (l.gap.map (· ++ ['\n'])).getD [] else []
      print (gap ++ l.lines t.search name width 0 false (found.zip marks))
      return (0 < count, shown || 0 < count)

def Task.searchAll (t : Task) (several : Bool) : List Searched → Tally → Job Tally
  | [], tally => return tally
  | file :: more, tally => do
    let isInput := file.path == ['-'] && !file.inFolder
    let name := if isInput then t.inputName else file.name
    let content ← if isInput then Except.ok <$> takeInput else contentOf file.path
    match content with
    | .error e =>
      if !t.silent then complain (name ++ ": ".toList ++ reasonOf e)
      t.searchAll several more { tally with failed := true }
    | .ok bytes =>
      let named := t.names.getD (several || file.inFolder)
      let (selected, shown) ← t.searchBytes name isInput named tally.shown bytes
      let tally : Tally := ⟨tally.selected || selected, tally.failed, shown⟩
      if t.layout.report = .nothing ∧ selected then return tally
      else t.searchAll several more tally

/-! ## Running -/

/-- What is said behind complaints about options. -/
def searchUsage : String :=
  "Usage: grep [OPTION]... PATTERNS [FILE]...\nTry 'grep --help' for more information.\n"

/-- The options; those without a letter have keys that are no bytes. -/
def searchOptions : List Known :=
  [letter 'G' ["basic-regexp"], letter 'E' ["extended-regexp"],
    letter 'F' ["fixed-regexp", "fixed-strings"], letter 'P' ["perl-regexp"],
    valued 'A' ["after-context"], valued 'B' ["before-context"], valued 'κ' ["binary-files"],
    letter 'λ' ["line-buffered"], letter 'b' ["byte-offset"], valued 'C' ["context"],
    ⟨'φ', ["color", "colour"], .sometimes⟩, letter 'c' ["count"], valued 'D' ["devices"],
    valued 'd' ["directories"], valued 'f' ["file"], letter 'l' ["files-with-matches"],
    letter 'L' ["files-without-match"], valued 'γ' ["group-separator"],
    letter 'i' ["ignore-case"], letter 'ι' ["no-ignore-case"], letter 'y',
    letter 'T' ["initial-tab"],
    valued 'ε' ["label"], letter 'n' ["line-number"], letter 'x' ["line-regexp"],
    valued 'm' ["max-count"], letter 'h' ["no-filename"], letter 'ν' ["no-group-separator"],
    letter 's' ["no-messages"], letter 'Z' ["null"], letter 'z' ["null-data"],
    letter 'o' ["only-matching"], letter 'q' ["quiet", "silent"], letter 'r' ["recursive"],
    letter 'R' ["dereference-recursive"], valued 'e' ["regexp"], letter 'v' ["invert-match"],
    letter 'a' ["text"], letter 'I', letter 'U' ["binary"], letter 'H' ["with-filename"],
    letter 'w' ["word-regexp"]]
    ++ "0123456789".toList.map (letter ·)

def readSoughts (n : Spelling) (texts : List Bytes) : Job (List Regex) :=
  texts.mapM fun text =>
    match n with
    | .literal => return Regex.ofPlain text
    | n => do
      match Regex.ofBytesReporting ⟨n == .extended, false, true⟩ text with
      | .error f => fail f.message.toList 2
      | .ok (r, idle) =>
        idle.forM fun c =>
          let sign := if c = '\x7b' then "\x7b...\x7d".toList else [c]
          complain ("warning: ".toList ++ sign ++ " at start of expression".toList)
        if text.length > 3 ∧ text.take 2 = ['[', ':']
          ∧ text.drop (text.length - 2) = [':', ']'] then
          fail "character class syntax is [[:space:]], not [:space:]".toList 2
        return r

/-- A number of lines around selected ones. -/
def contextCount (g : Given) (key : Char) : Job (Option Nat) := do
  match g.last? key with
  | none => return none
  | some text =>
    match Bytes.natural? text with
    | some n => return some n
    | none => fail (text ++ ": invalid context length argument".toList) 2

/-- Searches files for lines; `front` holds arguments before those of the call. -/
def grep (front : List Bytes) : Job Unit := do
  modify fun p =>
    { p with
      call := { p.call with args := front ++ p.call.args }
      hint := some searchUsage.toList }
  let g ← given ⟨searchOptions, true, 2⟩
  let chosen := (g.options.map (·.1)).filter "EFGP".toList.contains
  let n : Spelling := match chosen.getLast? with
    | some 'F' => .literal
    | some 'E' | some 'P' => .extended
    | _ => .simple
  if 1 < chosen.eraseDups.length then
    fail "conflicting matchers specified".toList 2
  let most ← match g.last? 'm' with
    | none => pure none
    | some ('-' :: text) =>
      if (Bytes.natural? text).isSome then pure none else fail "invalid max count".toList 2
    | some text =>
      match Bytes.natural? text with
      | some n => pure (some n)
      | none => fail "invalid max count".toList 2
  let digits := (g.options.map (·.1)).filter Char.isDigit
  let around ← contextCount g 'C'
  let around := around.or (Bytes.natural? digits)
  let before := (← contextCount g 'B').or around
  let behind := (← contextCount g 'A').or around
  let asked := g.options.filter fun o => o.1 == 'e' || o.1 == 'f'
  let (texts, operands) ←
    if asked.isEmpty then
      match g.operands with
      | [] =>
        warn searchUsage.toList
        stop 2
      | text :: more => pure (Text.split '\n' text, more)
    else
      let texts ← asked.mapM fun (key, text) => do
        if key = 'e' then return Text.split '\n' text
        else
          match ← if text = ['-'] then Except.ok <$> takeInput else contentOf text with
          | .ok bytes => return Bytes.lines bytes
          | .error e => fail (text ++ ": ".toList ++ reasonOf e) 2
      pure (texts.flatten, g.operands)
  let rs ← readSoughts n texts
  let one := Regex.anyOf rs
  let sought : Regex :=
    if g.has 'x' then .both .textStart (.both one .textEnd)
    else if g.has 'w' then .both .noWordBefore (.both one .noWordBehind)
    else one
  let kind := g.last? 'κ'
  let lastFolds := (g.options.map (·.1)).filter fun c => c == 'i' || c == 'y' || c == 'ι'
  let folders : Folders ←
    match (g.options.filter fun o => o.1 == 'd' || o.1 == 'r' || o.1 == 'R').getLast? with
    | none => pure .read
    | some ('d', text) =>
      match String.ofList text with
      | "read" => pure .read
      | "recurse" => pure .enter
      | "skip" => pure .skip
      | _ =>
        complain ("invalid argument ".toList ++ quoted text ++ " for '--directories'".toList)
        warn "Valid arguments are:\n  - 'read'\n  - 'recurse'\n  - 'skip'\n".toList
        warn searchUsage.toList
        stop 1
    | some _ => pure .enter
  let lastName := ((g.options.map (·.1)).filter fun c => c == 'h' || c == 'H').getLast?
  let lastList := ((g.options.map (·.1)).filter fun c => c == 'l' || c == 'L').getLast?
  let report : Report :=
    if g.has 'q' then .nothing
    else
      match lastList with
      | some 'l' => .name true
      | some _ => .name false
      | none => if g.has 'c' then .count else if g.has 'o' then .parts else .lines
  let ending := if g.has 'z' then '\x00' else '\n'
  let lastGap := (g.options.filter fun o => o.1 == 'γ' || o.1 == 'ν').getLast?
  let t : Task :=
    { search :=
        { sought := sought, mode := ⟨lastFolds.getLast?.any (· != 'ι'), false⟩,
          inverted := g.has 'v', most := most, ending := ending }
      layout :=
        { report := report, named := false, numbered := g.has 'n', offsets := g.has 'b'
          aligned := g.has 'T', zeroed := g.has 'Z'
          context := if before.isSome ∨ behind.isSome
            then some (before.getD 0, behind.getD 0) else none
          gap := match lastGap with
            | some ('γ', text) => some text
            | some _ => none
            | none => some ['-', '-']
          ending := ending }
      folders := folders, silent := g.has 's', names := lastName.map (· == 'H')
      asText := g.has 'a' || kind == some "text".toList
      textOnly := g.has 'I' || kind == some "without-match".toList
      inputName := (g.last? 'ε').getD "(standard input)".toList }
  if most = some 0 then stop 1
  let files := (← get).files
  let searched :=
    match operands, folders with
    | [], .enter => (filesBelow files files.start).map fun p => ⟨p, p, true⟩
    | [], _ => [⟨['-'], ['-'], false⟩]
    | paths, folders =>
      paths.flatMap fun p =>
        if p = ['-'] then [⟨p, p, false⟩] else searchedAt files folders p
  let tally ← t.searchAll (1 < operands.length) searched ⟨false, false, false⟩
  if tally.failed ∧ !(tally.selected && report == .nothing) then stop 2
  else if !tally.selected then stop 1

end PlanConstraints.Tool

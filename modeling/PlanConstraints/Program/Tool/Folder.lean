import PlanConstraints.File.Tree
import PlanConstraints.Program.Tool.Name
import PlanConstraints.Program.Tool.Show

set_option autoImplicit false

/-!
# Tools: files and folders

Files and folders are made, removed, copied, moved and listed.  What is removed or copied is taken
together with all that lies in it.
-/

namespace PlanConstraints

namespace FileTree

/-- The entries in a folder and in the folders in it, with the names on the way to each. -/
def below (t : FileTree) (a : Address) : List (Address × Entry) :=
  t.entries.filterMap fun (address, e) =>
    if a.isPrefixOf address ∧ a.length < address.length
      then some (address.drop a.length, e) else none

def children (t : FileTree) (a : Address) : List (List Char × Entry) :=
  (t.below a).filterMap fun (address, e) =>
    match address with
    | [name] => some (name, e)
    | _ => none

def remove (t : FileTree) (a : Address) : FileTree :=
  { t with entries := t.entries.filter fun e => !a.isPrefixOf e.1 }

/-- Puts what is at an address, and all that lies below it, at another one as well. -/
def copy (t : FileTree) (a b : Address) : FileTree :=
  let own : List (Address × Entry) := (t.get? a).toList.map fun e => (b, e)
  let inner : List (Address × Entry) := (t.below a).map fun (address, e) => (b ++ address, e)
  (own ++ inner).foldl (fun t entry => t.setEntry entry.1 entry.2) t

end FileTree

namespace Tool

def shownPath (path : Bytes) : Bytes := quoted path

def targetOf (path : Bytes) : Job (Except FileError FileTree.Target) := do
  return (← get).files.resolve (.ofText path.text)

def entryOf (path : Bytes) : Job (Except FileError (Address × Entry)) := do
  match ← targetOf path with
  | .ok (.found a e) => return .ok (a, e)
  | .ok (.absent _) => return .error .notFound
  | .error e => return .error e

def changeFiles (change : FileTree → FileTree) : Job Unit :=
  modify fun p => { p with files := change p.files }

/-! ## Making -/

/-- The paths of the folders on the way to a folder, and its own, from the outermost one on. -/
def pathsTo (path : Bytes) : List Bytes :=
  let pieces := Text.split '/' (withoutSlashes path)
  (List.range pieces.length).filterMap fun i =>
    let front := Bytes.joined ['/'] (pieces.take (i + 1))
    if front = [] then none else some front

/-- Makes a folder; those it lies in may be made, too. -/
def makeFolderAt (parents verbose : Bool) (path : Bytes) : Job Unit := do
  let make (path : Bytes) : Job (Option FileError) := do
    match (← get).files.makeFolder (.ofText path.text) with
    | .ok files =>
      changeFiles fun _ => files
      if verbose then
        print ((← get).call.name ++ ": created directory ".toList ++ shownPath path ++ ['\n'])
      return none
    | .error e => return some e
  let rec makeAll : List Bytes → Job Unit
    | [] => return
    | path :: more => do
      match ← entryOf path with
      | .ok (_, .folder) => makeAll more
      | .ok _ =>
        let reason : FileError := if more = [] then .alreadyExists else .notAFolder
        failOn
          ("cannot create directory ".toList ++ shownPath path ++ ": ".toList ++ reasonOf reason)
      | .error _ =>
        match ← make path with
        | none => makeAll more
        | some e =>
          failOn ("cannot create directory ".toList ++ shownPath path ++ ": ".toList ++ reasonOf e)
  if parents && path ≠ [] then makeAll (pathsTo path)
  else
    match ← make path with
    | none => pure ()
    | some e =>
      failOn ("cannot create directory ".toList ++ shownPath path ++ ": ".toList ++ reasonOf e)

def mkdir : Job Unit := do
  let g ← given ⟨[letter 'p' ["parents"], letter 'v' ["verbose"], valued 'm' ["mode"]], true, 1⟩
  if g.operands.isEmpty then refuse "missing operand".toList
  g.operands.forM (makeFolderAt (g.has 'p') (g.has 'v'))

def touch : Job Unit := do
  let g ← given ⟨[letter 'a', letter 'm', letter 'c' ["no-create"], letter 'f',
    letter 'h' ["no-dereference"], valued 'd' ["date"], valued 'r' ["reference"], valued 't',
    valued 'τ' ["time"]], true, 1⟩
  if g.operands.isEmpty then refuse "missing file operand".toList
  for path in g.operands do
    match ← targetOf path with
    | .ok (.found _ _) => pure ()
    | found =>
      if g.has 'c' then pure ()
      else
        match ← writeFile path [] true with
        | .ok () => pure ()
        | .error e =>
          if path.getLast? = some '/' ∧ !(found matches .error .notAFolder) then
            failOn ("setting times of ".toList
              ++ shownPath path ++ ": No such file or directory".toList)
          else failOn ("cannot touch ".toList ++ shownPath path ++ ": ".toList ++ reasonOf e)

def tee : Job Unit := do
  let g ← given ⟨[letter 'a' ["append"], letter 'i' ["ignore-interrupts"], letter 'p'], true, 1⟩
  let paths ← g.operands.filterMapM fun path => do
    match ← writeFile path [] true with
    | .ok () => return some path
    | .error e =>
      failOn (fileName path ++ ": ".toList ++ reasonOf e)
      return none
  let bytes ← takeInput
  print bytes
  for path in paths do
    match ← writeFile path bytes (g.has 'a') with
    | .ok () => pure ()
    | .error e => failOn (fileName path ++ ": ".toList ++ reasonOf e)

/-! ## Removing -/

def removeFolder (verbose : Bool) (path : Bytes) : Job Bool := do
  if verbose then print ("rmdir: removing directory, ".toList ++ shownPath path ++ ['\n'])
  let reason? : Option Bytes ← do
    match ← entryOf path with
    | .error e => pure (some (reasonOf e))
    | .ok (a, .folder) =>
      if !((← get).files.below a).isEmpty then pure (some "Directory not empty".toList)
      else
        changeFiles (·.remove a)
        pure none
    | .ok _ => pure (some (reasonOf .notAFolder))
  match reason? with
  | none => return true
  | some reason =>
    failOn ("failed to remove ".toList ++ shownPath path ++ ": ".toList ++ reason)
    return false

def rmdir : Job Unit := do
  let g ← given
    ⟨[letter 'p' ["parents"], letter 'v' ["verbose"], letter 'ι' ["ignore-fail-on-non-empty"]],
    true, 1⟩
  if g.operands.isEmpty then refuse "missing operand".toList
  let rec removeAll : List Bytes → Job Unit
    | [] => return
    | path :: more => do
      if ← removeFolder (g.has 'v') path then removeAll more
  for path in g.operands do
    let kept ← entryOf path
    let files := (← get).files
    let isFull := match kept with
      | .ok (a, .folder) => !(files.below a).isEmpty
      | _ => false
    if g.has 'ι' && isFull then pure ()
    else if g.has 'p' then removeAll (pathsTo path).reverse
    else
      let _ ← removeFolder (g.has 'v') path

/-- The paths of what lies in a folder, the innermost first, each with the mark of a folder. -/
def pathsInside (files : FileTree) (path : Bytes) : Nat → Address → List (Bytes × Bool)
  | 0, _ => []
  | bound + 1, a =>
    (files.children a).flatMap fun (name, e) =>
      let inner := withoutSlashes path ++ '/' :: Bytes.ofText (String.ofList name)
      (if e = .folder then pathsInside files inner bound (a ++ [name]) else [])
        ++ [(inner, e == .folder)]

/-- Removes a file, or a folder with all it holds. -/
def removeAt (whole folders force verbose : Bool) (path : Bytes) : Job Unit := do
  let complainOf (reason : Bytes) : Job Unit :=
    failOn ("cannot remove ".toList ++ shownPath path ++ ": ".toList ++ reason)
  let sayRemoved (path : Bytes) (isFolder : Bool) : Job Unit := do
    if verbose then
      print ((if isFolder then "removed directory ".toList else "removed ".toList) ++ shownPath path
        ++ ['\n'])
  match ← entryOf path with
  | .error e =>
    if force ∧ (e = .notFound ∧ path ≠ [] ∨ e = .notAFolder ∨ path = []) then pure ()
    else complainOf (reasonOf e)
  | .ok (a, .folder) =>
    if !whole && !folders then complainOf (reasonOf .isAFolder)
    else if lastName path = ['.'] ∨ lastName path = ['.', '.'] then
      failOn ("refusing to remove '.' or '..' directory: skipping ".toList ++ shownPath path)
    else if a = [] then
      complain ("it is dangerous to operate recursively on ".toList ++ shownPath path
        ++ (if path = ['/'] then [] else " (same as '/')".toList))
      failOn "use --no-preserve-root to override this failsafe".toList
    else
      let files := (← get).files
      if !whole && !(files.below a).isEmpty then complainOf "Directory not empty".toList
      else
        for (inner, isFolder) in pathsInside files path files.entries.length a do
          sayRemoved inner isFolder
        sayRemoved path true
        changeFiles (·.remove a)
  | .ok (a, _) =>
    sayRemoved path false
    changeFiles (·.remove a)

def rm : Job Unit := do
  let g ← given ⟨[letter 'r' ["recursive"], letter 'R', letter 'd' ["dir"], letter 'f' ["force"],
    letter 'v' ["verbose"], letter 'i', letter 'I', letter 'π' ["preserve-root"],
    letter 'ο' ["one-file-system"]], true, 1⟩
  if g.operands.isEmpty ∧ !g.has 'f' then refuse "missing operand".toList
  g.operands.forM (removeAt (g.has 'r' || g.has 'R') (g.has 'd') (g.has 'f') (g.has 'v'))

/-! ## Copying and moving -/

/-- How files are carried to another place. -/
structure Carrying where
  /-- The files leave their old places. -/
  moves : Bool
  /-- Folders are copied with all they hold. -/
  whole : Bool
  verbose : Bool
  /-- Files that exist are kept. -/
  keeps : Bool

def carryTo (c : Carrying) (source target : Bytes) : Job Unit := do
  let quote := shownPath
  match ← entryOf source with
  | .error e => failOn ("cannot stat ".toList ++ quote source ++ ": ".toList ++ reasonOf e)
  | .ok (a, e) =>
    let isFolder := e == .folder
    if isFolder && !c.whole then
      failOn ("-r not specified; omitting directory ".toList ++ quote source)
    else if c.moves ∧ isFolder ∧ (lastName source = ['.'] ∨ lastName source = ['.', '.']) then
      failOn ("cannot move ".toList ++ quote source ++ " to ".toList ++ quote target
        ++ ": Device or resource busy".toList)
    else
      let said := if c.moves then "renamed ".toList else []
      let finish (b : Address) : Job Unit := do
        if c.verbose then print (said ++ quote source ++ " -> ".toList ++ quote target ++ ['\n'])
        if c.moves then changeFiles fun t => (t.copy a b).remove a
        else if isFolder then changeFiles (·.copy a b)
        else
          let bytes : List UInt8 := (e.bytes?).getD []
          let _ ← writeFile target (.ofList bytes) false
      match ← targetOf target with
      | .ok (.found b old) =>
        if a = b ∧ !isFolder then
          failOn (quote source ++ " and ".toList ++ quote target ++ " are the same file".toList)
        else if isFolder ∧ a.isPrefixOf b then
          if c.moves then
            failOn ("cannot move ".toList ++ quote source ++ " to a subdirectory of itself, ".toList
              ++ quote target)
          else
            failOn ("cannot copy a directory, ".toList ++ quote source ++ ", into itself, ".toList
              ++ quote target)
        else if isFolder ∧ old ≠ .folder then
          failOn
            ("cannot overwrite non-directory ".toList ++ quote target ++ " with directory ".toList
            ++ quote source)
        else if !isFolder ∧ old = .folder then
          failOn
            ("cannot overwrite directory ".toList ++ quote target ++ " with non-directory".toList)
        else if c.keeps then
          if c.moves then failOn ("not replacing ".toList ++ quote target)
        else if c.moves ∧ isFolder ∧ !((← get).files.below b).isEmpty then
          failOn ("cannot overwrite ".toList ++ quote target ++ ": Directory not empty".toList)
        else finish b
      | .ok (.absent b) =>
        if isFolder ∧ a.isPrefixOf b then
          if c.moves then
            failOn ("cannot move ".toList ++ quote source ++ " to a subdirectory of itself, ".toList
              ++ quote target)
          else
            failOn ("cannot copy a directory, ".toList ++ quote source ++ ", into itself, ".toList
              ++ quote target)
        else finish b
      | .error err =>
        let err := if target.getLast? = some '/' ∧ !isFolder ∧ err = .notFound
          ∧ ((← get).files.resolve (.ofText (withoutSlashes target).text)) matches .ok _ then
            .notAFolder
          else err
        if c.moves then
          failOn
            ("cannot move ".toList ++ quote source ++ " to ".toList ++ quote target ++ ": ".toList
            ++ reasonOf err)
        else
          failOn ((if isFolder then "cannot create directory ".toList
            else "cannot create regular file ".toList)
              ++ quote target ++ ": ".toList ++ reasonOf err)

def carry (c : Carrying) (folder? : Option Bytes)
    (single : Bool) (operands : List Bytes) : Job Unit := do
  let inside (folder source : Bytes) : Bytes :=
    let name := lastName source
    let front := if folder.getLast? = some '/' then folder else folder ++ ['/']
    if name = ['.'] then folder else front ++ name
  match folder?, operands.reverse with
  | _, [] => refuse "missing file operand".toList
  | some folder, _ =>
    match ← entryOf folder with
    | .ok (_, .folder) => operands.forM fun s => carryTo c s (inside folder s)
    | .ok _ => fail ("target ".toList ++ shownPath folder ++ ": Not a directory".toList)
    | .error e => fail ("target ".toList ++ shownPath folder ++ ": ".toList ++ reasonOf e)
  | none, [source] => refuse ("missing destination file operand after ".toList ++ shownPath source)
  | none, target :: sources =>
    match ← entryOf target, sources with
    | .ok (_, .folder), sources =>
      if single then sources.reverse.forM fun s => carryTo c s target
      else sources.reverse.forM fun s => carryTo c s (inside target s)
    | _, [source] => carryTo c source target
    | .ok _, _ => fail ("target ".toList ++ shownPath target ++ ": Not a directory".toList)
    | .error e, _ => fail ("target ".toList ++ shownPath target ++ ": ".toList ++ reasonOf e)

def cp : Job Unit := do
  let g ← given ⟨[letter 'a' ["archive"], letter 'r' ["recursive"], letter 'R',
    letter 'f' ["force"], letter 'i' ["interactive"], letter 'n' ["no-clobber"], letter 'p',
    letter 'v' ["verbose"], letter 'u', letter 'd', letter 'L', letter 'P', letter 'H',
    valued 't' ["target-directory"], letter 'T' ["no-target-directory"]], true, 1⟩
  carry ⟨false, g.has 'a' || g.has 'r' || g.has 'R', g.has 'v', g.has 'n'⟩ (g.last? 't') (g.has 'T')
    g.operands

def mv : Job Unit := do
  let g ← given ⟨[letter 'f' ["force"], letter 'i' ["interactive"], letter 'n' ["no-clobber"],
    letter 'v' ["verbose"], letter 'u', valued 't' ["target-directory"],
    letter 'T' ["no-target-directory"]], true, 1⟩
  carry ⟨true, true, g.has 'v', g.has 'n'⟩ (g.last? 't') (g.has 'T') g.operands

/-! ## Listing -/

/-- How names are listed. -/
structure Listing where
  /-- Names that start with a point are listed, and those of the folder itself and of the one it
  lies in. -/
  hidden : Bool
  here : Bool
  backward : Bool
  /-- Folders are marked. -/
  marked : Bool
  /-- Names stand in one line with this between them. -/
  between : Option Bytes

def Listing.ordered (l : Listing) (names : List (Bytes × Bool)) : List (Bytes × Bool) :=
  let sorted := names.mergeSort fun a b => !Bytes.isBefore b.1 a.1
  if l.backward then sorted.reverse else sorted

def Listing.text (l : Listing) (names : List (Bytes × Bool)) : Bytes :=
  let shown := names.map fun (name, isFolder) =>
    if l.marked && isFolder then name ++ ['/'] else name
  match l.between with
  | none => Bytes.unlines shown
  | some between => if shown.isEmpty then [] else Bytes.joined between shown ++ ['\n']

def Listing.folder (l : Listing) (files : FileTree) (a : Address) : List (Bytes × Bool) :=
  let names : List (Bytes × Bool) := (files.children a).map fun (name, e) =>
    (.ofText (String.ofList name), e == .folder)
  let visible := names.filter fun (name, _) => l.hidden || l.here || name.head? != some '.'
  l.ordered (if l.here then [(['.'], true), (['.', '.'], true)] ++ visible else visible)

/-- A folder and those in it as they are listed, each behind its path. -/
def Listing.tree (l : Listing) (files : FileTree) : Nat → Bytes → Address → List Bytes
  | 0, _, _ => []
  | bound + 1, path, a =>
    let names := l.folder files a
    (path ++ ":\n".toList ++ l.text names)
      :: names.flatMap fun (name, isFolder) =>
        if isFolder ∧ name ≠ ['.'] ∧ name ≠ ['.', '.'] then
          l.tree files bound (path ++ '/' :: name) (a ++ [name.text.toList])
        else []

def ls : Job Unit := do
  let g ← given ⟨[letter 'a' ["all"], letter 'A' ["almost-all"], letter '1',
    letter 'd' ["directory"], letter 'r' ["reverse"], letter 'R' ["recursive"], letter 'p',
    letter 'F', letter 'm', letter 'C', letter 'x', letter 'l', letter 'h' ["human-readable"],
    letter 't', letter 'S', letter 'U', letter 'i', letter 's', letter 'k', letter 'n', letter 'o',
    letter 'g', letter 'G', letter 'q', letter 'b', letter 'c', letter 'u', letter 'L', letter 'H',
    letter 'f', letter 'N', letter 'v', letter 'X', ⟨'γ', ["color"], .sometimes⟩], true, 2⟩
  let l : Listing :=
    { hidden := g.has 'A', here := g.has 'a', backward := g.has 'r',
      marked := g.has 'p' || g.has 'F',
      between := if g.has 'm' then some [',', ' ']
        else if g.has 'C' || g.has 'x' then some [' ', ' '] else none }
  let operands := if g.operands.isEmpty then [['.']] else g.operands
  let found ← operands.filterMapM fun path => do
    match ← entryOf path with
    | .ok (a, e) => return some (path, a, e == .folder && !g.has 'd', e == .folder)
    | .error e =>
      complain ("cannot access ".toList ++ shownPath path ++ ": ".toList ++ reasonOf e)
      note 2
      return none
  let files := (← get).files
  let singles := found.filterMap fun (path, _, listed, isFolder) =>
    if listed then none else some (path, isFolder)
  let folders := found.filterMap fun (path, a, listed, _) => if listed then some (path, a) else none
  let order := l.ordered (folders.map fun (path, _) => (path, true))
  let sections := order.flatMap fun (path, _) =>
    match folders.lookup path with
    | none => []
    | some a =>
      if g.has 'R' then l.tree files files.entries.length path a
      else if 1 < operands.length then [path ++ ":\n".toList ++ l.text (l.folder files a)]
      else [l.text (l.folder files a)]
  let first := if singles.isEmpty then [] else [l.text (l.ordered singles)]
  print (Bytes.joined ['\n'] (first ++ sections))

end Tool

end PlanConstraints

import PlanConstraints.Text.Split

set_option autoImplicit false

/-!
# Files: paths

The text of a path names the folders on the way to a file, with slashes between them.  A path is
taken apart here without looking at any file.  The text is kept as it was written, since it is shown
in errors; only at the end of a path do pieces without meaning (an empty one, or a dot that is not
the whole path) not count.

Main statements: a path is written as it was read, and the folder of a path has fewer pieces than
the path.
-/

namespace PlanConstraints

/-- A path, taken apart at its slashes. -/
structure Path where
  /-- The path starts with a slash. -/
  absolute : Bool
  /-- What stands between the slashes behind the first one of an absolute path. -/
  pieces : List (List Char)
  deriving DecidableEq

namespace Path

def ofChars : List Char → Path
  | [] => ⟨false, []⟩
  | c :: cs =>
    if c = '/' then ⟨true, Text.split '/' cs⟩ else ⟨false, Text.split '/' (c :: cs)⟩

def ofText (text : String) : Path := ofChars text.toList

def chars (p : Path) : List Char :=
  if p.absolute then '/' :: Text.join '/' p.pieces else Text.join '/' p.pieces

def text (p : Path) : String := String.ofList p.chars

/-! ## Folders and names -/

def here : List Char := ['.']

/-- The folder above. -/
def above : List Char := ['.', '.']

/-- A piece leads to another file or folder. -/
def isStep (piece : List Char) : Bool := piece != [] && piece != here

/-- The pieces without those at the end that lead nowhere. -/
def dropIdle : List (List Char) → List (List Char)
  | [] => []
  | piece :: more =>
    match dropIdle more with
    | [] => if isStep piece then [piece] else []
    | next :: rest => piece :: next :: rest

theorem length_dropIdle_le (pieces : List (List Char)) :
    (dropIdle pieces).length ≤ pieces.length := by
  induction pieces with
  | nil => simp [dropIdle]
  | cons piece more ih =>
    unfold dropIdle
    split
    · split <;> simp
    · next h => rw [h] at ih; simp only [List.length_cons] at *; omega

/-- The path without what leads nowhere at its end.  A dot that starts a path that is not absolute
stays: it says where the path starts. -/
def trimEnd (p : Path) : Path :=
  match p.absolute, p.pieces with
  | false, piece :: more =>
    if piece = here then ⟨false, piece :: dropIdle more⟩ else ⟨false, dropIdle (piece :: more)⟩
  | absolute, pieces => ⟨absolute, dropIdle pieces⟩

theorem length_trimEnd_le (p : Path) : p.trimEnd.pieces.length ≤ p.pieces.length := by
  unfold trimEnd
  split
  · next h =>
    rw [h]
    split
    · simpa using length_dropIdle_le _
    · exact length_dropIdle_le _
  · exact length_dropIdle_le _

/-- The name of the file that the path leads to, unless the path ends in a folder above or has no
piece with a name. -/
def fileName? (p : Path) : Option String :=
  match p.trimEnd.pieces.getLast? with
  | none => none
  | some name => if name = here ∨ name = above then none else some (String.ofList name)

/-- The path without its last piece, unless it has none. -/
def folder? (p : Path) : Option Path :=
  match p.trimEnd with
  | ⟨_, []⟩ => none
  | ⟨absolute, piece :: more⟩ => some (trimEnd ⟨absolute, (piece :: more).dropLast⟩)

theorem length_folder?_lt {p q : Path} (h : p.folder? = some q) :
    q.pieces.length < p.pieces.length := by
  unfold folder? at h
  have hp := length_trimEnd_le p
  split at h
  · cases h
  · next absolute piece more hm =>
    cases h
    have hq := length_trimEnd_le ⟨absolute, (piece :: more).dropLast⟩
    rw [hm] at hp
    simp only [List.length_dropLast, List.length_cons] at *
    omega

/-- The path followed by the folders that contain it, from the innermost on. -/
def folders (p : Path) : List Path :=
  match _h : p.folder? with
  | none => [p]
  | some q => p :: q.folders
termination_by p.pieces.length
decreasing_by exact length_folder?_lt _h

/-- The text of a path from a folder on; an absolute path does not depend on the folder. -/
def inFolder (folder name : String) : String :=
  if name.toList.head? = some '/' then name
  else
    match folder.toList.getLast? with
    | none => name
    | some '/' => folder ++ name
    | some _ => folder ++ "/" ++ name

end Path

end PlanConstraints

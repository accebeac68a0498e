import PlanConstraints.File.Path
import PlanConstraints.Text.Blank
import PlanConstraints.Text.Utf8

set_option autoImplicit false

/-!
# Files: trees of files and folders

A file is known by its address, the names on the way to it from the root.  Paths are followed piece
by piece from the root or from the folder in which the program runs; every piece needs a folder to
start from, even one that leads nowhere.

Some paths lead to devices, which store nothing, and to programs.

Main statement: what was written to a path is read from it, unless it leads to a device.
-/

namespace PlanConstraints

/-- The names from the root to a file or folder. -/
abbrev Address := List (List Char)

/-- What can be written to, but stores nothing. -/
inductive Device where
  /-- Takes everything. -/
  | null
  /-- Takes nothing. -/
  | full
  /-- The stream of a number, with the bytes that it has taken. -/
  | stream (number : Nat) (taken : List UInt8)
  deriving DecidableEq

/-- What is found at an address. -/
inductive Entry where
  | folder
  | text (content : String)
  /-- A file whose bytes are not a text. -/
  | bytes (content : List UInt8)
  | device (d : Device)
  /-- A file that can be run, known by the name of its program. -/
  | program (name : String)
  deriving DecidableEq

def Entry.ofBytes (bytes : List UInt8) : Entry :=
  match Text.decode bytes with
  | .ok cs => .text (String.ofList cs)
  | .error _ => .bytes bytes

/-- The bytes that are read from an entry, unless it is a folder. -/
def Entry.bytes? : Entry → Option (List UInt8)
  | folder => none
  | text content => some (Text.encode content.toList)
  | bytes content => some content
  | device _ => some []
  | program name => some (Text.encode name.toList)

/-- Files and folders.  The root is a folder and needs no entry. -/
structure FileTree where
  entries : List (Address × Entry)
  /-- The folder in which relative paths start. -/
  start : Address
  deriving DecidableEq

/-- Causes for which a path cannot be used. -/
inductive FileError where
  | notFound
  | alreadyExists
  | notAFolder
  | isAFolder
  | nameTooLong
  | notText
  | zeroByte
  | noSpace
  deriving DecidableEq, Repr

def FileError.message : FileError → String
  | notFound => "No such file or directory (os error 2)"
  | alreadyExists => "File exists (os error 17)"
  | notAFolder => "Not a directory (os error 20)"
  | isAFolder => "Is a directory (os error 21)"
  | nameTooLong => "File name too long (os error 36)"
  | notText => "stream did not contain valid UTF-8"
  | zeroByte => "file name contained an unexpected NUL byte"
  | noSpace => "No space left on device (os error 28)"

namespace FileTree

/-- A single folder in which paths start. -/
def empty : FileTree := ⟨[], []⟩

def get? (t : FileTree) (address : Address) : Option Entry :=
  if address = [] then some .folder else t.entries.lookup address

/-- Puts an entry in the place of the one with the same address, or behind all others. -/
def replaceEntry (address : Address) (e : Entry) : List (Address × Entry) → List (Address × Entry)
  | [] => [(address, e)]
  | (a, old) :: more =>
    if a = address then (a, e) :: more else (a, old) :: replaceEntry address e more

def setEntry (t : FileTree) (address : Address) (e : Entry) : FileTree :=
  { t with entries := replaceEntry address e t.entries }

/-! ## Following a path -/

/-- Names from this length in bytes on are refused. -/
def nameLimit : Nat := 256

/-- Paths from this length in bytes on are refused. -/
def pathLimit : Nat := 4096

/-- Where a path leads. -/
inductive Target where
  | found (address : Address) (e : Entry)
  /-- Only the last name is missing from a folder that exists. -/
  | absent (address : Address)
  deriving DecidableEq

def Target.address : Target → Address
  | found address _ => address
  | absent address => address

def Target.get? : Target → Option Entry
  | found _ e => some e
  | absent _ => none

def follow (t : FileTree) (address : Address) : List (List Char) → Except FileError Target
  | [] =>
    match t.get? address with
    | some e => .ok (.found address e)
    | none => .error .notFound
  | piece :: more =>
    match t.get? address with
    | some .folder =>
      if !Path.isStep piece then t.follow address more
      else if piece = Path.above then t.follow address.dropLast more
      else if nameLimit ≤ Text.byteLength piece then .error .nameTooLong
      else
        match t.get? (address ++ [piece]) with
        | some _ => t.follow (address ++ [piece]) more
        | none => if more = [] then .ok (.absent (address ++ [piece])) else .error .notFound
    | some _ => .error .notAFolder
    | none => .error .notFound

def startOf (t : FileTree) (p : Path) : Address := if p.absolute then [] else t.start

/-- The path without the slashes at its end, and whether it had any. -/
def withoutSlashes (p : Path) : Path × Bool :=
  let pieces := (p.pieces.reverse.dropWhile List.isEmpty).reverse
  (⟨p.absolute, pieces⟩, pieces.length < p.pieces.length)

/-- Why a text cannot be a path, if it cannot. -/
def refused? (p : Path) : Option FileError :=
  if '\x00' ∈ p.chars then some .zeroByte
  else if p.chars = [] then some .notFound
  else if pathLimit ≤ Text.byteLength p.chars then some .nameTooLong
  else none

def resolve (t : FileTree) (p : Path) : Except FileError Target :=
  match refused? p with
  | some e => .error e
  | none => t.follow (t.startOf p) p.pieces

/-! ## Reading -/

def contains (t : FileTree) (path : String) : Bool :=
  match t.resolve (.ofText path) with
  | .ok (.found _ _) => true
  | _ => false

def isFolder (t : FileTree) (p : Path) : Bool :=
  match t.resolve p with
  | .ok (.found _ .folder) => true
  | _ => false

def read (t : FileTree) (path : String) : Except FileError String :=
  match t.resolve (.ofText path) with
  | .error e => .error e
  | .ok (.absent _) => .error .notFound
  | .ok (.found _ .folder) => .error .isAFolder
  | .ok (.found _ (.bytes _)) | .ok (.found _ (.program _)) => .error .notText
  | .ok (.found _ (.device _)) => .ok ""
  | .ok (.found _ (.text content)) => .ok content

/-! ## Writing -/

/-- Where a file can be put that is written under a path; a slash at the end of the path asks for a
folder. -/
def fileTarget (t : FileTree) (p : Path) : Except FileError Address :=
  match refused? p with
  | some e => .error e
  | none =>
    let (core, slash) := withoutSlashes p
    if slash then
      match t.follow (t.startOf p) core.pieces.dropLast with
      | .error e => .error e
      | .ok (.found _ .folder) => .error .isAFolder
      | .ok (.found _ _) => .error .notAFolder
      | .ok (.absent _) => .error .notFound
    else
      match t.follow (t.startOf p) p.pieces with
      | .error e => .error e
      | .ok (.found _ .folder) => .error .isAFolder
      | .ok (.found address _) => .ok address
      | .ok (.absent address) => .ok address

/-- Puts a text at an address: in the place of what a file held, or into a device. -/
def put (t : FileTree) (address : Address) (content : String) : Except FileError FileTree :=
  match t.get? address with
  | some (.device .null) => .ok t
  | some (.device .full) => if content = "" then .ok t else .error .noSpace
  | some (.device (.stream number taken)) =>
    .ok (t.setEntry address (.device (.stream number (taken ++ Text.encode content.toList))))
  | _ => .ok (t.setEntry address (.text content))

/-- Writes a text to a file, in the place of what the file held, or to a device. -/
def write (t : FileTree) (path content : String) : Except FileError FileTree :=
  match t.fileTarget (.ofText path) with
  | .error e => .error e
  | .ok address => t.put address content

def isDevice (t : FileTree) (path : String) : Bool :=
  match t.resolve (.ofText path) with
  | .ok (.found _ (.device _)) => true
  | _ => false

/-- The bytes that the stream of a number has taken. -/
def taken (t : FileTree) (number : Nat) : List UInt8 :=
  t.entries.flatMap fun (_, e) =>
    match e with
    | .device (.stream n bytes) => if n = number then bytes else []
    | _ => []

def makeFolder (t : FileTree) (p : Path) : Except FileError FileTree :=
  match refused? p with
  | some e => .error e
  | none =>
    match t.follow (t.startOf p) (withoutSlashes p).1.pieces with
    | .error e => .error e
    | .ok (.found _ _) => .error .alreadyExists
    | .ok (.absent address) => .ok (t.setEntry address .folder)

/-- Makes the first of the given folders, each of which lies in the next one, after those of the
others that are missing.  A folder that exists is not made again.  If one cannot be made, those made
before stay. -/
def makeFirst (t : FileTree) : List Path → FileTree × Option FileError
  | [] => (t, none)
  | p :: outer =>
    if p.pieces = [] ∧ ¬ p.absolute then (t, none)
    else
      match t.makeFolder p with
      | .ok t => (t, none)
      | .error .notFound =>
        match t.makeFirst outer with
        | (t, some e) => (t, some e)
        | (t, none) =>
          match t.makeFolder p with
          | .ok t => (t, none)
          | .error e => (t, if t.isFolder p then none else some e)
      | .error e => (t, if t.isFolder p then none else some e)

/-- Makes a folder and the folders it lies in, as far as they are missing. -/
def makeFolders (t : FileTree) (path : String) : FileTree × Option FileError :=
  t.makeFirst (Path.ofText path).folders

/-- Puts a file into the tree together with the folders it lies in, if that can be done. -/
def addFile (t : FileTree) (path content : String) : FileTree :=
  let t := match (Path.ofText path).folder? with
    | some folder => (t.makeFolders folder.text).1
    | none => t
  match t.write path content with
  | .ok t => t
  | .error _ => t

/-- The files of a tree that another tree lacks or has with another text, in the order of the
tree. -/
def changedSince (before t : FileTree) : List (Address × String) :=
  t.entries.filterMap fun (address, e) =>
    match e with
    | .text content => if before.get? address = some e then none else some (address, content)
    | .bytes content =>
      if before.get? address = some e then none
      else some (address, String.ofList (Text.decodeLossy content))
    | .folder | .device _ | .program _ => none

/-! ## What a new entry changes -/

theorem lookup_replaceEntry (address : Address) (e : Entry) (b : Address)
    (entries : List (Address × Entry)) :
    (replaceEntry address e entries).lookup b =
      if b = address then some e else entries.lookup b := by
  induction entries with
  | nil =>
    by_cases h : b = address
    · simp [replaceEntry, h]
    · simp [replaceEntry, List.lookup_cons, h, beq_eq_false_iff_ne.mpr h]
  | cons head more ih =>
    obtain ⟨a, old⟩ := head
    unfold replaceEntry
    by_cases ha : a = address
    · subst ha
      by_cases h : b = a
      · simp [h]
      · simp [List.lookup_cons, h, beq_eq_false_iff_ne.mpr h]
    · by_cases hb : b = a
      · subst hb
        simp [ha]
      · rw [if_neg ha]
        simp only [List.lookup_cons, beq_eq_false_iff_ne.mpr hb]
        exact ih

theorem get?_setEntry (t : FileTree) (address b : Address) (e : Entry) :
    (t.setEntry address e).get? b =
      if b = [] then some .folder else if b = address then some e else t.get? b := by
  unfold get? setEntry
  by_cases hb : b = []
  · simp [hb]
  · simp [hb, lookup_replaceEntry]

/-- The target of a path is what the tree holds at its address. -/
theorem get?_of_follow {t : FileTree} {address : Address} {pieces : List (List Char)}
    {target : Target} (h : t.follow address pieces = .ok target) :
    t.get? target.address = target.get? := by
  induction pieces generalizing address with
  | nil =>
    unfold follow at h
    split at h
    · next he => cases h; exact he
    · cases h
  | cons piece more ih =>
    unfold follow at h
    split at h
    · split at h
      · exact ih h
      · split at h
        · exact ih h
        · split at h
          · cases h
          · split at h
            · exact ih h
            · next he =>
              split at h
              · cases h; exact he
              · cases h
    · cases h
    · cases h

/-- A path leads where it led before something was put at an address without a folder. -/
theorem follow_setEntry {t : FileTree} {a : Address} {e : Entry} (ha : t.get? a ≠ some .folder)
    {address : Address} {pieces : List (List Char)} {target : Target}
    (h : t.follow address pieces = .ok target) :
    (t.setEntry a e).follow address pieces =
      .ok (if target.address = a then .found a e else target) := by
  have hne : a ≠ [] := fun hn => ha (by simp [get?, hn])
  have new : (t.setEntry a e).get? a = some e := by simp [get?_setEntry, hne]
  have kept : ∀ b, b ≠ a → (t.setEntry a e).get? b = t.get? b := by
    intro b hb
    rw [get?_setEntry, if_neg hb, ite_eq_right_iff]
    intro hroot
    simp [get?, hroot]
  have folder : ∀ b, t.get? b = some .folder → (t.setEntry a e).get? b = some .folder :=
    fun b hb => (kept b fun hba => ha (hba ▸ hb)).trans hb
  induction pieces generalizing address with
  | nil =>
    unfold follow at h
    split at h
    · next old he =>
      cases h
      by_cases hb : address = a
      · subst hb
        simp [follow, new, Target.address]
      · simp [follow, kept address hb, he, Target.address, hb]
    · cases h
  | cons piece more ih =>
    unfold follow at h ⊢
    split at h
    · next hf =>
      rw [folder address hf]
      simp only
      split at h
      · next hs => rw [if_pos hs]; exact ih h
      · next hs =>
        rw [if_neg hs]
        split at h
        · next hd => rw [if_pos hd]; exact ih h
        · next hd =>
          rw [if_neg hd]
          split at h
          · cases h
          · next hl =>
            rw [if_neg hl]
            split at h
            · next old hold =>
              have hsome : ∃ x, (t.setEntry a e).get? (address ++ [piece]) = some x := by
                by_cases hx : address ++ [piece] = a
                · exact ⟨e, hx ▸ new⟩
                · exact ⟨old, (kept _ hx).trans hold⟩
              obtain ⟨x, hx⟩ := hsome
              rw [hx]
              exact ih h
            · next hnone =>
              split at h
              · next hm =>
                cases h
                by_cases hx : address ++ [piece] = a
                · rw [← hx] at new ⊢
                  simp [new, hm, follow, Target.address]
                · simp [kept _ hx, hnone, hm, Target.address, hx]
              · cases h
    · cases h
    · cases h

/-- The target of a path for writing is no folder, and a path for reading leads there as well. -/
theorem follow_of_fileTarget {t : FileTree} {p : Path} {a : Address}
    (h : t.fileTarget p = .ok a) :
    refused? p = none ∧ t.get? a ≠ some .folder ∧
      ∃ target, t.follow (t.startOf p) p.pieces = .ok target ∧ target.address = a := by
  unfold fileTarget at h
  split at h
  · cases h
  · next hr =>
    refine ⟨hr, ?_⟩
    simp only at h
    split at h
    · split at h <;> cases h
    · split at h
      · cases h
      · cases h
      · next hnf hfollow =>
        cases h
        have he := get?_of_follow hfollow
        refine ⟨fun hc => ?_, _, hfollow, rfl⟩
        simp only [Target.address, Target.get?] at he
        rw [he] at hc
        cases hc
        exact hnf rfl
      · next hfollow =>
        cases h
        have he := get?_of_follow hfollow
        simp only [Target.address, Target.get?] at he
        exact ⟨by simp [he], _, hfollow, rfl⟩

end FileTree

end PlanConstraints

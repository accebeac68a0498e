import PlanConstraints.Program.Basic

set_option autoImplicit false

/-!
# Programs: open files

Programs that run together share the files that they have opened: what one of them reads, another
one does not read again, and what is written goes behind what was written before.  A pipe holds what
has been written to it until that is read.
-/

namespace PlanConstraints

/-- What an open file reads from and writes to. -/
inductive Medium where
  | file (address : Address)
  | folder
  | pipe
  /-- Takes everything, and holds nothing. -/
  | null
  /-- Takes nothing, and holds nothing. -/
  | full
  deriving DecidableEq

structure OpenFile where
  medium : Medium
  reads : Bool
  writes : Bool
  /-- Everything that is written goes behind the end of the file. -/
  appends : Bool
  /-- The place in the file where reading and writing go on. -/
  position : Nat
  /-- The bytes in a pipe. -/
  held : Bytes
  /-- The bytes behind those, the last ones first. -/
  late : List Bytes

/-- Files, and those that are open. -/
structure System where
  files : FileTree
  opened : Array OpenFile

namespace OpenFile

def pipe (held : Bytes) : OpenFile := ⟨.pipe, true, true, false, 0, held, []⟩

def null : OpenFile := ⟨.null, true, true, false, 0, [], []⟩

def content (f : OpenFile) : Bytes := f.held ++ f.late.reverse.flatten

end OpenFile

def FileTree.bytesAt (t : FileTree) (address : Address) : Bytes :=
  .ofList (((t.get? address).bind Entry.bytes?).getD [])

/-- Makes bytes those of the file at an address, if there still is one. -/
def FileTree.setBytesAt (t : FileTree) (address : Address) (content : Bytes) : FileTree :=
  match t.get? address with
  | some (.text _) | some (.bytes _) => t.setEntry address (.ofBytes content.toList)
  | _ => t

namespace System

/-- The place of an open file that is put behind the others. -/
def add (s : System) (f : OpenFile) : System × Nat :=
  ({ s with opened := s.opened.push f }, s.opened.size)

def get (s : System) (place : Nat) : OpenFile := s.opened.getD place .null

def set (s : System) (place : Nat) (f : OpenFile) : System :=
  { s with opened := s.opened.setIfInBounds place f }

/-- Causes for which nothing can be read or written. -/
inductive Fault where
  | badFile
  | isAFolder
  | noSpace
  deriving DecidableEq

def Fault.message : Fault → String
  | badFile => "Bad file descriptor"
  | isAFolder => "Is a directory"
  | noSpace => "No space left on device"

/-- All bytes that can be read from an open file. -/
def peek (s : System) (place : Nat) : Except Fault Bytes :=
  let f := s.get place
  if !f.reads then .error .badFile
  else
    match f.medium with
    | .file address => .ok ((s.files.bytesAt address).drop f.position)
    | .pipe => .ok f.content
    | .folder => .error .isAFolder
    | .null | .full => .ok []

def leave (s : System) (place : Nat) (left : Bytes) : System :=
  let f := s.get place
  match f.medium with
  | .file address =>
    s.set place { f with position := (s.files.bytesAt address).length - left.length }
  | .pipe => s.set place { f with held := left, late := [] }
  | _ => s

def write (s : System) (place : Nat) (bytes : Bytes) : Except Fault System :=
  let f := s.get place
  if !f.writes then .error .badFile
  else
    match f.medium with
    | .file address =>
      let old := s.files.bytesAt address
      let position := if f.appends then old.length else f.position
      let filled := old ++ List.replicate (position - old.length) '\x00'
      let content := filled.take position ++ bytes ++ filled.drop (position + bytes.length)
      .ok { s.set place { f with position := position + bytes.length } with
        files := s.files.setBytesAt address content }
    | .pipe => .ok (s.set place { f with late := bytes :: f.late })
    | .full => if bytes = [] then .ok s else .error .noSpace
    | .null | .folder => .ok s

end System

end PlanConstraints

import PlanConstraints.Program.Shell.Evaluation
import PlanConstraints.Program.Tool.Character
import PlanConstraints.Program.Tool.Count
import PlanConstraints.Program.Tool.Edit.Run
import PlanConstraints.Program.Tool.Folder
import PlanConstraints.Program.Tool.Format
import PlanConstraints.Program.Tool.Order
import PlanConstraints.Program.Tool.Search
import PlanConstraints.Program.Tool.Surroundings
import PlanConstraints.Program.Tool.Value

set_option autoImplicit false

/-!
# Programs: those that are installed

The programs that every system has, with the folders, devices and files that belong to it.  A
program is found by its name or its path, and sees the files of the system beside those of a run.

This is one way to fill in the `Runner` of a run.  Neither the compilation nor the command line
depends on it.
-/

namespace PlanConstraints

namespace Tool

def finish (status : Nat) : Job Unit := note status

def table : List (String × Job Unit) :=
  [("[", test true), ("basename", basename), ("cat", cat), ("cp", cp), ("cut", cut),
    ("dirname", dirname), ("echo", echo), ("egrep", grep ["-E".toList]), ("expr", expr),
    ("false", finish 1), ("fgrep", grep ["-F".toList]), ("fold", fold), ("grep", grep []),
    ("head", head), ("id", identity), ("ls", ls), ("mkdir", mkdir), ("mv", mv), ("nl", nl),
    ("paste", paste), ("printenv", printenv), ("printf", printf), ("pwd", pwd),
    ("readlink", realpath false), ("realpath", realpath true), ("rev", rev), ("rm", rm),
    ("rmdir", rmdir), ("sed", sed), ("seq", seq), ("sleep", sleep), ("sort", sort), ("tac", tac),
    ("tail", tail), ("tee", tee), ("test", test false), ("touch", touch), ("tr", tr),
    ("true", finish 0), ("uname", uname), ("uniq", uniq), ("wc", wc), ("whoami", whoami),
    ("yes", yes)]

end Tool

namespace Program

def launchers : List String := ["env", "nice", "nohup", "setsid", "sh", "timeout", "xargs"]

def names : List String := Tool.table.map (·.1) ++ launchers

def folders : List String :=
  ["bin", "boot", "dev", "dev/fd", "etc", "home", "lib", "lib64", "media", "mnt", "opt", "proc",
    "root", "run", "sbin", "srv", "sys", "tmp", "usr", "usr/bin", "usr/include", "usr/lib",
    "usr/local", "usr/local/bin", "usr/local/sbin", "usr/sbin", "usr/share", "var", "var/tmp"]

def devices : List (String × Device) :=
  [("dev/null", .null), ("dev/full", .full), ("dev/stdin", .stream 0 []),
    ("dev/stdout", .stream 1 []), ("dev/stderr", .stream 2 []), ("dev/fd/0", .stream 0 []),
    ("dev/fd/1", .stream 1 []), ("dev/fd/2", .stream 2 [])]

def otherFiles : List (String × String) :=
  [("etc/group", "root:x:0:\n"), ("etc/hosts", "127.0.0.1\tlocalhost\n"),
    ("etc/passwd", "root:x:0:0:root:/root:/bin/bash\n")]

def addressOf (path : String) : Address := (Path.ofText path).pieces

/-- What a system holds before anything has been done. -/
def system : FileTree where
  entries :=
    folders.map (fun path => (addressOf path, .folder))
      ++ devices.map (fun (path, d) => (addressOf path, .device d))
      ++ otherFiles.map (fun (path, content) => (addressOf path, .text content))
      ++ names.flatMap fun name =>
        [(addressOf ("usr/bin/" ++ name), .program name),
          (addressOf ("bin/" ++ name), .program name)]
  start := []

/-! ## Running by name -/

def environment : List (Bytes × Bytes) :=
  [("PATH".toList, Shell.usualFolders), ("HOME".toList, "/root".toList)]

def missing (files : FileTree) (name : Bytes) : String :=
  if name.contains '/' then
    match files.resolve (.ofText name.text) with
    | .ok (.found _ _) => "Permission denied (os error 13)"
    | .ok (.absent _) => FileError.notFound.message
    | .error e => e.message
  else
    match Shell.programOf files none name with
    | .unknown "Permission denied" =>
      if name = [] then FileError.notFound.message else "Permission denied (os error 13)"
    | .unknown "File name too long" => FileError.nameTooLong.message
    | _ => FileError.notFound.message

def run : Runner := fun c =>
  match Shell.programOf c.files (c.environment.lookup "PATH".toList) c.name with
  | .program _ program => .ok (Shell.runAlone (List.lookup · Tool.table) program c)
  | _ => .error (missing c.files c.name)

end Program

end PlanConstraints

import PlanConstraints.Program.Shell.Launch
import PlanConstraints.Program.Tool.Floating

set_option autoImplicit false

/-!
# Shell: programs that start others

A program may do nothing but start another one: in another environment, or with arguments that it
reads.
-/

namespace PlanConstraints.Shell

open Tool (given letter valued Known Given quoted)

/-- Starts the program that a name stands for, or says why that cannot be done. -/
def startNamed (self : Engine) (name : Bytes)
    (args : List Bytes) (environment : List (Bytes × Bytes))
    (complaint : String → Bytes) : Action ExitStatus := do
  let s ← get
  let fail (reason : String) (status : Nat) : Action ExitStatus := do
    let _ ← write 2 (complaint reason)
    return .code status
  match programOf s.system.files (environment.lookup "PATH".toList) name with
  | .program _ program => self.start ⟨program, name, args, environment⟩
  | .file _ => fail "Permission denied" 126
  | .unknown reason =>
    if name = [] ∨ reason = "not found" then fail "No such file or directory" 127
    else fail reason 126
  | _ => fail "No such file or directory" 127

/-! ## Another environment -/

def environmentOptions : List Known :=
  [letter 'i' ["ignore-environment"], letter '0' ["null"], valued 'u' ["unset"],
    valued 'C' ["chdir"], valued 'S' ["split-string"], letter 'v' ["debug"]]

/-- The environment behind changes, and what stands behind those. -/
def changeEnvironment (environment : List (Bytes × Bytes)) :
    List Bytes → List (Bytes × Bytes) × List Bytes
  | [] => (environment, [])
  | arg :: args =>
    if arg.contains '=' then
      let name := arg.takeWhile (· != '=')
      changeEnvironment (replaceIn name (arg.drop (name.length + 1)) environment) args
    else (environment, arg :: args)

/-- Reads the call of the program: its options, and the environment that it makes. -/
def readEnvironment (environment : List (Bytes × Bytes)) :
    Tool.Job (Given × List (Bytes × Bytes) × List Bytes) := do
  let g ← given ⟨environmentOptions, false, 125⟩
  let (bare, operands) := match g.operands with
    | ['-'] :: more => (true, more)
    | more => (false, more)
  for (key, name) in g.options do
    if key = 'u' ∧ (name = [] ∨ name.contains '=') then
      Tool.fail ("cannot unset ".toList ++ quoted name ++ ": Invalid argument".toList) 125
  let start := if bare || g.has 'i' then [] else environment
  let kept := start.filter fun v => !g.options.contains ('u', v.1)
  let (environment, rest) := changeEnvironment kept operands
  return (g, environment, rest)

def runInEnvironment (self : Engine) (c : Start) : Action ExitStatus := do
  match ← runJob (readEnvironment c.environment) c with
  | .error status => return status
  | .ok (g, environment, rest) =>
    let outer ← get
    let moved ←
      match g.last? 'C' with
      | none => pure true
      | some folder => goTo folder
    let status ←
      if !moved then
        let _ ← write 2 ("env: cannot change directory to ".toList ++ quoted ((g.last? 'C').getD [])
          ++ ": No such file or directory\n".toList)
        pure (.code 125)
      else
        match rest with
        | [] =>
          let ending := if g.has '0' then '\x00' else '\n'
          let lines := environment.flatMap fun (name, value) => name ++ '=' :: value ++ [ending]
          runTool (Tool.print lines) c
        | name :: args =>
          startNamed self name args environment fun reason =>
            "env: ".toList ++ quoted name ++ ": ".toList ++ reason.toList ++ ['\n']
    modify fun s =>
      { s with system := { s.system with files :=
          { s.system.files with start := outer.system.files.start } }
               parameters := outer.parameters }
    return status

/-! ## Arguments that are read -/

def argumentOptions : List Known :=
  [letter '0' ["null"], valued 'd' ["delimiter"], valued 'n' ["max-args"], valued 'L' ["max-lines"],
    valued 'I' [], ⟨'i', ["replace"], .sometimes⟩, letter 'r' ["no-run-if-empty"],
    letter 't' ["verbose"], valued 'P' ["max-procs"], valued 's' ["max-chars"], letter 'x' ["exit"],
    valued 'E' [], valued 'a' ["arg-file"]]

/-- The words of a text with the numbers of their lines, as far as all quotation marks have
partners; and the mark that has none. -/
def readQuotedWords (line : Nat) (word : Option Bytes) (mark : Option Char) :
    Bytes → List (Nat × Bytes) × Option Char
  | [] =>
    match mark with
    | some m => ([], some m)
    | none => (word.toList.map fun w => (line, w), none)
  | c :: cs =>
    match mark with
    | some m =>
      if c = m then readQuotedWords line (some (word.getD [])) none cs
      else if c = '\n' then ([], some m)
      else readQuotedWords line (some (word.getD [] ++ [c])) mark cs
    | none =>
      if c = '\'' ∨ c = '"' then readQuotedWords line (some (word.getD [])) (some c) cs
      else if c = '\\' then
        match cs with
        | [] => (word.toList.map fun w => (line, w), none)
        | d :: ds => readQuotedWords line (some (word.getD [] ++ [d])) none ds
      else if c = ' ' ∨ c = '\t' ∨ c = '\n' then
        let (words, open?) := readQuotedWords (if c = '\n' then line + 1 else line) none none cs
        (word.toList.map (fun w => (line, w)) ++ words, open?)
      else readQuotedWords line (some (word.getD [] ++ [c])) none cs

def replaceMark (mark by_ : Bytes) : Nat → Bytes → Bytes
  | 0, cs => cs
  | bound + 1, cs =>
    if mark = [] then cs
    else
      match Bytes.splitAt? mark cs with
      | some (inside, rest) => inside ++ by_ ++ replaceMark mark by_ bound rest
      | none => cs

/-- Cuts a list into groups of at most that many. -/
def groupsOf {α : Type} (n : Nat) : Nat → List α → List (List α)
  | 0, _ | _, [] => []
  | bound + 1, as => as.take n :: groupsOf n bound (as.drop n)

/-- Cuts words into groups of at most that many lines. -/
def groupsOfLines (n : Nat) (words : List (Nat × Bytes)) : List (List Bytes) :=
  let lines := (words.map (·.1)).eraseDups
  (groupsOf n lines.length lines).map fun group =>
    (words.filter fun w => group.contains w.1).map (·.2)

/-- What a program that reads arguments is to do: the calls, and the mark that has no partner. -/
structure ArgumentCalls where
  verbose : Bool
  calls : List (List Bytes)
  openMark : Option Char

def countOption (g : Given) (key : Char) : Tool.Job (Option Nat) := do
  match g.last? key with
  | none => return none
  | some text =>
    match Bytes.natural? text with
    | some 0 =>
      Tool.refuse ("value 0 for -".toList ++ key :: " option should be >= 1".toList)
    | some n => return some n
    | none =>
      Tool.refuse
        ("invalid number \"".toList ++ text ++ "\" for -".toList ++ key :: " option".toList)

/-- The arguments in a text, with the numbers of their lines, and a quotation mark without a
partner: between separators, one on a line, or words. -/
def argumentWords (separator? : Option Char) (byLines : Bool) (input : Bytes) :
    List (Nat × Bytes) × Option Char :=
  let numbered (pieces : List Bytes) : List (Nat × Bytes) := pieces.zipIdx.map fun (w, i) => (i, w)
  match separator? with
  | some c =>
    let pieces := Text.split c input
    (numbered (if pieces.getLast? = some [] then pieces.dropLast else pieces), none)
  | none =>
    if byLines then
      let lines := (Bytes.lines input).map fun (line : Bytes) =>
        line.dropWhile fun c => c == ' ' || c == '\t'
      ((numbered lines).filter fun line => line.2 != [], none)
    else readQuotedWords 0 none none input

def readArguments : Tool.Job ArgumentCalls := do
  let g ← given ⟨argumentOptions, false, 1⟩
  let count ← countOption g 'n'
  let lines ← countOption g 'L'
  let command : List Bytes := if g.operands.isEmpty then ["echo".toList] else g.operands
  let input ←
    match g.last? 'a' with
    | none => Tool.takeInput
    | some path => pure ((← Tool.source? path).getD [])
  let mark := match g.last? 'I', g.last? 'i' with
    | some mark, _ => some mark
    | none, some [] => some "\x7b\x7d".toList
    | none, mark => mark
  let separator? := if g.has '0' then some '\x00' else (g.last? 'd').map (·.headD '\n')
  let (words, openMark) := argumentWords separator? mark.isSome input
  let plain := words.map (·.2)
  let calls := match mark with
    | some mark => plain.map fun w => command.map fun arg => replaceMark mark w arg.length arg
    | none =>
      let groups := match count, lines with
        | some n, _ => groupsOf n plain.length plain
        | none, some n => groupsOfLines n words
        | none, none => if plain.isEmpty then [] else [plain]
      let groups := if groups.isEmpty && !g.has 'r' && openMark.isNone then [[]] else groups
      groups.map (command ++ ·)
  return ⟨g.has 't', calls, openMark⟩

/-- Makes calls one after the other; a call may be the last one. -/
def makeCalls (self : Engine) (c : Start) (verbose : Bool) (status : Nat) :
    List (List Bytes) → Action Nat
  | [] => return status
  | [] :: more => makeCalls self c verbose status more
  | (name :: args) :: more => do
    if verbose then
      let _ ← write 2 (Bytes.joined [' '] (name :: args) ++ ['\n'])
    let complaint (reason : String) : Bytes :=
      "xargs: ".toList ++ name ++ ": ".toList ++ reason.toList ++ ['\n']
    match ← startNamed self name args c.environment complaint with
    | .code 0 => makeCalls self c verbose status more
    | .code 255 =>
      let _ ← write 2 (complaint "exited with status 255; aborting")
      return 124
    | .code n =>
      if n = 126 ∨ n = 127 then return n else makeCalls self c verbose 123 more
    | .signal n =>
      let _ ← write 2 (complaint ("terminated by signal " ++ toString n))
      return 125

def runWithArguments (self : Engine) (c : Start) : Action ExitStatus := do
  match ← runJob readArguments c with
  | .error status => return status
  | .ok work =>
    withStream 0 (← openFile .null) do
      setLast (← makeCalls self c work.verbose 0 work.calls)
    let status := (← get).last
    match work.openMark with
    | none => return .code status
    | some m =>
      let _ ← write 2 ("xargs: unmatched ".toList ++ (if m = '"' then "double" else "single").toList
        ++ " quote; by default quotes are special to xargs unless you use the -0 option\n".toList)
      return .code 1

/-! ## Plain starts -/

/-- Starts a program as it is told, behind options with values. -/
def runPlainly (self : Engine) (known : List Known)
    (skip : Nat) (c : Start) : Action ExitStatus := do
  match ← runJob (given ⟨known, false, 125⟩) c with
  | .error status => return status
  | .ok g =>
    match g.operands.drop skip with
    | [] => return .code (if skip = 0 then 0 else 125)
    | name :: args =>
      startNamed self name args c.environment fun reason =>
        c.name ++ ": failed to run command ".toList ++ quoted name ++ ": ".toList ++ reason.toList
          ++ ['\n']

/-- Starts a program that is stopped after some time. -/
def runTimed (self : Engine) (c : Start) : Action ExitStatus := do
  let known := [valued 'k' ["kill-after"], valued 's' ["signal"], letter 'v' ["verbose"],
    letter 'f' ["foreground"], letter 'p' ["preserve-status"]]
  let refused (text : Bytes) : Action ExitStatus := do
    let _ ← write 2 (text ++ "Try '".toList ++ c.name ++ " --help' for more information.\n".toList)
    return .code 125
  match ← runJob (given ⟨known, false, 125⟩) c with
  | .error status => return status
  | .ok g =>
    match g.operands with
    | time :: name :: args =>
      match Tool.duration? time with
      | none => refused (c.name ++ ": invalid time interval ".toList ++ quoted time ++ ['\n'])
      | some duration =>
        let outer ← get
        let own := outer.clock + duration
        let isFirst := 0 < duration && outer.deadline.all (own < ·)
        if isFirst then set { outer with deadline := some own }
        let r ← catching (startNamed self name args c.environment fun reason =>
          c.name ++ ": failed to run command ".toList ++ quoted name ++ ": ".toList ++ reason.toList
            ++ ['\n'])
        modify fun s => { s with deadline := outer.deadline }
        let isLate := isFirst && own ≤ (← get).clock
        let stopped := match r with
          | .ok (.signal 15) | .error (.signal 15) => true
          | _ => false
        if isLate && stopped then
          let n := ((g.last? 's').bind signalOf?).getD 15
          if n = 9 then return .signal 9
          else return .code (if g.has 'p' then 128 + n else 124)
        else rethrow r
    | _ => refused []

def launcher? (program : String) : Option (Engine → Start → Action ExitStatus) :=
  match program with
  | "env" => some runInEnvironment
  | "xargs" => some runWithArguments
  | "nice" => some fun self => runPlainly self [valued 'n' ["adjustment"]] 0
  | "nohup" | "setsid" => some fun self => runPlainly self [] 0
  | "timeout" => some runTimed
  | _ => none

end PlanConstraints.Shell

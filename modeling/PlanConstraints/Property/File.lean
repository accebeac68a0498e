import PlanConstraints.Property.Basic
import PlanConstraints.Text.Split
import PlanConstraints.Traverse

set_option autoImplicit false

/-!
# Property files

A property file is a sequence of blocks.  Blank lines and lines that start with `#` may stand
anywhere.

    set moveset 2
    move truck1 *
    load truck1 package

    property used-moves
    && moveset ! unloadset

    propertyclass visit(t, l) {
        set visit 1
        move t l
        property visited
        visit
    } {
        visit(truck1, loc1)
        visit(truck2, loc2)
    }

    soft-goals
    visited_truck1_loc1

A class of properties is written once with parameters, and every instance fills in its arguments.
The lines below `soft-goals` last to the next blank line.

The reader goes through the lines once; its state says which block it is in.
-/

namespace PlanConstraints

namespace PropertyFile

/-! ## Errors -/

/-- The two parts of a class of properties. -/
inductive ClassPart where
  | body
  | instances
  deriving DecidableEq, Repr

def ClassPart.text : ClassPart → String
  | body => "body"
  | instances => "instances"

/-- What may be missing at the end of a file. -/
inductive Missing where
  | template (set : String)
  | formula (property : String)
  | opening
  | closing (part : ClassPart)

def Missing.text : Missing → String
  | template set => "a template of the set `" ++ set ++ "`"
  | formula property => "the formula of property `" ++ property ++ "`"
  | opening => "`\x7b`"
  | closing part => "`\x7d` closing the " ++ part.text ++ " of the property class"

/-- Causes for which a property file is refused. -/
inductive FileError where
  /-- The file ends inside a block; the last line that is not blank is given. -/
  | endOfFile (missing : Missing) (last : Option Line)
  | setHeader (line : Line)
  | templateCount (count : Symbol)
  | template (error : TemplateError)
  | propertyHeader (line : Line)
  | formula (line : Line) (error : FormulaError)
  | classHeader (line : Line)
  | classDialect (word : Symbol)
  | expectedOpening (line : Line) (part : ClassPart)
  | expectedClosing (line : Line)
  | notInBody (word : Symbol)
  | noProperty (header : Line)
  | instanceForm (line : Line) (name : String)
  | instanceName (found : Piece) (name : String)
  | instanceArity (line header : Line) (name : String) (expected found : Nat)
  /-- An action set of an instance is refused. -/
  | instanceTemplate (header : Line) (error : TemplateError)
  | notABlock (word : Symbol)

/-- The error of a formula, on the whole line unless it names a symbol at fault. -/
def formulaMessage (line : Line) (error : FormulaError) : Message :=
  match error.malformation?, error.symbol? with
  | some _, some ⟨_, some _⟩ => error.toMessage
  | _, _ => line.span.invalid error.message

def FileError.toMessage : FileError → Message
  | endOfFile missing last =>
    let text := "unexpected end of file, expected " ++ missing.text
    match last with
    | some line => line.span.invalid text
    | none => .ofTitle text
  | setHeader line => line.span.invalid "expected `set <name> <count>`"
  | templateCount count => count.invalid "expected the number of templates of the set"
  | template error => error.toMessage
  | propertyHeader line => line.span.invalid "expected `property <name>`"
  | formula line error => formulaMessage line error
  | classHeader line => line.span.invalid "expected `propertyclass <name>(<param>, ...)`"
  | classDialect word =>
    word.invalid "property classes are not supported for LTL properties"
  | expectedOpening line part =>
    line.span.invalid ("expected `\x7b` opening the " ++ part.text ++ " of the property class")
  | expectedClosing line => line.span.invalid "expected `\x7d` or `\x7d \x7b`"
  | notInBody word =>
    word.invalid "expected `set` or `property` in the body of the property class"
  | noProperty header => header.span.invalid "property class without any property"
  | instanceForm line name => line.span.invalid ("expected `" ++ name ++ "(<arg>, ...)`")
  | instanceName found name =>
    found.span.invalid ("instance of `" ++ found.text ++ "` in property class `" ++ name ++ "`")
  | instanceArity line header name expected found =>
    (line.span.invalid ("property class `" ++ name ++ "` has " ++ toString expected
      ++ " parameters but the instance has " ++ toString found)).addNote header.span
      "parameters declared here"
  | instanceTemplate header error =>
    error.toMessage.addNote header.span "in an instance of this property class"
  | notABlock word =>
    word.invalid "expected `set`, `property`, `propertyclass` or `soft-goals`"

/-! ## Names with arguments -/

/-- The characters of which names of classes are made. -/
def isClassNameChar (c : Char) : Bool := c.isAlphanum || c == '_' || c == '-'

def splitCommas (input : Input) (start : Nat) : List Char → List Piece
  | [] => [⟨input, start, []⟩]
  | c :: cs =>
    let rest := splitCommas input (start + c.utf8Size) cs
    if c = ',' then ⟨input, start, []⟩ :: rest
    else
      match rest with
      | [] => [⟨input, start, [c]⟩]
      | piece :: more => ⟨input, start, c :: piece.chars⟩ :: more

/-- The symbols of a list with commas; empty ones are left out. -/
def commaList (p : Piece) : List Symbol :=
  ((splitCommas p.input p.start p.chars).filter fun piece => !piece.isBlank).map fun piece =>
    ⟨piece.trim.text, some piece.trim.span⟩

/-- A name, what stands in parentheses behind it, and what follows them. -/
structure Application where
  name : Piece
  args : List Symbol
  rest : Piece

/-- Takes a text apart that starts with a name and a list in parentheses. -/
def application? (p : Piece) : Option Application :=
  let name := p.chars.takeWhile isClassNameChar
  let list := (p.drop name.length).trimLeft
  match name, list.chars with
  | _ :: _, '(' :: _ =>
    let inside := list.drop 1
    let args := inside.chars.takeWhile (· != ')')
    let rest := inside.drop args.length
    match rest.chars with
    | ')' :: _ =>
      some ⟨{ p with chars := name }, commaList { inside with chars := args }, rest.drop 1⟩
    | _ => none
  | _, _ => none

/-! ## The state of the reader -/

/-- A block whose lines are being read. -/
inductive Block where
  /-- A set of which that many templates are still to come, at least one. -/
  | set (name : Symbol) (missing : Nat) (lines : List (List Symbol))
  /-- A property whose formula is still to come. -/
  | property (name : Symbol) (soft : Bool)

/-- What the file ends without, if it ends in the block. -/
def Block.missing : Block → Missing
  | set name _ _ => .template name.name
  | property name _ => .formula name.name

/-- What a complete block declares. -/
inductive Item where
  | set (block : SetBlock)
  | property (property : Property)

/-- A class of properties: its header, what its body declares and what its instances make of it. -/
structure ClassDraft where
  header : Line
  name : String
  soft : Bool
  params : List Symbol
  blocks : List SetBlock
  properties : List Property
  instanceBlocks : List SetBlock
  instanceProperties : List Property

/-- Where in a file the reader is. -/
inductive Place where
  | outside
  | block (block : Block)
  | softGoals
  /-- In front of the body of a class. -/
  | classHead (draft : ClassDraft)
  /-- In the body of a class, perhaps in a block of it. -/
  | classBody (draft : ClassDraft) (block : Option Block)
  /-- In front of the instances of a class. -/
  | instancesHead (draft : ClassDraft)
  | instances (draft : ClassDraft)

/-- What the file ends without, if it ends at the place. -/
def Place.missing? : Place → Option Missing
  | .outside | .softGoals => none
  | .block b => some b.missing
  | .classHead _ | .instancesHead _ => some .opening
  | .classBody _ none => some (.closing .body)
  | .classBody _ (some b) => some b.missing
  | .instances _ => some (.closing .instances)

/-- What has been read, and where the reader is. -/
structure State where
  result : PropertySet
  place : Place

/-! ## Blocks -/

/-- Opens a set; one without templates is complete at once. -/
def openSet (header : Line) (words : List Symbol) : Except FileError (Block ⊕ Item) :=
  match words with
  | [_, name, count] =>
    match Text.natural? 64 count.name with
    | none => .error (.templateCount count)
    | some 0 => .ok (.inr (.set ⟨name, []⟩))
    | some (n + 1) => .ok (.inl (.set name (n + 1) []))
  | _ => .error (.setHeader header)

def openProperty (header : Line) (words : List Symbol) (soft : Bool) :
    Except FileError (Block ⊕ Item) :=
  match words with
  | [_, name] => .ok (.inl (.property name soft))
  | _ => .error (.propertyHeader header)

/-- Reads a line of a block, which may complete it. -/
def Block.readLine (propositional : Bool) (line : Line) : Block → Except FileError (Block ⊕ Item)
  | .set name missing lines =>
    let lines := lines ++ [line.tokens]
    if missing ≤ 1 then .ok (.inr (.set ⟨name, lines⟩))
    else .ok (.inl (.set name (missing - 1) lines))
  | .property name soft =>
    let formula :=
      if propositional then Formula.propositionalOfWords line.tokens
      else Formula.ofWords line.tokens
    match formula with
    | .error e => .error (.formula line e)
    | .ok formula => .ok (.inr (.property ⟨name, formula, soft⟩))

def addBlock (w : World) (result : PropertySet) (block : SetBlock) :
    Except TemplateError PropertySet :=
  match ActionSet.ofBlock w block with
  | .error e => .error e
  | .ok set => .ok { result with actionSets := (result.actionSets.add set).1 }

/-- Adds what a block outside of classes declares. -/
def addItem (w : World) (dialect : Dialect) (result : PropertySet) :
    Item → Except FileError PropertySet
  | .set block =>
    match addBlock w result block with
    | .error e => .error (.template e)
    | .ok result => .ok result
  | .property p =>
    match dialect with
    | .actionSets => .ok { result with properties := result.properties ++ [p] }
    | .temporal => .ok { result with temporal := result.temporal ++ [p] }

/-- Goes on in a block outside of classes, or adds what the complete block declares. -/
def continueBlock (w : World) (dialect : Dialect) (result : PropertySet) (read : Block ⊕ Item) :
    Except FileError State :=
  match read with
  | .inl block => .ok ⟨result, .block block⟩
  | .inr item =>
    match addItem w dialect result item with
    | .error e => .error e
    | .ok result => .ok ⟨result, .outside⟩

/-! ## Classes -/

namespace ClassDraft

/-- Adds what a block of the body declares. -/
def addItem (d : ClassDraft) : Item → ClassDraft
  | .set block => { d with blocks := d.blocks ++ [block] }
  | .property p =>
    { d with properties := d.properties ++ [{ p with soft := d.soft || p.soft }] }

/-- Goes on in a block of the body, or adds what the complete block declares. -/
def continueBlock (d : ClassDraft) : Block ⊕ Item → Place
  | .inl block => .classBody d (some block)
  | .inr item => .classBody (d.addItem item) none

/-- The text behind the names of an instance: every argument after an underscore. -/
def suffix (args : List Symbol) : String := SetBlock.instanceName "" args

/-- Adds the instance with the given arguments. -/
def addInstance (d : ClassDraft) (args : List Symbol) : ClassDraft :=
  { d with
    instanceBlocks := d.instanceBlocks ++ d.blocks.map fun b => b.instantiate d.params args
    instanceProperties :=
      d.instanceProperties ++ d.properties.map fun p => p.withSuffix (suffix args) }

/-- Opens a class by its header; the place is in front of the body or in it. -/
def ofHeader (line : Line) (soft : Bool) : Except FileError Place :=
  let trimmed := line.piece.trim
  let keyword := trimmed.chars.takeWhile fun c => !Text.isBlank c
  match application? (trimmed.drop keyword.length).trimLeft with
  | none => .error (.classHeader line)
  | some app =>
    let draft : ClassDraft := ⟨line, app.name.text, soft, app.args, [], [], [], []⟩
    match app.rest.trimLeft.chars with
    | [] => .ok (.classHead draft)
    | ['\x7b'] => .ok (.classBody draft none)
    | _ => .error (.classHeader line)

/-- Closes the body by a line that starts with a brace. -/
def closeBody (d : ClassDraft) (line : Line) : Except FileError Place :=
  match (line.piece.trim.drop 1).trim.text with
  | "\x7b" => if d.properties.isEmpty then .error (.noProperty d.header) else .ok (.instances d)
  | "" => if d.properties.isEmpty then .error (.noProperty d.header) else .ok (.instancesHead d)
  | _ => .error (.expectedClosing line)

def readBody (d : ClassDraft) (line : Line) : Except FileError Place :=
  if line.piece.trim.chars.head? = some '\x7d' then d.closeBody line
  else
    let opened : Except FileError (Block ⊕ Item) :=
      match line.tokens with
      | [] => .error (.expectedClosing line)
      | word :: words =>
        match word.name with
        | "set" => openSet line (word :: words)
        | "property" => openProperty line (word :: words) false
        | "soft-property" => openProperty line (word :: words) true
        | _ => .error (.notInBody word)
    match opened with
    | .error e => .error e
    | .ok read => .ok (d.continueBlock read)

def readInstance (d : ClassDraft) (line : Line) : Except FileError ClassDraft :=
  match application? line.piece.trim with
  | none => .error (.instanceForm line d.name)
  | some app =>
    if app.rest.chars ≠ [] then .error (.instanceForm line d.name)
    else if app.name.text ≠ d.name then .error (.instanceName app.name d.name)
    else if app.args.length ≠ d.params.length then
      .error (.instanceArity line d.header d.name d.params.length app.args.length)
    else .ok (d.addInstance app.args)

def finish (w : World) (result : PropertySet) (d : ClassDraft) : Except FileError PropertySet :=
  match foldSteps (addBlock w) result d.instanceBlocks with
  | .error e => .error (.instanceTemplate d.header e)
  | .ok result => .ok { result with properties := result.properties ++ d.instanceProperties }

end ClassDraft

/-! ## Reading -/

/-- The line is blank or a comment. -/
def isSkipped (line : Line) : Bool :=
  line.isBlank || line.piece.trim.chars.head? == some '#'

def readOutside (w : World) (dialect : Dialect) (result : PropertySet) (line : Line) :
    Except FileError State :=
  match line.tokens with
  | [] => .ok ⟨result, .outside⟩
  | word :: words =>
    let opened (read : Except FileError (Block ⊕ Item)) : Except FileError State :=
      match read with
      | .error e => .error e
      | .ok read => continueBlock w dialect result read
    let openedClass (soft : Bool) : Except FileError State :=
      match dialect with
      | .temporal => .error (.classDialect word)
      | .actionSets =>
        match ClassDraft.ofHeader line soft with
        | .error e => .error e
        | .ok place => .ok ⟨result, place⟩
    match word.name with
    | "set" => opened (openSet line (word :: words))
    | "property" => opened (openProperty line (word :: words) false)
    | "soft-property" => opened (openProperty line (word :: words) true)
    | "propertyclass" => openedClass false
    | "soft-propertyclass" => openedClass true
    | "soft-goals" => .ok ⟨result, .softGoals⟩
    | _ => .error (.notABlock word)

/-- Reads a line that is neither blank nor a comment. -/
def readContent (w : World) (dialect : Dialect) (s : State) (line : Line) :
    Except FileError State :=
  match s.place with
  | .outside => readOutside w dialect s.result line
  | .block block =>
    match block.readLine (dialect == .actionSets) line with
    | .error e => .error e
    | .ok read => continueBlock w dialect s.result read
  | .softGoals =>
    .ok { s with result := { s.result with softGoals := s.result.softGoals ++ [line.trimmed] } }
  | .classHead d =>
    if line.trimmed = "\x7b" then .ok { s with place := .classBody d none }
    else .error (.expectedOpening line .body)
  | .classBody d none =>
    match d.readBody line with
    | .error e => .error e
    | .ok place => .ok { s with place := place }
  | .classBody d (some block) =>
    match block.readLine true line with
    | .error e => .error e
    | .ok read => .ok { s with place := d.continueBlock read }
  | .instancesHead d =>
    if line.trimmed = "\x7b" then .ok { s with place := .instances d }
    else .error (.expectedOpening line .instances)
  | .instances d =>
    if line.trimmed = "\x7d" then
      match d.finish w s.result with
      | .error e => .error e
      | .ok result => .ok ⟨result, .outside⟩
    else
      match d.readInstance line with
      | .error e => .error e
      | .ok d => .ok { s with place := .instances d }

/-- Reads a line.  A blank line ends the soft goals and is skipped elsewhere. -/
def readLine (w : World) (dialect : Dialect) (s : State) (line : Line) : Except FileError State :=
  if line.isBlank then
    match s.place with
    | .softGoals => .ok { s with place := .outside }
    | _ => .ok s
  else if isSkipped line then .ok s
  else readContent w dialect s line

/-- The last line that is not blank. -/
def lastLine? (lines : List Line) : Option Line := (lines.filter fun l => !l.isBlank).getLast?

def read (w : World) (dialect : Dialect) (input : Input) : Except FileError PropertySet :=
  match foldSteps (readLine w dialect) ⟨.empty, .outside⟩ input.lines with
  | .error e => .error e
  | .ok s =>
    match s.place.missing? with
    | some missing => .error (.endOfFile missing (lastLine? input.lines))
    | none => .ok s.result

end PropertyFile

end PlanConstraints

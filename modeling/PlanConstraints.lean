import PlanConstraints.ActionSet.Basic
import PlanConstraints.ActionSet.Template
import PlanConstraints.ActionSet.Trie
import PlanConstraints.Automaton.Basic
import PlanConstraints.Automaton.NeverClaim
import PlanConstraints.CommandLine.Options
import PlanConstraints.CommandLine.Run
import PlanConstraints.Compile.ActionSets
import PlanConstraints.Compile.Basic
import PlanConstraints.Compile.Modes
import PlanConstraints.Compile.Temporal
import PlanConstraints.Distinct
import PlanConstraints.File.Path
import PlanConstraints.File.Tree
import PlanConstraints.Formula.Basic
import PlanConstraints.Formula.Clause
import PlanConstraints.Formula.Error
import PlanConstraints.Formula.Infixed
import PlanConstraints.Formula.NormalForm
import PlanConstraints.Formula.Polish
import PlanConstraints.Main
import PlanConstraints.Parameter
import PlanConstraints.Program.Basic
import PlanConstraints.Program.Bytes
import PlanConstraints.Program.Known
import PlanConstraints.Program.Regex.Basic
import PlanConstraints.Program.Regex.Reader
import PlanConstraints.Program.Shell.Arithmetic
import PlanConstraints.Program.Shell.Background
import PlanConstraints.Program.Shell.Builtin.Control
import PlanConstraints.Program.Shell.Builtin.Folder
import PlanConstraints.Program.Shell.Builtin.Input
import PlanConstraints.Program.Shell.Builtin.Output
import PlanConstraints.Program.Shell.Builtin.Parameter
import PlanConstraints.Program.Shell.Condition
import PlanConstraints.Program.Shell.Cursor
import PlanConstraints.Program.Shell.Evaluation
import PlanConstraints.Program.Shell.Expansion
import PlanConstraints.Program.Shell.Field
import PlanConstraints.Program.Shell.Launch
import PlanConstraints.Program.Shell.Launcher
import PlanConstraints.Program.Shell.Lookup
import PlanConstraints.Program.Shell.Pattern
import PlanConstraints.Program.Shell.Process
import PlanConstraints.Program.Shell.Reader
import PlanConstraints.Program.Shell.Redirection
import PlanConstraints.Program.Shell.Script
import PlanConstraints.Program.Shell.State
import PlanConstraints.Program.Shell.WordReader
import PlanConstraints.Program.System
import PlanConstraints.Program.Tool.Character
import PlanConstraints.Program.Tool.Count
import PlanConstraints.Program.Tool.Edit.Basic
import PlanConstraints.Program.Tool.Edit.Reader
import PlanConstraints.Program.Tool.Edit.Run
import PlanConstraints.Program.Tool.Escape
import PlanConstraints.Program.Tool.Floating
import PlanConstraints.Program.Tool.Folder
import PlanConstraints.Program.Tool.Format
import PlanConstraints.Program.Tool.Job
import PlanConstraints.Program.Tool.Name
import PlanConstraints.Program.Tool.Order
import PlanConstraints.Program.Tool.Quoting
import PlanConstraints.Program.Tool.Search
import PlanConstraints.Program.Tool.Show
import PlanConstraints.Program.Tool.Surroundings
import PlanConstraints.Program.Tool.Value
import PlanConstraints.Proofs.ActionSet.Instances
import PlanConstraints.Proofs.ActionSet.Matching
import PlanConstraints.Proofs.Automaton.Canonical
import PlanConstraints.Proofs.Automaton.Comments
import PlanConstraints.Proofs.Automaton.Drafts
import PlanConstraints.Proofs.Automaton.GenericNames
import PlanConstraints.Proofs.Automaton.Names
import PlanConstraints.Proofs.Automaton.Numbering
import PlanConstraints.Proofs.Automaton.Renaming
import PlanConstraints.Proofs.Automaton.Runs
import PlanConstraints.Proofs.Automaton.WellFormed
import PlanConstraints.Proofs.CommandLine.Run
import PlanConstraints.Proofs.Compile.Additions
import PlanConstraints.Proofs.Compile.Checking
import PlanConstraints.Proofs.Compile.Dialects
import PlanConstraints.Proofs.Compile.Evaluation
import PlanConstraints.Proofs.Compile.FactNames
import PlanConstraints.Proofs.Compile.KnownSets
import PlanConstraints.Proofs.Compile.PairFiles
import PlanConstraints.Proofs.Compile.PairTexts
import PlanConstraints.Proofs.Compile.PhasedPlans
import PlanConstraints.Proofs.Compile.Phases
import PlanConstraints.Proofs.Compile.Recording
import PlanConstraints.Proofs.Compile.RoundTrip
import PlanConstraints.Proofs.Compile.StandardForm
import PlanConstraints.Proofs.Compile.WellFormed
import PlanConstraints.Proofs.File.Writing
import PlanConstraints.Proofs.Formula.Atoms
import PlanConstraints.Proofs.Formula.Clauses
import PlanConstraints.Proofs.Formula.Decoding
import PlanConstraints.Proofs.Formula.GuardGrammar
import PlanConstraints.Proofs.Formula.GuardReadings
import PlanConstraints.Proofs.Formula.Guards
import PlanConstraints.Proofs.Formula.InfixForms
import PlanConstraints.Proofs.Formula.NormalForm
import PlanConstraints.Proofs.Formula.Polish
import PlanConstraints.Proofs.Formula.ReadGuards
import PlanConstraints.Proofs.Formula.Rebuilding
import PlanConstraints.Proofs.Formula.Support
import PlanConstraints.Proofs.Formula.Truth
import PlanConstraints.Proofs.Formula.WrappedGuards
import PlanConstraints.Proofs.Property.Classes
import PlanConstraints.Proofs.Property.Comments
import PlanConstraints.Proofs.Property.Declared
import PlanConstraints.Proofs.Property.Legible
import PlanConstraints.Proofs.Property.Origins
import PlanConstraints.Proofs.Property.Reading
import PlanConstraints.Proofs.Property.Rereading
import PlanConstraints.Proofs.Property.Substitution
import PlanConstraints.Proofs.Property.Writing
import PlanConstraints.Proofs.SExpr.Reading
import PlanConstraints.Proofs.SExpr.Spelling
import PlanConstraints.Proofs.Task.Additions
import PlanConstraints.Proofs.Task.Blocks
import PlanConstraints.Proofs.Task.Consistency
import PlanConstraints.Proofs.Task.Domains
import PlanConstraints.Proofs.Task.Execution
import PlanConstraints.Proofs.Task.Extension
import PlanConstraints.Proofs.Task.FactLookup
import PlanConstraints.Proofs.Task.FactNames
import PlanConstraints.Proofs.Task.Following
import PlanConstraints.Proofs.Task.Forms
import PlanConstraints.Proofs.Task.Lines
import PlanConstraints.Proofs.Task.NegativeNumbers
import PlanConstraints.Proofs.Task.NumberLines
import PlanConstraints.Proofs.Task.Reading
import PlanConstraints.Proofs.Task.RoundTrip
import PlanConstraints.Proofs.Task.Truncation
import PlanConstraints.Proofs.Task.WellFormed
import PlanConstraints.Proofs.Temporal.Additions
import PlanConstraints.Proofs.Temporal.Blocking
import PlanConstraints.Proofs.Temporal.Guards
import PlanConstraints.Proofs.Temporal.Layout
import PlanConstraints.Proofs.Temporal.Mirrors
import PlanConstraints.Proofs.Temporal.Plans
import PlanConstraints.Proofs.Temporal.Products
import PlanConstraints.Proofs.Temporal.Roles
import PlanConstraints.Proofs.Temporal.Simulation
import PlanConstraints.Proofs.Temporal.StandardForm
import PlanConstraints.Proofs.Temporal.StrictTurns
import PlanConstraints.Proofs.Temporal.Turns
import PlanConstraints.Proofs.Temporal.WellFormed
import PlanConstraints.Proofs.Text.CommaSpaces
import PlanConstraints.Proofs.Text.Lines
import PlanConstraints.Proofs.Text.LowerCase
import PlanConstraints.Proofs.Text.Numbers
import PlanConstraints.Proofs.Text.Spans
import PlanConstraints.Proofs.Text.Spelling
import PlanConstraints.Proofs.Text.Words
import PlanConstraints.Proofs.World.Conflicts
import PlanConstraints.Proofs.World.Declared
import PlanConstraints.Proofs.World.Hierarchy
import PlanConstraints.Proofs.World.Order
import PlanConstraints.Proofs.World.Queries
import PlanConstraints.Proofs.World.Reading
import PlanConstraints.Property.Basic
import PlanConstraints.Property.File
import PlanConstraints.SExpr.Basic
import PlanConstraints.Source.Input
import PlanConstraints.Source.Line
import PlanConstraints.Source.Message
import PlanConstraints.Task.Basic
import PlanConstraints.Task.Check
import PlanConstraints.Task.Plan
import PlanConstraints.Task.Reader
import PlanConstraints.Task.Written
import PlanConstraints.Text.Blank
import PlanConstraints.Text.Case
import PlanConstraints.Text.Letter
import PlanConstraints.Text.LowerCase
import PlanConstraints.Text.Quoted
import PlanConstraints.Text.Split
import PlanConstraints.Text.Utf8
import PlanConstraints.Translator
import PlanConstraints.Traverse
import PlanConstraints.World.Basic
import PlanConstraints.World.Declarations
import PlanConstraints.World.DomainFile

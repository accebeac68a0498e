import Mathlib.Data.List.Forall2
import PlanConstraints.Proofs.Text.Spelling
import PlanConstraints.Task.Reader
import PlanConstraints.Task.Written

set_option autoImplicit false

/-!
# Forms of lines

What is written into a file, line by line, before the numbers are spelled: a line has the form of a
name or of numbers, and a text is a spelling of the form if it differs in the spelling of the
numbers and the white space between them at most (`LineForm.SpelledBy`).  A task is written with the
lines of its forms (`Task.map_text_forms`).
-/

namespace PlanConstraints

/-! ## Forms of lines -/

/-- A number in a line. -/
inductive Numeral where
  | int (n : Int)
  /-- A value that any negative number leaves open. -/
  | optional (value : Option Nat)
  /-- Set by any number but zero. -/
  | flag (isSet : Bool)

namespace Numeral

/-- How the number is written. -/
def text : Numeral → String
  | int n => toString n
  | optional value => optionalValue value
  | flag isSet => if isSet then "1" else "0"

/-- The word is a spelling of the number. -/
inductive SpelledBy (word : String) : Numeral → Prop where
  | int {n : Int} (h : Text.Spells word n) : SpelledBy word (int n)
  | none {n : Int} (h : Text.Spells word n) (hneg : n < 0) : SpelledBy word (optional none)
  | some {value : Nat} (h : Text.Spells word value) : SpelledBy word (optional (some value))
  | flag {n : Nat} (h : Text.Spells word n) : SpelledBy word (flag (n != 0))

theorem SpelledBy.isWord {word : String} {n : Numeral} (h : n.SpelledBy word) :
    Text.IsWord word.toList := by
  cases h with
  | int h | none h | some h | flag h => exact h.isWord

theorem spelledBy_optionalOf {word : String} {n : Int} (h : Text.Spells word n) :
    (optional (TaskFile.optionalOf n)).SpelledBy word := by
  unfold TaskFile.optionalOf
  split
  · next hneg => exact .none h hneg
  · next hneg =>
    have hcast : (n.toNat : Int) = n := Int.toNat_of_nonneg (by omega)
    exact .some (hcast.symm ▸ h)

end Numeral

/-- A line as it is written, before its numbers are spelled. -/
inductive LineForm where
  /-- A keyword or a name. -/
  | name (text : String)
  | numbers (ns : List Numeral)

namespace LineForm

/-- A line of one number. -/
def int (n : Int) : LineForm := .numbers [.int n]

/-- How the line is written. -/
def text : LineForm → String
  | name text => text
  | numbers ns => " ".intercalate (ns.map Numeral.text)

/-- The text of a line is a spelling of its form: a name is as it is, numbers are words with any
white space between them. -/
inductive SpelledBy (found : String) : LineForm → Prop where
  | name : SpelledBy found (name found)
  | numbers {ns : List Numeral}
    (h : List.Forall₂ (fun n word => n.SpelledBy word) ns (Text.wordsOf found)) :
    SpelledBy found (numbers ns)

/-- A word is the only one of its line. -/
theorem spelledBy_singleton {found : String} {n : Numeral} (h : n.SpelledBy found) :
    (numbers [n]).SpelledBy found := by
  have hwords := Text.wordsOf_of_isWord h.isWord
  exact .numbers (hwords ▸ .cons h .nil)

end LineForm

/-! ## Forms of a task -/

namespace Fact

def numerals (f : Fact) : List Numeral := [.int f.var, .int f.value]

def form (f : Fact) : LineForm := .numbers f.numerals

end Fact

/-- A variable with a value that is needed, if any, and one that it gets. -/
def changeNumerals (var : VarId) (pre : Option Nat) (post : Nat) : List Numeral :=
  [.int var, .optional pre, .int post]

def Effect.form (e : Effect) : LineForm :=
  .numbers <| .int e.conditions.length :: e.conditions.flatMap Fact.numerals
    ++ changeNumerals e.var e.pre e.post

def factForms (facts : List Fact) : List LineForm := .int facts.length :: facts.map Fact.form

def Variable.forms (v : Variable) : List LineForm :=
  [.name "begin_variable", .name v.name, .int v.layer, .int v.values.length]
    ++ v.values.map .name ++ [.name "end_variable"]

def mutexForms (group : List Fact) : List LineForm :=
  .name "begin_mutex_group" :: factForms group ++ [.name "end_mutex_group"]

def Operator.forms (op : Operator) : List LineForm :=
  [.name "begin_operator", .name op.name] ++ factForms op.prevail
    ++ .int op.effects.length :: op.effects.map Effect.form
    ++ [.int op.cost, .name "end_operator"]

def Rule.forms (r : Rule) : List LineForm :=
  .name "begin_rule" :: factForms r.conditions
    ++ [.numbers (changeNumerals r.var r.pre r.post), .name "end_rule"]

/-- The forms of the lines of a task. -/
def Task.forms (t : Task) : List LineForm :=
  [.name "begin_version", .name "3", .name "end_version"]
    ++ [.name "begin_metric", .numbers [.flag t.metric], .name "end_metric"]
    ++ .int t.vars.length :: t.vars.flatMap Variable.forms
    ++ .int t.mutexes.length :: t.mutexes.flatMap mutexForms
    ++ .name "begin_state" :: t.init.map (fun value => .int value) ++ [.name "end_state"]
    ++ .name "begin_goal" :: factForms t.goal ++ [.name "end_goal"]
    ++ .int t.operators.length :: t.operators.flatMap Operator.forms
    ++ .int t.rules.length :: t.rules.flatMap Rule.forms

section Written

@[simp] theorem LineForm.text_name (text : String) : (name text).text = text := rfl

@[simp] theorem LineForm.text_int (n : Int) : (int n).text = toString n := by
  simp [text, int, Numeral.text]

/-- A number without a sign is written as a natural number. -/
@[simp] theorem repr_natCast (n : Nat) : (n : Int).repr = n.repr := rfl

@[simp] theorem Fact.text_form (f : Fact) : f.form.text = f.line := rfl

theorem map_text_numerals (fs : List Fact) :
    (fs.flatMap Fact.numerals).map Numeral.text = fs.flatMap Fact.words := by
  rw [List.map_flatMap]
  rfl

@[simp] theorem text_changeNumerals (var post : Nat) (pre : Option Nat) :
    (changeNumerals var pre post).map Numeral.text =
      [toString var, optionalValue pre, toString post] := rfl

@[simp] theorem Effect.text_form (e : Effect) : e.form.text = e.line := by
  rw [Effect.form, LineForm.text, List.cons_append, List.map_cons, List.map_append,
    map_text_numerals, text_changeNumerals]
  rfl

@[simp] theorem map_text_factForms (fs : List Fact) :
    (factForms fs).map LineForm.text = factLines fs := by
  simp [factForms, factLines]

@[simp] theorem Variable.map_text_forms (v : Variable) : v.forms.map LineForm.text = v.lines := by
  simp [Variable.forms, Variable.lines, Function.comp_def]

@[simp] theorem map_text_mutexForms (group : List Fact) :
    (mutexForms group).map LineForm.text = mutexLines group := by
  simp [mutexForms, mutexLines]

@[simp] theorem Operator.map_text_forms (op : Operator) :
    op.forms.map LineForm.text = op.lines := by
  simp [Operator.forms, Operator.lines]

@[simp] theorem Rule.map_text_forms (r : Rule) : r.forms.map LineForm.text = r.lines := by
  simp [Rule.forms, Rule.lines, LineForm.text]

/-- The forms of a task are written as its lines. -/
theorem Task.map_text_forms (t : Task) : t.forms.map LineForm.text = t.lines := by
  have hmetric : (LineForm.numbers [.flag t.metric]).text = if t.metric then "1" else "0" := by
    simp [LineForm.text, Numeral.text]
  simp [Task.forms, Task.lines, List.map_flatMap, Function.comp_def, hmetric]

end Written

end PlanConstraints

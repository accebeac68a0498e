set_option autoImplicit false

/-!
# Translators of temporal formulas

A translator turns a temporal formula, written with operators between operands, into the never-claim
of an automaton.
-/

namespace PlanConstraints

/-- Causes for which a formula gets no never-claim. -/
inductive TranslatorError where
  /-- The program cannot be run. -/
  | spawn (program reason : String)
  /-- The program ends with an error. -/
  | failed (program formula status complaint : String)
  | emptyOutput (program formula : String)
  /-- The program prints what is not a text. -/
  | invalidOutput (program reason : String)
  /-- The translator does not know the formula. -/
  | unavailable (formula : String)
  deriving DecidableEq, Repr

/-- The text of the error. -/
def TranslatorError.message : TranslatorError → String
  | spawn program reason => "could not run `" ++ program ++ "`: " ++ reason
  | failed program formula status complaint =>
    "`" ++ program ++ "` failed (" ++ status ++ ") on formula `" ++ formula ++ "`: " ++ complaint
  | emptyOutput program formula =>
    "`" ++ program ++ "` produced no output for formula `" ++ formula ++ "`"
  | invalidOutput program reason =>
    "`" ++ program ++ "` produced output that is not valid UTF-8: " ++ reason
  | unavailable formula => "no translation available for formula `" ++ formula ++ "`"

/-- A translator. -/
structure Translator where
  /-- The never-claim of a formula. -/
  translate : String → Except TranslatorError String
  /-- Where the never-claim of a formula comes from, as shown in errors. -/
  describe : String → String

/-- How a translator with nothing more to say of itself describes the never-claim of a formula. -/
def Translator.describeFormula (formula : String) : String := "<translation of " ++ formula ++ ">"

/-- The translator that knows the formulas of a table. -/
def Translator.ofTable (table : List (String × String)) : Translator where
  translate formula :=
    match table.lookup formula with
    | some claim => .ok claim
    | none => .error (.unavailable formula)
  describe := describeFormula

end PlanConstraints

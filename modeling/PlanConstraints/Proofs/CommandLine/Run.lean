import PlanConstraints.CommandLine.Run
import PlanConstraints.Proofs.Compile.Additions
import PlanConstraints.Proofs.Temporal.Additions

set_option autoImplicit false

/-!
# What a run makes, whatever program it asks

A compilation is about a translator, which answers a formula always in the same way.  A run asks a
program instead, one formula after the other, and each call sees the files that the calls before it
left.  Nothing is assumed here of the program but that it leaves the files as they are
(`TranslatorProgram.KeepsFiles`): then its answers are those of one translator (`automataOf_eq`),
and a run succeeds exactly if the compilation with this translator does and its task can be put
where it is asked for (`runOptions_eq_ok_iff`).
-/

namespace PlanConstraints

namespace TranslatorProgram

variable {program : TranslatorProgram} {files : FileTree}

/-- The program leaves the files as they are, whatever formula it is asked about. -/
def KeepsFiles (program : TranslatorProgram) (files : FileTree) : Prop :=
  ∀ formula, (program.translate files formula).1 = files

/-- It is enough that the calls that end leave the files as they are; a program that cannot be run
changes nothing. -/
theorem keepsFiles_of_run
    (h : ∀ call outcome, program.run call = .ok outcome → outcome.files = call.files) :
    program.KeepsFiles files := by
  intro formula
  unfold translate
  split
  · rfl
  · split
    · rfl
    · next outcome houtcome => exact h _ outcome houtcome

end TranslatorProgram

namespace CommandLine

variable {program : TranslatorProgram} {files after : FileTree}

/-! ## The program as a translator -/

/-- The automata are those of the translator that asks the program about every formula with the same
files. -/
theorem automataOf_eq (hkeeps : program.KeepsFiles files) (ps : List Property) :
    automataOf program files ps =
      (files, traverse (automatonOf (program.toTranslator files)) ps) := by
  induction ps with
  | nil => rfl
  | cons p ps ih =>
    cases hformula : genericFormula p with
    | error e => simp only [automataOf, traverse, automatonOf, hformula]
    | ok formula =>
      have hcall : program.translate files formula =
          (files, (program.toTranslator files).translate formula) :=
        Prod.ext (hkeeps formula) rfl
      have hp : automatonOf (program.toTranslator files) p =
          automatonOfAnswer p (program.describe formula)
            ((program.toTranslator files).translate formula) := by
        rw [automatonOf, hformula]
        rfl
      simp only [automataOf, traverse, hformula, hcall, hp, ih]
      cases automatonOfAnswer p (program.describe formula)
          ((program.toTranslator files).translate formula) with
      | error e => rfl
      | ok automaton =>
        cases traverse (automatonOf (program.toTranslator files)) ps <;> rfl

/-- A compilation with the program is one with its translator. -/
theorem compileWith_eq (hkeeps : program.KeepsFiles files) (dialect : Dialect)
    (options : CompileOptions) (t : Task) (set : PropertySet) :
    compileWith dialect options program files t set =
      (files, compile dialect options (program.toTranslator files) t set) := by
  cases dialect with
  | actionSets => rfl
  | temporal =>
    simp only [compileWith, compile, compileTemporal, automataOf_eq hkeeps]
    cases traverse (automatonOf (program.toTranslator files)) set.temporal <;> rfl

/-! ## Runs -/

variable {o : Options} {s : Surroundings}

/-- The program that a run asks. -/
abbrev Surroundings.translatorProgram (s : Surroundings) : TranslatorProgram :=
  translator s.settings s.runner s.programEnvironment

/-- A run that asks for a task compiles what it has read with the answers of the program, and puts
the task where it is asked for; the files stay as they are up to that.

Only `hkeeps` ties the run to one translator; nothing is assumed of the answers. -/
theorem runOptions_eq (hkeeps : s.translatorProgram.KeepsFiles files)
    (hfolder : o.exclusivityFolder = none) :
    runOptions o s files =
      match readProperties o files with
      | .error e => ⟨.error e, files⟩
      | .ok set =>
        match readTask o files with
        | .error e => ⟨.error e, files⟩
        | .ok t =>
          match compile o.dialect (compileOptions o s.settings)
              (s.translatorProgram.toTranslator files) t set with
          | .error e => ⟨.error (.compile e), files⟩
          | .ok compiled => putTask o files compiled.task := by
  unfold runOptions
  simp only [hfolder, compileWith_eq hkeeps]
  cases readProperties o files with
  | error e => rfl
  | ok set =>
    cases readTask o files with
    | error e => rfl
    | ok t =>
      simp only
      cases compile o.dialect (compileOptions o s.settings)
        (s.translatorProgram.toTranslator files) t set <;> rfl

/-- A task is put on the output, or else it is written to the file that is named. -/
theorem putTask_eq_ok_iff {t : Task} {printed : String} :
    putTask o files t = ⟨.ok printed, after⟩ ↔
      (o.output = none ∧ printed = t.text ∧ after = files) ∨
      ∃ path, o.output = some path ∧ printed = "" ∧ files.write path t.text = .ok after := by
  unfold putTask
  cases o.output with
  | none => simp [eq_comm]
  | some path => cases hwrite : files.write path t.text <;> simp [hwrite, eq_comm]

/-- A task that cannot be put where it is asked for changes no file. -/
theorem files_of_putTask_error {t : Task} {e : RunError}
    (h : putTask o files t = ⟨.error e, after⟩) : after = files := by
  unfold putTask at h
  split at h
  · cases h
  · split at h
    · cases h
      rfl
    · cases h

/-- A run succeeds exactly if the properties and the task can be read, they compile, and the
compiled task can be put where it is asked for, which makes what is printed and the files. -/
theorem runOptions_eq_ok_iff (hkeeps : s.translatorProgram.KeepsFiles files)
    (hfolder : o.exclusivityFolder = none) {printed : String} :
    runOptions o s files = ⟨.ok printed, after⟩ ↔
      ∃ set t compiled, readProperties o files = .ok set ∧ readTask o files = .ok t ∧
        compile o.dialect (compileOptions o s.settings) (s.translatorProgram.toTranslator files) t
          set = .ok compiled ∧
        putTask o files compiled.task = ⟨.ok printed, after⟩ := by
  rw [runOptions_eq hkeeps hfolder]
  cases readProperties o files with
  | error e => simp
  | ok set =>
    cases readTask o files with
    | error e => simp
    | ok t =>
      cases hcompile : compile o.dialect (compileOptions o s.settings)
          (s.translatorProgram.toTranslator files) t set <;> simp [hcompile]

/-- A run that fails leaves the files as they are, unless it writes files for pairs of properties,
of which those before the failure stay. -/
theorem files_of_runOptions_error (hkeeps : s.translatorProgram.KeepsFiles files)
    (hfolder : o.exclusivityFolder = none) {e : RunError}
    (h : runOptions o s files = ⟨.error e, after⟩) : after = files := by
  rw [runOptions_eq hkeeps hfolder] at h
  split at h
  · cases h
    rfl
  · split at h
    · cases h
      rfl
    · split at h
      · cases h
        rfl
      · exact files_of_putTask_error h

/-- A run that prints a task prints one with additions to the task that it has read, and leaves the
files as they are. -/
theorem exists_appendsTo_of_runOptions (hkeeps : s.translatorProgram.KeepsFiles files)
    (hfolder : o.exclusivityFolder = none) (houtput : o.output = none) {printed : String}
    (h : runOptions o s files = ⟨.ok printed, after⟩) :
    after = files ∧ ∃ set t u, readProperties o files = .ok set ∧ readTask o files = .ok t ∧
      Task.AppendsTo (o.dialect.valueName (compileOptions o s.settings) set) t u ∧
      printed = u.text := by
  obtain ⟨set, t, compiled, hset, ht, hcompile, hput⟩ := (runOptions_eq_ok_iff hkeeps hfolder).mp h
  obtain ⟨-, hprinted, hafter⟩ | ⟨path, hpath, -⟩ := putTask_eq_ok_iff.mp hput
  · refine ⟨hafter, set, t, compiled.task, hset, ht, ?_, hprinted⟩
    cases hdialect : o.dialect with
    | actionSets =>
      rw [hdialect] at hcompile
      exact appendsTo_compileActionSets hcompile
    | temporal =>
      rw [hdialect] at hcompile
      exact appendsTo_compileTemporal hcompile
  · rw [houtput] at hpath
    cases hpath

end CommandLine

end PlanConstraints

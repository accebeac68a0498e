import Mathlib.Logic.Relation
import PlanConstraints.Compile.Modes
import PlanConstraints.Parameter
import PlanConstraints.Proofs.Task.Reading
import PlanConstraints.Proofs.Task.RoundTrip
import PlanConstraints.Proofs.Temporal.WellFormed

set_option autoImplicit false

/-!
# Compiled tasks are written and read

However many property files are compiled into a task that was read, the result is consistent, and
its text reads as the same task (`compilations_roundTrip`).  Every compilation keeps the task
well-formed, and that is all that the round trip needs.
-/

namespace PlanConstraints

/-- One task becomes another when the properties of some file are compiled into it, with the default
mark of soft goals. -/
def CompilesTo (t t' : Task) : Prop :=
  ∃ (w : World) (dialect dialect' : Dialect) (file : Input) (set : PropertySet)
    (options : CompileOptions) (translator : Translator) (compiled : Compiled),
    PropertyFile.read w dialect file = .ok set ∧ options.softMark = softMark.default ∧
      compile dialect' options translator t set = .ok compiled ∧ compiled.task = t'

theorem isLine_default_softMark : IsLine softMark.default := by decide

/-- Compiling the properties of a file keeps the task well-formed. -/
theorem CompilesTo.wellFormed {t t' : Task} (h : CompilesTo t t') (ht : t.WellFormed) :
    t'.WellFormed := by
  obtain ⟨w, dialect, dialect', file, set, options, translator, compiled, hread, hmark, hcompile,
    rfl⟩ := h
  have hset := PropertyFile.legible_of_read hread
  have hline : IsLine options.softMark := hmark ▸ isLine_default_softMark
  cases dialect' with
  | actionSets => exact wellFormed_compileActionSets ht hset hline hcompile
  | temporal => exact wellFormed_compileTemporal ht hset hline hcompile

/-- Compilations one after the other keep the task well-formed. -/
theorem wellFormed_of_compilations {t₀ t : Task} (h : Relation.ReflTransGen CompilesTo t₀ t)
    (ht : t₀.WellFormed) : t.WellFormed := by
  induction h with
  | refl => exact ht
  | tail _ hlast ih => exact hlast.wellFormed ih

/-- A task that was made of one that was read is consistent, and its text reads as the task, as long
as its lists are not too long for the numbers of the file.

Any number of compilations may follow each other, in either dialect and with any options but the
mark of soft goals, which is the default one (`CompilesTo`).  The second part rests on
`Task.Countable`: without it a list may have more elements than its count can say, and nothing else
can keep a text from being read. -/
theorem compilations_roundTrip {input : Input} {t₀ t : Task} (hread : TaskFile.read input = .ok t₀)
    (hcompiled : Relation.ReflTransGen CompilesTo t₀ t) :
    t.check = .ok () ∧
      (t.Countable → ∀ source, TaskFile.read ⟨t.text, source⟩ = .ok t) := by
  have hwell := wellFormed_of_compilations hcompiled (TaskFile.wellFormed_of_read hread)
  exact ⟨(Task.check_eq_ok_iff t).mpr hwell.consistent, fun hcount source =>
    TaskFile.read_text hwell hcount source⟩

/-- Compiles a property file of a problem without types and objects into a task. -/
def compileFile (options : CompileOptions) (translator : Translator) (t : Task)
    (file : Dialect × Input) : Option Task :=
  (PropertyFile.read .empty file.1 file.2).toOption.bind fun set =>
    (compile file.1 options translator t set).toOption.map Compiled.task

theorem compilesTo_of_compileFile {options : CompileOptions}
    (hmark : options.softMark = softMark.default) {translator : Translator} {t t' : Task}
    {file : Dialect × Input} (h : compileFile options translator t file = some t') :
    CompilesTo t t' := by
  obtain ⟨set, hset, hcompile⟩ := Option.bind_eq_some_iff.mp h
  obtain ⟨compiled, hcompiled, htask⟩ := Option.map_eq_some_iff.mp hcompile
  exact ⟨.empty, file.1, file.1, file.2, set, options, translator, compiled,
    eq_ok_of_toOption hset, hmark, eq_ok_of_toOption hcompiled, htask⟩

/-- Files that are compiled one after the other. -/
theorem compilations_of_foldlM {options : CompileOptions}
    (hmark : options.softMark = softMark.default) {translator : Translator} {t t' : Task}
    {files : List (Dialect × Input)}
    (h : files.foldlM (compileFile options translator) t = some t') :
    Relation.ReflTransGen CompilesTo t t' := by
  induction files generalizing t with
  | nil =>
    cases h
    exact .refl
  | cons file files ih =>
    rw [List.foldlM_cons] at h
    obtain ⟨next, hfile, hrest⟩ := Option.bind_eq_some_iff.mp h
    exact .head (compilesTo_of_compileFile hmark hfile) (ih hrest)

/-! ## A crossing -/

/-- Two steps to the last of three places; the first one has a conditional effect. -/
def crossing : Task where
  metric := true
  vars := [⟨"var0", -1, ["Atom a", "Atom b", "Atom c"]⟩]
  mutexes := [[⟨0, 0⟩, ⟨0, 1⟩]]
  init := [0]
  goal := [⟨0, 2⟩]
  operators := [⟨"go x", [], [⟨0, none, 1, [⟨0, 0⟩]⟩], 1⟩,
    ⟨"go y", [⟨0, 1⟩], [⟨0, none, 2, []⟩], 1⟩]
  rules := [⟨[⟨0, 2⟩], 0, some 1, 2⟩]

theorem wellFormed_crossing : crossing.WellFormed := by decide

/-- A temporal file, in which a place is left or avoided at some time, and a file in which some step
has to be made and the last place is a soft goal. -/
def crossingFiles : List (Dialect × Input) :=
  [(.temporal, .ofText "property visits\n<> ! b\n"),
    (.actionSets, .ofText "set moved 1\ngo *\n\nproperty moves\nmoved\n\nsoft-goals\nc\n")]

/-- The translator that knows an automaton for the temporal file. -/
def avoiding : Translator := .ofTable [("<>(!c0)", "T0_init :\nif\n:: (!c0) -> goto accept_all\n" ++
  ":: (1) -> goto T0_init\nfi;\naccept_all :\nskip\n")]

/-- With goals, negated checks and auxiliary variables, both files make a task of eight variables
and eight operators, which is written and read. -/
theorem crossing_roundTrip : ∃ t, TaskFile.read ⟨crossing.text, none⟩ = .ok crossing ∧
    Relation.ReflTransGen CompilesTo crossing t ∧ t.vars.length = 8 ∧ t.operators.length = 8 ∧
      t.Countable ∧ t.check = .ok () ∧ TaskFile.read ⟨t.text, none⟩ = .ok t := by
  have hread := TaskFile.read_text wellFormed_crossing (by decide) none
  have hrun : (crossingFiles.foldlM
      (compileFile ⟨true, true, true, .exact, softMark.default⟩ avoiding) crossing).map (fun t =>
        decide (t.vars.length = 8 ∧ t.operators.length = 8 ∧ t.Countable)) = some true := by
    decide +kernel
  obtain ⟨t, hcompiled, hfacts⟩ := Option.map_eq_some_iff.mp hrun
  obtain ⟨hvars, hops, hcount⟩ := of_decide_eq_true hfacts
  have hsteps := compilations_of_foldlM rfl hcompiled
  obtain ⟨hcheck, htext⟩ := compilations_roundTrip hread hsteps
  exact ⟨t, hread, hsteps, hvars, hops, hcount, hcheck, htext hcount none⟩

end PlanConstraints

import PlanConstraints.Proofs.Task.Blocks

set_option autoImplicit false

/-!
# Lines that were read

Nothing of a file is lost: its lines that are not blank are those that the task is written with, one
for one, up to the spelling of numbers (`lines_of_read`).  What may differ is said line by line by
the forms of a task, which are its written lines before the numbers in them are spelled; the reader
of tasks is followed by them (`followed_of_read`).
-/

namespace PlanConstraints

/-- The lines that are not blank. -/
def Input.contentLines (input : Input) : List Line := input.lines.filter fun l => !l.isBlank

/-- What is in the lines that are not blank. -/
def Input.contents (input : Input) : List String := input.contentLines.map Line.trimmed

namespace TaskFile

open Reader

/-- A file is refused as its lines are. -/
theorem read_of_error {input : Input} {e : FileError}
    (h : taskParts ⟨none, input.contentLines⟩ = .error e) : read input = .error e := by
  have htask : task ⟨none, input.contentLines⟩ = .error e := by
    rw [task_eq, bind_of_error h]
  rw [read, ← Input.contentLines, htask]

/-- The contents of a file that was read are taken for the task, line by line. -/
theorem followed_of_read {input : Input} {t : Task} (h : read input = .ok t) :
    Followed taskParts input.contents t.forms t := by
  unfold read at h
  split at h
  · cases h
  · next t' p hread =>
    split at h
    · cases h
    · cases h
      rw [task_eq] at hread
      obtain ⟨t', p', hparts, hread⟩ := exists_of_bind hread
      obtain ⟨_, p'', hend, hpure⟩ := exists_of_bind hread
      cases hpure
      obtain ⟨lines, _, hrest, hfollowed, rfl⟩ := follows_taskParts _ _ _ hparts
      have hlast : p'.rest = [] := by
        unfold endOfTask at hend
        split at hend
        · next hnil => exact hnil
        · cases hend
      rw [hlast, List.append_nil] at hrest
      have hcontents : input.contents = lines.map Line.trimmed := congrArg _ hrest
      rwa [hcontents]

/-- The written form of a task that was read has the lines of the file that are not blank, in their
order, and each of them is, without the white space around it, a spelling of the line that is
written for it.

Nothing is asked but that the file was read: it may have blank lines, white space around its lines,
and numbers with signs and zeros in front, which are what `LineForm.SpelledBy` allows. -/
theorem lines_of_read {input : Input} {t : Task} (h : read input = .ok t) :
    (Input.ofText t.text).lines.map Line.text = t.forms.map LineForm.text ++ [""] ∧
      List.Forall₂ (fun form (l : Line) => form.SpelledBy l.trimmed) t.forms
        (input.lines.filter fun l => !l.isBlank) := by
  have hlegible := (wellFormed_of_read h).legible
  have hwritten : (Input.ofText t.text).lines.map Line.text = t.lines ++ [""] :=
    map_text_lines (fun text htext =>
      ⟨(isLine_of_mem_lines hlegible text htext).2,
        (isLine_of_mem_lines hlegible text htext).getLast?_ne_return⟩) none
  refine ⟨by rw [hwritten, t.map_text_forms], ?_⟩
  exact List.forall₂_map_right_iff.mp (followed_of_read h).spelled

end TaskFile

/-! ## A fan -/

/-- A fan that is slow or fast while it runs. -/
def fan : Task where
  metric := true
  vars := [⟨"var0", -1, ["Atom still", "Atom slow", "Atom fast"]⟩, ⟨"var1", -1, ["off", "on"]⟩]
  mutexes := [[⟨0, 1⟩, ⟨0, 2⟩]]
  init := [0, 1]
  goal := [⟨0, 2⟩]
  operators := [⟨"speed up", [⟨1, 1⟩], [⟨0, none, 2, [⟨0, 1⟩]⟩, ⟨0, some 0, 1, []⟩], 10⟩]
  rules := [⟨[], 1, none, 0⟩]

/-- The lines of the fan as they may be written by hand. -/
def fanLines : List String :=
  ["begin_version", "  3", "end_version", "", "begin_metric", "7", "end_metric", "+02",
    "begin_variable", "var0", "-01", "3", "  Atom still", "  Atom slow\r", "  Atom fast",
    "end_variable", "begin_variable", "var1", "-1", "2", "off", "on", "end_variable", "1",
    "begin_mutex_group", "2", "0 1", "00\t2", "end_mutex_group", "begin_state", "0", "+1",
    "end_state", "begin_goal", "1", "0  2", "end_goal", "1", "begin_operator", "speed up", "1",
    "1 1", "2", "1 0 1  0 -5 2", "0  0 -0 1", "010", "end_operator", "1", "begin_rule", "0",
    "1 -0002 0", "end_rule", ""]

def fanText : String := String.join (fanLines.map fun line => line ++ "\n")

theorem fan_lines : TaskFile.read ⟨fanText, none⟩ = .ok fan ∧
    (Input.ofText fan.text).lines.map Line.text = fan.forms.map LineForm.text ++ [""] ∧
      List.Forall₂ (fun form (l : Line) => form.SpelledBy l.trimmed) fan.forms
        ((Input.ofText fanText).lines.filter fun l => !l.isBlank) := by
  have htext : fanText.toList = fanLines.flatMap fun line => line.toList ++ ['\n'] := by
    simp [fanText, List.flatMap_map]
  have htask : (TaskFile.task ⟨none, (Input.lines ⟨fanText, none⟩).filter fun l =>
      !l.isBlank⟩).toOption.map Prod.fst = some fan := by
    simp only [Input.lines, htext]
    decide +kernel
  obtain ⟨⟨t, p⟩, htask, rfl⟩ := Option.map_eq_some_iff.mp htask
  have hcheck : fan.check = .ok () := by decide +kernel
  have hread : TaskFile.read ⟨fanText, none⟩ = .ok fan := by
    rw [TaskFile.read, eq_ok_of_toOption htask]
    simp only [hcheck]
  exact ⟨hread, TaskFile.lines_of_read hread⟩

end PlanConstraints

import PlanConstraints.Proofs.Task.Domains
import PlanConstraints.Proofs.Task.Lines

set_option autoImplicit false

/-!
# Files that are cut off or go on

The lists of a file are as long as the numbers in front of them say, so that a file that was read is
complete where it ends and nowhere before (`refused_cut_or_extended`).
-/

namespace PlanConstraints

/-- The texts, one below the other. -/
def Input.ofLines (texts : List String) : Input :=
  .ofText (String.join (texts.map fun text => text ++ "\n"))

theorem Input.contents_ofLines {texts : List String} (h : ∀ text ∈ texts, IsLine text) :
    (Input.ofLines texts).contents = texts := map_trimmed_lines h none

namespace TaskFile

open Reader

/-- A file that was read is refused when one or more of its last lines are missing, at the end of
what is left, and when one or more lines follow its own, at the first of these; blank lines do not
count.

The hypotheses are about the lines that are not blank alone; what the lines that follow hold does
not matter. -/
theorem refused_cut_or_extended {input : Input} {t : Task} (h : read input = .ok t) :
    (∀ (short : Input) (cut : List String), short.contents ++ cut = input.contents → cut ≠ [] →
      ∃ what, read short = .error (.endOfFile what short.contentLines.getLast?)) ∧
    ∀ (long : Input) (added : List String), long.contents = input.contents ++ added → added ≠ [] →
      ∃ l, long.contentLines[input.contents.length]? = some l ∧
        read long = .error (.trailing l) := by
  have hfollowed := followed_of_read h
  constructor
  · intro short cut hcut hne
    obtain ⟨what, hwhat⟩ := hfollowed.needs short.contentLines none cut hcut hne
    rw [Option.or_none] at hwhat
    exact ⟨what, read_of_error hwhat⟩
  · intro long added hadded hne
    obtain ⟨front, more, hlines, hfront, hmore⟩ := List.map_eq_append_iff.mp hadded
    obtain ⟨l, more, rfl⟩ : ∃ l more', more = l :: more' := by
      apply List.exists_cons_of_ne_nil
      rintro rfl
      exact hne hmore.symm
    have hlength : front.length = input.contents.length := by rw [← hfront, List.length_map]
    have htask : task ⟨none, long.contentLines⟩ = .error (.trailing l) := by
      rw [task_eq, hlines, bind_of_ok (hfollowed.reads front (l :: more) none hfront)]
      rfl
    refine ⟨l, ?_, ?_⟩
    · rw [hlines, ← hlength, List.getElem?_append_right (Nat.le_refl _), Nat.sub_self]
      rfl
    · rw [read, ← Input.contentLines, htask]

end TaskFile

theorem read_lamp : TaskFile.read (.ofLines lamp.lines) = .ok lamp :=
  TaskFile.read_text wellFormed_lamp (by decide) none

/-- The file of the lamp without its last two lines, and with another rule behind them. -/
theorem lamp_refused : TaskFile.read (.ofLines lamp.lines) = .ok lamp ∧
    (∃ what, TaskFile.read (.ofLines lamp.lines.dropLast.dropLast) =
      .error (.endOfFile what (Input.ofLines lamp.lines.dropLast.dropLast).contentLines.getLast?)) ∧
    ∃ l, (Input.ofLines (lamp.lines ++ ["begin_rule"])).contentLines[lamp.lines.length]? = some l ∧
      TaskFile.read (.ofLines (lamp.lines ++ ["begin_rule"])) = .error (.trailing l) := by
  have hlines := TaskFile.isLine_of_mem_lines wellFormed_lamp.legible
  have hcontents := Input.contents_ofLines hlines
  have hcut :
      (Input.ofLines lamp.lines.dropLast.dropLast).contents = lamp.lines.dropLast.dropLast :=
    Input.contents_ofLines fun text htext =>
      hlines text (List.dropLast_subset _ (List.dropLast_subset _ htext))
  have hadded : (Input.ofLines (lamp.lines ++ ["begin_rule"])).contents =
      lamp.lines ++ ["begin_rule"] :=
    Input.contents_ofLines <| List.forall_mem_append.mpr ⟨hlines, by decide⟩
  obtain ⟨hshort, hlong⟩ := TaskFile.refused_cut_or_extended read_lamp
  rw [hcontents] at hshort hlong
  refine ⟨read_lamp, ?_, ?_⟩
  · apply hshort _ ["1 1 0", "end_rule"]
    · rw [hcut]
      decide
    · exact List.cons_ne_nil _ _
  · exact hlong _ ["begin_rule"] hadded (List.cons_ne_nil _ _)

end PlanConstraints

import PlanConstraints.Proofs.Task.Truncation

set_option autoImplicit false

/-!
# Negative numbers in files

Where a number of a file that was read is replaced by a negative one, in a place where none may be,
the file is refused (`refusedAt_of_negative`).  The error is located at the line of the number for
the effects of operators, but one line below it, at the end of the rule, for the change of a rule.
-/

namespace PlanConstraints

/-- The second file has the contents of the first one, but for one word: in that line, counted
without the blank ones, a spelling of the number stands at that place. -/
inductive Input.ReplacesNumber (input input' : Input) (i place : Nat) (n : Int) : Prop where
  | mk {text found word : String} (htext : input.contents[i]? = some text)
    (hcontents : input'.contents = input.contents.set i found)
    (hfound : Text.wordsOf found = (Text.wordsOf text).set place word)
    (hword : Text.Spells word n)

theorem Line.length_span (l : Line) : l.span.length = Text.byteLength l.trimmed.toList := by
  rw [Line.span_eq, Piece.span, Span.length, Nat.add_sub_cancel_left, Line.trimmed, Piece.text,
    String.toList_ofList]

namespace TaskFile

/-- The file is refused with an error located at that line, counted without the blank ones. -/
def RefusedAt (input : Input) (i : Nat) : Prop :=
  ∃ e l, read input = .error e ∧ input.contentLines[i]? = some l ∧
    e.toMessage.fault.map Note.span = some l.span

theorem refusedAt_of_checked {input input' : Input} {t : Task} (h : read input = .ok t)
    {i place late : Nat} {n : Int} (hneg : n < 0) (hnumber : input.ReplacesNumber input' i place n)
    {form : LineForm} (hform : t.forms[i]? = some form) (hchecked : form.Checked place late) :
    RefusedAt input' (i + if -2 ^ 63 ≤ n then late else 0) := by
  obtain ⟨htext, hcontents, hfound, hword⟩ := hnumber
  obtain ⟨l, hl, e, he, hline⟩ := (followed_of_read h).refuses hform htext
    (.mk hchecked hword hneg hfound) input'.contentLines [] none hcontents
  rw [List.append_nil] at he
  refine ⟨e, l, read_of_error he, hl, ?_⟩
  rw [e.span_toMessage, hline]
  rfl

/-- A file that was read is refused with a negative number in the place of a variable or a value of
an effect, of its conditions, what it affects or the new value, or of a rule, what it affects or the
new value.  For an effect the error is located at the line of the number.  For a rule it is located
at the line below, unless the number does not have the width of its field.

In the line of an effect there are the number of conditions, a variable and a value for each of
them, the affected variable, the value that is needed and the new value; in that of a rule, the last
three. -/
theorem refusedAt_of_negative {input input' : Input} {t : Task} (h : read input = .ok t)
    {i place : Nat} {n : Int} (hneg : n < 0) (hnumber : input.ReplacesNumber input' i place n) :
    (∀ e : Effect, t.forms[i]? = some e.form → place ≠ 0 → place ≠ 2 * e.conditions.length + 2 →
      place < 2 * e.conditions.length + 4 → RefusedAt input' i) ∧
    ∀ r : Rule, t.forms[i]? = some (.numbers (changeNumerals r.var r.pre r.post)) →
      place = 0 ∨ place = 2 → RefusedAt input' (if -2 ^ 63 ≤ n then i + 1 else i) := by
  constructor
  · intro e hform hcount hpre hplace
    have hrefused := refusedAt_of_checked h hneg hnumber hform (.effect e hcount hpre hplace)
    rwa [ite_self, Nat.add_zero] at hrefused
  · intro r hform hplace
    have hrefused := refusedAt_of_checked h hneg hnumber hform (.change r.var r.post r.pre hplace)
    split at hrefused
    · next hwidth => rwa [if_pos hwidth]
    · next hwide => rwa [if_neg hwide]

/-- Lines at which a file is refused have the same length: the error has one location. -/
theorem RefusedAt.byteLength_eq {input : Input} {i j : Nat} (hi : RefusedAt input i)
    (hj : RefusedAt input j) {text text' : String} (htext : input.contents[i]? = some text)
    (htext' : input.contents[j]? = some text') :
    Text.byteLength text.toList = Text.byteLength text'.toList := by
  obtain ⟨e, l, he, hl, hspan⟩ := hi
  obtain ⟨e', l', he', hl', hspan'⟩ := hj
  rw [Input.contents, List.getElem?_map, hl] at htext
  rw [Input.contents, List.getElem?_map, hl'] at htext'
  cases htext
  cases htext'
  rw [he] at he'
  cases he'
  rw [← l.length_span, ← l'.length_span, Option.some.inj (hspan.symm.trans hspan')]

end TaskFile

/-! ## A lamp with a negative number -/

/-- The file of the lamp with another text in one of its lines. -/
def lampWith (i : Nat) (found : String) : Input := .ofLines (lamp.lines.set i found)

theorem contents_lampWith {i : Nat} {found : String} (hline : IsLine found) :
    (lampWith i found).contents = lamp.lines.set i found := by
  apply Input.contents_ofLines
  intro text htext
  rcases List.mem_or_eq_of_mem_set htext with hmem | rfl
  · exact TaskFile.isLine_of_mem_lines wellFormed_lamp.legible text hmem
  · exact hline

theorem replacesNumber_lampWith {i place : Nat} {text found word : String} {n : Int}
    (htext : lamp.lines[i]? = some text) (hline : IsLine found)
    (hfound : Text.wordsOf found = (Text.wordsOf text).set place word)
    (hword : Text.Spells word n) :
    (Input.ofLines lamp.lines).ReplacesNumber (lampWith i found) i place n := by
  have hcontents : (Input.ofLines lamp.lines).contents = lamp.lines :=
    Input.contents_ofLines (TaskFile.isLine_of_mem_lines wellFormed_lamp.legible)
  refine .mk ?_ ?_ hfound hword
  · rw [hcontents, htext]
  · rw [contents_lampWith hline, hcontents]

theorem spells_minus_one : Text.Spells "-1" (-1) := @Text.spells_of_integer? 64 _ _ (by decide)

/-- The variable of a condition of the effect, and the new value of the rule. -/
theorem lamp_refusedAt : TaskFile.read (.ofLines lamp.lines) = .ok lamp ∧
    TaskFile.RefusedAt (lampWith 41 "1 -1 0 0 0 1") 41 ∧
      TaskFile.RefusedAt (lampWith 48 "1 1 -1") 49 := by
  have heffect : (Input.ofLines lamp.lines).ReplacesNumber (lampWith 41 "1 -1 0 0 0 1") 41 1 (-1) :=
    replacesNumber_lampWith rfl (by decide) (by decide) spells_minus_one
  have hrule : (Input.ofLines lamp.lines).ReplacesNumber (lampWith 48 "1 1 -1") 48 2 (-1) :=
    replacesNumber_lampWith rfl (by decide) (by decide) spells_minus_one
  refine ⟨read_lamp, ?_, ?_⟩
  · apply (TaskFile.refusedAt_of_negative read_lamp (by decide) heffect).1 ⟨0, some 0, 1, [⟨0, 0⟩]⟩
    · rfl
    · decide
    · decide
    · decide
  · exact (TaskFile.refusedAt_of_negative read_lamp (by decide) hrule).2 ⟨[⟨0, 1⟩], 1, some 1, 0⟩
      rfl (.inr rfl)

/-- The error for the affected variable of the rule is not located at its line. -/
theorem lamp_not_refusedAt : TaskFile.read (.ofLines lamp.lines) = .ok lamp ∧
    (Input.ofLines lamp.lines).ReplacesNumber (lampWith 48 "-1 1 0") 48 0 (-1) ∧
      lamp.forms[48]? = some (.numbers (changeNumerals 1 (some 1) 0)) ∧
        ¬ TaskFile.RefusedAt (lampWith 48 "-1 1 0") 48 := by
  have hnumber : (Input.ofLines lamp.lines).ReplacesNumber (lampWith 48 "-1 1 0") 48 0 (-1) :=
    replacesNumber_lampWith rfl (by decide) (by decide) spells_minus_one
  refine ⟨read_lamp, hnumber, rfl, ?_⟩
  intro hrefused
  have hform : lamp.forms[48]? = some (.numbers (changeNumerals 1 (some 1) 0)) := rfl
  have hend := TaskFile.refusedAt_of_checked read_lamp (by decide) hnumber hform
    (.change 1 0 (some 1) (.inl rfl))
  rw [if_pos (by decide)] at hend
  have hcontents := contents_lampWith (i := 48) (by decide : IsLine "-1 1 0")
  have hlength : Text.byteLength "-1 1 0".toList = Text.byteLength "end_rule".toList :=
    hrefused.byteLength_eq hend (by rw [hcontents]; rfl) (by rw [hcontents]; rfl)
  revert hlength
  decide

end PlanConstraints

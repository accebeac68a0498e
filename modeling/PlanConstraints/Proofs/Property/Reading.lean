import PlanConstraints.Property.File

set_option autoImplicit false

/-!
# What lines of a property file do

What each function of the reader can have done when it succeeds; for a line as a whole, these are
the steps of `Step`.
-/

namespace PlanConstraints

namespace PropertyFile

variable {w : World} {dialect : Dialect} {r r' : PropertySet} {line : Line}

/-- What a block declares is added, if it reads as a set. -/
theorem addBlock_eq_ok_iff {block : SetBlock} :
    addBlock w r block = .ok r' ↔ ∃ s, ActionSet.ofBlock w block = .ok s ∧
      r' = { r with actionSets := (r.actionSets.add s).1 } := by
  unfold addBlock
  cases ActionSet.ofBlock w block with
  | error e => simp
  | ok s => simp [eq_comm]

/-- The words of a line open a block. -/
def Opens (line : Line) (read : Block ⊕ Item) : Prop :=
  openSet line line.tokens = .ok read ∨ ∃ soft, openProperty line line.tokens soft = .ok read

/-- A line outside of blocks has no words, or it opens a block, a class or the soft goals. -/
theorem readOutside_eq_ok {s : State} (h : readOutside w dialect r line = .ok s) :
    s = ⟨r, .outside⟩ ∨ (∃ read, Opens line read ∧ continueBlock w dialect r read = .ok s) ∨
      (∃ soft place, ClassDraft.ofHeader line soft = .ok place ∧ s = ⟨r, place⟩) ∨
        s = ⟨r, .softGoals⟩ := by
  unfold readOutside at h
  split at h
  · cases h
    exact .inl rfl
  · next word words hwords =>
    rw [← hwords] at h
    simp only at h
    split at h
    · split at h
      · cases h
      · next read hread => exact .inr (.inl ⟨read, .inl hread, h⟩)
    · split at h
      · cases h
      · next read hread => exact .inr (.inl ⟨read, .inr ⟨false, hread⟩, h⟩)
    · split at h
      · cases h
      · next read hread => exact .inr (.inl ⟨read, .inr ⟨true, hread⟩, h⟩)
    · split at h
      · cases h
      · split at h
        · cases h
        · next place hplace =>
          cases h
          exact .inr (.inr (.inl ⟨false, place, hplace, rfl⟩))
    · split at h
      · cases h
      · split at h
        · cases h
        · next place hplace =>
          cases h
          exact .inr (.inr (.inl ⟨true, place, hplace, rfl⟩))
    · cases h
      exact .inr (.inr (.inr rfl))
    · cases h

/-- A line of the body of a class closes it or opens a block. -/
theorem ClassDraft.readBody_eq_ok {d : ClassDraft} {place : Place}
    (h : d.readBody line = .ok place) : place = .instances d ∨ place = .instancesHead d ∨
      ∃ read, Opens line read ∧ place = d.continueBlock read := by
  unfold readBody at h
  split at h
  · unfold closeBody at h
    split at h
    · split at h <;> cases h
      exact .inl rfl
    · split at h <;> cases h
      exact .inr (.inl rfl)
    · cases h
  · simp only at h
    split at h
    · cases h
    · next read hopened =>
      cases h
      refine .inr (.inr ⟨read, ?_, rfl⟩)
      split at hopened
      · cases hopened
      · next word words hwords =>
        rw [← hwords] at hopened
        split at hopened
        · exact .inl hopened
        · exact .inr ⟨false, hopened⟩
        · exact .inr ⟨true, hopened⟩
        · cases hopened

/-- A line of an instance gives its arguments, one for each parameter. -/
theorem ClassDraft.readInstance_eq_ok {d d' : ClassDraft} (h : d.readInstance line = .ok d') :
    ∃ app, application? line.piece.trim = some app ∧ app.args.length = d.params.length ∧
      d' = d.addInstance app.args := by
  unfold readInstance at h
  split at h
  · cases h
  · next app happ =>
    split at h
    · cases h
    · split at h
      · cases h
      · split at h
        · cases h
        · next hlen =>
          cases h
          exact ⟨app, happ, Decidable.not_not.mp hlen, rfl⟩

/-- What a line can do to the state of the reader. -/
inductive Step (w : World) (dialect : Dialect) (line : Line) : State → State → Prop where
  | stay (s : State) : Step w dialect line s s
  | endGoals (r : PropertySet) : Step w dialect line ⟨r, .softGoals⟩ ⟨r, .outside⟩
  | openBlock {r : PropertySet} {read : Block ⊕ Item} {s : State} (hopens : Opens line read)
      (hcontinue : continueBlock w dialect r read = .ok s) : Step w dialect line ⟨r, .outside⟩ s
  | openClass {r : PropertySet} {soft : Bool} {place : Place}
      (hheader : ClassDraft.ofHeader line soft = .ok place) :
      Step w dialect line ⟨r, .outside⟩ ⟨r, place⟩
  | openGoals (r : PropertySet) : Step w dialect line ⟨r, .outside⟩ ⟨r, .softGoals⟩
  | inBlock {r : PropertySet} {block : Block} {read : Block ⊕ Item} {s : State}
      (hread : block.readLine (dialect == .actionSets) line = .ok read)
      (hcontinue : continueBlock w dialect r read = .ok s) :
      Step w dialect line ⟨r, .block block⟩ s
  | goal (r : PropertySet) : Step w dialect line ⟨r, .softGoals⟩
      ⟨{ r with softGoals := r.softGoals ++ [line.trimmed] }, .softGoals⟩
  | openBody (r : PropertySet) (d : ClassDraft) :
      Step w dialect line ⟨r, .classHead d⟩ ⟨r, .classBody d none⟩
  | inBody {r : PropertySet} {d : ClassDraft} {place : Place}
      (hread : d.readBody line = .ok place) :
      Step w dialect line ⟨r, .classBody d none⟩ ⟨r, place⟩
  | inBodyBlock {r : PropertySet} {d : ClassDraft} {block : Block} {read : Block ⊕ Item}
      (hread : block.readLine true line = .ok read) :
      Step w dialect line ⟨r, .classBody d (some block)⟩ ⟨r, d.continueBlock read⟩
  | openInstances (r : PropertySet) (d : ClassDraft) :
      Step w dialect line ⟨r, .instancesHead d⟩ ⟨r, .instances d⟩
  | addInstance {r : PropertySet} {d d' : ClassDraft} (hread : d.readInstance line = .ok d') :
      Step w dialect line ⟨r, .instances d⟩ ⟨r, .instances d'⟩
  | finish {r r' : PropertySet} {d : ClassDraft} (hfinish : d.finish w r = .ok r') :
      Step w dialect line ⟨r, .instances d⟩ ⟨r', .outside⟩

theorem step_of_readContent {s s' : State} (h : readContent w dialect s line = .ok s') :
    Step w dialect line s s' := by
  obtain ⟨r, place⟩ := s
  unfold readContent at h
  cases place with
  | outside =>
    rcases readOutside_eq_ok h with rfl | ⟨read, hopens, hcontinue⟩ | ⟨soft, place, hheader, rfl⟩
      | rfl
    · exact .stay _
    · exact .openBlock hopens hcontinue
    · exact .openClass hheader
    · exact .openGoals r
  | block block =>
    simp only at h
    split at h
    · cases h
    · next hread => exact .inBlock hread h
  | softGoals =>
    cases h
    exact .goal r
  | classHead d =>
    simp only at h
    split at h
    · cases h
      exact .openBody r d
    · cases h
  | classBody d block =>
    cases block with
    | none =>
      simp only at h
      split at h
      · cases h
      · next hread =>
        cases h
        exact .inBody hread
    | some block =>
      simp only at h
      split at h
      · cases h
      · next hread =>
        cases h
        exact .inBodyBlock hread
  | instancesHead d =>
    simp only at h
    split at h
    · cases h
      exact .openInstances r d
    · cases h
  | instances d =>
    simp only at h
    split at h
    · split at h
      · cases h
      · next hfinish =>
        cases h
        exact .finish hfinish
    · split at h
      · cases h
      · next hread =>
        cases h
        exact .addInstance hread

theorem step_of_readLine {s s' : State} (h : readLine w dialect s line = .ok s') :
    Step w dialect line s s' := by
  unfold readLine at h
  split at h
  · split at h
    · next hplace =>
      cases h
      obtain ⟨r, place⟩ := s
      cases hplace
      exact .endGoals r
    · cases h
      exact .stay s
  · split at h
    · cases h
      exact .stay s
    · exact step_of_readContent h

/-- The lines of a file that is read lead to a place where it may end. -/
theorem exists_of_read {input : Input} {set : PropertySet} (h : read w dialect input = .ok set) :
    ∃ s, foldSteps (readLine w dialect) ⟨.empty, .outside⟩ input.lines = .ok s ∧
      s.place.missing? = none ∧ s.result = set := by
  unfold read at h
  split at h
  · cases h
  · next s hs =>
    split at h
    · cases h
    · next hplace =>
      cases h
      exact ⟨s, hs, hplace, rfl⟩

end PropertyFile

end PlanConstraints

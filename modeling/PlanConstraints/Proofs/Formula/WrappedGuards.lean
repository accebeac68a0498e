import PlanConstraints.Proofs.Formula.Guards

set_option autoImplicit false

/-!
# Guards between parentheses

Parentheses around a whole guard are removed before it is read, and so is the white space around it
and inside of them.  A guard is read as the formula that it was written from, in both of its forms
and however often it is wrapped in this way (`ofText_wrapped`).
-/

namespace PlanConstraints

namespace Guard

/-- A text wrapped any number of times in parentheses and white space. -/
inductive Wraps (inner : List Char) : List Char → Prop where
  | inner : Wraps inner inner
  | spaced (front back : List Char) {cs : List Char} (hcs : Wraps inner cs)
      (hfront : ∀ c ∈ front, Text.isBlank c = true) (hback : ∀ c ∈ back, Text.isBlank c = true) :
      Wraps inner (front ++ cs ++ back)
  | group {cs : List Char} (hcs : Wraps inner cs) : Wraps inner ('(' :: (cs ++ [')']))

variable {f : Formula String} {inner cs : List Char}

/-- Blank characters are no parentheses. -/
theorem ne_parens_of_isBlank {c : Char} (h : Text.isBlank c = true) : c ≠ '(' ∧ c ≠ ')' := by
  constructor
  · rintro rfl
    revert h
    decide
  · rintro rfl
    revert h
    decide

/-- Wrapping keeps parentheses balanced. -/
theorem Wraps.isBalanced (h : Wraps inner cs)
    (hinner : ∀ depth rest, isBalanced depth (inner ++ rest) = isBalanced depth rest) :
    ∀ depth rest, isBalanced depth (cs ++ rest) = isBalanced depth rest := by
  induction h with
  | inner => exact hinner
  | spaced front back hcs hfront hback ih =>
    intro depth rest
    rw [List.append_assoc, List.append_assoc,
      isBalanced_append (fun c hc => ne_parens_of_isBlank (hfront c hc)), ih,
      isBalanced_append (fun c hc => ne_parens_of_isBlank (hback c hc))]
  | group hcs ih =>
    intro depth rest
    rw [List.cons_append, List.append_assoc]
    exact isBalanced_group ih depth rest

/-- What was wrapped is found again. -/
theorem Wraps.stripParens_trim (h : Wraps inner cs)
    (hinner : ∀ depth rest,
      Guard.isBalanced depth (inner ++ rest) = Guard.isBalanced depth rest) :
    stripParens (Text.trim cs) = stripParens (Text.trim inner) := by
  induction h with
  | inner => rfl
  | spaced front back hcs hfront hback ih => rw [Text.trim_append_append hfront hback, ih]
  | group hcs ih =>
    have hbalanced := hcs.isBalanced hinner 0 []
    rw [List.append_nil] at hbalanced
    rw [(Text.isTrimmed_cons_concat (by decide) (by decide) _).trim_eq,
      stripParens_group hbalanced, ih]

/-- A wrapped guard with operators between operands. -/
theorem ofText_infixed (hf : IsGuard f) {text : String}
    (h : Wraps f.infixed.toList text.toList) : ofText text = .ok f := by
  rw [Formula.infixed, String.toList_ofList] at h
  rw [ofText, h.stripParens_trim (isBalanced_infixChars hf), (isTrimmed_infixChars hf).trim_eq,
    stripParens_infixChars hf]
  rcases polish?_core hf with hpolish | hpolish
  · simp only [hpolish]
  · simp only [hpolish]
    exact ofTokens_core hf

/-- The Polish form of a guard has no parentheses. -/
theorem ne_parens_of_mem_polish (hf : IsGuard f) {c : Char} (hc : c ∈ f.polish.toList) :
    c ≠ '(' ∧ c ≠ ')' := by
  rcases of_mem_polish hf hc with hname | hsign
  · exact ne_parens hname
  · have hnone : ∀ d ∈ [' ', '!', '&', '|'], d ≠ '(' ∧ d ≠ ')' := by decide
    exact hnone c hsign

theorem isTrimmed_polish (hf : IsGuard f) : Text.IsTrimmed f.polish.toList := by
  have hne : f.words ≠ [] := by
    cases f with
    | const b => cases b <;> exact List.cons_ne_nil _ _
    | _ => exact List.cons_ne_nil _ _
  refine Text.isTrimmed_intercalate hne fun w hw => ?_
  have hword := Formula.isWord_of_mem_words (fun a ha => hf.isWord ha) hw
  exact hword.isTrimmed

/-- A wrapped guard in Polish form. -/
theorem ofText_polish (hf : IsGuard f) {text : String}
    (h : Wraps f.polish.toList text.toList) : ofText text = .ok f := by
  have htrimmed := isTrimmed_polish hf
  have hplain : ∀ c ∈ f.polish.toList, c ≠ '(' ∧ c ≠ ')' := fun c => ne_parens_of_mem_polish hf
  have hstrip : stripParens f.polish.toList = f.polish.toList := by
    obtain ⟨c, rest, hcons, -⟩ := htrimmed.exists_cons
    have hc := (hplain c (hcons ▸ List.mem_cons_self)).1
    rw [stripParens_eq, hcons, inside?_eq_none hc]
  rw [ofText, h.stripParens_trim (isBalanced_append hplain), htrimmed.trim_eq, hstrip,
    String.ofList_toList]
  simp only [polish?_eq_some hf (Formula.ofText_polish hf.namesAtoms fun a ha => hf.isWord ha)]

/-- A propositional formula is read from both of its forms, however often they are wrapped in
parentheses with white space around them.

`hatoms` keeps atoms from being taken for operators, constants or parentheses.  A text is first
tried as a form with operators between operands, where a Polish form must not be taken for another
formula. -/
theorem ofText_wrapped (f : Formula String) (hprop : f.isPropositional = true)
    (hatoms : ∀ a ∈ f.atoms, IsAtomName a) :
    ofText f.infixed = .ok f ∧ ofText f.polish = .ok f ∧
      ∀ text : String, Wraps f.infixed.toList text.toList ∨ Wraps f.polish.toList text.toList →
        ofText text = .ok f := by
  have hf : IsGuard f := ⟨hprop, hatoms⟩
  refine ⟨ofText_infixed hf .inner, ofText_polish hf .inner, fun text h => ?_⟩
  rcases h with h | h
  · exact ofText_infixed hf h
  · exact ofText_polish hf h

/-- A guard that starts with a group and ends with one, in two pairs of parentheses. -/
theorem ofText_wrapped_or :
    let f : Formula String := .or (.and (.atom "c0") (.neg (.atom "c_1")))
      (.neg (.or (.const true) (.atom "c0")))
    (f.isPropositional = true ∧ ∀ a ∈ f.atoms, IsAtomName a) ∧
      f.infixed = "((c0 && !c_1) || !(true || c0))" ∧
      ofText " (\t( ((c0 && !c_1) || !(true || c0))))\n" = .ok f := by
  intro f
  have hprop : f.isPropositional = true := by decide
  have hatoms : ∀ a ∈ f.atoms, IsAtomName a := by decide +kernel
  have hinfixed : f.infixed = "((c0 && !c_1) || !(true || c0))" := by decide
  refine ⟨⟨hprop, hatoms⟩, hinfixed, (ofText_wrapped f hprop hatoms).2.2 _ (.inl ?_)⟩
  rw [hinfixed]
  exact .spaced [' '] ['\n'] (.group (.spaced ['\t'] [] (.group (.spaced [' '] [] .inner
    (by decide) (by decide))) (by decide) (by decide))) (by decide) (by decide)

end Guard

end PlanConstraints

import PlanConstraints.Proofs.Text.Lines
import PlanConstraints.Proofs.Text.LowerCase

set_option autoImplicit false

/-!
# Spaces behind commas

The spaces that follow a comma can be left out of a text, before or after it is trimmed
(`trim_dropCommaSpaces`) and put in lower case (`lowerAfter_dropCommaSpaces`).  Together with their
number behind each comma, the text without them says what the text is (`eq_of_dropCommaSpaces`).
-/

namespace PlanConstraints.Text

/-- The text without the spaces that follow a comma.  The flag says that the text itself follows a
comma, or a comma with spaces. -/
def dropCommaSpaces (behind : Bool) : List Char → List Char
  | [] => []
  | c :: cs =>
    if behind && c = ' ' then dropCommaSpaces true cs else c :: dropCommaSpaces (c = ',') cs

/-- The number of spaces at the start. -/
def spaces : List Char → Nat
  | [] => 0
  | c :: cs => if c = ' ' then spaces cs + 1 else 0

/-- For every comma the number of spaces that follow it. -/
def commaSpaces : List Char → List Nat
  | [] => []
  | c :: cs => if c = ',' then spaces cs :: commaSpaces cs else commaSpaces cs

variable {cs ds : List Char} {c : Char}

@[simp] theorem dropCommaSpaces_nil (behind : Bool) : dropCommaSpaces behind [] = [] := rfl

@[simp] theorem dropCommaSpaces_space (cs : List Char) :
    dropCommaSpaces true (' ' :: cs) = dropCommaSpaces true cs := rfl

@[simp] theorem dropCommaSpaces_comma (behind : Bool) (cs : List Char) :
    dropCommaSpaces behind (',' :: cs) = ',' :: dropCommaSpaces true cs := by
  cases behind <;> rfl

/-- A character is kept unless it is a space behind a comma. -/
theorem dropCommaSpaces_cons {behind : Bool} (h : behind = true → c ≠ ' ') (cs : List Char) :
    dropCommaSpaces behind (c :: cs) = c :: dropCommaSpaces (c = ',') cs := by
  rw [dropCommaSpaces, if_neg]
  simpa using h

/-- Where there are no commas nothing is left out. -/
theorem dropCommaSpaces_append_of_notMem (h : ',' ∉ cs) (ds : List Char) :
    dropCommaSpaces false (cs ++ ds) = cs ++ dropCommaSpaces false ds := by
  induction cs with
  | nil => rfl
  | cons c cs ih =>
    rw [List.mem_cons, not_or] at h
    have hc : decide (c = ',') = false := decide_eq_false (Ne.symm h.1)
    rw [List.cons_append, dropCommaSpaces_cons (by simp), hc, ih h.2, List.cons_append]

theorem dropCommaSpaces_of_notMem (h : ',' ∉ cs) : dropCommaSpaces false cs = cs := by
  have hnil := dropCommaSpaces_append_of_notMem h []
  rwa [dropCommaSpaces_nil, List.append_nil] at hnil

/-- What is left out of the back of a text depends on the end of the front only. -/
theorem exists_dropCommaSpaces_append (behind : Bool) (cs : List Char) : ∃ behind', ∀ ds,
    dropCommaSpaces behind (cs ++ ds) =
      dropCommaSpaces behind cs ++ dropCommaSpaces behind' ds := by
  induction cs generalizing behind with
  | nil => exact ⟨behind, fun ds => rfl⟩
  | cons c cs ih =>
    by_cases hspace : (behind && c = ' ') = true
    · obtain ⟨behind', happend⟩ := ih true
      refine ⟨behind', fun ds => ?_⟩
      rw [List.cons_append, dropCommaSpaces, if_pos hspace, dropCommaSpaces, if_pos hspace, happend]
    · obtain ⟨behind', happend⟩ := ih (c = ',')
      refine ⟨behind', fun ds => ?_⟩
      rw [List.cons_append, dropCommaSpaces, if_neg hspace, dropCommaSpaces, if_neg hspace, happend,
        List.cons_append]

theorem dropCommaSpaces_subset (behind : Bool) (cs : List Char) :
    dropCommaSpaces behind cs ⊆ cs := by
  induction cs generalizing behind with
  | nil => exact List.Subset.refl _
  | cons c cs ih =>
    rw [dropCommaSpaces]
    split
    · exact List.subset_cons_of_subset c (ih true)
    · exact List.cons_subset_cons c (ih _)

theorem count_comma_dropCommaSpaces (behind : Bool) (cs : List Char) :
    (dropCommaSpaces behind cs).count ',' = cs.count ',' := by
  induction cs generalizing behind with
  | nil => rfl
  | cons c cs ih =>
    rw [dropCommaSpaces]
    split
    · next hspace =>
      have hc : c = ' ' := by simpa using (Bool.and_eq_true_iff.mp hspace).2
      rw [ih, hc, List.count_cons_of_ne (by decide)]
    · rw [List.count_cons, ih, List.count_cons]

theorem length_commaSpaces (cs : List Char) : (commaSpaces cs).length = cs.count ',' := by
  induction cs with
  | nil => rfl
  | cons c cs ih =>
    rw [commaSpaces]
    split
    · next hc => rw [hc, List.length_cons, ih, List.count_cons_self]
    · next hc => rw [ih, List.count_cons_of_ne hc]

/-! ## What the rest of a text says -/

theorem eq_nil_of_dropCommaSpaces_eq_nil {behind : Bool} (h : dropCommaSpaces behind ds = [])
    (hspaces : behind = true → spaces ds = 0) : ds = [] := by
  cases ds with
  | nil => rfl
  | cons d ds =>
    have hkept : behind = true → d ≠ ' ' := by
      rintro hbehind rfl
      exact absurd (hspaces hbehind) (Nat.succ_ne_zero _)
    rw [dropCommaSpaces_cons hkept] at h
    cases h

/-- A text is known from what is left of it and from the number of spaces behind each comma. -/
theorem eq_of_dropCommaSpaces {behind : Bool}
    (hdrop : dropCommaSpaces behind cs = dropCommaSpaces behind ds)
    (hcommas : commaSpaces cs = commaSpaces ds) (hspaces : behind = true → spaces cs = spaces ds) :
    cs = ds := by
  induction cs generalizing behind ds with
  | nil => exact (eq_nil_of_dropCommaSpaces_eq_nil hdrop.symm fun h => (hspaces h).symm).symm
  | cons c cs ih =>
    by_cases hc : behind = true ∧ c = ' '
    · obtain ⟨rfl, rfl⟩ := hc
      obtain _ | ⟨d, ds⟩ := ds
      · exact absurd (hspaces rfl) (Nat.succ_ne_zero _)
      · by_cases hd : d = ' '
        · subst hd
          have hrest : dropCommaSpaces true cs = dropCommaSpaces true ds := hdrop
          congr 1
          apply ih hrest hcommas
          intro _
          exact Nat.succ.inj (hspaces rfl)
        · have hnone : spaces (d :: ds) = 0 := if_neg hd
          exact absurd ((hspaces rfl).trans hnone) (Nat.succ_ne_zero _)
    · have hkept : behind = true → c ≠ ' ' := fun hbehind hspace => hc ⟨hbehind, hspace⟩
      rw [dropCommaSpaces_cons hkept] at hdrop
      obtain _ | ⟨d, ds⟩ := ds
      · cases hdrop
      · have hkept' : behind = true → d ≠ ' ' := by
          rintro hbehind rfl
          have hnone : spaces (c :: cs) = 0 := if_neg (hkept hbehind)
          exact absurd ((hspaces hbehind).symm.trans hnone) (Nat.succ_ne_zero _)
        rw [dropCommaSpaces_cons hkept'] at hdrop
        obtain ⟨rfl, hrest⟩ := List.cons.inj hdrop
        congr 1
        by_cases hcomma : c = ','
        · rw [commaSpaces, commaSpaces, if_pos hcomma, if_pos hcomma] at hcommas
          obtain ⟨hfirst, hmore⟩ := List.cons.inj hcommas
          exact ih hrest hmore fun _ => hfirst
        · rw [commaSpaces, commaSpaces, if_neg hcomma, if_neg hcomma] at hcommas
          exact ih hrest hcommas fun h => absurd (of_decide_eq_true h) hcomma

/-! ## Trimming -/

theorem isTrimmed_dropCommaSpaces (h : IsTrimmed cs) : IsTrimmed (dropCommaSpaces false cs) := by
  obtain ⟨c, rest, hfirst, hc⟩ := h.exists_cons
  obtain ⟨front, d, hlast, hd⟩ := h.exists_concat
  constructor
  · rw [hfirst, dropCommaSpaces_cons (by simp)]
    simp [hc]
  · have hkept : d ≠ ' ' := by
      rintro rfl
      revert hd
      decide
    obtain ⟨behind, happend⟩ := exists_dropCommaSpaces_append false front
    rw [hlast, happend, dropCommaSpaces_cons (fun _ => hkept), dropCommaSpaces_nil,
      List.getLast?_concat]
    simp [hd]

theorem notMem_comma_of_isBlank (h : ∀ c ∈ cs, isBlank c = true) : ',' ∉ cs := by
  intro hmem
  have hcomma := h ',' hmem
  revert hcomma
  decide

/-- Spaces behind commas may be left out before or after trimming. -/
theorem trim_dropCommaSpaces (cs : List Char) :
    trim (dropCommaSpaces false cs) = dropCommaSpaces false (trim cs) := by
  cases hblank : cs.all isBlank with
  | true =>
    have hall := List.all_eq_true.mp hblank
    have htrim : ',' ∉ trim cs := fun hmem => notMem_comma_of_isBlank hall (trim_subset cs hmem)
    rw [dropCommaSpaces_of_notMem (notMem_comma_of_isBlank hall), dropCommaSpaces_of_notMem htrim]
  | false =>
    obtain ⟨front, back, hcs, hfront, hback⟩ := exists_trim cs
    obtain ⟨behind, happend⟩ := exists_dropCommaSpaces_append false (trim cs)
    have hparts : dropCommaSpaces false cs =
        front ++ dropCommaSpaces false (trim cs) ++ dropCommaSpaces behind back :=
      calc
        dropCommaSpaces false cs = dropCommaSpaces false (front ++ (trim cs ++ back)) := by
          rw [← List.append_assoc, ← hcs]
        _ = front ++ dropCommaSpaces false (trim cs ++ back) :=
          dropCommaSpaces_append_of_notMem (notMem_comma_of_isBlank hfront) _
        _ = front ++ dropCommaSpaces false (trim cs) ++ dropCommaSpaces behind back := by
          rw [happend, List.append_assoc]
    have hback' : ∀ c ∈ dropCommaSpaces behind back, isBlank c = true := fun c hc =>
      hback c (dropCommaSpaces_subset behind back hc)
    rw [hparts, trim_append_append hfront hback',
      (isTrimmed_dropCommaSpaces (isTrimmed_trim hblank)).trim_eq]

/-! ## Lower case -/

/-- The character is neither a comma nor a space. -/
def IsPlainChar (c : Char) : Prop := c ≠ ',' ∧ c ≠ ' '

theorem isPlainChar_of_toNat (h : c.toNat ≠ 0x2c) (h' : c.toNat ≠ 0x20) : IsPlainChar c := by
  constructor
  · rintro rfl
    exact h rfl
  · rintro rfl
    exact h' rfl

/-- No other character has a comma or a space for a lower case. -/
theorem isPlainChar_of_mem_lowerChar (hc : IsPlainChar c) : ∀ d ∈ lowerChar c, IsPlainChar d := by
  by_cases hdotted : c.toNat = 0x130
  · have hlower : lowerChar c = ['i', Char.ofNat 0x307] := by simp [lowerChar, hdotted]
    rw [hlower]
    simp only [List.forall_mem_cons, List.not_mem_nil, IsEmpty.forall_iff, implies_true, and_true]
    exact ⟨⟨by decide, by decide⟩, by decide, by decide⟩
  · rw [lowerChar_eq hdotted]
    cases hfound : capitalRuns.findSome? fun run => run.apply? c.toNat with
    | none => simpa using hc
    | some code =>
      rw [Option.elim_some, List.forall_mem_singleton]
      -- The lower case letters of every run come behind both characters.
      have hbehind : ∀ run ∈ capitalRuns, 0x2c < run.lower := by decide +kernel
      obtain ⟨run, hrun, happly⟩ := List.exists_of_findSome?_eq_some hfound
      obtain ⟨-, hcode⟩ := CapitalRun.maps_iff.mp happly
      have hlower := hbehind run hrun
      rcases toNat_ofNat_or code with hnat | hnat
      · apply isPlainChar_of_toNat <;> omega
      · apply isPlainChar_of_toNat <;> omega

theorem lowerChar_ne_nil (c : Char) : lowerChar c ≠ [] := by
  by_cases hdotted : c.toNat = 0x130
  · simp [lowerChar, hdotted]
  · rw [lowerChar_eq hdotted]
    cases capitalRuns.findSome? fun run => run.apply? c.toNat <;> simp

/-- What a character becomes between others. -/
def lowered (p : CaseProperties) (before : List Char) (c : Char) (cs : List Char) : List Char :=
  if c.toNat = 0x3a3 then
    [Char.ofNat (if p.startsCased before && !p.startsCased cs then 0x3c2 else 0x3c3)]
  else lowerChar c

section

variable {p : CaseProperties} {before before' : List Char}

theorem lowerAfter_cons (p : CaseProperties) (before : List Char) (c : Char) (cs : List Char) :
    lowerAfter p before (c :: cs) = lowered p before c cs ++ lowerAfter p (c :: before) cs := by
  rw [lowerAfter, lowered]
  split <;> rfl

theorem lowered_comma (cs : List Char) : lowered p before ',' cs = [','] := rfl

theorem lowered_space (cs : List Char) : lowered p before ' ' cs = [' '] := rfl

theorem lowered_ne_nil (c : Char) (cs : List Char) : lowered p before c cs ≠ [] := by
  rw [lowered]
  split
  · exact List.cons_ne_nil _ _
  · exact lowerChar_ne_nil c

theorem isPlainChar_of_mem_lowered (hc : IsPlainChar c) :
    ∀ d ∈ lowered p before c cs, IsPlainChar d := by
  rw [lowered]
  split
  · rw [List.forall_mem_singleton]
    split
    · exact ⟨by decide, by decide⟩
    · exact ⟨by decide, by decide⟩
  · exact isPlainChar_of_mem_lowerChar hc

/-- Of the neighbours only matters whether they begin with case. -/
theorem lowered_congr (hbefore : p.startsCased before = p.startsCased before')
    (hcs : p.startsCased cs = p.startsCased ds) (c : Char) :
    lowered p before c cs = lowered p before' c ds := by
  rw [lowered, lowered, hbefore, hcs]

theorem startsCased_cons_congr (hbefore : p.startsCased before = p.startsCased before')
    (c : Char) : p.startsCased (c :: before) = p.startsCased (c :: before') := by
  rw [CaseProperties.startsCased, CaseProperties.startsCased, hbefore]

theorem lowerAfter_congr (hbefore : p.startsCased before = p.startsCased before')
    (cs : List Char) : lowerAfter p before cs = lowerAfter p before' cs := by
  induction cs generalizing before before' with
  | nil => rfl
  | cons c cs ih =>
    rw [lowerAfter_cons, lowerAfter_cons, lowered_congr hbefore rfl,
      ih (startsCased_cons_congr hbefore c)]

end

/-! ## Lower case of plain characters -/

theorem dropCommaSpaces_append_of_isPlainChar {behind : Bool} (hne : cs ≠ [])
    (h : ∀ c ∈ cs, IsPlainChar c) (ds : List Char) :
    dropCommaSpaces behind (cs ++ ds) = cs ++ dropCommaSpaces false ds := by
  induction cs generalizing behind with
  | nil => exact absurd rfl hne
  | cons c cs ih =>
    obtain ⟨hc, hcs⟩ := List.forall_mem_cons.mp h
    have hcomma : decide (c = ',') = false := decide_eq_false hc.1
    rw [List.cons_append, dropCommaSpaces_cons (fun _ => hc.2), hcomma, List.cons_append]
    cases cs with
    | nil => rfl
    | cons d cs => rw [ih (List.cons_ne_nil d cs) hcs]

theorem spaces_append_of_isPlainChar (hne : cs ≠ []) (h : ∀ c ∈ cs, IsPlainChar c)
    (ds : List Char) : spaces (cs ++ ds) = 0 := by
  obtain ⟨c, rest, rfl⟩ := List.exists_cons_of_ne_nil hne
  exact if_neg (h c List.mem_cons_self).2

theorem commaSpaces_append_of_isPlainChar (h : ∀ c ∈ cs, IsPlainChar c) (ds : List Char) :
    commaSpaces (cs ++ ds) = commaSpaces ds := by
  induction cs with
  | nil => rfl
  | cons c cs ih =>
    obtain ⟨hc, hcs⟩ := List.forall_mem_cons.mp h
    rw [List.cons_append, commaSpaces, if_neg hc.1, ih hcs]

theorem spaces_lowerAfter (p : CaseProperties) (before cs : List Char) :
    spaces (lowerAfter p before cs) = spaces cs := by
  induction cs generalizing before with
  | nil => rfl
  | cons c cs ih =>
    rw [lowerAfter_cons, spaces]
    by_cases hspace : c = ' '
    · rw [if_pos hspace, hspace, lowered_space, List.singleton_append, spaces, if_pos rfl, ih]
    · rw [if_neg hspace]
      by_cases hcomma : c = ','
      · rw [hcomma, lowered_comma]
        rfl
      · exact spaces_append_of_isPlainChar (lowered_ne_nil c cs)
          (isPlainChar_of_mem_lowered ⟨hcomma, hspace⟩) _

/-- The spaces behind commas stay where they are. -/
theorem commaSpaces_lowerAfter (p : CaseProperties) (before cs : List Char) :
    commaSpaces (lowerAfter p before cs) = commaSpaces cs := by
  induction cs generalizing before with
  | nil => rfl
  | cons c cs ih =>
    rw [lowerAfter_cons, commaSpaces]
    by_cases hcomma : c = ','
    · rw [if_pos hcomma, hcomma, lowered_comma, List.singleton_append, commaSpaces, if_pos rfl,
        spaces_lowerAfter, ih]
    · rw [if_neg hcomma]
      by_cases hspace : c = ' '
      · rw [hspace, lowered_space, List.singleton_append, commaSpaces, if_neg (by decide), ih]
      · rw [commaSpaces_append_of_isPlainChar (isPlainChar_of_mem_lowered ⟨hcomma, hspace⟩), ih]

/-! ## Lower case without spaces behind commas -/

theorem startsCased_comma (cs : List Char) :
    CaseProperties.unicode17.startsCased (',' :: cs) = false := by
  have hcomma : CaseProperties.unicode17.isIgnorable ',' = false ∧
      CaseProperties.unicode17.isCased ',' = false := by decide +kernel
  rw [CaseProperties.startsCased, hcomma.1, hcomma.2]
  rfl

theorem startsCased_space (cs : List Char) :
    CaseProperties.unicode17.startsCased (' ' :: cs) = false := by
  have hspace : CaseProperties.unicode17.isIgnorable ' ' = false ∧
      CaseProperties.unicode17.isCased ' ' = false := by decide +kernel
  rw [CaseProperties.startsCased, hspace.1, hspace.2]
  rfl

theorem startsCased_dropCommaSpaces (cs : List Char) :
    CaseProperties.unicode17.startsCased (dropCommaSpaces false cs) =
      CaseProperties.unicode17.startsCased cs := by
  induction cs with
  | nil => rfl
  | cons c cs ih =>
    by_cases hcomma : c = ','
    · rw [hcomma, dropCommaSpaces_comma, startsCased_comma, startsCased_comma]
    · rw [dropCommaSpaces_cons (by simp), decide_eq_false hcomma]
      exact startsCased_cons_congr ih c

/-- Spaces behind commas may be left out before or after a text is put in lower case: a sigma next
to a comma ends a word, with spaces between them or without. -/
theorem lowerAfter_dropCommaSpaces {behind : Bool} {before : List Char}
    (hbefore : behind = true → CaseProperties.unicode17.startsCased before = false)
    (cs : List Char) :
    lowerAfter .unicode17 before (dropCommaSpaces behind cs) =
      dropCommaSpaces behind (lowerAfter .unicode17 before cs) := by
  induction cs generalizing behind before with
  | nil => rfl
  | cons c cs ih =>
    rw [lowerAfter_cons]
    by_cases hspace : c = ' '
    · subst hspace
      rw [lowered_space, List.singleton_append]
      cases behind with
      | true =>
        have hsame : CaseProperties.unicode17.startsCased before =
            CaseProperties.unicode17.startsCased (' ' :: before) := by
          rw [hbefore rfl, startsCased_space]
        rw [dropCommaSpaces_space, dropCommaSpaces_space, lowerAfter_congr hsame]
        exact ih fun _ => startsCased_space before
      | false =>
        rw [dropCommaSpaces_cons (by simp), dropCommaSpaces_cons (by simp), lowerAfter_cons,
          lowered_space, List.singleton_append]
        congr 1
        exact ih fun h => by simp at h
    · by_cases hcomma : c = ','
      · subst hcomma
        rw [lowered_comma, List.singleton_append, dropCommaSpaces_comma, dropCommaSpaces_comma,
          lowerAfter_cons, lowered_comma, List.singleton_append]
        congr 1
        exact ih fun _ => startsCased_comma before
      · have hplain : ∀ d ∈ lowered .unicode17 before c cs, IsPlainChar d :=
          isPlainChar_of_mem_lowered ⟨hcomma, hspace⟩
        rw [dropCommaSpaces_cons (fun _ => hspace), decide_eq_false hcomma, lowerAfter_cons,
          dropCommaSpaces_append_of_isPlainChar (lowered_ne_nil c cs) hplain,
          lowered_congr rfl (startsCased_dropCommaSpaces cs)]
        congr 1
        exact ih fun h => by simp at h

end PlanConstraints.Text

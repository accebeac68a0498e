import PlanConstraints.Proofs.Formula.Atoms
import PlanConstraints.Proofs.Formula.GuardGrammar
import PlanConstraints.Proofs.Formula.WrappedGuards

set_option autoImplicit false

/-!
# What guards are read as

A guard is read between operands if its tokens are derived by the grammar, and in Polish form only
if they are not (`ofText_eq_ok_iff`), although the Polish form is tried first and without the
parentheses that enclose the guard.  Parentheses that belong together do not change what is derived
(`derives_stripParens_iff`), and the words of a Polish form are derived as the same formula or not
at all (`IsPolishForm.eq_of_derives`).
-/

namespace PlanConstraints

namespace Guard

variable {f g : Formula String} {cs ds : List Char} {ts us : List Token}

/-! ## Tokens of texts -/

theorem flush_append (begun : List Char) (ts us : List Token) :
    tokensAfter.flush begun (ts ++ us) = tokensAfter.flush begun ts ++ us := by
  unfold tokensAfter.flush
  split <;> rfl

/-- The character ends a token in front of it. -/
def EndsToken (c : Char) : Prop := c = ')' ∨ Text.isBlank c = true

theorem notMem_signs_of_isBlank {c : Char} (h : Text.isBlank c = true) : c ∉ signs := by
  have hnone : ∀ d ∈ signs, Text.isBlank d = false := by decide
  intro hc
  rw [hnone c hc] at h
  cases h

theorem EndsToken.ne {c : Char} (h : EndsToken c) : c ≠ '&' ∧ c ≠ '|' := by
  rcases h with rfl | h
  · decide
  · have hsign := notMem_signs_of_isBlank h
    constructor
    · rintro rfl
      exact hsign (by decide)
    · rintro rfl
      exact hsign (by decide)

theorem tokensAfter_of_endsToken {c : Char} (h : EndsToken c) (begun cs : List Char) :
    tokensAfter begun (c :: cs) = tokensAfter.flush begun [] ++ tokensAfter [] (c :: cs) := by
  rw [← flush_append, List.nil_append]
  rcases h with rfl | h
  · rfl
  · rw [tokensAfter_cons (notMem_signs_of_isBlank h), tokensAfter_cons (notMem_signs_of_isBlank h),
      if_pos h, if_pos h]
    rfl

/-- A sign of conjunction that is not doubled. -/
theorem tokensAfter_and {cs : List Char} (h : ∀ rest, cs = '&' :: rest → False)
    (begun : List Char) :
    tokensAfter begun ('&' :: cs) = tokensAfter.flush begun (.and :: tokensAfter [] cs) := by
  rw [tokensAfter.eq_def]
  split <;> grind

/-- A sign of disjunction that is not doubled. -/
theorem tokensAfter_or {cs : List Char} (h : ∀ rest, cs = '|' :: rest → False)
    (begun : List Char) :
    tokensAfter begun ('|' :: cs) = tokensAfter.flush begun (.or :: tokensAfter [] cs) := by
  rw [tokensAfter.eq_def]
  split <;> grind

theorem append_cons_ne {c d : Char} (hd : d ≠ c) (hcs : ∀ rest, cs = c :: rest → False) :
    ∀ rest, cs ++ d :: ds = c :: rest → False := by
  cases cs with
  | nil => exact fun rest heq => hd (List.cons.inj heq).1
  | cons b cs => exact fun rest heq => hcs cs (by rw [(List.cons.inj heq).1])

/-- Tokens do not go on behind a character that ends them. -/
theorem tokensAfter_append_cons (begun cs : List Char) {d : Char} (hd : EndsToken d)
    (ds : List Char) :
    tokensAfter begun (cs ++ d :: ds) = tokensAfter begun cs ++ tokensAfter [] (d :: ds) := by
  obtain ⟨hand, hor⟩ := hd.ne
  fun_induction tokensAfter begun cs with
  | case1 begun => exact tokensAfter_of_endsToken hd begun ds
  | case2 begun cs ih | case3 begun cs ih | case4 begun cs ih =>
    rw [← flush_append, List.cons_append, List.cons_append, ← ih]
    rfl
  | case5 begun cs ih | case7 begun cs ih =>
    rw [← flush_append, List.cons_append, List.cons_append, List.cons_append, ← ih]
    rfl
  | case6 begun cs hcs ih =>
    rw [← flush_append, List.cons_append, List.cons_append, ← ih,
      tokensAfter_and (append_cons_ne hand hcs)]
  | case8 begun cs hcs ih =>
    rw [← flush_append, List.cons_append, List.cons_append, ← ih,
      tokensAfter_or (append_cons_ne hor hcs)]
  | case9 begun c cs h1 h2 h3 h4 h5 h6 h7 hblank ih =>
    rw [← flush_append, ← ih, List.cons_append, tokensAfter_cons (notMem_signs_of_isBlank hblank),
      if_pos hblank]
  | case10 begun c cs h1 h2 h3 h4 h5 h6 h7 hblank ih =>
    have hc : c ∉ signs := by
      simp only [signs, List.mem_cons, List.not_mem_nil, or_false, not_or]
      exact ⟨h1, h2, h3, h5, h7⟩
    rw [List.cons_append, tokensAfter_cons hc, if_neg hblank, ih]

theorem tokens_append_cons (cs : List Char) {d : Char} (hd : EndsToken d) (ds : List Char) :
    tokens (cs ++ d :: ds) = tokens cs ++ tokens (d :: ds) := tokensAfter_append_cons [] cs hd ds

theorem tokens_cons_of_isBlank {c : Char} (hc : Text.isBlank c = true) (cs : List Char) :
    tokens (c :: cs) = tokens cs := by
  rw [tokens, tokensAfter_cons (notMem_signs_of_isBlank hc), if_pos hc]
  rfl

/-- A blank separates tokens. -/
theorem tokens_append_cons_blank (cs : List Char) {b : Char} (hb : Text.isBlank b = true)
    (ds : List Char) : tokens (cs ++ b :: ds) = tokens cs ++ tokens ds := by
  rw [tokens_append_cons cs (.inr hb), tokens_cons_of_isBlank hb]

/-- The tokens of a group. -/
theorem tokens_group (cs : List Char) :
    tokens ('(' :: (cs ++ [')'])) = .opening :: (tokens cs ++ [.closing]) := by
  have hopening : tokens ('(' :: (cs ++ [')'])) = .opening :: tokens (cs ++ [')']) := rfl
  rw [hopening, tokens_append_cons cs (.inl rfl)]
  rfl

/-- The tokens of a text are those of its words. -/
theorem tokens_eq_flatMap (cs : List Char) : tokens cs = (Text.words cs).flatMap tokens := by
  induction cs using Text.blank_induction with
  | nil => rfl
  | word w hw => rw [Text.words_of_isWord hw, List.flatMap_singleton]
  | append front b back hb ihfront ihback =>
    rw [tokens_append_cons_blank front hb, Text.words_append_cons front hb, List.flatMap_append,
      ihfront, ihback]

theorem tokens_trim (cs : List Char) : tokens (Text.trim cs) = tokens cs := by
  rw [tokens_eq_flatMap, Text.words_trim, ← tokens_eq_flatMap]

/-! ## Depths of parentheses -/

/-- How many parentheses are open behind the tokens, if `depth` are open in front, unless one is
closed that is not open. -/
def depthAfter (depth : Nat) : List Token → Option Nat
  | [] => some depth
  | .opening :: ts => depthAfter (depth + 1) ts
  | .closing :: ts => if depth = 0 then none else depthAfter (depth - 1) ts
  | _ :: ts => depthAfter depth ts

theorem depthAfter_append (depth : Nat) (ts us : List Token) :
    depthAfter depth (ts ++ us) = (depthAfter depth ts).bind fun depth => depthAfter depth us := by
  induction ts generalizing depth with
  | nil => rfl
  | cons token ts ih =>
    cases token with
    | closing =>
      rw [List.cons_append, depthAfter, depthAfter]
      split
      · rfl
      · exact ih _
    | _ => exact ih _

theorem depthAfter_flush (depth : Nat) (begun : List Char) (ts : List Token) :
    depthAfter depth (tokensAfter.flush begun ts) = depthAfter depth ts := by
  unfold tokensAfter.flush
  split <;> rfl

/-- The parentheses of a text are its tokens. -/
theorem isBalanced_eq (depth : Nat) (begun cs : List Char) :
    isBalanced depth cs = (depthAfter depth (tokensAfter begun cs) == some 0) := by
  fun_induction tokensAfter begun cs generalizing depth with
  | case1 begun =>
    rw [depthAfter_flush]
    rfl
  | case2 begun cs ih =>
    rw [depthAfter_flush, isBalanced, ih]
    rfl
  | case3 begun cs ih =>
    rw [depthAfter_flush, isBalanced, depthAfter]
    split
    · rfl
    · exact ih _
  | case4 begun cs ih | case6 begun cs hcs ih | case8 begun cs hcs ih =>
    rw [depthAfter_flush, isBalanced_cons (by decide) (by decide), ih]
    rfl
  | case5 begun cs ih | case7 begun cs ih =>
    rw [depthAfter_flush, isBalanced_cons (by decide) (by decide),
      isBalanced_cons (by decide) (by decide), ih]
    rfl
  | case9 begun c cs hopen hclose =>
    rename_i ih
    rw [depthAfter_flush, isBalanced_cons hopen hclose, ih]
  | case10 begun c cs hopen hclose =>
    rename_i ih
    rw [isBalanced_cons hopen hclose, ih]

/-- Derived tokens close the parentheses that they open. -/
theorem Derives.depthAfter_eq {level : Level} (h : Derives level ts f) (depth : Nat) :
    depthAfter depth ts = some depth := by
  induction h generalizing depth with
  | trueWord h => rfl
  | falseWord h => rfl
  | atom h => rfl
  | neg h ih => exact ih depth
  | group h ih =>
    rw [depthAfter, depthAfter_append, ih]
    rfl
  | operand h ih => exact ih depth
  | and hf hg ihf ihg =>
    rw [depthAfter_append, ihf]
    exact ihg depth
  | conjunction h ih => exact ih depth
  | or hf hg ihf ihg =>
    rw [depthAfter_append, ihf]
    exact ihg depth

/-- A derivation that starts with a group: what stands between the parentheses is derived, as the
same formula if nothing follows. -/
theorem Derives.of_opening {level : Level} (h : Derives level (.opening :: ts) f) :
    ∃ inner rest g, ts = inner ++ .closing :: rest ∧ Derives .disjunction inner g ∧
      (rest = [] → g = f) := by
  generalize hts : Token.opening :: ts = us at h
  induction h generalizing ts with
  | trueWord h => cases hts
  | falseWord h => cases hts
  | atom h => cases hts
  | neg h ih => cases hts
  | @group inner f h ih =>
    cases hts
    exact ⟨inner, [], f, rfl, h, fun _ => rfl⟩
  | operand h ih => exact ih hts
  | @and front us f g hf hg ihf ihg =>
    cases front with
    | nil => cases hts
    | cons token front =>
      obtain ⟨rfl, rfl⟩ := List.cons.inj hts
      obtain ⟨inner, rest, h, rfl, hinner, -⟩ := ihf rfl
      exact ⟨inner, rest ++ .and :: us, h, by simp, hinner, fun hnil => by simp at hnil⟩
  | conjunction h ih => exact ih hts
  | @or front us f g hf hg ihf ihg =>
    cases front with
    | nil => cases hts
    | cons token front =>
      obtain ⟨rfl, rfl⟩ := List.cons.inj hts
      obtain ⟨inner, rest, h, rfl, hinner, -⟩ := ihf rfl
      exact ⟨inner, rest ++ .or :: us, h, by simp, hinner, fun hnil => by simp at hnil⟩

/-- Parentheses that belong together do not change what is derived between them. -/
theorem derives_group_iff (hbalanced : depthAfter 0 ts = some 0) :
    Derives .disjunction (.opening :: (ts ++ [.closing])) f ↔ Derives .disjunction ts f := by
  constructor
  · intro h
    obtain ⟨inner, rest, g, hsplit, hinner, hlast⟩ := h.of_opening
    rcases List.eq_nil_or_concat rest with rfl | ⟨rest, token, rfl⟩
    · rw [← hlast rfl, List.append_cancel_right hsplit]
      exact hinner
    · -- otherwise the group would be closed too early
      have hts : ts = inner ++ .closing :: rest := by
        rw [List.concat_eq_append, ← List.cons_append, ← List.append_assoc] at hsplit
        exact (List.append_inj' hsplit rfl).1
      rw [hts, depthAfter_append, hinner.depthAfter_eq] at hbalanced
      cases hbalanced
  · exact fun h => .conjunction (.operand (.group h))

/-! ## Enclosing parentheses -/

theorem eq_of_inside? {inner : List Char} (h : inside? cs = some inner) :
    cs = '(' :: (inner ++ [')']) ∧ isBalanced 0 inner = true := by
  unfold inside? at h
  split at h
  · next rest =>
    split at h
    · next hlast =>
      cases h
      rw [Bool.and_eq_true, decide_eq_true_eq] at hlast
      obtain ⟨front, rfl⟩ := List.getLast?_eq_some_iff.mp hlast.1
      rw [List.dropLast_concat]
      rw [List.dropLast_concat] at hlast
      exact ⟨rfl, hlast.2⟩
    · cases h
  · cases h

/-- Without the parentheses that enclose all of it, a text is derived as the same formula. -/
theorem derives_stripParens_iff (cs : List Char) :
    Derives .disjunction (tokens (stripParens cs)) f ↔ Derives .disjunction (tokens cs) f := by
  fun_induction stripParens cs with
  | case1 cs inner hinner ih =>
    obtain ⟨rfl, hbalanced⟩ := eq_of_inside? hinner
    have hdepth : depthAfter 0 (tokens inner) = some 0 := by
      rw [isBalanced_eq 0 []] at hbalanced
      exact beq_iff_eq.mp hbalanced
    rw [ih, tokens_group, derives_group_iff hdepth, tokens_trim]
  | case2 cs hnone => exact Iff.rfl

theorem Wraps.of_trim {inner : List Char} (h : Wraps inner (Text.trim cs)) : Wraps inner cs := by
  obtain ⟨front, back, hcs, hfront, hback⟩ := Text.exists_trim cs
  have hspaced := Wraps.spaced front back h hfront hback
  rwa [← hcs] at hspaced

/-- What is left of a text without the parentheses that enclose all of it is wrapped in the text. -/
theorem wraps_stripParens (cs : List Char) : Wraps (stripParens cs) cs := by
  fun_induction stripParens cs with
  | case1 cs inner hinner ih =>
    obtain ⟨rfl, -⟩ := eq_of_inside? hinner
    exact .group ih.of_trim
  | case2 cs hnone => exact .inner

/-! ## Polish forms -/

/-- The words of the text spell the guard in Polish form, perhaps with digits for constants. -/
structure IsPolishForm (f : Formula String) (text : String) : Prop where
  isGuard : IsGuard f
  words : (Text.wordsOf text).map Formula.spelledOut = f.words

/-- What is read as a Polish form is one. -/
theorem isPolishForm_of_polish? {text : String} (h : polish? text = some f) :
    IsPolishForm f text := by
  unfold polish? at h
  split at h
  · cases h
  · next g hread =>
    split at h
    · next hconditions =>
      cases h
      rw [Bool.and_eq_true, List.all_eq_true] at hconditions
      obtain ⟨hnames, hprop⟩ := hconditions
      refine ⟨⟨hprop, fun a ha => ⟨?_, ?_, ?_⟩⟩, ?_⟩
      · have hword := Text.isWord_of_mem_wordsOf (Formula.atoms_subset_of_ofWords hread ha)
        exact fun hempty => hword.ne_nil (by rw [hempty]; rfl)
      · exact List.all_eq_true.mp (hnames a ha)
      · have hsub : ["true", "false", "1", "0", "X", "U", "W"] ⊆ Formula.reservedWords := by decide
        exact fun hmem => Formula.notMem_reservedWords hread ha (hsub hmem)
      · exact (Formula.words_of_ofWords hread).1
    · cases h

/-- A text is read as a Polish form exactly if it is one. -/
theorem polish?_eq_some_iff {text : String} : polish? text = some f ↔ IsPolishForm f text := by
  refine ⟨isPolishForm_of_polish?, fun h => polish?_eq_some h.isGuard ?_⟩
  obtain ⟨g, hg, hread⟩ := Formula.exists_read h.isGuard.namesAtoms h.words []
  rw [Formula.map_nameOf] at hg
  rw [List.append_nil] at hread
  rw [Formula.ofText, Formula.ofWords, hread, ← hg]

theorem tokens_of_isNameChar {w : String} (hw : Text.IsWord w.toList)
    (hname : ∀ c ∈ w.toList, Text.isNameChar c = true) : tokens w.toList = [.word w] := by
  have hend : Delimits [] := fun _ hc => by cases hc
  have htokens := tokensAfter_name_append hw.ne_nil hname hend
  rw [List.append_nil, String.ofList_toList] at htokens
  exact htokens

/-- The word is the one for the constant, or the digit. -/
theorem eq_of_spelledOut {w v : String} (h : Formula.spelledOut w = v) :
    w = v ∨ w = "1" ∧ v = "true" ∨ w = "0" ∧ v = "false" := by
  unfold Formula.spelledOut at h
  split at h
  · exact .inr (.inl ⟨rfl, h.symm⟩)
  · exact .inr (.inr ⟨rfl, h.symm⟩)
  · exact .inl h

theorem eq_of_spelledOut_of_ne {w v : String} (h : Formula.spelledOut w = v) (htrue : v ≠ "true")
    (hfalse : v ≠ "false") : w = v := by
  rcases eq_of_spelledOut h with heq | ⟨-, heq⟩ | ⟨-, heq⟩
  · exact heq
  · exact absurd heq htrue
  · exact absurd heq hfalse

/-- Read between operands, the words of a Polish form give the same formula, or an error. -/
theorem readFrom_polishWords (hf : IsGuard f) {ws : List String}
    (hws : ws.map Formula.spelledOut = f.words) (guard : String) (stack : List Context) :
    readFrom guard stack none (ws.flatMap fun w => tokens w.toList) =
        readFrom guard stack (some f) [] ∨
      ∃ e, readFrom guard stack none (ws.flatMap fun w => tokens w.toList) = .error e := by
  induction f generalizing ws stack with
  | const b =>
    cases b with
    | true =>
      obtain ⟨w, rfl, hw⟩ := List.map_eq_singleton_iff.mp hws
      rcases eq_of_spelledOut hw with rfl | ⟨rfl, -⟩ | ⟨-, hfalse⟩
      · exact .inl rfl
      · exact .inl rfl
      · exact absurd hfalse (by decide)
    | false =>
      obtain ⟨w, rfl, hw⟩ := List.map_eq_singleton_iff.mp hws
      rcases eq_of_spelledOut hw with rfl | ⟨-, htrue⟩ | ⟨rfl, -⟩
      · exact .inl rfl
      · exact absurd htrue (by decide)
      · exact .inl rfl
  | atom a =>
    obtain ⟨w, rfl, hw⟩ := List.map_eq_singleton_iff.mp hws
    have hatom := hf.isAtomName a List.mem_cons_self
    have hword : w = a := by
      refine eq_of_spelledOut_of_ne hw ?_ ?_
      · rintro rfl
        exact hatom.notReserved (by decide)
      · rintro rfl
        exact hatom.notReserved (by decide)
    rw [hword, List.flatMap_singleton, tokens_of_isNameChar hatom.isWord hatom.isNameChar,
      ← formulaOfWord_eq hatom.ofWord]
    exact .inl rfl
  | unary op f ih =>
    cases hf.op_eq
    obtain ⟨w, ws, rfl, hw, hws⟩ := List.map_eq_cons_iff.mp hws
    have hword : w = "!" := eq_of_spelledOut_of_ne hw (by decide) (by decide)
    have hread : readFrom guard stack none ((w :: ws).flatMap fun w => tokens w.toList) =
        readFrom guard (.neg :: stack) none (ws.flatMap fun w => tokens w.toList) := by
      rw [hword, List.flatMap_cons]
      rfl
    rw [hread, ← readFrom_neg]
    exact ih hf.of_neg hws (.neg :: stack)
  | binary op f g ihf ihg =>
    -- An operator is no operand.
    obtain ⟨hop, -⟩ := hf.of_binary
    obtain ⟨w, ws, rfl, hw, -⟩ := List.map_eq_cons_iff.mp hws
    refine .inr ?_
    rcases hop with rfl | rfl
    · have hword : w = "&&" := eq_of_spelledOut_of_ne hw (by decide) (by decide)
      rw [hword, List.flatMap_cons]
      exact ⟨_, rfl⟩
    · have hword : w = "||" := eq_of_spelledOut_of_ne hw (by decide) (by decide)
      rw [hword, List.flatMap_cons]
      exact ⟨_, rfl⟩

/-- There are no parentheses in a Polish form. -/
theorem IsPolishForm.ne_parens {text : String} (h : IsPolishForm f text) :
    ∀ c ∈ text.toList, c ≠ '(' ∧ c ≠ ')' := by
  intro c hc
  cases hblank : Text.isBlank c with
  | true => exact ne_parens_of_isBlank hblank
  | false =>
    obtain ⟨chars, hchars, hmem⟩ := Text.exists_mem_words text.toList c hc hblank
    have hspelled : Formula.spelledOut (String.ofList chars) ∈ f.words := by
      rw [← h.words]
      exact List.mem_map_of_mem (List.mem_map_of_mem hchars)
    have hword : c ∈ (String.ofList chars).toList := by rwa [String.toList_ofList]
    have hdigits : ∀ d ∈ "1".toList ++ "0".toList, d ≠ '(' ∧ d ≠ ')' := by decide
    generalize String.ofList chars = w at hspelled hword
    rcases eq_of_spelledOut (Eq.refl (Formula.spelledOut w)) with heq | ⟨rfl, -⟩ | ⟨rfl, -⟩
    · rcases of_mem_words h.isGuard (heq ▸ hspelled) hword with hname | hsign
      · exact Guard.ne_parens hname
      · have hsigns : ∀ d ∈ ['!', '&', '|'], d ≠ '(' ∧ d ≠ ')' := by decide
        exact hsigns c hsign
    · exact hdigits c (List.mem_append_left _ hword)
    · exact hdigits c (List.mem_append_right _ hword)

/-- What is derived from the words of a Polish form is the same formula. -/
theorem IsPolishForm.eq_of_derives {text : String} (h : IsPolishForm f text)
    (hg : Derives .disjunction (tokens text.toList) g) : f = g := by
  have htokens : tokens text.toList = (Text.wordsOf text).flatMap fun w => tokens w.toList := by
    rw [tokens_eq_flatMap, Text.wordsOf, List.flatMap_map]
    simp
  have hread := hg.readFrom_eq_ok text
  rw [htokens] at hread
  rcases readFrom_polishWords h.isGuard h.words text [] with hok | ⟨e, herror⟩
  · rw [hok] at hread
    exact Except.ok.inj hread
  · rw [herror] at hread
    cases hread

/-! ## Both readings -/

/-- The text that is left without the enclosing parentheses. -/
theorem IsPolishForm.of_wraps {core text : String} (h : IsPolishForm f core)
    (hwraps : Wraps core.toList text.toList) :
    IsPolishForm f (String.ofList (stripParens (Text.trim text.toList))) := by
  have hcore := h.ne_parens
  have hstrip : stripParens (Text.trim text.toList) = Text.trim core.toList := by
    rw [hwraps.stripParens_trim (isBalanced_append hcore), stripParens_eq]
    cases htrim : Text.trim core.toList with
    | nil => rfl
    | cons c cs =>
      have hc : c ∈ core.toList := Text.trim_subset _ (by rw [htrim]; exact List.mem_cons_self)
      rw [inside?_eq_none (hcore c hc).1]
  refine ⟨h.isGuard, ?_⟩
  rw [hstrip, Text.wordsOf, String.toList_ofList, Text.words_trim]
  exact h.words

/-- A guard is read as the formula that its tokens derive, with operators between operands.  If
there is none, it is read if it is a Polish form between any number of parentheses, and only
then.

The grammar is that of `Derives`, and the statement holds for every text: what is refused is what
has neither form. -/
theorem ofText_eq_ok_iff (text : String) (f : Formula String) :
    ofText text = .ok f ↔
      Derives .disjunction (tokens text.toList) f ∨
        (¬ ∃ g, Derives .disjunction (tokens text.toList) g) ∧
          ∃ core : String, Wraps core.toList text.toList ∧ IsPolishForm f core := by
  have hderives : ∀ g, Derives .disjunction (tokens (stripParens (Text.trim text.toList))) g ↔
      Derives .disjunction (tokens text.toList) g := fun g => by
    rw [derives_stripParens_iff, tokens_trim]
  unfold ofText
  simp only
  split
  · next g hpolish =>
    have hform := isPolishForm_of_polish? hpolish
    have hunique : ∀ g', Derives .disjunction (tokens text.toList) g' → g = g' := fun g' hg' => by
      refine hform.eq_of_derives ?_
      rw [String.toList_ofList]
      exact (hderives g').mpr hg'
    rw [Except.ok.injEq]
    constructor
    · rintro rfl
      by_cases hg : ∃ g', Derives .disjunction (tokens text.toList) g'
      · obtain ⟨g', hg'⟩ := hg
        exact .inl (hunique g' hg' ▸ hg')
      · refine .inr ⟨hg, _, ?_, hform⟩
        rw [String.toList_ofList]
        exact (wraps_stripParens _).of_trim
    · rintro (h | ⟨-, core, hwraps, hform'⟩)
      · exact hunique f h
      · rw [polish?_eq_some_iff.mpr (hform'.of_wraps hwraps)] at hpolish
        exact (Option.some.inj hpolish).symm
  · next hpolish =>
    rw [ofTokens_eq_ok_iff, hderives]
    constructor
    · exact .inl
    · rintro (h | ⟨-, core, hwraps, hform⟩)
      · exact h
      · rw [polish?_eq_some_iff.mpr (hform.of_wraps hwraps)] at hpolish
        cases hpolish

/-- A conjunction within a disjunction, and a Polish form, which is no guard with operators between
operands. -/
theorem ofText_both_readings :
    ofText "(c0 || c1 & !1)" =
        .ok (.or (.atom "c0") (.and (.atom "c1") (.neg (.const true)))) ∧
      ofText " (&& c0 ! c1)" = .ok (.and (.atom "c0") (.neg (.atom "c1"))) := by
  constructor
  · have hand : Derives .conjunction [.word "c1", .and, .neg, .word "1"]
        (.and (.atom "c1") (.neg (.const true))) :=
      .and (.operand (.atom (by decide))) (.neg (.trueWord (.inr rfl)))
    have hor : Derives .disjunction [.word "c0", .or, .word "c1", .and, .neg, .word "1"]
        (.or (.atom "c0") (.and (.atom "c1") (.neg (.const true)))) :=
      .or (.conjunction (.operand (.atom (by decide)))) hand
    exact (ofText_eq_ok_iff _ _).mpr (.inl (.conjunction (.operand (.group hor))))
  · have hnone : ¬ ∃ g, Derives .disjunction (tokens " (&& c0 ! c1)".toList) g := by
      rintro ⟨g, hg⟩
      cases hg.readFrom_eq_ok ""
    have hwraps : Wraps "&& c0 ! c1".toList " (&& c0 ! c1)".toList :=
      .spaced [' '] [] (.group .inner) (by decide) (List.forall_mem_nil _)
    have hform : IsPolishForm (.and (.atom "c0") (.neg (.atom "c1"))) "&& c0 ! c1" :=
      ⟨by decide +kernel, by decide⟩
    exact (ofText_eq_ok_iff _ _).mpr (.inr ⟨hnone, _, hwraps, hform⟩)

end Guard

end PlanConstraints

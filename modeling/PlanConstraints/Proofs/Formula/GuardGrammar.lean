import PlanConstraints.Proofs.Formula.Guards

set_option autoImplicit false

/-!
# The grammar of guards

Between operands, a disjunction is made of conjunctions and a conjunction of operands, and both
group to the left.  The reader gives the formula of a derivation if there is one, and an error
otherwise (`ofTokens_eq_ok_iff`).  In particular, no tokens have derivations of two formulas.

A stack of contexts that are open stands for the tokens that opened them (`Opens`).  What these
tokens and the next operand derive does not change when a token closes contexts.
-/

namespace PlanConstraints

namespace Guard

/-! ## Derivations -/

/-- What tokens are derived as. -/
inductive Level where
  | disjunction
  | conjunction
  | operand

/-- The words for constants. -/
def constantWords : List String := ["true", "1", "false", "0"]

/-- Tokens are derived as a formula. -/
inductive Derives : Level → List Token → Formula String → Prop where
  | trueWord {word : String} (h : word = "true" ∨ word = "1") :
    Derives .operand [.word word] (.const true)
  | falseWord {word : String} (h : word = "false" ∨ word = "0") :
    Derives .operand [.word word] (.const false)
  | atom {word : String} (h : word ∉ constantWords) : Derives .operand [.word word] (.atom word)
  | neg {ts : List Token} {f : Formula String} (h : Derives .operand ts f) :
    Derives .operand (.neg :: ts) (.neg f)
  | group {ts : List Token} {f : Formula String} (h : Derives .disjunction ts f) :
    Derives .operand (.opening :: (ts ++ [.closing])) f
  | operand {ts : List Token} {f : Formula String} (h : Derives .operand ts f) :
    Derives .conjunction ts f
  | and {ts us : List Token} {f g : Formula String} (hf : Derives .conjunction ts f)
      (hg : Derives .operand us g) : Derives .conjunction (ts ++ .and :: us) (.and f g)
  | conjunction {ts : List Token} {f : Formula String} (h : Derives .conjunction ts f) :
    Derives .disjunction ts f
  | or {ts us : List Token} {f g : Formula String} (hf : Derives .disjunction ts f)
      (hg : Derives .conjunction us g) : Derives .disjunction (ts ++ .or :: us) (.or f g)

variable {f g : Formula String} {ts us rest : List Token} {stack : List Context} {guard : String}

/-- A word is an operand. -/
theorem derives_word (word : String) : Derives .operand [.word word] (formulaOfWord word) := by
  unfold formulaOfWord
  split
  · exact .trueWord (.inl rfl)
  · exact .trueWord (.inr rfl)
  · exact .falseWord (.inl rfl)
  · exact .falseWord (.inr rfl)
  · next h1 h2 h3 h4 =>
    refine .atom ?_
    simp only [constantWords, List.mem_cons, List.not_mem_nil, or_false, not_or]
    exact ⟨h1, h2, h3, h4⟩

/-! ## What is derived is read -/

/-- The contexts in which tokens of a level are read to their end: a token behind the last of them
closes no context of a stronger level. -/
def Admits : Level → List Context → Prop
  | .operand, _ => True
  | .conjunction, .neg :: _ | .conjunction, .and _ :: _ => False
  | .conjunction, _ => True
  | .disjunction, [] | .disjunction, .group :: _ => True
  | .disjunction, _ => False

theorem Admits.conjunction (h : Admits .disjunction stack) : Admits .conjunction stack := by
  cases stack with
  | nil => trivial
  | cons c stack =>
    cases c with
    | group => trivial
    | _ => exact h.elim

theorem Admits.closeConjunction_eq (h : Admits .conjunction stack) (f : Formula String) :
    closeConjunction f stack = (f, stack) := by
  cases stack with
  | nil => rfl
  | cons c stack =>
    cases c with
    | neg => exact h.elim
    | group => rfl
    | and left => exact h.elim
    | or left => rfl

theorem Admits.closeDisjunction_eq (h : Admits .disjunction stack) (f : Formula String) :
    closeDisjunction f stack = (f, stack) := by
  cases stack with
  | nil => rfl
  | cons c stack =>
    cases c with
    | group => rfl
    | _ => exact h.elim

theorem formulaOfWord_of_notMem {word : String} (h : word ∉ constantWords) :
    formulaOfWord word = .atom word := by
  simp only [constantWords, List.mem_cons, List.not_mem_nil, or_false, not_or] at h
  unfold formulaOfWord
  split <;> simp_all

/-- A conjunction is completed before anything else happens. -/
theorem readFrom_and (h : Admits .conjunction stack) (f g : Formula String)
    (rest : List Token) : readFrom guard (.and f :: stack) (some g) rest =
      readFrom guard stack (some (.and f g)) rest := by
  have hclose := h.closeConjunction_eq (.and f g)
  have hopen : closeConjunction g (.and f :: stack) = (.and f g, stack) := rfl
  have hsame : closeDisjunction g (.and f :: stack) = closeDisjunction (.and f g) stack := by
    rw [closeDisjunction, hopen, closeDisjunction, hclose]
  cases rest with
  | nil => simp only [readFrom, hsame]
  | cons token rest =>
    cases token with
    | and => simp only [readFrom, hopen, hclose]
    | _ => simp only [readFrom, hsame]

/-- A disjunction is completed before anything else happens, unless a conjunction goes on. -/
theorem readFrom_or (h : Admits .disjunction stack) (hrest : rest.head? ≠ some .and)
    (f g : Formula String) : readFrom guard (.or f :: stack) (some g) rest =
      readFrom guard stack (some (.or f g)) rest := by
  have hsame : closeDisjunction g (.or f :: stack) = closeDisjunction (.or f g) stack := by
    rw [h.closeDisjunction_eq]
    rfl
  cases rest with
  | nil => simp only [readFrom, hsame]
  | cons token rest =>
    cases token with
    | and => exact absurd rfl hrest
    | _ => simp only [readFrom, hsame]

/-- What is derived is read as one operand. -/
theorem Derives.readFrom_eq {level : Level} (h : Derives level ts f) (guard : String)
    (hstack : Admits level stack) (hrest : level = .disjunction → rest.head? ≠ some .and) :
    readFrom guard stack none (ts ++ rest) = readFrom guard stack (some f) rest := by
  have hnone : ∀ {rest : List Token}, Level.operand = .disjunction → rest.head? ≠ some .and :=
    Level.noConfusion
  have hnone' : ∀ {rest : List Token}, Level.conjunction = .disjunction →
    rest.head? ≠ some .and := Level.noConfusion
  induction h generalizing stack rest with
  | trueWord h => rcases h with rfl | rfl <;> rfl
  | falseWord h => rcases h with rfl | rfl <;> rfl
  | @atom word h =>
    rw [← formulaOfWord_of_notMem h]
    rfl
  | @neg ts f h ih =>
    calc
      readFrom guard (.neg :: stack) none (ts ++ rest)
        = readFrom guard (.neg :: stack) (some f) rest := ih trivial hnone
      _ = readFrom guard stack (some (.neg f)) rest := readFrom_neg f stack rest
  | @group ts f h ih =>
    rw [List.cons_append, List.append_assoc]
    have hclosing : (Token.closing :: rest).head? ≠ some .and := by simp
    have hgroup : Admits .disjunction (.group :: stack) := trivial
    calc
      readFrom guard (.group :: stack) none (ts ++ .closing :: rest)
        = readFrom guard (.group :: stack) (some f) (.closing :: rest) :=
          ih hgroup fun _ => hclosing
      _ = readFrom guard stack (some f) rest := rfl
  | operand h ih => exact ih trivial hnone
  | @and ts us f g hf hg ihf ihg =>
    rw [List.append_assoc]
    calc
      readFrom guard stack none (ts ++ (.and :: us ++ rest))
        = readFrom guard stack (some f) (.and :: us ++ rest) := ihf hstack hnone'
      _ = readFrom guard (.and f :: stack) none (us ++ rest) := by
          simp only [List.cons_append, readFrom, hstack.closeConjunction_eq]
      _ = readFrom guard (.and f :: stack) (some g) rest := ihg trivial hnone
      _ = readFrom guard stack (some (.and f g)) rest := readFrom_and hstack f g rest
  | conjunction h ih => exact ih hstack.conjunction hnone'
  | @or ts us f g hf hg ihf ihg =>
    have hor : (Token.or :: us ++ rest).head? ≠ some .and := by simp
    rw [List.append_assoc]
    calc
      readFrom guard stack none (ts ++ (.or :: us ++ rest))
        = readFrom guard stack (some f) (.or :: us ++ rest) := ihf hstack fun _ => hor
      _ = readFrom guard (.or f :: stack) none (us ++ rest) := by
          simp only [List.cons_append, readFrom, hstack.closeDisjunction_eq]
      _ = readFrom guard (.or f :: stack) (some g) rest := ihg trivial hnone'
      _ = readFrom guard stack (some (.or f g)) rest := readFrom_or hstack (hrest rfl) f g

/-! ## What is read is derived -/

/-- The tokens in front of an operand have opened the contexts. -/
inductive Opens : List Context → List Token → Prop where
  | nil : Opens [] []
  | neg {stack : List Context} {ts : List Token} (h : Opens stack ts) :
    Opens (.neg :: stack) (ts ++ [.neg])
  | group {stack : List Context} {ts : List Token} (h : Opens stack ts) :
    Opens (.group :: stack) (ts ++ [.opening])
  | and {stack : List Context} {ts us : List Token} {f : Formula String} (h : Opens stack ts)
      (hstack : Admits .conjunction stack) (hf : Derives .conjunction us f) :
    Opens (.and f :: stack) (ts ++ us ++ [.and])
  | or {stack : List Context} {ts us : List Token} {f : Formula String} (h : Opens stack ts)
      (hstack : Admits .disjunction stack) (hf : Derives .disjunction us f) :
    Opens (.or f :: stack) (ts ++ us ++ [.or])

/-- The tokens have opened the contexts and go on with the formula, which is derived as a level. -/
structure Holds (level : Level) (stack : List Context) (f : Formula String) (ts : List Token) :
    Prop where
  exists_split : ∃ before us, ts = before ++ us ∧ Opens stack before ∧ Derives level us f
  admits : Admits level stack

theorem Holds.closeNegations (h : Holds .operand stack f ts) :
    Holds .operand (closeNegations f stack).2 (closeNegations f stack).1 ts ∧
      ∀ stack', (closeNegations f stack).2 ≠ .neg :: stack' := by
  induction stack generalizing f with
  | nil => exact ⟨h, fun _ heq => by cases heq⟩
  | cons c stack ih =>
    cases c with
    | neg =>
      obtain ⟨⟨before, us, rfl, hopens, hf⟩, -⟩ := h
      cases hopens with
      | @neg _ front hopens =>
        refine ih ⟨⟨front, .neg :: us, ?_, hopens, .neg hf⟩, trivial⟩
        rw [List.append_assoc]
        rfl
    | group => exact ⟨h, fun _ heq => by cases heq⟩
    | and left => exact ⟨h, fun _ heq => by cases heq⟩
    | or left => exact ⟨h, fun _ heq => by cases heq⟩

theorem Holds.closeConjunction (h : Holds .operand stack f ts) :
    Holds .conjunction (closeConjunction f stack).2 (closeConjunction f stack).1 ts := by
  obtain ⟨hclosed, hneg⟩ := h.closeNegations
  unfold Guard.closeConjunction
  generalize Guard.closeNegations f stack = closed at hclosed hneg ⊢
  obtain ⟨f, stack⟩ := closed
  obtain ⟨⟨before, us, rfl, hopens, hf⟩, -⟩ := hclosed
  cases hopens with
  | nil => exact ⟨⟨[], us, rfl, .nil, .operand hf⟩, trivial⟩
  | neg hopens => exact absurd rfl (hneg _)
  | group hopens => exact ⟨⟨_, us, rfl, .group hopens, .operand hf⟩, trivial⟩
  | @and stack front vs left hopens hstack hleft =>
    refine ⟨⟨front, vs ++ .and :: us, ?_, hopens, .and hleft hf⟩, hstack⟩
    simp
  | or hopens hstack hleft => exact ⟨⟨_, us, rfl, .or hopens hstack hleft, .operand hf⟩, trivial⟩

theorem Holds.closeDisjunction (h : Holds .operand stack f ts) :
    Holds .disjunction (closeDisjunction f stack).2 (closeDisjunction f stack).1 ts := by
  have hclosed := h.closeConjunction
  unfold Guard.closeDisjunction
  generalize Guard.closeConjunction f stack = closed at hclosed ⊢
  obtain ⟨f, stack⟩ := closed
  obtain ⟨⟨before, us, rfl, hopens, hf⟩, hadmits⟩ := hclosed
  cases hopens with
  | nil => exact ⟨⟨[], us, rfl, .nil, .conjunction hf⟩, trivial⟩
  | neg hopens => exact hadmits.elim
  | group hopens => exact ⟨⟨_, us, rfl, .group hopens, .conjunction hf⟩, trivial⟩
  | and hopens hstack hleft => exact hadmits.elim
  | @or stack front vs left hopens hstack hleft =>
    refine ⟨⟨front, vs ++ .or :: us, ?_, hopens, .or hleft hf⟩, hstack⟩
    simp

/-- A closing parenthesis completes a group. -/
theorem Holds.close {c : Context} (h : Holds .disjunction (c :: stack) f ts) :
    Holds .operand stack f (ts ++ [.closing]) := by
  obtain ⟨⟨before, us, rfl, hopens, hf⟩, hadmits⟩ := h
  cases hopens with
  | neg hopens => exact hadmits.elim
  | @group _ front hopens =>
    refine ⟨⟨front, .opening :: (us ++ [.closing]), ?_, hopens, .group hf⟩, trivial⟩
    simp
  | and hopens hstack hleft => exact hadmits.elim
  | or hopens hstack hleft => exact hadmits.elim

/-- What has been read when the tokens `seen` are behind: contexts that are open, and perhaps an
operand. -/
def Seen (stack : List Context) (operand : Option (Formula String)) (seen : List Token) : Prop :=
  match operand with
  | none => Opens stack seen
  | some f => Holds .operand stack f seen

/-- What is read is derived. -/
theorem derives_of_readFrom {operand : Option (Formula String)} {seen : List Token}
    (hseen : Seen stack operand seen) (h : readFrom guard stack operand ts = .ok g) :
    Derives .disjunction (seen ++ ts) g := by
  induction ts generalizing stack operand seen with
  | nil =>
    cases operand with
    | none => cases h
    | some f =>
      have hclosed := Holds.closeDisjunction hseen
      rw [readFrom] at h
      split at h
      · next heq =>
        cases h
        rw [heq] at hclosed
        obtain ⟨⟨before, us, rfl, hopens, hf⟩, -⟩ := hclosed
        cases hopens
        rw [List.append_nil]
        exact hf
      · cases h
  | cons token rest ih =>
    rw [List.append_cons]
    cases operand with
    | none =>
      have hopens : Opens stack seen := hseen
      cases token with
      | neg =>
        have hnext : Seen (.neg :: stack) none (seen ++ [.neg]) := hopens.neg
        exact ih hnext h
      | opening =>
        have hnext : Seen (.group :: stack) none (seen ++ [.opening]) := hopens.group
        exact ih hnext h
      | word name =>
        have hnext : Seen stack (some (formulaOfWord name)) (seen ++ [.word name]) :=
          ⟨⟨seen, _, rfl, hopens, derives_word name⟩, trivial⟩
        exact ih hnext h
      | closing => cases h
      | and => cases h
      | or => cases h
    | some f =>
      have hconjunction := Holds.closeConjunction hseen
      have hdisjunction := Holds.closeDisjunction hseen
      cases token with
      | and =>
        obtain ⟨⟨before, us, hsplit, hopens, hf⟩, hadmits⟩ := hconjunction
        have hnext : Seen (.and (closeConjunction f stack).1 :: (closeConjunction f stack).2) none
            (seen ++ [.and]) := hsplit ▸ hopens.and hadmits hf
        exact ih hnext h
      | or =>
        obtain ⟨⟨before, us, hsplit, hopens, hf⟩, hadmits⟩ := hdisjunction
        have hnext : Seen (.or (closeDisjunction f stack).1 :: (closeDisjunction f stack).2) none
            (seen ++ [.or]) := hsplit ▸ hopens.or hadmits hf
        exact ih hnext h
      | closing =>
        unfold readFrom at h
        simp only at h
        split at h
        · cases h
        · next f c stack heq =>
          rw [heq] at hdisjunction
          have hnext : Seen stack (some f) (seen ++ [.closing]) := hdisjunction.close
          exact ih hnext h
      | neg | opening | word name =>
        unfold readFrom at h
        simp only at h
        split at h <;> cases h

/-- What is derived is read to its end. -/
theorem Derives.readFrom_eq_ok (h : Derives .disjunction ts f) (guard : String) :
    readFrom guard [] none ts = .ok f := by
  have hnil : Admits .disjunction [] := trivial
  have hend : ([] : List Token).head? ≠ some .and := by simp
  have hread := h.readFrom_eq guard hnil fun _ => hend
  rw [List.append_nil] at hread
  exact hread

/-- Tokens are read as a formula exactly if they are derived as it. -/
theorem ofTokens_eq_ok_iff : ofTokens guard ts = .ok f ↔ Derives .disjunction ts f := by
  constructor
  · intro h
    have hread : readFrom guard [] none ts = .ok f := by
      cases ts with
      | nil => cases h
      | cons token rest => exact h
    have hstart : Seen [] none [] := Opens.nil
    exact derives_of_readFrom hstart hread
  · exact fun h => ofTokens_eq_ok (h.readFrom_eq_ok guard)

/-- No tokens are derived as two formulas. -/
theorem Derives.unique (hf : Derives .disjunction ts f) (hg : Derives .disjunction ts g) :
    f = g :=
  Except.ok.inj ((hf.readFrom_eq_ok "").symm.trans (hg.readFrom_eq_ok ""))

end Guard

end PlanConstraints

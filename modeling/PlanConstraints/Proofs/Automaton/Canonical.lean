import PlanConstraints.Proofs.Automaton.Drafts
import PlanConstraints.Proofs.Formula.WrappedGuards

set_option autoImplicit false

/-!
# Reading canonical never-claims

A never-claim in which every state has a header line and lines of a body below it is read as it is
written (`toAutomaton_text`).
-/

namespace PlanConstraints

namespace NeverClaim

/-! ## Canonical never-claims -/

/-- How a guard is written. -/
inductive GuardForm where
  | polish
  | infixed
  deriving DecidableEq

/-- The text of a formula in a form. -/
def GuardForm.text (form : GuardForm) (f : Formula String) : String :=
  match form with
  | polish => f.polish
  | infixed => f.infixed

/-- A line that leads to a state. -/
structure Branch where
  form : GuardForm
  guard : Formula String
  target : String

/-- What stands below a header. -/
inductive Body where
  | skip
  | stuck
  | choice (branches : List Branch)

/-- A state with the transitions that leave it. -/
structure Block where
  name : String
  body : Body

def Branch.line (b : Branch) : String :=
  ":: (" ++ b.form.text b.guard ++ ") -> goto " ++ b.target

def Body.lines : Body → List String
  | skip => ["skip"]
  | stuck => ["false;"]
  | choice branches => "if" :: branches.map Branch.line ++ ["fi;"]

/-- The lines of a block, those of the body indented. -/
def Block.lines (indent : String) (b : Block) : List String :=
  (b.name ++ " :") :: b.body.lines.map fun line => indent ++ line

/-- The lines of a never-claim. -/
def claimLines (indent : String) (blocks : List Block) : List String :=
  "never \x7b" :: blocks.flatMap (Block.lines indent) ++ ["\x7d"]

/-- The text of a never-claim. -/
def claimText (indent : String) (blocks : List Block) : String :=
  String.join ((claimLines indent blocks).map fun line => line ++ "\n")

/-! ## What they describe -/

def Body.branches : Body → List Branch
  | skip | stuck => []
  | choice branches => branches

/-- The names in the order in which they are mentioned. -/
def mentions (blocks : List Block) : List String :=
  blocks.flatMap fun b => b.name :: b.body.branches.map Branch.target

/-- The edges of a block; to skip is to stay. -/
def Block.edges (b : Block) : List Edge :=
  match b.body with
  | .skip => [⟨b.name, b.name, .const true⟩]
  | .stuck => []
  | .choice branches => branches.map fun branch => ⟨b.name, branch.target, branch.guard⟩

/-- The edges of all blocks. -/
def edges (blocks : List Block) : List Edge := blocks.flatMap Block.edges

/-- The names of the states, in the order in which they are first mentioned. -/
def stateNames (blocks : List Block) : List String := distinctBy id (mentions blocks)

/-- The name of a state. -/
structure IsStateName (name : String) : Prop where
  ne_empty : name ≠ ""
  isStateChar : ∀ c ∈ name.toList, isStateChar c = true

instance (name : String) : Decidable (IsStateName name) :=
  decidable_of_iff (name ≠ "" ∧ ∀ c ∈ name.toList, isStateChar c = true)
    ⟨fun h => ⟨h.1, h.2⟩, fun h => ⟨h.ne_empty, h.isStateChar⟩⟩

/-- A block of which everything can be read. -/
structure Block.IsCanonical (b : Block) : Prop where
  name : IsStateName b.name
  branches : ∀ branch ∈ b.body.branches, Guard.IsGuard branch.guard ∧ IsStateName branch.target

instance (b : Block) : Decidable b.IsCanonical :=
  decidable_of_iff (IsStateName b.name ∧
      ∀ branch ∈ b.body.branches, Guard.IsGuard branch.guard ∧ IsStateName branch.target)
    ⟨fun h => ⟨h.1, h.2⟩, fun h => ⟨h.name, h.branches⟩⟩

/-! ## Contents of lines -/

/-- A line that the reader takes without the white space around it. -/
structure IsContent (cs : List Char) : Prop where
  isTrimmed : Text.IsTrimmed cs
  noSlash : '/' ∉ cs
  noBreak : '\n' ∉ cs

theorem beforeComment_eq {cs : List Char} (h : '/' ∉ cs) : beforeComment cs = cs := by
  induction cs with
  | nil => rfl
  | cons c cs ih =>
    rw [beforeComment, ih fun hmem => h (List.mem_cons_of_mem _ hmem)]
    rintro rest rfl
    exact absurd List.mem_cons_self h

/-- White space that may stand in front of a line. -/
def IsIndent (indent : String) : Prop :=
  ∀ c ∈ indent.toList, Text.isBlank c = true ∧ c ≠ '\n'

instance (indent : String) : Decidable (IsIndent indent) :=
  inferInstanceAs (Decidable (∀ c ∈ indent.toList, Text.isBlank c = true ∧ c ≠ '\n'))

theorem chars_content {line : Line} {indent t : String} (hindent : IsIndent indent)
    (ht : IsContent t.toList) (h : line.text = indent ++ t) : (content line).chars = t.toList := by
  have hslash : '/' ∉ indent.toList ++ t.toList := by
    rw [List.mem_append]
    rintro (hc | hc)
    · have hblank := (hindent _ hc).1
      revert hblank
      decide
    · exact ht.noSlash hc
  rw [content, Piece.chars_trim, h, String.toList_append, beforeComment_eq hslash,
    Text.trim_append fun c hc => (hindent c hc).1, ht.isTrimmed.trim_eq]

/-! ## Reading lines -/

/-- Texts that stand on lines of their own, and the draft after these lines. -/
structure Reads (texts : List String) (d d' : Draft) : Prop where
  onLines : ∀ t ∈ texts, '\n' ∉ t.toList ∧ t.toList.getLast? ≠ some '\r'
  draft : ∀ lines : List Line, lines.map Line.text = texts →
    foldSteps Draft.readLine d lines = .ok d'

theorem Reads.nil (d : Draft) : Reads [] d d := by
  refine ⟨by simp, fun lines hlines => ?_⟩
  rw [List.map_eq_nil_iff.mp hlines]
  rfl

theorem Reads.append {texts texts' : List String} {d d' d'' : Draft} (h : Reads texts d d')
    (h' : Reads texts' d' d'') : Reads (texts ++ texts') d d'' := by
  refine ⟨fun t ht => (List.mem_append.mp ht).elim (h.onLines t) (h'.onLines t),
    fun lines hlines => ?_⟩
  obtain ⟨front, back, rfl, hfront, hback⟩ := List.map_eq_append_iff.mp hlines
  rw [foldSteps_append, h.draft front hfront]
  exact h'.draft back hback

/-- A line is read if its content is. -/
theorem Reads.singleton {indent t : String} {d d' : Draft} (hindent : IsIndent indent)
    (ht : IsContent t.toList)
    (h : ∀ (line : Line) (p : Piece), p.chars = t.toList →
      (match header? p with
        | none => d.readBody line p
        | some (name, body) =>
          let (d, id) := d.mention name
          { d with current := some id }.readBody line body) = .ok d') :
    Reads [indent ++ t] d d' := by
  refine ⟨fun t' ht' => ?_, fun lines hlines => ?_⟩
  · rw [List.mem_singleton.mp ht', String.toList_append]
    refine ⟨?_, fun hlast => ?_⟩
    · rw [List.mem_append, not_or]
      exact ⟨fun hc => (hindent _ hc).2 rfl, ht.noBreak⟩
    · obtain ⟨front, c, hchars, hc⟩ := ht.isTrimmed.exists_concat
      rw [hchars, ← List.append_assoc, List.getLast?_concat, Option.some.injEq] at hlast
      rw [hlast] at hc
      revert hc
      decide
  · obtain ⟨line, rest, rfl, hline, hrest⟩ := List.map_eq_cons_iff.mp hlines
    rw [List.map_eq_nil_iff.mp hrest]
    have hread : d.readLine line = .ok d' := h line (content line) (chars_content hindent ht hline)
    simp only [foldSteps, hread]

variable {indent : String} {names : List String} {seen : List Edge} {current : Option Nat}

theorem isContent_of {cs : List Char} (h : Text.IsTrimmed cs ∧ '/' ∉ cs ∧ '\n' ∉ cs) :
    IsContent cs :=
  ⟨h.1, h.2.1, h.2.2⟩

/-- Lines that say nothing of states. -/
theorem reads_silent (hindent : IsIndent indent) {t : String}
    (ht : t ∈ ["never \x7b", "if", "false;", "\x7d"]) (d : Draft) : Reads [indent ++ t] d d := by
  simp only [List.mem_cons, List.not_mem_nil, or_false] at ht
  rcases ht with rfl | rfl | rfl | rfl
  · refine .singleton hindent (isContent_of (by decide)) ?_
    rintro line ⟨input, start, chars⟩ rfl
    rfl
  · refine .singleton hindent (isContent_of (by decide)) ?_
    rintro line ⟨input, start, chars⟩ rfl
    rfl
  · refine .singleton hindent (isContent_of (by decide)) ?_
    rintro line ⟨input, start, chars⟩ rfl
    rfl
  · refine .singleton hindent (isContent_of (by decide)) ?_
    rintro line ⟨input, start, chars⟩ rfl
    rfl

theorem reads_fi (hindent : IsIndent indent) (d : Draft) :
    Reads [indent ++ "fi;"] d { d with current := none } := by
  refine .singleton hindent (isContent_of (by decide)) ?_
  rintro line ⟨input, start, chars⟩ rfl
  rfl

theorem reads_skip (hindent : IsIndent indent) (hnodup : names.Nodup) {name : String}
    (hname : name ∈ names) :
    Reads [indent ++ "skip"] ⟨statesOf names seen, some (names.idxOf name)⟩
      ⟨statesOf names (seen ++ [⟨name, name, .const true⟩]), some (names.idxOf name)⟩ := by
  refine .singleton hindent (isContent_of (by decide)) ?_
  rintro line ⟨input, start, chars⟩ rfl
  rw [← addTransition_statesOf hnodup _ hname]
  rfl

/-! ## Headers -/

theorem isNameChar_of_isStateChar {c : Char} (h : isStateChar c = true) :
    Text.isNameChar c = true := by
  have hcases : c.isAlphanum = true ∨ (c == '_') = true := by
    simpa only [isStateChar, Bool.or_eq_true] using h
  rcases hcases with hc | hc
  · exact Text.isNameChar_of_isAlphanum hc
  · simp [Text.isNameChar, hc]

theorem IsStateName.isWord {name : String} (h : IsStateName name) : Text.IsWord name.toList :=
  ⟨fun hnil => h.ne_empty (String.toList_eq_nil_iff.mp hnil), fun c hc =>
    Text.isBlank_of_isNameChar (isNameChar_of_isStateChar (h.isStateChar c hc))⟩

/-- The characters that begin a comment, end a line or begin an arrow. -/
def marks : List Char := ['/', '\n', '-']

theorem isNameChar_of_mem_marks {c : Char} (hc : c ∈ marks) : Text.isNameChar c = false :=
  (by decide : ∀ d ∈ marks, Text.isNameChar d = false) c hc

theorem IsStateName.notMem {name : String} (h : IsStateName name) {c : Char} (hc : c ∈ marks) :
    c ∉ name.toList := by
  intro hmem
  have hname := isNameChar_of_isStateChar (h.isStateChar c hmem)
  rw [isNameChar_of_mem_marks hc] at hname
  cases hname

theorem header?_of_name {p : Piece} {name : String} (hname : IsStateName name)
    (hp : p.chars = (name ++ " :").toList) :
    ∃ body, header? p = some (name, body) ∧ body.chars = [] := by
  have htake : p.chars.takeWhile isStateChar = name.toList := by
    rw [hp, String.toList_append, List.takeWhile_append_of_pos hname.isStateChar]
    exact List.append_nil _
  have hrest : (p.drop name.toList.length).trimLeft.chars = [':'] := by
    rw [Piece.chars_trimLeft, Piece.drop, hp, String.toList_append, List.drop_left]
    rfl
  obtain ⟨c, cs, hcons⟩ := List.exists_cons_of_ne_nil hname.isWord.ne_nil
  refine ⟨((p.drop name.toList.length).trimLeft.drop 1).trimLeft, ?_, ?_⟩
  · unfold header?
    simp only [htake, hrest, String.ofList_toList]
    split
    · rfl
    · next hother => exact absurd rfl (hother c cs [] hcons)
  · rw [Piece.chars_trimLeft, Piece.drop, hrest]
    rfl

theorem readBody_of_nil (d : Draft) (line : Line) {body : Piece} (h : body.chars = []) :
    d.readBody line body = .ok d := by
  obtain ⟨input, start, chars⟩ := body
  cases h
  rfl

/-- A header makes its state the current one. -/
theorem reads_header (hjoins : Joins names seen) {name : String} (hname : IsStateName name) :
    Reads [name ++ " :"] ⟨statesOf names seen, current⟩
      ⟨statesOf (addName names name) seen, some ((addName names name).idxOf name)⟩ := by
  have hcontent : IsContent (name ++ " :").toList := by
    have htrimmed := hname.isWord.isTrimmed.append (by decide : Text.IsTrimmed [':']) [' ']
    rw [String.toList_append]
    refine ⟨by simpa using htrimmed, ?_, ?_⟩
    · rw [List.mem_append, not_or]
      exact ⟨hname.notMem (by decide), by decide⟩
    · rw [List.mem_append, not_or]
      exact ⟨hname.notMem (by decide), by decide⟩
  have hnone : IsIndent "" := fun c hc => by simp at hc
  rw [← String.empty_append (s := name ++ " :")]
  refine .singleton hnone hcontent fun line p hp => ?_
  obtain ⟨body, hheader, hbody⟩ := header?_of_name hname hp
  simp only [hheader, mention_statesOf hjoins]
  exact readBody_of_nil _ line hbody

/-! ## Transitions -/

theorem splitArrow?_eq_none {cs : List Char} (h : '-' ∉ cs) : splitArrow? cs = none := by
  induction cs with
  | nil => rfl
  | cons c cs ih =>
    have hrest := ih fun hmem => h (List.mem_cons_of_mem _ hmem)
    cases cs with
    | nil => rfl
    | cons d cs =>
      rw [splitArrow?, hrest]
      rintro rfl _
      exact absurd List.mem_cons_self h

/-- The only arrow is the last one. -/
theorem splitArrow?_append {front back : List Char} (hfront : '-' ∉ front) (hback : '-' ∉ back) :
    splitArrow? (front ++ '-' :: '>' :: back) = some (front, back) := by
  induction front with
  | nil =>
    rw [List.nil_append, splitArrow?, splitArrow?_eq_none hback]
  | cons c front ih =>
    have hrest := ih fun hmem => hfront (List.mem_cons_of_mem _ hmem)
    obtain ⟨d, cs, hcons⟩ := List.exists_cons_of_ne_nil
      (List.append_ne_nil_of_right_ne_nil front (List.cons_ne_nil '-' ('>' :: back)))
    rw [hcons] at hrest
    rw [List.cons_append, hcons, splitArrow?, hrest]
    rintro rfl _
    exact absurd List.mem_cons_self hfront

theorem target?_of_name {target : String} (h : IsStateName target) :
    target? (" goto ".toList ++ target.toList) = some target := by
  obtain ⟨c, cs, hcons, hc⟩ := h.isWord.isTrimmed.exists_cons
  have hall : target.toList.takeWhile isStateChar = target.toList :=
    List.takeWhile_eq_self_iff.mpr h.isStateChar
  have hnone : target.toList.dropWhile isStateChar = [] :=
    List.dropWhile_eq_nil_iff.mpr h.isStateChar
  have hnamed : Text.trimLeft (' ' :: target.toList) = target.toList := by
    rw [hcons]
    simp [Text.trimLeft, hc, show Text.isBlank ' ' = true by decide]
  have hgoto : Text.trimLeft (" goto ".toList ++ target.toList) =
      'g' :: 'o' :: 't' :: 'o' :: ' ' :: target.toList := rfl
  unfold target?
  rw [hgoto]
  simp only [hnamed, hall, hnone, String.ofList_toList]
  simp [hcons, Text.trimLeft, show Text.isBlank ' ' = true by decide]

theorem transition?_of_branch {p : Piece} {g target : String} (hg : '-' ∉ g.toList)
    (htarget : IsStateName target)
    (hp : p.chars = (":: (" ++ g ++ ") -> goto " ++ target).toList) :
    ∃ guard, transition? p = some (guard, target) ∧ guard.text = "(" ++ g ++ ")" := by
  have hbody : (p.drop 2).chars =
      (' ' :: '(' :: (g.toList ++ [')', ' '])) ++ '-' :: '>' ::
        (" goto ".toList ++ target.toList) := by
    rw [Piece.drop, hp]
    simp
  have hfront : '-' ∉ ' ' :: '(' :: (g.toList ++ [')', ' ']) := by simpa using hg
  have hback : '-' ∉ " goto ".toList ++ target.toList := by
    rw [List.mem_append, not_or]
    exact ⟨by decide, htarget.notMem (by decide)⟩
  unfold transition?
  simp only [hbody, splitArrow?_append hfront hback, target?_of_name htarget]
  refine ⟨_, rfl, ?_⟩
  have hleft : Text.trimLeft (' ' :: '(' :: (g.toList ++ [')', ' '])) =
      '(' :: g.toList ++ [')'] ++ [' '] := by
    simp [Text.trimLeft, show Text.isBlank ' ' = true by decide,
      show Text.isBlank '(' = false by decide]
  rw [Piece.text, Piece.trimRight, Piece.chars_trimLeft, hleft,
    Text.trimRight_append _ (by decide), Text.trimRight_concat _ (by decide)]
  exact String.toList_inj.mp (by simp)

/-- A line that starts with colons is a transition. -/
theorem readBody_of_colons {d : Draft} {source : Nat} (hsource : d.current = some source)
    (line : Line) {p : Piece} {cs : List Char} (hp : p.chars = ':' :: ':' :: cs) {guard : Piece}
    {target : String} (htransition : transition? p = some (guard, target)) {f : Formula String}
    (hf : Guard.ofText guard.text = .ok f) :
    d.readBody line p =
      .ok ((d.mention target).1.addTransition ⟨source, (d.mention target).2, f⟩) := by
  have htext : ∀ s : String, s.toList.head? ≠ some ':' → p.text ≠ s := by
    intro s hs heq
    rw [← heq, Piece.text, String.toList_ofList, hp] at hs
    exact hs rfl
  have hnever : "never".toList.isPrefixOf p.chars = false := by rw [hp]; rfl
  have hcolons : "::".toList.isPrefixOf p.chars = true := by rw [hp]; rfl
  unfold Draft.readBody
  split
  · next h => exact absurd h (htext _ (by decide))
  · next h => exact absurd h (htext _ (by decide))
  · next h => exact absurd h (htext _ (by decide))
  · next h => exact absurd h (htext _ (by decide))
  · next h => exact absurd h (htext _ (by decide))
  · next h => exact absurd h (htext _ (by decide))
  · next h => exact absurd h (htext _ (by decide))
  · next h => exact absurd h (htext _ (by decide))
  · next h => exact absurd h (htext _ (by decide))
  · simp only [hnever, Bool.false_eq_true, if_false, hcolons, if_true, hsource, htransition, hf]

theorem GuardForm.ofText (form : GuardForm) {f : Formula String} (hf : Guard.IsGuard f) :
    Guard.ofText ("(" ++ form.text f ++ ")") = .ok f := by
  have hgroup : Guard.Wraps (form.text f).toList ("(" ++ form.text f ++ ")").toList := by
    have hinner : Guard.Wraps (form.text f).toList (form.text f).toList := .inner
    simpa using hinner.group
  cases form with
  | polish => exact Guard.ofText_polish hf hgroup
  | infixed => exact Guard.ofText_infixed hf hgroup

theorem GuardForm.notMem_text (form : GuardForm) {f : Formula String} (hf : Guard.IsGuard f)
    {c : Char} (hc : c ∈ marks) : c ∉ (form.text f).toList := by
  intro hmem
  have hcases : Text.isNameChar c = true ∨ c ∈ [' ', '!', '&', '|', '(', ')'] := by
    cases form with
    | polish =>
      exact (Guard.of_mem_polish hf hmem).imp_right fun h => List.mem_append_left ['(', ')'] h
    | infixed =>
      refine Guard.of_mem_infixChars hf ?_
      rwa [text, Formula.infixed, String.toList_ofList] at hmem
  rcases hcases with h | h
  · rw [isNameChar_of_mem_marks hc] at h
    cases h
  · have hdisjoint : ∀ d ∈ marks, d ∉ [' ', '!', '&', '|', '(', ')'] := by decide
    exact hdisjoint c hc h

theorem isContent_line {b : Branch} (hguard : Guard.IsGuard b.guard)
    (htarget : IsStateName b.target) : IsContent b.line.toList := by
  have htrimmed := Text.IsTrimmed.append (by decide : Text.IsTrimmed ":: (".toList)
    htarget.isWord.isTrimmed ((b.form.text b.guard).toList ++ ") -> goto ".toList)
  rw [Branch.line]
  simp only [String.toList_append]
  refine ⟨by simpa using htrimmed, ?_, ?_⟩
  · simp only [List.mem_append, not_or]
    exact ⟨⟨⟨by decide, b.form.notMem_text hguard (by decide)⟩, by decide⟩,
      htarget.notMem (by decide)⟩
  · simp only [List.mem_append, not_or]
    exact ⟨⟨⟨by decide, b.form.notMem_text hguard (by decide)⟩, by decide⟩,
      htarget.notMem (by decide)⟩

/-- A line of a body adds an edge to its target. -/
theorem reads_branch (hindent : IsIndent indent) (hnodup : names.Nodup)
    (hjoins : Joins names seen) {name : String} (hname : name ∈ names) {b : Branch}
    (hguard : Guard.IsGuard b.guard) (htarget : IsStateName b.target) :
    Reads [indent ++ b.line] ⟨statesOf names seen, some (names.idxOf name)⟩
      ⟨statesOf (addName names b.target) (seen ++ [⟨name, b.target, b.guard⟩]),
        some ((addName names b.target).idxOf name)⟩ := by
  have hfront := prefix_addName names b.target
  have hplace : (addName names b.target).idxOf name = names.idxOf name := by
    obtain ⟨more, hmore⟩ := hfront
    rw [← hmore, List.idxOf_append_of_mem hname]
  refine .singleton hindent (isContent_line hguard htarget) fun line p hp => ?_
  obtain ⟨guard, htransition, htext⟩ := transition?_of_branch
    (b.form.notMem_text hguard (by decide)) htarget hp
  have hcolons : p.chars =
      ':' :: ':' :: (" (" ++ b.form.text b.guard ++ ") -> goto " ++ b.target).toList := by
    rw [hp, Branch.line]
    simp
  have hheader : header? p = none := by
    unfold header?
    rw [hcolons]
    rfl
  have hformula : Guard.ofText guard.text = .ok b.guard := by
    rw [htext]
    exact b.form.ofText hguard
  simp only [hheader]
  rw [readBody_of_colons rfl line hcolons htransition hformula, mention_statesOf hjoins, hplace,
    ← addTransition_statesOf (nodup_addName hnodup _) _ (hfront.subset hname), Edge.transition,
    hplace]

/-! ## Reading blocks -/

/-- The names behind those that are known. -/
def addNames (names more : List String) : List String := more.foldl addName names

/-- What is known of the names and edges while a never-claim is read. -/
structure Known (names : List String) (seen : List Edge) : Prop where
  nodup : names.Nodup
  joins : Joins names seen

theorem Known.addName (h : Known names seen) (name : String) :
    Known (addName names name) seen :=
  ⟨nodup_addName h.nodup name, h.joins.mono (prefix_addName names name).subset⟩

theorem Known.addEdge (h : Known names seen) {e : Edge} (hsource : e.source ∈ names)
    (htarget : e.target ∈ names) : Known names (seen ++ [e]) := by
  refine ⟨h.nodup, fun e' he' => ?_⟩
  rcases List.mem_append.mp he' with he' | he'
  · exact h.joins e' he'
  · rw [List.mem_singleton.mp he']
    exact ⟨hsource, htarget⟩

theorem reads_branches (hindent : IsIndent indent) (hknown : Known names seen) {name : String}
    (hname : name ∈ names) {bs : List Branch}
    (hbs : ∀ b ∈ bs, Guard.IsGuard b.guard ∧ IsStateName b.target) :
    Reads (bs.map fun b => indent ++ b.line) ⟨statesOf names seen, some (names.idxOf name)⟩
        ⟨statesOf (addNames names (bs.map Branch.target))
            (seen ++ bs.map fun b => ⟨name, b.target, b.guard⟩),
          some ((addNames names (bs.map Branch.target)).idxOf name)⟩ ∧
      Known (addNames names (bs.map Branch.target))
        (seen ++ bs.map fun b => ⟨name, b.target, b.guard⟩) := by
  induction bs generalizing names seen with
  | nil =>
    simp only [List.map_nil, List.append_nil]
    exact ⟨.nil _, hknown⟩
  | cons b bs ih =>
    obtain ⟨hguard, htarget⟩ := hbs b List.mem_cons_self
    have hname' := (prefix_addName names b.target).subset hname
    have hfirst := reads_branch hindent hknown.nodup hknown.joins hname hguard htarget
    have hknown' := (hknown.addName b.target).addEdge
      (e := ⟨name, b.target, b.guard⟩) hname' mem_addName
    obtain ⟨hrest, hknown''⟩ := ih hknown' hname' fun b hb => hbs b (List.mem_cons_of_mem _ hb)
    simp only [List.map_cons, List.append_assoc, List.singleton_append] at hrest hknown'' ⊢
    exact ⟨hfirst.append hrest, hknown''⟩

/-- A block adds the names that it mentions and its edges. -/
theorem reads_block (hindent : IsIndent indent) (hknown : Known names seen)
    (current : Option Nat) {b : Block} (hb : b.IsCanonical) :
    ∃ current', Reads (b.lines indent) ⟨statesOf names seen, current⟩
        ⟨statesOf (addNames names (b.name :: b.body.branches.map Branch.target)) (seen ++ b.edges),
          current'⟩ ∧
      Known (addNames names (b.name :: b.body.branches.map Branch.target)) (seen ++ b.edges) := by
  have hheader : Reads [b.name ++ " :"] ⟨statesOf names seen, current⟩ _ :=
    reads_header hknown.joins hb.name
  have hknown' := hknown.addName b.name
  obtain ⟨name, body⟩ := b
  cases body with
  | skip =>
    exact ⟨_, hheader.append (reads_skip hindent hknown'.nodup mem_addName),
      hknown'.addEdge mem_addName mem_addName⟩
  | stuck =>
    have hedges : seen ++ Block.edges ⟨name, .stuck⟩ = seen := List.append_nil seen
    rw [hedges]
    exact ⟨_, hheader.append (reads_silent hindent (t := "false;") (by decide) _), hknown'⟩
  | choice branches =>
    obtain ⟨hbranches, hknown''⟩ := reads_branches hindent hknown' mem_addName hb.branches
    have hopen := hheader.append (reads_silent hindent (t := "if") (by decide) _)
    have hread := (hopen.append hbranches).append (reads_fi hindent _)
    have hlines : Block.lines indent ⟨name, .choice branches⟩ =
        [name ++ " :"] ++ [indent ++ "if"] ++ branches.map (fun b => indent ++ b.line) ++
          [indent ++ "fi;"] := by
      simp [Block.lines, Body.lines]
    rw [hlines]
    exact ⟨none, hread, hknown''⟩

theorem addNames_append (names more more' : List String) :
    addNames names (more ++ more') = addNames (addNames names more) more' := List.foldl_append

theorem reads_blocks (hindent : IsIndent indent) (hknown : Known names seen)
    (current : Option Nat) {blocks : List Block} (hblocks : ∀ b ∈ blocks, b.IsCanonical) :
    ∃ current', Reads (blocks.flatMap (Block.lines indent)) ⟨statesOf names seen, current⟩
        ⟨statesOf (addNames names (mentions blocks)) (seen ++ edges blocks), current'⟩ ∧
      Known (addNames names (mentions blocks)) (seen ++ edges blocks) := by
  induction blocks generalizing names seen current with
  | nil =>
    have hedges : seen ++ edges [] = seen := List.append_nil seen
    rw [hedges]
    exact ⟨current, .nil _, hknown⟩
  | cons b blocks ih =>
    obtain ⟨current₁, hfirst, hknown₁⟩ := reads_block hindent hknown current
      (hblocks b List.mem_cons_self)
    obtain ⟨current₂, hrest, hknown₂⟩ := ih hknown₁ current₁
      fun b hb => hblocks b (List.mem_cons_of_mem _ hb)
    rw [← addNames_append, List.append_assoc] at hrest hknown₂
    exact ⟨current₂, hfirst.append hrest, hknown₂⟩

/-- Names that are added are kept where they come first. -/
theorem addNames_eq (names more : List String) :
    addNames names more = names ++ (distinctBy id more).filter fun n => n ∉ names := by
  induction more generalizing names with
  | nil => simp [addNames, distinctBy]
  | cons m more ih =>
    have hstep : addNames names (m :: more) = addNames (addName names m) more := rfl
    rw [hstep, ih, distinctBy]
    by_cases hm : m ∈ names
    · have hname : addName names m = names := if_pos hm
      rw [hname, List.filter_cons_of_neg (by simpa using hm), List.filter_filter]
      congr 1
      refine List.filter_congr fun n _ => ?_
      by_cases hn : n ∈ names
      · simp [hn]
      · have hne : n ≠ m := fun heq => hn (heq ▸ hm)
        simp [hn, hne]
    · have hname : addName names m = names ++ [m] := if_neg hm
      rw [hname, List.filter_cons_of_pos (by simpa using hm), List.filter_filter,
        List.append_assoc, List.singleton_append]
      congr 2
      refine List.filter_congr fun n _ => ?_
      simp [not_or]

theorem addNames_nil (more : List String) : addNames [] more = distinctBy id more := by
  rw [addNames_eq]
  simp

/-! ## The automaton -/

/-- A list without repetitions in which one element satisfies a condition. -/
theorem filter_eq_singleton {α : Type} {l : List α} {p : α → Bool} {a : α} (hnodup : l.Nodup)
    (ha : a ∈ l) (hp : p a = true) (hunique : ∀ b ∈ l, p b = true → b = a) : l.filter p = [a] := by
  have hall : ∀ b ∈ l.filter p, b = a := fun b hb =>
    hunique b (List.mem_filter.mp hb).1 (List.mem_filter.mp hb).2
  have hmem : a ∈ l.filter p := List.mem_filter.mpr ⟨ha, hp⟩
  have hnodup' := hnodup.filter p
  cases hl : l.filter p with
  | nil => rw [hl] at hmem; cases hmem
  | cons b rest =>
    rw [hl] at hall hnodup'
    have hb := hall b List.mem_cons_self
    cases rest with
    | nil => rw [hb]
    | cons c rest =>
      have hc := hall c (List.mem_cons_of_mem _ List.mem_cons_self)
      rw [hb, hc] at hnodup'
      exact absurd List.mem_cons_self (List.nodup_cons.mp hnodup').1

/-- The state of the only name that ends with `init` is the initial one. -/
theorem toAutomaton_statesOf (hnodup : names.Nodup) {init : String} (hmem : init ∈ names)
    (hinit : "init".toList <:+ init.toList)
    (hunique : ∀ n ∈ names, "init".toList <:+ n.toList → n = init) (name : String) :
    Draft.toAutomaton ⟨statesOf names seen, current⟩ name =
      .ok ⟨name, statesOf names seen, names.idxOf init⟩ := by
  have hnames := filter_eq_singleton (p := fun n => "init".toList.isSuffixOf n.toList) hnodup hmem
    (List.isSuffixOf_iff_suffix.mpr hinit)
    fun n hn h => hunique n hn (List.isSuffixOf_iff_suffix.mp h)
  have hrole : ∀ s ∈ statesOf names seen,
      s.isInitial = "init".toList.isSuffixOf s.name.toList ∧ s.id = names.idxOf s.name := by
    intro s hs
    obtain ⟨i, hi⟩ := List.mem_iff_getElem?.mp hs
    rw [getElem?_statesOf, Option.map_eq_some_iff] at hi
    obtain ⟨n, hn, rfl⟩ := hi
    obtain ⟨hlt, hget⟩ := List.getElem?_eq_some_iff.mp hn
    exact ⟨rfl, by rw [← hget]; exact (hnodup.idxOf_getElem i hlt).symm⟩
  have hstates : ((statesOf names seen).filter State.isInitial).map State.name = [init] := by
    rw [← hnames, ← map_name_statesOf names seen, List.filter_map, map_name_statesOf]
    congr 1
    exact List.filter_congr fun s hs => (hrole s hs).1
  obtain ⟨s, hs, hsname⟩ := List.map_eq_singleton_iff.mp hstates
  have hid := (hrole s (List.mem_filter.mp (hs ▸ List.mem_singleton_self s)).1).2
  unfold Draft.toAutomaton
  rw [hs]
  simp only [hid, hsname]

/-- The lines of a never-claim, the empty text behind the last line feed included. -/
theorem reads_claimLines (hindent : IsIndent indent) {blocks : List Block}
    (hblocks : ∀ b ∈ blocks, b.IsCanonical) :
    ∃ current', Reads (claimLines indent blocks) ⟨[], none⟩
        ⟨statesOf (stateNames blocks) (edges blocks), current'⟩ ∧
      Known (stateNames blocks) (edges blocks) := by
  have hnone : IsIndent "" := fun c hc => by simp at hc
  have hempty : Known [] [] := ⟨List.nodup_nil, fun e he => by cases he⟩
  obtain ⟨current', hread, hknown⟩ := reads_blocks hindent hempty none hblocks
  rw [addNames_nil, List.nil_append] at hread hknown
  have hopen := reads_silent hnone (t := "never \x7b") (by decide) ⟨[], none⟩
  have hclose := reads_silent hnone (t := "\x7d") (by decide)
    ⟨statesOf (distinctBy id (mentions blocks)) (edges blocks), current'⟩
  rw [String.empty_append] at hopen hclose
  exact ⟨current', (hopen.append hread).append hclose, hknown⟩

theorem readLine_of_empty (d : Draft) {line : Line} (h : line.text = "") :
    d.readLine line = .ok d := by
  have hcontent : (content line).chars = [] := by
    rw [content, Piece.chars_trim, h]
    rfl
  have hheader : header? (content line) = none := by
    unfold header?
    rw [hcontent]
    rfl
  unfold Draft.readLine
  simp only [hheader]
  exact readBody_of_nil d line hcontent

/-- The draft of a text is that of its lines. -/
theorem Reads.toAutomaton_eq {texts : List String} {d : Draft} (h : Reads texts ⟨[], none⟩ d)
    (name : String) (source : Option String) :
    toAutomaton name ⟨String.join (texts.map fun t => t ++ "\n"), source⟩ = d.toAutomaton name := by
  obtain ⟨lines, last, hlines, htexts, hlast⟩ :=
    List.map_eq_append_iff.mp (map_text_lines h.onLines source)
  obtain ⟨line, rest, rfl, hline, hrest⟩ := List.map_eq_cons_iff.mp hlast
  rw [List.map_eq_nil_iff.mp hrest] at hlines
  have hfold : foldSteps Draft.readLine ⟨[], none⟩
      (Input.lines ⟨String.join (texts.map fun t => t ++ "\n"), source⟩) = .ok d := by
    rw [hlines, foldSteps_append, h.draft lines htexts]
    simp only [foldSteps, readLine_of_empty d hline]
  rw [toAutomaton, hfold]

/-- A canonical never-claim is read as it is written.

`hinit` says that exactly one state is named as the initial one; without it the never-claim is
refused.  The indentation is any, and so are the order of the blocks and the guards
(`Block.IsCanonical`). -/
theorem toAutomaton_claimText (hindent : IsIndent indent) {blocks : List Block}
    (hblocks : ∀ b ∈ blocks, b.IsCanonical)
    (hinit : ∃! n, n ∈ mentions blocks ∧ "init".toList <:+ n.toList) (name : String)
    (source : Option String) :
    ∃ a : Automaton String, toAutomaton name ⟨claimText indent blocks, source⟩ = .ok a ∧
      a.name = name ∧ a.states.map State.name = stateNames blocks ∧
      (∀ (i : Nat) (s : State String), a.states[i]? = some s →
        s.id = i ∧ s.isAccepting = "accept".toList.isPrefixOf s.name.toList ∧
          s.transitions = ((edges blocks).filter fun e => e.source = s.name).map fun e =>
            ⟨i, (stateNames blocks).idxOf e.target, e.guard⟩) ∧
      ∃ init, (stateNames blocks)[a.initial]? = some init ∧ "init".toList <:+ init.toList := by
  obtain ⟨current', hread, hknown⟩ := reads_claimLines hindent hblocks
  obtain ⟨init, ⟨hmentioned, hends⟩, honly⟩ := hinit
  have hmem : init ∈ stateNames blocks := by
    obtain ⟨n, hn, heq⟩ := exists_mem_distinctBy id hmentioned
    have heq : n = init := heq
    exact heq ▸ hn
  have hunique : ∀ n ∈ stateNames blocks, "init".toList <:+ n.toList → n = init := fun n hn h =>
    honly n ⟨mem_of_mem_distinctBy hn, h⟩
  refine ⟨_, (hread.toAutomaton_eq name source).trans
    (toAutomaton_statesOf hknown.nodup hmem hends hunique name), rfl,
    map_name_statesOf _ _, fun i s hs => ?_, init, List.getElem?_idxOf hmem, hends⟩
  rw [getElem?_statesOf, Option.map_eq_some_iff] at hs
  obtain ⟨n, hn, rfl⟩ := hs
  obtain ⟨hlt, hget⟩ := List.getElem?_eq_some_iff.mp hn
  refine ⟨rfl, rfl, List.map_congr_left fun e he => ?_⟩
  have hsource : e.source = n := of_decide_eq_true (List.mem_filter.mp he).2
  rw [Edge.transition, hsource, ← hget, hknown.nodup.idxOf_getElem i hlt]

/-! ## A never-claim -/

/-- Two states, with guards in both forms. -/
def crossing : List Block :=
  [⟨"T0_init", .choice
      [⟨.infixed, .and (.atom "p") (.neg (.atom "q")), "accept_S1"⟩,
        ⟨.polish, .or (.atom "q") (.const true), "T0_init"⟩]⟩,
    ⟨"accept_S1", .skip⟩]

example : claimText "\t" crossing =
    "never \x7b\nT0_init :\n\tif\n\t:: ((p && !q)) -> goto accept_S1\n"
      ++ "\t:: (|| q true) -> goto T0_init\n\tfi;\naccept_S1 :\n\tskip\n\x7d\n" := by
  decide +kernel

/-- Its states and transitions are read. -/
theorem toAutomaton_crossing : ∃ a : Automaton String,
    toAutomaton "crossing" ⟨claimText "\t" crossing, none⟩ = .ok a ∧
      a.states.map State.name = ["T0_init", "accept_S1"] ∧
        (∀ s, a.states[0]? = some s → s.isAccepting = false ∧
          s.transitions = [⟨0, 1, .and (.atom "p") (.neg (.atom "q"))⟩,
            ⟨0, 0, .or (.atom "q") (.const true)⟩]) ∧
          ∀ s, a.states[1]? = some s →
            s.isAccepting = true ∧ s.transitions = [⟨1, 1, .const true⟩] := by
  have hindent : IsIndent "\t" := by decide
  have hblocks : ∀ b ∈ crossing, b.IsCanonical := by decide +kernel
  have hinit : ∃! n, n ∈ mentions crossing ∧ "init".toList <:+ n.toList :=
    ⟨"T0_init", by decide, fun n hn =>
      (by decide : ∀ n ∈ mentions crossing, "init".toList <:+ n.toList → n = "T0_init") n hn.1 hn.2⟩
  obtain ⟨a, hread, -, hnames, hstates, -⟩ :=
    toAutomaton_claimText hindent hblocks hinit "crossing" none
  have hname : ∀ (i : Nat) (s : State String), a.states[i]? = some s →
      ["T0_init", "accept_S1"][i]? = some s.name := by
    intro i s hs
    have hmap : (a.states.map State.name)[i]? = some s.name := by rw [List.getElem?_map, hs]; rfl
    rwa [hnames] at hmap
  refine ⟨a, hread, hnames, fun s hs => ?_, fun s hs => ?_⟩
  · obtain ⟨-, haccepting, htransitions⟩ := hstates 0 s hs
    rw [haccepting, htransitions, ← Option.some.inj (hname 0 s hs)]
    decide
  · obtain ⟨-, haccepting, htransitions⟩ := hstates 1 s hs
    rw [haccepting, htransitions, ← Option.some.inj (hname 1 s hs)]
    decide

end NeverClaim

end PlanConstraints

import PlanConstraints.Automaton.NeverClaim
import PlanConstraints.Proofs.Formula.WrappedGuards

set_option autoImplicit false

/-!
# Comments in never-claims

A comment lasts to the end of its line, wherever it is closed.  So a comment that is put into a
never-claim takes away what stands behind it on the line, and nothing else
(`outcome_insert_comment`); what stands there is lost without an error if other lines make sense
without it.
-/

namespace PlanConstraints

namespace AutomatonError

/-- The number of the line at fault. -/
def number? : AutomatonError → Option Nat
  | transitionOutside line | notATransition line | unexpectedLine line
  | invalidGuard line _ _ => some line.number
  | noInitialState _ | severalInitialStates _ _ _ => none

/-- What an error says, apart from where the line at fault stands in the input. -/
def report (e : AutomatonError) : Option Nat × String := (e.number?, e.message)

end AutomatonError

namespace NeverClaim

open AutomatonError

/-- What becomes of a never-claim: an automaton, or an error. -/
def outcome (name : String) (input : Input) : Except (Option Nat × String) (Automaton String) :=
  (toAutomaton name input).mapError report

/-! ## What a line is read as -/

theorem of_map_eq {γ δ : Type} {f : γ → δ} {x y : Option γ} (h : x.map f = y.map f) :
    x = none ∧ y = none ∨ ∃ a b, x = some a ∧ y = some b ∧ f a = f b := by
  cases x with
  | none =>
    cases y with
    | none => exact .inl ⟨rfl, rfl⟩
    | some b => cases h
  | some a =>
    cases y with
    | none => cases h
    | some b => exact .inr ⟨a, b, rfl, rfl, Option.some.inj h⟩

section

variable {line line' : Line} {p q : Piece}

/-- A header is read by its characters. -/
theorem header?_congr (h : p.chars = q.chars) :
    (header? p).map (fun x => (x.1, x.2.chars)) = (header? q).map fun x => (x.1, x.2.chars) := by
  have hrest : (p.drop (p.chars.takeWhile isStateChar).length).trimLeft.chars =
      (q.drop (q.chars.takeWhile isStateChar).length).trimLeft.chars := by
    rw [Piece.chars_trimLeft, Piece.chars_trimLeft, Piece.drop, Piece.drop, h]
  unfold header?
  simp only [h] at hrest ⊢
  generalize (p.drop _).trimLeft = r at hrest ⊢
  generalize (q.drop _).trimLeft = r' at hrest ⊢
  simp only [hrest]
  split
  · simp [Piece.chars_trimLeft, Piece.drop, hrest]
  · rfl

/-- A transition is read by its characters. -/
theorem transition?_congr (h : p.chars = q.chars) :
    (transition? p).map (fun x => (x.1.text, x.2)) =
      (transition? q).map fun x => (x.1.text, x.2) := by
  have hchars : ∀ p : Piece, (p.drop 2).chars = p.chars.drop 2 := fun _ => rfl
  unfold transition?
  simp only [hchars, h]
  split
  · rfl
  · next front back hsplit =>
    cases target? back with
    | none => rfl
    | some target => simp [Piece.text, Piece.trimRight, Piece.chars_trimLeft]

/-- The texts that may stand below a header and are no transitions. -/
def keywords : List String :=
  ["", "\x7d", "if", "false", "false;", "fi", "fi;", "skip", "skip;"]

theorem readBody_of_notMem {d : Draft} (h : p.text ∉ keywords) :
    d.readBody line p =
      if "never".toList.isPrefixOf p.chars then .ok d
      else if "::".toList.isPrefixOf p.chars then
        match d.current with
        | none => .error (.transitionOutside line)
        | some source =>
          match transition? p with
          | none => .error (.notATransition line)
          | some (guard, target) =>
            match Guard.ofText guard.text with
            | .error e => .error (.invalidGuard line guard.span e)
            | .ok formula =>
              .ok ((d.mention target).1.addTransition ⟨source, (d.mention target).2, formula⟩)
      else .error (.unexpectedLine line) := by
  simp only [keywords, List.mem_cons, List.not_mem_nil, or_false, not_or] at h
  unfold Draft.readBody
  split
  all_goals first | rfl | simp_all

/-- What follows a header is read by its characters and the number of the line. -/
theorem report_readBody_congr (hnumber : line.number = line'.number) (h : p.chars = q.chars)
    (d : Draft) : (d.readBody line p).mapError report = (d.readBody line' q).mapError report := by
  have htransition := transition?_congr h
  have htext : p.text = q.text := congrArg String.ofList h
  obtain ⟨input, number, start, text⟩ := line
  obtain ⟨input', number, start', text'⟩ := line'
  cases hnumber
  obtain ⟨states, current⟩ := d
  by_cases hkeyword : p.text ∈ keywords
  · obtain ⟨pinput, pstart, chars⟩ := p
    obtain ⟨qinput, qstart, chars⟩ := q
    cases h
    have hsame : ∀ w ∈ keywords, (Draft.readBody ⟨states, current⟩ ⟨input, number, start, text⟩
          ⟨pinput, pstart, w.toList⟩).mapError report =
        (Draft.readBody ⟨states, current⟩ ⟨input', number, start', text'⟩
          ⟨qinput, qstart, w.toList⟩).mapError report := by
      simp only [keywords, List.forall_mem_cons]
      cases current <;>
        exact ⟨rfl, rfl, rfl, rfl, rfl, rfl, rfl, rfl, rfl, List.forall_mem_nil _⟩
    simpa [Piece.text] using hsame _ hkeyword
  · rw [readBody_of_notMem hkeyword, readBody_of_notMem (htext ▸ hkeyword), h]
    split
    · rfl
    · split
      · cases current with
        | none => rfl
        | some source =>
          rcases of_map_eq htransition with ⟨hp, hq⟩ | ⟨t, t', hp, hq, hsame⟩
          · rw [hp, hq]
            rfl
          · rw [Prod.mk.injEq] at hsame
            simp only [hp, hq, hsame]
            cases Guard.ofText t'.1.text <;> rfl
      · rfl

/-- A line is read by its content and its number. -/
theorem report_readLine_congr (hnumber : line.number = line'.number)
    (h : (content line).chars = (content line').chars) (d : Draft) :
    (d.readLine line).mapError report = (d.readLine line').mapError report := by
  have hheader := header?_congr h
  unfold Draft.readLine
  simp only
  rcases of_map_eq hheader with ⟨hp, hq⟩ | ⟨x, x', hp, hq, hsame⟩
  · rw [hp, hq]
    exact report_readBody_congr hnumber h d
  · rw [Prod.mk.injEq] at hsame
    simp only [hp, hq, hsame.1]
    exact report_readBody_congr hnumber hsame.2 _

end

/-! ## What stands in front of a comment -/

section

variable {cs ds : List Char}

theorem beforeComment_cons (c : Char) (cs : List Char) :
    beforeComment (c :: cs) =
      if c = '/' ∧ cs.head? = some '*' then [] else c :: beforeComment cs := by
  split
  · next h =>
    obtain ⟨rfl, hhead⟩ := h
    obtain ⟨rest, rfl⟩ := List.head?_eq_some_iff.mp hhead
    rfl
  · next h =>
    rw [beforeComment]
    rintro rest rfl rfl
    exact h ⟨rfl, rfl⟩

/-- A comment hides what stands behind it, and otherwise one may begin behind. -/
theorem beforeComment_append (cs : List Char) (h : ds.head? ≠ some '*') :
    beforeComment (cs ++ ds) = beforeComment cs ∨
      beforeComment (cs ++ ds) = beforeComment cs ++ beforeComment ds := by
  induction cs with
  | nil => exact .inr rfl
  | cons c cs ih =>
    have hhead : (cs ++ ds).head? = some '*' ↔ cs.head? = some '*' := by
      cases cs with
      | nil => simpa using h
      | cons d cs => rfl
    rw [List.cons_append, beforeComment_cons, beforeComment_cons]
    simp only [hhead]
    split
    · exact .inl rfl
    · exact ih.imp (congrArg (List.cons c)) (congrArg (List.cons c))

/-- What is put behind a comment does not matter. -/
theorem beforeComment_append_of_ne (h : beforeComment cs ≠ cs) (ds : List Char) :
    beforeComment (cs ++ ds) = beforeComment cs := by
  induction cs with
  | nil => exact absurd rfl h
  | cons c cs ih =>
    rw [beforeComment_cons] at h
    rw [List.cons_append, beforeComment_cons, beforeComment_cons]
    split at h
    · next hcomment =>
      obtain ⟨rest, rfl⟩ := List.head?_eq_some_iff.mp hcomment.2
      rw [if_pos hcomment, if_pos ⟨hcomment.1, rfl⟩]
    · next hnone =>
      have hne : beforeComment cs ≠ cs := fun heq => h (congrArg (List.cons c) heq)
      have hhead : (cs ++ ds).head? = cs.head? := by
        cases cs with
        | nil => exact absurd rfl hne
        | cons d cs => rfl
      rw [if_neg (hhead ▸ hnone), if_neg hnone, ih hne]

/-- What a line says: the characters in front of its comment, without the white space around. -/
def said (cs : List Char) : List Char := Text.trim (beforeComment cs)

/-- White space behind a line says nothing, and neither does a comment. -/
theorem said_append (cs : List Char) (h : ∀ c ∈ beforeComment ds, Text.isBlank c = true) :
    said (cs ++ ds) = said cs := by
  have hhead : ds.head? ≠ some '*' := by
    intro hstar
    obtain ⟨rest, rfl⟩ := List.head?_eq_some_iff.mp hstar
    rw [beforeComment_cons, if_neg (by simp)] at h
    have hblank := h '*' List.mem_cons_self
    revert hblank
    decide
  rcases beforeComment_append cs hhead with happend | happend
  · rw [said, happend, said]
  · have htrim := Text.trim_append_append (List.forall_mem_nil _) h (beforeComment cs)
    rw [said, happend, said]
    exact htrim

theorem said_dropReturn (cs : List Char) : said (Text.dropReturn cs) = said cs := by
  by_cases hlast : cs.getLast? = some '\r'
  · obtain ⟨front, rfl⟩ := List.getLast?_eq_some_iff.mp hlast
    rw [Text.dropReturn_concat, said_append front (by decide)]
  · rw [Text.dropReturn_eq_self hlast]

end

/-! ## Lines -/

/-- What the lines of a text say. -/
def contents (cs : List Char) : List (List Char) := (Text.split '\n' cs).map said

theorem chars_content_ofPiece (input : Input) (number start : Nat) (piece : List Char) :
    (content ⟨input, number, start, String.ofList (Text.dropReturn piece)⟩).chars = said piece := by
  rw [content, Piece.chars_trim, String.toList_ofList, ← said, said_dropReturn]

/-- Lines are read by what they say. -/
theorem report_foldSteps_congr {pieces pieces' : List (List Char)}
    (h : pieces.map said = pieces'.map said) (input input' : Input) (number start start' : Nat)
    (d : Draft) :
    (foldSteps Draft.readLine d (Line.ofPieces input number start pieces)).mapError report =
      (foldSteps Draft.readLine d (Line.ofPieces input' number start' pieces')).mapError
        report := by
  induction pieces generalizing pieces' d number start start' with
  | nil =>
    rw [List.map_eq_nil_iff.mp h.symm]
    rfl
  | cons piece pieces ih =>
    obtain ⟨piece', pieces', rfl, hpiece, hpieces⟩ := List.map_eq_cons_iff.mp h.symm
    have hread : (d.readLine ⟨input, number, start, String.ofList (Text.dropReturn piece)⟩).mapError
          report =
        (d.readLine ⟨input', number, start', String.ofList (Text.dropReturn piece')⟩).mapError
          report := by
      apply report_readLine_congr
      · rfl
      · rw [chars_content_ofPiece, chars_content_ofPiece, hpiece]
    simp only [Line.ofPieces, foldSteps]
    rcases of_mapError_eq hread with hsame | ⟨e, e', he, he', hreport⟩
    · rw [hsame]
      cases d.readLine ⟨input', number, start', String.ofList (Text.dropReturn piece')⟩ with
      | error e => rfl
      | ok d => exact ih hpieces.symm _ _ _ d
    · rw [he, he']
      exact congrArg Except.error hreport

/-- A never-claim is read by what its lines say. -/
theorem outcome_congr {text text' : String} (h : contents text.toList = contents text'.toList)
    (name : String) (source : Option String) :
    outcome name ⟨text, source⟩ = outcome name ⟨text', source⟩ := by
  have hread := report_foldSteps_congr h ⟨text, source⟩ ⟨text', source⟩ 1 0 0 ⟨[], none⟩
  unfold outcome toAutomaton
  rcases of_mapError_eq hread with hsame | ⟨e, e', he, he', hreport⟩
  · rw [Input.lines, Input.lines, hsame]
  · rw [Input.lines, Input.lines, he, he']
    exact congrArg Except.error hreport

/-! ## Where a comment is put -/

/-- The characters behind the last line feed. -/
def lastLine (cs : List Char) : List Char := (cs.reverse.takeWhile (· ≠ '\n')).reverse

/-- The characters in front of the first line feed. -/
def restOfLine (cs : List Char) : List Char := cs.takeWhile (· ≠ '\n')

/-- The characters from the first line feed on. -/
def belowLine (cs : List Char) : List Char := cs.dropWhile (· ≠ '\n')

theorem notMem_restOfLine (cs : List Char) : '\n' ∉ restOfLine cs := fun h => by
  simpa using List.mem_takeWhile_imp h

theorem belowLine_cases (cs : List Char) :
    belowLine cs = [] ∨ ∃ down, belowLine cs = '\n' :: down := by
  have hhead := List.head?_dropWhile_not (fun c => decide (c ≠ '\n')) cs
  cases hbelow : belowLine cs with
  | nil => exact .inl rfl
  | cons c down =>
    rw [← belowLine, hbelow] at hhead
    have hc : c = '\n' := by simpa using hhead
    exact .inr ⟨down, by rw [hc]⟩

theorem lastLine_cases (cs : List Char) :
    '\n' ∉ lastLine cs ∧ (cs = lastLine cs ∨ ∃ up, cs = up ++ '\n' :: lastLine cs) := by
  have hsplit : restOfLine cs.reverse ++ belowLine cs.reverse = cs.reverse :=
    List.takeWhile_append_dropWhile
  have hcs : cs = (belowLine cs.reverse).reverse ++ lastLine cs := by
    have hreverse := congrArg List.reverse hsplit
    rw [List.reverse_append, List.reverse_reverse] at hreverse
    exact hreverse.symm
  refine ⟨fun h => notMem_restOfLine cs.reverse (List.mem_reverse.mp h), ?_⟩
  rcases belowLine_cases cs.reverse with hnil | ⟨down, hdown⟩
  · rw [hnil] at hcs
    exact .inl hcs
  · rw [hdown, List.reverse_cons, List.append_assoc] at hcs
    exact .inr ⟨_, hcs⟩

/-- What is put behind other lines changes the last one only. -/
theorem contents_append_congr (lead : List Char) {cs ds : List Char}
    (h : contents (lastLine lead ++ cs) = contents (lastLine lead ++ ds)) :
    contents (lead ++ cs) = contents (lead ++ ds) := by
  rcases (lastLine_cases lead).2 with hlead | ⟨up, hlead⟩
  · rwa [← hlead] at h
  · have happend : ∀ es, contents (lead ++ es) = contents up ++ contents (lastLine lead ++ es) := by
      intro es
      calc
        contents (lead ++ es) = contents ((up ++ '\n' :: lastLine lead) ++ es) := by rw [← hlead]
        _ = contents (up ++ '\n' :: (lastLine lead ++ es)) := by
          rw [List.append_assoc, List.cons_append]
        _ = contents up ++ contents (lastLine lead ++ es) := by
          rw [contents, Text.split_append_separator, List.map_append]
          rfl
    rw [happend, happend, h]

/-- A line that is begun ends where the first line feed is. -/
theorem contents_append {front : List Char} (hfront : '\n' ∉ front) (rest : List Char) :
    contents (front ++ rest) =
      said (front ++ restOfLine rest) :: (contents (belowLine rest)).tail := by
  have hline : '\n' ∉ front ++ restOfLine rest := by
    rw [List.mem_append, not_or]
    exact ⟨hfront, notMem_restOfLine rest⟩
  have hrest : front ++ rest = (front ++ restOfLine rest) ++ belowLine rest := by
    rw [List.append_assoc, restOfLine, belowLine, List.takeWhile_append_dropWhile]
  rw [hrest]
  rcases belowLine_cases rest with hnil | ⟨down, hdown⟩
  · rw [hnil, List.append_nil, contents, Text.split_of_notMem hline]
    rfl
  · rw [hdown, contents, Text.split_append_cons hline]
    rfl

/-- A comment that is closed. -/
def comment (body : String) : String := "/*" ++ body ++ "*/"

/-- A comment can take nothing away from its line: only white space follows, perhaps with a comment
behind it, or there is a comment in front. -/
def IsFree (lead rest : List Char) : Prop :=
  (∀ c ∈ beforeComment (restOfLine rest), Text.isBlank c = true) ∨
    beforeComment (lastLine lead) ≠ lastLine lead

instance (lead rest : List Char) : Decidable (IsFree lead rest) :=
  inferInstanceAs (Decidable (_ ∨ _))

section

variable {body : String}

theorem notMem_comment (hbody : '\n' ∉ body.toList) : '\n' ∉ (comment body).toList := by
  rw [comment, String.toList_append, String.toList_append, List.mem_append, List.mem_append,
    not_or, not_or]
  exact ⟨⟨by decide, hbody⟩, by decide⟩

/-- A comment hides the rest of its line. -/
theorem beforeComment_comment_append (body : String) (rest : List Char) :
    beforeComment ((comment body).toList ++ rest) = [] := by
  rw [comment, String.toList_append, String.toList_append]
  rfl

theorem contents_append_belowLine {front : List Char} (hfront : '\n' ∉ front) (rest : List Char) :
    contents (front ++ belowLine rest) = said front :: (contents (belowLine rest)).tail := by
  have hcut : restOfLine (belowLine rest) = [] ∧ belowLine (belowLine rest) = belowLine rest := by
    rcases belowLine_cases rest with hnil | ⟨down, hdown⟩
    · rw [hnil]
      exact ⟨rfl, rfl⟩
    · rw [hdown]
      exact ⟨rfl, rfl⟩
  rw [contents_append hfront, hcut.1, hcut.2, List.append_nil]

/-- A text with a comment says what it says without the rest of the line. -/
theorem contents_comment (hbody : '\n' ∉ body.toList) (lead rest : List Char) :
    contents (lead ++ ((comment body).toList ++ rest)) = contents (lead ++ belowLine rest) := by
  have hcomment : ∀ c ∈ (comment body).toList, decide (c ≠ '\n') = true := fun c hc =>
    decide_eq_true fun heq => notMem_comment hbody (heq ▸ hc)
  have hrest : restOfLine ((comment body).toList ++ rest) =
      (comment body).toList ++ restOfLine rest := List.takeWhile_append_of_pos hcomment
  have hbelow : belowLine ((comment body).toList ++ rest) = belowLine rest :=
    List.dropWhile_append_of_pos hcomment
  have hfront := (lastLine_cases lead).1
  refine contents_append_congr lead ?_
  rw [contents_append hfront, contents_append_belowLine hfront, hrest, hbelow, said_append]
  rw [beforeComment_comment_append]
  exact List.forall_mem_nil _

/-- Where a comment can take nothing away, the rest of the line says nothing. -/
theorem contents_of_isFree {lead rest : List Char} (h : IsFree lead rest) :
    contents (lead ++ belowLine rest) = contents (lead ++ rest) := by
  have hfront := (lastLine_cases lead).1
  have hsaid : said (lastLine lead ++ restOfLine rest) = said (lastLine lead) := by
    rcases h with hblank | hcomment
    · exact said_append _ hblank
    · rw [said, beforeComment_append_of_ne hcomment, said]
  refine contents_append_congr lead ?_
  rw [contents_append_belowLine hfront, contents_append hfront, hsaid]

end

/-- A comment takes the rest of its line away, and nothing else; so it changes nothing where it can
take nothing away.

`hbody` keeps the comment on its line.  The first part is exact for every text and every place;
`IsFree` in the second one says that there was nothing on the line that the comment could take away.
-/
theorem outcome_insert_comment (name : String) (source : Option String) (lead rest : String)
    {body : String} (hbody : '\n' ∉ body.toList) :
    outcome name ⟨lead ++ comment body ++ rest, source⟩ =
        outcome name ⟨lead ++ String.ofList (belowLine rest.toList), source⟩ ∧
      (IsFree lead.toList rest.toList → outcome name ⟨lead ++ comment body ++ rest, source⟩ =
        outcome name ⟨lead ++ rest, source⟩) := by
  have hcut : outcome name ⟨lead ++ comment body ++ rest, source⟩ =
      outcome name ⟨lead ++ String.ofList (belowLine rest.toList), source⟩ := by
    refine outcome_congr ?_ name source
    rw [String.toList_append, String.toList_append, String.toList_append, String.toList_ofList,
      List.append_assoc]
    exact contents_comment hbody lead.toList rest.toList
  refine ⟨hcut, fun hfree => hcut.trans (outcome_congr ?_ name source)⟩
  rw [String.toList_append, String.toList_append, String.toList_ofList]
  exact contents_of_isFree hfree

/-- A comment behind a header, with white space and another comment behind it. -/
theorem outcome_comment_behind_header :
    let automaton : Automaton String :=
      ⟨"detour", [⟨"T0_init", 0, true, false, [⟨0, 0, .const true⟩]⟩], 0⟩
    ('\n' ∉ " init ".toList ∧ IsFree "T0_init :".toList " /* again */\r\nskip\n".toList) ∧
      outcome "detour" ⟨"T0_init :" ++ comment " init " ++ " /* again */\r\nskip\n", none⟩ =
        .ok automaton := by
  intro automaton
  have hfree : IsFree "T0_init :".toList " /* again */\r\nskip\n".toList := by decide
  refine ⟨⟨by decide, hfree⟩, ?_⟩
  rw [(outcome_insert_comment "detour" none _ _ (by decide)).2 hfree]
  rfl

/-- A comment in front of a transition, which is lost without an error. -/
theorem outcome_comment_before_skip :
    outcome "detour" ⟨"T0_init :\n" ++ "skip\n", none⟩ =
        .ok ⟨"detour", [⟨"T0_init", 0, true, false, [⟨0, 0, .const true⟩]⟩], 0⟩ ∧
      outcome "detour" ⟨"T0_init :\n" ++ comment " stay " ++ "skip\n", none⟩ =
        .ok ⟨"detour", [⟨"T0_init", 0, true, false, []⟩], 0⟩ ∧
      outcome "detour" ⟨"T0_init :\n" ++ comment " stay " ++ "skip\n", none⟩ ≠
        outcome "detour" ⟨"T0_init :\n" ++ "skip\n", none⟩ := by
  have hplain : outcome "detour" ⟨"T0_init :\n" ++ "skip\n", none⟩ =
      .ok ⟨"detour", [⟨"T0_init", 0, true, false, [⟨0, 0, .const true⟩]⟩], 0⟩ := by rfl
  have hcomment : outcome "detour" ⟨"T0_init :\n" ++ comment " stay " ++ "skip\n", none⟩ =
      .ok ⟨"detour", [⟨"T0_init", 0, true, false, []⟩], 0⟩ := by rfl
  refine ⟨hplain, hcomment, ?_⟩
  rw [hplain, hcomment]
  decide

end NeverClaim

end PlanConstraints

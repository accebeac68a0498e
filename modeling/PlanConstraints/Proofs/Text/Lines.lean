import Mathlib.Data.List.TakeWhile
import PlanConstraints.Proofs.Text.Words
import PlanConstraints.Source.Line

set_option autoImplicit false

/-!
# Texts that stand on lines of their own

A text that fills a line has no white space around it and no line feed in it (`IsLine`).  Such texts
are found again on the lines of the input that they make up (`map_text_lines`), and the lines of any
input hold nothing else (`isLine_trimmed`).
-/

namespace PlanConstraints

namespace Text

/-! ## Trimming -/

/-- The text begins and ends with characters that are not blank. -/
def IsTrimmed (cs : List Char) : Prop :=
  cs.head?.any (fun c => !isBlank c) = true ∧ cs.getLast?.any (fun c => !isBlank c) = true

instance (cs : List Char) : Decidable (IsTrimmed cs) :=
  inferInstanceAs (Decidable (_ ∧ _))

variable {cs ds es : List Char}

theorem isTrimmed_cons_concat {c d : Char} (hc : isBlank c = false) (hd : isBlank d = false)
    (cs : List Char) : IsTrimmed (c :: (cs ++ [d])) := by
  simp [IsTrimmed, hc, List.getLast?_cons, hd]

theorem IsTrimmed.exists_cons (h : IsTrimmed cs) :
    ∃ c rest, cs = c :: rest ∧ isBlank c = false := by
  cases cs with
  | nil => cases h.1
  | cons c rest => exact ⟨c, rest, rfl, by simpa using h.1⟩

theorem IsTrimmed.exists_concat (h : IsTrimmed cs) :
    ∃ front c, cs = front ++ [c] ∧ isBlank c = false := by
  obtain ⟨-, hlast⟩ := h
  cases hc : cs.getLast? with
  | none => rw [hc] at hlast; cases hlast
  | some c =>
    obtain ⟨front, rfl⟩ := List.getLast?_eq_some_iff.mp hc
    exact ⟨front, c, rfl, by simpa [hc] using hlast⟩

theorem IsTrimmed.ne_nil (h : IsTrimmed cs) : cs ≠ [] := by
  obtain ⟨c, rest, rfl, -⟩ := h.exists_cons
  exact List.cons_ne_nil c rest

theorem IsTrimmed.cons {c : Char} (hc : isBlank c = false) (h : IsTrimmed cs) :
    IsTrimmed (c :: cs) := by
  obtain ⟨front, d, rfl, hd⟩ := h.exists_concat
  exact isTrimmed_cons_concat hc hd front

theorem IsWord.isTrimmed (h : IsWord cs) : IsTrimmed cs := by
  obtain ⟨hne, hblank⟩ := h
  refine ⟨?_, ?_⟩
  · cases cs with
    | nil => exact absurd rfl hne
    | cons c rest => simp [hblank c List.mem_cons_self]
  · rw [List.getLast?_eq_some_getLast hne, Option.any_some, hblank _ (List.getLast_mem hne)]
    rfl

/-- What stands between two such texts does not matter. -/
theorem IsTrimmed.append (hcs : IsTrimmed cs) (hes : IsTrimmed es) (ds : List Char) :
    IsTrimmed (cs ++ ds ++ es) := by
  obtain ⟨c, rest, rfl, hc⟩ := hcs.exists_cons
  obtain ⟨front, e, rfl, he⟩ := hes.exists_concat
  rw [List.cons_append, List.cons_append, ← List.append_assoc]
  exact isTrimmed_cons_concat hc he _

/-- Texts with spaces between them begin and end with characters that are not blank. -/
theorem isTrimmed_intercalate {ws : List String} (hne : ws ≠ [])
    (h : ∀ w ∈ ws, IsTrimmed w.toList) : IsTrimmed (" ".intercalate ws).toList := by
  induction ws with
  | nil => exact absurd rfl hne
  | cons w ws ih =>
    have hw := h w List.mem_cons_self
    cases ws with
    | nil => simpa using hw
    | cons v ws =>
      have htail := ih (List.cons_ne_nil v ws) fun x hx => h x (List.mem_cons_of_mem _ hx)
      rw [toList_intercalate_cons_cons, List.append_cons]
      exact hw.append htail [' ']

theorem trimRight_concat (cs : List Char) {c : Char} (hc : isBlank c = false) :
    trimRight (cs ++ [c]) = cs ++ [c] := by
  induction cs with
  | nil => simp [trimRight, hc]
  | cons d cs ih =>
    rw [List.cons_append, trimRight, ih]
    cases cs with
    | nil => rfl
    | cons e cs => rfl

theorem trimLeft_cons {c : Char} (hc : isBlank c = false) (cs : List Char) :
    trimLeft (c :: cs) = c :: cs := by
  simp [trimLeft, hc]

theorem IsTrimmed.trim_eq (h : IsTrimmed cs) : trim cs = cs := by
  obtain ⟨c, rest, rfl, hc⟩ := h.exists_cons
  obtain ⟨front, d, hfront, hd⟩ := h.exists_concat
  rw [trim, trimLeft_cons hc, hfront, trimRight_concat front hd]

/-- White space in front is dropped. -/
theorem trim_append (h : ∀ c ∈ cs, isBlank c = true) (ds : List Char) :
    trim (cs ++ ds) = trim ds := by
  rw [trim, trim, trimLeft, List.dropWhile_append_of_pos h, trimLeft]

theorem trimRight_eq_nil_iff : trimRight cs = [] ↔ ∀ c ∈ cs, isBlank c = true := by
  induction cs with
  | nil => simp [trimRight]
  | cons c cs ih =>
    rw [trimRight, List.forall_mem_cons, ← ih]
    split
    · next hnil =>
      cases hc : isBlank c <;> simp [hnil]
    · next hcons => simp [hcons]

/-- White space behind is dropped. -/
theorem trimRight_append (cs : List Char) (h : ∀ c ∈ ds, isBlank c = true) :
    trimRight (cs ++ ds) = trimRight cs := by
  induction cs with
  | nil => exact trimRight_eq_nil_iff.mpr h
  | cons c cs ih => rw [List.cons_append, trimRight, trimRight, ih]

/-- White space around a text is dropped. -/
theorem trim_append_append {front back : List Char} (hfront : ∀ c ∈ front, isBlank c = true)
    (hback : ∀ c ∈ back, isBlank c = true) (cs : List Char) :
    trim (front ++ cs ++ back) = trim cs := by
  rw [List.append_assoc, trim_append hfront, trim, trim, trimLeft, List.dropWhile_append]
  split
  · next hempty =>
    have hnone : cs.dropWhile isBlank = [] := List.isEmpty_iff.mp hempty
    rw [trimLeft, hnone, List.dropWhile_eq_nil_iff.mpr hback]
  · rw [trimRight_append _ hback, trimLeft]

/-- What is dropped behind is white space. -/
theorem exists_trimRight (cs : List Char) :
    ∃ back, cs = trimRight cs ++ back ∧ ∀ c ∈ back, isBlank c = true := by
  induction cs with
  | nil => exact ⟨[], rfl, List.forall_mem_nil _⟩
  | cons c cs ih =>
    obtain ⟨back, hback, hblank⟩ := ih
    rw [trimRight]
    split
    · next hnil =>
      rw [hnil, List.nil_append] at hback
      cases hc : isBlank c with
      | true => exact ⟨c :: cs, rfl, List.forall_mem_cons.mpr ⟨hc, hback ▸ hblank⟩⟩
      | false => exact ⟨cs, rfl, hback ▸ hblank⟩
    · next hcons =>
      rw [hcons] at hback
      exact ⟨back, congrArg (List.cons c) hback, hblank⟩

theorem isPrefix_trimRight (cs : List Char) : trimRight cs <+: cs := by
  obtain ⟨back, hback, -⟩ := exists_trimRight cs
  exact ⟨back, hback.symm⟩

theorem any_getLast?_trimRight (h : trimRight cs ≠ []) :
    (trimRight cs).getLast?.any (fun c => !isBlank c) = true := by
  induction cs with
  | nil => exact absurd rfl h
  | cons c cs ih =>
    rw [trimRight] at h ⊢
    split
    · next hnil =>
      rw [hnil] at h
      cases hc : isBlank c with
      | true => simp [hc] at h
      | false => simp [hc]
    · next d ds hcons =>
      rw [List.getLast?_cons_cons, ← hcons]
      exact ih (by rw [hcons]; exact List.cons_ne_nil d ds)

/-- Trimming leaves a trimmed text unless there is nothing but white space. -/
theorem isTrimmed_trim (h : cs.all isBlank = false) : IsTrimmed (trim cs) := by
  obtain ⟨c, rest, hleft, hc⟩ : ∃ c rest, trimLeft cs = c :: rest ∧ isBlank c = false := by
    have hhead := List.head?_dropWhile_not isBlank cs
    cases hleft : trimLeft cs with
    | nil =>
      rw [trimLeft, List.dropWhile_eq_nil_iff, ← List.all_eq_true, h] at hleft
      cases hleft
    | cons c rest =>
      rw [trimLeft] at hleft
      rw [hleft] at hhead
      exact ⟨c, rest, rfl, by simpa using hhead⟩
  have hne : trimRight (c :: rest) ≠ [] := fun hnil => by
    have hblank := trimRight_eq_nil_iff.mp hnil c List.mem_cons_self
    rw [hc] at hblank
    cases hblank
  obtain ⟨more, hmore⟩ := isPrefix_trimRight (c :: rest)
  rw [trim, hleft]
  refine ⟨?_, any_getLast?_trimRight hne⟩
  cases hright : trimRight (c :: rest) with
  | nil => exact absurd hright hne
  | cons d ds =>
    rw [hright, List.cons_append] at hmore
    simp [(List.cons.inj hmore).1, hc]

theorem head?_trim (cs : List Char) : (trim cs).head? = (trimLeft cs).head? := by
  rw [trim]
  cases hleft : trimLeft cs with
  | nil => rfl
  | cons c rest =>
    have hhead := List.head?_dropWhile_not isBlank cs
    rw [← trimLeft, hleft] at hhead
    have hc : isBlank c = false := by simpa using hhead
    rw [trimRight]
    split <;> simp [hc]

/-- The first word begins where the white space in front ends. -/
theorem head?_words (cs : List Char) : (words cs).head?.bind List.head? = (trim cs).head? := by
  rw [head?_trim]
  induction cs with
  | nil => rfl
  | cons c cs ih =>
    cases hc : isBlank c with
    | true =>
      rw [words_cons_of_isBlank hc, ih, trimLeft, trimLeft, List.dropWhile_cons_of_pos hc]
    | false =>
      rw [trimLeft_cons hc]
      cases cs with
      | nil => rw [words_singleton hc]; rfl
      | cons d cs =>
        cases hd : isBlank d with
        | true => rw [words_cons_blank hc hd]; rfl
        | false =>
          obtain ⟨word, more, -, hword⟩ := words_cons_cons hc hd cs
          rw [hword]
          rfl

theorem head?_wordsOf (text : String) :
    (wordsOf text).head?.bind (fun w => w.toList.head?) = (trim text.toList).head? := by
  rw [← head?_words, wordsOf, List.head?_map]
  cases (words text.toList).head? <;> simp

/-- Only blanks have no words. -/
theorem isBlank_of_words_eq_nil (h : words cs = []) : ∀ c ∈ cs, isBlank c = true := by
  intro c hc
  cases hblank : isBlank c with
  | true => rfl
  | false =>
    obtain ⟨w, hw, -⟩ := exists_mem_words cs c hc hblank
    rw [h] at hw
    cases hw

/-- A text of one word, without white space around it, is that word. -/
theorem isWord_of_words_eq_singleton {w : List Char} (h : IsTrimmed cs) (hw : words cs = [w]) :
    IsWord cs := by
  refine ⟨h.ne_nil, fun b hb => Bool.eq_false_iff.mpr fun hblank => ?_⟩
  obtain ⟨front, back, rfl⟩ := List.append_of_mem hb
  -- The blank has a word on either side, since it is neither the first nor the last character.
  have hfront : words front ≠ [] := by
    intro hnil
    have hall : ∀ c ∈ front ++ [b], isBlank c = true := List.forall_mem_append.mpr
      ⟨isBlank_of_words_eq_nil hnil, List.forall_mem_singleton.mpr hblank⟩
    obtain ⟨c, rest, hcons, hc⟩ := h.exists_cons
    have hmem : c ∈ front ++ [b] := by
      cases front <;> simp_all
    rw [hall c hmem] at hc
    cases hc
  have hback : words back ≠ [] := by
    intro hnil
    have hall : ∀ c ∈ b :: back, isBlank c = true :=
      List.forall_mem_cons.mpr ⟨hblank, isBlank_of_words_eq_nil hnil⟩
    obtain ⟨rest, c, hconcat, hc⟩ := h.exists_concat
    have hmem : c ∈ b :: back := by
      have hlast := congrArg List.getLast? hconcat
      rw [List.getLast?_append, List.getLast?_concat] at hlast
      exact List.mem_of_getLast? hlast
    rw [hall c hmem] at hc
    cases hc
  rw [words_append_cons _ hblank] at hw
  have hlength := congrArg List.length hw
  have hpos := List.length_pos_iff.mpr hfront
  have hpos' := List.length_pos_iff.mpr hback
  simp only [List.length_append, List.length_singleton] at hlength
  omega

theorem trim_subset (cs : List Char) : trim cs ⊆ cs :=
  List.Subset.trans (isPrefix_trimRight _).subset (List.dropWhile_suffix _).subset

/-- What trimming drops is white space. -/
theorem exists_trim (cs : List Char) : ∃ front back, cs = front ++ trim cs ++ back ∧
    (∀ c ∈ front, isBlank c = true) ∧ ∀ c ∈ back, isBlank c = true := by
  obtain ⟨back, hback, hblank⟩ := exists_trimRight (trimLeft cs)
  refine ⟨cs.takeWhile isBlank, back, ?_, fun c hc => List.mem_takeWhile_imp hc, hblank⟩
  rw [List.append_assoc, trim, ← hback, trimLeft, List.takeWhile_append_dropWhile]

/-- White space around a text is no part of its words. -/
theorem words_trim (cs : List Char) : words (trim cs) = words cs := by
  obtain ⟨front, back, hcs, hfront, hback⟩ := exists_trim cs
  calc
    words (trim cs) = words (front ++ trim cs ++ back) := by
      rw [words_append_blank _ hback, words_blank_append hfront]
    _ = words cs := by rw [← hcs]

/-! ## Pieces -/

theorem notMem_of_mem_split {separator : Char} {piece : List Char}
    (h : piece ∈ split separator cs) : separator ∉ piece := by
  induction cs generalizing piece with
  | nil =>
    rw [List.mem_singleton.mp h]
    simp
  | cons c cs ih =>
    unfold split at h
    split at h
    · rcases List.mem_cons.mp h with rfl | h
      · simp
      · exact ih h
    · next hc =>
      split at h
      · rw [List.mem_singleton.mp h]
        simpa using Ne.symm hc
      · next first more hsplit =>
        rw [hsplit] at ih
        rcases List.mem_cons.mp h with rfl | h
        · have := ih List.mem_cons_self
          simp [this, Ne.symm hc]
        · exact ih (List.mem_cons_of_mem _ h)

/-- A separator ends a piece. -/
theorem split_append_separator (separator : Char) (cs ds : List Char) :
    split separator (cs ++ separator :: ds) = split separator cs ++ split separator ds := by
  induction cs with
  | nil => simp [split]
  | cons c cs ih =>
    rw [List.cons_append, split, split, ih]
    split
    · rfl
    · obtain ⟨piece, more, hsplit⟩ := List.exists_cons_of_ne_nil (split_ne_nil separator cs)
      simp [hsplit]

/-- A text without separators is one piece. -/
theorem split_of_notMem {separator : Char} (h : separator ∉ cs) : split separator cs = [cs] := by
  induction cs with
  | nil => rfl
  | cons c cs ih =>
    have hc : c ≠ separator := fun heq => h (by rw [heq]; exact List.mem_cons_self)
    rw [split, if_neg hc, ih fun hmem => h (List.mem_cons_of_mem _ hmem)]

theorem split_append_cons {separator : Char} (h : separator ∉ cs) (ds : List Char) :
    split separator (cs ++ separator :: ds) = cs :: split separator ds := by
  rw [split_append_separator, split_of_notMem h, List.singleton_append]

/-- A carriage return is dropped at the end only. -/
theorem dropReturn_eq_self (h : cs.getLast? ≠ some '\r') : dropReturn cs = cs := by
  induction cs with
  | nil => rfl
  | cons c cs ih =>
    cases cs with
    | nil =>
      have hc : c ≠ '\r' := by simpa using h
      rw [dropReturn, if_neg hc]
    | cons d cs =>
      rw [dropReturn, ih (by simpa using h)]

theorem dropReturn_concat (cs : List Char) : dropReturn (cs ++ ['\r']) = cs := by
  induction cs with
  | nil => rfl
  | cons c cs ih =>
    obtain ⟨d, rest, hcons⟩ := List.exists_cons_of_ne_nil
      (List.append_ne_nil_of_right_ne_nil cs (List.cons_ne_nil '\r' []))
    rw [List.cons_append, hcons, dropReturn, ← hcons, ih]

theorem dropReturn_subset (cs : List Char) : dropReturn cs ⊆ cs := by
  induction cs with
  | nil => exact List.Subset.refl _
  | cons c cs ih =>
    cases cs with
    | nil =>
      rw [dropReturn]
      split
      · exact List.nil_subset _
      · exact List.Subset.refl _
    | cons d cs =>
      rw [dropReturn]
      exact List.cons_subset_cons c ih

end Text

/-! ## Lines -/

/-- The text fills a line: it has no white space around it and no line feed in it. -/
def IsLine (text : String) : Prop := Text.IsTrimmed text.toList ∧ '\n' ∉ text.toList

instance (text : String) : Decidable (IsLine text) := inferInstanceAs (Decidable (_ ∧ _))

/-- What stands between two such texts may not have a line feed, and nothing else matters. -/
theorem IsLine.append {a b m : String} (ha : IsLine a) (hb : IsLine b) (hm : '\n' ∉ m.toList) :
    IsLine (a ++ m ++ b) := by
  rw [IsLine, String.toList_append, String.toList_append]
  refine ⟨ha.1.append hb.1 _, ?_⟩
  simp only [List.mem_append, not_or]
  exact ⟨⟨ha.2, hm⟩, hb.2⟩

theorem Text.IsWord.isLine {text : String} (h : IsWord text.toList) : IsLine text := by
  refine ⟨h.isTrimmed, fun hbreak => ?_⟩
  have hblank := h.notBlank '\n' hbreak
  revert hblank
  decide

/-- Texts that fill lines fill one together, with spaces between them. -/
theorem IsLine.intercalate {ws : List String} (hne : ws ≠ []) (h : ∀ w ∈ ws, IsLine w) :
    IsLine (" ".intercalate ws) := by
  refine ⟨Text.isTrimmed_intercalate hne fun w hw => (h w hw).1, fun hbreak => ?_⟩
  rcases Text.mem_toList_intercalate hbreak with hspace | ⟨w, hw, hbreak⟩
  · revert hspace
    decide
  · exact (h w hw).2 hbreak

/-- Words with spaces between them fill a line. -/
theorem isLine_intercalate {ws : List String} (hne : ws ≠ [])
    (h : ∀ w ∈ ws, Text.IsWord w.toList) : IsLine (" ".intercalate ws) :=
  .intercalate hne fun w hw => (h w hw).isLine

theorem IsLine.append_append {a b : String} (ha : IsLine a) (hb : IsLine b) : IsLine (a ++ b) := by
  simpa using ha.append hb (m := "") (by simp)

theorem drop_length_takeWhile {α : Type} (p : α → Bool) (l : List α) :
    l.drop (l.takeWhile p).length = l.dropWhile p := by
  induction l with
  | nil => rfl
  | cons a l ih =>
    rw [List.takeWhile_cons, List.dropWhile_cons]
    split
    · exact ih
    · rfl

theorem Piece.chars_trimLeft (p : Piece) : p.trimLeft.chars = Text.trimLeft p.chars :=
  drop_length_takeWhile _ _

theorem Piece.chars_trim (p : Piece) : p.trim.chars = Text.trim p.chars := by
  unfold Piece.trim
  split
  · next hblank =>
    have hleft : Text.trimLeft p.chars = [] :=
      List.dropWhile_eq_nil_iff.mpr (List.all_eq_true.mp hblank)
    rw [Text.trim, hleft]
    rfl
  · exact congrArg Text.trimRight p.chars_trimLeft

theorem Piece.input_trim (p : Piece) : p.trim.input = p.input := by
  unfold Piece.trim
  split <;> rfl

/-- A piece keeps its place when it is trimmed. -/
theorem Piece.trim_inside (p : Piece) :
    p.start ≤ p.trim.start ∧ p.trim.span.stop ≤ p.span.stop := by
  unfold Piece.trim
  split
  · exact ⟨Nat.le_refl _, Nat.add_le_add_left (Nat.zero_le _) _⟩
  · refine ⟨Nat.le_add_right _ _, ?_⟩
    obtain ⟨back, hback⟩ := Text.isPrefix_trimRight p.trimLeft.chars
    have htrim : Text.byteLength p.trimLeft.trimRight.chars + Text.byteLength back =
        Text.byteLength p.trimLeft.chars := by
      rw [← Text.byteLength_append]
      exact congrArg Text.byteLength hback
    have hsplit := congrArg Text.byteLength
      (List.take_append_drop (p.chars.takeWhile Text.isBlank).length p.chars)
    rw [Text.byteLength_append] at hsplit
    simp only [Piece.span, Piece.trimRight, Piece.trimLeft, Piece.drop] at htrim ⊢
    omega

/-- A part of the line is found where it stands. -/
theorem Line.subSpan_of_le {l : Line} {part : Piece} (hinput : part.input = l.input)
    (hstart : l.start ≤ part.start) (hstop : part.span.stop ≤ l.range.stop) :
    l.subSpan part = part.span := by
  rw [Line.subSpan, if_pos ⟨hstart, hstop⟩, ← hinput]
  rfl

theorem Line.span_eq (l : Line) : l.span = l.piece.trim.span :=
  l.subSpan_of_le l.piece.input_trim l.piece.trim_inside.1 l.piece.trim_inside.2

theorem Line.trimmed_eq (l : Line) : l.trimmed = String.ofList (Text.trim l.text.toList) :=
  congrArg String.ofList l.piece.chars_trim

/-- A line that is filled reads as its text. -/
theorem IsLine.trimmed_eq {l : Line} (h : IsLine l.text) :
    l.isBlank = false ∧ l.trimmed = l.text := by
  refine ⟨?_, by rw [l.trimmed_eq, h.1.trim_eq, String.ofList_toList]⟩
  obtain ⟨c, rest, hchars, hc⟩ := h.1.exists_cons
  simp [Line.isBlank, Line.piece, Piece.isBlank, hchars, hc]

theorem map_text_ofPieces (input : Input) (number start : Nat) (pieces : List (List Char)) :
    (Line.ofPieces input number start pieces).map Line.text =
      pieces.map fun piece => String.ofList (Text.dropReturn piece) := by
  induction pieces generalizing number start with
  | nil => rfl
  | cons piece more ih => rw [Line.ofPieces, List.map_cons, List.map_cons, ih]

/-- The lines of an input in which texts stand below each other; the last one is empty. -/
theorem map_text_lines {texts : List String}
    (h : ∀ t ∈ texts, '\n' ∉ t.toList ∧ t.toList.getLast? ≠ some '\r') (source : Option String) :
    (Input.lines ⟨String.join (texts.map fun t => t ++ "\n"), source⟩).map Line.text =
      texts ++ [""] := by
  rw [Input.lines, map_text_ofPieces]
  induction texts with
  | nil => rfl
  | cons t texts ih =>
    obtain ⟨hbreak, hreturn⟩ := h t List.mem_cons_self
    have hchars : (String.join ((t :: texts).map fun t => t ++ "\n")).toList =
        t.toList ++ '\n' :: (String.join (texts.map fun t => t ++ "\n")).toList := by
      simp
    rw [hchars, Text.split_append_cons hbreak, List.map_cons,
      ih fun t ht => h t (List.mem_cons_of_mem _ ht), Text.dropReturn_eq_self hreturn,
      String.ofList_toList, List.cons_append]

/-- A carriage return is blank, so that no filled line ends with one. -/
theorem IsLine.getLast?_ne_return {text : String} (h : IsLine text) :
    text.toList.getLast? ≠ some '\r' := by
  intro hlast
  have hblank := h.1.2
  rw [hlast] at hblank
  revert hblank
  decide

/-- Filled lines below each other are the lines that are not blank. -/
theorem map_trimmed_lines {texts : List String} (h : ∀ t ∈ texts, IsLine t)
    (source : Option String) :
    ((Input.lines ⟨String.join (texts.map fun t => t ++ "\n"), source⟩).filter
      fun l => !l.isBlank).map Line.trimmed = texts := by
  have hlines := map_text_lines (fun t ht => ⟨(h t ht).2, (h t ht).getLast?_ne_return⟩) source
  generalize Input.lines _ = lines at hlines
  induction texts generalizing lines with
  | nil =>
    obtain ⟨l, rfl, htext⟩ := List.map_eq_singleton_iff.mp hlines
    have hblank : l.isBlank = true := by
      rw [Line.isBlank, Line.piece, htext]
      rfl
    simp [hblank]
  | cons t texts ih =>
    obtain ⟨l, lines, rfl, rfl, hrest⟩ := List.map_eq_cons_iff.mp hlines
    obtain ⟨hl, htexts⟩ := List.forall_mem_cons.mp h
    obtain ⟨hblank, htrimmed⟩ := hl.trimmed_eq
    rw [List.filter_cons_of_pos (by rw [hblank]; rfl), List.map_cons, htrimmed,
      ih htexts lines hrest]

/-- No line has a line feed. -/
theorem notMem_text {input : Input} {l : Line} (hl : l ∈ input.lines) : '\n' ∉ l.text.toList := by
  have hmem : l.text ∈ input.lines.map Line.text := List.mem_map_of_mem hl
  rw [Input.lines, map_text_ofPieces] at hmem
  obtain ⟨piece, hpiece, htext⟩ := List.mem_map.mp hmem
  rw [← htext, String.toList_ofList]
  exact fun hc => Text.notMem_of_mem_split hpiece (Text.dropReturn_subset piece hc)

/-- Characters that are not all blank fill a line without the white space around them. -/
theorem isLine_trim {cs : List Char} (hblank : cs.all Text.isBlank = false) (hbreak : '\n' ∉ cs) :
    IsLine (String.ofList (Text.trim cs)) := by
  rw [IsLine, String.toList_ofList]
  exact ⟨Text.isTrimmed_trim hblank, fun hc => hbreak (Text.trim_subset _ hc)⟩

/-- The lines of an input are lines. -/
theorem isLine_trimmed {input : Input} {l : Line} (hl : l ∈ input.lines)
    (hblank : l.isBlank = false) : IsLine l.trimmed := by
  rw [l.trimmed_eq]
  exact isLine_trim hblank (notMem_text hl)

/-! ## Words of a line -/

theorem Line.names_tokens (l : Line) : l.tokens.map Symbol.name = Text.wordsOf l.text := by
  rw [Text.wordsOf, ← Text.map_snd_wordsFrom l.start, Line.tokens, Line.tokensOf, List.map_map,
    List.map_map]
  rfl

/-- The tokens of a line are words. -/
theorem isWord_of_mem_tokens {l : Line} {word : Symbol} (h : word ∈ l.tokens) :
    Text.IsWord word.name.toList := by
  have hmem : word.name ∈ Text.wordsOf l.text := l.names_tokens ▸ List.mem_map_of_mem h
  obtain ⟨chars, hchars, hword⟩ := List.mem_map.mp hmem
  rw [← hword, String.toList_ofList]
  exact (Text.isWord_of_mem_words hchars).1

theorem isLine_of_mem_tokens {l : Line} {word : Symbol} (h : word ∈ l.tokens) :
    IsLine word.name :=
  (isWord_of_mem_tokens h).isLine

end PlanConstraints

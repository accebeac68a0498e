import Mathlib.Data.List.Forall2
import PlanConstraints.Proofs.Text.Lines

set_option autoImplicit false

/-!
# Where lines and tokens stand

An input is cut into lines without losing anything, each line covers its own text, and the tokens of
a line are its runs of characters that are not blank, each with the span of that run
(`Input.spans_of_lines`).  So whatever is said about a line or a token is said at its place.
-/

namespace PlanConstraints

namespace Text

/-! ## Parts of a text -/

/-- Behind the stop no character is in the slice. -/
theorem sliceFrom_of_le {pos start stop : Nat} (h : stop ≤ pos) (cs : List Char) :
    sliceFrom pos start stop cs = [] := by
  induction cs generalizing pos with
  | nil => rfl
  | cons c cs ih =>
    rw [sliceFrom, if_neg (by omega)]
    exact ih (Nat.le_add_right_of_le h)

/-- The first characters are those in the bytes that they take. -/
theorem sliceFrom_append {pos start : Nat} (h : start ≤ pos) (mid back : List Char) :
    sliceFrom pos start (pos + byteLength mid) (mid ++ back) = mid := by
  induction mid generalizing pos with
  | nil => exact sliceFrom_of_le (Nat.le_refl pos) back
  | cons c mid ih =>
    have hsize := c.utf8Size_pos
    rw [List.cons_append, sliceFrom, byteLength_cons, if_pos (by omega), ← Nat.add_assoc,
      ih (Nat.le_add_right_of_le h)]

/-- Characters in front of the start are not in the slice. -/
theorem sliceFrom_behind (pos stop : Nat) (front cs : List Char) :
    sliceFrom pos (pos + byteLength front) stop (front ++ cs) =
      sliceFrom (pos + byteLength front) (pos + byteLength front) stop cs := by
  induction front generalizing pos with
  | nil => rfl
  | cons c front ih =>
    have hsize := c.utf8Size_pos
    rw [List.cons_append, sliceFrom, byteLength_cons, if_neg (by omega), ← Nat.add_assoc, ih]

theorem slice_behind (stop : Nat) (front cs : List Char) :
    slice (byteLength front) stop (front ++ cs) =
      sliceFrom (byteLength front) (byteLength front) stop cs := by
  simpa [slice] using sliceFrom_behind 0 stop front cs

/-- The characters between two others are those in the bytes from the first to the last of them. -/
theorem slice_append (front mid back : List Char) :
    slice (byteLength front) (byteLength front + byteLength mid) (front ++ mid ++ back) = mid := by
  rw [List.append_assoc, slice_behind, sliceFrom_append (Nat.le_refl _)]

/-- The character that begins at a byte is in the slice of that byte. -/
theorem head?_slice (front cs : List Char) :
    (slice (byteLength front) (byteLength front + 1) (front ++ cs)).head? = cs.head? := by
  rw [slice_behind]
  cases cs with
  | nil => rfl
  | cons c cs => rw [sliceFrom, if_pos ⟨Nat.le_refl _, Nat.lt_succ_self _⟩]; rfl

/-- At most one carriage return is dropped, and none is left if none was dropped. -/
theorem dropReturn_cases (cs : List Char) :
    cs = dropReturn cs ++ ['\r'] ∨ cs = dropReturn cs ∧ cs.getLast? ≠ some '\r' := by
  by_cases hlast : cs.getLast? = some '\r'
  · obtain ⟨front, rfl⟩ := List.getLast?_eq_some_iff.mp hlast
    exact .inl (by rw [dropReturn_concat])
  · exact .inr ⟨(dropReturn_eq_self hlast).symm, hlast⟩

theorem toList_intercalate_ofList (pieces : List (List Char)) :
    ("\n".intercalate (pieces.map String.ofList)).toList = join '\n' pieces := by
  induction pieces with
  | nil => simp [join]
  | cons piece more ih =>
    cases more with
    | nil => simp [join]
    | cons next more =>
      rw [List.map_cons, List.map_cons, String.intercalate_cons_cons, ← List.map_cons,
        String.toList_append, String.toList_append, ih, String.toList_ofList, List.append_assoc]
      rfl

end Text

/-! ## Spans -/

/-- The span covers these characters: they stand in its input behind the others, and its bytes are
theirs, so that it cuts no character. -/
structure Span.Covers (s : Span) (front chars : List Char) : Prop where
  isPrefix : front ++ chars <+: s.input.text.toList
  start_eq : s.start = Text.byteLength front
  stop_eq : s.stop = s.start + Text.byteLength chars

namespace Span.Covers

variable {s : Span} {front chars : List Char}

theorem text_eq (h : s.Covers front chars) : s.text = String.ofList chars := by
  obtain ⟨⟨back, htext⟩, hstart, hstop⟩ := h
  rw [Span.text, hstop, hstart, ← htext, Text.slice_append]

theorem line_eq (h : s.Covers front chars) : s.line = front.count '\n' + 1 := by
  obtain ⟨⟨back, htext⟩, hstart, -⟩ := h
  have hbefore := Text.slice_append [] front (chars ++ back)
  rw [List.nil_append, ← List.append_assoc, htext, Text.byteLength_nil, Nat.zero_add] at hbefore
  rw [Span.line, Span.before, hstart, hbefore]

/-- A part of what a span covers has a span of its own. -/
theorem part {inner word rest : List Char} (h : s.Covers front (inner ++ word ++ rest)) :
    Covers ⟨s.input, s.start + Text.byteLength inner, s.start + Text.byteLength (inner ++ word)⟩
      (front ++ inner) word := by
  obtain ⟨⟨back, htext⟩, hstart, -⟩ := h
  refine ⟨⟨rest ++ back, by simp only [← htext, List.append_assoc]⟩, ?_, ?_⟩
  · exact (congrArg (· + _) hstart).trans (Text.byteLength_append front inner).symm
  · simp only [Text.byteLength_append, Nat.add_assoc]

end Span.Covers

/-! ## Tokens of a line -/

namespace Line

/-- The symbol is a run of characters of the line that are not blank, as long as can be, and its
origin is the place of that run. -/
def HasRun (l : Line) (word : Symbol) : Prop :=
  ∃ front run back, l.text.toList = front ++ run ++ back ∧ Text.IsRun front run back ∧
    word = ⟨String.ofList run, some ⟨l.input, l.start + Text.byteLength front,
      l.start + Text.byteLength (front ++ run)⟩⟩

variable {l : Line}

theorem subSpan_of_mem_wordsFrom {start : Nat} {word : List Char}
    (h : (start, word) ∈ Text.wordsFrom l.start l.text.toList) :
    l.subSpan ⟨l.input, start, word⟩ = ⟨l.input, start, start + Text.byteLength word⟩ := by
  obtain ⟨front, back, htext, rfl, -⟩ := Text.mem_wordsFrom_iff.mp h
  refine subSpan_of_le rfl (Nat.le_add_right _ _) ?_
  simp only [Piece.span, range, piece, htext, Text.byteLength_append]
  omega

/-- Every token is found where it stands. -/
theorem tokens_eq (l : Line) : l.tokens =
    (Text.wordsFrom l.start l.text.toList).map fun (start, word) =>
      ⟨String.ofList word, some ⟨l.input, start, start + Text.byteLength word⟩⟩ := by
  refine List.map_congr_left fun (start, word) hword => ?_
  exact congrArg (fun s => (⟨String.ofList word, some s⟩ : Symbol)) (subSpan_of_mem_wordsFrom hword)

theorem mem_tokens_iff {word : Symbol} : word ∈ l.tokens ↔ l.HasRun word := by
  simp only [tokens_eq, List.mem_map, Prod.exists, Text.mem_wordsFrom_iff]
  constructor
  · rintro ⟨start, run, ⟨front, back, htext, rfl, hrun⟩, rfl⟩
    exact ⟨front, run, back, htext, hrun, by rw [Text.byteLength_append, Nat.add_assoc]⟩
  · rintro ⟨front, run, back, htext, hrun, rfl⟩
    exact ⟨_, run, ⟨front, back, htext, rfl, hrun⟩, by rw [Text.byteLength_append, Nat.add_assoc]⟩

/-- A token ends before the next one starts. -/
theorem pairwise_tokens (l : Line) :
    l.tokens.Pairwise fun a b => a.span.stop < b.span.start := by
  rw [tokens_eq, List.pairwise_map]
  exact Text.pairwise_wordsFrom l.start l.text.toList

/-! ## Lines of an input -/

/-- The carriage return that was dropped from the end of the line, if there was one: it still stands
behind the line in the input. -/
def dropped (l : Line) : String :=
  if Span.text ⟨l.input, l.range.stop, l.range.stop + 1⟩ = "\r" then "\r" else ""

/-- The line as it stands between line feeds. -/
def whole (l : Line) : String := l.text ++ l.dropped

/-- The line is the piece that stands in the input between the characters in front of it and those
behind it, from one line feed to the next. -/
structure IsPiece (l : Line) (input : Input) (front piece back : List Char) : Prop where
  input_eq : l.input = input
  stands : input.text.toList = front ++ piece ++ back
  behind : ∀ c ∈ back.head?, c = '\n'
  notMem : '\n' ∉ piece
  number : l.number = front.count '\n' + 1
  start : l.start = Text.byteLength front
  text : l.text = String.ofList (Text.dropReturn piece)

namespace IsPiece

variable {input : Input} {front piece back : List Char}

theorem toList_text (h : l.IsPiece input front piece back) :
    l.text.toList = Text.dropReturn piece := by
  rw [h.text, String.toList_ofList]

theorem covers (h : l.IsPiece input front piece back) : l.range.Covers front l.text.toList := by
  refine ⟨?_, h.start, rfl⟩
  change _ <+: l.input.text.toList
  rw [h.toList_text, h.input_eq, h.stands, List.append_assoc, List.prefix_append_right_inj]
  rcases Text.dropReturn_cases piece with hdropped | ⟨hkept, -⟩
  · exact ⟨'\r' :: back, by rw [hdropped, Text.dropReturn_concat, List.append_assoc]; rfl⟩
  · exact ⟨back, by rw [← hkept]⟩

/-- What stands behind the text of the line tells whether a carriage return was dropped. -/
theorem dropped_cases (h : l.IsPiece input front piece back) :
    (piece = l.text.toList ++ ['\r'] ∧ l.dropped = "\r") ∨
      (piece = l.text.toList ∧ l.dropped = "" ∧ piece.getLast? ≠ some '\r') := by
  have hcovers := h.covers
  have hstop : l.range.stop = Text.byteLength (front ++ l.text.toList) := by
    rw [hcovers.stop_eq, hcovers.start_eq, Text.byteLength_append]
  rw [dropped, hstop, Span.text, h.toList_text, h.input_eq]
  rcases Text.dropReturn_cases piece with hdropped | ⟨hkept, hlast⟩
  · refine .inl ⟨hdropped, if_pos ?_⟩
    have hslice := Text.slice_append (front ++ Text.dropReturn piece) ['\r'] back
    rw [List.append_assoc front, ← hdropped, ← h.stands] at hslice
    exact congrArg String.ofList hslice
  · refine .inr ⟨hkept, if_neg fun hslice => ?_, hlast⟩
    rw [← hkept, h.stands] at hslice
    have hreturn := congrArg String.toList hslice
    rw [String.toList_ofList] at hreturn
    have hhead := Text.head?_slice (front ++ piece) back
    rw [hreturn] at hhead
    exact absurd (h.behind '\r' hhead.symm) (by decide)

theorem whole_eq (h : l.IsPiece input front piece back) : l.whole = String.ofList piece := by
  rw [whole]
  rcases h.dropped_cases with ⟨hpiece, hdropped⟩ | ⟨hpiece, hdropped, -⟩
  · rw [hpiece, hdropped, String.ofList_append, String.ofList_toList]
  · rw [hpiece, hdropped, String.append_empty, String.ofList_toList]

/-- A token of the line knows the line: its span lies in it, reads as the token and starts on it. -/
theorem exists_span (h : l.IsPiece input front piece back) {word : Symbol} (hword : l.HasRun word) :
    ∃ s, word.origin = some s ∧ s.input = input ∧ l.range.start ≤ s.start ∧
      s.stop ≤ l.range.stop ∧ s.text = word.name ∧ s.line = l.number := by
  obtain ⟨inner, run, rest, htext, -, rfl⟩ := hword
  have hcovers := h.covers
  rw [htext] at hcovers
  have hpart := hcovers.part
  have hinner : '\n' ∉ inner := fun hmem => by
    have hline : '\n' ∈ Text.dropReturn piece := by
      rw [← h.toList_text, htext]
      simp [hmem]
    exact h.notMem (Text.dropReturn_subset piece hline)
  refine ⟨_, rfl, h.input_eq, Nat.le_add_right _ _, ?_, hpart.text_eq, ?_⟩
  · change _ ≤ l.start + Text.byteLength l.text.toList
    rw [htext, Text.byteLength_append (inner ++ run)]
    exact Nat.add_le_add_left (Nat.le_add_right _ _) _
  · refine hpart.line_eq.trans ?_
    rw [List.count_append, List.count_eq_zero_of_not_mem hinner, h.number, Nat.add_zero]

end IsPiece

/-- Each line is its piece of the input, when the pieces stand behind those characters. -/
theorem forall₂_isPiece {input : Input} (front : List Char) {pieces : List (List Char)}
    (hne : pieces ≠ []) (hinput : input.text.toList = front ++ Text.join '\n' pieces)
    (hbreak : ∀ piece ∈ pieces, '\n' ∉ piece) :
    List.Forall₂ (fun l piece => ∃ front back, IsPiece l input front piece back)
      (ofPieces input (front.count '\n' + 1) (Text.byteLength front) pieces) pieces := by
  induction pieces generalizing front with
  | nil => exact absurd rfl hne
  | cons piece more ih =>
    obtain ⟨hpiece, hmore⟩ := List.forall_mem_cons.mp hbreak
    cases more with
    | nil =>
      refine .cons ⟨front, [], rfl, ?_, by simp, hpiece, rfl, rfl, rfl⟩ .nil
      rw [hinput, List.append_nil, Text.join]
    | cons next more =>
      have hback : input.text.toList =
          front ++ piece ++ '\n' :: Text.join '\n' (next :: more) := by
        rw [hinput, Text.join, List.append_assoc]
      have hrest := ih (front ++ piece ++ ['\n']) (List.cons_ne_nil _ _)
        (by rw [hback, List.append_assoc _ ['\n']]; rfl) hmore
      have hnumber : (front ++ piece ++ ['\n']).count '\n' = front.count '\n' + 1 := by
        rw [List.count_append, List.count_append, List.count_eq_zero_of_not_mem hpiece]
        rfl
      rw [hnumber, Text.byteLength_append, Text.byteLength_append] at hrest
      exact .cons ⟨front, _, rfl, hback, by simp, hpiece, rfl, rfl, rfl⟩ hrest

theorem map_number_ofPieces (input : Input) (number start : Nat) (pieces : List (List Char)) :
    (ofPieces input number start pieces).map Line.number = List.range' number pieces.length := by
  induction pieces generalizing number start with
  | nil => rfl
  | cons piece more ih => rw [ofPieces, List.map_cons, ih, List.length_cons, List.range'_succ]

end Line

namespace Input

variable {input : Input}

theorem forall₂_lines (input : Input) :
    List.Forall₂ (fun (l : Line) piece => ∃ front back, l.IsPiece input front piece back)
      input.lines (Text.split '\n' input.text.toList) :=
  Line.forall₂_isPiece [] (Text.split_ne_nil _ _) (Text.join_split _ _).symm
    fun _ => Text.notMem_of_mem_split

theorem intercalate_lines (input : Input) :
    "\n".intercalate (input.lines.map Line.whole) = input.text := by
  have hwhole : input.lines.map Line.whole =
      (Text.split '\n' input.text.toList).map String.ofList := by
    rw [← List.forall₂_eq_eq_eq, List.forall₂_map_left_iff, List.forall₂_map_right_iff]
    exact input.forall₂_lines.imp fun l piece ⟨_, _, h⟩ => h.whole_eq
  rw [hwhole, ← String.toList_inj, Text.toList_intercalate_ofList, Text.join_split]

theorem exists_isPiece {l : Line} (h : l ∈ input.lines) :
    ∃ front piece back, l.IsPiece input front piece back := by
  obtain ⟨k, hk, rfl⟩ := List.getElem_of_mem h
  have hlength := input.forall₂_lines.length_eq
  obtain ⟨front, back, hpiece⟩ := input.forall₂_lines.get hk (hlength ▸ hk)
  exact ⟨front, _, back, hpiece⟩

theorem number_of_getElem? {k : Nat} {l : Line} (h : input.lines[k]? = some l) :
    l.number = k + 1 := by
  have hnumber : (input.lines.map Line.number)[k]? = some l.number := by
    rw [List.getElem?_map, h]
    rfl
  rw [lines, Line.map_number_ofPieces] at hnumber
  obtain ⟨hk, hrange⟩ := List.getElem?_eq_some_iff.mp hnumber
  rw [List.getElem_range'] at hrange
  omega

/-- The line stands at place `k` of an input, and its tokens stand in it. -/
structure HasLineAt (input : Input) (k : Nat) (l : Line) : Prop where
  number : l.number = k + 1
  noLineFeed : '\n' ∉ l.text.toList
  /-- If no carriage return was dropped, there was none to drop. -/
  noReturn : l.dropped = "" → l.text.toList.getLast? ≠ some '\r'
  input_eq : l.range.input = input
  /-- The span of the line cuts no character. -/
  covers : ∃ front, l.range.Covers front l.text.toList
  text_eq : l.range.text = l.text
  /-- The tokens are the runs of characters that are not blank. -/
  tokens : ∀ word : Symbol, word ∈ l.tokens ↔ l.HasRun word
  /-- The origin of a token lies in the line, reads as the token and starts on the line. -/
  origin : ∀ word ∈ l.tokens, ∃ s, word.origin = some s ∧ s.input = input ∧
    l.range.start ≤ s.start ∧ s.stop ≤ l.range.stop ∧ s.text = word.name ∧ s.line = l.number
  /-- A token ends before the next one starts. -/
  ordered : l.tokens.Pairwise fun a b => a.span.stop < b.span.start

/-- Lines and tokens point at their text.  The lines with the carriage returns that were dropped
from them, joined by line feeds, are the text of the input, and each stands at its place with its
tokens.  There is no hypothesis on the text, which may hold characters of several bytes and carriage
returns anywhere. -/
theorem spans_of_lines (input : Input) :
    "\n".intercalate (input.lines.map Line.whole) = input.text ∧
      ∀ (k : Nat) (l : Line), input.lines[k]? = some l → input.HasLineAt k l := by
  refine ⟨input.intercalate_lines, fun k l hl => ?_⟩
  have hmem : l ∈ input.lines := List.mem_of_getElem? hl
  obtain ⟨front, piece, back, hpiece⟩ := exists_isPiece hmem
  exact
    { number := number_of_getElem? hl
      noLineFeed := notMem_text hmem
      noReturn := by
        rcases hpiece.dropped_cases with ⟨-, hdropped⟩ | ⟨hkept, -, hlast⟩
        · intro hnone
          rw [hnone] at hdropped
          exact absurd hdropped (by decide)
        · exact fun _ => hkept ▸ hlast
      input_eq := hpiece.input_eq
      covers := ⟨front, hpiece.covers⟩
      text_eq := by rw [hpiece.covers.text_eq, String.ofList_toList]
      tokens := fun _ => Line.mem_tokens_iff
      origin := fun word hword => hpiece.exists_span (Line.mem_tokens_iff.mp hword)
      ordered := l.pairwise_tokens }

/-- Letters of several bytes, two carriage returns in a row, a wide space and no last line feed. -/
def quay : Input := .ofText "fähre 1\r\n\r\r\n\u3000lädt  ü x"

/-- The last line of the quay. -/
def quayLine : Line := ⟨quay, 3, 13, "\u3000lädt  ü x"⟩

theorem spans_of_lines_quay :
    "\n".intercalate (quay.lines.map Line.whole) = quay.text ∧ quay.lines[2]? = some quayLine ∧
      quayLine.number = 3 ∧ quayLine.range.text = quayLine.text ∧
      quayLine.tokens =
        [⟨"lädt", some ⟨quay, 16, 21⟩⟩, ⟨"ü", some ⟨quay, 23, 25⟩⟩, ⟨"x", some ⟨quay, 26, 27⟩⟩] ∧
      (∀ word ∈ quayLine.tokens, ∃ s, word.origin = some s ∧ s.text = word.name ∧ s.line = 3) := by
  obtain ⟨hjoin, hlines⟩ := spans_of_lines quay
  have hlast : quay.lines[2]? = some quayLine := rfl
  have hquay := hlines 2 quayLine hlast
  refine ⟨hjoin, hlast, hquay.number, hquay.text_eq, by decide, fun word hword => ?_⟩
  obtain ⟨s, horigin, -, -, -, hname, hline⟩ := hquay.origin word hword
  exact ⟨s, horigin, hname, hline⟩

end Input

end PlanConstraints

import PlanConstraints.Proofs.SExpr.Spelling

set_option autoImplicit false

/-!
# Reading what was written

The reader gives back the tree that was written, whatever white space and comments stand between its
tokens; what it accepts is a writing of the tree that it gives back; and the text that a part of the
result covers is read as that part (`SExpr.ofInput_faithful`).

`Denotes` says which tokens expressions stand for, with the bytes that they cover.  It is the
reader's specification: `ofInput_eq_ok_iff`.
-/

namespace PlanConstraints

namespace SExpr

/-! ## Trees -/

/-- Nested lists of names. -/
inductive Tree where
  | atom (name : String)
  | list (items : List Tree)

/-- What a token says in lower case. -/
def Token.Lexeme.lower : Token.Lexeme → Token.Lexeme
  | opening => opening
  | closing => closing
  | atom text => atom (Text.lowerCase text)

mutual

/-- The tree written with parentheses. -/
def Tree.lexemes : Tree → List Token.Lexeme
  | .atom name => [.atom name]
  | .list items => .opening :: (lexemesOf items ++ [.closing])

/-- The trees written one after the other. -/
def lexemesOf : List Tree → List Token.Lexeme
  | [] => []
  | t :: ts => t.lexemes ++ lexemesOf ts

end

mutual

/-- The names in a tree. -/
def Tree.names : Tree → List String
  | .atom name => [name]
  | .list items => namesOf items

def namesOf : List Tree → List String
  | [] => []
  | t :: ts => t.names ++ namesOf ts

end

mutual

/-- The expression without the places where it was written. -/
def tree : SExpr → Tree
  | .atom name => .atom name.name
  | .list items _ => .list (trees items)

def trees : List SExpr → List Tree
  | [] => []
  | e :: es => e.tree :: trees es

end

theorem trees_eq_map (es : List SExpr) : trees es = es.map tree := by
  induction es with
  | nil => rfl
  | cons e es ih => rw [trees, ih, List.map_cons]

theorem tree_eq_atom_iff {e : SExpr} {name : String} :
    e.tree = .atom name ↔ ∃ s : Symbol, e = .atom s ∧ s.name = name := by
  cases e <;> simp [tree]

theorem tree_eq_list_iff {e : SExpr} {ts : List Tree} :
    e.tree = .list ts ↔ ∃ items span, e = .list items span ∧ items.map tree = ts := by
  cases e <;> simp [tree, trees_eq_map]

/-- The expression is another one or stands in it, at whatever depth. -/
inductive IsPart : SExpr → SExpr → Prop where
  | refl (e : SExpr) : IsPart e e
  | item {part e : SExpr} {items : List SExpr} {span : Span} (he : e ∈ items)
      (h : IsPart part e) : IsPart part (.list items span)

/-! ## Expressions and their tokens -/

/-- The tokens stand for the expressions, one after the other. -/
inductive Denotes (input : Input) : List SExpr → List Token → Prop where
  | nil : Denotes input [] []
  | atom {pos : Nat} {text : List Char} {es : List SExpr} {toks : List Token}
      (h : Denotes input es toks) :
      Denotes input (ofAtom input pos text :: es) (.atom pos text :: toks)
  | list {start stop : Nat} {items es : List SExpr} {inside toks : List Token}
      (hitems : Denotes input items inside) (h : Denotes input es toks) :
      Denotes input (.list items ⟨input, start, stop + 1⟩ :: es)
        (.opening start :: (inside ++ .closing stop :: toks))

section

variable {input : Input}

theorem Denotes.append {es es' : List SExpr} {toks toks' : List Token} (h : Denotes input es toks)
    (h' : Denotes input es' toks') : Denotes input (es ++ es') (toks ++ toks') := by
  induction h with
  | nil => exact h'
  | atom _ ih => exact .atom ih
  | list hitems _ _ ih =>
    rw [List.cons_append, List.cons_append, List.append_assoc, List.cons_append]
    exact .list hitems ih

/-- An atom is denoted by its token. -/
theorem denotes_ofAtom (pos : Nat) (text : List Char) :
    Denotes input [ofAtom input pos text] [.atom pos text] := .atom .nil

/-- A list is denoted by the tokens of its items between parentheses. -/
theorem Denotes.inList {items : List SExpr} {inside : List Token} (h : Denotes input items inside)
    (start stop : Nat) :
    Denotes input [.list items ⟨input, start, stop + 1⟩]
      (.opening start :: (inside ++ [.closing stop])) := .list h .nil

/-- The tokens are those of the tree, in lower case. -/
theorem Denotes.lexemes_eq {es : List SExpr} {toks : List Token} (h : Denotes input es toks) :
    toks.map (fun tok => tok.lexeme.lower) = lexemesOf (trees es) := by
  induction h with
  | nil => rfl
  | atom _ ih =>
    rw [List.map_cons, ih]
    rfl
  | list _ _ ihitems ih =>
    rw [List.map_cons, List.map_append, List.map_cons, ihitems, ih, trees, lexemesOf, tree,
      Tree.lexemes, List.cons_append, List.append_assoc]
    rfl

mutual

/-- Tokens that are those of a tree in lower case denote an expression with this tree. -/
theorem exists_denotes : ∀ {t : Tree} {toks : List Token},
    toks.map (fun tok => tok.lexeme.lower) = t.lexemes →
    ∃ e, e.tree = t ∧ Denotes input [e] toks
  | .atom name, toks, h => by
    obtain ⟨tok, rfl, hname⟩ := List.map_eq_singleton_iff.mp h
    cases tok with
    | opening | closing => cases hname
    | atom pos text =>
      cases hname
      exact ⟨_, rfl, denotes_ofAtom pos text⟩
  | .list items, toks, h => by
    obtain ⟨first, toks, rfl, hfirst, h⟩ := List.map_eq_cons_iff.mp h
    obtain ⟨inside, lasts, rfl, hinside, h⟩ := List.map_eq_append_iff.mp h
    obtain ⟨last, rfl, hlast⟩ := List.map_eq_singleton_iff.mp h
    obtain ⟨es, hes, hdenotes⟩ := exists_denotesAll hinside
    cases first with
    | closing | atom => cases hfirst
    | opening start =>
      cases last with
      | opening | atom => cases hlast
      | closing stop =>
        refine ⟨.list es _, ?_, hdenotes.inList start stop⟩
        rw [tree, hes]

/-- Tokens that are those of trees in lower case denote expressions with these trees. -/
theorem exists_denotesAll : ∀ {ts : List Tree} {toks : List Token},
    toks.map (fun tok => tok.lexeme.lower) = lexemesOf ts →
    ∃ es, trees es = ts ∧ Denotes input es toks
  | [], toks, h => by
    obtain rfl := List.map_eq_nil_iff.mp h
    exact ⟨[], rfl, .nil⟩
  | t :: ts, toks, h => by
    obtain ⟨front, back, rfl, hfront, hback⟩ := List.map_eq_append_iff.mp h
    obtain ⟨e, rfl, he⟩ := exists_denotes hfront
    obtain ⟨es, rfl, hes⟩ := exists_denotesAll hback
    exact ⟨e :: es, rfl, he.append hes⟩

end

/-! ## The reader -/

/-- Inside a list, the tokens of expressions add these to its items. -/
theorem Denotes.readFrom_eq {es : List SExpr} {toks : List Token} (h : Denotes input es toks)
    (inner : OpenList) (outer : List OpenList) (rest : List Token) :
    readFrom input (inner :: outer) (toks ++ rest) =
      readFrom input ({ inner with items := es.reverse ++ inner.items } :: outer) rest := by
  induction h generalizing inner outer rest with
  | nil => rfl
  | atom _ ih =>
    rw [List.cons_append, readFrom, ih, List.reverse_cons, List.append_assoc]
    rfl
  | @list start stop items es inside toks _ _ ihitems ih =>
    rw [List.cons_append, List.append_assoc, List.cons_append, readFrom, ihitems, readFrom, ih,
      List.append_nil, List.reverse_reverse, List.reverse_cons, List.append_assoc]
    rfl

/-- Outside any list, the tokens of an expression are read as this. -/
theorem Denotes.readFrom_nil_eq {e : SExpr} {toks : List Token} (h : Denotes input [e] toks)
    (rest : List Token) : readFrom input [] (toks ++ rest) = .ok (e, rest) := by
  cases h with
  | atom h =>
    cases h
    rfl
  | list hitems h =>
    cases h
    rw [List.cons_append, List.append_assoc, readFrom, hitems.readFrom_eq, List.append_nil,
      List.singleton_append, readFrom, List.reverse_reverse]

/-- The tokens in front of the reader: those that open its lists, each with those of the items that
the list has so far. -/
inductive Opened (input : Input) : List OpenList → List Token → Prop where
  | nil : Opened input [] []
  | cons {stack : List OpenList} {before inside : List Token} {items : List SExpr} (start : Nat)
      (h : Opened input stack before) (hitems : Denotes input items inside) :
      Opened input (⟨start, items.reverse⟩ :: stack) (before ++ .opening start :: inside)

/-- One more item of the innermost list. -/
theorem Opened.push {inner : OpenList} {outer : List OpenList} {before toks : List Token}
    {e : SExpr} (h : Opened input (inner :: outer) before) (he : Denotes input [e] toks) :
    Opened input ({ inner with items := e :: inner.items } :: outer) (before ++ toks) := by
  cases h with
  | cons start h hitems =>
    rw [List.append_assoc, List.cons_append]
    simpa using h.cons start (hitems.append he)

/-- The tokens that the reader has passed when it ends denote what it gives. -/
theorem Opened.denotes {stack : List OpenList} {before toks rest : List Token} {e : SExpr}
    (h : Opened input stack before) (hread : readFrom input stack toks = .ok (e, rest)) :
    ∃ used, toks = used ++ rest ∧ Denotes input [e] (before ++ used) := by
  induction toks generalizing stack before with
  | nil => cases stack <;> cases hread
  | cons tok toks ih =>
    -- The reader goes on behind the token, which joins those in front of it.
    have next {stack' : List OpenList} (h' : Opened input stack' (before ++ [tok]))
        (hread' : readFrom input stack' toks = .ok (e, rest)) :
        ∃ used, tok :: toks = used ++ rest ∧ Denotes input [e] (before ++ used) := by
      obtain ⟨used, rfl, hused⟩ := ih h' hread'
      exact ⟨tok :: used, rfl, by rwa [List.append_assoc] at hused⟩
    cases tok with
    | opening pos => exact next (h.cons pos .nil) hread
    | atom pos text =>
      cases stack with
      | nil =>
        cases h
        cases hread
        exact ⟨[.atom pos text], rfl, denotes_ofAtom pos text⟩
      | cons inner outer => exact next (h.push (denotes_ofAtom pos text)) hread
    | closing pos =>
      cases h with
      | nil => cases hread
      | @cons stack before inside items start h hitems =>
        have hlist := hitems.inList start pos
        cases stack with
        | nil =>
          cases h
          rw [readFrom, List.reverse_reverse] at hread
          cases hread
          exact ⟨[.closing pos], rfl, by simpa using hlist⟩
        | cons inner outer =>
          rw [readFrom, List.reverse_reverse] at hread
          refine next ?_ hread
          rw [List.append_assoc, List.cons_append]
          exact h.push hlist

/-- The reader accepts the texts whose tokens denote an expression, which it gives. -/
theorem ofInput_eq_ok_iff {e : SExpr} :
    ofInput input = .ok e ↔ Denotes input [e] (tokens input.text.toList) := by
  constructor
  · intro h
    unfold ofInput at h
    split at h
    · cases h
    · next hread =>
      cases h
      obtain ⟨used, hused, hdenotes⟩ := Opened.nil.denotes hread
      rw [List.append_nil] at hused
      rwa [hused]
    · cases h
  · intro h
    have hread := h.readFrom_nil_eq []
    rw [List.append_nil] at hread
    rw [ofInput, hread]

/-! ## Parts -/

/-- The tokens of an expression are among those of the expressions it is one of. -/
theorem Denotes.exists_of_mem {es : List SExpr} {toks : List Token} (h : Denotes input es toks)
    {e : SExpr} (he : e ∈ es) :
    ∃ front mid back, toks = front ++ mid ++ back ∧ Denotes input [e] mid := by
  induction h with
  | nil => cases he
  | @atom pos text es toks h ih =>
    rw [List.mem_cons] at he
    obtain rfl | he := he
    · exact ⟨[], [_], toks, rfl, denotes_ofAtom pos text⟩
    · obtain ⟨front, mid, back, rfl, hmid⟩ := ih he
      exact ⟨_ :: front, mid, back, rfl, hmid⟩
  | @list start stop items es inside toks hitems h _ ih =>
    rw [List.mem_cons] at he
    obtain rfl | he := he
    · exact ⟨[], _, toks, by simp, hitems.inList start stop⟩
    · obtain ⟨front, mid, back, rfl, hmid⟩ := ih he
      exact ⟨.opening start :: (inside ++ .closing stop :: front), mid, back, by simp, hmid⟩

/-- The tokens of a part are among those of the expression. -/
theorem Denotes.exists_of_isPart {part e : SExpr} (hpart : IsPart part e) {toks : List Token}
    (h : Denotes input [e] toks) :
    ∃ front mid back, toks = front ++ mid ++ back ∧ Denotes input [part] mid := by
  induction hpart generalizing toks with
  | refl => exact ⟨[], toks, [], by simp, h⟩
  | item he _ ih =>
    cases h with
    | @list start stop _ _ _ _ hitems h =>
      cases h
      obtain ⟨front, mid, back, rfl, hmid⟩ := hitems.exists_of_mem he
      obtain ⟨front', mid', back', rfl, hmid'⟩ := ih hmid
      exact ⟨.opening start :: (front ++ front'), mid', back' ++ (back ++ [.closing stop]),
        by simp, hmid'⟩

/-- An expression covers the text from its first token to its last one. -/
theorem Denotes.span_eq {e : SExpr} {toks : List Token} (h : Denotes input [e] toks) :
    ∃ first last, toks.head? = some first ∧ toks.getLast? = some last ∧
      e.span = ⟨input, first.start, last.stop⟩ := by
  cases h with
  | @atom pos text _ _ h =>
    cases h
    exact ⟨_, _, rfl, rfl, rfl⟩
  | @list start stop items _ inside _ hitems h =>
    cases h
    refine ⟨.opening start, .closing stop, rfl, ?_, rfl⟩
    rw [← List.cons_append, List.getLast?_concat]

end

/-! ## Writing and reading -/

namespace Tree

/-- The text is the tree written with parentheses, with white space and comments between the tokens.
-/
def IsWrittenAs (t : Tree) (text : String) : Prop :=
  ∃ toks, Spells 0 text.toList toks ∧ toks.map Token.lexeme = t.lexemes

/-- The text is the tree written with parentheses in any letter case, with white space and comments
between the tokens. -/
def IsReadFrom (t : Tree) (text : String) : Prop :=
  ∃ toks, Spells 0 text.toList toks ∧ toks.map (fun tok => tok.lexeme.lower) = t.lexemes

mutual

/-- A tree of names in lower case is written in lower case. -/
theorem map_lower_lexemes : ∀ {t : Tree}, (∀ name ∈ t.names, Text.lowerCase name = name) →
    t.lexemes.map Token.Lexeme.lower = t.lexemes
  | .atom name, h => by
    have hname := h name (List.mem_singleton_self name)
    rw [lexemes, List.map_singleton, Token.Lexeme.lower, hname]
  | .list items, h => by
    rw [lexemes, List.map_cons, List.map_append, map_lower_lexemesOf h]
    rfl

theorem map_lower_lexemesOf : ∀ {ts : List Tree},
    (∀ name ∈ namesOf ts, Text.lowerCase name = name) →
    (lexemesOf ts).map Token.Lexeme.lower = lexemesOf ts
  | [], _ => rfl
  | t :: ts, h => by
    rw [namesOf, List.forall_mem_append] at h
    rw [lexemesOf, List.map_append, map_lower_lexemes h.1, map_lower_lexemesOf h.2]

end

/-- A name that can be written: it is not empty and without white space, parentheses and
semicolons. -/
def IsWord (name : String) : Prop := name ≠ "" ∧ ∀ c ∈ name.toList, isAtomChar c = true

mutual

theorem atom_mem_lexemes_iff {name : String} : ∀ {t : Tree},
    Token.Lexeme.atom name ∈ t.lexemes ↔ name ∈ t.names
  | .atom _ => by simp [lexemes, names]
  | .list items => by simp [lexemes, names, atom_mem_lexemesOf_iff]

theorem atom_mem_lexemesOf_iff {name : String} : ∀ {ts : List Tree},
    Token.Lexeme.atom name ∈ lexemesOf ts ↔ name ∈ namesOf ts
  | [] => by simp [lexemesOf, namesOf]
  | t :: ts => by
    rw [lexemesOf, namesOf, List.mem_append, List.mem_append, atom_mem_lexemes_iff,
      atom_mem_lexemesOf_iff]

end

/-- What is spelled is made of words. -/
theorem isWord_of_spells {pos : Nat} {cs : List Char} {toks : List Token} (h : Spells pos cs toks)
    {name : String} (hname : Token.Lexeme.atom name ∈ toks.map Token.lexeme) : IsWord name := by
  induction h with
  | nil | lastComment => cases hname
  | blank _ _ ih | comment _ _ ih => exact ih hname
  | opening _ ih | closing _ ih =>
    rw [List.map_cons, List.mem_cons] at hname
    exact ih (hname.resolve_left nofun)
  | atom hne htext _ _ ih =>
    rw [List.map_cons, List.mem_cons] at hname
    obtain hname | hname := hname
    · cases hname
      exact ⟨by simpa using hne, by simpa using htext⟩
    · exact ih hname

/-- Words and parentheses are spelled, with a space behind every word. -/
theorem exists_spells_lexemes {lexemes : List Token.Lexeme}
    (h : ∀ name, Token.Lexeme.atom name ∈ lexemes → IsWord name) (pos : Nat) :
    ∃ cs toks, Spells pos cs toks ∧ toks.map Token.lexeme = lexemes := by
  induction lexemes generalizing pos with
  | nil => exact ⟨[], [], .nil pos, rfl⟩
  | cons lexeme lexemes ih =>
    have hrest : ∀ name, Token.Lexeme.atom name ∈ lexemes → IsWord name := fun name hname =>
      h name (List.mem_cons_of_mem _ hname)
    cases lexeme with
    | opening =>
      obtain ⟨cs, toks, hspells, rfl⟩ := ih hrest (pos + 1)
      exact ⟨_, _, .opening hspells, rfl⟩
    | closing =>
      obtain ⟨cs, toks, hspells, rfl⟩ := ih hrest (pos + 1)
      exact ⟨_, _, .closing hspells, rfl⟩
    | atom name =>
      obtain ⟨hne, hchars⟩ := h name List.mem_cons_self
      obtain ⟨cs, toks, hspells, rfl⟩ :=
        ih hrest (pos + Text.byteLength name.toList + (' ').utf8Size)
      have hspace : ∀ c, (' ' :: cs).head? = some c → isAtomChar c = false := by
        intro c hc
        cases hc
        decide
      refine ⟨_, _, .atom (by simpa using hne) hchars hspace (.blank (by decide) hspells), ?_⟩
      rw [List.map_cons, Token.lexeme, String.ofList_toList]

/-- The trees that can be written are those of words. -/
theorem exists_isWrittenAs_iff {t : Tree} :
    (∃ text, t.IsWrittenAs text) ↔ ∀ name ∈ t.names, IsWord name := by
  constructor
  · rintro ⟨text, toks, hspells, hlexemes⟩ name hname
    rw [← atom_mem_lexemes_iff, ← hlexemes] at hname
    exact isWord_of_spells hspells hname
  · intro h
    obtain ⟨cs, toks, hspells, hlexemes⟩ :=
      exists_spells_lexemes (fun name hname => h name (atom_mem_lexemes_iff.mp hname)) 0
    exact ⟨String.ofList cs, toks, by rwa [String.toList_ofList], hlexemes⟩

theorem IsWrittenAs.isReadFrom {t : Tree} {text : String} (h : t.IsWrittenAs text)
    (hnames : ∀ name ∈ t.names, Text.lowerCase name = name) : t.IsReadFrom text := by
  obtain ⟨toks, hspells, hlexemes⟩ := h
  refine ⟨toks, hspells, ?_⟩
  rw [← map_lower_lexemes hnames, ← hlexemes, List.map_map]
  rfl

end Tree

/-- A text is accepted if some tree is written in it, which then is what is read. -/
theorem exists_ofInput_iff {t : Tree} {input : Input} :
    (∃ e, ofInput input = .ok e ∧ e.tree = t) ↔ t.IsReadFrom input.text := by
  simp only [ofInput_eq_ok_iff, Tree.IsReadFrom, ← tokensFrom_eq_iff, exists_eq_left']
  constructor
  · rintro ⟨e, hdenotes, rfl⟩
    simpa [trees, lexemesOf, tokens] using hdenotes.lexemes_eq
  · intro h
    obtain ⟨e, he, hdenotes⟩ : ∃ e : SExpr, e.tree = t ∧
        Denotes input [e] (tokens input.text.toList) := exists_denotes h
    exact ⟨e, hdenotes, he⟩

/-- The text that a part covers is read as that part. -/
theorem exists_ofInput_part {input : Input} {part e : SExpr} (h : ofInput input = .ok e)
    (hpart : IsPart part e) (source : Option String) :
    ∃ e', ofInput ⟨part.span.text, source⟩ = .ok e' ∧ e'.tree = part.tree := by
  rw [exists_ofInput_iff]
  obtain ⟨front, mid, back, htokens, hmid⟩ :=
    (ofInput_eq_ok_iff.mp h).exists_of_isPart hpart
  obtain ⟨first, last, hfirst, hlast, hspan⟩ := hmid.span_eq
  have hspells := tokensFrom_eq_iff.mp htokens
  obtain ⟨toks, htoks, hlexemes⟩ := hspells.exists_slice hfirst hlast
  refine ⟨toks, by simpa [Span.text, hspan] using htoks, ?_⟩
  have hparts := hmid.lexemes_eq
  simp only [trees, lexemesOf, List.append_nil] at hparts
  have hlower := congrArg (List.map Token.Lexeme.lower) hlexemes
  rw [List.map_map, List.map_map] at hlower
  exact hlower.trans hparts

/-- Reading gives back the tree that was written.  What it accepts is a writing of the tree that it
gives back, and so is, for every part of the result, the text that this covers.

Names are read in lower case, so that a tree comes back if its names are in lower case; nothing is
asked of the white space and the comments around them.  The second part has no hypothesis but that
the text was accepted. -/
theorem ofInput_faithful :
    (∀ (t : Tree) (input : Input), t.IsWrittenAs input.text →
      (∀ name ∈ t.names, Text.lowerCase name = name) →
      ∃ e, ofInput input = .ok e ∧ e.tree = t) ∧
    ∀ (input : Input) (e : SExpr), ofInput input = .ok e →
      e.tree.IsReadFrom input.text ∧
      ∀ part, IsPart part e → ∀ source, ∃ e',
        ofInput ⟨part.span.text, source⟩ = .ok e' ∧ e'.tree = part.tree := by
  constructor
  · intro t input hwritten hnames
    exact exists_ofInput_iff.mpr (hwritten.isReadFrom hnames)
  · intro input e h
    exact ⟨exists_ofInput_iff.mp ⟨e, h, rfl⟩, fun part hpart => exists_ofInput_part h hpart⟩

/-- A list in a list, behind a comment and around one. -/
def noted : Tree := .list [.atom "a", .list [.atom "bö"]]

def notedInput : Input := .ofText "; é\n(a;c\n(bö) )"

theorem ofInput_faithful_noted :
    ∃ e, ofInput notedInput = .ok e ∧ e.tree = noted ∧ e.tree.IsReadFrom notedInput.text ∧
      ∀ part, IsPart part e → ∀ source, ∃ e',
        ofInput ⟨part.span.text, source⟩ = .ok e' ∧ e'.tree = part.tree := by
  obtain ⟨hwriting, hreading⟩ := ofInput_faithful
  have hwritten : noted.IsWrittenAs notedInput.text :=
    ⟨tokens notedInput.text.toList, tokensFrom_eq_iff.mp rfl, by decide +kernel⟩
  obtain ⟨e, he, htree⟩ := hwriting noted notedInput hwritten (by decide +kernel)
  exact ⟨e, he, htree, hreading notedInput e he⟩

end SExpr

end PlanConstraints

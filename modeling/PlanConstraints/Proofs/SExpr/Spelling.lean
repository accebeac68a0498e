import Mathlib.Data.List.TakeWhile
import PlanConstraints.Proofs.Text.Spans
import PlanConstraints.SExpr.Basic

set_option autoImplicit false

/-!
# Spelling tokens

How tokens stand in a text: with white space and comments between them, and each at its byte
(`Spells`).  The scan of a text finds the tokens that the text spells, and no others
(`tokensFrom_eq_iff`).  Consecutive tokens are spelled by a part of the text, from the first byte of
the first of them to the last byte of the last one (`Spells.exists_slice`).
-/

namespace PlanConstraints

namespace SExpr

/-! ## Spelling -/

/-- The character may stand in an atom. -/
def isAtomChar (c : Char) : Bool := c ≠ ';' && c ≠ '(' && c ≠ ')' && !Text.isBlank c

/-- The characters, the first of which stands at byte `pos`, spell the tokens.  Between tokens there
may be white space and comments, each from a semicolon to the end of its line; an atom goes on as
long as it can. -/
inductive Spells : Nat → List Char → List Token → Prop where
  | nil (pos : Nat) : Spells pos [] []
  | blank {pos : Nat} {c : Char} {cs : List Char} {toks : List Token}
      (hc : Text.isBlank c = true) (h : Spells (pos + c.utf8Size) cs toks) :
      Spells pos (c :: cs) toks
  | comment {pos : Nat} {body cs : List Char} {toks : List Token} (hbody : '\n' ∉ body)
      (h : Spells (pos + Text.byteLength (';' :: body ++ ['\n'])) cs toks) :
      Spells pos (';' :: body ++ ['\n'] ++ cs) toks
  | lastComment {pos : Nat} {body : List Char} (hbody : '\n' ∉ body) : Spells pos (';' :: body) []
  | opening {pos : Nat} {cs : List Char} {toks : List Token} (h : Spells (pos + 1) cs toks) :
      Spells pos ('(' :: cs) (.opening pos :: toks)
  | closing {pos : Nat} {cs : List Char} {toks : List Token} (h : Spells (pos + 1) cs toks) :
      Spells pos (')' :: cs) (.closing pos :: toks)
  | atom {pos : Nat} {text cs : List Char} {toks : List Token} (hne : text ≠ [])
      (htext : ∀ c ∈ text, isAtomChar c = true)
      (hcs : ∀ c, cs.head? = some c → isAtomChar c = false)
      (h : Spells (pos + Text.byteLength text) cs toks) :
      Spells pos (text ++ cs) (.atom pos text :: toks)

/-! ## The scan -/

theorem tokensFrom_semicolon (pos : Nat) (cs : List Char) :
    tokensFrom .between pos (';' :: cs) = tokensFrom .inComment (pos + ';'.utf8Size) cs := rfl

/-- A comment lasts to the end of its line. -/
theorem tokensFrom_inComment {body : List Char} (hbody : '\n' ∉ body) (pos : Nat) (cs : List Char) :
    tokensFrom .inComment pos (body ++ ['\n'] ++ cs) =
      tokensFrom .between (pos + Text.byteLength (body ++ ['\n'])) cs := by
  induction body generalizing pos with
  | nil => simp [tokensFrom]
  | cons c body ih =>
    rw [List.mem_cons, not_or] at hbody
    simp only [List.cons_append, tokensFrom, if_neg (Ne.symm hbody.1), Text.byteLength_cons,
      ← Nat.add_assoc]
    exact ih hbody.2 _

/-- The last comment may end with the text. -/
theorem tokensFrom_lastComment {body : List Char} (hbody : '\n' ∉ body) (pos : Nat) :
    tokensFrom .inComment pos body = [] := by
  induction body generalizing pos with
  | nil => rfl
  | cons c body ih =>
    rw [List.mem_cons, not_or] at hbody
    rw [tokensFrom, if_neg (Ne.symm hbody.1)]
    exact ih hbody.2 _

/-- What cannot stand in an atom ends it. -/
theorem tokensFrom_inAtom_end {cs : List Char}
    (hcs : ∀ c, cs.head? = some c → isAtomChar c = false) (start pos : Nat) (begun : List Char) :
    tokensFrom (.inAtom start begun) pos cs =
      .atom start begun.reverse :: tokensFrom .between pos cs := by
  cases cs with
  | nil => rfl
  | cons c cs =>
    have hc := hcs c rfl
    simp only [tokensFrom, Scan.flush]
    split
    · rfl
    · split
      · rfl
      · split
        · rfl
        · split
          · rfl
          · simp_all [isAtomChar]

theorem tokensFrom_inAtom_cons {c : Char} (hc : isAtomChar c = true) (start pos : Nat)
    (begun cs : List Char) :
    tokensFrom (.inAtom start begun) pos (c :: cs) =
      tokensFrom (.inAtom start (c :: begun)) (pos + c.utf8Size) cs := by
  simp only [isAtomChar, Bool.and_eq_true, decide_eq_true_eq, Bool.not_eq_true'] at hc
  obtain ⟨⟨⟨hcomment, hopening⟩, hclosing⟩, hblank⟩ := hc
  simp [tokensFrom, hcomment, hopening, hclosing, hblank]

/-- An atom goes on as long as it can. -/
theorem tokensFrom_inAtom {text cs : List Char} (htext : ∀ c ∈ text, isAtomChar c = true)
    (hcs : ∀ c, cs.head? = some c → isAtomChar c = false) (start pos : Nat) (begun : List Char) :
    tokensFrom (.inAtom start begun) pos (text ++ cs) =
      .atom start (begun.reverse ++ text) ::
        tokensFrom .between (pos + Text.byteLength text) cs := by
  induction text generalizing pos begun with
  | nil => simp [tokensFrom_inAtom_end hcs]
  | cons c text ih =>
    obtain ⟨hc, htext⟩ := List.forall_mem_cons.mp htext
    rw [List.cons_append, tokensFrom_inAtom_cons hc, ih htext, Text.byteLength_cons,
      List.reverse_cons, List.append_assoc, List.singleton_append, Nat.add_assoc]

theorem tokensFrom_atom {text cs : List Char} (hne : text ≠ [])
    (htext : ∀ c ∈ text, isAtomChar c = true)
    (hcs : ∀ c, cs.head? = some c → isAtomChar c = false) (pos : Nat) :
    tokensFrom .between pos (text ++ cs) =
      .atom pos text :: tokensFrom .between (pos + Text.byteLength text) cs := by
  obtain ⟨c, text, rfl⟩ := List.exists_cons_of_ne_nil hne
  obtain ⟨hc, htext⟩ := List.forall_mem_cons.mp htext
  have hstart : tokensFrom .between pos (c :: text ++ cs) =
      tokensFrom (.inAtom pos [c]) (pos + c.utf8Size) (text ++ cs) := by
    simp only [isAtomChar, Bool.and_eq_true, decide_eq_true_eq, Bool.not_eq_true'] at hc
    obtain ⟨⟨⟨hcomment, hopening⟩, hclosing⟩, hblank⟩ := hc
    simp [tokensFrom, hcomment, hopening, hclosing, hblank]
  rw [hstart, tokensFrom_inAtom htext hcs, Text.byteLength_cons, Nat.add_assoc]
  rfl

/-- The scan finds what a text spells. -/
theorem Spells.tokensFrom_eq {pos : Nat} {cs : List Char} {toks : List Token}
    (h : Spells pos cs toks) : tokensFrom .between pos cs = toks := by
  induction h with
  | nil pos => rfl
  | @blank pos c cs toks hc _ ih =>
    have hother : ¬ c = ';' ∧ ¬ c = '(' ∧ ¬ c = ')' := by
      refine ⟨?_, ?_, ?_⟩ <;> rintro rfl <;> revert hc <;> decide
    simpa [tokensFrom, hother, hc, Scan.flush] using ih
  | @comment pos body cs toks hbody _ ih =>
    rw [← ih, List.cons_append, List.cons_append, tokensFrom_semicolon, tokensFrom_inComment hbody,
      Text.byteLength_cons, Nat.add_assoc]
  | lastComment hbody => rw [tokensFrom_semicolon, tokensFrom_lastComment hbody]
  | opening _ ih => rw [← ih]; rfl
  | closing _ ih => rw [← ih]; rfl
  | atom hne htext hcs _ ih => rw [tokensFrom_atom hne htext hcs, ih]

theorem not_isAtomChar_iff {c : Char} :
    isAtomChar c = false ↔ c = ';' ∨ c = '(' ∨ c = ')' ∨ Text.isBlank c = true := by
  simp only [isAtomChar, Bool.and_eq_false_iff, decide_eq_false_iff_not, not_not,
    Bool.not_eq_false', or_assoc]

/-- The longest run of characters that may stand in an atom, and the text behind it. -/
theorem exists_atom {c : Char} (hc : isAtomChar c = true) (cs : List Char) :
    ∃ text rest, c :: cs = text ++ rest ∧ text ≠ [] ∧ (∀ d ∈ text, isAtomChar d = true) ∧
      ∀ d, rest.head? = some d → isAtomChar d = false := by
  refine ⟨(c :: cs).takeWhile isAtomChar, (c :: cs).dropWhile isAtomChar,
    List.takeWhile_append_dropWhile.symm, by simp [hc], fun d hd => List.mem_takeWhile_imp hd, ?_⟩
  intro d hd
  have hhead := List.head?_dropWhile_not isAtomChar (c :: cs)
  rw [hd] at hhead
  simpa using hhead

/-- Every text spells some tokens. -/
theorem exists_spells (pos : Nat) (cs : List Char) : ∃ toks, Spells pos cs toks := by
  induction hlength : cs.length using Nat.strongRecOn generalizing pos cs with
  | ind n ih =>
    have shorter (pos : Nat) (rest : List Char) (hrest : rest.length < n) :
        ∃ toks, Spells pos rest toks := ih _ hrest pos rest rfl
    cases cs with
    | nil => exact ⟨[], .nil pos⟩
    | cons c cs =>
      rw [List.length_cons] at hlength
      cases hatom : isAtomChar c with
      | true =>
        obtain ⟨text, rest, happend, hne, htext, hrest⟩ := exists_atom hatom cs
        have hlen := congrArg List.length happend
        have hpos := List.length_pos_iff.mpr hne
        rw [List.length_append, List.length_cons] at hlen
        obtain ⟨toks, htoks⟩ := shorter (pos + Text.byteLength text) rest (by omega)
        rw [happend]
        exact ⟨_, .atom hne htext hrest htoks⟩
      | false =>
        obtain rfl | rfl | rfl | hblank := not_isAtomChar_iff.mp hatom
        · by_cases hbreak : '\n' ∈ cs
          · obtain ⟨body, rest, rfl, hbody⟩ := List.eq_append_cons_of_mem hbreak
            rw [List.length_append, List.length_cons] at hlength
            obtain ⟨toks, htoks⟩ := shorter _ rest (by omega)
            have happend : ';' :: (body ++ '\n' :: rest) = ';' :: body ++ ['\n'] ++ rest := by simp
            rw [happend]
            exact ⟨toks, .comment hbody htoks⟩
          · exact ⟨[], .lastComment hbreak⟩
        · obtain ⟨toks, htoks⟩ := shorter (pos + 1) cs (by omega)
          exact ⟨_, .opening htoks⟩
        · obtain ⟨toks, htoks⟩ := shorter (pos + 1) cs (by omega)
          exact ⟨_, .closing htoks⟩
        · obtain ⟨toks, htoks⟩ := shorter _ cs (by omega)
          exact ⟨toks, .blank hblank htoks⟩

/-- The scan finds the tokens that a text spells, and no others. -/
theorem tokensFrom_eq_iff {pos : Nat} {cs : List Char} {toks : List Token} :
    tokensFrom .between pos cs = toks ↔ Spells pos cs toks := by
  constructor
  · rintro rfl
    obtain ⟨toks, htoks⟩ := exists_spells pos cs
    rwa [htoks.tokensFrom_eq]
  · exact Spells.tokensFrom_eq

/-! ## Parts of a text -/

namespace Token

/-- The byte at which the token starts. -/
def start : Token → Nat
  | opening pos | closing pos | atom pos _ => pos

/-- The byte behind the token. -/
def stop : Token → Nat
  | opening pos | closing pos => pos + 1
  | atom pos text => pos + Text.byteLength text

/-- What a token says, wherever it stands. -/
inductive Lexeme where
  | opening
  | closing
  | atom (text : String)
  deriving DecidableEq

def lexeme : Token → Lexeme
  | opening _ => .opening
  | closing _ => .closing
  | atom _ text => .atom (String.ofList text)

end Token

/-- What stands behind the first part of a text stands in the whole text. -/
theorem exists_drop_append {pos start : Nat} {cs : List Char} {P : List Char → Prop}
    (mid : List Char)
    (h : ∃ before rest, cs = before ++ rest ∧
      start = pos + Text.byteLength mid + Text.byteLength before ∧ P rest) :
    ∃ before rest, mid ++ cs = before ++ rest ∧ start = pos + Text.byteLength before ∧ P rest := by
  obtain ⟨before, rest, rfl, hstart, hrest⟩ := h
  exact ⟨mid ++ before, rest, (List.append_assoc ..).symm,
    by rw [hstart, Text.byteLength_append, Nat.add_assoc], hrest⟩

/-- The text from the first byte of a token on spells it and the tokens behind it. -/
theorem Spells.drop {front back : List Token} {tok : Token} {pos : Nat} {cs : List Char}
    (h : Spells pos cs (front ++ tok :: back)) :
    ∃ before rest, cs = before ++ rest ∧ tok.start = pos + Text.byteLength before ∧
      Spells tok.start rest (tok :: back) := by
  generalize hall : front ++ tok :: back = all at h
  induction h generalizing front with
  | nil | lastComment => simp at hall
  | @blank pos c cs _ hc h ih => exact exists_drop_append [c] (ih hall)
  | @comment pos body cs _ hbody h ih => exact exists_drop_append (';' :: body ++ ['\n']) (ih hall)
  | @opening pos cs _ h ih =>
    cases front with
    | nil =>
      cases hall
      exact ⟨[], _, rfl, rfl, .opening h⟩
    | cons first front => exact exists_drop_append ['('] (ih (List.cons.inj hall).2)
  | @closing pos cs _ h ih =>
    cases front with
    | nil =>
      cases hall
      exact ⟨[], _, rfl, rfl, .closing h⟩
    | cons first front => exact exists_drop_append [')'] (ih (List.cons.inj hall).2)
  | @atom pos text cs _ hne htext hcs h ih =>
    cases front with
    | nil =>
      cases hall
      exact ⟨[], _, rfl, rfl, .atom hne htext hcs h⟩
    | cons first front => exact exists_drop_append text (ih (List.cons.inj hall).2)

/-- A first part of what follows a text makes, with this in front of it, a first part of the whole
text. -/
theorem exists_take_append {pos stop : Nat} {cs : List Char} {P Q : List Char → Prop}
    (mid : List Char) (hmid : ∀ part behind, cs = part ++ behind → P part → Q (mid ++ part))
    (h : ∃ part behind, cs = part ++ behind ∧
      stop = pos + Text.byteLength mid + Text.byteLength part ∧ P part) :
    ∃ part behind, mid ++ cs = part ++ behind ∧ stop = pos + Text.byteLength part ∧ Q part := by
  obtain ⟨part, behind, hcs, hstop, hpart⟩ := h
  exact ⟨mid ++ part, behind, by rw [hcs, List.append_assoc],
    by rw [hstop, Text.byteLength_append, Nat.add_assoc], hmid part behind hcs hpart⟩

/-- The text up to the last byte of a token spells it and the tokens in front of it. -/
theorem Spells.take {front back : List Token} {tok : Token} {pos : Nat} {cs : List Char}
    (h : Spells pos cs (front ++ tok :: back)) :
    ∃ part behind, cs = part ++ behind ∧ tok.stop = pos + Text.byteLength part ∧
      Spells pos part (front ++ [tok]) := by
  generalize hall : front ++ tok :: back = all at h
  induction h generalizing front with
  | nil | lastComment => simp at hall
  | @blank pos c cs _ hc h ih =>
    exact exists_take_append [c] (fun _ _ _ hpart => .blank hc hpart) (ih hall)
  | @comment pos body cs _ hbody h ih =>
    exact exists_take_append (';' :: body ++ ['\n']) (fun _ _ _ hpart => .comment hbody hpart)
      (ih hall)
  | @opening pos cs _ h ih =>
    cases front with
    | nil =>
      cases hall
      exact ⟨['('], cs, rfl, rfl, .opening (.nil _)⟩
    | cons first front =>
      obtain ⟨rfl, hmore⟩ := List.cons.inj hall
      exact exists_take_append ['('] (fun _ _ _ hpart => .opening hpart) (ih hmore)
  | @closing pos cs _ h ih =>
    cases front with
    | nil =>
      cases hall
      exact ⟨[')'], cs, rfl, rfl, .closing (.nil _)⟩
    | cons first front =>
      obtain ⟨rfl, hmore⟩ := List.cons.inj hall
      exact exists_take_append [')'] (fun _ _ _ hpart => .closing hpart) (ih hmore)
  | @atom pos text cs _ hne htext hcs h ih =>
    cases front with
    | nil =>
      cases hall
      have hpart : Spells pos (text ++ []) [.atom pos text] := .atom hne htext (by simp) (.nil _)
      rw [List.append_nil] at hpart
      exact ⟨text, cs, rfl, rfl, hpart⟩
    | cons first front =>
      obtain ⟨rfl, hmore⟩ := List.cons.inj hall
      refine exists_take_append text (fun part behind happend hpart => ?_) (ih hmore)
      -- The atom ends where it ended: the part starts as the text behind it did.
      have hend : ∀ c, part.head? = some c → isAtomChar c = false := fun c hc =>
        hcs c (by rw [happend, List.head?_append, hc]; rfl)
      exact .atom hne htext hend hpart

/-- The same text spells the same lexemes wherever it stands. -/
theorem Spells.move {pos : Nat} {cs : List Char} {toks : List Token} (h : Spells pos cs toks)
    (pos' : Nat) :
    ∃ toks', Spells pos' cs toks' ∧ toks'.map Token.lexeme = toks.map Token.lexeme := by
  induction h generalizing pos' with
  | nil => exact ⟨[], .nil pos', rfl⟩
  | lastComment hbody => exact ⟨[], .lastComment hbody, rfl⟩
  | blank hc _ ih =>
    obtain ⟨toks', hspells, hlexemes⟩ := ih _
    exact ⟨toks', .blank hc hspells, hlexemes⟩
  | comment hbody _ ih =>
    obtain ⟨toks', hspells, hlexemes⟩ := ih _
    exact ⟨toks', .comment hbody hspells, hlexemes⟩
  | opening _ ih =>
    obtain ⟨toks', hspells, hlexemes⟩ := ih _
    exact ⟨_, .opening hspells, congrArg (List.cons Token.Lexeme.opening) hlexemes⟩
  | closing _ ih =>
    obtain ⟨toks', hspells, hlexemes⟩ := ih _
    exact ⟨_, .closing hspells, congrArg (List.cons Token.Lexeme.closing) hlexemes⟩
  | atom hne htext hcs _ ih =>
    obtain ⟨toks', hspells, hlexemes⟩ := ih _
    exact ⟨_, .atom hne htext hcs hspells, congrArg (List.cons _) hlexemes⟩

/-- The part of a text from the first byte of a token to the last byte of a token, either the same
or a later one, spells these two and the tokens between them. -/
theorem Spells.exists_slice {text : String} {front mid back : List Token} {first last : Token}
    (h : Spells 0 text.toList (front ++ mid ++ back)) (hfirst : mid.head? = some first)
    (hlast : mid.getLast? = some last) :
    ∃ toks, Spells 0 (Text.slice first.start last.stop text.toList) toks ∧
      toks.map Token.lexeme = mid.map Token.lexeme := by
  obtain ⟨tail, rfl⟩ := List.head?_eq_some_iff.mp hfirst
  obtain ⟨init, hinit⟩ := List.getLast?_eq_some_iff.mp hlast
  rw [List.append_assoc, List.cons_append] at h
  obtain ⟨before, rest, hbefore, hstart, hrest⟩ := h.drop
  rw [← List.cons_append, hinit, List.append_assoc, List.singleton_append] at hrest
  obtain ⟨part, behind, rfl, hstop, hpart⟩ := hrest.take
  have hslice : Text.slice first.start last.stop text.toList = part := by
    rw [hbefore, hstop, hstart, Nat.zero_add, ← List.append_assoc, Text.slice_append]
  rw [hslice, hinit]
  exact hpart.move 0

end SExpr

end PlanConstraints

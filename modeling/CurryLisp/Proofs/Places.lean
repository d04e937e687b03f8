/-
# Cutting loses nothing

A text is cut into tokens with blanks between them.  All its characters are accounted for: they
belong to a token, or to a run of blanks, or to what is left from the place on where no token
begins.  Every token and the fault carry the place where they start.

The reader counts lines and columns as it goes.  `Position.past` says where a place is without
going there, by the line feeds before it.  Whether a string is ever closed, and which characters
begin a token, is said without the reader too.

* `Position.advanceOver_eq_past`: going on character by character leads to the right place;
* `closeString?_eq_none_iff`: a string is not closed when every quote in it is escaped;
* `lexeme?_eq_none_iff`: where no token begins;
* `CutInto.blank_cons`, `CutInto.token_cons`, `CutInto.stuck_cons`: one step of cutting.

The main statement is `cutting_loses_nothing`.
-/
import CurryLisp.Proofs.Lexemes
import Mathlib.Data.List.Induction

namespace CurryLisp

/-! ## 1. Places -/

/-- The place past some characters: its line counts the line feeds among them, and its column the
characters since the last line feed, or since the start. -/
def Position.past (before : List Char) : Position :=
  ⟨1 + before.count '\n', 1 + (before.reverse.takeWhile fun c => c != '\n').length⟩

theorem Position.past_concat (before : List Char) (c : Char) :
    past (before ++ [c]) = (past before).advance c := by
  by_cases hc : c = '\n'
  · simp [past, advance, hc]
    omega
  · simp [past, advance, hc]
    omega

/-- **Going on character by character leads to the right place.** -/
theorem Position.advanceOver_eq_past (before more : List Char) :
    (past before).advanceOver more = past (before ++ more) := by
  induction more generalizing before with
  | nil => simp
  | cons c more ih =>
    rw [advanceOver_cons, ← past_concat, ih]
    simp

/-! ## 2. Strings that nothing closes -/

/-- Whether the character after these is escaped: the last of them is a backslash that is not
escaped itself. -/
def isEscaped (before : List Char) : Bool :=
  before.foldl (fun escaped c => c == '\\' && !escaped) false

/-- Every double quote is escaped. -/
def Unclosed (inside : List Char) : Prop :=
  ∀ before after, inside = before ++ '"' :: after → isEscaped before = true

theorem isEscaped_escape (d : Char) (before : List Char) :
    isEscaped ('\\' :: d :: before) = isEscaped before := by
  simp [isEscaped]

theorem isEscaped_plain {c : Char} (hc : c ≠ '\\') (before : List Char) :
    isEscaped (c :: before) = isEscaped before := by
  have hback : (c == '\\') = false := by simpa using hc
  simp [isEscaped, hback]

theorem unclosed_nil : Unclosed [] := by
  intro before after h
  simp at h

theorem not_unclosed_quote (rest : List Char) : ¬ Unclosed ('"' :: rest) := by
  intro h
  simpa [isEscaped] using h [] rest rfl

theorem unclosed_backslash : Unclosed ['\\'] := by
  intro before after h
  cases before with
  | nil => simp at h
  | cons c before => simp at h

theorem unclosed_escape_iff {d : Char} {rest : List Char} :
    Unclosed ('\\' :: d :: rest) ↔ Unclosed rest := by
  constructor
  · intro h before after hrest
    rw [← isEscaped_escape d]
    exact h _ after (by simp [hrest])
  · intro h before after hrest
    -- A quote right after the backslash is the escaped character itself.
    match before, hrest with
    | [], hrest => simp at hrest
    | [c], hrest =>
      obtain ⟨rfl, -⟩ : '\\' = c ∧ _ := by simpa using hrest
      rfl
    | c :: e :: before, hrest =>
      obtain ⟨rfl, rfl, hmore⟩ : '\\' = c ∧ d = e ∧ rest = before ++ '"' :: after := by
        simpa using hrest
      rw [isEscaped_escape]
      exact h before after hmore

theorem unclosed_plain_iff {c : Char} (hquote : c ≠ '"') (hback : c ≠ '\\') {rest : List Char} :
    Unclosed (c :: rest) ↔ Unclosed rest := by
  constructor
  · intro h before after hrest
    rw [← isEscaped_plain hback]
    exact h _ after (by simp [hrest])
  · intro h before after hrest
    cases before with
    | nil => exact absurd (by simpa using hrest : c = '"' ∧ _).1 hquote
    | cons d before =>
      obtain ⟨rfl, hmore⟩ : c = d ∧ rest = before ++ '"' :: after := by simpa using hrest
      rw [isEscaped_plain hback]
      exact h before after hmore

/-- **A string is not closed just when every quote in it is escaped.** -/
theorem closeString?_eq_none_iff {cs : List Char} : closeString? cs = none ↔ Unclosed cs := by
  fun_induction closeString? cs with
  | case1 => simp [unclosed_nil]
  | case2 rest => simp [not_unclosed_quote]
  | case3 => simp [unclosed_backslash]
  | case4 d rest _ ih => rw [unclosed_escape_iff, ← ih, Option.map_eq_none_iff]
  | case5 c rest hquote hback ih =>
    rw [unclosed_plain_iff hquote hback, ← ih, Option.map_eq_none_iff]

/-! ## 3. Characters that begin a token -/

/-- The characters that a token can begin with: the ones of comments, brackets and strings, and
those that symbols and numerals are made of. -/
def startsToken (c : Char) : Bool :=
  c == ';' || c == '(' || c == ')' || c == '\x7b' || c == '\x7d' || c == '"' || isSymbolChar c

/-- What begins a numeral is a character of a symbol. -/
theorem isSymbolChar_of_startsNumber {c : Char} {rest : List Char}
    (h : startsNumber c rest = true) : isSymbolChar c = true := by
  rcases Bool.or_eq_true_iff.mp h with hdigit | hminus
  · exact isSymbolChar_of_isDigit hdigit
  · obtain rfl : c = '-' := by simpa using (Bool.and_eq_true_iff.mp hminus).1
    decide

/-- **No token begins** at a quote that opens a string without an end, and at the characters that
none can begin with. -/
theorem lexeme?_eq_none_iff {c : Char} {rest : List Char} :
    lexeme? (c :: rest) = none ↔ c = '"' ∧ Unclosed rest ∨ startsToken c = false := by
  rw [← closeString?_eq_none_iff, lexeme?]
  split
  · next hc => simp [hc, startsToken]
  split
  · next hc => simp [hc, startsToken, Bracket.openChar]
  split
  · next hc => simp [hc, startsToken, Bracket.closeChar]
  split
  · next hc => simp [hc, startsToken, Bracket.openChar]
  split
  · next hc => simp [hc, startsToken, Bracket.closeChar]
  split
  · next hc => simp [hc, startsToken]
  split
  · next hquote hstart =>
    have hsymbol := isSymbolChar_of_startsNumber hstart
    simp [hquote, startsToken, hsymbol]
  split
  · next hquote _ hsymbol => simp [hquote, startsToken, hsymbol]
  · next hquote _ hsymbol => simp_all [startsToken, Bracket.openChar, Bracket.closeChar]

/-! ## 4. Cutting -/

/-- A token and the blanks before it. -/
structure Piece where
  gap : List Char
  token : Token

/-- The characters of a piece. -/
def Piece.chars (p : Piece) : List Char := p.gap ++ p.token.text.toList

/-- What is wrong at the front of some characters where no token begins: a quote opens a string that
is not closed, or the first of them is no blank and begins no token. -/
inductive StuckAt : List Char → SyntaxDetail → Prop
  | unterminated {inside : List Char} : Unclosed inside →
      StuckAt ('"' :: inside) .unterminatedString
  | unexpected {c : Char} {more : List Char} : Text.isBlank c = false → startsToken c = false →
      StuckAt (c :: more) (.unexpectedChar c)

/-- How the characters that stand after others are cut: into pieces, one for each token, a gap, and
what is left. -/
structure CutInto (seen cs : List Char) (l : Lexed) (pieces : List Piece) (gap rest : List Char) :
    Prop where
  /-- there is a piece for each token, in order -/
  tokens : pieces.map Piece.token = l.tokens
  /-- nothing is lost, and nothing is taken twice -/
  chars : pieces.flatMap Piece.chars ++ gap ++ rest = cs
  /-- between tokens there are only blanks -/
  blank : ∀ p ∈ pieces, ∀ c ∈ p.gap, Text.isBlank c = true
  blank_gap : ∀ c ∈ gap, Text.isBlank c = true
  /-- a token is placed past all that comes before it -/
  placed : ∀ before p after, pieces = before ++ p :: after →
    p.token.position = .past (seen ++ before.flatMap Piece.chars ++ p.gap)
  /-- without a fault nothing is left -/
  rest_eq_nil : rest = [] ↔ l.fault = none
  /-- a fault is placed where no token begins -/
  stuck : ∀ e, l.fault = some e →
    StuckAt rest e.detail ∧ e.position = .past (seen ++ pieces.flatMap Piece.chars ++ gap)

namespace CutInto

variable {seen cs gap rest : List Char} {l : Lexed} {pieces : List Piece} {c : Char}

theorem nil (seen : List Char) : CutInto seen [] ⟨[], none⟩ [] [] [] where
  tokens := rfl
  chars := rfl
  blank := by simp
  blank_gap := by simp
  placed := by simp
  rest_eq_nil := by simp
  stuck := by simp

/-- One more blank in front belongs to the first gap. -/
theorem blank_cons (hc : Text.isBlank c = true) (h : CutInto (seen ++ [c]) cs l pieces gap rest) :
    ∃ pieces' gap', CutInto seen (c :: cs) l pieces' gap' rest := by
  have hgap : ∀ {w : List Char}, (∀ d ∈ w, Text.isBlank d = true) →
      ∀ d ∈ c :: w, Text.isBlank d = true := by
    intro w hw d hd
    rcases List.mem_cons.mp hd with rfl | hd
    · exact hc
    · exact hw d hd
  cases pieces with
  | nil =>
    refine ⟨[], c :: gap, h.tokens, ?_, by simp, hgap h.blank_gap, by simp, h.rest_eq_nil, ?_⟩
    · simpa using h.chars
    · simpa using h.stuck
  | cons p pieces =>
    refine ⟨⟨c :: p.gap, p.token⟩ :: pieces, gap, by simpa using h.tokens, ?_, ?_, h.blank_gap, ?_,
      h.rest_eq_nil, ?_⟩
    · simpa [Piece.chars] using h.chars
    · intro q hq
      rcases List.mem_cons.mp hq with rfl | hq
      · exact hgap (h.blank p List.mem_cons_self)
      · exact h.blank q (List.mem_cons_of_mem _ hq)
    · intro before q after hsplit
      cases before with
      | nil =>
        obtain ⟨rfl, -⟩ := List.cons.inj hsplit
        simpa using h.placed [] p pieces rfl
      | cons r before =>
        obtain ⟨rfl, rfl⟩ := List.cons.inj hsplit
        simpa [Piece.chars] using h.placed (p :: before) q after rfl
    · simpa [Piece.chars] using h.stuck

/-- A token in front is a piece of its own. -/
theorem token_cons {t : Token} (ht : t.position = .past seen)
    (h : CutInto (seen ++ t.text.toList) cs l pieces gap rest) :
    CutInto seen (t.text.toList ++ cs) (.cons t l) (⟨[], t⟩ :: pieces) gap rest where
  tokens := by simp [Lexed.cons, h.tokens]
  chars := by simp [Piece.chars, ← h.chars]
  blank := by simpa using h.blank
  blank_gap := h.blank_gap
  placed := by
    intro before q after hsplit
    cases before with
    | nil =>
      obtain ⟨rfl, -⟩ := List.cons.inj hsplit
      simpa using ht
    | cons r before =>
      obtain ⟨rfl, rfl⟩ := List.cons.inj hsplit
      simpa [Piece.chars] using h.placed before q after rfl
  rest_eq_nil := h.rest_eq_nil
  stuck := by simpa [Lexed.cons, Piece.chars] using h.stuck

/-- Where no token begins everything is left. -/
theorem stuck_cons (hc : Text.isBlank c = false) (h : lexeme? (c :: cs) = none) :
    CutInto seen (c :: cs) ⟨[], some (stuckAt (.past seen) c)⟩ [] [] (c :: cs) where
  tokens := rfl
  chars := rfl
  blank := by simp
  blank_gap := by simp
  placed := by simp
  rest_eq_nil := by simp
  stuck := by
    rintro e ⟨⟩
    rcases lexeme?_eq_none_iff.mp h with ⟨rfl, hinside⟩ | hstart
    · exact ⟨.unterminated hinside, by simp [stuckAt]⟩
    · have hquote : c ≠ '"' := by
        rintro rfl
        exact absurd hstart (by decide)
      simpa [stuckAt, hquote] using StuckAt.unexpected hc hstart

end CutInto

/-- **However a text is cut, nothing of it is lost.** -/
theorem exists_cutInto_lexFrom (seen cs : List Char) :
    ∃ pieces gap rest, CutInto seen cs (lexFrom (.past seen) cs) pieces gap rest := by
  generalize hp : Position.past seen = p
  fun_induction lexFrom p cs generalizing seen with
  | case1 p => exact ⟨[], [], [], .nil seen⟩
  | case2 p c rest hblank ih =>
    obtain ⟨pieces, gap, left, h⟩ := ih (seen ++ [c]) (by rw [Position.past_concat, hp])
    obtain ⟨pieces', gap', h'⟩ := h.blank_cons hblank
    exact ⟨pieces', gap', left, h'⟩
  | case3 p c rest hblank hl =>
    subst hp
    exact ⟨[], [], c :: rest, .stuck_cons (Bool.eq_false_iff.mpr hblank) hl⟩
  | case4 p c rest hblank l hl ih =>
    subst hp
    obtain ⟨pieces, gap, left, h⟩ := ih (seen ++ l.chars) (by rw [Position.advanceOver_eq_past])
    have hcut := CutInto.token_cons (t := ⟨l.kind, String.ofList l.chars, .past seen⟩) rfl
      (by simpa using h)
    rw [String.toList_ofList, lexeme?_eq_append hl] at hcut
    exact ⟨_, gap, left, hcut⟩

/-- **Cutting loses nothing and places everything.**  A text `w₀ t₁ w₁ t₂ w₂ … tₙ wₙ r` is made of
its tokens `tᵢ` in order, runs of blanks `wᵢ` between them, and what is left, `r`.

* Each token is placed past everything before it: its line is one more than the line feeds there,
  and its column one more than the characters since the last of them.
* Nothing is left just when there is no fault.
* A fault is placed where `r` begins.  There a quote opens a string in which every other quote is
  escaped, or there is a character that is no blank and that no token begins with. -/
theorem cutting_loses_nothing (source : String) :
    ∃ pieces gap rest, CutInto [] source.toList (lex source) pieces gap rest :=
  exists_cutInto_lexFrom [] source.toList

/-- A string may go over the end of a line; the next token is placed on the line where it ends. -/
example : (lex "\"a\nb\"  c").tokens.map Token.position = [⟨1, 1⟩, ⟨2, 5⟩] := by
  decide +kernel

end CurryLisp

/-
# Where a lexeme ends

A lexeme is taken as long as its kind allows, and nothing after that has a say in it.  So the
characters after a lexeme may be changed, as long as they do not go on with it (`EndsBefore`): a
line feed goes on with no lexeme, and a blank with none but a comment.

* `lexeme?_endsBefore`: what follows a lexeme does not go on with it;
* `lexeme?_append`: whatever does not go on with it may follow instead;
* `lexFrom_append_newline`: a text that is cut without a fault is cut alike before a line feed;
* `isLexeme_of_mem_lex`: the tokens of a text are lexemes, each by itself.
-/
import CurryLisp.Proofs.Places
import CurryLisp.Proofs.Tokens

namespace CurryLisp

/-! ## 1. What may follow -/

/-- These characters do not go on with a lexeme of the kind. -/
def TokenKind.EndsBefore : TokenKind → List Char → Prop
  | .comment, rest => ∀ c ∈ rest.head?, isLineEnd c = true
  | .number, rest => ∀ c ∈ rest.head?, c.isDigit = false
  | .symbol, rest => Apart rest
  | .string, _ | .opener _, _ | .closer _, _ => True

/-- What is left of a run does not begin with a character of it. -/
theorem eq_false_of_mem_head?_takeRun {p : Char → Bool} {cs : List Char} {c : Char}
    (h : c ∈ (takeRun p cs).2.head?) : p c = false := by
  have hnot := List.head?_dropWhile_not p cs
  rw [takeRun] at h
  rw [h] at hnot
  simpa using hnot

/-- A run is taken again in front of characters that do not go on with it. -/
theorem takeRun_again {p : Char → Bool} {rest : List Char} (hrest : ∀ c ∈ rest.head?, p c = false)
    (cs : List Char) : takeRun p ((takeRun p cs).1 ++ rest) = ((takeRun p cs).1, rest) :=
  takeRun_of_all (fun _ hc => List.mem_takeWhile_imp hc) hrest

/-- **A lexeme is taken as long as it goes on.** -/
theorem lexeme?_endsBefore {cs : List Char} {l : Lexeme} (h : lexeme? cs = some l) :
    l.kind.EndsBefore l.rest := by
  revert h
  fun_cases lexeme? cs with
  | case1 | case10 => rintro ⟨⟩
  | case2 rest =>
    rintro ⟨⟩ c hc
    simpa using eq_false_of_mem_head?_takeRun hc
  | case3 | case4 | case5 | case6 =>
    rintro ⟨⟩
    trivial
  | case7 rest =>
    intro h
    obtain ⟨r, -, rfl⟩ := Option.map_eq_some_iff.mp h
    trivial
  | case8 | case9 =>
    rintro ⟨⟩ c hc
    exact eq_false_of_mem_head?_takeRun hc

/-- The inside of a string is closed by its own quote. -/
theorem closeString?_append {cs body rest : List Char} (h : closeString? cs = some (body, rest))
    (rest' : List Char) : closeString? (body ++ rest') = some (body, rest') := by
  fun_induction closeString? cs generalizing body rest with
  | case1 | case3 => cases h
  | case2 =>
    cases h
    exact closeString?_quote rest'
  | case4 d r _ ih =>
    obtain ⟨x, hx, he⟩ := Option.map_eq_some_iff.1 h
    cases he
    rw [List.cons_append, List.cons_append, closeString?_escape, ih hx]
    rfl
  | case5 c r hquote hback ih =>
    obtain ⟨x, hx, he⟩ := Option.map_eq_some_iff.1 h
    cases he
    rw [List.cons_append, closeString?_plain hquote hback, ih hx]
    rfl

/-- Whether a number starts is seen from the run of its digits. -/
theorem startsNumber_takeRun {c : Char} {rest : List Char} (h : startsNumber c rest = true)
    (rest' : List Char) :
    startsNumber c ((takeRun Char.isDigit rest).1 ++ rest') = true := by
  rcases Bool.or_eq_true_iff.mp h with hdigit | hminus
  · simp [startsNumber, hdigit]
  · cases rest with
    | nil => simp at hminus
    | cons d more =>
      obtain ⟨hc, hd⟩ : c = '-' ∧ d.isDigit = true := by simpa using hminus
      simp [startsNumber, takeRun, hc, hd]

/-- **What follows a lexeme may be changed.** -/
theorem lexeme?_append {cs rest : List Char} {l : Lexeme} (h : lexeme? cs = some l)
    (hrest : l.kind.EndsBefore rest) :
    lexeme? (l.chars ++ rest) = some ⟨l.kind, l.chars, rest⟩ := by
  revert h hrest
  fun_cases lexeme? cs with
  | case1 | case10 => rintro ⟨⟩
  | case2 more =>
    rintro ⟨⟩ hrest
    have hstop : ∀ d ∈ rest.head?, (!isLineEnd d) = false := fun d hd => by simpa using hrest d hd
    rw [Lexeme.run, List.cons_append, lexeme?, if_pos rfl, Lexeme.run, takeRun_again hstop]
  | case3 more | case5 more =>
    rintro ⟨⟩ -
    exact lexeme?_open _ rest
  | case4 more | case6 more =>
    rintro ⟨⟩ -
    exact lexeme?_close _ rest
  | case7 more =>
    intro h _
    obtain ⟨r, hr, rfl⟩ := Option.map_eq_some_iff.mp h
    rw [List.cons_append, lexeme?, closeString?_append hr]
    rfl
  | case8 c more _ _ _ _ _ _ hstart =>
    rintro ⟨⟩ hrest
    rw [Lexeme.run, List.cons_append,
      lexeme?_of_isSymbolChar (isSymbolChar_of_startsNumber hstart),
      if_pos (startsNumber_takeRun hstart rest), Lexeme.run, takeRun_again hrest]
  | case9 c more _ _ _ _ _ _ hstart hc =>
    rintro ⟨⟩ hrest
    obtain ⟨d, run, hrun, hnumber, hall⟩ := isSymbolToken_run hc (Bool.eq_false_iff.mpr hstart)
    rw [String.toList_ofList] at hrun
    cases hrun
    exact lexeme?_symbol hc hnumber (fun d hd => hall d (List.mem_cons_of_mem _ hd)) hrest

/-! ## 2. Texts that go on -/

theorem TokenKind.endsBefore_newline (kind : TokenKind) (rest : List Char) :
    kind.EndsBefore ('\n' :: rest) := by
  cases kind with
  | comment | number | symbol =>
    rintro c ⟨⟩
    decide
  | string | opener | closer => trivial

/-- What follows a lexeme may go on after a line feed. -/
theorem TokenKind.EndsBefore.append_newline {kind : TokenKind} {cs : List Char}
    (h : kind.EndsBefore cs) (rest : List Char) : kind.EndsBefore (cs ++ '\n' :: rest) := by
  cases cs with
  | nil => exact kind.endsBefore_newline rest
  | cons c cs => cases kind <;> exact h

/-- **A text that is cut without a fault is cut alike before a line feed**, and what comes after the
line feed is cut as if it stood alone. -/
theorem lexFrom_append_newline {p : Position} {cs : List Char} (h : (lexFrom p cs).fault = none)
    (rest : List Char) :
    lexFrom p (cs ++ '\n' :: rest) =
      (lexFrom ((p.advanceOver cs).advance '\n') rest).prepend (lexFrom p cs).tokens := by
  fun_induction lexFrom p cs with
  | case1 p => exact lexFrom_blank p rest (by decide)
  | case2 p c cs hblank ih => exact (lexFrom_blank p _ hblank).trans (ih h)
  | case3 => cases h
  | case4 p c cs hblank l hl ih =>
    have hsplit : l.chars ++ l.rest = c :: cs := lexeme?_eq_append hl
    have hlexeme : lexeme? (c :: (cs ++ '\n' :: rest)) =
        some ⟨l.kind, l.chars, l.rest ++ '\n' :: rest⟩ := by
      rw [← List.cons_append, ← hsplit, List.append_assoc]
      exact lexeme?_append hl ((lexeme?_endsBefore hl).append_newline rest)
    rw [List.cons_append, lexFrom_lexeme p (Bool.eq_false_iff.mpr hblank) hlexeme]
    dsimp only
    rw [ih h, ← Position.advanceOver_append, hsplit]
    rfl

/-! ## 3. Tokens by themselves -/

/-- The token is a lexeme, and a lexeme is cut here whatever else stands in the text. -/
def Token.IsLexeme (t : Token) : Prop :=
  (∃ c more, t.text.toList = c :: more ∧ Text.isBlank c = false) ∧
    ∀ rest, t.kind.EndsBefore rest →
      lexeme? (t.text.toList ++ rest) = some ⟨t.kind, t.text.toList, rest⟩

theorem isLexeme_of_lexeme? {c : Char} {cs : List Char} {l : Lexeme}
    (hblank : Text.isBlank c = false) (h : lexeme? (c :: cs) = some l) (p : Position) :
    Token.IsLexeme ⟨l.kind, String.ofList l.chars, p⟩ := by
  obtain ⟨more, hchars, -⟩ := lexeme?_cons h
  refine ⟨⟨c, more, by rw [String.toList_ofList, hchars], hblank⟩, fun rest hrest => ?_⟩
  rw [String.toList_ofList]
  exact lexeme?_append h hrest

theorem isLexeme_of_mem_lexFrom (p : Position) (cs : List Char) :
    ∀ t ∈ (lexFrom p cs).tokens, t.IsLexeme := by
  fun_induction lexFrom p cs with
  | case1 | case3 => exact fun t ht => absurd ht List.not_mem_nil
  | case2 _ _ _ _ ih => exact ih
  | case4 p c rest hblank l hl ih =>
    intro t ht
    rcases List.mem_cons.mp ht with rfl | ht
    · exact isLexeme_of_lexeme? (Bool.eq_false_iff.mpr hblank) hl p
    · exact ih t ht

/-- **The tokens of a text are lexemes.** -/
theorem isLexeme_of_mem_lex {source : String} {t : Token} (h : t ∈ (lex source).tokens) :
    t.IsLexeme :=
  isLexeme_of_mem_lexFrom _ _ t h

/-- A blank goes on with no lexeme but a comment. -/
theorem TokenKind.endsBefore_of_apart {kind : TokenKind} {rest : List Char}
    (hk : kind ≠ .comment) (hrest : Apart rest) : kind.EndsBefore rest := by
  cases kind with
  | comment => exact absurd rfl hk
  | number =>
    intro c hc
    rw [Bool.eq_false_iff]
    intro hdigit
    exact absurd (isSymbolChar_of_isDigit hdigit) (Bool.eq_false_iff.mp (hrest c hc))
  | symbol => exact hrest
  | string | opener | closer => trivial

end CurryLisp

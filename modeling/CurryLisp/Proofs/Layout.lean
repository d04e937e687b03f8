/-
# Layout does not matter

A program is its tokens, and the comments among them do not count.  Take a text that is cut without
a fault, leave out its comments, and write the texts of the other tokens with any blanks between
them, at least one each time (`LaidOut`).  The new text is cut into these tokens again, and it is
read as the old one was.

One blank is enough to keep two tokens apart, since it goes on with no lexeme but a comment, and
each token is a lexeme by itself (`Token.IsLexeme`).  Without a blank the old text may have had them
apart all the same, as in `5abc`.

* `LaidOut.lexFrom`: the words of a text that is laid out;
* `retold_of_words`: the same words tell the same, with comments between them or without;
* `layout_does_not_matter`: cutting, parsing, and the values that are read.
-/
import CurryLisp.Proofs.Retelling
import CurryLisp.Proofs.Seams

namespace CurryLisp

/-! ## 1. Words -/

/-- What a token says: its kind and its text, wherever it stands. -/
def Token.word (t : Token) : TokenKind × String := (t.kind, t.text)

/-- The tokens that are no comments. -/
def withoutComments (ts : List Token) : List Token := ts.filter fun t => t.kind != .comment

theorem withoutComments_cons_comment {t : Token} (h : t.kind = .comment) (ts : List Token) :
    withoutComments (t :: ts) = withoutComments ts := by
  simp [withoutComments, h]

theorem withoutComments_cons {t : Token} (h : t.kind ≠ .comment) (ts : List Token) :
    withoutComments (t :: ts) = t :: withoutComments ts := by
  simp [withoutComments, h]

/-- **The same words tell the same**, with comments between them or without. -/
theorem retold_of_words {ts us : List Token}
    (h : us.map Token.word = (withoutComments ts).map Token.word) :
    Retold (fun _ _ => True) ts us := by
  induction ts generalizing us with
  | nil =>
    obtain rfl : us = [] := List.map_eq_nil_iff.mp h
    exact .nil
  | cons t ts ih =>
    by_cases hk : t.kind = .comment
    · rw [withoutComments_cons_comment hk] at h
      exact .comment hk (ih h)
    · rw [withoutComments_cons hk, List.map_cons] at h
      obtain ⟨u, us', rfl, hu, hus⟩ := List.map_eq_cons_iff.mp h
      obtain ⟨hkind, htext⟩ := Prod.mk.inj hu
      exact .token ⟨hkind.symm, htext.symm, trivial⟩ (ih hus)

/-! ## 2. Texts that are laid out -/

/-- The texts of some tokens, with blanks between them: at least one each time. -/
inductive LaidOut : List Token → List Char → Prop
  | nil : LaidOut [] []
  | last (t : Token) : LaidOut [t] t.text.toList
  | cons {t u : Token} {ts : List Token} {gap cs : List Char} : gap ≠ [] →
      (∀ c ∈ gap, Text.isBlank c = true) → LaidOut (u :: ts) cs →
      LaidOut (t :: u :: ts) (t.text.toList ++ (gap ++ cs))

/-- Blanks go on with no symbol and no numeral. -/
theorem apart_of_blank {gap : List Char} (hne : gap ≠ [])
    (hgap : ∀ c ∈ gap, Text.isBlank c = true) (cs : List Char) : Apart (gap ++ cs) := by
  cases gap with
  | nil => exact absurd rfl hne
  | cons c gap =>
    refine apart_cons ?_ _
    rw [Bool.eq_false_iff]
    intro hsymbol
    have hnot := isBlank_of_isSymbolChar hsymbol
    rw [hgap c List.mem_cons_self] at hnot
    cases hnot

/-- Blanks are skipped. -/
theorem lexFrom_gap (p : Position) {gap : List Char} (hgap : ∀ c ∈ gap, Text.isBlank c = true)
    (cs : List Char) : lexFrom p (gap ++ cs) = lexFrom (p.advanceOver gap) cs := by
  induction gap generalizing p with
  | nil => rfl
  | cons c gap ih =>
    rw [List.cons_append, lexFrom_blank p _ (hgap c List.mem_cons_self),
      ih _ fun d hd => hgap d (List.mem_cons_of_mem _ hd)]
    rfl

/-- A token that is a lexeme is cut off first, as long as what follows does not go on with it. -/
theorem Token.IsLexeme.lexFrom {t : Token} (h : t.IsLexeme) (p : Position) {rest : List Char}
    (hrest : t.kind.EndsBefore rest) :
    lexFrom p (t.text.toList ++ rest) =
      .cons ⟨t.kind, t.text, p⟩ (CurryLisp.lexFrom (p.advanceOver t.text.toList) rest) := by
  obtain ⟨⟨c, more, htext, hblank⟩, hlexeme⟩ := h
  have hcut := hlexeme rest hrest
  rw [htext, List.cons_append] at hcut ⊢
  rw [lexFrom_lexeme p hblank hcut]
  dsimp only
  rw [← htext, String.ofList_toList]

/-- **What is laid out is cut into the same words.** -/
theorem LaidOut.lexFrom {ts : List Token} {cs : List Char} (h : LaidOut ts cs)
    (hlexeme : ∀ t ∈ ts, t.IsLexeme) (hcomment : ∀ t ∈ ts, t.kind ≠ .comment) (p : Position) :
    (lexFrom p cs).fault = none ∧
      (CurryLisp.lexFrom p cs).tokens.map Token.word = ts.map Token.word := by
  induction h generalizing p with
  | nil =>
    rw [lexFrom_nil]
    exact ⟨rfl, rfl⟩
  | last t =>
    have hend : t.kind.EndsBefore [] :=
      TokenKind.endsBefore_of_apart (hcomment t List.mem_cons_self) apart_nil
    have hcut := (hlexeme t List.mem_cons_self).lexFrom p hend
    rw [List.append_nil, lexFrom_nil] at hcut
    rw [hcut]
    exact ⟨rfl, rfl⟩
  | @cons t u ts gap cs hne hgap _ ih =>
    have hend : t.kind.EndsBefore (gap ++ cs) :=
      TokenKind.endsBefore_of_apart (hcomment t List.mem_cons_self) (apart_of_blank hne hgap cs)
    obtain ⟨hnone, hwords⟩ := ih (fun v hv => hlexeme v (List.mem_cons_of_mem _ hv))
      (fun v hv => hcomment v (List.mem_cons_of_mem _ hv))
      ((p.advanceOver t.text.toList).advanceOver gap)
    rw [(hlexeme t List.mem_cons_self).lexFrom p hend, lexFrom_gap _ hgap]
    exact ⟨hnone, congrArg (t.word :: ·) hwords⟩

/-! ## 3. Reading -/

/-- The value of a whole text is the form of its forms, if there are any. -/
theorem Value.ofNode_ofForms (nodes : List Node) :
    ofNode (.ofForms nodes) = (ofNodes nodes).map .sexpr := by
  rw [Node.ofForms, ofNode]

/-- **Layout does not matter.**  Let a text be one that is cut without a fault, and lay the texts of
its tokens out again without the comments, with any blanks between them.

1. The new text is cut without a fault, and into the same tokens: their kinds and their texts.
2. Either both texts can be parsed, and the forms that are read from both are equal values, and so
   are the values of the whole texts; or both are refused, with the same fault.
3. Where both can be parsed, there are forms, unless the host does not read a numeral of the text;
   then it reads neither text, for the same reason. -/
theorem layout_does_not_matter {source laid : String} (hlex : (lex source).fault = none)
    (hlaid : LaidOut (withoutComments (lex source).tokens) laid.toList) :
    ((lex laid).fault = none ∧
      (lex laid).tokens.map Token.word = (withoutComments (lex source).tokens).map Token.word) ∧
    ((∃ nodes nodes', parse source = .ok nodes ∧ parse laid = .ok nodes' ∧
        Value.ofNodes nodes' = Value.ofNodes nodes ∧
        Value.ofNode (.ofForms nodes') = Value.ofNode (.ofForms nodes) ∧
        ((∃ forms, Value.ofNodes nodes = .ok forms ∧
            Value.ofNode (.ofForms nodes) = .ok (.sexpr forms)) ∨
          ∃ t ∈ (lex source).tokens, t.isTooLong = true ∧
            Value.ofNodes nodes = .error t.unread)) ∨
      ∃ f f', parse source = .error f ∧ parse laid = .error f' ∧ f'.detail = f.detail) := by
  have hwords : (lex laid).fault = none ∧
      (lex laid).tokens.map Token.word = (withoutComments (lex source).tokens).map Token.word := by
    refine hlaid.lexFrom (fun t ht => ?_) (fun t ht => ?_) {}
    · exact isLexeme_of_mem_lex (List.mem_filter.mp ht).1
    · simpa using (List.mem_filter.mp ht).2
  refine ⟨hwords, ?_⟩
  have hfault : Option.Rel (SyntaxFault.Matches fun _ _ => True) (lex source).fault
      (lex laid).fault := by
    rw [hlex, hwords.1]
    exact .none
  rcases parse_retold (retold_of_words hwords.2) hfault with
    ⟨nodes, nodes', hparse, hparse', hsame⟩ | ⟨f, f', hparse, hparse', hmatch⟩
  · refine Or.inl ⟨nodes, nodes', hparse, hparse', hsame, ?_, ?_⟩
    · rw [Value.ofNode_ofForms, Value.ofNode_ofForms, hsame]
    · cases hread : Value.ofNodes nodes with
      | ok forms => exact Or.inl ⟨forms, rfl, by rw [Value.ofNode_ofForms, hread]; rfl⟩
      | error f =>
        have hunread := unread?_of_ofNodes_eq_error hparse hread
        obtain ⟨t, ht, hlong, rfl⟩ := exists_tooLong_of_unread? hunread
        exact Or.inr ⟨t, ht, hlong, rfl⟩
  · exact Or.inr ⟨f, f', hparse, hparse', hmatch.detail.symm⟩

/-- Tokens that touch, a list over two lines and a comment inside it: laid out again they stay
apart, a minus still belongs to its digit, and the same list is read.  A list that is not closed is
not closed either when it is laid out again. -/
theorem layout_does_not_matter_glued :
    let source := "\x7b5abc ; c)\n1-2\x7d"
    let laid := "\x7b\t5 abc\n\n1 -2\t\x7d"
    let forms : List Value := [.qexpr [.number 5, .symbol "abc", .number 1, .number (-2)]]
    ((lex source).fault = none ∧ LaidOut (withoutComments (lex source).tokens) laid.toList ∧
      (lex laid).tokens.map Token.word = [(.opener .curly, "\x7b"), (.number, "5"),
        (.symbol, "abc"), (.number, "1"), (.number, "-2"), (.closer .curly, "\x7d")] ∧
      ∃ nodes nodes', parse source = .ok nodes ∧ parse laid = .ok nodes' ∧
        Value.ofNodes nodes = .ok forms ∧ Value.ofNodes nodes' = .ok forms) ∧
    (lex "(1;").fault = none ∧ LaidOut (withoutComments (lex "(1;").tokens) "(\n1".toList ∧
      ∃ f f', parse "(1;" = .error f ∧ parse "(\n1" = .error f' ∧
        f.detail = .unclosed .round ∧ f'.detail = .unclosed .round := by
  intro source laid forms
  have hlex : lex source = ⟨[⟨.opener .curly, "\x7b", ⟨1, 1⟩⟩, ⟨.number, "5", ⟨1, 2⟩⟩,
      ⟨.symbol, "abc", ⟨1, 3⟩⟩, ⟨.comment, "; c)", ⟨1, 7⟩⟩, ⟨.number, "1", ⟨2, 1⟩⟩,
      ⟨.number, "-2", ⟨2, 2⟩⟩, ⟨.closer .curly, "\x7d", ⟨2, 4⟩⟩], none⟩ := by decide +kernel
  have hopen : lex "(1;" = ⟨[⟨.opener .round, "(", ⟨1, 1⟩⟩, ⟨.number, "1", ⟨1, 2⟩⟩,
      ⟨.comment, ";", ⟨1, 3⟩⟩], none⟩ := by decide +kernel
  have hnone : (lex source).fault = none := by rw [hlex]
  have gap : ∀ {t u : Token} {ts : List Token} {gap cs : List Char}, gap ≠ [] →
      gap.all Text.isBlank = true → LaidOut (u :: ts) cs →
      LaidOut (t :: u :: ts) (t.text.toList ++ (gap ++ cs)) := fun hne hblank =>
    .cons hne (List.all_eq_true.mp hblank)
  have hlaid : LaidOut (withoutComments (lex source).tokens) laid.toList := by
    rw [hlex]
    have hchars : laid.toList = ("\x7b".toList ++ (['\t'] ++ ("5".toList ++ ([' '] ++
        ("abc".toList ++ (['\n', '\n'] ++ ("1".toList ++ ([' '] ++ ("-2".toList ++ (['\t'] ++
          "\x7d".toList)))))))))) := by decide +kernel
    rw [hchars]
    refine gap ?_ ?_ (gap ?_ ?_ (gap ?_ ?_ (gap ?_ ?_ (gap ?_ ?_ (.last _))))) <;> decide
  have hlaidOpen : LaidOut (withoutComments (lex "(1;").tokens) "(\n1".toList := by
    rw [hopen]
    have hchars : "(\n1".toList = "(".toList ++ (['\n'] ++ "1".toList) := by decide +kernel
    rw [hchars]
    refine gap ?_ ?_ (.last _) <;> decide
  obtain ⟨⟨-, hwords⟩, hread⟩ := layout_does_not_matter hnone hlaid
  obtain ⟨-, hrefused⟩ := layout_does_not_matter (by rw [hopen]) hlaidOpen
  refine ⟨⟨hnone, hlaid, hwords.trans ?_, ?_⟩, by rw [hopen], hlaidOpen, ?_⟩
  · rw [hlex]
    decide
  · obtain ⟨nodes, hparse, hforms⟩ : ∃ nodes, parse source = .ok nodes ∧
        Value.ofNodes nodes = .ok forms := by
      rw [parse, hlex]
      exact ⟨_, rfl, rfl⟩
    rcases hread with ⟨nodes₁, nodes', hparse₁, hparse', hsame, -⟩ | ⟨f, -, hfault, -⟩
    · cases hparse.symm.trans hparse₁
      exact ⟨nodes, nodes', hparse, hparse', hforms, hsame.trans hforms⟩
    · cases hparse.symm.trans hfault
  · have hparse : parse "(1;" = .error ⟨.unclosed .round, ⟨1, 1⟩⟩ := by
      rw [parse, hopen]
      rfl
    rcases hrefused with ⟨nodes, -, hnodes, -⟩ | ⟨f, f', hf, hf', hdetail⟩
    · cases hparse.symm.trans hnodes
    · cases hparse.symm.trans hf
      exact ⟨_, f', hparse, hf', rfl, hdetail⟩

end CurryLisp

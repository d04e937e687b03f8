/-
# What is accepted, and what is reported

The reader accepts the texts of its grammar, and of the faults of a text that is refused it reports
one.  `scan` and the cutting of the text say which it is: a closing bracket that is refused comes
first, then the place where no token begins, and then the innermost of the brackets that are open at
the end.  It does not matter whether the text is cut as a whole or only as far as the reader has come:
a token of look-ahead could bring a later fault before an earlier one, and it never does.

* `SyntaxDetail.text_strayCloser`, `SyntaxDetail.text_unclosed`: the messages have the brackets' texts;
* `parse_follows_grammar`: the grammar, the fault that is reported, and the tree.
-/
import CurryLisp.Proofs.Streams

namespace CurryLisp

namespace SyntaxDetail

variable {t : Token} {b : Bracket}

/-- The message of a closing bracket that is refused has the text of the token. -/
theorem text_strayCloser (ht : t.Proper) (hk : t.kind = .closer b) :
    (strayCloser b).text = "unexpected '" ++ t.text ++ "'" := by
  rw [Token.Proper, hk] at ht
  rw [ht]
  rfl

/-- The message of a list that is not closed has the text of its opening bracket. -/
theorem text_unclosed (ht : t.Proper) (hk : t.kind = .opener b) :
    (unclosed b).text = "unmatched '" ++ t.text ++ "'" := by
  rw [Token.Proper, hk] at ht
  rw [ht]
  rfl

end SyntaxDetail

/-- **The reader accepts its grammar and reports the first fault.**  Read form by form from a stream
that is cut as it is used, a text gives what it gives when it is read as a whole.  Let it be cut into
tokens, up to its end or to the first place where no token begins.

1. The text is accepted just when there is no such place and the tokens are in the grammar; then the
   tree is the one that spells them.
2. If a closing bracket does not close the innermost open one, the first such bracket is reported,
   whatever comes after it.
3. Otherwise, if there is a place where no token begins, that fault is reported.
4. Otherwise, if brackets are open at the end, the innermost of them is reported.
5. Otherwise there is a tree, and flattening it gives the tokens back: their kinds, their texts, and
   the place of each of them that is no closing bracket. -/
theorem parse_follows_grammar (source : String) :
    (TokenStream.ofSource source).forms.1 = parse source ∧
    (∀ forms, parse source = .ok forms ↔
      (lex source).fault = none ∧ Spells forms (lex source).tokens) ∧
    (∀ t, scan [] (lex source).tokens = .error t →
      ∃ f, parse source = .error f ∧ f.position = t.position ∧
        f.detail.text = "unexpected '" ++ t.text ++ "'") ∧
    ∀ stack, scan [] (lex source).tokens = .ok stack →
      (∀ e, (lex source).fault = some e → parse source = .error e) ∧
      ((lex source).fault = none →
        (∀ o outer, stack = o :: outer →
          ∃ f, parse source = .error f ∧ f.position = o.position ∧
            f.detail.text = "unmatched '" ++ o.text ++ "'") ∧
        (stack = [] → ∃ forms, parse source = .ok forms ∧
          (Node.ofForms forms).flatten = (lex source).tokens.map Token.mark)) := by
  have hproper : ∀ t ∈ (lex source).tokens, t.Proper := fun t ht => proper_of_mem_lex ht
  refine ⟨forms_ofSource source, fun _ => parse_eq_ok_iff, ?_⟩
  rcases Forest.HasRead.empty.pushAll (lex source).tokens with
    ⟨⟨lists, done⟩, hpush, hread, hscan⟩ | ⟨t, b, rest, hk, hmem, hscan, hpush⟩
  · have hparse := parse_of_taken hpush
    refine ⟨fun t ht => ?_, fun stack hstack => ?_⟩
    · rw [show scan [] _ = _ from hscan] at ht
      cases ht
    rw [show scan [] _ = _ from hscan] at hstack
    cases hstack
    refine ⟨fun e he => ?_, fun hfault => ⟨fun o outer ho => ?_, fun hnil => ?_⟩⟩
    · rw [hparse, he]
    · cases lists with
      | nil => cases ho
      | cons l more =>
        cases ho
        obtain ⟨hopen, hmem⟩ := hread.opener
        refine ⟨⟨.unclosed l.bracket, l.opener.position⟩, ?_, rfl, ?_⟩
        · rw [hparse, hfault]
          rfl
        · exact SyntaxDetail.text_unclosed (hproper _ hmem) hopen
    · cases lists with
      | cons l more => cases hnil
      | nil =>
        have hok : parse source = .ok done.reverse := by
          rw [hparse, hfault]
          rfl
        refine ⟨_, hok, ?_⟩
        rw [Node.ofForms, Node.flatten]
        exact (parse_eq_ok_iff.mp hok).2.flattenAll hproper
  · have hparse := parse_of_refused hpush
    refine ⟨fun t' ht' => ?_, fun stack hstack => ?_⟩
    · rw [show scan [] _ = _ from hscan] at ht'
      cases ht'
      exact ⟨_, hparse, rfl, SyntaxDetail.text_strayCloser (hproper _ hmem) hk⟩
    · rw [show scan [] _ = _ from hscan] at hstack
      cases hstack

/-- A closing bracket of the wrong kind inside two open lists, with a string after it that is not
closed: of the three faults the bracket is reported, also by a stream. -/
theorem parse_follows_grammar_stray :
    let source := "(a \x7bb) \""
    scan [] (lex source).tokens = .error ⟨.closer .round, ")", ⟨1, 6⟩⟩ ∧
      (lex source).fault = some ⟨.unterminatedString, ⟨1, 8⟩⟩ ∧
      ∃ f, parse source = .error f ∧ (TokenStream.ofSource source).forms.1 = .error f ∧
        f.position = ⟨1, 6⟩ ∧ f.detail.text = "unexpected ')'" := by
  intro source
  have hscan : scan [] (lex source).tokens = .error ⟨.closer .round, ")", ⟨1, 6⟩⟩ := by
    decide +kernel
  obtain ⟨hstream, -, hstray, -⟩ := parse_follows_grammar source
  obtain ⟨f, hparse, hposition, htext⟩ := hstray _ hscan
  exact ⟨hscan, by decide +kernel, f, hparse, hstream.trans hparse, hposition,
    htext.trans (by decide)⟩

end CurryLisp

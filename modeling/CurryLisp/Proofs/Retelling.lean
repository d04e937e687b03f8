/-
# Texts that say the same

What a text is read as depends on the kinds and the texts of its tokens only.  Where the tokens
stand decides the places of the tree and of the fault, and comments decide nothing.  So two texts
are read alike when the tokens of the one are told again by the tokens of the other.

`Retold P` says that they are, at places that `P` relates; comments may be left out.  What is true
of the first text is then true of the second:

* `Refused.retold`: which fault is reported, at the place that `P` relates to it;
* `Spells.retold`: that it can be parsed, and the values that are read from it.

`Refused` says which fault this is without building a tree, and `parse_eq_error_iff` that it is the
one that parsing reports.
-/
import CurryLisp.Proofs.Reading
import Mathlib.Data.List.Forall2

namespace CurryLisp

/-! ## 1. The fault that is reported -/

/-- A text that is cut like this is refused with a fault: the first closing bracket that does not
close the innermost open one, or else the fault of the characters, or else the innermost bracket
that is open at the end. -/
inductive Refused : Lexed → SyntaxFault → Prop
  | stray {l : Lexed} {t : Token} {b : Bracket} : scan [] l.tokens = .error t →
      t.kind = .closer b → Refused l ⟨.strayCloser b, t.position⟩
  | stuck {l : Lexed} {stack : List Token} {e : SyntaxFault} : scan [] l.tokens = .ok stack →
      l.fault = some e → Refused l e
  | unclosed {l : Lexed} {o : Token} {outer : List Token} {b : Bracket} :
      scan [] l.tokens = .ok (o :: outer) → l.fault = none → o.kind = .opener b →
      Refused l ⟨.unclosed b, o.position⟩

/-- **Parsing reports this fault and no other.** -/
theorem parse_eq_error_iff {source : String} {f : SyntaxFault} :
    parse source = .error f ↔ Refused (lex source) f := by
  rcases Forest.HasRead.empty.pushAll (lex source).tokens with
    ⟨⟨lists, done⟩, hpush, hread, hscan⟩ | ⟨t, b, rest, hk, -, hscan, hpush⟩
  · rw [parse_of_taken hpush]
    have hscan : scan [] (lex source).tokens = .ok (lists.map OpenList.opener) := hscan
    constructor
    · intro h
      split at h
      · next e hfault =>
        cases h
        exact .stuck hscan hfault
      · next hfault =>
        cases lists with
        | nil => cases h
        | cons o outer =>
          cases h
          exact .unclosed hscan hfault hread.opener.1
    · rintro (⟨hstray, -⟩ | ⟨hstack, hfault⟩ | ⟨hstack, hfault, hopen⟩)
      · rw [hscan] at hstray
        cases hstray
      · rw [hfault]
      · rw [hfault]
        cases lists with
        | nil =>
          rw [hscan] at hstack
          cases hstack
        | cons o outer =>
          rw [hscan] at hstack
          cases hstack
          have hsame := hread.opener.1.symm.trans hopen
          cases hsame
          rfl
  · rw [parse_of_refused hpush]
    have hscan : scan [] (lex source).tokens = .error t := hscan
    constructor
    · rintro ⟨⟩
      exact .stray hscan hk
    · rintro (⟨hstray, hk'⟩ | ⟨hstack, -⟩ | ⟨hstack, -, -⟩)
      · rw [hscan] at hstray
        cases hstray
        rw [hk] at hk'
        cases hk'
        rfl
      · rw [hscan] at hstack
        cases hstack
      · rw [hscan] at hstack
        cases hstack

/-- A scan of two lists is a scan of the second that goes on where that of the first has come to. -/
theorem scan_append (stack ts us : List Token) :
    scan stack (ts ++ us) = (scan stack ts).bind (scan · us) := by
  fun_induction scan stack ts with
  | case1 => rfl
  | case2 stack t rest b hk ih =>
    rw [List.cons_append, scan, hk]
    exact ih
  | case3 t rest b hk =>
    rw [List.cons_append, scan, hk]
    rfl
  | case4 t rest b hk o outer ho ih =>
    rw [List.cons_append, scan, hk]
    dsimp only
    rw [if_pos ho]
    exact ih
  | case5 t rest b hk o outer ho =>
    rw [List.cons_append, scan, hk]
    dsimp only
    rw [if_neg ho]
    rfl
  | case6 stack t rest hk ih | case7 stack t rest hk ih | case8 stack t rest hk ih
  | case9 stack t rest hk ih =>
    rw [List.cons_append, scan, hk]
    exact ih

theorem scan_append_ok {stack out ts : List Token} (h : scan stack ts = .ok out)
    (us : List Token) : scan stack (ts ++ us) = scan out us := by
  rw [scan_append, h]
  rfl

theorem scan_append_error {stack ts : List Token} {t : Token} (h : scan stack ts = .error t)
    (us : List Token) : scan stack (ts ++ us) = .error t := by
  rw [scan_append, h]
  rfl

/-- Tokens that close all their brackets do not change which fault is reported after them. -/
theorem Refused.prepend {l : Lexed} {f : SyntaxFault} {ts : List Token}
    (hts : scan [] ts = .ok []) (h : Refused l f) : Refused (l.prepend ts) f := by
  have hscan : scan [] (l.prepend ts).tokens = scan [] l.tokens := scan_append_ok hts l.tokens
  cases h with
  | stray hstray hk => exact .stray (hscan.trans hstray) hk
  | stuck hstack hfault => exact .stuck (hscan.trans hstack) hfault
  | unclosed hstack hfault hopen => exact .unclosed (hscan.trans hstack) hfault hopen

/-- A text of the grammar closes all its brackets. -/
theorem Spells.scan_eq {nodes : List Node} {ts : List Token} (h : Spells nodes ts)
    (stack : List Token) : scan stack ts = .ok stack := by
  induction h generalizing stack with
  | nil => rfl
  | @leaf t tag nodes ts htag _ ih =>
    rw [scan]
    cases hk : t.kind <;> rw [hk] at htag <;> cases htag <;> exact ih stack
  | @list b opener closer children nodes inside ts hopen hclose _ _ ihInside ih =>
    have hfirst : scan stack (opener :: inside) = .ok (opener :: stack) := by
      rw [scan, hopen]
      exact ihInside (opener :: stack)
    rw [← List.cons_append, scan_append_ok hfirst, scan, hclose]
    dsimp only
    rw [if_pos hopen]
    exact ih stack

/-! ## 2. Telling again -/

/-- Two tokens have the same kind and the same text, and `P` relates their places. -/
structure Token.Matches (P : Position → Position → Prop) (t u : Token) : Prop where
  kind : t.kind = u.kind
  text : t.text = u.text
  position : P t.position u.position

/-- Two faults are of the same kind, and `P` relates their places. -/
structure SyntaxFault.Matches (P : Position → Position → Prop) (e f : SyntaxFault) : Prop where
  detail : e.detail = f.detail
  position : P e.position f.position

/-- The tokens of a list are told again, one after the other.  A comment may be left out. -/
inductive Retold (P : Position → Position → Prop) : List Token → List Token → Prop
  | nil : Retold P [] []
  | comment {t : Token} {ts us : List Token} : t.kind = .comment → Retold P ts us →
      Retold P (t :: ts) us
  | token {t u : Token} {ts us : List Token} : t.Matches P u → Retold P ts us →
      Retold P (t :: ts) (u :: us)

section Retelling

variable {P : Position → Position → Prop} {ts us : List Token}

/-- What two lists tell is told by two lists. -/
theorem Retold.exists_append {vs : List Token} (h : Retold P (ts ++ vs) us) :
    ∃ us₁ us₂, us = us₁ ++ us₂ ∧ Retold P ts us₁ ∧ Retold P vs us₂ := by
  induction ts generalizing us with
  | nil => exact ⟨[], us, rfl, .nil, h⟩
  | cons t ts ih =>
    cases h with
    | comment hk h =>
      obtain ⟨us₁, us₂, rfl, h₁, h₂⟩ := ih h
      exact ⟨us₁, us₂, rfl, .comment hk h₁, h₂⟩
    | @token _ u _ us htoken h =>
      obtain ⟨us₁, us₂, rfl, h₁, h₂⟩ := ih h
      exact ⟨u :: us₁, us₂, rfl, .token htoken h₁, h₂⟩

/-- A token that is no comment is told again. -/
theorem Retold.exists_cons {t : Token} (h : Retold P (t :: ts) us) (hk : t.kind ≠ .comment) :
    ∃ u us', us = u :: us' ∧ t.Matches P u ∧ Retold P ts us' := by
  cases h with
  | comment hk' => exact absurd hk' hk
  | token htoken h => exact ⟨_, _, rfl, htoken, h⟩

/-- **A scan of what is told again** comes to the same brackets, or ends at the same one. -/
theorem Retold.scan (h : Retold P ts us) {stack stack' : List Token}
    (hstack : List.Forall₂ (Token.Matches P) stack stack') :
    (∃ out out', scan stack ts = .ok out ∧ CurryLisp.scan stack' us = .ok out' ∧
      List.Forall₂ (Token.Matches P) out out') ∨
    ∃ t u, CurryLisp.scan stack ts = .error t ∧ CurryLisp.scan stack' us = .error u ∧
      t.Matches P u := by
  induction h generalizing stack stack' with
  | nil => exact Or.inl ⟨stack, stack', rfl, rfl, hstack⟩
  | comment hk _ ih =>
    rw [CurryLisp.scan, hk]
    exact ih hstack
  | @token t u ts us htoken _ ih =>
    rw [CurryLisp.scan, CurryLisp.scan, ← htoken.kind]
    cases hk : t.kind with
    | comment | string | number | symbol => exact ih hstack
    | opener b => exact ih (.cons htoken hstack)
    | closer b =>
      cases hstack with
      | nil => exact Or.inr ⟨t, u, rfl, rfl, htoken⟩
      | @cons o o' outer outer' ho houter =>
        dsimp only
        rw [← ho.kind]
        split
        · exact ih houter
        · exact Or.inr ⟨t, u, rfl, rfl, htoken⟩

theorem Retold.scan_ok (h : Retold P ts us) {out : List Token}
    (hout : CurryLisp.scan [] ts = .ok out) :
    ∃ out', CurryLisp.scan [] us = .ok out' ∧ List.Forall₂ (Token.Matches P) out out' := by
  rcases h.scan .nil with ⟨o, out', ho, hout', hall⟩ | ⟨t, u, ht, -, -⟩
  · rw [hout] at ho
    cases ho
    exact ⟨out', hout', hall⟩
  · rw [hout] at ht
    cases ht

theorem Retold.scan_error (h : Retold P ts us) {t : Token} (ht : CurryLisp.scan [] ts = .error t) :
    ∃ u, CurryLisp.scan [] us = .error u ∧ t.Matches P u := by
  rcases h.scan .nil with ⟨o, out', ho, -, -⟩ | ⟨t', u, ht', hu, hmatch⟩
  · rw [ht] at ho
    cases ho
  · rw [ht] at ht'
    cases ht'
    exact ⟨u, hu, hmatch⟩

/-- **The fault of what is told again.** -/
theorem Refused.retold {l l' : Lexed} {f : SyntaxFault} (h : Refused l f)
    (htokens : Retold P l.tokens l'.tokens)
    (hfault : Option.Rel (SyntaxFault.Matches P) l.fault l'.fault) :
    ∃ f', Refused l' f' ∧ f.Matches P f' := by
  cases h with
  | stray hstray hk =>
    obtain ⟨u, hu, hmatch⟩ := htokens.scan_error hstray
    exact ⟨_, .stray hu (hmatch.kind.symm.trans hk), rfl, hmatch.position⟩
  | stuck hstack he =>
    obtain ⟨out', hout', -⟩ := htokens.scan_ok hstack
    rw [he] at hfault
    cases hl : l'.fault <;> rw [hl] at hfault <;> cases hfault
    next e' hmatch => exact ⟨e', .stuck hout' hl, hmatch⟩
  | unclosed hstack hnone hopen =>
    obtain ⟨out', hout', hall⟩ := htokens.scan_ok hstack
    rw [hnone] at hfault
    cases hl : l'.fault <;> rw [hl] at hfault <;> cases hfault
    cases hall with
    | cons hmatch _ =>
      exact ⟨_, .unclosed hout' hl (hmatch.kind.symm.trans hopen), rfl, hmatch.position⟩

/-! ## 3. Values -/

/-- The place of a node makes no difference to its value. -/
theorem Value.ofNode_congr (tag : Tag) (contents : String) (p q : Position) {ns ms : List Node}
    (h : ofNodes ns = ofNodes ms) :
    ofNode ⟨tag, contents, ns, p⟩ = ofNode ⟨tag, contents, ms, q⟩ := by
  cases tag <;> simp only [ofNode, h]

theorem Value.ofNodes_cons_congr {n m : Node} {ns ms : List Node} (htag : n.tag = m.tag)
    (hhead : ofNode n = ofNode m) (htail : ofNodes ns = ofNodes ms) :
    ofNodes (n :: ns) = ofNodes (m :: ms) := by
  rw [ofNodes, ofNodes, htag, hhead, htail]

/-- **The values of what is told again.** -/
theorem Spells.retold {nodes : List Node} (h : Spells nodes ts) (hus : Retold P ts us) :
    ∃ nodes', Spells nodes' us ∧ Value.ofNodes nodes' = Value.ofNodes nodes := by
  induction h generalizing us with
  | nil =>
    cases hus
    exact ⟨[], .nil, rfl⟩
  | @leaf t tag nodes ts htag _ ih =>
    cases hus with
    | comment hk hus =>
      obtain ⟨nodes', hspells, hvalues⟩ := ih hus
      refine ⟨nodes', hspells, ?_⟩
      rw [hk] at htag
      cases htag
      rw [hvalues, Value.ofNodes, Node.leaf, if_pos rfl]
    | @token _ u _ us hmatch hus =>
      obtain ⟨nodes', hspells, hvalues⟩ := ih hus
      rw [hmatch.kind] at htag
      refine ⟨.leaf tag u :: nodes', .leaf htag hspells, ?_⟩
      refine Value.ofNodes_cons_congr rfl ?_ hvalues
      rw [Node.leaf, Node.leaf, hmatch.text]
      exact Value.ofNode_congr _ _ _ _ rfl
  | @list b opener closer children nodes inside ts hopen hclose _ _ ihInside ih =>
    have hno : ∀ {t : Token} {b : Bracket}, t.kind = .opener b ∨ t.kind = .closer b →
        t.kind ≠ .comment := by
      rintro t b (h | h) <;> rw [h] <;> exact TokenKind.noConfusion
    obtain ⟨o, us₁, rfl, ho, hus⟩ := hus.exists_cons (hno (.inl hopen))
    obtain ⟨us₂, us₃, rfl, hinside, hus⟩ := hus.exists_append
    obtain ⟨c, us₄, rfl, hc, hus⟩ := hus.exists_cons (hno (.inr hclose))
    obtain ⟨children', hspells', hvalues'⟩ := ihInside hinside
    obtain ⟨nodes', hspells, hvalues⟩ := ih hus
    refine ⟨.list b o children' :: nodes',
      .list (ho.kind ▸ hopen) (hc.kind ▸ hclose) hspells' hspells, ?_⟩
    refine Value.ofNodes_cons_congr rfl ?_ hvalues
    rw [Node.list, Node.list, ho.text]
    exact Value.ofNode_congr _ _ _ _ hvalues'

end Retelling

/-! ## 4. Whole texts -/

/-- **Texts that say the same are read alike.**  Both can be parsed and the same is read from them,
or both are refused with the same fault, at places that `P` relates. -/
theorem parse_retold {P : Position → Position → Prop} {source source' : String}
    (htokens : Retold P (lex source).tokens (lex source').tokens)
    (hfault : Option.Rel (SyntaxFault.Matches P) (lex source).fault (lex source').fault) :
    (∃ nodes nodes', parse source = .ok nodes ∧ parse source' = .ok nodes' ∧
      Value.ofNodes nodes' = Value.ofNodes nodes) ∨
    ∃ f f', parse source = .error f ∧ parse source' = .error f' ∧ f.Matches P f' := by
  cases hparse : parse source with
  | ok nodes =>
    obtain ⟨hnone, hspells⟩ := parse_eq_ok_iff.mp hparse
    obtain ⟨nodes', hspells', hvalues⟩ := hspells.retold htokens
    have hnone' : (lex source').fault = none := by
      rw [hnone] at hfault
      cases hl : (lex source').fault with
      | none => rfl
      | some e =>
        rw [hl] at hfault
        cases hfault
    exact Or.inl ⟨nodes, nodes', rfl, parse_eq_ok_iff.mpr ⟨hnone', hspells'⟩, hvalues⟩
  | error f =>
    obtain ⟨f', hrefused, hmatch⟩ := (parse_eq_error_iff.mp hparse).retold htokens hfault
    exact Or.inr ⟨f, f', rfl, parse_eq_error_iff.mpr hrefused, hmatch⟩

end CurryLisp

/-
# A stream keeps its place

A stream is cut as it is used, and it may have looked one token ahead.  Whatever has been done with
it, it stands somewhere in the text: before one of the tokens that the whole text is cut into, or
past them all.  Nothing of what is left is lost, repeated or moved (`TokenStream.StandsAt`).

What a step answers depends on the place alone.  `Found` says it for one form: the tokens from here
on spell it, or they do not, and then the fault is the one that a scan comes to.  A closing bracket
that is refused stays in the stream.  A fault of the characters is reported by the step that comes
to it, and the stream is at its end after that.

* `TokenStream.left`: what a stream will still give, as a text that has been cut;
* `TokenStream.form_found`: one form, where the invariant is that the form is unfinished;
* `TokenStream.forms_found`: all forms, one after the other;
* `stream_keeps_its_place`: any steps in any order;
* `forms_ofSource`: all forms of a stream are the forms of its text.
-/
import CurryLisp.Proofs.Places
import CurryLisp.Proofs.Retelling
import CurryLisp.Syntax.Stream

namespace CurryLisp

/-! ## 1. What is left -/

/-- One token off the front of what is left, or the fault after the last one, or nothing. -/
inductive Lexed.Next : Lexed → Except SyntaxFault (Option Token) → Lexed → Prop
  | token {t : Token} {l : Lexed} : Next (.cons t l) (.ok (some t)) l
  | stuck {e : SyntaxFault} : Next ⟨[], some e⟩ (.error e) ⟨[], none⟩
  | nothing : Next ⟨[], none⟩ (.ok none) ⟨[], none⟩

namespace Lexed.Next

variable {l l' : Lexed}

theorem of_error {e : SyntaxFault} (h : Next l (.error e) l') :
    l = ⟨[], some e⟩ ∧ l' = ⟨[], none⟩ := by
  cases h
  exact ⟨rfl, rfl⟩

theorem of_none (h : Next l (.ok none) l') : l = ⟨[], none⟩ ∧ l' = ⟨[], none⟩ := by
  cases h
  exact ⟨rfl, rfl⟩

theorem of_token {t : Token} (h : Next l (.ok (some t)) l') : l = .cons t l' := by
  cases h
  rfl

end Lexed.Next

/-- The tokens that are still to be cut, and the fault after them. -/
def Cutting.left : Cutting → Lexed
  | within p rest => lexFrom p rest
  | ended => ⟨[], none⟩

theorem Cutting.next_nextFrom (p : Position) (cs : List Char) :
    (lexFrom p cs).Next (nextFrom p cs).1 (nextFrom p cs).2.left := by
  fun_induction nextFrom p cs with
  | case1 p =>
    rw [lexFrom_nil]
    exact .nothing
  | case2 p c rest hblank ih =>
    rw [lexFrom_blank p rest hblank]
    exact ih
  | case3 p c rest hblank hl =>
    rw [lexFrom_stuck p (Bool.eq_false_iff.mpr hblank) hl]
    exact .stuck
  | case4 p c rest hblank l hl =>
    rw [lexFrom_lexeme p (Bool.eq_false_iff.mpr hblank) hl]
    exact .token

/-- **Cutting one token** takes it off what is left. -/
theorem Cutting.next_left (c : Cutting) : c.left.Next c.next.1 c.next.2.left := by
  cases c with
  | within p rest => exact next_nextFrom p rest
  | ended => exact .nothing

namespace TokenStream

/-- What a stream will still give: the token that has been looked at, and what is still uncut. -/
def left (s : TokenStream) : Lexed := s.cutting.left.prepend s.ahead.toList

/-- **Using a token** takes it off what is left. -/
theorem advance_left (s : TokenStream) : s.left.Next s.advance.1 s.advance.2.left := by
  obtain ⟨_ | t, cutting⟩ := s
  · exact cutting.next_left
  · exact .token

variable {s s' : TokenStream}

/-- Looking at a token leaves everything there, and the token is used next. -/
theorem left_of_peek_token {t : Token} (h : s.peek = (.ok (some t), s')) :
    s'.left = s.left ∧ s.left = .cons t s'.advance.2.left := by
  obtain ⟨_ | u, cutting⟩ := s
  · have hnext := cutting.next_left
    rw [peek] at h
    dsimp only at h
    split at h
    · next u c hcut =>
      cases h
      rw [hcut] at hnext
      exact ⟨hnext.of_token.symm, hnext.of_token⟩
    · cases h
  · cases h
    exact ⟨rfl, rfl⟩

/-- When looking for a token comes to no token, nothing is left after it. -/
theorem left_of_peek_end {r : Except SyntaxFault (Option Token)} (h : s.peek = (r, s'))
    (hr : ∀ t, r ≠ .ok (some t)) : s.left.Next r s'.left := by
  obtain ⟨_ | u, cutting⟩ := s
  · have hnext := cutting.next_left
    rw [peek] at h
    dsimp only at h
    split at h
    · next u c hcut =>
      cases h
      rw [hcut] at hnext
      cases u with
      | none => exact hnext
      | some t => exact absurd rfl (hr t)
    · next e c hcut =>
      cases h
      rw [hcut] at hnext
      exact hnext
  · cases h
    exact absurd rfl (hr u)

theorem left_of_peek_error {e : SyntaxFault} (h : s.peek = (.error e, s')) :
    s.left = ⟨[], some e⟩ ∧ s'.left = ⟨[], none⟩ :=
  (left_of_peek_end h fun t ht => by cases ht).of_error

theorem left_of_peek_none (h : s.peek = (.ok none, s')) :
    s.left = ⟨[], none⟩ ∧ s'.left = ⟨[], none⟩ :=
  (left_of_peek_end h fun t ht => by cases ht).of_none

end TokenStream

/-! ## 2. Places -/

/-- Where a stream stands: before the token of an index, or, with the index past the last token, at
the end; or past the fault of the characters, when it has been reported. -/
inductive Place
  | before (i : Nat)
  | past
  deriving DecidableEq, Repr

/-- The stream stands at a place of a text: what it will still give is what the text has from there
on. -/
def TokenStream.StandsAt (s : TokenStream) (l : Lexed) : Place → Prop
  | .before i => i ≤ l.tokens.length ∧ s.left = ⟨l.tokens.drop i, l.fault⟩
  | .past => s.left = ⟨[], none⟩

/-- No form ends within these tokens: after each of them a bracket is open. -/
def Unfinished (ts : List Token) : Prop :=
  ∀ before, before <+: ts → before ≠ [] → ∃ o outer, scan [] before = .ok (o :: outer)

section Found

variable (l : Lexed)

/-- What there is at a place: the token of its index, the fault after the last one, or nothing. -/
inductive Seen : Place → Except SyntaxFault (Option Token) → Place → Prop
  | token {i : Nat} {t : Token} : l.tokens[i]? = some t →
      Seen (.before i) (.ok (some t)) (.before i)
  | stuck {e : SyntaxFault} : l.fault = some e →
      Seen (.before l.tokens.length) (.error e) .past
  | nothing : l.fault = none →
      Seen (.before l.tokens.length) (.ok none) (.before l.tokens.length)
  | past : Seen .past (.ok none) .past

/-- The form that begins at a place, and the place after it. -/
inductive Found : Place → Except SyntaxFault (Option Node) → Place → Prop
  /-- the next tokens spell a tree, and it is flattened to them -/
  | node {i : Nat} {n : Node} {ts rest : List Token} : l.tokens.drop i = ts ++ rest →
      Spells [n] ts → n.flatten = ts.map Token.mark →
      Found (.before i) (.ok (some n)) (.before (i + ts.length))
  /-- before the form is finished there is a closing bracket that is refused; it is not used -/
  | stray {i : Nat} {t : Token} {b : Bracket} {ts rest : List Token} :
      l.tokens.drop i = ts ++ t :: rest → Unfinished ts → t.kind = .closer b →
      scan [] (ts ++ [t]) = .error t →
      Found (.before i) (.error ⟨.strayCloser b, t.position⟩) (.before (i + ts.length))
  /-- the tokens end at a fault of the characters before the form is finished, or begun -/
  | stuck {i : Nat} {e : SyntaxFault} : Unfinished (l.tokens.drop i) → l.fault = some e →
      Found (.before i) (.error e) .past
  /-- the text ends before the form is finished; the innermost open bracket is reported -/
  | unclosed {i : Nat} {o : Token} {outer : List Token} {b : Bracket} :
      Unfinished (l.tokens.drop i) → l.fault = none →
      scan [] (l.tokens.drop i) = .ok (o :: outer) → o.kind = .opener b →
      Found (.before i) (.error ⟨.unclosed b, o.position⟩) (.before l.tokens.length)
  /-- at the end there is no form -/
  | nothing : l.fault = none →
      Found (.before l.tokens.length) (.ok none) (.before l.tokens.length)
  | past : Found .past (.ok none) .past

/-- The forms from a place on, up to the end or to the first that is not found. -/
inductive FoundAll : Place → Except SyntaxFault (List Node) → Place → Prop
  | nothing {p q : Place} : Found l p (.ok none) q → FoundAll p (.ok []) q
  | fault {p q : Place} {e : SyntaxFault} : Found l p (.error e) q → FoundAll p (.error e) q
  | node {p q p' : Place} {n : Node} {r : Except SyntaxFault (List Node)} :
      Found l p (.ok (some n)) q → FoundAll q r p' → FoundAll p (r.map (n :: ·)) p'

end Found

/-! ## 3. One token -/

namespace TokenStream

variable {s s' : TokenStream} {l : Lexed} {p : Place}

/-- A stream over a text stands before its first token. -/
theorem standsAt_ofSource (source : String) : (ofSource source).StandsAt (lex source) (.before 0) :=
  ⟨Nat.zero_le _, rfl⟩

/-- A stream that stands before a token gives that token. -/
theorem StandsAt.token {t : Token} {left : Lexed} (h : s.StandsAt l p)
    (hleft : s.left = .cons t left) :
    ∃ i, p = .before i ∧ l.tokens[i]? = some t ∧ left = ⟨l.tokens.drop (i + 1), l.fault⟩ := by
  cases p with
  | past =>
    have hpast : s.left = ⟨[], none⟩ := h
    rw [hleft] at hpast
    cases hpast
  | before i =>
    obtain ⟨-, hrest⟩ := h
    rw [hleft, Lexed.mk.injEq] at hrest
    obtain ⟨htokens, hfault⟩ := hrest
    obtain ⟨ts, fault⟩ := left
    have htail : l.tokens.drop (i + 1) = ts := by rw [← List.tail_drop, ← htokens]; rfl
    refine ⟨i, rfl, ?_, ?_⟩
    · rw [← List.head?_drop, ← htokens]
      rfl
    · rw [htail]
      exact congrArg (Lexed.mk ts) hfault

/-- Where a stream stands is seen from what is left. -/
theorem StandsAt.of_left_eq (h : s.StandsAt l p) (hleft : s'.left = s.left) :
    s'.StandsAt l p := by
  cases p with
  | before i => exact ⟨h.1, hleft.trans h.2⟩
  | past => exact hleft.trans h

/-- A token that is looked at stays. -/
theorem StandsAt.of_peek_token {t : Token} (h : s.StandsAt l p)
    (hpeek : s.peek = (.ok (some t), s')) : s'.StandsAt l p :=
  h.of_left_eq (left_of_peek_token hpeek).1

/-- A stream that gives a token goes on after it. -/
theorem StandsAt.next {i : Nat} {t : Token} (ht : l.tokens[i]? = some t)
    (hleft : s.left = ⟨l.tokens.drop (i + 1), l.fault⟩) : s.StandsAt l (.before (i + 1)) :=
  ⟨(List.getElem?_eq_some_iff.mp ht).1, hleft⟩

/-- A stream stands after some tokens when it will give what comes after them. -/
theorem StandsAt.after {i : Nat} {ts : List Token} (hi : i ≤ l.tokens.length)
    (htokens : l.tokens.drop i = ts ++ s.left.tokens) (hfault : l.fault = s.left.fault) :
    s.StandsAt l (.before (i + ts.length)) := by
  constructor
  · have hlength := congrArg List.length htokens
    rw [List.length_drop, List.length_append] at hlength
    omega
  · rw [← List.drop_drop, htokens, List.drop_left, hfault]

/-- A stream that has come to no token stands at the end, or past the fault. -/
theorem StandsAt.ending {r : Except SyntaxFault (Option Token)} (h : s.StandsAt l p)
    (hr : ∀ t, r ≠ .ok (some t)) (hnext : s.left.Next r s'.left) :
    ∃ q, Seen l p r q ∧ s'.StandsAt l q := by
  generalize hleft : s.left = left, hleft' : s'.left = left' at hnext
  cases p with
  | past =>
    have hpast : left = ⟨[], none⟩ := hleft.symm.trans h
    subst hpast
    cases hnext
    exact ⟨.past, .past, hleft'⟩
  | before i =>
    obtain ⟨hi, hrest⟩ := h
    rw [hleft] at hrest
    have hlast : l.tokens.drop i = [] → i = l.tokens.length := fun hnil =>
      Nat.le_antisymm hi (List.drop_eq_nil_iff.mp hnil)
    cases hnext with
    | @token t => exact absurd rfl (hr t)
    | stuck =>
      obtain ⟨htokens, hfault⟩ := Lexed.mk.inj hrest
      cases hlast htokens.symm
      exact ⟨.past, .stuck hfault.symm, hleft'⟩
    | nothing =>
      obtain ⟨htokens, hfault⟩ := Lexed.mk.inj hrest
      cases hlast htokens.symm
      exact ⟨_, .nothing hfault.symm, Nat.le_refl _, hleft'.trans (hleft ▸ hrest)⟩

/-- **Looking** gives what there is, and stays. -/
theorem peek_seen (h : s.StandsAt l p) : ∃ q, Seen l p s.peek.1 q ∧ s.peek.2.StandsAt l q := by
  rcases hpeek : s.peek with ⟨r, s'⟩
  by_cases hr : ∃ t, r = .ok (some t)
  · obtain ⟨t, rfl⟩ := hr
    obtain ⟨i, rfl, ht, -⟩ := h.token (left_of_peek_token hpeek).2
    exact ⟨.before i, .token ht, h.of_peek_token hpeek⟩
  · have hr : ∀ t, r ≠ .ok (some t) := fun t ht => hr ⟨t, ht⟩
    exact h.ending hr (left_of_peek_end hpeek hr)

/-- **Using** gives what there is, and goes on when it is a token. -/
theorem advance_seen (h : s.StandsAt l p) :
    (∃ i t, p = .before i ∧ l.tokens[i]? = some t ∧ s.advance.1 = .ok (some t) ∧
      s.advance.2.StandsAt l (.before (i + 1))) ∨
    (∀ t, s.advance.1 ≠ .ok (some t)) ∧ ∃ q, Seen l p s.advance.1 q ∧ s.advance.2.StandsAt l q := by
  have hnext := s.advance_left
  by_cases hr : ∃ t, s.advance.1 = .ok (some t)
  · obtain ⟨t, ht⟩ := hr
    rw [ht] at hnext
    obtain ⟨i, hp, hi, hrest⟩ := h.token hnext.of_token
    exact Or.inl ⟨i, t, hp, hi, ht, .next hi hrest⟩
  · have hr : ∀ t, s.advance.1 ≠ .ok (some t) := fun t ht => hr ⟨t, ht⟩
    exact Or.inr ⟨hr, h.ending hr hnext⟩

end TokenStream

/-! ## 4. One form -/

/-- An unfinished form has no closing bracket that is refused. -/
theorem Unfinished.exists_scan {ts : List Token} (h : Unfinished ts) :
    ∃ stack, scan [] ts = .ok stack := by
  by_cases hne : ts = []
  · exact ⟨[], by rw [hne]; rfl⟩
  · obtain ⟨o, outer, hscan⟩ := h ts (List.prefix_refl _) hne
    exact ⟨_, hscan⟩

theorem unfinished_nil : Unfinished [] :=
  fun _ hprefix hne => absurd (List.prefix_nil.mp hprefix) hne

/-- A form that is unfinished stays so with one more token, when a bracket is open after it. -/
theorem Unfinished.concat {ts : List Token} {t o : Token} {outer : List Token}
    (h : Unfinished ts) (hscan : scan [] (ts ++ [t]) = .ok (o :: outer)) :
    Unfinished (ts ++ [t]) := by
  intro before hprefix hne
  rcases List.prefix_concat_iff.mp hprefix with rfl | hprefix
  · exact ⟨o, outer, hscan⟩
  · exact h before hprefix hne

/-- A token that joins a forest without finished forms finishes one, or leaves a list open. -/
theorem Forest.push_unfinished {f f' : Forest} {t : Token} (hforms : f.forms = [])
    (h : f.push t = .ok f') : (∃ n, f' = ⟨[], [n]⟩) ∨ ∃ o outer, f' = ⟨o :: outer, []⟩ := by
  have add : ∀ (lists : List OpenList) (n : Node),
      (∃ m, Forest.add ⟨lists, []⟩ n = ⟨[], [m]⟩) ∨
        ∃ o outer, Forest.add ⟨lists, []⟩ n = ⟨o :: outer, []⟩ := by
    rintro (_ | ⟨o, outer⟩) n
    · exact Or.inl ⟨n, rfl⟩
    · exact Or.inr ⟨_, outer, rfl⟩
  obtain ⟨lists, forms⟩ := f
  obtain rfl : forms = [] := hforms
  rw [push] at h
  split at h
  case h_1 | h_2 | h_3 | h_4 =>
    cases h
    exact add lists _
  case h_5 b _ =>
    cases h
    exact Or.inr ⟨_, _, rfl⟩
  case h_6 b _ =>
    dsimp only at h
    split at h
    · cases h
    · split at h
      · cases h
        exact add _ _
      · cases h

namespace TokenStream

/-- In the middle of a form that begins before the token of an index: these tokens of it have been
read into a forest, they do not finish it, and the others are left. -/
structure MidForm (l : Lexed) (i : Nat) (seen : List Token) (f : Forest) (s : TokenStream) :
    Prop where
  inside : i ≤ l.tokens.length
  hasRead : f.HasRead seen
  forms : f.forms = []
  unfinished : Unfinished seen
  scanned : scan [] seen = .ok f.stack
  tokens : l.tokens.drop i = seen ++ s.left.tokens
  fault : l.fault = s.left.fault

namespace MidForm

variable {l : Lexed} {i : Nat} {seen : List Token} {f f' : Forest} {s s' : TokenStream} {t : Token}

/-- A form begins with nothing read. -/
theorem start (h : s.StandsAt l (.before i)) : MidForm l i [] {} s where
  inside := h.1
  hasRead := .empty
  forms := rfl
  unfinished := unfinished_nil
  scanned := rfl
  tokens := by rw [h.2]; rfl
  fault := by rw [h.2]

/-- Nothing has been read, or a bracket is open. -/
theorem seen_eq_nil_or (h : MidForm l i seen f s) :
    seen = [] ∨ ∃ o outer, f.openLists = o :: outer := by
  by_cases hne : seen = []
  · exact Or.inl hne
  · obtain ⟨t, outer, hscan⟩ := h.unfinished seen (List.prefix_refl _) hne
    rw [h.scanned] at hscan
    cases hlists : f.openLists with
    | nil =>
      rw [Forest.stack, hlists] at hscan
      cases hscan
    | cons o outer => exact Or.inr ⟨o, outer, rfl⟩

/-- What a scan comes to when the next token is taken. -/
theorem scan_concat (h : MidForm l i seen f s) (t : Token) :
    scan [] (seen ++ [t]) = scan f.stack [t] :=
  scan_append_ok h.scanned [t]

/-- **One more token** is refused, or finishes the form, or leaves it unfinished. -/
theorem push (h : MidForm l i seen f s) (hleft : s.left = .cons t s'.left) :
    (∃ b, t.kind = .closer b ∧ f.push t = .error ⟨.strayCloser b, t.position⟩ ∧
      scan [] (seen ++ [t]) = .error t) ∨
    (∃ n, f.push t = .ok ⟨[], [n]⟩ ∧ Spells [n] (seen ++ [t])) ∨
    ∃ o outer, f.push t = .ok ⟨o :: outer, []⟩ ∧ MidForm l i (seen ++ [t]) ⟨o :: outer, []⟩ s' := by
  rcases h.hasRead.push t with ⟨f', hpush, hread, hscan⟩ | ⟨b, hk, hpush, hscan⟩
  · rcases Forest.push_unfinished h.forms hpush with ⟨n, rfl⟩ | ⟨o, outer, rfl⟩
    · exact Or.inr (Or.inl ⟨n, hpush, hread.spells⟩)
    · have hscanned : scan [] (seen ++ [t]) = .ok (Forest.stack ⟨o :: outer, []⟩) := by
        rw [h.scan_concat, hscan]
        rfl
      refine Or.inr (Or.inr ⟨o, outer, hpush, ?_⟩)
      exact {
        inside := h.inside
        hasRead := hread
        forms := rfl
        unfinished := h.unfinished.concat hscanned
        scanned := hscanned
        tokens := by rw [h.tokens, hleft, List.append_assoc]; rfl
        fault := by rw [h.fault, hleft]; rfl }
  · exact Or.inl ⟨b, hk, hpush, (h.scan_concat t).trans (hscan [])⟩

/-- When the text ends in the middle of a form, all of it has been read. -/
theorem drop_eq (h : MidForm l i seen f s) (hleft : s.left.tokens = []) :
    l.tokens.drop i = seen := by
  rw [h.tokens, hleft, List.append_nil]

/-- In the middle of a form the next token comes after those that have been read. -/
theorem drop_eq_cons {left : Lexed} (h : MidForm l i seen f s) (hleft : s.left = .cons t left) :
    l.tokens.drop i = seen ++ t :: left.tokens := by
  rw [h.tokens, hleft]
  rfl

/-- **Reading on** from the middle of a form finds it. -/
theorem readForm_found (hproper : ∀ t ∈ l.tokens, t.Proper) (h : MidForm l i seen f s) :
    ∃ q, Found l (.before i) (readForm f s).1 q ∧ (readForm f s).2.StandsAt l q := by
  fun_induction readForm f s generalizing seen with
  | case1 f s e s' hpeek =>
    obtain ⟨hleft, hleft'⟩ := left_of_peek_error hpeek
    refine ⟨.past, .stuck ?_ ?_, hleft'⟩
    · rw [h.drop_eq (by rw [hleft])]
      exact h.unfinished
    · rw [h.fault, hleft]
  | case2 f s s' hpeek hlists =>
    obtain ⟨hleft, hleft'⟩ := left_of_peek_none hpeek
    have hfault : l.fault = none := by rw [h.fault, hleft]
    rcases h.seen_eq_nil_or with rfl | ⟨o, outer, hopen⟩
    · have hlast : i = l.tokens.length :=
        Nat.le_antisymm h.inside (List.drop_eq_nil_iff.mp (h.drop_eq (by rw [hleft])))
      subst hlast
      exact ⟨_, .nothing hfault, Nat.le_refl _, by rw [hleft', List.drop_length, hfault]⟩
    · rw [hlists] at hopen
      cases hopen
  | case3 f s s' hpeek o outer hlists =>
    obtain ⟨hleft, hleft'⟩ := left_of_peek_none hpeek
    have hfault : l.fault = none := by rw [h.fault, hleft]
    have hdrop := h.drop_eq (by rw [hleft])
    obtain ⟨lists, forms⟩ := f
    obtain rfl : lists = o :: outer := hlists
    refine ⟨.before l.tokens.length, .unclosed (hdrop ▸ h.unfinished) hfault
      (hdrop ▸ h.scanned) h.hasRead.opener.1, Nat.le_refl _, ?_⟩
    rw [hleft', List.drop_length, hfault]
  | case4 f s t s' hpeek e hpush =>
    obtain ⟨hsame, hleft⟩ := left_of_peek_token hpeek
    rcases h.push hleft with ⟨b, hk, hpush', hscan⟩ | ⟨n, hpush', -⟩ | ⟨o, outer, hpush', -⟩ <;>
      rw [hpush] at hpush' <;> cases hpush'
    exact ⟨_, .stray (h.drop_eq_cons hleft) h.unfinished hk hscan,
      .after h.inside (hsame ▸ h.tokens) (hsame ▸ h.fault)⟩
  | case5 f s t s' hpeek f' hpush n more hforms hlists =>
    obtain ⟨-, hleft⟩ := left_of_peek_token hpeek
    obtain ⟨lists, forms⟩ := f'
    obtain ⟨rfl, rfl⟩ : lists = [] ∧ forms = n :: more := ⟨hlists, hforms⟩
    rcases h.push hleft with ⟨b, -, hpush', -⟩ | ⟨m, hpush', hspells⟩ | ⟨o, outer, hpush', -⟩ <;>
      rw [hpush] at hpush' <;> cases hpush'
    have hdrop : l.tokens.drop i = (seen ++ [t]) ++ s'.advance.2.left.tokens := by
      rw [h.drop_eq_cons hleft, List.append_assoc]
      rfl
    have hflatten : n.flatten = (seen ++ [t]).map Token.mark := by
      have hall := hspells.flattenAll fun u hu =>
        hproper u (List.mem_of_mem_drop (hdrop ▸ List.mem_append_left _ hu))
      rwa [Node.flattenAll, Node.flattenAll, List.append_nil] at hall
    refine ⟨_, .node hdrop hspells hflatten, .after h.inside hdrop ?_⟩
    rw [h.fault, hleft]
    rfl
  | case6 f s t s' hpeek f' hpush hnot ih =>
    obtain ⟨-, hleft⟩ := left_of_peek_token hpeek
    rcases h.push hleft with ⟨b, -, hpush', -⟩ | ⟨n, hpush', -⟩ | ⟨o, outer, hpush', hmid⟩ <;>
      rw [hpush] at hpush' <;> cases hpush'
    · exact absurd rfl (hnot n [] rfl)
    · exact ih hmid

end MidForm

variable {l : Lexed} {s : TokenStream} {p : Place}

/-- **Reading a form** finds the form that begins where the stream stands. -/
theorem form_found (hproper : ∀ t ∈ l.tokens, t.Proper) (h : s.StandsAt l p) :
    ∃ q, Found l p s.form.1 q ∧ s.form.2.StandsAt l q := by
  cases p with
  | before i => exact (MidForm.start h).readForm_found hproper
  | past =>
    -- Past the fault, looking for a token comes to nothing, and no list is open.
    rcases hpeek : s.peek with ⟨r, s'⟩
    obtain ⟨q, hseen, hstands⟩ := s.peek_seen h
    rw [hpeek] at hseen hstands
    cases hseen
    rw [form, readForm, hpeek]
    exact ⟨.past, .past, hstands⟩

/-! ## 5. All forms -/

/-- **Reading all forms** is reading one after the other. -/
theorem forms_found (hproper : ∀ t ∈ l.tokens, t.Proper) (h : s.StandsAt l p) :
    ∃ q, FoundAll l p s.forms.1 q ∧ s.forms.2.StandsAt l q := by
  fun_induction forms s generalizing p with
  | case1 s e s' hpeek =>
    obtain ⟨q, hfound, hstands⟩ := form_found hproper h
    rw [form, readForm, hpeek] at hfound hstands
    exact ⟨q, .fault hfound, hstands⟩
  | case2 s s' hpeek =>
    obtain ⟨q, hfound, hstands⟩ := form_found hproper h
    rw [form, readForm, hpeek] at hfound hstands
    exact ⟨q, .nothing hfound, hstands⟩
  | case3 s t s' hpeek e u hform =>
    obtain ⟨q, hfound, hstands⟩ := form_found hproper (h.of_peek_token hpeek)
    rw [hform] at hfound hstands
    exact ⟨q, .fault hfound, hstands⟩
  | case4 s t s' hpeek u hform =>
    obtain ⟨q, hfound, hstands⟩ := form_found hproper (h.of_peek_token hpeek)
    rw [hform] at hfound hstands
    exact ⟨q, .nothing hfound, hstands⟩
  | case5 s t s' hpeek n u hform r v hforms ih =>
    obtain ⟨q, hfound, hstands⟩ := form_found hproper (h.of_peek_token hpeek)
    rw [hform] at hfound hstands
    obtain ⟨q', hall, hstands'⟩ := ih hstands
    rw [hforms] at hall hstands'
    exact ⟨q', .node hfound hall, hstands'⟩

end TokenStream

/-- The forms from a place on are those that the tokens from there on spell, if they spell any and
no fault comes after them; otherwise the text from there on is refused with the fault. -/
theorem FoundAll.spells_or_refused {l : Lexed} {i : Nat} {q : Place}
    {r : Except SyntaxFault (List Node)} (h : FoundAll l (.before i) r q) :
    (∃ nodes, r = .ok nodes ∧ l.fault = none ∧ Spells nodes (l.tokens.drop i)) ∨
      ∃ e, r = .error e ∧ Refused ⟨l.tokens.drop i, l.fault⟩ e := by
  generalize hp : Place.before i = p at h
  induction h generalizing i with
  | nothing hfound =>
    subst hp
    cases hfound with
    | nothing hfault =>
      rw [List.drop_length]
      exact Or.inl ⟨[], rfl, hfault, .nil⟩
  | fault hfound =>
    subst hp
    refine Or.inr ⟨_, rfl, ?_⟩
    cases hfound with
    | @stray _ t b ts rest htokens _ hk hscan =>
      refine .stray ?_ hk
      have hsplit : l.tokens.drop i = (ts ++ [t]) ++ rest := by
        rw [htokens, List.append_assoc]
        rfl
      rw [hsplit, scan_append_error hscan]
    | stuck hunf hfault =>
      obtain ⟨stack, hscan⟩ := hunf.exists_scan
      exact .stuck hscan hfault
    | unclosed hunf hfault hscan hopen => exact .unclosed hscan hfault hopen
  | node hfound _ ih =>
    subst hp
    cases hfound with
    | @node _ n ts rest htokens hspells =>
      have hrest : l.tokens.drop (i + ts.length) = rest := by
        rw [← List.drop_drop, htokens, List.drop_left]
      have ih := ih rfl
      rw [hrest] at ih
      rw [htokens]
      rcases ih with ⟨nodes, rfl, hfault, hmore⟩ | ⟨e, rfl, hrefused⟩
      · exact Or.inl ⟨_, rfl, hfault, hspells.append hmore⟩
      · exact Or.inr ⟨e, rfl, hrefused.prepend (hspells.scan_eq [])⟩

/-- **Read form by form, a text is read as a whole.** -/
theorem forms_ofSource (source : String) :
    (TokenStream.ofSource source).forms.1 = parse source := by
  obtain ⟨q, hall, -⟩ := TokenStream.forms_found (fun _ ht => proper_of_mem_lex ht)
    (TokenStream.standsAt_ofSource source)
  rcases hall.spells_or_refused with ⟨nodes, hr, hspells⟩ | ⟨e, hr, hrefused⟩
  · exact hr.trans (parse_eq_ok_iff.mpr hspells).symm
  · exact hr.trans (parse_eq_error_iff.mpr hrefused).symm

/-! ## 6. Any steps -/

/-- What can be done with a stream. -/
inductive StreamStep
  | peek
  | advance
  | form
  | forms
  deriving DecidableEq, Repr

/-- What a step gives when it does not fail. -/
inductive StreamGift
  | token (t : Option Token)
  | form (n : Option Node)
  | forms (ns : List Node)

/-- The gift of a stream that is at its end. -/
def StreamGift.IsNothing (g : StreamGift) : Prop := g = .token none ∨ g = .form none ∨ g = .forms []

/-- A gift, or the fault that is reported instead. -/
abbrev StreamAnswer := Except SyntaxFault StreamGift

namespace TokenStream

/-- Does one step. -/
def take (s : TokenStream) : StreamStep → StreamAnswer × TokenStream
  | .peek => s.peek.map (Except.map .token) id
  | .advance => s.advance.map (Except.map .token) id
  | .form => s.form.map (Except.map .form) id
  | .forms => s.forms.map (Except.map .forms) id

/-- Does some steps, whatever their answers are. -/
def takeAll (s : TokenStream) : List StreamStep → List StreamAnswer × TokenStream
  | [] => ([], s)
  | step :: rest =>
    (((s.take step).1 :: ((s.take step).2.takeAll rest).1), ((s.take step).2.takeAll rest).2)

end TokenStream

section Took

variable (l : Lexed)

/-- What a step answers at a place, and the place after it. -/
inductive Took : Place → StreamStep → StreamAnswer → Place → Prop
  | peek {p q : Place} {r : Except SyntaxFault (Option Token)} : Seen l p r q →
      Took p .peek (r.map .token) q
  | advance {i : Nat} {t : Token} : l.tokens[i]? = some t →
      Took (.before i) .advance (.ok (.token (some t))) (.before (i + 1))
  | advance_end {p q : Place} {r : Except SyntaxFault (Option Token)} : Seen l p r q →
      (∀ t, r ≠ .ok (some t)) → Took p .advance (r.map .token) q
  | form {p q : Place} {r : Except SyntaxFault (Option Node)} : Found l p r q →
      Took p .form (r.map .form) q
  | forms {p q : Place} {r : Except SyntaxFault (List Node)} : FoundAll l p r q →
      Took p .forms (r.map .forms) q

/-- What some steps answer, one after the other. -/
inductive TookAll : Place → List StreamStep → List StreamAnswer → Place → Prop
  | nil {p : Place} : TookAll p [] [] p
  | cons {p q p' : Place} {step : StreamStep} {answer : StreamAnswer} {steps : List StreamStep}
      {answers : List StreamAnswer} : Took l p step answer q → TookAll q steps answers p' →
      TookAll p (step :: steps) (answer :: answers) p'

end Took

/-- **One step** answers as its place says, and the stream stands at the place after it. -/
theorem TokenStream.take_took {l : Lexed} {s : TokenStream} {p : Place}
    (hproper : ∀ t ∈ l.tokens, t.Proper) (h : s.StandsAt l p) (step : StreamStep) :
    ∃ q, Took l p step (s.take step).1 q ∧ (s.take step).2.StandsAt l q := by
  cases step with
  | peek =>
    obtain ⟨q, hseen, hstands⟩ := s.peek_seen h
    exact ⟨q, .peek hseen, hstands⟩
  | advance =>
    rcases s.advance_seen h with ⟨i, t, rfl, ht, hgift, hstands⟩ | ⟨hr, q, hseen, hstands⟩
    · refine ⟨_, ?_, hstands⟩
      rw [take, Prod.map, hgift]
      exact .advance ht
    · exact ⟨q, .advance_end hseen hr, hstands⟩
  | form =>
    obtain ⟨q, hfound, hstands⟩ := s.form_found hproper h
    exact ⟨q, .form hfound, hstands⟩
  | forms =>
    obtain ⟨q, hall, hstands⟩ := s.forms_found hproper h
    exact ⟨q, .forms hall, hstands⟩

/-- **Any steps** answer one after the other. -/
theorem TokenStream.takeAll_tookAll {l : Lexed} {s : TokenStream} {p : Place}
    (hproper : ∀ t ∈ l.tokens, t.Proper) (h : s.StandsAt l p) (steps : List StreamStep) :
    ∃ q, TookAll l p steps (s.takeAll steps).1 q ∧ (s.takeAll steps).2.StandsAt l q := by
  induction steps generalizing s p with
  | nil => exact ⟨p, .nil, h⟩
  | cons step rest ih =>
    obtain ⟨q, htook, hstands⟩ := s.take_took hproper h step
    obtain ⟨q', hall, hstands'⟩ := ih hstands
    exact ⟨q', .cons htook hall, hstands'⟩

/-! ## 7. The fault of the characters -/

/-- A fault of the characters is none of the brackets. -/
theorem detail_of_lex_fault {source : String} {e : SyntaxFault} (h : (lex source).fault = some e)
    (b : Bracket) : e.detail ≠ .strayCloser b ∧ e.detail ≠ .unclosed b := by
  obtain ⟨pieces, gap, rest, hcut⟩ := exists_cutInto_lexFrom [] source.toList
  obtain ⟨hstuck, -⟩ := hcut.stuck e h
  cases hdetail : e.detail <;> rw [hdetail] at hstuck <;> cases hstuck <;> exact ⟨nofun, nofun⟩

section Past

variable {l : Lexed} {p q : Place} {e : SyntaxFault} {step : StreamStep} {answer : StreamAnswer}
  {steps : List StreamStep} {answers : List StreamAnswer}

/-- Past the fault every step gives nothing, and the stream stays there. -/
theorem Took.nothing_of_past (h : Took l .past step answer q) :
    (∃ g, answer = .ok g ∧ g.IsNothing) ∧ q = .past := by
  cases h with
  | peek hseen | advance_end hseen =>
    cases hseen
    exact ⟨⟨_, rfl, Or.inl rfl⟩, rfl⟩
  | form hfound =>
    cases hfound
    exact ⟨⟨_, rfl, Or.inr (Or.inl rfl)⟩, rfl⟩
  | forms hall =>
    cases hall with
    | nothing hfound =>
      cases hfound
      exact ⟨⟨_, rfl, Or.inr (Or.inr rfl)⟩, rfl⟩
    | fault hfound | node hfound => cases hfound

theorem TookAll.nothing_of_past (h : TookAll l .past steps answers q) :
    (∀ a ∈ answers, ∃ g, a = .ok g ∧ g.IsNothing) ∧ q = .past := by
  generalize hp : Place.past = p at h
  induction h with
  | nil => exact ⟨fun a ha => absurd ha List.not_mem_nil, rfl⟩
  | cons htook _ ih =>
    subst hp
    obtain ⟨hnothing, rfl⟩ := htook.nothing_of_past
    obtain ⟨hrest, hlast⟩ := ih rfl
    refine ⟨fun a ha => ?_, hlast⟩
    rcases List.mem_cons.mp ha with rfl | ha
    · exact hnothing
    · exact hrest a ha

/-! From here on the text has a fault `e` of the characters.  What leads past it reports it, and what
reports it leads past it. -/

theorem Seen.past_iff (hfault : l.fault = some e) {r : Except SyntaxFault (Option Token)}
    (h : Seen l p r q) (hp : p ≠ .past) : q = .past ↔ r = .error e := by
  cases h with
  | token => simp
  | stuck he =>
    rw [hfault] at he
    cases he
    exact iff_of_true rfl rfl
  | nothing hnone =>
    rw [hfault] at hnone
    cases hnone
  | past => exact absurd rfl hp

theorem Found.past_iff (hfault : l.fault = some e)
    (hdetail : ∀ b, e.detail ≠ .strayCloser b ∧ e.detail ≠ .unclosed b)
    {r : Except SyntaxFault (Option Node)} (h : Found l p r q) (hp : p ≠ .past) :
    q = .past ↔ r = .error e := by
  cases h with
  | node => simp
  | @stray _ _ b =>
    refine iff_of_false (by simp) fun h => ?_
    cases h
    exact absurd rfl (hdetail b).1
  | stuck _ he =>
    rw [hfault] at he
    cases he
    exact iff_of_true rfl rfl
  | unclosed _ hnone | nothing hnone =>
    rw [hfault] at hnone
    cases hnone
  | past => exact absurd rfl hp

theorem FoundAll.past_iff (hfault : l.fault = some e)
    (hdetail : ∀ b, e.detail ≠ .strayCloser b ∧ e.detail ≠ .unclosed b)
    {r : Except SyntaxFault (List Node)} (h : FoundAll l p r q) (hp : p ≠ .past) :
    q = .past ↔ r = .error e := by
  induction h with
  | nothing hfound => simp [hfound.past_iff hfault hdetail hp]
  | fault hfound => simp [hfound.past_iff hfault hdetail hp]
  | node hfound _ ih =>
    have hbefore := (hfound.past_iff hfault hdetail hp).not.mpr (by simp)
    rw [ih hbefore, map_eq_error]

theorem Took.past_iff (hfault : l.fault = some e)
    (hdetail : ∀ b, e.detail ≠ .strayCloser b ∧ e.detail ≠ .unclosed b)
    (h : Took l p step answer q) (hp : p ≠ .past) : q = .past ↔ answer = .error e := by
  cases h with
  | peek hseen | advance_end hseen =>
    rw [map_eq_error, hseen.past_iff hfault hp]
  | advance => simp
  | form hfound => rw [map_eq_error, hfound.past_iff hfault hdetail hp]
  | forms hall => rw [map_eq_error, hall.past_iff hfault hdetail hp]

theorem TookAll.past_iff (hfault : l.fault = some e)
    (hdetail : ∀ b, e.detail ≠ .strayCloser b ∧ e.detail ≠ .unclosed b)
    (h : TookAll l p steps answers q) (hp : p ≠ .past) : q = .past ↔ .error e ∈ answers := by
  induction h with
  | nil => exact iff_of_false hp List.not_mem_nil
  | @cons p q p' _ answer _ answers htook hall ih =>
    have hstep := htook.past_iff hfault hdetail hp
    by_cases hq : q = .past
    · subst hq
      exact iff_of_true hall.nothing_of_past.2 (List.mem_cons.mpr (Or.inl (hstep.mp rfl).symm))
    · rw [ih hq, List.mem_cons]
      exact ⟨Or.inr, fun h => h.resolve_left fun ha => hq (hstep.mpr ha.symm)⟩

/-- After the fault has been reported every answer is nothing. -/
theorem TookAll.nothing_after_error (hfault : l.fault = some e)
    (hdetail : ∀ b, e.detail ≠ .strayCloser b ∧ e.detail ≠ .unclosed b)
    (h : TookAll l p steps answers q) {before after : List StreamAnswer}
    (hsplit : answers = before ++ .error e :: after) :
    ∀ a ∈ after, ∃ g, a = .ok g ∧ g.IsNothing := by
  induction h generalizing before with
  | nil => simp at hsplit
  | @cons p q _ _ answer _ _ htook hall ih =>
    cases before with
    | cons b before => exact ih (List.cons.inj hsplit).2
    | nil =>
      obtain ⟨ha, rfl⟩ := List.cons.inj hsplit
      have hq : q = .past := by
        by_cases hp : p = .past
        · subst hp
          exact htook.nothing_of_past.2
        · exact (htook.past_iff hfault hdetail hp).mpr ha
      subst hq
      exact hall.nothing_of_past.1

end Past

/-- **A stream keeps its place.**  Let a text be cut into tokens, up to its end or to the first
place where no token begins, and let any steps be done with a stream over the text, in any order.

1. Each step answers as its place says (`Took`), beginning before the first token.  Looking gives
   the token of the place; using it goes on to the next.  A form is made of the tokens from the
   place up to some other, and flattening it gives them back.  A form that ends at a closing bracket
   that is refused leaves the stream before that bracket, and one that is not closed leaves it at
   the end.  All forms are read one after the other.  A step that comes to a fault of the characters
   reports it and leaves the stream past it.
2. In the end the stream stands at its place: what it will still give is what the text has from
   there on, without a loss, a repetition or a change of order.
3. A fault of the characters has been reported just when the stream stands past it, and it is
   reported once: from then on every step gives nothing. -/
theorem stream_keeps_its_place (source : String) (steps : List StreamStep) :
    ∃ p, TookAll (lex source) (.before 0) steps ((TokenStream.ofSource source).takeAll steps).1 p ∧
      ((TokenStream.ofSource source).takeAll steps).2.StandsAt (lex source) p ∧
      ∀ e, (lex source).fault = some e →
        (p = .past ↔ .error e ∈ ((TokenStream.ofSource source).takeAll steps).1) ∧
        ∀ before after,
          ((TokenStream.ofSource source).takeAll steps).1 = before ++ .error e :: after →
          ∀ a ∈ after, ∃ g, a = .ok g ∧ g.IsNothing := by
  obtain ⟨p, hall, hstands⟩ := TokenStream.takeAll_tookAll (fun _ ht => proper_of_mem_lex ht)
    (TokenStream.standsAt_ofSource source) steps
  refine ⟨p, hall, hstands, fun e he => ⟨?_, fun before after hsplit => ?_⟩⟩
  · exact hall.past_iff he (detail_of_lex_fault he) (by simp)
  · exact hall.nothing_after_error he (detail_of_lex_fault he) hsplit

/-- A quote that opens a string without an end is reported by the step that comes to it, and by no
other. -/
example : ((TokenStream.ofSource "a \"").takeAll [.peek, .advance, .peek, .advance]).1.map
    Except.isOk = [true, true, false, true] := by
  decide +kernel

end CurryLisp

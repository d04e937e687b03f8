/-
# Reading form by form

A text is cut only as far as it is used.  `Cutting` says how far this is, and gives one more token
when it is asked to.  A stream may look one token ahead: the token is cut, and it stays until it is
used.  Tokens and forms are taken off the front of a stream.

A fault of the characters ends the cutting, so it is reported once, when it is reached, and the
stream is at its end after that.  A closing bracket that closes nothing is reported while it is
looked at, and so it is left where it is.

* `Cutting.next`: one more token;
* `TokenStream.peek`, `TokenStream.advance`: the next token, which stays or is used;
* `TokenStream.form`, `TokenStream.forms`: the next form, and all that are left.
-/
import CurryLisp.Syntax.Forest

namespace CurryLisp

/-! ## 1. Cutting one token at a time -/

/-- How far a text has been cut. -/
inductive Cutting
  /-- these characters are left, and they start at this position -/
  | within (p : Position) (rest : List Char)
  /-- nothing is left, or cutting has come to a fault -/
  | ended

namespace Cutting

/-- Cuts one token off the characters that start at a position; `none` at their end. -/
def nextFrom (p : Position) : List Char → Except SyntaxFault (Option Token) × Cutting
  | [] => (.ok none, ended)
  | c :: rest =>
    if Text.isBlank c then nextFrom (p.advance c) rest
    else match lexeme? (c :: rest) with
      | none => (.error (stuckAt p c), ended)
      | some l =>
        (.ok (some ⟨l.kind, String.ofList l.chars, p⟩), within (p.advanceOver l.chars) l.rest)

/-- The next token; `none` at the end. -/
def next : Cutting → Except SyntaxFault (Option Token) × Cutting
  | within p rest => nextFrom p rest
  | ended => (.ok none, ended)

/-- How many characters are left. -/
def size : Cutting → Nat
  | within _ rest => rest.length
  | ended => 0

theorem size_nextFrom_lt {p : Position} {cs : List Char} {t : Token} {c : Cutting}
    (h : nextFrom p cs = (.ok (some t), c)) : c.size < cs.length := by
  fun_induction nextFrom p cs with
  | case1 | case3 => simp at h
  | case2 p c rest _ ih => exact Nat.lt_succ_of_lt (ih h)
  | case4 p c rest _ l hl =>
    cases h
    exact lexeme?_length_lt hl

/-- A token is made of some of the characters that are left. -/
theorem size_next_lt {c c' : Cutting} {t : Token} (h : c.next = (.ok (some t), c')) :
    c'.size < c.size := by
  cases c with
  | within p rest => exact size_nextFrom_lt h
  | ended => simp [next] at h

end Cutting

/-! ## 2. Streams -/

/-- A text that is being cut, and the token that has been looked at and not been used. -/
structure TokenStream where
  ahead : Option Token
  cutting : Cutting

namespace TokenStream

/-- The stream over a text. -/
def ofSource (source : String) : TokenStream := ⟨none, .within {} source.toList⟩

/-- The next token, which stays in the stream; `none` at the end. -/
def peek (s : TokenStream) : Except SyntaxFault (Option Token) × TokenStream :=
  match s.ahead with
  | some t => (.ok (some t), s)
  | none =>
    match s.cutting.next with
    | (.ok t, c) => (.ok t, ⟨t, c⟩)
    | (.error e, c) => (.error e, ⟨none, c⟩)

/-- The next token, which leaves the stream; `none` at the end. -/
def advance (s : TokenStream) : Except SyntaxFault (Option Token) × TokenStream :=
  match s.ahead with
  | some t => (.ok (some t), { s with ahead := none })
  | none =>
    match s.cutting.next with
    | (r, c) => (r, ⟨none, c⟩)

/-- How much is left: the characters, and the token that has been looked at. -/
def size (s : TokenStream) : Nat := s.ahead.toList.length + s.cutting.size

/-- Looking at a token leaves no more than there was, and the token is part of what is left. -/
theorem size_of_peek {s s' : TokenStream} {t : Token} (h : s.peek = (.ok (some t), s')) :
    s'.advance.2.size < s'.size ∧ s'.size ≤ s.size := by
  obtain ⟨ahead, cutting⟩ := s
  cases ahead with
  | some u =>
    cases h
    simp [advance, size]
  | none =>
    rw [peek] at h
    dsimp only at h
    split at h
    · next u c hnext =>
      cases h
      have hlt := Cutting.size_next_lt hnext
      simp only [advance, size, Option.toList, List.length_cons, List.length_nil]
      omega
    · cases h

/-! ## 3. Forms -/

/-- Reads on in a forest until its open lists are closed.  A token is used once it has been taken
into the forest. -/
def readForm (f : Forest) (s : TokenStream) : Except SyntaxFault (Option Node) × TokenStream :=
  match _h : s.peek with
  | (.error e, s') => (.error e, s')
  | (.ok none, s') =>
    match f.openLists with
    | [] => (.ok none, s')
    | o :: _ => (.error ⟨.unclosed o.bracket, o.opener.position⟩, s')
  | (.ok (some t), s') =>
    match f.push t with
    | .error e => (.error e, s')
    | .ok f' =>
      match f'.openLists, f'.forms with
      | [], n :: _ => (.ok (some n), s'.advance.2)
      | _, _ => readForm f' s'.advance.2
termination_by s.size
decreasing_by exact Nat.lt_of_lt_of_le (size_of_peek _h).1 (size_of_peek _h).2

/-- The next form; `none` at the end. -/
def form (s : TokenStream) : Except SyntaxFault (Option Node) × TokenStream := readForm {} s

/-- A form is made of some of the tokens that are left. -/
theorem size_readForm_lt {f : Forest} {s s' : TokenStream} {n : Node}
    (h : readForm f s = (.ok (some n), s')) : s'.size < s.size := by
  fun_induction readForm f s with
  | case1 | case2 | case3 | case4 => simp at h
  | case5 f s t u hpeek =>
    cases h
    obtain ⟨hlt, hle⟩ := size_of_peek hpeek
    exact Nat.lt_of_lt_of_le hlt hle
  | case6 f s t u hpeek _ _ _ ih =>
    obtain ⟨hlt, hle⟩ := size_of_peek hpeek
    exact Nat.lt_trans (ih h) (Nat.lt_of_lt_of_le hlt hle)

/-- All the forms that are left: as long as there is a token, it begins a form. -/
def forms (s : TokenStream) : Except SyntaxFault (List Node) × TokenStream :=
  match _h : s.peek with
  | (.error e, s') => (.error e, s')
  | (.ok none, s') => (.ok [], s')
  | (.ok (some _), s') =>
    match _h' : s'.form with
    | (.error e, u) => (.error e, u)
    | (.ok none, u) => (.ok [], u)
    | (.ok (some n), u) =>
      match u.forms with
      | (r, v) => (r.map (n :: ·), v)
termination_by s.size
decreasing_by exact Nat.lt_of_lt_of_le (size_readForm_lt _h') (size_of_peek _h).2

end TokenStream

end CurryLisp

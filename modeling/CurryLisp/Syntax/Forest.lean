/-
# From tokens to syntax trees

A text is a sequence of forms, and a form is a token or a list between brackets of one kind.  The
reader keeps the lists that are open, innermost first, and takes one token at a time; only a
closing bracket that does not close the innermost list stops it.

* `Forest.push`: one token;
* `Forest.pushAll`: many tokens, up to the first that cannot be taken;
* `parseLexed`, `parse`: a whole text, where a stray closer is reported before a fault of the
  characters after it, and that before a list that is never closed.
-/
import CurryLisp.Syntax.Lexer
import CurryLisp.Syntax.Node

namespace CurryLisp

/-! ## 1. Lists that are open -/

/-- A list whose closing bracket is still to come, with its children so far, last first. -/
structure OpenList where
  bracket : Bracket
  opener : Token
  children : List Node := []

/-- Closes a list. -/
def OpenList.close (o : OpenList) : Node := .list o.bracket o.opener o.children.reverse

/-- Part of a text as read so far: the open lists, innermost first, and the finished forms, last
first. -/
structure Forest where
  openLists : List OpenList := []
  forms : List Node := []

namespace Forest

/-- Adds a finished node to the innermost open list, or to the forms when no list is open. -/
def add (f : Forest) (n : Node) : Forest :=
  match f.openLists with
  | [] => { f with forms := n :: f.forms }
  | o :: outer => { f with openLists := { o with children := n :: o.children } :: outer }

/-- Takes one token, or refuses a closing bracket that does not close the innermost list. -/
def push (f : Forest) (t : Token) : Except SyntaxFault Forest :=
  match t.kind with
  | .comment => .ok (f.add (.leaf .comment t))
  | .string => .ok (f.add (.leaf .string t))
  | .number => .ok (f.add (.leaf .number t))
  | .symbol => .ok (f.add (.leaf .symbol t))
  | .opener b => .ok { f with openLists := ⟨b, t, []⟩ :: f.openLists }
  | .closer b =>
    match f.openLists with
    | [] => .error ⟨.strayCloser b, t.position⟩
    | o :: outer =>
      if o.bracket = b then .ok (({ f with openLists := outer } : Forest).add o.close)
      else .error ⟨.strayCloser b, t.position⟩

/-- Takes tokens as long as they can be taken.  On a fault the tokens from the refused one on are
left. -/
def pushAll (f : Forest) : List Token → Except (SyntaxFault × List Token) Forest
  | [] => .ok f
  | t :: rest =>
    match f.push t with
    | .ok f' => f'.pushAll rest
    | .error e => .error (e, t :: rest)

/-- The finished forms, or the innermost list that is still open. -/
def finish (f : Forest) : Except SyntaxFault (List Node) :=
  match f.openLists with
  | [] => .ok f.forms.reverse
  | o :: _ => .error ⟨.unclosed o.bracket, o.opener.position⟩

@[simp] theorem pushAll_nil (f : Forest) : f.pushAll [] = .ok f := rfl

theorem pushAll_cons_ok {f f' : Forest} {t : Token} (h : f.push t = .ok f') (rest : List Token) :
    f.pushAll (t :: rest) = f'.pushAll rest := by
  simp [pushAll, h]

theorem pushAll_cons_error {f : Forest} {t : Token} {e : SyntaxFault} (h : f.push t = .error e)
    (rest : List Token) : f.pushAll (t :: rest) = .error (e, t :: rest) := by
  simp [pushAll, h]

/-- Taking the tokens of two lists is taking those of the first and then those of the second. -/
theorem pushAll_append_ok {f f' : Forest} {ts : List Token} (h : f.pushAll ts = .ok f')
    (us : List Token) : f.pushAll (ts ++ us) = f'.pushAll us := by
  induction ts generalizing f with
  | nil => cases h; rfl
  | cons t rest ih =>
    cases hp : f.push t with
    | ok g =>
      rw [pushAll_cons_ok hp] at h
      rw [List.cons_append, pushAll_cons_ok hp, ih h]
    | error e =>
      rw [pushAll_cons_error hp] at h
      cases h

end Forest

/-! ## 2. Whole texts -/

/-- The forms of a text that has been cut into tokens. -/
def parseLexed (l : Lexed) : Except SyntaxFault (List Node) :=
  match ({} : Forest).pushAll l.tokens with
  | .error (e, _) => .error e
  | .ok f =>
    match l.fault with
    | some e => .error e
    | none => f.finish

/-- The forms of a text. -/
def parse (source : String) : Except SyntaxFault (List Node) := parseLexed (lex source)

end CurryLisp

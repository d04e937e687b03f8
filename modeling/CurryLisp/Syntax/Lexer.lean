/-
# From characters to tokens

`lex` cuts a text into tokens.  Blanks separate tokens and are dropped; a lexeme is taken as long
as its rule allows.  A number is tried before a symbol, so that a minus and a digit after it begin
a number.  The first place where no lexeme begins ends the cutting: the tokens before it are kept,
and the fault is reported after them.

* `lexeme?_eq_append`: a lexeme and what follows it are the text they were cut from;
* `lexeme?_length_lt`: a lexeme is never empty, so cutting comes to an end;
* `lexFrom_blank`, `lexFrom_lexeme`, `lexFrom_stuck`: the three steps of cutting.
-/
import CurryLisp.Syntax.Token
import CurryLisp.Text.Blank

namespace CurryLisp

/-! ## 1. Lexemes -/

/-- A character that a symbol may hold. -/
def isSymbolChar (c : Char) : Bool :=
  c.isAlphanum || "_+-*/\\=<>!&%|^".toList.contains c

/-- A character that ends a comment. -/
def isLineEnd (c : Char) : Bool := c == '\r' || c == '\n'

/-- Cuts a list where a predicate first fails. -/
def takeRun (p : Char → Bool) (cs : List Char) : List Char × List Char :=
  (cs.takeWhile p, cs.dropWhile p)

@[simp] theorem takeRun_append (p : Char → Bool) (cs : List Char) :
    (takeRun p cs).1 ++ (takeRun p cs).2 = cs := by
  simp [takeRun]

/-- The inside of a string and its closing quote, and what follows.  A backslash keeps the
character after it from closing the string. -/
def closeString? : List Char → Option (List Char × List Char)
  | [] => none
  | c :: rest =>
    if c = '"' then some (['"'], rest)
    else if c = '\\' then
      match rest with
      | [] => none
      | d :: rest' => (closeString? rest').map (fun r => (c :: d :: r.1, r.2))
    else (closeString? rest).map (fun r => (c :: r.1, r.2))

/-- The inside of a string and what follows it are the text they were cut from. -/
theorem closeString?_eq_append {cs body rest : List Char}
    (h : closeString? cs = some (body, rest)) : body ++ rest = cs := by
  fun_induction closeString? cs generalizing body rest with
  | case1 => cases h
  | case2 => cases h; rfl
  | case3 => cases h
  | case4 d r _ ih =>
    obtain ⟨x, hx, he⟩ := Option.map_eq_some_iff.1 h
    cases he
    simp [ih hx]
  | case5 c r _ _ ih =>
    obtain ⟨x, hx, he⟩ := Option.map_eq_some_iff.1 h
    cases he
    simp [ih hx]

/-- A lexeme: its kind, its characters, and the characters after it. -/
structure Lexeme where
  kind : TokenKind
  chars : List Char
  rest : List Char

/-- A lexeme of one character. -/
def Lexeme.single (kind : TokenKind) (c : Char) (rest : List Char) : Lexeme := ⟨kind, [c], rest⟩

/-- A lexeme of one character and the run after it. -/
def Lexeme.run (kind : TokenKind) (p : Char → Bool) (c : Char) (rest : List Char) : Lexeme :=
  ⟨kind, c :: (takeRun p rest).1, (takeRun p rest).2⟩

/-- Whether a number starts here: a digit, or a minus with a digit after it. -/
def startsNumber (c : Char) (rest : List Char) : Bool :=
  c.isDigit || (c == '-' && (rest.head?.map Char.isDigit).getD false)

/-- The lexeme at the front of a text, if one begins there. -/
def lexeme? : List Char → Option Lexeme
  | [] => none
  | c :: rest =>
    if c = ';' then some (.run .comment (fun d => !isLineEnd d) c rest)
    else if c = Bracket.round.openChar then some (.single (.opener .round) c rest)
    else if c = Bracket.round.closeChar then some (.single (.closer .round) c rest)
    else if c = Bracket.curly.openChar then some (.single (.opener .curly) c rest)
    else if c = Bracket.curly.closeChar then some (.single (.closer .curly) c rest)
    else if c = '"' then (closeString? rest).map (fun r => ⟨.string, c :: r.1, r.2⟩)
    else if startsNumber c rest then some (.run .number Char.isDigit c rest)
    else if isSymbolChar c then some (.run .symbol isSymbolChar c rest)
    else none

/-- A lexeme takes the character it begins at, and some of the characters after it. -/
theorem lexeme?_cons {c : Char} {rest : List Char} {l : Lexeme}
    (h : lexeme? (c :: rest) = some l) : ∃ more, l.chars = c :: more ∧ more ++ l.rest = rest := by
  rw [lexeme?] at h
  repeat' split at h
  all_goals first
    | (obtain ⟨x, hx, rfl⟩ := Option.map_eq_some_iff.1 h
       exact ⟨_, rfl, closeString?_eq_append hx⟩)
    | (cases h; exact ⟨_, rfl, takeRun_append _ _⟩)
    | (cases h; exact ⟨_, rfl, rfl⟩)
    | cases h

/-- **Nothing is lost.**  A lexeme and what follows it are the text they were cut from. -/
theorem lexeme?_eq_append {cs : List Char} {l : Lexeme} (h : lexeme? cs = some l) :
    l.chars ++ l.rest = cs := by
  cases cs with
  | nil => cases h
  | cons c rest =>
    obtain ⟨more, hm, hr⟩ := lexeme?_cons h
    rw [hm, List.cons_append, hr]

/-- What follows a lexeme is shorter than the text it was cut from. -/
theorem lexeme?_length_lt {cs : List Char} {l : Lexeme} (h : lexeme? cs = some l) :
    l.rest.length < cs.length := by
  cases cs with
  | nil => cases h
  | cons c rest =>
    obtain ⟨more, -, hr⟩ := lexeme?_cons h
    have := congrArg List.length hr
    simp only [List.length_append, List.length_cons] at this ⊢
    omega

/-! ## 2. Cutting a text -/

/-- What cutting gives: the tokens in order, and the fault that ended it, if one did. -/
structure Lexed where
  tokens : List Token
  fault : Option SyntaxFault
  deriving DecidableEq, Repr

/-- Puts a token before the others. -/
def Lexed.cons (t : Token) (l : Lexed) : Lexed := ⟨t :: l.tokens, l.fault⟩

/-- The fault of a place where no lexeme begins. -/
def stuckAt (p : Position) (c : Char) : SyntaxFault :=
  ⟨if c = '"' then .unterminatedString else .unexpectedChar c, p⟩

/-- Cuts the characters that start at a position. -/
def lexFrom (p : Position) : List Char → Lexed
  | [] => ⟨[], none⟩
  | c :: rest =>
    if Text.isBlank c then lexFrom (p.advance c) rest
    else match _h : lexeme? (c :: rest) with
      | none => ⟨[], some (stuckAt p c)⟩
      | some l =>
        .cons ⟨l.kind, String.ofList l.chars, p⟩ (lexFrom (p.advanceOver l.chars) l.rest)
termination_by cs => cs.length
decreasing_by
  · simp
  · exact lexeme?_length_lt _h

/-- Cuts a text into tokens. -/
def lex (source : String) : Lexed := lexFrom {} source.toList

@[simp] theorem lexFrom_nil (p : Position) : lexFrom p [] = ⟨[], none⟩ := by
  rw [lexFrom.eq_def]

/-- A blank is skipped. -/
theorem lexFrom_blank (p : Position) {c : Char} (rest : List Char)
    (h : Text.isBlank c = true) : lexFrom p (c :: rest) = lexFrom (p.advance c) rest := by
  rw [lexFrom.eq_def]
  simp [h]

/-- A lexeme becomes a token. -/
theorem lexFrom_lexeme (p : Position) {c : Char} {rest : List Char} {l : Lexeme}
    (h : Text.isBlank c = false) (hl : lexeme? (c :: rest) = some l) :
    lexFrom p (c :: rest) =
      .cons ⟨l.kind, String.ofList l.chars, p⟩ (lexFrom (p.advanceOver l.chars) l.rest) := by
  rw [lexFrom.eq_def]
  simp only [h, Bool.false_eq_true, if_false]
  split
  · simp_all
  · next l' hl' =>
    rw [hl] at hl'
    cases hl'
    rfl

/-- A place where no lexeme begins ends the cutting. -/
theorem lexFrom_stuck (p : Position) {c : Char} {rest : List Char}
    (h : Text.isBlank c = false) (hl : lexeme? (c :: rest) = none) :
    lexFrom p (c :: rest) = ⟨[], some (stuckAt p c)⟩ := by
  rw [lexFrom.eq_def]
  simp only [h, Bool.false_eq_true, if_false]
  split
  · rfl
  · simp_all

end CurryLisp

/-
# Escapes in string literals

A string literal is written between double quotes, with a backslash before every character that
would end it or could not be seen.  `escapeChars` writes the inside of a literal and
`unescapeChars` reads it.  Reading knows one escape more than writing (the single quote) and keeps
an escape that it does not know as it stands.

`unescapeChars_escapeChars` says that reading takes back what writing produced.
-/

namespace CurryLisp.Text

/-! ## 1. The letters -/

/-- The characters that are escaped, with the letters that stand for them. -/
def escapeTable : List (Char × Char) :=
  [('\x07', 'a'), ('\x08', 'b'), ('\x0c', 'f'), ('\n', 'n'), ('\r', 'r'), ('\t', 't'),
   ('\x0b', 'v'), ('\x00', '0'), ('\\', '\\'), ('"', '"')]

/-- The characters that an escape can be read as: one more than are escaped. -/
def unescapeTable : List (Char × Char) := escapeTable ++ [('\'', '\'')]

/-- The letter that stands for a character in an escape, for the characters that are escaped. -/
def escapeLetter? (c : Char) : Option Char :=
  (escapeTable.find? (fun p => p.1 == c)).map Prod.snd

/-- The character that an escape letter stands for. -/
def escapedChar? (letter : Char) : Option Char :=
  (unescapeTable.find? (fun p => p.2 == letter)).map Prod.fst

/-- Every letter that writing uses is read as the character it was written for. -/
theorem escapedChar?_of_escapeLetter? {c l : Char} (h : escapeLetter? c = some l) :
    escapedChar? l = some c := by
  have all : ∀ p ∈ escapeTable, escapedChar? p.2 = some p.1 := by decide
  obtain ⟨p, hp, rfl⟩ := Option.map_eq_some_iff.1 h
  have hc : p.1 = c := by simpa using List.find?_some hp
  exact hc ▸ all p (List.mem_of_find?_eq_some hp)

/-- A character that is not escaped is not a backslash. -/
theorem ne_backslash_of_escapeLetter?_eq_none {c : Char} (h : escapeLetter? c = none) :
    c ≠ '\\' := by
  rintro rfl
  exact absurd h (by decide)

/-! ## 2. Writing and reading -/

/-- One character of a literal's inside. -/
def escapeChar (c : Char) : List Char :=
  match escapeLetter? c with
  | some l => ['\\', l]
  | none => [c]

/-- The inside of the literal for a text. -/
def escapeChars (cs : List Char) : List Char := cs.flatMap escapeChar

/-- The text of a literal's inside. -/
def unescapeChars : List Char → List Char
  | [] => []
  | [c] => [c]
  | c :: l :: rest =>
    if c = '\\' then
      match escapedChar? l with
      | some e => e :: unescapeChars rest
      | none => c :: l :: unescapeChars rest
    else c :: unescapeChars (l :: rest)

/-- The inside of the literal for a text. -/
def escape (s : String) : String := String.ofList (escapeChars s.toList)

/-- The text of a literal's inside. -/
def unescape (s : String) : String := String.ofList (unescapeChars s.toList)

/-! ## 3. Reading takes back what writing produced -/

theorem unescapeChars_cons_of_ne {c : Char} (h : c ≠ '\\') (rest : List Char) :
    unescapeChars (c :: rest) = c :: unescapeChars rest := by
  cases rest with
  | nil => rfl
  | cons l r => simp [unescapeChars, h]

theorem unescapeChars_escape {l e : Char} (h : escapedChar? l = some e) (rest : List Char) :
    unescapeChars ('\\' :: l :: rest) = e :: unescapeChars rest := by
  simp [unescapeChars, h]

/-- **Reading takes back what writing produced.** -/
theorem unescapeChars_escapeChars (cs : List Char) : unescapeChars (escapeChars cs) = cs := by
  induction cs with
  | nil => rfl
  | cons c r ih =>
    simp only [escapeChars, List.flatMap_cons] at ih ⊢
    cases h : escapeLetter? c with
    | none =>
      have hc : escapeChar c = [c] := by simp [escapeChar, h]
      rw [hc, List.singleton_append,
        unescapeChars_cons_of_ne (ne_backslash_of_escapeLetter?_eq_none h), ih]
    | some l =>
      have hc : escapeChar c = ['\\', l] := by simp [escapeChar, h]
      rw [hc, List.cons_append, List.cons_append, List.nil_append,
        unescapeChars_escape (escapedChar?_of_escapeLetter? h), ih]

/-- Reading takes back what writing produced, on texts. -/
theorem unescape_escape (s : String) : unescape (escape s) = s := by
  simp [unescape, escape, unescapeChars_escapeChars]

end CurryLisp.Text

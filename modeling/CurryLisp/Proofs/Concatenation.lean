/-
# Programs one after the other

A program may be cut in two at the end of a line.  If both parts can be parsed by themselves and are
read, then running the whole is running the first part and then the second; and if the second part
cannot be parsed, neither can the whole, for the same reason, which shows so many lines further down.
A numeral with too many digits, in either part, keeps the whole from being run.

No token goes over the seam, since a line feed goes on with none that is finished before it.  The
second part is cut as if it stood alone, except for the lines (`lexFrom_linesDown`), and the reader
has no list open when it comes to it.

* `lex_append_newline`: the tokens of the whole;
* `Value.ofNodes_append`: its forms;
* `programs_concatenate`: parsing and running it.
-/
import CurryLisp.Proofs.Retelling
import CurryLisp.Proofs.Seams
import CurryLisp.Proofs.Session

namespace CurryLisp

/-! ## 1. Further down -/

section LinesDown

variable (k : Nat)

/-- The position so many lines further down. -/
def Position.linesDown (p : Position) : Position := ⟨p.line + k, p.column⟩

/-- The token so many lines further down. -/
def Token.linesDown (t : Token) : Token := { t with position := t.position.linesDown k }

/-- The fault so many lines further down. -/
def SyntaxFault.linesDown (f : SyntaxFault) : SyntaxFault :=
  { f with position := f.position.linesDown k }

/-- The text so many lines further down. -/
def Lexed.linesDown (l : Lexed) : Lexed :=
  ⟨l.tokens.map (Token.linesDown k), l.fault.map (SyntaxFault.linesDown k)⟩

theorem Position.advance_linesDown (p : Position) (c : Char) :
    (p.linesDown k).advance c = (p.advance c).linesDown k := by
  by_cases hc : c = '\n'
  · simp only [advance, if_pos hc, linesDown]
    congr 1
    omega
  · simp only [advance, if_neg hc, linesDown]

theorem Position.advanceOver_linesDown (p : Position) (cs : List Char) :
    (p.linesDown k).advanceOver cs = (p.advanceOver cs).linesDown k := by
  induction cs generalizing p with
  | nil => rfl
  | cons c cs ih => rw [advanceOver_cons, advanceOver_cons, advance_linesDown, ih]

/-- **Where a text begins makes no difference but to the lines.** -/
theorem lexFrom_linesDown (p : Position) (cs : List Char) :
    lexFrom (p.linesDown k) cs = (lexFrom p cs).linesDown k := by
  fun_induction lexFrom p cs with
  | case1 p => rw [lexFrom_nil]; rfl
  | case2 p c rest hblank ih => rw [lexFrom_blank _ _ hblank, Position.advance_linesDown, ih]
  | case3 p c rest hblank hl =>
    rw [lexFrom_stuck _ (Bool.eq_false_iff.mpr hblank) hl]
    rfl
  | case4 p c rest hblank l hl ih =>
    rw [lexFrom_lexeme _ (Bool.eq_false_iff.mpr hblank) hl, Position.advanceOver_linesDown, ih]
    rfl

/-- The tokens of a text are told again further down. -/
theorem Lexed.retold_linesDown (l : Lexed) :
    Retold (fun p q => q = p.linesDown k) l.tokens (l.linesDown k).tokens := by
  obtain ⟨ts, fault⟩ := l
  induction ts with
  | nil => exact .nil
  | cons t ts ih => exact .token ⟨rfl, rfl, rfl⟩ ih

/-- The fault of a text is the same further down. -/
theorem Lexed.fault_linesDown (l : Lexed) :
    Option.Rel (SyntaxFault.Matches fun p q => q = p.linesDown k) l.fault
      (l.linesDown k).fault := by
  obtain ⟨ts, fault⟩ := l
  cases fault with
  | none => exact .none
  | some e => exact .some ⟨rfl, rfl⟩

end LinesDown

/-! ## 2. The tokens of the whole -/

/-- **The tokens of two texts with a line feed between them.** -/
theorem lex_append_newline {s₁ : String} (h : (lex s₁).fault = none) (s₂ : String) :
    lex (s₁ ++ "\n" ++ s₂) =
      ((lex s₂).linesDown (1 + s₁.toList.count '\n')).prepend (lex s₁).tokens := by
  have hchars : (s₁ ++ "\n" ++ s₂).toList = s₁.toList ++ '\n' :: s₂.toList := by simp
  have hseam : (Position.advanceOver {} s₁.toList).advance '\n' =
      Position.linesDown (1 + s₁.toList.count '\n') {} := by
    have hpast : Position.advanceOver {} s₁.toList = .past s₁.toList :=
      Position.advanceOver_eq_past [] s₁.toList
    rw [hpast, Position.advance, if_pos rfl]
    exact congrArg (Position.mk · 1) (Nat.add_comm _ 1)
  rw [lex, hchars, lexFrom_append_newline h, hseam, lexFrom_linesDown]
  rfl

/-! ## 3. Forms and results -/

/-- **Trees that are set side by side are read one after the other.** -/
theorem Value.ofNodes_append (ns ms : List Node) :
    ofNodes (ns ++ ms) = do return (← ofNodes ns) ++ (← ofNodes ms) := by
  induction ns with
  | nil =>
    rw [List.nil_append, ofNodes]
    cases ofNodes ms <;> rfl
  | cons n ns ih =>
    rw [List.cons_append, ofNodes, ofNodes, ih]
    by_cases hcomment : n.tag = .comment
    · rw [if_pos hcomment, if_pos hcomment]
    · rw [if_neg hcomment, if_neg hcomment]
      cases ofNode n with
      | error f => rfl
      | ok v => cases ofNodes ns <;> cases ofNodes ms <;> rfl

/-- **Texts that can be parsed can be parsed one after the other,** and what is read from both is what
is read from the first and then from the second. -/
theorem parse_append_newline {s₁ s₂ : String} {nodes₁ nodes₂ : List Node}
    (h₁ : parse s₁ = .ok nodes₁) (h₂ : parse s₂ = .ok nodes₂) :
    ∃ nodes, parse (s₁ ++ "\n" ++ s₂) = .ok nodes ∧
      Value.ofNodes nodes = do return (← Value.ofNodes nodes₁) ++ (← Value.ofNodes nodes₂) := by
  obtain ⟨hnone₁, hspells₁⟩ := parse_eq_ok_iff.mp h₁
  obtain ⟨hnone₂, hspells₂⟩ := parse_eq_ok_iff.mp h₂
  obtain ⟨nodes, hspells, hvalues⟩ :=
    hspells₂.retold ((lex s₂).retold_linesDown (1 + s₁.toList.count '\n'))
  refine ⟨nodes₁ ++ nodes, ?_, by rw [Value.ofNodes_append, hvalues]⟩
  rw [parse_eq_ok_iff, lex_append_newline hnone₁]
  exact ⟨by rw [Lexed.prepend, Lexed.linesDown, hnone₂]; rfl, hspells₁.append hspells⟩

/-- **A text that is refused is refused behind another,** so many lines further down. -/
theorem parse_append_newline_refused {s₁ s₂ : String} {nodes₁ : List Node} {f : SyntaxFault}
    (h₁ : parse s₁ = .ok nodes₁) (h₂ : parse s₂ = .error f) :
    parse (s₁ ++ "\n" ++ s₂) = .error (f.linesDown (1 + s₁.toList.count '\n')) := by
  obtain ⟨hnone₁, hspells₁⟩ := parse_eq_ok_iff.mp h₁
  obtain ⟨f', hrefused, hdetail, hposition⟩ := (parse_eq_error_iff.mp h₂).retold
    ((lex s₂).retold_linesDown (1 + s₁.toList.count '\n')) ((lex s₂).fault_linesDown _)
  obtain rfl : f' = f.linesDown (1 + s₁.toList.count '\n') := by
    cases f'
    cases f
    simp_all [SyntaxFault.linesDown]
  rw [parse_eq_error_iff, lex_append_newline hnone₁]
  exact hrefused.prepend (hspells₁.scan_eq [])

/-- Runs one text and then another, and gives the results of both. -/
def Interpreter.runInTurn (i : Interpreter) (s₁ s₂ name : String) : EvalM (List Value) := do
  let results₁ ← i.runText s₁ name
  let results₂ ← i.runText s₂ name
  return results₁ ++ results₂

/-- A text whose forms are those of two others is run as these are in turn, unless it or one of the
others is nested too deeply. -/
theorem Interpreter.runText_eq_runInTurn (i : Interpreter) {s s₁ s₂ : String}
    {nodes nodes₁ nodes₂ : List Node} {forms₁ forms₂ : List Value} (hparse : parse s = .ok nodes)
    (h₁ : parse s₁ = .ok nodes₁) (h₂ : parse s₂ = .ok nodes₂)
    (hforms₁ : Value.ofNodes nodes₁ = .ok forms₁) (hforms₂ : Value.ofNodes nodes₂ = .ok forms₂)
    (hforms : Value.ofNodes nodes = .ok (forms₁ ++ forms₂)) {name : String} {m : Machine}
    (hwhole : m.outcome (i.runText s name) ≠ .error .tooDeep)
    (hturn : m.outcome (i.runInTurn s₁ s₂ name) ≠ .error .tooDeep) :
    i.runText s name m = i.runInTurn s₁ s₂ name m := by
  obtain ⟨-, hrun⟩ | hstop := i.runText_cases hparse name
  swap
  · rw [hstop] at hwhole
    exact absurd rfl hwhole
  rw [hrun, Form.valuesOf_eq_pure hforms, pure_bind, List.mapM_append]
  unfold runInTurn at hturn ⊢
  obtain ⟨-, hrun₁⟩ | hstop₁ := i.runText_cases h₁ name
  swap
  · rw [hstop₁] at hturn
    exact absurd rfl hturn
  rw [hrun₁, Form.valuesOf_eq_pure hforms₁, pure_bind] at hturn ⊢
  -- The second text counts only where all forms of the first have been evaluated.
  cases hm : forms₁.mapM i.evaluate m with
  | error f m' => rw [EvalM.bind_of_error hm, EvalM.bind_of_error hm]
  | ok results₁ m' =>
    rw [EvalM.bind_of_ok hm, EvalM.bind_of_ok hm]
    obtain ⟨-, hrun₂⟩ | hstop₂ := i.runText_cases h₂ name
    · rw [hrun₂, Form.valuesOf_eq_pure hforms₂, pure_bind]
    · have hdeep : m.outcome (forms₁.mapM i.evaluate >>= fun results₁ => do
          let results₂ ← i.runText s₂ name
          return results₁ ++ results₂) = .error .tooDeep := by
        rw [Machine.outcome, EvalM.bind_of_ok hm, hstop₂]
        rfl
      exact absurd hdeep hturn

/-- A text that is parsed but not read stops, and nothing is evaluated. -/
theorem Interpreter.runText_of_unread (i : Interpreter) {s : String} {nodes : List Node}
    {f : NodeFault} (hparse : parse s = .ok nodes) (hf : Value.ofNodes nodes = .error f)
    (name : String) (m : Machine) :
    i.runText s name m = .error (.node f) m ∨ i.runText s name m = .error .tooDeep m := by
  obtain ⟨-, hrun⟩ | hstop := i.runText_cases hparse name
  · rw [hrun, Form.valuesOf_eq_stop hf]
    exact Or.inl rfl
  · rw [hstop]
    exact Or.inr rfl

/-- **Programs one after the other.**  Let the first of two texts be one that can be parsed, and set
the second after it on a line of its own.

1. If the second text can be parsed, so can the whole, and its trees are read as those of the first
   text and then those of the second.
   * If no numeral of the two texts has too many digits for the host, both texts have forms, and the
     forms of the whole are those of the first text and then those of the second.  Running the whole
     is running the first text and then the second, with the results of both one after the other: on
     every machine, whatever is bound and printed, and also when a form stops, unless there are not
     calls enough for one of the two.
   * Otherwise the first such numeral keeps the whole from being read.  Running it stops, and
     nothing is evaluated, though the first text might have been run by itself.
2. If the second text is refused, so is the whole, for the same reason, in the same column, and as
   many lines further down as the first text takes.  Nothing is evaluated then. -/
theorem programs_concatenate {s₁ : String} {nodes₁ : List Node} (h₁ : parse s₁ = .ok nodes₁)
    (s₂ : String) :
    (∀ nodes₂, parse s₂ = .ok nodes₂ → ∃ nodes, parse (s₁ ++ "\n" ++ s₂) = .ok nodes ∧
      (unread? s₁ = none → unread? s₂ = none → ∃ forms₁ forms₂,
        Value.ofNodes nodes₁ = .ok forms₁ ∧ Value.ofNodes nodes₂ = .ok forms₂ ∧
        Value.ofNodes nodes = .ok (forms₁ ++ forms₂) ∧
        ∀ (i : Interpreter) (name : String) (m : Machine),
          m.outcome (i.runText (s₁ ++ "\n" ++ s₂) name) ≠ .error .tooDeep →
          m.outcome (i.runInTurn s₁ s₂ name) ≠ .error .tooDeep →
          i.runText (s₁ ++ "\n" ++ s₂) name m = i.runInTurn s₁ s₂ name m) ∧
      ∀ f, (unread? s₁).or (unread? s₂) = some f → Value.ofNodes nodes = .error f ∧
        ∀ (i : Interpreter) (name : String) (m : Machine),
          i.runText (s₁ ++ "\n" ++ s₂) name m = .error (.node f) m ∨
            i.runText (s₁ ++ "\n" ++ s₂) name m = .error .tooDeep m) ∧
    ∀ f, parse s₂ = .error f → ∃ f', parse (s₁ ++ "\n" ++ s₂) = .error f' ∧
      f'.detail = f.detail ∧ f'.position.column = f.position.column ∧
      f'.position.line = f.position.line + (1 + s₁.toList.count '\n') ∧
      ∀ (i : Interpreter) (name : String) (m : Machine),
        i.runText (s₁ ++ "\n" ++ s₂) name m =
            .ok [(Failure.malformedSource name f').toValue] m ∨
          i.runText (s₁ ++ "\n" ++ s₂) name m = .error .tooDeep m := by
  refine ⟨fun nodes₂ h₂ => ?_, fun f hf => ?_⟩
  · obtain ⟨nodes, hparse, hforms⟩ := parse_append_newline h₁ h₂
    refine ⟨nodes, hparse, fun hread₁ hread₂ => ?_, fun f hf => ?_⟩
    · obtain ⟨forms₁, hforms₁⟩ := exists_ofNodes_of_parse h₁ hread₁
      obtain ⟨forms₂, hforms₂⟩ := exists_ofNodes_of_parse h₂ hread₂
      rw [hforms₁, hforms₂] at hforms
      exact ⟨forms₁, forms₂, hforms₁, hforms₂, hforms, fun i name m =>
        i.runText_eq_runInTurn hparse h₁ h₂ hforms₁ hforms₂ hforms⟩
    · have hfault : Value.ofNodes nodes = .error f := by
        cases hread₁ : unread? s₁ with
        | some f₁ =>
          rw [hread₁] at hf
          cases hf
          rw [hforms, ofNodes_of_unread h₁ hread₁]
          rfl
        | none =>
          rw [hread₁, Option.none_or] at hf
          obtain ⟨forms₁, hforms₁⟩ := exists_ofNodes_of_parse h₁ hread₁
          rw [hforms, hforms₁, ofNodes_of_unread h₂ hf]
          rfl
      exact ⟨hfault, fun i name m => i.runText_of_unread hparse hfault name m⟩
  · have hparse := parse_append_newline_refused h₁ hf
    refine ⟨_, hparse, rfl, rfl, rfl, fun i name m => ?_⟩
    rcases i.runText_of_refused hparse name with ⟨-, hrun⟩ | hstop
    · rw [hrun]
      exact Or.inl rfl
    · rw [hstop]
      exact Or.inr rfl

/-- A comment with a quote in it, and on the next line a form that uses what the first text binds:
the quote opens no string, and the second text is run where the first has left off.  Behind the same
text, a list that is not closed is reported two lines further down than it stands in its own. -/
theorem programs_concatenate_comment :
    let s₁ := "(def \x7bx\x7d 1) ; \""
    let s₂ := "(+ x 2)"
    let s₃ := "\n \x7bx"
    let i : Interpreter := ⟨.bare, 0, 4⟩
    let m : Machine := .fresh false
    ((∃ nodes₁, parse s₁ = .ok nodes₁) ∧ (∃ nodes₂, parse s₂ = .ok nodes₂) ∧
      unread? s₁ = none ∧ unread? s₂ = none ∧
      i.runText (s₁ ++ "\n" ++ s₂) "f" m = i.runInTurn s₁ s₂ "f" m ∧
      (m.outcome (i.runText s₂ "f")).map (List.map Value.text) =
        .ok ["error: unbound symbol: x"] ∧
      (m.outcome (i.runText (s₁ ++ "\n" ++ s₂) "f")).map (List.map Value.text) = .ok ["()", "3"]) ∧
    parse s₃ = .error ⟨.unclosed .curly, ⟨2, 2⟩⟩ ∧
      ∃ f', parse (s₁ ++ "\n" ++ s₃) = .error f' ∧ f'.detail = .unclosed .curly ∧
        f'.position.column = 2 ∧ f'.position.line = 3 := by
  intro s₁ s₂ s₃ i m
  have hlex₁ : lex s₁ = ⟨[⟨.opener .round, "(", ⟨1, 1⟩⟩, ⟨.symbol, "def", ⟨1, 2⟩⟩,
      ⟨.opener .curly, "\x7b", ⟨1, 6⟩⟩, ⟨.symbol, "x", ⟨1, 7⟩⟩, ⟨.closer .curly, "\x7d", ⟨1, 8⟩⟩,
      ⟨.number, "1", ⟨1, 10⟩⟩, ⟨.closer .round, ")", ⟨1, 11⟩⟩, ⟨.comment, "; \"", ⟨1, 13⟩⟩],
      none⟩ := by decide +kernel
  have hlex₂ : lex s₂ = ⟨[⟨.opener .round, "(", ⟨1, 1⟩⟩, ⟨.symbol, "+", ⟨1, 2⟩⟩,
      ⟨.symbol, "x", ⟨1, 4⟩⟩, ⟨.number, "2", ⟨1, 6⟩⟩, ⟨.closer .round, ")", ⟨1, 7⟩⟩], none⟩ := by
    decide +kernel
  have hlex₃ : lex s₃ = ⟨[⟨.opener .curly, "\x7b", ⟨2, 2⟩⟩, ⟨.symbol, "x", ⟨2, 3⟩⟩], none⟩ := by
    decide +kernel
  obtain ⟨nodes₁, h₁⟩ : ∃ nodes₁, parse s₁ = .ok nodes₁ := by
    rw [parse, hlex₁]
    exact ⟨_, rfl⟩
  obtain ⟨nodes₂, h₂⟩ : ∃ nodes₂, parse s₂ = .ok nodes₂ := by
    rw [parse, hlex₂]
    exact ⟨_, rfl⟩
  have h₃ : parse s₃ = .error ⟨.unclosed .curly, ⟨2, 2⟩⟩ := by
    rw [parse, hlex₃]
    rfl
  have hread₁ : unread? s₁ = none := by
    rw [unread?, hlex₁]
    decide +kernel
  have hread₂ : unread? s₂ = none := by
    rw [unread?, hlex₂]
    decide +kernel
  have hwhole : (m.outcome (i.runText (s₁ ++ "\n" ++ s₂) "f")).map (List.map Value.text) =
      .ok ["()", "3"] := by decide +kernel
  have hturn : (m.outcome (i.runInTurn s₁ s₂ "f")).map (List.map Value.text) = .ok ["()", "3"] := by
    decide +kernel
  obtain ⟨nodes, -, hforms, -⟩ := (programs_concatenate h₁ s₂).1 nodes₂ h₂
  obtain ⟨-, -, -, -, -, hsame⟩ := hforms hread₁ hread₂
  have hdone : i.runText (s₁ ++ "\n" ++ s₂) "f" m = i.runInTurn s₁ s₂ "f" m := by
    refine hsame i "f" m (fun hdeep => ?_) fun hdeep => ?_
    · rw [hdeep] at hwhole
      cases hwhole
    · rw [hdeep] at hturn
      cases hturn
  obtain ⟨f', hparse, hdetail, hcolumn, hline, -⟩ := (programs_concatenate h₁ s₃).2 _ h₃
  exact ⟨⟨⟨nodes₁, h₁⟩, ⟨nodes₂, h₂⟩, hread₁, hread₂, hdone, by decide +kernel, hwhole⟩, h₃, f',
    hparse, hdetail, hcolumn, hline.trans (by decide)⟩

/-- A definition, and on the next line a numeral with too many digits.  Both texts can be parsed, and
run by itself the first one binds its name; but the whole is not read, and nothing is bound. -/
theorem numeral_stops_the_program_before :
    let s₁ := "(def \x7bx\x7d 1)"
    let s₂ := nines (Text.maxDigits + 1)
    let i : Interpreter := ⟨.bare, 0, 4⟩
    let m : Machine := .fresh false
    (∃ nodes₁, parse s₁ = .ok nodes₁) ∧ (∃ nodes₂, parse s₂ = .ok nodes₂) ∧
      (∃ nodes, parse (s₁ ++ "\n" ++ s₂) = .ok nodes) ∧
      (m.outcome (i.runText s₁ "f")).map (List.map Value.text) = .ok ["()"] ∧
      ((m.after (i.runText s₁ "f")).store.get? 0 "x").map Value.text = some "1" ∧
      m.outcome (i.runText (s₁ ++ "\n" ++ s₂) "f") =
        .error (.node (.badNumeral (.tooLong (Text.maxDigits + 1)))) ∧
      (m.after (i.runText (s₁ ++ "\n" ++ s₂) "f")).store.get? 0 "x" = none := by
  intro s₁ s₂ i m
  have hlex₁ : lex s₁ = ⟨[⟨.opener .round, "(", ⟨1, 1⟩⟩, ⟨.symbol, "def", ⟨1, 2⟩⟩,
      ⟨.opener .curly, "\x7b", ⟨1, 6⟩⟩, ⟨.symbol, "x", ⟨1, 7⟩⟩, ⟨.closer .curly, "\x7d", ⟨1, 8⟩⟩,
      ⟨.number, "1", ⟨1, 10⟩⟩, ⟨.closer .round, ")", ⟨1, 11⟩⟩], none⟩ := by decide +kernel
  have hlex : lex (s₁ ++ "\n" ++ s₂) = ⟨[⟨.opener .round, "(", ⟨1, 1⟩⟩, ⟨.symbol, "def", ⟨1, 2⟩⟩,
      ⟨.opener .curly, "\x7b", ⟨1, 6⟩⟩, ⟨.symbol, "x", ⟨1, 7⟩⟩, ⟨.closer .curly, "\x7d", ⟨1, 8⟩⟩,
      ⟨.number, "1", ⟨1, 10⟩⟩, ⟨.closer .round, ")", ⟨1, 11⟩⟩, ⟨.number, s₂, ⟨2, 1⟩⟩], none⟩ := by
    have hcount : s₁.toList.count '\n' = 0 := by decide
    rw [lex_append_newline (by rw [hlex₁]) s₂, hlex₁, lex_of_isNumeral (isNumeral_nines _), hcount]
    rfl
  obtain ⟨nodes₁, h₁, forms₁, hforms₁⟩ :
      ∃ nodes₁, parse s₁ = .ok nodes₁ ∧ ∃ forms₁, Value.ofNodes nodes₁ = .ok forms₁ := by
    rw [parse, hlex₁]
    exact ⟨_, rfl, _, by with_unfolding_all rfl⟩
  have h₂ : parse s₂ = .ok [.leaf .number ⟨.number, s₂, {}⟩] :=
    parse_of_isNumeral (isNumeral_nines _)
  obtain ⟨nodes, hparse, hforms⟩ := parse_append_newline h₁ h₂
  have htakes : i.evaluator.Takes (s₁ ++ "\n" ++ s₂) :=
    Evaluator.takes_of_lex rfl hlex rfl (Nat.le_of_ble_eq_true rfl) (Nat.le_of_ble_eq_true rfl)
  have hunread : Value.ofNodes nodes = .error (.badNumeral (.tooLong (Text.maxDigits + 1))) := by
    rw [hforms, hforms₁, ofNodes_of_unread h₂ unread?_nines]
    rfl
  have hwhole : i.runText (s₁ ++ "\n" ++ s₂) "f" m =
      .error (.node (.badNumeral (.tooLong (Text.maxDigits + 1)))) m := by
    rw [i.runText_of_takes htakes hparse, Form.valuesOf_eq_stop hunread]
    rfl
  refine ⟨⟨nodes₁, h₁⟩, ⟨_, h₂⟩, ⟨nodes, hparse⟩, by decide +kernel, by decide +kernel, ?_, ?_⟩
  · rw [Machine.outcome_eq_of_error hwhole]
  · rw [Machine.after_eq_of_error hwhole]
    decide +kernel

end CurryLisp

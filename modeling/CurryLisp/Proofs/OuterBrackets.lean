/-
# Outer brackets

A text that is evaluated as a whole is one round list, whether its brackets are written or not.
Written around the text they make it one form, so it may be evaluated as a whole or form by form,
and the result is the same.  And a text that is one form anyway gains nothing when it is read as a
whole.

The closing bracket stands on a line of its own, where no comment, string, number or symbol of the
text can take it in.  So the tokens in between are those of the text, at other places
(`lexFrom_retold`), and the whole is one list of the forms of the text (`parse_enclosed`).  What is
left is that a list of one cell comes to what the cell comes to (`evaluate_single`).  It is nested
one deeper, and nothing but the depth can tell the difference.

The main statement is `outer_brackets_are_optional`.
-/
import CurryLisp.Proofs.Depth
import CurryLisp.Proofs.Retelling
import CurryLisp.Proofs.Seams

namespace CurryLisp

/-! ## 1. Texts between brackets -/

/-- A text between round brackets, the closing one on a line of its own. -/
def enclosed (source : String) : String := "(" ++ source ++ "\n" ++ ")"

/-- Where a text begins makes no difference to its tokens but their places, nor to whether it is cut
without a fault. -/
theorem lexFrom_retold (p q : Position) (cs : List Char) :
    Retold (fun _ _ => True) (lexFrom p cs).tokens (lexFrom q cs).tokens ∧
      ((lexFrom p cs).fault = none → (lexFrom q cs).fault = none) := by
  fun_induction lexFrom p cs generalizing q with
  | case1 p =>
    rw [lexFrom_nil]
    exact ⟨.nil, id⟩
  | case2 p c rest hblank ih =>
    rw [lexFrom_blank q rest hblank]
    exact ih _
  | case3 p c rest hblank hl =>
    rw [lexFrom_stuck q (Bool.eq_false_iff.mpr hblank) hl]
    exact ⟨.nil, fun h => absurd h (Option.some_ne_none _)⟩
  | case4 p c rest hblank l hl ih =>
    rw [lexFrom_lexeme q (Bool.eq_false_iff.mpr hblank) hl]
    obtain ⟨htokens, hfault⟩ := ih (q.advanceOver l.chars)
    exact ⟨.token ⟨rfl, rfl, trivial⟩ htokens, hfault⟩

/-- The tokens of a text between brackets are those of the text between two brackets. -/
theorem lex_enclosed {source : String} (h : (lex source).fault = none) :
    ∃ (opener closer : Token) (inside : List Token), opener.kind = .opener .round ∧
      closer.kind = .closer .round ∧ Retold (fun _ _ => True) (lex source).tokens inside ∧
      lex (enclosed source) = ⟨opener :: (inside ++ [closer]), none⟩ := by
  let b : Bracket := .round
  have hchars : (enclosed source).toList =
      b.openChar :: (source.toList ++ '\n' :: [b.closeChar]) := by
    simp [enclosed, b, Bracket.openChar, Bracket.closeChar]
  let p : Position := Position.advance {} b.openChar
  let q : Position := (p.advanceOver source.toList).advance '\n'
  let opener : Token := ⟨.opener b, String.ofList [b.openChar], {}⟩
  let closer : Token := ⟨.closer b, String.ofList [b.closeChar], q⟩
  obtain ⟨htokens, hfault⟩ := lexFrom_retold {} p source.toList
  have hclose : lexFrom q [b.closeChar] = ⟨[closer], none⟩ := by
    rw [lexFrom_single q (by decide) (lexeme?_close b []), lexFrom_nil]
    rfl
  refine ⟨opener, closer, (lexFrom p source.toList).tokens, rfl, rfl, htokens, ?_⟩
  rw [lex, hchars, lexFrom_single {} (by decide) (lexeme?_open b _),
    lexFrom_append_newline (hfault h), hclose]
  rfl

/-- **A text between brackets is one form**, the round list of the forms of the text. -/
theorem parse_enclosed {source : String} {nodes : List Node} (hparse : parse source = .ok nodes) :
    ∃ node, parse (enclosed source) = .ok [node] ∧
      Value.ofNodes [node] = (Value.ofNodes nodes).map fun forms => [.sexpr forms] := by
  obtain ⟨hnone, hspells⟩ := parse_eq_ok_iff.mp hparse
  obtain ⟨opener, closer, inside, hopen, hclose, hinside, hlex⟩ := lex_enclosed hnone
  obtain ⟨nodes', hspells', hvalues⟩ := hspells.retold hinside
  refine ⟨.list .round opener nodes', ?_, ?_⟩
  · rw [parse_eq_ok_iff, hlex]
    exact ⟨rfl, .list hopen hclose hspells' .nil⟩
  · have hlist : Value.ofNode (.list .round opener nodes') = (Value.ofNodes nodes).map .sexpr := by
      rw [Node.list, Tag.ofBracket, Value.ofNode, hvalues]
    have htag : (Node.list .round opener nodes').tag ≠ .comment := by rintro ⟨⟩
    rw [Value.ofNodes, if_neg htag, hlist, Value.ofNodes]
    cases Value.ofNodes nodes <;> rfl

/-! ## 2. Lists of one cell -/

/-- A list of one cell comes to what the cell comes to, one evaluation deeper. -/
theorem evaluate_single (host : Host) (depth : Nat) (v : Value) (e : FrameId) :
    evaluate host (depth + 1) (.sexpr [v]) e = evaluate host depth v e := by
  have hcombine : ∀ r, combine host (evaluate host depth) e [r] = pure r := by
    intro r
    rw [combine, List.find?_cons]
    cases r.isError <;> rfl
  change reduce host (evaluate host depth) [v] e = _
  simp only [reduce, List.mapM_cons, List.mapM_nil, pure_bind, bind_assoc, hcombine, bind_pure]

/-- A list of one cell that is not nested too deeply does what the cell does. -/
theorem evaluate_single_eq {host : Host} {depth : Nat} {v : Value} {e : FrameId} {m : Machine}
    (h : m.outcome (evaluate host depth (.sexpr [v]) e) ≠ .error .tooDeep) :
    evaluate host depth (.sexpr [v]) e m = evaluate host depth v e m := by
  cases depth with
  | zero => exact absurd rfl h
  | succ d =>
    rw [evaluate_single] at h ⊢
    have hmore := evaluate_follows (.refl host) rfl (fun _ => True) (Nat.le_succ d)
    exact ((hmore.eval v e).eq h).symm

/-! ## 3. The theorem -/

/-- The one form of a text between brackets is there if the forms of the text are. -/
theorem Form.valuesOf_enclosed {node : Node} {nodes : List Node}
    (h : Value.ofNodes [node] = (Value.ofNodes nodes).map fun forms => [.sexpr forms]) :
    valuesOf [node] = do return [.sexpr (← valuesOf nodes)] := by
  cases hforms : Value.ofNodes nodes with
  | ok forms =>
    rw [hforms] at h
    rw [valuesOf_eq_pure hforms, valuesOf_eq_pure h, pure_bind]
  | error f =>
    rw [hforms] at h
    rw [valuesOf_eq_stop hforms, valuesOf_eq_stop h]
    rfl

/-- **Outer brackets are optional.**  Take a text that can be parsed and an interpreter.  Without calls
enough to parse and to read the text, or the text between brackets, evaluating or running it stops
for want of them.  With calls enough for both:

1. Running the text between brackets gives one result, the one that evaluating the text gives.
2. Evaluating the text between brackets is evaluating the text, with one more evaluation to nest.
3. So both do the same in the one interpreter, unless the former is nested too deeply.
4. If the text is one form, comments apart, then running it gives the one result that evaluating it
   gives, with one evaluation fewer to nest.  So both do the same in the one interpreter, unless
   the latter is nested too deeply.

To do the same is to start from any machine and to come to the same result or fault, the same
bindings and the same output.  The names that the text is given make no difference. -/
theorem outer_brackets_are_optional {source : String} {nodes : List Node}
    (hparse : parse source = .ok nodes) (host : Host) (root : FrameId) (depth : Nat)
    (name name' : String) :
    let i : Interpreter := ⟨host, root, depth⟩
    let deeper : Interpreter := ⟨host, root, depth + 1⟩
    (∀ s ∈ [source, enclosed source], ¬ i.evaluator.Takes s →
      i.evalText s name = Machine.stop .tooDeep ∧ i.runText s name' = Machine.stop .tooDeep) ∧
    (i.evaluator.Takes source → i.evaluator.Takes (enclosed source) →
      i.runText (enclosed source) name' = do return [← i.evalText source name]) ∧
    (i.evaluator.Takes source → deeper.evaluator.Takes (enclosed source) →
      deeper.evalText (enclosed source) name' = i.evalText source name) ∧
    (i.evaluator.Takes source → ∀ m,
      m.outcome (i.evalText (enclosed source) name') ≠ .error .tooDeep →
      i.evalText (enclosed source) name' m = i.evalText source name m) ∧
    ∀ v, Value.ofNodes nodes = .ok [v] →
      (i.evaluator.Takes source →
        i.runText source name' = do return [← deeper.evalText source name]) ∧
      ∀ m, m.outcome (i.evalText source name) ≠ .error .tooDeep →
        i.runText source name' m =
          (do return [← i.evalText source name] : EvalM (List Value)) m := by
  intro i deeper
  obtain ⟨node, hparse', hforms'⟩ := parse_enclosed hparse
  have hvalues := Form.valuesOf_enclosed hforms'
  have heval (htakes : i.evaluator.Takes source) : i.evalText source name =
      Form.valuesOf nodes >>= fun forms => i.evaluate (.sexpr forms) :=
    i.evalText_of_takes htakes hparse name
  have hdeeper (htakes : i.evaluator.Takes source) : deeper.evaluator.Takes source := by
    have hmono {w : Walk} (hw : i.evaluator.allows w = true) : deeper.evaluator.allows w = true := by
      rw [Interpreter.evaluator, evaluate_allows] at hw ⊢
      exact host.calls.allows_mono (Nat.le_succ depth) hw
    exact ⟨hmono htakes.1, fun ns hns => hmono (htakes.2 ns hns)⟩
  refine ⟨?_, fun htakes htakes' => ?_, fun htakes htakes' => ?_, fun htakes m hm => ?_,
    fun v hv => ?_⟩
  · have hstops {s : String} {ns : List Node} (hs : parse s = .ok ns)
        (hnot : ¬ i.evaluator.Takes s) := And.intro (i.evalText_of_not_takes hnot hs name)
          (i.runText_of_not_takes hnot hs name')
    intro s hs hnot
    rcases List.mem_pair.mp hs with rfl | rfl
    · exact hstops hparse hnot
    · exact hstops hparse' hnot
  · rw [i.runText_of_takes htakes' hparse', hvalues, heval htakes]
    simp only [bind_assoc, pure_bind, List.mapM_cons, List.mapM_nil]
  · rw [deeper.evalText_of_takes htakes' hparse', hvalues, heval htakes]
    simp only [bind_assoc, pure_bind]
    exact congrArg _ (funext fun forms => evaluate_single host depth (.sexpr forms) root)
  · rcases i.evalText_cases hparse' name' with ⟨-, heval'⟩ | hstop
    · rw [heval'] at hm ⊢
      rw [heval htakes]
      rw [hvalues, bind_assoc] at hm ⊢
      simp only [pure_bind] at hm ⊢
      cases hforms : Value.ofNodes nodes with
      | ok forms =>
        rw [Form.valuesOf_eq_pure hforms, pure_bind] at hm
        rw [Form.valuesOf_eq_pure hforms, pure_bind, pure_bind]
        exact evaluate_single_eq hm
      | error f =>
        rw [Form.valuesOf_eq_stop hforms]
        rfl
    · rw [hstop] at hm
      exact absurd rfl hm
  · have hsingle : deeper.evaluate (.sexpr [v]) = i.evaluate v :=
      evaluate_single host depth v root
    have hpure := Form.valuesOf_eq_pure hv
    refine ⟨fun htakes => ?_, fun m hm => ?_⟩
    · rw [i.runText_of_takes htakes hparse, deeper.evalText_of_takes (hdeeper htakes) hparse, hpure,
        pure_bind, pure_bind, hsingle]
      simp only [List.mapM_cons, List.mapM_nil, pure_bind]
    · rcases i.evalText_cases hparse name with ⟨htakes, heval'⟩ | hstop
      · rw [heval', hpure, pure_bind] at hm
        rw [i.runText_of_takes htakes hparse, heval', hpure, pure_bind, pure_bind]
        simp only [List.mapM_cons, List.mapM_nil, pure_bind]
        exact EvalM.bind_congr_run (evaluate_single_eq hm).symm _
      · rw [hstop] at hm
        exact absurd rfl hm

/-- One form, and after it a comment with a closing bracket that closes nothing. -/
theorem outer_brackets_are_optional_comment :
    let source := "(+ 1 2) ; )"
    let form : Value := .sexpr [.symbol "+", .number 1, .number 2]
    let i : Interpreter := ⟨.bare, 0, 4⟩
    let m := Machine.fresh false
    ∃ nodes, parse source = .ok nodes ∧ Value.ofNodes nodes = .ok [form] ∧
      i.evaluator.Takes source ∧ i.evaluator.Takes (enclosed source) ∧
      m.outcome (i.evalText source "<input>") = .ok (.number 3) ∧
      m.outcome (i.evalText (enclosed source) "<input>") = .ok (.number 3) ∧
      i.evalText (enclosed source) "<input>" m = i.evalText source "<input>" m ∧
      i.runText source "<input>" m =
        (do return [← i.evalText source "<input>"] : EvalM (List Value)) m := by
  intro source form i m
  have hlex : lex source = ⟨[⟨.opener .round, "(", ⟨1, 1⟩⟩, ⟨.symbol, "+", ⟨1, 2⟩⟩,
      ⟨.number, "1", ⟨1, 4⟩⟩, ⟨.number, "2", ⟨1, 6⟩⟩, ⟨.closer .round, ")", ⟨1, 7⟩⟩,
      ⟨.comment, "; )", ⟨1, 9⟩⟩], none⟩ := by decide +kernel
  have hlex' : lex (enclosed source) = ⟨[⟨.opener .round, "(", ⟨1, 1⟩⟩,
      ⟨.opener .round, "(", ⟨1, 2⟩⟩, ⟨.symbol, "+", ⟨1, 3⟩⟩, ⟨.number, "1", ⟨1, 5⟩⟩,
      ⟨.number, "2", ⟨1, 7⟩⟩, ⟨.closer .round, ")", ⟨1, 8⟩⟩, ⟨.comment, "; )", ⟨1, 10⟩⟩,
      ⟨.closer .round, ")", ⟨2, 1⟩⟩], none⟩ := by decide +kernel
  obtain ⟨nodes, hparse, hforms⟩ : ∃ nodes, parse source = .ok nodes ∧
      Value.ofNodes nodes = .ok [form] := by
    rw [parse, hlex]
    exact ⟨_, rfl, by with_unfolding_all rfl⟩
  obtain ⟨nodes', hparse', hforms'⟩ : ∃ nodes', parse (enclosed source) = .ok nodes' ∧
      Value.ofNodes nodes' = .ok [.sexpr [form]] := by
    rw [parse, hlex']
    exact ⟨_, rfl, by with_unfolding_all rfl⟩
  have htakes : i.evaluator.Takes source :=
    Evaluator.takes_of_lex rfl hlex rfl (by decide +kernel) (by decide +kernel)
  have htakes' : i.evaluator.Takes (enclosed source) :=
    Evaluator.takes_of_lex rfl hlex' rfl (by decide +kernel) (by decide +kernel)
  have hsum : m.outcome (i.evalText source "<input>") = .ok (.number 3) := by
    rw [i.evalText_of_takes htakes hparse, Form.valuesOf_eq_pure hforms]
    with_unfolding_all rfl
  have hsum' : m.outcome (i.evalText (enclosed source) "<input>") = .ok (.number 3) := by
    rw [i.evalText_of_takes htakes' hparse', Form.valuesOf_eq_pure hforms']
    with_unfolding_all rfl
  obtain ⟨-, -, -, hsame, hone⟩ :=
    outer_brackets_are_optional hparse .bare 0 4 "<input>" "<input>"
  refine ⟨nodes, hparse, hforms, htakes, htakes', hsum, hsum', hsame htakes m ?_,
    (hone form hforms).2 m ?_⟩
  · rw [hsum']
    rintro ⟨⟩
  · rw [hsum]
    rintro ⟨⟩

end CurryLisp

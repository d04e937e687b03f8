/-
# Printed functions

A function is printed as a form that makes a function: the word for making one, the parameters as a
quoted list, and the body as another.  So its printed form can be read and evaluated like any other
text.  What comes out has the same parameters and the same body.  It has been given no arguments,
since those are not printed, and it was made where the form was evaluated.

Three inverses meet here.  A function is printed as the form `Value.making`, and reading takes that
back (`parse_text`).  A parameter list that was accepted is written as it was, also when parameters
have been bound (`Formals.Proper.ofNames_names`, `Formals.Proper.drop`).  And evaluating the form
makes the function that it is the form of (`evaluate_making`).

The main statement is `printed_functions_evaluate_back`.
-/
import CurryLisp.Proofs.Calls
import CurryLisp.Proofs.PrintedResults
import CurryLisp.Proofs.Reports
import CurryLisp.Value.Same

namespace CurryLisp

/-! ## 1. The form that makes a function -/

namespace Value

/-- The form that makes a function with given parameters and body. -/
def making (f : Formals) (body : List Value) : Value :=
  sexpr [symbol Form.lambda.name, ofFormals f, qexpr body]

/-- A parameter list is printed as the quoted list that it is. -/
theorem chars_ofFormals (f : Formals) : (ofFormals f).chars = f.chars := by
  have hnames : (symbols f.names).map chars = f.names.map String.toList := by
    rw [symbols, List.map_map]
    exact List.map_congr_left fun x _ => chars_symbol x
  rw [ofFormals, chars_qexpr, cellsChars_eq_spaced, hnames, Formals.chars]

/-- **A function is printed as the form that makes it.** -/
theorem text_lambda (f : Formals) (body : List Value) (own : List (String × Value))
    (scope : Option FrameId) : (lambda f body own scope).text = (making f body).text := by
  have hword : Form.lambda.name.toList = ['\\'] := rfl
  have hcells : cellsChars [symbol Form.lambda.name, ofFormals f, qexpr body] =
      '\\' :: ' ' :: (f.chars ++ ' ' :: bracketed .curly (cellsChars body)) := by
    rw [cellsChars, cellsChars, cellsChars, chars_symbol, hword, chars_ofFormals, chars_qexpr]
    rfl
  rw [text, text, chars_lambda, making, chars_sexpr, hcells]

/-- The form can be read back if the names of the parameters are single tokens and the body can be
read back. -/
theorem readable_making {f : Formals} {body : List Value} (hnames : ∀ x ∈ f.names, IsSymbolToken x)
    (hbody : ∀ c ∈ body, c.Readable) : (making f body).Readable := by
  have hword : (symbol Form.lambda.name).Readable :=
    all_of_parts_nil rfl (isSymbolToken_name (.form .lambda))
  have hformals : (ofFormals f).Readable := by
    refine all_qexpr.mpr ⟨trivial, fun c hc => ?_⟩
    obtain ⟨x, hx, rfl⟩ := List.mem_map.mp hc
    exact all_of_parts_nil rfl (hnames x hx)
  refine all_sexpr.mpr ⟨trivial, ?_⟩
  simp only [List.mem_cons, List.not_mem_nil, or_false]
  rintro c (rfl | rfl | rfl)
  · exact hword
  · exact hformals
  · exact all_qexpr.mpr ⟨trivial, hbody⟩

end Value

/-- **Evaluating the form makes the function**, where the word for making functions is bound to what
makes them, once the body has been copied. -/
theorem evaluate_making {f : Formals} (hf : f.Proper) (body : List Value) (host : Host)
    (depth : Nat) {e : FrameId} {m : Machine}
    (hbound : m.store.get? e Form.lambda.name = some (.builtin (.form .lambda))) :
    evaluate host (depth + 2) (.making f body) e m =
      (do
        (evaluate host (depth + 1)).walk [.copying (.qexpr body)]
        Form.close e f body) m := by
  have hargs : List.Forall₂ (fun c a => evaluate host (depth + 1) c e m = .ok a m)
      [.ofFormals f, .qexpr body] [.ofFormals f, .qexpr body] := .cons rfl (.cons rfl .nil)
  have hformals : Formals.ofCells Form.lambda.name (Value.symbols f.names) = .ok f := by
    rw [Formals.ofCells_symbols, hf.ofNames_names]
  have hwalks : (Builtin.form .lambda).walks e [.ofFormals f, .qexpr body] =
      [.copying (.qexpr body)] := by
    rw [Builtin.walks, Form.walks, Value.ofFormals, Form.signature_qexprs, hformals]
    rfl
  have hmake : (Builtin.form .lambda).call host (evaluate host (depth + 1)) e
      [.ofFormals f, .qexpr body] = Form.close e f body := by
    funext m
    refine (Form.call_lambda host _ e m _ body).trans ?_
    rw [hformals]
    rfl
  have hcall := evaluate_builtin_walk (b := .form .lambda) hbound hargs (List.cons_ne_nil _ _)
    (by simp [Value.isError, Value.ofFormals])
  rwa [hwalks, hmake] at hcall

/-! ## 2. The theorem -/

/-- **A printed function evaluates back.**  Take a function whose parameters are what is left of an
accepted list when `n` parameters have been bound, whatever arguments it has been given and wherever
it was made.  The names of the parameters are single symbol tokens, and its body is built from
numbers in range, texts, such symbols and lists.

Its printed form parses, and is one form.  In any environment in which the word for making functions
is bound to what makes them, this form evaluates to a function with the same parameters and the same
body, which is the same value as the one that was printed.  The new function has been given no
arguments and belongs to that environment.  Nothing is printed, and no binding is changed.  Only the
want of calls to copy the body can keep it from being made. -/
theorem printed_functions_evaluate_back {func : String} {cells : List Value} {f₀ : Formals}
    (hcells : Formals.ofCells func cells = .ok f₀) (n : Nat) {body : List Value} (own : Bindings)
    (scope : Option FrameId) (hnames : ∀ x ∈ (f₀.drop n).names, IsSymbolToken x)
    (hbody : ∀ c ∈ body, c.Readable) :
    let f := f₀.drop n
    let fn := Value.lambda f body own scope
    ∃ node form, parse fn.text = .ok [node] ∧ Value.ofNodes [node] = .ok [form] ∧
      ∀ host depth e m, m.store.get? e "\\" = some (.builtin (.form .lambda)) →
        (host.calls.allows (depth + 1) (.copying (.qexpr body)) = true →
          ∃ m', evaluate host (depth + 2) form e m = .ok (.lambda f body [] (some e)) m' ∧
            (Value.lambda f body [] (some e)).same fn = true ∧ m'.SameButReports m) ∧
        (host.calls.allows (depth + 1) (.copying (.qexpr body)) = false →
          evaluate host (depth + 2) form e m = .error .tooDeep m) := by
  intro f fn
  have hproper : f.Proper := (Formals.ofCells_eq_ok.mp hcells).2.drop n
  obtain ⟨node, hparse, htag, hnode⟩ := parse_text (Value.readable_making hnames hbody)
  rw [← Value.text_lambda f body own scope] at hparse
  refine ⟨node, .making f body, hparse, Value.ofNodes_single htag hnode, ?_⟩
  intro host depth e m hbound
  have hmaking := evaluate_making hproper body host depth hbound
  constructor
  · intro hcopy
    rw [Evaluator.walk_single hcopy] at hmaking
    exact ⟨_, hmaking, Value.same_self fn, .note _ (.refl m)⟩
  · intro hcopy
    rw [Evaluator.walk_single_of_not hcopy] at hmaking
    exact hmaking

/-- A function that takes one more argument and all that follow.  It has been given one already, and
its body holds a negative number, a text with a quote in it and a form. -/
theorem printed_functions_evaluate_back_rest :
    let f₀ : Formals := ⟨["a", "x"], some "r"⟩
    let f : Formals := ⟨["x"], some "r"⟩
    let body : List Value := [.symbol "+", .number (-2), .string "\"", .sexpr [.symbol "x"]]
    let fn := Value.lambda f body [("a", .number 1)] none
    Formals.ofCells "\\" (Value.symbols ["a", "x", "&", "r"]) = .ok f₀ ∧
    (∀ x ∈ f.names, IsSymbolToken x) ∧ (∀ c ∈ body, c.Readable) ∧
    (Machine.fresh false).store.get? 0 "\\" = some (.builtin (.form .lambda)) ∧
    Host.bare.calls.allows 2 (.copying (.qexpr body)) = true ∧
    ∃ node form m', parse fn.text = .ok [node] ∧ Value.ofNodes [node] = .ok [form] ∧
      evaluate .bare 3 form 0 (.fresh false) = .ok (.lambda f body [] (some 0)) m' ∧
      m'.SameButReports (.fresh false) := by
  intro f₀ f body fn
  have hcells : Formals.ofCells "\\" (Value.symbols ["a", "x", "&", "r"]) = .ok f₀ := rfl
  have hnames : ∀ x ∈ f.names, IsSymbolToken x := by
    have hlex : ∀ x ∈ f.names, (lex x).tokens = [⟨.symbol, x, {}⟩] := by decide +kernel
    intro x hx
    exact isSymbolToken_of_mem_lex (hlex x hx ▸ List.mem_singleton_self _) rfl
  have hbody : ∀ c ∈ body, c.Readable := by
    have hplus : IsSymbolToken "+" := isSymbolToken_name (.operator .add)
    have hx : IsSymbolToken "x" := hnames "x" (by decide)
    simp only [body, List.mem_cons, List.not_mem_nil, or_false]
    rintro c (rfl | rfl | rfl | rfl)
    · exact Value.all_of_parts_nil rfl hplus
    · exact Value.all_of_parts_nil rfl (by decide : fits (-2) = true)
    · exact Value.all_of_parts_nil rfl trivial
    · refine Value.all_sexpr.mpr ⟨trivial, fun c hc => ?_⟩
      rw [List.mem_singleton.mp hc]
      exact Value.all_of_parts_nil rfl hx
  have hbound : (Machine.fresh false).store.get? 0 "\\" = some (.builtin (.form .lambda)) := by
    with_unfolding_all rfl
  obtain ⟨node, form, hparse, hform, heval⟩ :=
    printed_functions_evaluate_back hcells 1 [("a", .number 1)] none hnames hbody
  have hcopy : Host.bare.calls.allows 2 (.copying (.qexpr body)) = true := rfl
  obtain ⟨m', hrun, -, hsame⟩ := (heval .bare 1 0 (.fresh false) hbound).1 hcopy
  exact ⟨hcells, hnames, hbody, hbound, hcopy, node, form, m', hparse, hform, hrun, hsame⟩

end CurryLisp

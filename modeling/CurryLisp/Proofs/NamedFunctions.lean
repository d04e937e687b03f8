/-
# Functions with a name

`fun` makes a function and binds it, and there are a form that makes functions and a form that binds
names.  `fun` calls neither: it takes its signature apart, checks the parameters and binds the name
by itself.  All the same it does what making the function and then binding the name would do, down to
what is reported, and it refuses the parameters that making a function refuses.  The function belongs
to the environment of the call; the name is bound in the root of that environment.

* `Formals.ofCells_alike`: what different builtins say of a parameter list;
* `Machine.BindsOnly`: all that a definition changes;
* `Form.call_lambda_and_function`: making a function and making one with a name, side by side.

The main statement is `naming_makes_and_binds`.
-/
import CurryLisp.Proofs.Calls
import CurryLisp.Proofs.Chains
import CurryLisp.Proofs.Reports
import CurryLisp.Proofs.Session

namespace CurryLisp

/-! ## 1. What is said of a parameter list -/

/-- Two errors are of one kind, and their texts differ at most in the function that they name. -/
def Value.SameErrorOf (func func' : String) (e e' : Value) : Prop :=
  ∃ kind text text', e = .error text kind ∧ e' = .error text' kind ∧
    (text = text' ∨ ∃ rest, text = "function '" ++ func ++ rest ∧ text' = "function '" ++ func' ++ rest)

/-- The report of a wrong type names the function once, and nothing else of it depends on the
function. -/
theorem Failure.exists_toValue_wrongType (index : Nat) (wanted : Wanted) (got : Shape) :
    ∃ rest, ∀ func, (wrongType func index wanted got).toValue =
      .error ("function '" ++ func ++ rest) .typeMismatch := by
  refine ⟨"' passed incorrect type for argument " ++ toString index ++ ": got " ++ got.name ++
    ", expected " ++ wanted.text, fun func => ?_⟩
  simp only [← String.append_assoc]
  rfl

/-- **Two functions say the same of a parameter list**: both accept it, for the same parameters, or
both refuse it. -/
theorem Formals.ofCells_alike (func func' : String) (cells : List Value) :
    (∃ f, ofCells func cells = .ok f ∧ ofCells func' cells = .ok f) ∨
      ∃ e e', ofCells func cells = .error e ∧ ofCells func' cells = .error e' ∧
        Value.SameErrorOf func func' e.toValue e'.toValue := by
  cases hfirst : cells.findIdx? fun v => (Variant.symbol.get? v).isNone with
  | some i =>
    obtain ⟨v, hv, htake⟩ := Variant.takeFrom_eq_error hfirst func 0
    obtain ⟨v', hv', htake'⟩ := Variant.takeFrom_eq_error hfirst func' 0
    obtain rfl := Option.some.inj (hv.symm.trans hv')
    obtain ⟨rest, hrest⟩ := Failure.exists_toValue_wrongType (0 + i) (.shape .symbol) v.shape
    refine Or.inr ⟨_, _, ?_, ?_, .typeMismatch, _, _, hrest func, hrest func',
      Or.inr ⟨rest, rfl, rfl⟩⟩
    · rw [ofCells, Variant.takeAll, htake]
      rfl
    · rw [ofCells, Variant.takeAll, htake']
      rfl
  | none =>
    obtain ⟨names, rfl⟩ := Value.exists_symbols (by simpa only [Variant.isNone_symbol] using hfirst)
    rw [ofCells_symbols, ofCells_symbols]
    cases ofNames names with
    | ok f => exact Or.inl ⟨f, rfl, rfl⟩
    | error e => exact Or.inr ⟨e, e, rfl, rfl, e.kind, e.message, e.message, rfl, rfl, Or.inl rfl⟩

/-! ## 2. What a definition changes -/

/-- All that has changed is that a name is bound in a frame.  What has been reported is left out. -/
structure Machine.BindsOnly (m m' : Machine) (e : FrameId) (x : String) (v : Value) : Prop where
  printed : m'.printed = m.printed
  size : m'.store.size = m.store.size
  parent : ∀ i, m'.store.parent? i = m.store.parent? i
  /-- the other frames bind what they bound -/
  bindings : ∀ i, i ≠ e → m'.store.bindings i = m.store.bindings i
  bound : (m'.store.bindings e).lookup x = some v
  /-- the other names of the frame are bound to what they were bound to -/
  lookup : ∀ y, y ≠ x → (m'.store.bindings e).lookup y = (m.store.bindings e).lookup y
  /-- a new name comes last, and a name that was bound keeps its place -/
  names : (m'.store.bindings e).names = if x ∈ (m.store.bindings e).names then
    (m.store.bindings e).names else (m.store.bindings e).names ++ [x]

/-- A name is bound in a frame that is there, and that is all. -/
theorem Machine.BindsOnly.putAll {m : Machine} {e : Nat} (he : e < m.store.size) (x : String)
    (v : Value) (events : Array Event) :
    m.BindsOnly { m with store := m.store.putAll e [(x, v)], events := events } e x v := by
  have hbindings : (m.store.putAll e [(x, v)]).bindings e = (m.store.bindings e).put x v :=
    Store.bindings_update_self he _
  refine ⟨rfl, Store.size_update _ _ _, fun i => Store.parent?_update _ _ i _,
    fun i hi => Store.bindings_update_ne _ hi _, ?_, fun y hy => ?_, ?_⟩
  · rw [hbindings, Bindings.lookup_put_self]
  · rw [hbindings, Bindings.lookup_put_ne _ _ hy]
  · rw [hbindings, Bindings.names_put]

/-! ## 3. Two calls side by side -/

namespace Form

section SideBySide

variable (host : Host) (ev : Evaluator) (env : FrameId) (m : Machine) (name : String)
  (cells body : List Value)

/-- **Both calls accept the parameters, or both refuse them.** -/
theorem call_lambda_and_function :
    (∃ f, Value.ofFormals f = .qexpr cells ∧
      Builtin.call host ev (.form .lambda) env [.qexpr cells, .qexpr body] m =
        .ok (.lambda f body [] (some env))
          { m with events := m.events.push (.lambdaMade f body) } ∧
      Builtin.call host ev (.form .function) env [.qexpr (.symbol name :: cells), .qexpr body] m =
        .ok .unit { m with
          store := m.store.putAll (m.store.root env) [(name, .lambda f body [] (some env))]
          events := m.events.push (.lambdaMade f body) }) ∨
    ∃ e e' : Failure,
      Builtin.call host ev (.form .lambda) env [.qexpr cells, .qexpr body] m = .ok e.toValue m ∧
      Builtin.call host ev (.form .function) env [.qexpr (.symbol name :: cells), .qexpr body] m =
        .ok e'.toValue m ∧
      Value.SameErrorOf lambda.name function.name e.toValue e'.toValue := by
  rw [call_lambda, call_function]
  rcases Formals.ofCells_alike lambda.name function.name cells with
    ⟨f, hf, hf'⟩ | ⟨e, e', he, he', halike⟩
  · rw [hf, hf']
    have hwritten : Value.ofFormals f = .qexpr cells := by
      rw [(Formals.ofCells_eq_ok.mp hf).1]
      rfl
    exact Or.inl ⟨f, hwritten, rfl, rfl⟩
  · rw [he, he']
    exact Or.inr ⟨e, e', rfl, rfl, halike⟩

/-- A signature that does not begin with a name is refused. -/
theorem exists_call_function_of_unnamed {signature : List Value}
    (h : ¬ ∃ name formals, signature = .symbol name :: formals) :
    ∃ e : Failure, Builtin.call host ev (.form .function) env [.qexpr signature, .qexpr body] m =
      .ok e.toValue m := by
  cases signature with
  | nil => exact ⟨_, rfl⟩
  | cons v rest =>
    cases v with
    | symbol name => exact absurd ⟨name, rest, rfl⟩ h
    | number | string | error | sexpr | qexpr | builtin | lambda => exact ⟨_, rfl⟩

end SideBySide

/-! ## 4. The theorem -/

/-- **Naming a function is making it and binding the name**, on a machine and in an environment, for
a signature and a body.

1. A call of `fun` always answers.  It succeeds if the signature begins with a symbol and a call of
   the form that makes functions, with the rest of the signature and the body, makes a function.
   Otherwise it fails.
2. If the function is made, it has the parameters as they are written, the body, no arguments and the
   environment of the call.  `fun` gives the empty list and leaves the machine that a definition of
   the name leaves on the machine on which the function was made; without that call before, only its
   report is missing.  All that has changed is that the root of the environment binds the name to the
   function.
3. If the parameters are refused, `fun` refuses them with an error of the same kind, whose text
   differs at most in the function that it names.  Nothing has changed. -/
theorem naming_makes_and_binds (host : Host) (ev : Evaluator) {env : FrameId} {m : Machine}
    (henv : env < m.store.size) (signature body : List Value) :
    let call (f : Form) (args : List Value) : EvalM Value := Builtin.call host ev (.form f) env args
    let named := call .function [.qexpr signature, .qexpr body]
    let made (formals : List Value) := call .lambda [.qexpr formals, .qexpr body]
    (∃ v m', named m = .ok v m' ∧ (v.isError = false ↔
      ∃ name formals, signature = .symbol name :: formals ∧
        ∃ f code own scope m₁, made formals m = .ok (.lambda f code own scope) m₁)) ∧
    ∀ name formals, signature = .symbol name :: formals → ∃ g m₁, made formals m = .ok g m₁ ∧
      (g.isError = false →
        (∃ f, g = .lambda f body [] (some env) ∧ Value.ofFormals f = .qexpr formals) ∧
        ∃ m', named m = .ok .unit m' ∧ call .define [.qexpr [.symbol name], g] m₁ = .ok .unit m' ∧
          (∃ m₂, call .define [.qexpr [.symbol name], g] m = .ok .unit m₂ ∧
            m'.SameButReports m₂) ∧
          m.BindsOnly m' (m.store.root env) name g) ∧
      (g.isError = true → m₁ = m ∧
        ∃ e, named m = .ok e m ∧ Value.SameErrorOf "\\" "fun" g e) := by
  intro call named made
  constructor
  · by_cases hs : ∃ name formals, signature = .symbol name :: formals
    · obtain ⟨name, formals, rfl⟩ := hs
      rcases call_lambda_and_function host ev env m name formals body with
        ⟨f, -, hmade, hnamed⟩ | ⟨e, e', hmade, hnamed, -⟩
      · exact ⟨_, _, hnamed, iff_of_true rfl ⟨name, formals, rfl, f, body, [], _, _, hmade⟩⟩
      · refine ⟨_, _, hnamed, iff_of_false nofun ?_⟩
        rintro ⟨_, _, hs, f, code, own, scope, m₁, hf⟩
        cases hs
        cases hmade.symm.trans hf
    · obtain ⟨e, he⟩ := exists_call_function_of_unnamed host ev env m body hs
      refine ⟨_, _, he, iff_of_false nofun ?_⟩
      rintro ⟨name, formals, h, -⟩
      exact hs ⟨name, formals, h⟩
  · rintro name formals rfl
    rcases call_lambda_and_function host ev env m name formals body with
      ⟨f, hwritten, hmade, hnamed⟩ | ⟨e, e', hmade, hnamed, halike⟩
    · have hroot : m.store.root env < m.store.size := Nat.lt_of_le_of_lt (Store.root_le _ _) henv
      refine ⟨_, _, hmade, fun _ => ⟨⟨f, rfl, hwritten⟩, _, hnamed, ?_, ?_, ?_⟩, nofun⟩
      · exact call_define host ev env _ name _
      · exact ⟨_, call_define host ev env m name _, rfl, rfl⟩
      · exact .putAll hroot name _ _
    · exact ⟨_, _, hmade, nofun, fun _ => ⟨rfl, _, hnamed, halike⟩⟩

/-- A function that takes one argument and all that follow, named inside of a call, and the same
signature without the last symbol. -/
theorem naming_makes_and_binds_rest :
    let m : Machine :=
      { Machine.fresh true with store := (Store.fresh true).alloc [("x", .number 1)] (some 0) }
    let fn (signature : List String) : EvalM Value := Builtin.call .bare (evaluate .bare 0)
      (.form .function) 1 [.qexpr (Value.symbols signature), .qexpr [.symbol "x"]]
    1 < m.store.size ∧
      (∃ m', fn ["f", "x", "&", "r"] m = .ok .unit m' ∧
        m.BindsOnly m' 0 "f" (.lambda ⟨["x"], some "r"⟩ [.symbol "x"] [] (some 1))) ∧
      ∃ e, fn ["f", "x", "&"] m = .ok e m ∧
        Value.SameErrorOf "\\" "fun" Failure.variadicSignature.toValue e := by
  intro m fn
  have henv : 1 < m.store.size := Nat.one_lt_two
  have hroot : m.store.root 1 = 0 :=
    (Store.root_of_parent (p := 0) rfl).trans (Store.root_of_root rfl)
  refine ⟨henv, ?_, ?_⟩
  · obtain ⟨g, m₁, hmade, hnamed, -⟩ := (naming_makes_and_binds .bare (evaluate .bare 0) henv
      (Value.symbols ["f", "x", "&", "r"]) [.symbol "x"]).2 "f" _ rfl
    cases hmade
    obtain ⟨-, m', hm', -, -, honly⟩ := hnamed rfl
    rw [hroot] at honly
    exact ⟨m', hm', honly⟩
  · obtain ⟨g, m₁, hmade, -, hnamed⟩ := (naming_makes_and_binds .bare (evaluate .bare 0) henv
      (Value.symbols ["f", "x", "&"]) [.symbol "x"]).2 "f" _ rfl
    cases hmade
    exact (hnamed rfl).2

end Form

end CurryLisp

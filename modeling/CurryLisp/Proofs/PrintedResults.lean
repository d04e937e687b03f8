/-
# Printed results

What a step of a session gives is printed, and a program, or whoever sits at the terminal, may hand
the printed form to the interpreter again.  If nothing inside it is an error or a function, that
gives the same value once more, prints nothing and changes nothing.

Three things come together.  Results evaluate to themselves (`evaluate_of_settled`), printed forms
are read as what they were printed from (`parse_text`), and these two meet because no program makes
a symbol that is not written as one: every name in a session comes from a token of a text or from
the library, and is moved around (`Value.regular_spelled`).  Numbers are written as numbers as long
as they are in range, which `Keeping.perform_inRange` is about.
-/
import CurryLisp.Proofs.Range
import CurryLisp.Proofs.Settled

namespace CurryLisp

/-! ## 1. Symbols that are written as symbols -/

/-- A single symbol token is cut as one. -/
theorem lex_of_isSymbolToken {x : String} (h : IsSymbolToken x) :
    lex x = ⟨[⟨.symbol, x, {}⟩], none⟩ := by
  obtain ⟨c, more, hx, hstart, hall⟩ := h
  have hc : isSymbolChar c = true := hall c List.mem_cons_self
  have hlexeme := lexeme?_symbol hc hstart (fun d hd => hall d (List.mem_cons_of_mem _ hd)) apart_nil
  rw [List.append_nil] at hlexeme
  have hcut := lexFrom_lexeme {} (isBlank_of_isSymbolChar hc) hlexeme
  rw [lexFrom_nil] at hcut
  rw [lex, hx, hcut, ← hx, String.ofList_toList]
  rfl

/-- The symbols of a text are single symbol tokens. -/
theorem isSymbolToken_of_mem_lex {source : String} {t : Token} (h : t ∈ (lex source).tokens)
    (hk : t.kind = .symbol) : IsSymbolToken t.text := by
  have hproper := proper_of_mem_lex h
  rwa [Token.Proper, hk] at hproper

/-- So are the names of the builtins. -/
theorem isSymbolToken_name (b : Builtin) : IsSymbolToken b.name := by
  have all : ∀ b ∈ Builtin.core ++ Builtin.extended,
      lex b.name = ⟨[⟨.symbol, b.name, {}⟩], none⟩ := by decide +kernel
  have hlex := all b b.mem_libraries
  exact isSymbolToken_of_mem_lex (t := ⟨.symbol, b.name, {}⟩) (by rw [hlex]; simp) rfl

namespace Value

/-- The names that a value has, those inside it apart. -/
def Names : Value → String → Prop
  | symbol y, x => x = y
  | lambda f _ own _, x => f.Names own x
  | _, _ => False

/-- The names that a value has are single tokens. -/
def Spelled (v : Value) : Prop := ∀ x, v.Names x → IsSymbolToken x

/-- The names that a value has are cut as single symbols, which are those names. -/
def NamesRead (v : Value) : Prop := ∀ x, v.Names x → lex x = ⟨[⟨.symbol, x, {}⟩], none⟩

/-- Neither an error nor a function. -/
def Data : Value → Prop
  | error _ _ | builtin _ | lambda _ _ _ _ => False
  | _ => True

theorem Spelled.namesRead {v : Value} (h : v.Spelled) : v.NamesRead :=
  fun x hx => lex_of_isSymbolToken (h x hx)

theorem spelled_symbol {x : String} : (symbol x).Spelled ↔ IsSymbolToken x :=
  ⟨fun h => h x rfl, fun h _ hy => hy ▸ h⟩

/-- **Programs make no symbol that is not written as one.** -/
theorem regular_spelled : Regular Spelled where
  number _ _ := nofun
  string _ := nofun
  error _ _ := nofun
  sexpr _ := nofun
  qexpr _ := nofun
  symbol ht hk := spelled_symbol.mpr (isSymbolToken_of_mem_lex ht hk)
  builtin _ := nofun
  name b := spelled_symbol.mpr (isSymbolToken_name b)
  lambda := forall₂_congr fun _ _ => spelled_symbol.symm

theorem readable_of_spelled {v : Value} (h : v.All Spelled) (hrange : v.InRange)
    (hdata : v.All Data) : v.Readable := by
  induction h with
  | @intro v hv _ ih =>
    refine .intro ?_ fun w hw => ih w hw (hrange.part hw) (hdata.part hw)
    cases v with
    | error | builtin | lambda => exact absurd hdata.self id
    | number => exact hrange.self
    | symbol x => exact spelled_symbol.mp hv
    | string | sexpr | qexpr => trivial

end Value

/-! ## 2. The theorem -/

/-- The printed form of a settled value that can be read back evaluates to the value, in any
interpreter that may nest evaluation two deep, and the machine stays as it is, unless there are not
calls enough to come to the value. -/
theorem evalText_text {v : Value} (hv : v.Settled) (herr : v.isError = false) (h : v.Readable)
    (host : Host) (root : FrameId) (depth : Nat) (name : String) (m : Machine) :
    let i : Interpreter := ⟨host, root, depth + 2⟩
    (i.evaluator.Takes v.text → i.evalText v.text name m = .ok v m) ∧
      (¬ i.evaluator.Takes v.text → i.evalText v.text name m = .error .tooDeep m) := by
  intro i
  obtain ⟨node, hparse, htag, hnode⟩ := parse_text h
  refine ⟨fun htakes => ?_, fun htakes => by rw [i.evalText_of_not_takes htakes hparse]; rfl⟩
  have hforms : Value.ofNodes [node] = .ok [v] := Value.ofNodes_single htag hnode
  have hcells : [v].mapM (fun c => evaluate host (depth + 1) c root) m = .ok [v] m := by
    rw [List.mapM_cons, List.mapM_nil]
    refine EvalM.bind_eq_ok.mpr ⟨v, m, evaluate_of_settled hv host depth root m, rfl⟩
  have hcombine : combine host (evaluate host (depth + 1)) root [v] m = .ok v m := by
    rw [combine, List.find?_cons, herr]
    rfl
  rw [i.evalText_of_takes htakes hparse, Form.valuesOf_eq_pure hforms, pure_bind]
  exact EvalM.bind_eq_ok.mpr ⟨[v], m, hcells, hcombine⟩

/-- Evaluation keeps it that all names inside results and bindings are single tokens. -/
theorem Keeping.sound_spelled (host : Host) : (Keeping Value.Spelled).Sound host :=
  sound Value.regular_spelled (fun _ _ => nofun) host

/-- **Evaluating printed results changes nothing and gives the results again.**  Take any machine
that a session can come to.

1. Every name that is bound, and every symbol inside whatever is bound, the parameters of functions
   included, is cut as that one symbol, when it is printed.
2. So is every symbol inside the results of a step.
3. A result in which nothing is an error, a function or a number out of range, at any depth, is what
   its printed form evaluates to, in any interpreter that may nest evaluation two deep and has calls
   enough to parse and read the printed form, and from any machine.  Nothing is printed, and the
   machine stays as it is.  Without these calls evaluation stops for want of them.
4. Results have no numbers out of range when the session has room. -/
theorem printed_results_evaluate_to_themselves {root : FrameId} {m : Machine}
    (hm : Reachable root m) :
    m.store.Keeps Value.NamesRead ∧
    ∀ host depth s rs, m.outcome (Interpreter.perform ⟨host, root, depth⟩ s) = .ok rs →
      ∀ v ∈ rs,
        v.All Value.NamesRead ∧
        (v.All Value.Data → v.InRange → ∀ host' root' depth' name m',
          let i : Interpreter := ⟨host', root', depth' + 2⟩
          (i.evaluator.Takes v.text → i.evalText v.text name m' = .ok v m') ∧
          (¬ i.evaluator.Takes v.text → i.evalText v.text name m' = .error .tooDeep m')) ∧
        (ReachableInRoom m → s.HasRoom host root depth m → v.InRange) := by
  have hreads : (Keeping Value.Spelled).Reads := Keeping.reads Value.regular_spelled
  obtain ⟨-, hspelling, -⟩ := Coupling.Sound.reachable Keeping.sound_spelled hreads trivial
    (Keeping.fresh Value.regular_spelled) hm
  have hsettling : Settling.Rel m m := ⟨rfl, Settling.settled_of_reachable hm⟩
  refine ⟨fun e q hq => (hspelling.2 e q hq).imp Value.Spelled.namesRead
    fun h => h.mono fun _ => Value.Spelled.namesRead, ?_⟩
  intro host depth s rs hrs v hv
  have hspelled : v.All Value.Spelled := by
    have hrun := (Keeping.sound_spelled host).perform (i := ⟨host, root, depth⟩)
      (n := m.store.size) hreads trivial s
    obtain ⟨-, -, hres⟩ := hrun.one_run hspelling (Nat.le_refl _)
    exact (hres rs hrs v hv).1
  have hsettled : v.Settled := by
    have hrun := (Settling.sound host).perform (i := ⟨host, root, depth⟩) (n := m.store.size)
      Settling.reads trivial s
    obtain ⟨-, -, hres⟩ := hrun.one_run hsettling (Nat.le_refl _)
    exact (hres rs hrs v hv).2
  refine ⟨hspelled.mono fun _ => Value.Spelled.namesRead, fun hdata hrange => ?_, ?_⟩
  · have herr : v.isError = false := by
      cases v with
      | error => exact absurd hdata.self id
      | number | string | symbol | sexpr | qexpr | builtin | lambda => rfl
    exact evalText_text hsettled herr (Value.readable_of_spelled hspelled hrange hdata)
  · intro hroomy hroom
    exact (Keeping.perform_inRange (Keeping.inRange_of_reachableInRoom hroomy) hroom).2 rs hrs v hv

/-- A quoted list of a symbol that is bound nowhere and a number. -/
theorem printed_results_evaluate_to_themselves_quoted :
    let s : Step := .eval "{x 7}" "<input>"
    let v : Value := .qexpr [.symbol "x", .number 7]
    Reachable 0 (.fresh false) ∧
    (Machine.fresh false).outcome (Interpreter.perform ⟨.bare, 0, 2⟩ s) = .ok [v] ∧
    ReachableInRoom (.fresh false) ∧ s.HasRoom .bare 0 2 (.fresh false) ∧
    v.All Value.Data ∧ v.InRange ∧ (evaluate .bare 2).Takes v.text ∧
    ∀ m, Interpreter.evalText ⟨.bare, 0, 2⟩ v.text "<input>" m = .ok v m := by
  intro s v
  have hroomy : ReachableInRoom (.fresh false) := .fresh false
  have hm : Reachable 0 (.fresh false) := hroomy.reachable
  have hroom : s.HasRoom .bare 0 2 (.fresh false) := by with_unfolding_all rfl
  have hrun : (Machine.fresh false).outcome (Interpreter.perform ⟨.bare, 0, 2⟩ s) = .ok [v] := by
    with_unfolding_all rfl
  have hdata : v.All Value.Data := by
    refine Value.all_qexpr.mpr ⟨trivial, ?_⟩
    simp only [List.mem_cons, List.not_mem_nil, or_false]
    rintro w (rfl | rfl) <;> exact Value.all_of_parts_nil rfl trivial
  have htext : v.text = "\x7bx 7\x7d" := by decide +kernel
  have hlex : lex v.text = ⟨[⟨.opener .curly, "\x7b", ⟨1, 1⟩⟩, ⟨.symbol, "x", ⟨1, 2⟩⟩,
      ⟨.number, "7", ⟨1, 4⟩⟩, ⟨.closer .curly, "\x7d", ⟨1, 5⟩⟩], none⟩ := by
    rw [htext]
    decide +kernel
  have htakes : (evaluate .bare 2).Takes v.text :=
    Evaluator.takes_of_lex rfl hlex rfl (by decide +kernel) (by decide +kernel)
  obtain ⟨-, hstep⟩ := printed_results_evaluate_to_themselves hm
  obtain ⟨-, hagain, hrange⟩ := hstep .bare 2 s [v] hrun v List.mem_cons_self
  have hv : v.InRange := hrange hroomy hroom
  exact ⟨hm, hrun, hroomy, hroom, hdata, hv, htakes,
    fun m => (hagain hdata hv .bare 0 0 "<input>" m).1 htakes⟩

end CurryLisp

/-
# The range of numbers

All numbers are in range, wherever they are: in what is evaluated, in what is bound, inside lists
and bodies, and in the arguments that functions hold.  Texts bring no other numbers: a numeral out of
range is read as an error, or keeps the whole text from being read if it has too many digits for the
host.  Operators answer no other numbers (`Operator.run_numberFits`), and evaluation moves numbers
around.  Only the length of a list or of a text may be too large, so the run must have room.

`Keeping` is the coupling for it.  It asks of the parts of values something that is `Regular`: it
holds of numbers in range, of texts, errors, lists and builtins, of the symbols that texts have, and
of a function if it holds of the names that the function has.  Of numbers out of range nothing is
said, so that it remains to show which numbers operators answer (`Keeping.sound`).

The main statement is `numbers_stay_in_range`; `numeral_is_not_read` shows a text that is not read.
-/
import CurryLisp.Proofs.Room

namespace CurryLisp

/-! ## 1. Values in range -/

/-- The names that a function has: of its parameters, and of the arguments that it holds. -/
def Formals.Names (f : Formals) (own : Bindings) (x : String) : Prop :=
  x ∈ f.required ∨ f.rest = some x ∨ ∃ q ∈ own, q.1 = x

namespace Value

/-- All numbers inside a value are in range. -/
def InRange (v : Value) : Prop := v.All NumberFits

/-- A property of numbers in range and of whatever else programs can make. -/
structure Regular (p : Value → Prop) : Prop extends PlainInRange p where
  symbol : ∀ {source t}, t ∈ (lex source).tokens → t.kind = .symbol → p (.symbol t.text)
  builtin : ∀ b, p (.builtin b)
  name : ∀ b : Builtin, p (.symbol b.name)
  lambda : ∀ {f body own scope},
    p (.lambda f body own scope) ↔ ∀ x, f.Names own x → p (.symbol x)

theorem regular_numberFits : Regular NumberFits where
  number _ h := h
  string _ := trivial
  error _ _ := trivial
  sexpr _ := trivial
  qexpr _ := trivial
  symbol _ _ := trivial
  builtin _ := trivial
  name _ := trivial
  lambda := ⟨fun _ _ _ => trivial, fun _ => trivial⟩

end Value

/-- All numbers inside whatever is bound in a store are in range. -/
def Store.InRange (s : Store) : Prop := s.Bound fun q => q.2.InRange

/-! ## 2. What evaluation keeps -/

/-- Something holds of all names that are bound in a store, and of everything inside whatever is
bound to them. -/
def Store.Keeps (p : Value → Prop) (s : Store) : Prop :=
  s.Bound fun q => p (.symbol q.1) ∧ q.2.All p

/-- A machine in which something holds of all bindings. -/
def Keeping (p : Value → Prop) : Coupling where
  Rel m₁ m₂ := m₁ = m₂ ∧ m₁.store.Keeps p
  part _ v := p v
  Res _ := True
  Taken _ := True
  Env _ _ := True

namespace Keeping

variable {p : Value → Prop} {m : Machine}

/-- **Evaluation keeps what is regular**, if it holds of the numbers that operators answer. -/
theorem sound (hp : Value.Regular p) {seen : Value → Prop}
    (hnum : ∀ {o args n}, (∀ a ∈ args, p a ∧ seen a) → Operator.run o args = .ok (.number n) →
      p (.number n)) (host : Host) : (Keeping p).Sound host seen where
  error m k := hp.error m k
  sexpr cells := hp.sexpr cells
  qexpr cells := hp.qexpr cells
  string s := hp.string s
  settled _ := trivial
  taken _ := trivial
  operator hargs h := by
    refine Operator.run_all hp.toPlainInRange (fun a ha => (hargs a ha).1.1.1) ?_ h
    rintro n rfl
    exact hnum (fun a ha => ⟨(hargs a ha).1.1.1.self, (hargs a ha).2⟩) h
  read _ hnodes _ hforms :=
    Value.all_of_parse hp.toPlainInRange hnodes (fun _ => hp.symbol) hforms
  size_eq hm := congrArg (fun m => m.store.size) hm.1
  part_mono _ h := h
  env_mono _ h := h
  close _ _ hf := hp.lambda.mpr fun x hx => by
    rcases hx with hx | hx | ⟨q, hq, -⟩
    · exact hf x (Or.inl hx)
    · exact hf x (Or.inr hx)
    · exact absurd hq List.not_mem_nil
  await hf hrequired hrest hown := hp.lambda.mpr fun x hx => by
    have hnames := hp.lambda.mp hf.self
    rcases hx with hx | hx | ⟨q, hq, rfl⟩
    · exact hnames x (Or.inl (hrequired x hx))
    · exact hnames x (Or.inr (Or.inl (hrest ▸ hx)))
    · rcases hown q hq with hq | ⟨hq, -⟩
      · exact hnames _ (Or.inr (Or.inr ⟨q, hq, rfl⟩))
      · exact hnames _ (Or.inl hq)
  lookup hm _ _ := by
    obtain ⟨rfl, hm⟩ := hm
    exact ⟨rfl, fun v hv => ⟨(Store.Bound.get? hm hv).2, trivial⟩⟩
  print _ hm := ⟨by rw [hm.1], hm.2⟩
  note _ hm := ⟨by rw [hm.1], hm.2⟩
  bind hm _ hmore :=
    ⟨by rw [hm.1], Store.Bound.putAll hm.2 (fun q hq => (hmore q hq).imp_right (·.1.1)) _⟩
  bindGlobal hm _ hmore :=
    ⟨by rw [hm.1], Store.Bound.putAll hm.2 (fun q hq => (hmore q hq).imp_right (·.1.1)) _⟩
  enter {m₁ _ f body own scope frame} hm hf hframe := by
    obtain ⟨rfl, hm⟩ := hm
    have hnames := hp.lambda.mp hf.self
    refine ⟨⟨rfl, Store.Bound.alloc hm (fun q hq => ?_) _⟩, trivial⟩
    rcases hframe q hq with hq | ⟨hx | hx, hq⟩
    · exact ⟨hnames _ (Or.inr (Or.inr ⟨q, hq, rfl⟩)), (Value.all_lambda.mp hf).2.2 q hq⟩
    · exact ⟨hnames _ (Or.inl hx), hq.1.1⟩
    · exact ⟨hnames _ (Or.inr (Or.inl hx)), hq.1.1⟩

theorem reads (hp : Value.Regular p) : (Keeping p).Reads :=
  fun _ _ _ _ hnodes hforms =>
    Value.all_of_parse hp.toPlainInRange hnodes (fun _ => hp.symbol) hforms

/-- Nothing but builtins is bound at the beginning of a session. -/
theorem fresh (hp : Value.Regular p) (extended : Bool) :
    (Keeping p).Rel (.fresh extended) (.fresh extended) :=
  ⟨rfl, Store.Bound.fresh
    (fun b => ⟨hp.name b, Value.all_of_parts_nil rfl (hp.builtin b)⟩) extended⟩

end Keeping

/-! ## 3. Runs that have room -/

namespace Keeping

variable {m : Machine} {host : Host} {root : FrameId} {depth : Nat}

/-- To keep numbers in range is to keep what `NumberFits` says. -/
theorem rel_numberFits : (Keeping Value.NumberFits).Rel m m ↔ m.store.InRange :=
  ⟨fun h e q hq => (h.2 e q hq).2, fun h => ⟨rfl, fun e q hq => ⟨trivial, h e q hq⟩⟩⟩

/-- **Evaluation under watch keeps numbers in range.** -/
theorem sound_numberFits (host : Host) :
    (Keeping Value.NumberFits).Sound host fun r => r.isShort = true :=
  sound Value.regular_numberFits Operator.run_numberFits host

/-- An evaluation that has room keeps numbers in range. -/
theorem evaluate_inRange (hm : m.store.InRange) {v : Value} (hv : v.InRange) {e : FrameId}
    (hroom : Roomy host depth (fun ev => ev v e) m) :
    (m.after (evaluate host depth v e)).store.InRange ∧
      ∀ r, m.outcome (evaluate host depth v e) = .ok r → r.InRange := by
  have hrun := ((sound_numberFits host).evaluateInRoom depth).eval m.store.size v e hv trivial
  obtain ⟨hafter, hres⟩ := Coupling.Alike.one_roomy_run (fun ev => ev v e) hrun
    (rel_numberFits.mpr hm) (Nat.le_refl _) hroom
  exact ⟨rel_numberFits.mp hafter, fun r hr => (hres r hr).1⟩

/-- A step that has room keeps numbers in range. -/
theorem perform_inRange (hm : m.store.InRange) {s : Step} (hroom : s.HasRoom host root depth m) :
    (m.after (Interpreter.perform ⟨host, root, depth⟩ s)).store.InRange ∧
      ∀ rs, m.outcome (Interpreter.perform ⟨host, root, depth⟩ s) = .ok rs →
        ∀ r ∈ rs, r.InRange := by
  have hA := sound_numberFits host
  have hroot : (Keeping Value.NumberFits).Env m.store.size root := trivial
  have hrun := hA.performWith (hA.evaluateInRoom depth) hroot s fun source _ n =>
    reads Value.regular_numberFits n source
  rw [Interpreter.perform_eq_performWith]
  obtain ⟨hafter, hres⟩ := Coupling.Alike.one_roomy_run
    (fun ev => Interpreter.performWith ev host root s) hrun (rel_numberFits.mpr hm)
    (Nat.le_refl _) hroom
  exact ⟨rel_numberFits.mp hafter, fun rs hrs r hr => (hres rs hrs r hr).1⟩

/-- In every machine that a session comes to with room, numbers are in range. -/
theorem inRange_of_reachableInRoom (h : ReachableInRoom m) : m.store.InRange := by
  induction h with
  | fresh extended => exact rel_numberFits.mp (fresh Value.regular_numberFits extended)
  | step host depth s _ hroom ih => exact (perform_inRange ih hroom).1

end Keeping

/-! ## 4. Numerals of nines -/

theorem ofDigits_nines (count : Nat) : Text.ofDigits (List.replicate count 9) + 1 = 10 ^ count := by
  induction count with
  | zero => rfl
  | succ count ih =>
    have hlast : Text.ofDigits (List.replicate (count + 1) 9) =
        10 * Text.ofDigits (List.replicate count 9) + 9 := by
      rw [List.replicate_succ', Text.ofDigits, List.foldl_append]
      rfl
    rw [hlast, Nat.pow_succ]
    omega

/-- Nineteen nines are too many for the range. -/
theorem exists_plainNumeral?_nines {count : Nat} (h : 19 ≤ count) :
    ∃ n, Text.plainNumeral? (nines count).toList = some n ∧ fits n = false := by
  have hdigits : ∀ d ∈ List.replicate count '9', d.isDigit = true := fun d hd => by
    rw [List.eq_of_mem_replicate hd]
    decide
  have hne : count ≠ 0 := by omega
  have hplain : Text.plainNumeral? (nines count).toList =
      some (Text.ofDigits (List.replicate count 9) : Int) := by
    rw [nines, String.toList_ofList, Text.plainNumeral?, takeSign_of_isDigit hdigits]
    simp [hne, List.all_eq_true.mpr hdigits, Text.signed, Text.asciiValue]
  refine ⟨_, hplain, ?_⟩
  have hvalue := ofDigits_nines count
  have hpow : 10 ^ 19 ≤ 10 ^ count := Nat.pow_le_pow_right (by decide) h
  rw [Bool.eq_false_iff, Ne, fits_iff]
  unfold maxNumber
  omega

/-! ## 5. The theorem -/

/-- **All numbers stay in range.**

1. Whatever a text is read as is in range.  A text is read unless one of its numerals has too many
   digits for the host; then the first such numeral keeps the whole text from being read.
2. A number token reads as the number that its digits denote or, if that is out of range, as an
   error of the kind for texts that cannot be read.  A token with too many digits is not read.
3. Whatever is bound at the beginning of a session is in range.
4. From a machine in which everything that is bound is in range, the evaluation of a value in range,
   in any environment, leads to such a machine again, also when it ends with a fault, and what it
   gives is in range, if the run has room.
5. So does any step of a session. -/
theorem numbers_stay_in_range (host : Host) :
    (∀ source nodes, parse source = .ok nodes →
      ((∀ t ∈ (lex source).tokens, t.isTooLong = false) ∧
        ∃ forms, Value.ofNodes nodes = .ok forms ∧ ∀ v ∈ forms, v.InRange) ∨
      ∃ t ∈ (lex source).tokens, t.isTooLong = true ∧ Value.ofNodes nodes = .error t.unread) ∧
    (∀ source, ∀ t ∈ (lex source).tokens, t.kind = .number →
      ∃ n, Text.plainNumeral? t.text.toList = some n ∧
        Value.ofNode (.leaf .number t) =
          if t.isTooLong then .error t.unread
          else .ok (if fits n then .number n else
            .error (Failure.invalidNumber t.text).message .parseFailure)) ∧
    (∀ extended, (Store.fresh extended).InRange) ∧
    ∀ m : Machine, m.store.InRange →
      (∀ depth v e, v.InRange → Roomy host depth (fun ev => ev v e) m →
        (m.after (evaluate host depth v e)).store.InRange ∧
        ∀ r, m.outcome (evaluate host depth v e) = .ok r → r.InRange) ∧
      ∀ root depth s, s.HasRoom host root depth m →
        (m.after (Interpreter.perform ⟨host, root, depth⟩ s)).store.InRange ∧
        ∀ rs, m.outcome (Interpreter.perform ⟨host, root, depth⟩ s) = .ok rs →
          ∀ r ∈ rs, r.InRange := by
  have hp := Value.regular_numberFits
  refine ⟨fun source nodes hnodes => ?_, fun source t ht hk => ?_,
    fun extended => Keeping.rel_numberFits.mp (Keeping.fresh hp extended), fun m hm => ⟨?_, ?_⟩⟩
  · cases hread : unread? source with
    | none =>
      obtain ⟨forms, hforms⟩ := exists_ofNodes_of_parse hnodes hread
      exact Or.inl ⟨isTooLong_of_unread?_eq_none hread, forms, hforms,
        Keeping.reads hp 0 source nodes forms hnodes hforms⟩
    | some f =>
      obtain ⟨t, ht, hlong, rfl⟩ := exists_tooLong_of_unread? hread
      exact Or.inr ⟨t, ht, hlong, ofNodes_of_unread hnodes hread⟩
  · exact ofNode_number hk (proper_of_mem_lex ht)
  · exact fun depth v e hv hroom => Keeping.evaluate_inRange hm hv hroom
  · exact fun root depth s hroom => Keeping.perform_inRange hm hroom

/-- The length of a text, and a numeral that is too large by one: both runs have room. -/
theorem numbers_stay_in_range_edge :
    let m : Machine := .fresh true
    let v : Value := .sexpr [.builtin (.operator .len), .string "ab"]
    let s : Step := .eval "9223372036854775808" "<input>"
    m.store.InRange ∧
    (v.InRange ∧ Roomy .bare 2 (fun ev => ev v 0) m ∧
      m.outcome (evaluate .bare 2 v 0) = .ok (.number 2) ∧ (Value.number 2).InRange) ∧
    s.HasRoom .bare 0 2 m ∧
    m.outcome (Interpreter.perform ⟨.bare, 0, 2⟩ s) =
      .ok [.error (Failure.invalidNumber "9223372036854775808").message .parseFailure] ∧
    (m.after (Interpreter.perform ⟨.bare, 0, 2⟩ s)).store.InRange := by
  intro m v s
  obtain ⟨-, -, hfresh, hkept⟩ := numbers_stay_in_range .bare
  have hm : m.store.InRange := hfresh true
  have hv : v.InRange := by
    refine Value.all_sexpr.mpr ⟨trivial, ?_⟩
    simp only [List.mem_cons, List.not_mem_nil, or_false]
    rintro w (rfl | rfl) <;> exact Value.all_of_parts_nil rfl trivial
  have hlen : m.outcome (evaluate .bare 2 v 0) = .ok (.number 2) := rfl
  have hroom : Roomy .bare 2 (fun ev => ev v 0) m := rfl
  have hlarge : IsNumeral "9223372036854775808" :=
    ⟨"9223372036854775808".toList, by decide, List.all_eq_true.mp rfl, Or.inl rfl⟩
  have hparse := parse_of_isNumeral hlarge
  have hforms : Value.ofNodes [.leaf .number ⟨.number, "9223372036854775808", {}⟩] =
      .ok [(Failure.invalidNumber "9223372036854775808").toValue] := by with_unfolding_all rfl
  let i : Interpreter := ⟨.bare, 0, 2⟩
  have htakes : i.evaluator.Takes "9223372036854775808" :=
    Evaluator.takes_of_parse hparse (by decide +kernel) rfl
  have hdone (ev : Evaluator) (hev : ev.Takes "9223372036854775808") :
      Interpreter.performWith ev .bare 0 s = do
        return [← ev (.sexpr [(Failure.invalidNumber "9223372036854775808").toValue]) 0] := by
    rw [Interpreter.performWith, Interpreter.evalTextWith, hparse, hev.then hparse,
      Form.valuesOf_eq_pure hforms, pure_bind]
  have hrun : i.perform s m =
      .ok [(Failure.invalidNumber "9223372036854775808").toValue] m := by
    have hperform := (i.perform_eq_performWith s).trans (hdone i.evaluator htakes)
    rw [hperform]
    rfl
  have hroom' : s.HasRoom .bare 0 2 m := by
    have hwatched := hdone (evaluateInRoom .bare 2) htakes
    have hwhole := hdone (evaluate .bare 2) htakes
    unfold Step.HasRoom Roomy
    dsimp only
    rw [hwatched, hwhole]
    rfl
  exact ⟨hm, ⟨hv, hroom, hlen, ((hkept m hm).1 2 v 0 hv hroom).2 _ hlen⟩, hroom',
    Machine.outcome_eq_of_ok hrun, ((hkept m hm).2 0 2 s hroom').1⟩

/-- A numeral of nines, one more of them than the host reads digits.  It denotes a number that is out
of range, but no error stands for it: the text is not read. -/
theorem numeral_is_not_read :
    let source := nines (Text.maxDigits + 1)
    let fault : NodeFault := .badNumeral (.tooLong (Text.maxDigits + 1))
    (∃ n, Text.plainNumeral? source.toList = some n ∧ fits n = false) ∧
      (∃ nodes, parse source = .ok nodes ∧ Value.ofNodes nodes = .error fault) ∧
      (Machine.fresh true).outcome
        (Interpreter.perform ⟨.bare, 0, 2⟩ (.eval source "<input>")) = .error (.node fault) := by
  intro source fault
  have hparse := parse_of_isNumeral (isNumeral_nines Text.maxDigits)
  have hunread := ofNodes_of_unread hparse unread?_nines
  let i : Interpreter := ⟨.bare, 0, 2⟩
  have htakes : i.evaluator.Takes source :=
    Evaluator.takes_of_lex rfl (lex_of_isNumeral (isNumeral_nines Text.maxDigits)) rfl
      (Nat.le_of_ble_eq_true rfl) (Nat.le_of_ble_eq_true rfl)
  refine ⟨exists_plainNumeral?_nines (by decide), ⟨_, hparse, hunread⟩, ?_⟩
  change (Machine.fresh true).outcome (do return [← i.evalText source "<input>"]) = _
  rw [i.evalText_of_takes htakes hparse, Form.valuesOf_eq_stop hunread]
  rfl

end CurryLisp

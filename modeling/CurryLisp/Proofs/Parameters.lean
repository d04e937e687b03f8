/-
# Which parameter lists are accepted

A parameter list is a quoted list of symbols in which the marker stands nowhere, or once and last but
one.  Nothing else is asked of the names, so they may be repeated.  What is accepted is kept as it is
written: `Formals.names` gives the list back, and reads as the same parameters again.

The parameters that come of a list are the ones that do not use the marker as a name
(`Formals.Proper`), and on these `ofNames` and `names` are inverse to each other
(`Formals.ofNames_eq_ok_iff`).  All else follows, since binding the first parameters leaves proper
ones.

* `Variant.takeFrom_eq_error`: which argument is reported when not all are of a variant;
* `Formals.accepted_iff`: the lists of names that are accepted;
* `Formals.Proper.drop`, `Formals.names_drop`: what is left when parameters have been bound.

The main statement is `parameter_lists_are_exact`.
-/
import CurryLisp.Proofs.Checks
import Mathlib.Data.List.Basic

namespace CurryLisp

/-! ## 1. The argument that is reported -/

/-- The first argument that is not of the variant is reported. -/
theorem Variant.takeFrom_eq_error {α : Type} {k : Variant α} {args : List Value} {i : Nat}
    (h : args.findIdx? (fun v => (k.get? v).isNone) = some i) (func : String) (index : Nat) :
    ∃ v, args[i]? = some v ∧ k.takeFrom func index args =
      .error (.wrongType func (index + i) (.shape k.shape) v.shape) := by
  induction args generalizing index i with
  | nil => cases h
  | cons v rest ih =>
    rw [List.findIdx?_cons] at h
    cases hv : k.get? v with
    | none =>
      rw [hv] at h
      cases h
      refine ⟨v, rfl, ?_⟩
      rw [takeFrom, take, hv]
      rfl
    | some a =>
      rw [hv] at h
      obtain ⟨j, hj, rfl⟩ := Option.map_eq_some_iff.mp h
      obtain ⟨w, hw, hrest⟩ := ih hj (index + 1)
      refine ⟨w, hw, ?_⟩
      rw [takeFrom, take_of_get? hv]
      dsimp only
      rw [hrest, Nat.add_right_comm, Nat.add_assoc]
      rfl

/-- A value is no symbol when its variant is another. -/
theorem Variant.isNone_symbol (v : Value) : (symbol.get? v).isNone = (v.shape != .symbol) := by
  cases v <;> rfl

/-- The error that a program sees where it was to give a symbol. -/
theorem Failure.toValue_wrongType_symbol (func : String) (index : Nat) (got : Shape) :
    (wrongType func index (.shape .symbol) got).toValue =
      .error s!"function '{func}' passed incorrect type for argument {index}: got {got.name}, expected Symbol" .typeMismatch := by
  have hwords : toString ", expected Symbol" = ", expected " ++ "Symbol" := by decide
  rw [hwords, ← String.append_assoc]
  rfl

/-- A list without another variant is a list of symbols. -/
theorem Value.exists_symbols {cells : List Value}
    (h : cells.findIdx? (fun v => v.shape != .symbol) = none) :
    ∃ names, cells = symbols names := by
  rw [List.findIdx?_eq_none_iff] at h
  induction cells with
  | nil => exact ⟨[], rfl⟩
  | cons v rest ih =>
    obtain ⟨names, rfl⟩ := ih fun w hw => h w (List.mem_cons_of_mem _ hw)
    have hv : v.shape = .symbol := by simpa using h v List.mem_cons_self
    cases v with
    | symbol x => exact ⟨x :: names, rfl⟩
    | number | string | error | sexpr | qexpr | builtin | lambda => cases hv

namespace Formals

/-! ## 2. Where the marker stands -/

/-- The marker does not occur, or it occurs once, and last but one. -/
def Accepted (names : List String) : Prop :=
  restMarker ∉ names ∨
    names.count restMarker = 1 ∧ names.idxOf restMarker + 2 = names.length

instance (names : List String) : Decidable (Accepted names) := by
  unfold Accepted
  infer_instance

/-- The marker is no parameter. -/
structure Proper (f : Formals) : Prop where
  required : restMarker ∉ f.required
  rest : f.rest ≠ some restMarker

section Marker

variable {front tail : List String}

/-- The names are cut at the first marker. -/
theorem cut_marker (h : restMarker ∉ front) (tail : List String) :
    (front ++ restMarker :: tail).takeWhile (· != restMarker) = front ∧
      (front ++ restMarker :: tail).dropWhile (· != restMarker) = restMarker :: tail := by
  have hfront : ∀ x ∈ front, (x != restMarker) = true := by
    intro x hx
    simpa using fun e : x = restMarker => h (e ▸ hx)
  rw [List.takeWhile_append_of_pos hfront, List.dropWhile_append_of_pos hfront]
  simp

/-- The marker and one more name declare the rest parameter. -/
theorem ofNames_marker (h : restMarker ∉ front) {r : String} (hr : r ≠ restMarker) :
    ofNames (front ++ [restMarker, r]) = .ok ⟨front, some r⟩ := by
  obtain ⟨htake, hdrop⟩ := cut_marker h [r]
  rw [ofNames, hdrop, htake]
  dsimp only
  rw [if_neg hr]

/-- Anything else after the first marker is refused. -/
theorem ofNames_refused (h : restMarker ∉ front) (htail : ∀ r, tail = [r] → r = restMarker) :
    ofNames (front ++ restMarker :: tail) = .error .variadicSignature := by
  rw [ofNames, (cut_marker h tail).2]
  cases tail with
  | nil => rfl
  | cons r more =>
    cases more with
    | nil => exact if_pos (htail r rfl)
    | cons => rfl

/-- Such names are not accepted. -/
theorem not_accepted (h : restMarker ∉ front) (htail : ∀ r, tail = [r] → r = restMarker) :
    ¬ Accepted (front ++ restMarker :: tail) := by
  rintro (hnot | ⟨hcount, hplace⟩)
  · exact hnot (by simp)
  · rw [List.count_append, List.count_eq_zero.mpr h, List.count_cons_self] at hcount
    rw [List.idxOf_append_of_notMem h, List.idxOf_cons_self, List.length_append,
      List.length_cons] at hplace
    obtain ⟨r, rfl⟩ := List.length_eq_one_iff.mp (by omega : tail.length = 1)
    obtain rfl := htail r rfl
    simp at hcount

theorem accepted_marker (h : restMarker ∉ front) {r : String} (hr : r ≠ restMarker) :
    Accepted (front ++ [restMarker, r]) := by
  refine Or.inr ⟨?_, ?_⟩
  · rw [List.count_append, List.count_eq_zero.mpr h, List.count_cons_self,
      List.count_singleton, if_neg (by simpa using hr)]
  · rw [List.idxOf_append_of_notMem h, List.idxOf_cons_self, List.length_append]
    rfl

end Marker

/-- How names may stand to the marker. -/
theorem names_cases (names : List String) :
    restMarker ∉ names ∨
    (∃ front r, names = front ++ [restMarker, r] ∧ restMarker ∉ front ∧ r ≠ restMarker) ∨
    ∃ front tail, names = front ++ restMarker :: tail ∧ restMarker ∉ front ∧
      ∀ r, tail = [r] → r = restMarker := by
  by_cases h : restMarker ∈ names
  · obtain ⟨front, tail, rfl, hfront⟩ := List.eq_append_cons_of_mem h
    by_cases htail : ∀ r, tail = [r] → r = restMarker
    · exact Or.inr (Or.inr ⟨front, tail, rfl, hfront, htail⟩)
    · obtain ⟨r, rfl, hr⟩ : ∃ r, tail = [r] ∧ r ≠ restMarker := by simpa using htail
      exact Or.inr (Or.inl ⟨front, r, rfl, hfront, hr⟩)
  · exact Or.inl h

/-! ## 3. Both ways -/

/-- Proper parameters are declared by their names. -/
theorem Proper.ofNames_names {f : Formals} (h : f.Proper) : ofNames f.names = .ok f := by
  obtain ⟨required, rest⟩ := f
  cases rest with
  | none =>
    rw [names, List.append_nil]
    exact ofNames_of_not_mem h.required
  | some r => exact ofNames_marker h.required fun e => h.rest (congrArg some e)

/-- **Declaring and writing down are inverse to each other.** -/
theorem ofNames_eq_ok_iff {names : List String} {f : Formals} :
    ofNames names = .ok f ↔ f.Proper ∧ f.names = names := by
  constructor
  · intro h
    rcases names_cases names with hnot | ⟨front, r, rfl, hfront, hr⟩ | ⟨front, tail, rfl, hfront, ht⟩
    · rw [ofNames_of_not_mem hnot] at h
      cases h
      exact ⟨⟨hnot, nofun⟩, List.append_nil names⟩
    · rw [ofNames_marker hfront hr] at h
      cases h
      exact ⟨⟨hfront, fun e => hr (Option.some.inj e)⟩, rfl⟩
    · rw [ofNames_refused hfront ht] at h
      cases h
  · rintro ⟨hproper, rfl⟩
    exact hproper.ofNames_names

/-- **Which names are accepted.** -/
theorem accepted_iff {names : List String} : Accepted names ↔ ∃ f, ofNames names = .ok f := by
  rcases names_cases names with hnot | ⟨front, r, rfl, hfront, hr⟩ | ⟨front, tail, rfl, hfront, ht⟩
  · exact ⟨fun _ => ⟨_, ofNames_of_not_mem hnot⟩, fun _ => Or.inl hnot⟩
  · exact ⟨fun _ => ⟨_, ofNames_marker hfront hr⟩, fun _ => accepted_marker hfront hr⟩
  · refine ⟨fun h => absurd h (not_accepted hfront ht), ?_⟩
    rintro ⟨f, hf⟩
    rw [ofNames_refused hfront ht] at hf
    cases hf

/-- Names that are not accepted are refused for the marker. -/
theorem ofNames_of_not_accepted {names : List String} (h : ¬ Accepted names) :
    ofNames names = .error .variadicSignature := by
  rcases names_cases names with hnot | ⟨front, r, rfl, hfront, hr⟩ | ⟨front, tail, rfl, hfront, ht⟩
  · exact absurd (Or.inl hnot) h
  · exact absurd (accepted_marker hfront hr) h
  · exact ofNames_refused hfront ht

/-! ## 4. Parameters that have been bound -/

/-- Binding the first parameters leaves proper ones. -/
theorem Proper.drop {f : Formals} (h : f.Proper) (n : Nat) : (f.drop n).Proper := by
  rw [drop_natCast]
  exact ⟨fun hmem => h.required (List.mem_of_mem_drop hmem), h.rest⟩

/-- The names of the parameters that are left are the last names. -/
theorem names_drop {f : Formals} {n : Nat} (h : n ≤ f.required.length) :
    (f.drop n).names = f.names.drop n := by
  rw [drop_natCast, names, names, List.drop_append_of_le_length h]

/-- A list of symbols declares what its names declare. -/
theorem ofCells_symbols (func : String) (names : List String) :
    ofCells func (Value.symbols names) = ofNames names := by
  have htake : Variant.symbol.takeAll func (Value.symbols names) = .ok names :=
    (Variant.takeAll_eq_ok Variant.symbol_makes).mpr rfl
  rw [ofCells, htake]
  rfl

/-- What is accepted is a list of symbols, and names the parameters. -/
theorem ofCells_eq_ok {func : String} {cells : List Value} {f : Formals} :
    ofCells func cells = .ok f ↔ cells = Value.symbols f.names ∧ f.Proper := by
  rw [ofCells, bind_eq_ok]
  constructor
  · rintro ⟨names, htake, hnames⟩
    obtain ⟨hproper, rfl⟩ := ofNames_eq_ok_iff.mp hnames
    exact ⟨(Variant.takeAll_eq_ok Variant.symbol_makes).mp htake, hproper⟩
  · rintro ⟨rfl, hproper⟩
    exact ⟨f.names, (Variant.takeAll_eq_ok Variant.symbol_makes).mpr rfl, hproper.ofNames_names⟩

/-! ## 5. The theorem -/

/-- **Parameter lists are checked exactly, and nothing is lost.**

1. If a list holds something that is no symbol, the first such cell is reported, by its number and
   its variant.
2. Otherwise the list is accepted if the marker does not occur in it, or occurs once and last but
   one.
3. Otherwise it is refused for the marker.
4. The parameters of a list that is accepted are written as the list was.  When the first of the
   required ones have been bound, the others are written as what is left of the list, and this list
   is accepted for the same parameters.
5. Names may be repeated: symbols that are not the marker declare themselves, one required parameter
   each, and the symbol after the marker declares the rest parameter, whatever the others are. -/
theorem parameter_lists_are_exact (func : String) (cells : List Value) :
    let strange := cells.findIdx? fun v => v.shape != .symbol
    (∀ i, strange = some i → ∃ v f, cells[i]? = some v ∧ ofCells func cells = .error f ∧
      f.toValue = .error s!"function '{func}' passed incorrect type for argument {i}: got {v.shape.name}, expected Symbol" .typeMismatch) ∧
    (strange = none → ∃ names, cells = Value.symbols names ∧
      ((∃ f, ofCells func cells = .ok f) ↔ Accepted names) ∧
      (¬ Accepted names → ∃ f, ofCells func cells = .error f ∧
        f.toValue = .error "function format invalid: symbol '&' not followed by single symbol"
          .invalidVariadicSignature)) ∧
    (∀ f, ofCells func cells = .ok f → Value.ofFormals f = .qexpr cells ∧
      ∀ n : Nat, n ≤ f.required.length → Value.ofFormals (f.drop n) = .qexpr (cells.drop n) ∧
        ∀ func', ofCells func' (cells.drop n) = .ok (f.drop n)) ∧
    ∀ front, restMarker ∉ front →
      ofCells func (Value.symbols front) = .ok ⟨front, none⟩ ∧
      ∀ r, r ≠ restMarker →
        ofCells func (Value.symbols (front ++ [restMarker, r])) = .ok ⟨front, some r⟩ := by
  intro strange
  refine ⟨fun i hi => ?_, fun hnone => ?_, fun f hf => ?_, fun front hfront => ?_⟩
  · have hfirst : cells.findIdx? (fun v => (Variant.symbol.get? v).isNone) = some i := by
      simpa only [Variant.isNone_symbol] using hi
    obtain ⟨v, hv, htake⟩ := Variant.takeFrom_eq_error hfirst func 0
    refine ⟨v, _, hv, ?_, Failure.toValue_wrongType_symbol func i v.shape⟩
    rw [ofCells, Variant.takeAll, htake, Nat.zero_add]
    rfl
  · obtain ⟨names, rfl⟩ := Value.exists_symbols hnone
    refine ⟨names, rfl, ?_, fun hnot => ⟨.variadicSignature, ?_, rfl⟩⟩
    · rw [ofCells_symbols, accepted_iff]
    · rw [ofCells_symbols, ofNames_of_not_accepted hnot]
  · obtain ⟨rfl, hproper⟩ := ofCells_eq_ok.mp hf
    refine ⟨rfl, fun n hn => ?_⟩
    have hcells : (Value.symbols f.names).drop n = Value.symbols (f.drop n).names := by
      rw [names_drop hn, Value.symbols, Value.symbols, List.map_drop]
    rw [hcells]
    exact ⟨rfl, fun func' => ofCells_eq_ok.mpr ⟨rfl, hproper.drop n⟩⟩
  · refine ⟨?_, fun r hr => ?_⟩
    · rw [ofCells_symbols, ofNames_of_not_mem hfront]
    · rw [ofCells_symbols, ofNames_marker hfront hr]

/-- A name that is given to two required parameters and to the rest parameter, and a marker that
stands last: the first list is accepted, also when a parameter has been bound, the second is not. -/
theorem parameter_lists_are_exact_repeated :
    let f : Formals := ⟨["x", "x"], some "x"⟩
    let cells := Value.symbols ["x", "x", "&", "x"]
    ofCells "fun" cells = .ok f ∧ 1 ≤ f.required.length ∧
      ofCells "fun" (Value.symbols ["x", "&", "x"]) = .ok ⟨["x"], some "x"⟩ ∧
      ¬ Accepted ["x", "&"] ∧ ∃ e, ofCells "fun" (Value.symbols ["x", "&"]) = .error e ∧
        e.toValue = .error "function format invalid: symbol '&' not followed by single symbol"
          .invalidVariadicSignature := by
  intro f cells
  obtain ⟨-, -, hback, hdeclared⟩ := parameter_lists_are_exact "fun" cells
  have hf : ofCells "fun" cells = .ok f :=
    (hdeclared ["x", "x"] (by decide)).2 "x" (by decide)
  have hn : 1 ≤ f.required.length := by decide
  have hleft := ((hback f hf).2 1 hn).2 "fun"
  have hnot : ¬ Accepted ["x", "&"] := by decide
  obtain ⟨-, hrefused, -⟩ := parameter_lists_are_exact "fun" (Value.symbols ["x", "&"])
  obtain ⟨names, hnames, -, herror⟩ := hrefused rfl
  obtain rfl := List.map_injective_iff.mpr (fun _ _ h => Value.symbol.inj h) hnames
  exact ⟨hf, hn, hleft, hnot, herror hnot⟩

end Formals

end CurryLisp

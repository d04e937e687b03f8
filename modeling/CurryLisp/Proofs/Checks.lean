/-
# What the argument checks let through

A builtin looks at its arguments only through a few checks.  Each check is inverted here: a call
that passes it has exactly the shape that the check asks for, and what the check hands on is what
the arguments hold.  Whoever reasons about a builtin starts from these shapes and does not open the
checks again.

* `Variant.Makes`: the one way to be a value of a variant;
* `Variant.take_eq_ok`, `Variant.takeAll_eq_ok`: one argument, all arguments;
* `Form.quoted_eq_ok` to `Form.namedSignature_eq_ok`: the calls of each form that are not refused;
* `Formals.mem_of_ofNames`: the names that a parameter list declares;
* `Formals.bind_eq_waiting`, `Formals.bind_eq_complete`: what a call binds.
-/
import CurryLisp.Library.Forms

namespace CurryLisp

/-! ## 1. One variant -/

/-- A computation that may fail succeeds when its steps do. -/
theorem bind_eq_ok {ε α β : Type} {x : Except ε α} {f : α → Except ε β} {b : β} :
    x >>= f = .ok b ↔ ∃ a, x = .ok a ∧ f a = .ok b := by
  cases x with
  | error e => simp [bind, Except.bind]
  | ok a => simp [bind, Except.bind]

theorem map_eq_ok {ε α β : Type} {x : Except ε α} {f : α → β} {b : β} :
    x.map f = .ok b ↔ ∃ a, x = .ok a ∧ f a = b := by
  cases x with
  | error e => simp [Except.map]
  | ok a => simp [Except.map]

theorem map_eq_error {ε α β : Type} {x : Except ε α} {f : α → β} {e : ε} :
    x.map f = .error e ↔ x = .error e := by
  cases x with
  | error e' => simp [Except.map]
  | ok a => simp [Except.map]

namespace Variant

variable {α : Type} {k : Variant α} {mk : α → Value} {func : String}

/-- The values of a variant are the ones that a constructor makes. -/
def Makes (k : Variant α) (mk : α → Value) : Prop := ∀ v a, k.get? v = some a ↔ v = mk a

theorem number_makes : number.Makes .number := by
  intro v a
  cases v <;> simp [number]

theorem string_makes : string.Makes .string := by
  intro v a
  cases v <;> simp [string]

theorem symbol_makes : symbol.Makes .symbol := by
  intro v a
  cases v <;> simp [symbol]

theorem qexpr_makes : qexpr.Makes .qexpr := by
  intro v a
  cases v <;> simp [qexpr]

/-- An argument passes when it is of the variant. -/
theorem take_eq_ok (hk : k.Makes mk) {index : Nat} {v : Value} {a : α} :
    k.take func index v = .ok a ↔ v = mk a := by
  rw [← hk v a, take]
  cases k.get? v <;> simp

theorem takeFrom_cons_eq_ok {index : Nat} {v : Value} {rest : List Value} {as : List α} :
    k.takeFrom func index (v :: rest) = .ok as ↔
      ∃ a as', k.take func index v = .ok a ∧ k.takeFrom func (index + 1) rest = .ok as' ∧
        as = a :: as' := by
  rw [takeFrom]
  cases k.take func index v with
  | error f => simp
  | ok a =>
    rw [map_eq_ok]
    constructor
    · rintro ⟨as', hr, rfl⟩
      exact ⟨a, as', rfl, hr, rfl⟩
    · rintro ⟨_, as', ha, hr, rfl⟩
      cases ha
      exact ⟨as', hr, rfl⟩

theorem takeFrom_eq_ok (hk : k.Makes mk) {index : Nat} {args : List Value} {as : List α} :
    k.takeFrom func index args = .ok as ↔ args = as.map mk := by
  induction args generalizing index as with
  | nil => cases as <;> simp
  | cons v rest ih =>
    rw [takeFrom_cons_eq_ok]
    constructor
    · rintro ⟨a, as', ha, hr, rfl⟩
      rw [(take_eq_ok hk).mp ha, ih.mp hr, List.map_cons]
    · intro h
      cases as with
      | nil => cases h
      | cons a as' =>
        obtain ⟨hv, hr⟩ := List.cons.inj h
        exact ⟨a, as', (take_eq_ok hk).mpr hv, ih.mpr hr, rfl⟩

/-- The arguments pass when they are all of the variant. -/
theorem takeAll_eq_ok (hk : k.Makes mk) {args : List Value} {as : List α} :
    k.takeAll func args = .ok as ↔ args = as.map mk :=
  takeFrom_eq_ok hk

end Variant

/-! ## 2. The forms -/

namespace Form

variable {func : String} {args : List Value}

/-- One quoted list passes. -/
theorem quoted_eq_ok {cells : List Value} :
    quoted func args = .ok cells ↔ args = [.qexpr cells] := by
  unfold quoted
  split
  · rw [Variant.take_eq_ok Variant.qexpr_makes]
    simp
  · next h =>
    constructor
    · intro he
      cases he
    · intro he
      exact absurd he (h _)

/-- One text passes. -/
theorem fileName_eq_ok {name : String} : fileName func args = .ok name ↔ args = [.string name] := by
  unfold fileName
  split
  · rw [Variant.take_eq_ok Variant.string_makes]
    simp
  · next h =>
    constructor
    · intro he
      cases he
    · intro he
      exact absurd he (h _)

/-- A number and two quoted lists pass; zero selects the second list. -/
theorem chosen_eq_ok {cells : List Value} :
    chosen func args = .ok cells ↔
      ∃ n yes no, args = [.number n, .qexpr yes, .qexpr no] ∧
        cells = if n = 0 then no else yes := by
  unfold chosen
  split
  · simp only [bind_eq_ok, Variant.take_eq_ok Variant.number_makes,
      Variant.take_eq_ok Variant.qexpr_makes, pure, Except.pure, Except.ok.injEq]
    constructor
    · rintro ⟨n, rfl, yes, rfl, no, rfl, rfl⟩
      exact ⟨n, yes, no, rfl, rfl⟩
    · rintro ⟨n, yes, no, h, rfl⟩
      cases h
      exact ⟨n, rfl, yes, rfl, no, rfl, rfl⟩
  · next h =>
    constructor
    · intro he
      cases he
    · rintro ⟨n, yes, no, he, -⟩
      exact absurd he (h _ _ _)

/-- A quoted list of symbols passes, followed by as many values. -/
theorem definitions_eq_ok {more : List (String × Value)} :
    definitions func args = .ok more ↔
      ∃ names values, args = .qexpr (Value.symbols names) :: values ∧
        names.length = values.length ∧ more = names.zip values := by
  unfold definitions
  split
  · simp
  · next spec values =>
    simp only [bind_eq_ok, Variant.take_eq_ok Variant.qexpr_makes,
      Variant.takeAll_eq_ok Variant.symbol_makes]
    constructor
    · rintro ⟨cells, rfl, names, rfl, h⟩
      split at h
      · next hlen =>
        cases h
        exact ⟨names, values, rfl, hlen, rfl⟩
      · cases h
    · rintro ⟨names, values', h, hlen, rfl⟩
      cases h
      refine ⟨_, rfl, names, rfl, ?_⟩
      rw [if_pos hlen]
      rfl

/-- Two quoted lists pass, the first of them an accepted parameter list. -/
theorem signature_eq_ok {formals : Formals} {body : List Value} :
    signature func args = .ok (formals, body) ↔
      ∃ names, args = [.qexpr (Value.symbols names), .qexpr body] ∧
        Formals.ofNames names = .ok formals := by
  unfold signature
  split
  · next spec code =>
    simp only [bind_eq_ok, Variant.take_eq_ok Variant.qexpr_makes, Formals.ofCells,
      Variant.takeAll_eq_ok Variant.symbol_makes, pure, Except.pure, Except.ok.injEq,
      Prod.mk.injEq]
    constructor
    · rintro ⟨cells, rfl, code', rfl, f, ⟨names, rfl, hf⟩, rfl, rfl⟩
      exact ⟨names, rfl, hf⟩
    · rintro ⟨names, h, hf⟩
      cases h
      exact ⟨_, rfl, _, rfl, formals, ⟨names, rfl, hf⟩, rfl, rfl⟩
  · next h =>
    constructor
    · intro he
      cases he
    · rintro ⟨names, he, -⟩
      exact absurd he (h _ _)

/-- Two quoted lists pass, the first of them a symbol before an accepted parameter list. -/
theorem namedSignature_eq_ok {name : String} {formals : Formals} {body : List Value} :
    namedSignature func args = .ok (name, formals, body) ↔
      ∃ names, args = [.qexpr (.symbol name :: Value.symbols names), .qexpr body] ∧
        Formals.ofNames names = .ok formals := by
  unfold namedSignature
  split
  · next spec code =>
    simp only [bind_eq_ok, Variant.take_eq_ok Variant.qexpr_makes]
    constructor
    · rintro ⟨cells, rfl, code', rfl, h⟩
      split at h
      · cases h
      · simp only [bind_eq_ok, Variant.take_eq_ok Variant.symbol_makes, Formals.ofCells,
          Variant.takeAll_eq_ok Variant.symbol_makes, pure, Except.pure, Except.ok.injEq,
          Prod.mk.injEq] at h
        obtain ⟨x, rfl, f, ⟨names, rfl, hf⟩, rfl, rfl, rfl⟩ := h
        exact ⟨names, rfl, hf⟩
    · rintro ⟨names, h, hf⟩
      cases h
      refine ⟨_, rfl, _, rfl, ?_⟩
      simp only [bind_eq_ok, Variant.take_eq_ok Variant.symbol_makes, Formals.ofCells,
        Variant.takeAll_eq_ok Variant.symbol_makes, pure, Except.pure, Except.ok.injEq,
        Prod.mk.injEq]
      exact ⟨name, rfl, formals, ⟨names, rfl, hf⟩, rfl, rfl, trivial⟩
  · next h =>
    constructor
    · intro he
      cases he
    · rintro ⟨names, he, -⟩
      exact absurd he (h _ _)

end Form

/-! ## 3. Parameter lists -/

/-- An accepted parameter list declares none but its own symbols. -/
theorem Formals.mem_of_ofNames {names : List String} {f : Formals} (h : ofNames names = .ok f)
    {x : String} (hx : x ∈ f.required ∨ f.rest = some x) : x ∈ names := by
  have hcut : names.takeWhile (· != restMarker) ++ names.dropWhile (· != restMarker) = names :=
    List.takeWhile_append_dropWhile
  unfold ofNames at h
  split at h
  · cases h
    simpa using hx
  · next marker tail hd =>
    split at h
    · next r =>
      split at h
      · cases h
      · cases h
        rw [hd] at hcut
        rw [← hcut]
        rcases hx with hx | hx
        · exact List.mem_append_left _ hx
        · cases hx
          simp
    · cases h

/-! ## 4. Calls of functions -/

namespace Formals

variable {f g : Formals} {own own' frame : Bindings} {args : List Value}

/-- A call with too few arguments binds those it has and waits for the others. -/
theorem bind_eq_waiting (h : f.bind own args = .waiting g own') :
    args.length < f.required.length ∧ g = f.drop args.length ∧
      own' = own.putAll (f.required.zip args) := by
  unfold bind at h
  split at h
  · cases h
  · split at h
    · next hlt =>
      cases h
      exact ⟨hlt, rfl, rfl⟩
    · split at h <;> cases h

/-- A call with enough arguments binds the required parameters, and then the rest parameter to the
list of the arguments left over. -/
theorem bind_eq_complete (h : f.bind own args = .complete frame) :
    f.required.length ≤ args.length ∧
      frame = match f.rest with
        | none => own.putAll (f.required.zip args)
        | some r =>
          (own.putAll (f.required.zip args)).put r (.qexpr (args.drop f.required.length)) := by
  unfold bind at h
  split at h
  · cases h
  · split at h
    · cases h
    · next hge =>
      refine ⟨Nat.le_of_not_lt hge, ?_⟩
      cases hr : f.rest with
      | none =>
        rw [hr] at h
        cases h
        rfl
      | some r =>
        rw [hr] at h
        cases h
        rfl

/-- What is bound while a call waits was bound before, or is an argument under the name of a
required parameter. -/
theorem mem_of_bind_waiting (h : f.bind own args = .waiting g own') {q : String × Value}
    (hq : q ∈ own') : q ∈ own ∨ q.1 ∈ f.required ∧ q.2 ∈ args := by
  obtain ⟨-, -, rfl⟩ := bind_eq_waiting h
  rcases Bindings.mem_putAll hq with hq | hq
  · exact Or.inr (List.of_mem_zip hq)
  · exact Or.inl hq

/-- What is bound in the frame of a call was bound before, or is an argument under the name of a
required parameter, or is the list of the arguments left over. -/
theorem mem_of_bind_complete (h : f.bind own args = .complete frame) {q : String × Value}
    (hq : q ∈ frame) :
    q ∈ own ∨ (q.1 ∈ f.required ∧ q.2 ∈ args) ∨
      (f.rest = some q.1 ∧ q.2 = .qexpr (args.drop f.required.length)) := by
  have named : q ∈ own.putAll (f.required.zip args) →
      q ∈ own ∨ q.1 ∈ f.required ∧ q.2 ∈ args := by
    intro hq
    rcases Bindings.mem_putAll hq with hq | hq
    · exact Or.inr (List.of_mem_zip hq)
    · exact Or.inl hq
  obtain ⟨-, hframe⟩ := bind_eq_complete h
  cases hr : f.rest with
  | none =>
    rw [hr] at hframe
    rw [hframe] at hq
    exact (named hq).imp_right Or.inl
  | some r =>
    rw [hr] at hframe
    rw [hframe] at hq
    rcases Bindings.mem_put hq with rfl | hq
    · exact Or.inr (Or.inr ⟨rfl, rfl⟩)
    · exact (named hq).imp_right Or.inl

end Formals

end CurryLisp

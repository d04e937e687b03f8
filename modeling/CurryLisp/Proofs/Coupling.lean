/-
# Two runs of one program

Nearly all that can be said of evaluation is said in the same way: something is asked of machines,
of everything inside values, and of the environments in which evaluation takes place, and each
step of evaluation keeps it.  Here the steps are walked through once and for all, for two machines
side by side, since a statement about one machine is a statement about two equal ones.

A `Coupling` says what is asked.  Its `Sound`ness lists what has to be checked, one law for each
thing that evaluation can do.  Then

* `Coupling.Sound.evaluate`: coupled machines that evaluate the same value in the same environment
  both stop with the same fault or both give the same value, and are coupled again;
* `Coupling.Sound.applyLambda`: the same of applying a function;
* `Coupling.ofMachines_sound`: what is to be checked when nothing is asked of values.

The number of frames in the store is carried along: it only grows, and what is asked of a value or
an environment may depend on how many frames there are.

The evaluator need not be `evaluate`.  Of the arguments of operators more may be assumed when the
evaluator is known to give nothing else (`Coupling.Gives`), and then the law for operators has to be
checked for such arguments only.
-/
import CurryLisp.Eval.Evaluate
import CurryLisp.Proofs.Answers
import CurryLisp.Proofs.Reading

namespace CurryLisp

/-! ## 1. How a computation ends -/

namespace Machine

variable {α : Type}

/-- The machine that a computation leaves behind, whether it ends with a value or with a fault. -/
def after (m : Machine) (x : EvalM α) : Machine :=
  match x m with
  | .ok _ m' | .error _ m' => m'

/-- The value or the fault that a computation ends with. -/
def outcome (m : Machine) (x : EvalM α) : Except Fault α :=
  match x m with
  | .ok a _ => .ok a
  | .error f _ => .error f

theorem after_eq_of_ok {m m' : Machine} {x : EvalM α} {a : α} (h : x m = .ok a m') :
    m.after x = m' := by
  rw [after, h]

theorem after_eq_of_error {m m' : Machine} {x : EvalM α} {f : Fault} (h : x m = .error f m') :
    m.after x = m' := by
  rw [after, h]

theorem outcome_eq_of_ok {m m' : Machine} {x : EvalM α} {a : α} (h : x m = .ok a m') :
    m.outcome x = .ok a := by
  rw [outcome, h]

theorem outcome_eq_of_error {m m' : Machine} {x : EvalM α} {f : Fault} (h : x m = .error f m') :
    m.outcome x = .error f := by
  rw [outcome, h]

/-- Runs that are the same end with the same outcome on the same machine. -/
theorem run_congr {m m' : Machine} {x y : EvalM α} (h : x m = y m') :
    m.outcome x = m'.outcome y ∧ m.after x = m'.after y := by
  rw [outcome, outcome, after, after, h]
  exact ⟨rfl, rfl⟩

/-- A computation goes on where the one before has stopped, unless that was a fault. -/
theorem after_bind {β : Type} (m : Machine) (x : EvalM α) (f : α → EvalM β) :
    m.after (x >>= f) = match m.outcome x with
      | .ok a => (m.after x).after (f a)
      | .error _ => m.after x := by
  change m.after (EStateM.bind x f) = _
  unfold after outcome EStateM.bind
  cases x m <;> rfl

/-- A value that is given afterwards leaves the machine as it is. -/
theorem after_andThen {β : Type} (m : Machine) (x : EvalM α) (b : β) :
    m.after (do let _ ← x; return b) = m.after x := by
  rw [after_bind]
  cases m.outcome x <;> rfl

/-- Going through something leaves the machine as it is, whether there are calls enough or not. -/
theorem after_walk (m : Machine) (ev : Evaluator) (walks : List Walk) :
    m.after (ev.walk walks) = m := by
  rcases ev.walk_cases walks with ⟨-, hdone⟩ | hstop
  · rw [hdone]
    rfl
  · rw [hstop]
    rfl

end Machine

theorem EvalM.bind_of_ok {α β : Type} {x : EvalM α} {m m' : Machine} {a : α} (h : x m = .ok a m')
    (f : α → EvalM β) : (x >>= f) m = f a m' := by
  change EStateM.bind x f m = _
  rw [EStateM.bind, h]

theorem EvalM.bind_of_error {α β : Type} {x : EvalM α} {m m' : Machine} {fault : Fault}
    (h : x m = .error fault m') (f : α → EvalM β) : (x >>= f) m = .error fault m' := by
  change EStateM.bind x f m = _
  rw [EStateM.bind, h]

/-- What goes on after computations that do the same does the same. -/
theorem EvalM.bind_congr_run {α β : Type} {x y : EvalM α} {m : Machine} (h : x m = y m)
    (f : α → EvalM β) : (x >>= f) m = (y >>= f) m := by
  change EStateM.bind x f m = EStateM.bind y f m
  rw [EStateM.bind, EStateM.bind, h]

/-- A computation that goes on after another gives a value when both do. -/
theorem EvalM.bind_eq_ok {α β : Type} {x : EvalM α} {f : α → EvalM β} {m m' : Machine} {b : β} :
    (x >>= f) m = .ok b m' ↔ ∃ a m₁, x m = .ok a m₁ ∧ f a m₁ = .ok b m' := by
  change EStateM.bind x f m = .ok b m' ↔ _
  unfold EStateM.bind
  cases x m with
  | ok a m₁ =>
    constructor
    · exact fun h => ⟨a, m₁, rfl, h⟩
    · rintro ⟨_, _, hx, h⟩
      cases hx
      exact h
  | error f m₁ =>
    constructor
    · intro h
      cases h
    · rintro ⟨_, _, hx, -⟩
      cases hx

/-- A computation that goes on after another stops when one of the two does. -/
theorem EvalM.bind_eq_error {α β : Type} {x : EvalM α} {f : α → EvalM β} {m m' : Machine}
    {fault : Fault} :
    (x >>= f) m = .error fault m' ↔
      x m = .error fault m' ∨ ∃ a m₁, x m = .ok a m₁ ∧ f a m₁ = .error fault m' := by
  cases h : x m with
  | ok a m₁ =>
    rw [bind_of_ok h]
    constructor
    · exact fun hf => Or.inr ⟨a, m₁, rfl, hf⟩
    · rintro (hx | ⟨_, _, hx, hf⟩)
      · cases hx
      · cases hx
        exact hf
  | error fault' m₁ =>
    rw [bind_of_error h]
    constructor
    · intro hx
      cases hx
      exact Or.inl rfl
    · rintro (hx | ⟨_, _, hx, -⟩)
      · cases hx
        rfl
      · cases hx

/-! ## 2. Couplings -/

/-- Something can be gone through, if evaluation may nest deep enough. -/
def Host.Allows (host : Host) (w : Walk) : Prop := ∃ depth, host.calls.allows depth w = true

/-- What is asked of two machines and of the values and environments they work with. -/
structure Coupling where
  /-- which machines are coupled -/
  Rel : Machine → Machine → Prop
  /-- what is asked of everything inside a value, when there are so many frames -/
  part : Nat → Value → Prop
  /-- what is asked of a result as a whole -/
  Res : Value → Prop
  /-- what is asked of an argument as a whole, besides being a result -/
  Taken : Value → Prop
  /-- the environments in which evaluation takes place, when there are so many frames -/
  Env : Nat → FrameId → Prop

namespace Coupling

variable {α β : Type} (A : Coupling)

/-- What is asked of any value. -/
def Holds (n : Nat) (v : Value) : Prop := v.All (A.part n)

/-- What is asked of a result. -/
def Answer (n : Nat) (v : Value) : Prop := A.Holds n v ∧ A.Res v

/-- What is asked of an argument. -/
def Arg (n : Nat) (v : Value) : Prop := A.Answer n v ∧ A.Taken v

/-- What is asked of bindings that are made: a symbol that names an argument. -/
def Binds (n : Nat) (more : List (String × Value)) : Prop :=
  ∀ q ∈ more, A.part n (.symbol q.1) ∧ A.Arg n q.2

/-- What is asked of the names that a parameter list declares. -/
def Declares (n : Nat) (f : Formals) : Prop :=
  ∀ x, x ∈ f.required ∨ f.rest = some x → A.part n (.symbol x)

/-- What is made without the machine: the laws of values.  Of the arguments of an operator more may
be known if more is known of whatever is seen to be the result of an evaluation. -/
structure ValueLaws (host : Host) (seen : Value → Prop := fun _ => True) : Prop where
  error : ∀ {n} m k, A.part n (.error m k)
  sexpr : ∀ {n} cells, A.part n (.sexpr cells)
  qexpr : ∀ {n} cells, A.part n (.qexpr cells)
  string : ∀ {n} s, A.part n (.string s)
  settled : ∀ {v}, v.Settled → A.Res v
  /-- errors never become arguments -/
  taken : ∀ {v}, v.isError = false → A.Taken v
  operator : ∀ {n o args v}, (∀ a ∈ args, A.Arg n a ∧ seen a) → Operator.run o args = .ok v →
    A.Holds n v
  read : ∀ {n path source nodes forms}, host.files.text path = .ok source →
    parse source = .ok nodes → host.Allows (.reading nodes) → Value.ofNodes nodes = .ok forms →
    ∀ v ∈ forms, A.Holds n v

/-- What evaluation does to coupled machines.  One law stands for each thing that it can do. -/
structure Sound (host : Host) (seen : Value → Prop := fun _ => True) : Prop
    extends A.ValueLaws host seen where
  size_eq : ∀ {m₁ m₂}, A.Rel m₁ m₂ → m₁.store.size = m₂.store.size
  part_mono : ∀ {n n' v}, n ≤ n' → A.part n v → A.part n' v
  env_mono : ∀ {n n' e}, n ≤ n' → A.Env n e → A.Env n' e
  close : ∀ {n e f} body, A.Env n e → A.Declares n f → A.part n (.lambda f body [] (some e))
  await : ∀ {n f body own scope g own'}, (Value.lambda f body own scope).All (A.part n) →
    (∀ x ∈ g.required, x ∈ f.required) → g.rest = f.rest →
    (∀ q ∈ own', q ∈ own ∨ q.1 ∈ f.required ∧ A.Arg n q.2) → A.part n (.lambda g body own' scope)
  lookup : ∀ {m₁ m₂ e x}, A.Rel m₁ m₂ → A.Env m₁.store.size e →
    A.part m₁.store.size (.symbol x) → m₁.store.get? e x = m₂.store.get? e x ∧
      ∀ v, m₁.store.get? e x = some v → A.Answer m₁.store.size v
  print : ∀ {m₁ m₂} line, A.Rel m₁ m₂ → A.Rel { m₁ with printed := m₁.printed.push line }
    { m₂ with printed := m₂.printed.push line }
  note : ∀ {m₁ m₂} e, A.Rel m₁ m₂ → A.Rel { m₁ with events := m₁.events.push e }
    { m₂ with events := m₂.events.push e }
  bind : ∀ {m₁ m₂ e more}, A.Rel m₁ m₂ → A.Env m₁.store.size e → A.Binds m₁.store.size more →
    A.Rel { m₁ with store := m₁.store.putAll e more } { m₂ with store := m₂.store.putAll e more }
  bindGlobal : ∀ {m₁ m₂ e more}, A.Rel m₁ m₂ → A.Env m₁.store.size e →
    A.Binds m₁.store.size more →
    A.Rel { m₁ with store := m₁.store.putAll (m₁.store.root e) more }
      { m₂ with store := m₂.store.putAll (m₂.store.root e) more }
  enter : ∀ {m₁ m₂ f body own scope frame}, A.Rel m₁ m₂ →
    (Value.lambda f body own scope).All (A.part m₁.store.size) →
    (∀ q ∈ frame, q ∈ own ∨ (q.1 ∈ f.required ∨ f.rest = some q.1) ∧ A.Arg m₁.store.size q.2) →
    A.Rel { m₁ with store := m₁.store.alloc frame scope }
      { m₂ with store := m₂.store.alloc frame scope } ∧ A.Env (m₁.store.size + 1) m₁.store.size

/-- The laws of values hold when nothing is asked of numbers, texts, errors, lists and symbols. -/
theorem ValueLaws.of_plain {A : Coupling} (hp : ∀ n, Value.Plain (A.part n))
    (hsym : ∀ n x, A.part n (.symbol x)) (hsettled : ∀ v, v.Settled → A.Res v)
    (htaken : ∀ v, v.isError = false → A.Taken v) (host : Host) : A.ValueLaws host where
  error m k := (hp _).error m k
  sexpr cells := (hp _).sexpr cells
  qexpr cells := (hp _).qexpr cells
  string s := (hp _).string s
  settled h := hsettled _ h
  taken h := htaken _ h
  operator hargs h :=
    Operator.run_all (hp _).inRange (fun a ha => (hargs a ha).1.1.1) (fun n hn => hn ▸ (hp _).number n) h
  read _ hnodes _ hforms :=
    Value.all_of_parse (hp _).inRange hnodes (fun t _ _ => hsym _ t.text) hforms

/-! ## 3. Computations that treat coupled machines alike -/

/-- Two computations end alike: with the same value, of which something holds, or with the same
fault; the machines are coupled again and have at least a given number of frames. -/
inductive Ends (n : Nat) (Q : Nat → α → Prop) :
    EStateM.Result Fault Machine α → EStateM.Result Fault Machine α → Prop
  | ok {a : α} {m₁ m₂ : Machine} : A.Rel m₁ m₂ → n ≤ m₁.store.size → Q m₁.store.size a →
      Ends n Q (.ok a m₁) (.ok a m₂)
  | error {f : Fault} {m₁ m₂ : Machine} : A.Rel m₁ m₂ → n ≤ m₁.store.size →
      Ends n Q (.error f m₁) (.error f m₂)

/-- Started in coupled machines with at least a given number of frames, a computation ends alike
in both. -/
def Alike (n : Nat) (x : EvalM α) (Q : Nat → α → Prop) : Prop :=
  ∀ m₁ m₂, A.Rel m₁ m₂ → n ≤ m₁.store.size → A.Ends m₁.store.size Q (x m₁) (x m₂)

/-- An evaluator treats coupled machines alike, and goes through nothing that the host never
allows. -/
structure Evaluates (host : Host) (ev : Evaluator) : Prop where
  eval : ∀ n v e, A.Holds n v → A.Env n e → A.Alike n (ev v e) A.Answer
  allows : ∀ {w}, ev.allows w = true → host.Allows w

variable {A} {n : Nat} {x : EvalM α} {Q : Nat → α → Prop}

theorem Ends.mono {k : Nat} {r₁ r₂ : EStateM.Result Fault Machine α} (h : A.Ends n Q r₁ r₂)
    (hk : k ≤ n) : A.Ends k Q r₁ r₂ := by
  cases h with
  | ok hm hn hq => exact .ok hm (Nat.le_trans hk hn) hq
  | error hm hn => exact .error hm (Nat.le_trans hk hn)

theorem Alike.pure {a : α} (h : ∀ k, n ≤ k → Q k a) : A.Alike n (pure a) Q :=
  fun m₁ _ hm hn => .ok hm (Nat.le_refl _) (h m₁.store.size hn)

theorem Alike.stop (f : Fault) : A.Alike n (Machine.stop f : EvalM α) Q :=
  fun _ _ hm _ => .error hm (Nat.le_refl _)

/-- Computations are joined: what the first gives, the second starts from. -/
theorem Alike.bind {R : Nat → β → Prop} {f : α → EvalM β} (hx : A.Alike n x Q)
    (hf : ∀ k a, n ≤ k → Q k a → A.Alike k (f a) R) : A.Alike n (x >>= f) R := by
  intro m₁ m₂ hm hn
  have hends := hx m₁ m₂ hm hn
  change A.Ends m₁.store.size R (EStateM.bind x f m₁) (EStateM.bind x f m₂)
  unfold EStateM.bind
  generalize x m₁ = r₁, x m₂ = r₂ at hends
  cases hends with
  | @ok a m₁' m₂' hm' hn' hq =>
    exact (hf _ a (Nat.le_trans hn hn') hq m₁' m₂' hm' (Nat.le_refl _)).mono hn'
  | error hm' hn' => exact .error hm' hn'

theorem Ends.weaken {R : Nat → α → Prop} {r₁ r₂ : EStateM.Result Fault Machine α}
    (h : A.Ends n Q r₁ r₂) (hq : ∀ k a, Q k a → R k a) : A.Ends n R r₁ r₂ := by
  cases h with
  | ok hm hn ha => exact .ok hm hn (hq _ _ ha)
  | error hm hn => exact .error hm hn

theorem Alike.weaken {R : Nat → α → Prop} (h : A.Alike n x Q) (hq : ∀ k a, Q k a → R k a) :
    A.Alike n x R :=
  fun m₁ m₂ hm hn => (h m₁ m₂ hm hn).weaken hq

/-- More is known of a value if it is known of all values that the computation gives. -/
theorem Alike.with {P : α → Prop} (h : A.Alike n x Q) (hP : ∀ m a m', x m = .ok a m' → P a) :
    A.Alike n x fun k a => Q k a ∧ P a := by
  intro m₁ m₂ hm hn
  have hends := h m₁ m₂ hm hn
  generalize hx : x m₁ = r₁, x m₂ = r₂ at hends
  cases hends with
  | ok hm' hn' hq => exact .ok hm' hn' ⟨hq, hP _ _ _ hx⟩
  | error hm' hn' => exact .error hm' hn'

/-- A computation is run for some values, one after the other. -/
theorem Alike.mapM {R : Nat → β → Prop} (hmono : ∀ {n k b}, n ≤ k → R n b → R k b)
    {f : Value → EvalM β} {vs : List Value} (h : ∀ v ∈ vs, ∀ k, n ≤ k → A.Alike k (f v) R) :
    A.Alike n (vs.mapM f) fun k rs => ∀ r ∈ rs, R k r := by
  induction vs generalizing n with
  | nil => exact Alike.pure fun k _ r hr => absurd hr List.not_mem_nil
  | cons v rest ih =>
    rw [List.mapM_cons]
    refine (h v List.mem_cons_self n (Nat.le_refl n)).bind fun k r hk hr => ?_
    have hrest : ∀ w ∈ rest, ∀ l, k ≤ l → A.Alike l (f w) R := fun w hw l hl =>
      h w (List.mem_cons_of_mem _ hw) l (Nat.le_trans hk hl)
    refine (ih hrest).bind fun l rs hl hrs => ?_
    refine Alike.pure fun j hj s hs => ?_
    rcases List.mem_cons.mp hs with rfl | hs
    · exact hmono (Nat.le_trans hl hj) hr
    · exact hmono hj (hrs s hs)

/-- Machines on which a computation ends alike cannot be told apart by the outcome. -/
theorem Ends.two_runs {m₁ m₂ : Machine} (h : A.Ends n Q (x m₁) (x m₂)) :
    m₁.outcome x = m₂.outcome x ∧ A.Rel (m₁.after x) (m₂.after x) := by
  unfold Machine.outcome Machine.after
  generalize x m₁ = r₁, x m₂ = r₂ at h
  cases h with
  | ok hm' _ _ => exact ⟨rfl, hm'⟩
  | error hm' _ => exact ⟨rfl, hm'⟩

/-- **Coupled machines cannot be told apart by the outcome**, and are coupled again after it. -/
theorem Alike.two_runs (h : A.Alike n x Q) {m₁ m₂ : Machine} (hm : A.Rel m₁ m₂)
    (hn : n ≤ m₁.store.size) :
    m₁.outcome x = m₂.outcome x ∧ A.Rel (m₁.after x) (m₂.after x) :=
  (h m₁ m₂ hm hn).two_runs

/-- A machine that is coupled with itself stays so, and what is asked of results holds. -/
theorem Alike.one_run (h : A.Alike n x Q) {m : Machine} (hm : A.Rel m m)
    (hn : n ≤ m.store.size) :
    A.Rel (m.after x) (m.after x) ∧ m.store.size ≤ (m.after x).store.size ∧
      ∀ a, m.outcome x = .ok a → Q (m.after x).store.size a := by
  have hends := h m m hm hn
  have htwo := (h.two_runs hm hn).2
  refine ⟨htwo, ?_⟩
  unfold Machine.outcome Machine.after
  generalize x m = r at hends
  cases hends with
  | ok _ hsize hq =>
    refine ⟨hsize, fun a ha => ?_⟩
    cases ha
    exact hq
  | error _ hsize => exact ⟨hsize, fun a ha => nomatch ha⟩

/-! ## 4. What is asked of values -/

section Values

variable {host : Host} {seen : Value → Prop} {k : Nat} {v : Value}

theorem Sound.holds_mono (hA : A.Sound host seen) (hk : n ≤ k) (h : A.Holds n v) : A.Holds k v :=
  h.mono fun _ hw => hA.part_mono hk hw

theorem Sound.answer_mono (hA : A.Sound host seen) (hk : n ≤ k) (h : A.Answer n v) : A.Answer k v :=
  ⟨hA.holds_mono hk h.1, h.2⟩

theorem Sound.arg_mono (hA : A.Sound host seen) (hk : n ≤ k) (h : A.Arg n v) : A.Arg k v :=
  ⟨hA.answer_mono hk h.1, h.2⟩

theorem Sound.answer_failure (hA : A.Sound host seen) (f : Failure) : A.Answer n f.toValue :=
  ⟨Value.all_of_parts_nil rfl (hA.error _ _), hA.settled (Value.settled_toValue f)⟩

theorem Sound.answer_string (hA : A.Sound host seen) (s : String) : A.Answer n (.string s) :=
  ⟨Value.all_of_parts_nil rfl (hA.string s), hA.settled trivial⟩

theorem Sound.holds_form (hA : A.Sound host seen) {cells : List Value}
    (h : ∀ c ∈ cells, A.Holds n c) : A.Holds n (.sexpr cells) :=
  Value.all_sexpr.mpr ⟨hA.sexpr cells, h⟩

theorem Sound.answer_unit (hA : A.Sound host seen) : A.Answer n .unit :=
  ⟨hA.holds_form fun _ hc => absurd hc List.not_mem_nil, hA.settled Value.settled_unit⟩

theorem Sound.arg_list (hA : A.Sound host seen) {cells : List Value}
    (h : ∀ c ∈ cells, A.Holds n c) : A.Arg n (.qexpr cells) :=
  ⟨⟨Value.all_qexpr.mpr ⟨hA.qexpr cells, h⟩, hA.settled trivial⟩, hA.taken rfl⟩

/-- A quoted list that is an argument can be evaluated. -/
theorem Sound.holds_form_of_arg (hA : A.Sound host seen) {cells : List Value}
    (h : A.Arg n (.qexpr cells)) : A.Holds n (.sexpr cells) :=
  hA.holds_form (Value.all_qexpr.mp h.1.1).2

/-- The symbols of a quoted list that is an argument may be bound. -/
theorem part_symbol_of_arg {names : List String} {cells : List Value}
    (h : A.Arg n (.qexpr cells)) (hsub : ∀ c ∈ Value.symbols names, c ∈ cells) {x : String}
    (hx : x ∈ names) : A.part n (.symbol x) :=
  ((Value.all_qexpr.mp h.1.1).2 _ (hsub _ (List.mem_map_of_mem hx))).self

end Values

/-! ## 5. What evaluation does to a machine -/

section Machines

variable {host : Host} {seen : Value → Prop} {e : FrameId} {more : List (String × Value)}

theorem Sound.lookup_alike (hA : A.Sound host seen) (he : A.Env n e) {x : String}
    (hx : A.part n (.symbol x)) : A.Alike n (Machine.lookup e x) A.Answer := by
  intro m₁ m₂ hm hn
  obtain ⟨heq, hans⟩ := hA.lookup hm (hA.env_mono hn he) (hA.part_mono hn hx)
  unfold Machine.lookup
  rw [← heq]
  refine .ok hm (Nat.le_refl _) ?_
  cases hv : m₁.store.get? e x with
  | none => exact hA.answer_failure _
  | some v => exact hans v hv

theorem Sound.print_alike (hA : A.Sound host seen) (line : String) :
    A.Alike n (Machine.print line) fun _ _ => True :=
  fun _ _ hm _ => .ok (hA.print line hm) (Nat.le_refl _) trivial

theorem Sound.note_alike (hA : A.Sound host seen) (event : Event) :
    A.Alike n (Machine.note event) fun _ _ => True :=
  fun _ _ hm _ => .ok (hA.note event hm) (Nat.le_refl _) trivial

/-- Whatever is to be gone through, it can be or it cannot, on any machine. -/
theorem Alike.walk (ev : Evaluator) (walks : List Walk) :
    A.Alike n (ev.walk walks) fun _ _ => ∀ w ∈ walks, ev.allows w = true := by
  unfold Evaluator.walk
  split
  · next hall => exact Alike.pure fun _ _ => List.all_eq_true.mp hall
  · exact Alike.stop _

theorem Sound.binds_mono (hA : A.Sound host seen) {k : Nat} (hk : n ≤ k) (h : A.Binds n more) :
    A.Binds k more :=
  fun q hq => ⟨hA.part_mono hk (h q hq).1, hA.arg_mono hk (h q hq).2⟩

theorem Sound.bind_alike (hA : A.Sound host seen) (he : A.Env n e) (hmore : A.Binds n more) :
    A.Alike n (Machine.bind e more) fun _ _ => True := by
  intro m₁ m₂ hm hn
  refine .ok (hA.bind hm (hA.env_mono hn he) (hA.binds_mono hn hmore)) ?_ trivial
  exact Nat.le_of_eq (Store.size_update _ _ _).symm

theorem Sound.bindGlobal_alike (hA : A.Sound host seen) (he : A.Env n e) (hmore : A.Binds n more) :
    A.Alike n (Machine.bindGlobal e more) fun _ _ => True := by
  intro m₁ m₂ hm hn
  refine .ok (hA.bindGlobal hm (hA.env_mono hn he) (hA.binds_mono hn hmore)) ?_ trivial
  exact Nat.le_of_eq (Store.size_update _ _ _).symm

/-- The frame of a call is made. -/
theorem Sound.enter_alike (hA : A.Sound host seen) {f : Formals} {body : List Value}
    {own frame : Bindings} {scope : Option FrameId} (hf : A.Holds n (.lambda f body own scope))
    (hframe : ∀ q ∈ frame,
      q ∈ own ∨ (q.1 ∈ f.required ∨ f.rest = some q.1) ∧ A.Arg n q.2) :
    A.Alike n (Machine.allocate frame scope) A.Env := by
  intro m₁ m₂ hm hn
  obtain ⟨hm', henv⟩ := hA.enter hm (hA.holds_mono hn hf) fun q hq =>
    (hframe q hq).imp_right fun h => ⟨h.1, hA.arg_mono hn h.2⟩
  have hsize := Store.size_alloc m₁.store frame scope
  unfold Machine.allocate
  rw [← hA.size_eq hm]
  refine .ok hm' ?_ ?_
  · exact Nat.le_trans (Nat.le_succ _) (Nat.le_of_eq hsize.symm)
  · change A.Env (m₁.store.alloc frame scope).size m₁.store.size
    rw [hsize]
    exact henv

/-- A check that fails is answered with an error. -/
theorem Sound.orElseFail_alike (hA : A.Sound host seen) {r : Except Failure α} {next : α → EvalM Value}
    (h : ∀ a, r = .ok a → A.Alike n (next a) A.Answer) :
    A.Alike n (Value.orElseFail r next) A.Answer := by
  cases r with
  | ok a => exact h a rfl
  | error f => exact Alike.pure fun _ _ => hA.answer_failure f

end Machines

/-! ## 6. Functions -/

section Evaluation

variable {host : Host} {seen : Value → Prop} {ev : Evaluator} {env : FrameId}
  {args : List Value}

/-- What the frame of a call binds was bound before, or is an argument. -/
theorem Sound.frame_of_bind (hA : A.Sound host seen) {f : Formals} {own frame : Bindings}
    (hargs : ∀ a ∈ args, A.Arg n a) (h : f.bind own args = .complete frame) :
    ∀ q ∈ frame, q ∈ own ∨ (q.1 ∈ f.required ∨ f.rest = some q.1) ∧ A.Arg n q.2 := by
  have hrest : A.Arg n (.qexpr (args.drop f.required.length)) :=
    hA.arg_list fun c hc => (hargs c (List.mem_of_mem_drop hc)).1.1
  intro q hq
  rcases Formals.mem_of_bind_complete h hq with hq | ⟨hx, hq⟩ | ⟨hx, hq⟩
  · exact Or.inl hq
  · exact Or.inr ⟨Or.inl hx, hargs _ hq⟩
  · exact Or.inr ⟨Or.inr hx, hq ▸ hrest⟩

/-- **Applying a function.**  The arguments are bound, and then the body is evaluated in the frame
of the call, or a function that waits for more is made. -/
theorem Sound.applyLambda (hA : A.Sound host seen) (hev : A.Evaluates host ev) {f : Formals}
    {body : List Value} {own : Bindings} {scope : Option FrameId}
    (hf : A.Holds n (.lambda f body own scope)) (hargs : ∀ a ∈ args, A.Arg n a) :
    A.Alike n (applyLambda ev f body own scope args) A.Answer := by
  obtain ⟨hself, hbody, hown⟩ := Value.all_lambda.mp hf
  unfold CurryLisp.applyLambda
  split
  · exact Alike.pure fun _ _ => hA.answer_failure _
  · next awaiting own' hbind =>
    have hnew : ∀ q ∈ own', q ∈ own ∨ q.1 ∈ f.required ∧ A.Arg n q.2 := fun q hq =>
      (Formals.mem_of_bind_waiting hbind hq).imp_right fun h => ⟨h.1, hargs _ h.2⟩
    obtain ⟨-, rfl, -⟩ := Formals.bind_eq_waiting hbind
    refine (hA.note_alike _).bind fun k _ hk _ => Alike.pure fun l hl => ?_
    have hnl : n ≤ l := Nat.le_trans hk hl
    rw [Formals.drop_natCast]
    refine ⟨hA.holds_mono hnl (Value.all_lambda.mpr ⟨?_, hbody, ?_⟩), hA.settled trivial⟩
    · exact hA.await hf (fun x hx => List.mem_of_mem_drop hx) rfl hnew
    · intro q hq
      rcases hnew q hq with hq | ⟨-, hq⟩
      · exact hown q hq
      · exact hq.1.1
  · next frame hbind =>
    have hframe := hA.frame_of_bind hargs hbind
    refine (hA.enter_alike hf hframe).bind fun k e hk he => ?_
    exact hev.eval k _ e (hA.holds_mono hk (hA.holds_form hbody)) he

/-! ## 7. The forms -/

/-- The names of a definition are symbols, and its values are arguments. -/
theorem binds_of_definitions {func : String} {more : List (String × Value)}
    (h : Form.definitions func args = .ok more) (hargs : ∀ a ∈ args, A.Arg n a) :
    A.Binds n more := by
  obtain ⟨names, values, rfl, -, rfl⟩ := Form.definitions_eq_ok.mp h
  intro q hq
  obtain ⟨hx, hv⟩ := List.of_mem_zip hq
  exact ⟨part_symbol_of_arg (hargs _ List.mem_cons_self) (fun _ hc => hc) hx,
    hargs _ (List.mem_cons_of_mem _ hv)⟩

/-- A function is made in the environment that is evaluated in. -/
theorem Sound.close_alike (hA : A.Sound host seen) (he : A.Env n env) {f : Formals}
    {body : List Value} (hf : A.Declares n f) (hbody : A.Arg n (.qexpr body)) :
    A.Alike n (Form.close env f body) A.Arg := by
  unfold Form.close
  refine (hA.note_alike _).bind fun k _ hk _ => Alike.pure fun l hl => ?_
  have hnl : n ≤ l := Nat.le_trans hk hl
  have hnew : A.Holds n (.lambda f body [] (some env)) :=
    Value.all_lambda.mpr ⟨hA.close body he hf, (Value.all_qexpr.mp hbody.1.1).2,
      fun q hq => absurd hq List.not_mem_nil⟩
  exact ⟨⟨hA.holds_mono hnl hnew, hA.settled trivial⟩, hA.taken rfl⟩

/-- What is read from trees may be evaluated, if that is known where the trees can be gone
through. -/
theorem Alike.formsOf {nodes : List Node}
    (hread : ∀ k forms, ev.allows (.reading nodes) = true → Value.ofNodes nodes = .ok forms →
      ∀ v ∈ forms, A.Holds k v) :
    A.Alike n (Form.formsOf ev nodes) fun k forms => ∀ v ∈ forms, A.Holds k v := by
  unfold Form.formsOf
  refine (Alike.walk ev _).bind fun k _ _ hallows => ?_
  unfold Form.valuesOf
  split
  · next forms hforms =>
    exact Alike.pure fun l _ => hread l forms (hallows _ List.mem_cons_self) hforms
  · exact Alike.stop _

theorem Sound.runPrinting_alike (hA : A.Sound host seen) (hev : A.Evaluates host ev) (he : A.Env n env)
    {forms : List Value} (hforms : ∀ v ∈ forms, A.Holds n v) :
    A.Alike n (Form.runPrinting ev env forms) fun _ _ => True := by
  induction forms generalizing n with
  | nil => exact Alike.pure fun _ _ => trivial
  | cons v rest ih =>
    unfold Form.runPrinting
    refine (hev.eval n v env (hforms v List.mem_cons_self) he).bind fun k r hk _ => ?_
    have hrest : ∀ l, k ≤ l → A.Alike l (Form.runPrinting ev env rest) fun _ _ => True :=
      fun l hl => ih (hA.env_mono (Nat.le_trans hk hl) he) fun w hw =>
        hA.holds_mono (Nat.le_trans hk hl) (hforms w (List.mem_cons_of_mem _ hw))
    dsimp only
    split
    · exact (hA.print_alike _).bind fun l _ hl _ => hrest l hl
    · exact hrest k (Nat.le_refl k)

theorem Sound.loadFile_alike (hA : A.Sound host seen) (hev : A.Evaluates host ev) (he : A.Env n env)
    (name : String) : A.Alike n (Form.loadFile host ev env name) A.Answer := by
  have refused : ∀ {n} (event : Event) (f : Failure),
      A.Alike n (do Machine.note event; return f.toValue) A.Answer := fun event f =>
    (hA.note_alike event).bind fun _ _ _ _ => Alike.pure fun _ _ => hA.answer_failure f
  unfold Form.loadFile
  split
  · exact Alike.stop _
  · split
    · exact Alike.stop _
    · exact refused _ _
    · exact refused _ _
    · next source hsource =>
      unfold Form.loadText
      refine (Alike.walk ev _).bind fun k _ hk _ => ?_
      split
      · exact refused _ _
      · next nodes hnodes =>
        refine (hA.note_alike _).bind fun l _ hl _ => ?_
        have hforms : A.Alike l (Form.formsOf ev nodes) fun j forms => ∀ v ∈ forms, A.Holds j v :=
          Alike.formsOf fun j forms hallows =>
            hA.read hsource hnodes (hev.allows hallows)
        refine hforms.bind fun j forms hj hforms => ?_
        have hjn : n ≤ j := Nat.le_trans (Nat.le_trans hk hl) hj
        refine (hA.runPrinting_alike hev (hA.env_mono hjn he) hforms).bind fun _ _ _ _ => ?_
        exact Alike.pure fun _ _ => hA.answer_unit

theorem Sound.readFile_alike (hA : A.Sound host seen) (name : String) :
    A.Alike n (Form.readFile host name) A.Answer := by
  unfold Form.readFile
  split
  · exact Alike.pure fun _ _ => hA.answer_failure _
  · split
    · exact Alike.stop _
    · exact Alike.pure fun _ _ => hA.answer_failure _
    · exact Alike.pure fun _ _ => hA.answer_failure _
    · exact Alike.pure fun _ _ => hA.answer_string _

/-- **Calling a form.** -/
theorem Sound.form_alike (hA : A.Sound host seen) (hev : A.Evaluates host ev) (he : A.Env n env)
    (hargs : ∀ a ∈ args, A.Arg n a) (f : Form) :
    A.Alike n (f.run host ev env args) A.Answer := by
  cases f with
  | eval =>
    refine hA.orElseFail_alike fun cells h => ?_
    obtain rfl := Form.quoted_eq_ok.mp h
    exact hev.eval n _ env (hA.holds_form_of_arg (hargs _ List.mem_cons_self)) he
  | branch =>
    refine hA.orElseFail_alike fun cells h => ?_
    obtain ⟨c, yes, no, rfl, rfl⟩ := Form.chosen_eq_ok.mp h
    have hchosen : A.Arg n (.qexpr (if c = 0 then no else yes)) := by
      split
      · exact hargs _ (by simp)
      · exact hargs _ (by simp)
    exact hev.eval n _ env (hA.holds_form_of_arg hchosen) he
  | define =>
    refine hA.orElseFail_alike fun more h => ?_
    refine (hA.bindGlobal_alike he (binds_of_definitions h hargs)).bind fun _ _ _ _ => ?_
    exact Alike.pure fun _ _ => hA.answer_unit
  | assign =>
    refine hA.orElseFail_alike fun more h => ?_
    refine (hA.bind_alike he (binds_of_definitions h hargs)).bind fun _ _ _ _ => ?_
    exact Alike.pure fun _ _ => hA.answer_unit
  | lambda =>
    refine hA.orElseFail_alike fun ⟨formals, body⟩ h => ?_
    obtain ⟨names, rfl, hformals⟩ := Form.signature_eq_ok.mp h
    have hdecl : A.Declares n formals := fun x hx =>
      part_symbol_of_arg (hargs _ List.mem_cons_self) (fun _ hc => hc)
        (Formals.mem_of_ofNames hformals hx)
    have hclose := hA.close_alike he hdecl (hargs (.qexpr body) (by simp))
    exact hclose.weaken fun _ _ h => h.1
  | function =>
    refine hA.orElseFail_alike fun ⟨name, formals, body⟩ h => ?_
    obtain ⟨names, rfl, hformals⟩ := Form.namedSignature_eq_ok.mp h
    have hspec := hargs _ List.mem_cons_self
    have hdecl : A.Declares n formals := fun x hx =>
      part_symbol_of_arg hspec (fun _ hc => List.mem_cons_of_mem _ hc)
        (Formals.mem_of_ofNames hformals hx)
    have hname : A.part n (.symbol name) :=
      ((Value.all_qexpr.mp hspec.1.1).2 _ List.mem_cons_self).self
    refine (hA.close_alike he hdecl (hargs (.qexpr body) (by simp))).bind fun k v hk hv => ?_
    have hbinds : A.Binds k [(name, v)] := by
      intro q hq
      rw [List.mem_singleton.mp hq]
      exact ⟨hA.part_mono hk hname, hv⟩
    refine (hA.bindGlobal_alike (hA.env_mono hk he) hbinds).bind fun _ _ _ _ => ?_
    exact Alike.pure fun _ _ => hA.answer_unit
  | print =>
    refine (hA.print_alike _).bind fun _ _ _ _ => ?_
    exact Alike.pure fun _ _ => hA.answer_unit
  | load =>
    refine hA.orElseFail_alike fun name _ => ?_
    exact hA.loadFile_alike hev he name
  | read =>
    refine hA.orElseFail_alike fun name _ => ?_
    exact hA.readFile_alike name

/-! ## 8. Evaluation -/

/-- Something is known of all values that an evaluator gives. -/
def Gives (seen : Value → Prop) (ev : Evaluator) : Prop :=
  ∀ v e m r m', ev v e m = .ok r m' → seen r

theorem Sound.call_alike (hA : A.Sound host seen) (hev : A.Evaluates host ev) (he : A.Env n env)
    (hargs : ∀ a ∈ args, A.Arg n a) (hseen : ∀ a ∈ args, seen a) (b : Builtin) :
    A.Alike n (b.call host ev env args) A.Answer := by
  cases b with
  | operator o =>
    unfold Builtin.call
    dsimp only
    split
    · exact Alike.stop _
    · refine Alike.pure fun k hk => ?_
      cases ho : o.run args with
      | ok v =>
        have hholds := hA.operator (fun a ha => ⟨hargs a ha, hseen a ha⟩) ho
        exact ⟨hA.holds_mono hk hholds, hA.settled (Operator.run_settled ho)⟩
      | error f => exact hA.answer_failure f
  | form f => exact hA.form_alike hev he hargs f

theorem Sound.apply_alike (hA : A.Sound host seen) (hev : A.Evaluates host ev) (he : A.Env n env)
    {head : Value} (hhead : A.Arg n head) (hargs : ∀ a ∈ args, A.Arg n a)
    (hseen : ∀ a ∈ args, seen a) : A.Alike n (apply host ev head args env) A.Answer := by
  unfold apply applyWith
  split
  · exact hA.applyLambda hev hhead.1.1 hargs
  · exact hA.call_alike hev he hargs hseen _
  · exact Alike.pure fun _ _ => hA.answer_failure _

theorem Sound.combine_alike (hA : A.Sound host seen) (hev : A.Evaluates host ev) (he : A.Env n env)
    {results : List Value} (hres : ∀ r ∈ results, A.Answer n r ∧ seen r) :
    A.Alike n (combine host ev env results) A.Answer := by
  unfold combine
  split
  · next e herr =>
    have hmem : e ∈ results := List.mem_of_find?_eq_some herr
    exact Alike.pure fun k hk => hA.answer_mono hk (hres e hmem).1
  · next hnone =>
    have hargs : ∀ r ∈ results, A.Arg n r := fun r hr =>
      ⟨(hres r hr).1, hA.taken (by simpa using List.find?_eq_none.mp hnone r hr)⟩
    split
    · exact Alike.pure fun _ _ => hA.answer_unit
    · next v =>
      exact Alike.pure fun k hk => hA.answer_mono hk (hres v List.mem_cons_self).1
    · next head args _ =>
      refine (Alike.walk ev _).bind fun k _ hk _ => ?_
      exact hA.apply_alike hev (hA.env_mono hk he) (hA.arg_mono hk (hargs head List.mem_cons_self))
        (fun a ha => hA.arg_mono hk (hargs a (List.mem_cons_of_mem _ ha)))
        fun a ha => (hres a (List.mem_cons_of_mem _ ha)).2

theorem Sound.reduce_alike (hA : A.Sound host seen) (hev : A.Evaluates host ev) (hgives : Gives seen ev)
    (he : A.Env n env) {cells : List Value} (hcells : ∀ c ∈ cells, A.Holds n c) :
    A.Alike n (reduce host ev cells env) A.Answer := by
  have hresults : A.Alike n (cells.mapM fun c => ev c env) fun k rs =>
      ∀ r ∈ rs, A.Answer k r ∧ seen r := by
    refine Alike.mapM (fun hk h => ⟨hA.answer_mono hk h.1, h.2⟩) fun c hc k hk => ?_
    exact (hev.eval k c env (hA.holds_mono hk (hcells c hc)) (hA.env_mono hk he)).with (hgives c env)
  exact hresults.bind fun k results hk hres => hA.combine_alike hev (hA.env_mono hk he) hres

theorem Sound.fetch_alike (hA : A.Sound host seen) (he : A.Env n env) {x : String}
    (hx : A.part n (.symbol x)) : A.Alike n (fetch ev x env) A.Answer := by
  unfold fetch
  refine (hA.lookup_alike he hx).bind fun k v _ hv => ?_
  refine (Alike.walk ev _).bind fun l _ hl _ => ?_
  exact Alike.pure fun j hj => hA.answer_mono (Nat.le_trans hl hj) hv

/-- **One level of evaluation treats coupled machines alike** if the evaluator below does. -/
theorem Sound.evaluateStep (hA : A.Sound host seen) (hev : A.Evaluates host ev)
    (hgives : Gives seen ev) {v : Value} (hv : A.Holds n v) (he : A.Env n env) :
    A.Alike n (evaluateStep host ev v env) A.Answer := by
  have itself : v.Settled → A.Alike n (pure v) A.Answer := fun h =>
    Alike.pure fun k hk => ⟨hA.holds_mono hk hv, hA.settled h⟩
  cases v with
  | symbol x => exact hA.fetch_alike he hv.self
  | sexpr cells => exact hA.reduce_alike hev hgives he (Value.all_sexpr.mp hv).2
  | number | string | error | qexpr | builtin | lambda => exact itself trivial

/-- **Evaluation treats coupled machines alike**, however deep it may nest. -/
theorem Sound.evaluate (hA : A.Sound host) (depth : Nat) :
    A.Evaluates host (CurryLisp.evaluate host depth) := by
  induction depth with
  | zero => exact ⟨fun _ _ _ _ _ => Alike.stop _, fun h => ⟨0, h⟩⟩
  | succ depth ih =>
    refine ⟨fun n v e hv he => ?_, fun h => ⟨depth + 1, h⟩⟩
    exact hA.evaluateStep ih (fun _ _ _ _ _ _ => trivial) hv he

end Evaluation

/-! ## 9. Machines alone -/

section Machines

variable {Rel : Machine → Machine → Prop}

/-- Something is asked of machines, and nothing of values and environments. -/
def ofMachines (Rel : Machine → Machine → Prop) : Coupling where
  Rel := Rel
  part _ _ := True
  Res _ := True
  Taken _ := True
  Env _ _ := True

theorem ofMachines_arg (Rel : Machine → Machine → Prop) (n : Nat) (v : Value) :
    (ofMachines Rel).Arg n v :=
  ⟨⟨Value.all_of_forall (fun _ => trivial) v, trivial⟩, trivial⟩

/-- **Machines with the same store are coupled soundly** if changing it, printing and reporting keep
them so. -/
theorem ofMachines_sound (host : Host) (same : ∀ {m₁ m₂}, Rel m₁ m₂ → m₁.store = m₂.store)
    (change : ∀ {m₁ m₂} (s : Store), Rel m₁ m₂ →
      Rel { m₁ with store := s } { m₂ with store := s })
    (print : ∀ {m₁ m₂} line, Rel m₁ m₂ → Rel { m₁ with printed := m₁.printed.push line }
      { m₂ with printed := m₂.printed.push line })
    (note : ∀ {m₁ m₂} e, Rel m₁ m₂ → Rel { m₁ with events := m₁.events.push e }
      { m₂ with events := m₂.events.push e }) :
    (ofMachines Rel).Sound host where
  toValueLaws := .of_plain (fun _ => Value.plain_true) (fun _ _ => trivial) (fun _ _ => trivial)
    (fun _ _ => trivial) host
  size_eq h := congrArg Store.size (same h)
  part_mono _ _ := trivial
  env_mono _ _ := trivial
  close _ _ _ := trivial
  await _ _ _ _ := trivial
  lookup h _ _ := ⟨by rw [same h], fun v _ => (ofMachines_arg Rel _ v).1⟩
  print line h := print line h
  note e h := note e h
  bind h _ _ := by
    rw [← same h]
    exact change _ h
  bindGlobal h _ _ := by
    rw [← same h]
    exact change _ h
  enter h _ _ := by
    rw [← same h]
    exact ⟨change _ h, trivial⟩

end Machines

end Coupling

end CurryLisp

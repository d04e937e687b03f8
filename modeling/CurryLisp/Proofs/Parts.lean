/-
# Parts of values

A list holds its cells.  A function holds its body and the arguments it has been given.  What is
held may hold more, at any depth, so that symbols, errors and functions can sit anywhere inside a
value.  `Value.All p` says that `p` holds of a value and of everything inside it.

Most of what programs do to values only moves parts around, so a property that is `Plain`, one that
asks nothing of numbers, texts, errors and lists, is kept by nearly everything.  `PlainInRange`
lets a property ask of numbers that they are in range.
-/
import CurryLisp.Failure

namespace CurryLisp

namespace Value

/-! ## 1. What a value holds -/

/-- The values that a value holds directly. -/
def parts : Value → List Value
  | sexpr cells | qexpr cells => cells
  | lambda _ body own _ => body ++ own.map Prod.snd
  | _ => []

/-- What a value holds is smaller than the value. -/
theorem sizeOf_lt_of_mem_parts {v w : Value} (h : w ∈ v.parts) : sizeOf w < sizeOf v := by
  cases v with
  | sexpr cells =>
    have hlt : sizeOf w < sizeOf cells := List.sizeOf_lt_of_mem h
    rw [sexpr.sizeOf_spec]
    omega
  | qexpr cells =>
    have hlt : sizeOf w < sizeOf cells := List.sizeOf_lt_of_mem h
    rw [qexpr.sizeOf_spec]
    omega
  | lambda f body own scope =>
    rw [lambda.sizeOf_spec]
    rcases List.mem_append.mp h with hw | hw
    · have hlt : sizeOf w < sizeOf body := List.sizeOf_lt_of_mem hw
      omega
    · obtain ⟨⟨x, v⟩, hb, rfl⟩ := List.mem_map.mp hw
      have hlt : sizeOf (x, v) < sizeOf own := List.sizeOf_lt_of_mem hb
      rw [Prod.mk.sizeOf_spec] at hlt
      dsimp only
      omega
  | number | string | symbol | error | builtin => exact absurd h List.not_mem_nil

/-- A property of a value and of everything inside it. -/
inductive All (p : Value → Prop) : Value → Prop
  | intro {v : Value} : p v → (∀ w ∈ v.parts, All p w) → All p v

variable {p q : Value → Prop} {v : Value}

theorem All.self (h : v.All p) : p v := by
  cases h with
  | intro hv _ => exact hv

theorem All.part (h : v.All p) {w : Value} (hw : w ∈ v.parts) : w.All p := by
  cases h with
  | intro _ hp => exact hp w hw

theorem All.mono (h : v.All p) (hpq : ∀ w, p w → q w) : v.All q := by
  induction h with
  | intro hv _ ih => exact .intro (hpq _ hv) ih

theorem all_iff : v.All p ↔ p v ∧ ∀ w ∈ v.parts, w.All p :=
  ⟨fun h => ⟨h.self, fun _ hw => h.part hw⟩, fun ⟨hv, hp⟩ => .intro hv hp⟩

/-- A list says of its cells what is said of all its parts. -/
theorem all_qexpr {cells : List Value} :
    (qexpr cells).All p ↔ p (qexpr cells) ∧ ∀ c ∈ cells, c.All p := all_iff

theorem all_sexpr {cells : List Value} :
    (sexpr cells).All p ↔ p (sexpr cells) ∧ ∀ c ∈ cells, c.All p := all_iff

/-- So does a function of its body and of its arguments so far. -/
theorem all_lambda {f : Formals} {body : List Value} {own : List (String × Value)}
    {scope : Option FrameId} :
    (lambda f body own scope).All p ↔
      p (lambda f body own scope) ∧ (∀ c ∈ body, c.All p) ∧ ∀ b ∈ own, b.2.All p := by
  rw [all_iff]
  refine and_congr_right fun _ => ?_
  constructor
  · intro h
    refine ⟨fun c hc => h c (List.mem_append_left _ hc), fun b hb => ?_⟩
    exact h b.2 (List.mem_append_right _ (List.mem_map_of_mem hb))
  · rintro ⟨hbody, hown⟩ w hw
    rcases List.mem_append.mp hw with hw | hw
    · exact hbody w hw
    · obtain ⟨b, hb, rfl⟩ := List.mem_map.mp hw
      exact hown b hb

/-- A value that holds nothing is all there is. -/
theorem all_of_parts_nil (hv : v.parts = []) (h : p v) : v.All p :=
  .intro h fun _ hw => absurd (hv ▸ hw) List.not_mem_nil

/-- What is true of every value is true of everything inside. -/
theorem all_of_forall (h : ∀ w, p w) (v : Value) : v.All p :=
  .intro (h v) fun w _ => all_of_forall h w
termination_by sizeOf v
decreasing_by exact sizeOf_lt_of_mem_parts ‹_›

/-! ## 2. Settled values -/

/-- The values that evaluation gives: all but symbols and round lists that hold something. -/
def Settled : Value → Prop
  | symbol _ => False
  | sexpr cells => cells = []
  | _ => True

theorem settled_toValue (f : Failure) : f.toValue.Settled := trivial

theorem settled_unit : unit.Settled := rfl

/-! ## 3. Plain properties -/

/-- A property that asks nothing of numbers in range, texts, errors and lists. -/
structure PlainInRange (p : Value → Prop) : Prop where
  number : ∀ n, fits n = true → p (.number n)
  string : ∀ s, p (.string s)
  error : ∀ m k, p (.error m k)
  sexpr : ∀ cells, p (.sexpr cells)
  qexpr : ∀ cells, p (.qexpr cells)

/-- A property that asks nothing of numbers, texts, errors and lists. -/
structure Plain (p : Value → Prop) : Prop where
  number : ∀ n, p (.number n)
  string : ∀ s, p (.string s)
  error : ∀ m k, p (.error m k)
  sexpr : ∀ cells, p (.sexpr cells)
  qexpr : ∀ cells, p (.qexpr cells)

theorem Plain.inRange (hp : Plain p) : PlainInRange p where
  number n _ := hp.number n
  string := hp.string
  error := hp.error
  sexpr := hp.sexpr
  qexpr := hp.qexpr

theorem plain_true : Plain fun _ => True :=
  ⟨fun _ => trivial, fun _ => trivial, fun _ _ => trivial, fun _ => trivial, fun _ => trivial⟩

namespace PlainInRange

theorem all_number (hp : PlainInRange p) {n : Int} (hn : fits n = true) : (Value.number n).All p :=
  all_of_parts_nil rfl (hp.number n hn)

theorem all_string (hp : PlainInRange p) (s : String) : (Value.string s).All p :=
  all_of_parts_nil rfl (hp.string s)

theorem all_failure (hp : PlainInRange p) (f : Failure) : f.toValue.All p :=
  all_of_parts_nil rfl (hp.error _ _)

theorem all_list (hp : PlainInRange p) {cells : List Value} (h : ∀ c ∈ cells, c.All p) :
    (Value.qexpr cells).All p :=
  all_qexpr.mpr ⟨hp.qexpr _, h⟩

theorem all_form (hp : PlainInRange p) {cells : List Value} (h : ∀ c ∈ cells, c.All p) :
    (Value.sexpr cells).All p :=
  all_sexpr.mpr ⟨hp.sexpr _, h⟩

end PlainInRange

end Value

end CurryLisp

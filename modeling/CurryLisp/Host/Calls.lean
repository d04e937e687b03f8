/-
# Calls that are nested

Evaluation nests, and so does all that goes through a text, a tree or a value level by level: it
goes into the inner ones, and has to come back.  The host keeps the calls that are under way, and
ends a program that nests too many of them.  What one level takes of them is the business of the
host.

* `Walk`: what is gone through;
* `CallStack`: what a program can rely on;
* `CallStack.counted`: a host that counts calls.
-/
import CurryLisp.Syntax.Forest
import CurryLisp.Value

namespace CurryLisp

/-! ## 1. What is gone through -/

/-- Something that is gone through level by level. -/
inductive Walk
  /-- a text is parsed -/
  | parsing (source : String)
  /-- trees are turned into values -/
  | reading (trees : List Node)
  | copying (v : Value)
  | printing (v : Value)
  | comparing (v w : Value)

/-- Whether there is nothing inside a value that would have to be gone into. -/
def Value.isFlat : Value → Bool
  | .sexpr cells | .qexpr cells => cells.isEmpty
  | .lambda _ _ _ _ => false
  | _ => true

/-- Whether there is only one level.  Values are compared as far down as both of them go. -/
def Walk.isFlat : Walk → Bool
  | copying v | printing v => v.isFlat
  | comparing v w => v.isFlat || w.isFlat
  | parsing _ | reading _ => false

/-! ## 2. What a program can rely on -/

/-- The calls that a host lets a program nest.

A limit says how many calls there may be, and thereby how deep evaluation may nest.  Where it may
still nest so much deeper, the calls that are left are enough for some things to be gone through,
and always for what is flat. -/
structure CallStack where
  /-- the limit that holds when nobody asks for another -/
  usual : Nat
  /-- how deep evaluation may nest under a limit -/
  nesting : Nat → Nat
  /-- what can be gone through where evaluation may nest so much deeper -/
  allows : Nat → Walk → Bool
  nesting_mono : ∀ {limit limit'}, limit ≤ limit' → nesting limit ≤ nesting limit'
  allows_mono : ∀ {depth depth' w}, depth ≤ depth' → allows depth w = true → allows depth' w = true
  allows_flat : ∀ {w}, w.isFlat = true → ∀ depth, allows depth w = true

/-! ## 3. Counting calls -/

namespace Value

mutual

/-- How many levels of other values there are inside a value. -/
def nest : Value → Nat
  | .sexpr cells => nestFrom 0 cells
  | .qexpr cells => nestFrom 0 cells
  | .lambda _ body own _ => nestOwn (nestFrom 0 body + 1) own
  | _ => 0

/-- The levels of some values that are inside another, or the levels that were found before. -/
def nestFrom (found : Nat) : List Value → Nat
  | [] => found
  | v :: rest => nestFrom (max found (v.nest + 1)) rest

/-- The levels of arguments that a function holds. -/
def nestOwn (found : Nat) : List (String × Value) → Nat
  | [] => found
  | (_, v) :: rest => nestOwn (max found (v.nest + 1)) rest

end

theorem nest_of_isFlat {v : Value} (h : v.isFlat = true) : v.nest = 0 := by
  cases v with
  | sexpr cells | qexpr cells =>
    rw [List.isEmpty_iff.mp h]
    rfl
  | lambda => cases h
  | number | string | symbol | error | builtin => rfl

end Value

namespace Node

mutual

/-- How many levels of other nodes there are under a node. -/
def nest : Node → Nat
  | ⟨_, _, children, _⟩ => nestFrom 0 children

/-- The levels of some nodes that are under another, or the levels that were found before. -/
def nestFrom (found : Nat) : List Node → Nat
  | [] => found
  | n :: rest => nestFrom (max found (n.nest + 1)) rest

end

end Node

/-- How many lists are open at once while tokens are taken, up to the first that is refused, or
how many were open at once before. -/
def Forest.reach (f : Forest) (found : Nat) : List Token → Nat
  | [] => max found f.openLists.length
  | t :: rest =>
    match f.push t with
    | .ok f' => f'.reach (max found f.openLists.length) rest
    | .error _ => max found f.openLists.length

/-- The calls that going through something takes, beyond those of its first level. -/
def Walk.calls : Walk → Nat
  | parsing source => ({} : Forest).reach 0 (lex source).tokens
  | reading trees => 3 * Node.nestFrom 0 trees
  | copying v => 3 * v.nest
  | printing v => 2 * v.nest
  | comparing v w => min v.nest w.nest

theorem Walk.calls_of_isFlat {w : Walk} (h : w.isFlat = true) : w.calls = 0 := by
  cases w with
  | parsing | reading => cases h
  | copying v => rw [calls, Value.nest_of_isFlat h]
  | printing v => rw [calls, Value.nest_of_isFlat h]
  | comparing v w =>
    rcases Bool.or_eq_true_iff.mp h with h | h
    · rw [calls, Value.nest_of_isFlat h, Nat.zero_min]
    · rw [calls, Value.nest_of_isFlat h, Nat.min_zero]

/-- A host that counts calls: an evaluation inside another one takes three of them. -/
def CallStack.counted (usual : Nat) : CallStack where
  usual := usual
  nesting limit := limit / 3
  allows depth w := w.calls ≤ 3 * depth
  nesting_mono h := Nat.div_le_div_right h
  allows_mono hd h := decide_eq_true
    (Nat.le_trans (of_decide_eq_true h) (Nat.mul_le_mul_left 3 hd))
  allows_flat h _ := decide_eq_true (Walk.calls_of_isFlat h ▸ Nat.zero_le _)

end CurryLisp

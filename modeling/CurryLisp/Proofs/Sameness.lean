/-
# What is compared

Two values can be the same without being equal.  The kind of an error is not compared, nor is what a
function has been given so far, nor where it was made; and all this at any depth, since lists and
bodies are compared cell by cell.  What is left when these are taken away is the `face` of a value.
A value is the same as another exactly when their faces are equal (`Value.same_iff`), so sameness is
an equivalence because equality is one.

Printing and naming the variant look at nothing else than the face (`Value.chars_face`,
`Value.shape_face`), so they do not tell apart what is the same.  The converse fails: all builtins are
printed alike.

The main statement is `sameness_respects_printing`.
-/
import CurryLisp.Library.Operators
import CurryLisp.Value.Inspect
import Mathlib.Data.List.Forall2

namespace CurryLisp.Value

/-! ## 1. The face of a value -/

mutual

/-- What is compared of a value: all but the kinds of errors and, of functions, the arguments that
they hold and the frames that they were made in. -/
def face : Value → Value
  | error m _ => error m .user
  | sexpr cells => sexpr (faces cells)
  | qexpr cells => qexpr (faces cells)
  | lambda f body _ _ => lambda f (faces body) [] none
  | v => v

/-- What is compared of some values. -/
def faces : List Value → List Value
  | [] => []
  | v :: vs => v.face :: faces vs

end

mutual

/-- **Values are the same when their faces are equal.** -/
theorem same_iff : ∀ v w : Value, v.same w = true ↔ v.face = w.face
  | number _, w | string _, w | symbol _, w | error _ _, w | builtin _, w => by
    cases w <;> simp [same, face]
  | sexpr cells, w => by
    cases w <;> simp [same, face, sameCells_iff cells]
  | qexpr cells, w => by
    cases w <;> simp [same, face, sameCells_iff cells]
  | lambda _ body _ _, w => by
    cases w <;> simp [same, face, sameCells_iff body]

theorem sameCells_iff : ∀ vs ws : List Value, sameCells vs ws = true ↔ faces vs = faces ws
  | [], ws => by
    cases ws <;> simp [sameCells, faces]
  | v :: vs, ws => by
    cases ws <;> simp [sameCells, faces, same_iff v, sameCells_iff vs]

end

/-- **Sameness is an equivalence.** -/
theorem same_equivalence : Equivalence fun v w : Value => v.same w = true where
  refl := same_self
  symm h := (same_iff _ _).mpr ((same_iff _ _).mp h).symm
  trans h h' := (same_iff _ _).mpr (((same_iff _ _).mp h).trans ((same_iff _ _).mp h'))

/-! ## 2. Cell by cell -/

/-- Lists of values are the same when they are equally long and the same at every place. -/
theorem sameCells_iff_getElem {vs ws : List Value} :
    sameCells vs ws = true ↔ vs.length = ws.length ∧
      ∀ i (hv : i < vs.length) (hw : i < ws.length), vs[i].same ws[i] = true := by
  have hcells : sameCells vs ws = true ↔ List.Forall₂ (fun v w => v.same w = true) vs ws := by
    induction vs generalizing ws with
    | nil => cases ws <;> simp [sameCells]
    | cons v vs ih => cases ws <;> simp [sameCells, ih]
  rw [hcells, List.forall₂_iff_get]
  rfl

/-! ## 3. What can be seen of a value -/

theorem label_face (v : Value) : v.face.label = v.label := by
  cases v <;> rfl

theorem shape_face (v : Value) : v.face.shape = v.shape := by
  cases v <;> rfl

mutual

/-- **Printing shows the face.** -/
theorem chars_face : ∀ v : Value, v.face.chars = v.chars
  | number _ | string _ | symbol _ | error _ _ | builtin _ => rfl
  | sexpr cells => by
    rw [face, chars_sexpr, chars_sexpr, cellsChars_faces]
  | qexpr cells => by
    rw [face, chars_qexpr, chars_qexpr, cellsChars_faces]
  | lambda _ body _ _ => by
    rw [face, chars_lambda, chars_lambda, cellsChars_faces]

theorem cellsChars_faces : ∀ vs : List Value, cellsChars (faces vs) = cellsChars vs
  | [] => rfl
  | [v] => by
    rw [faces, faces, cellsChars, cellsChars, chars_face v]
  | v :: w :: rest => by
    have hrest : cellsChars (w.face :: faces rest) = cellsChars (w :: rest) :=
      cellsChars_faces (w :: rest)
    rw [faces, faces, cellsChars, cellsChars, chars_face v, hrest]

end

/-! ## 4. The theorem -/

/-- **Sameness is an equivalence and respects printing.**

1. Every value is the same as itself, sameness goes both ways, and it can be chained.
2. The operators that compare any two values answer whether they are the same, and whether they are
   not.
3. Values of different variants are never the same.  Here functions that programs make and builtins
   are two variants.
4. Two round lists, or two quoted ones, are the same exactly when they are equally long and the same
   cell by cell.
5. Errors are the same exactly when their messages are equal, and functions when their parameters
   are equal and their bodies the same cell by cell.
6. Programs are told one variant of values that are the same, and print them alike. -/
theorem sameness_respects_printing :
    (Equivalence fun v w : Value => v.same w = true) ∧
    (∀ v w, Operator.run .eq [v, w] = .ok (.truth (v.same w)) ∧
      Operator.run .ne [v, w] = .ok (.truth (!v.same w))) ∧
    (∀ v w : Value, v.label ≠ w.label → v.same w = false) ∧
    (∀ cells cells' : List Value,
      let alike := cells.length = cells'.length ∧
        ∀ i (h : i < cells.length) (h' : i < cells'.length), cells[i].same cells'[i] = true
      ((sexpr cells).same (sexpr cells') = true ↔ alike) ∧
      ((qexpr cells).same (qexpr cells') = true ↔ alike) ∧
      ∀ f f' own own' scope scope',
        (lambda f cells own scope).same (lambda f' cells' own' scope') = true ↔ f = f' ∧ alike) ∧
    (∀ message message' kind kind',
      (error message kind).same (error message' kind') = true ↔ message = message') ∧
    ∀ v w : Value, v.same w = true → v.shape.name = w.shape.name ∧ v.text = w.text := by
  refine ⟨same_equivalence, fun v w => ⟨?_, ?_⟩, fun v w hne => ?_, fun cells cells' => ?_,
    fun message message' kind kind' => ?_, fun v w h => ?_⟩
  · rw [Operator.run, Operator.compareSame, beq_true]
  · rw [Operator.run, Operator.compareSame, beq_false]
  · rw [Bool.eq_false_iff]
    intro h
    rw [← label_face v, ← label_face w, (same_iff v w).mp h] at hne
    exact hne rfl
  · rw [← sameCells_iff_getElem]
    refine ⟨Iff.rfl, Iff.rfl, fun f f' own own' scope scope' => ?_⟩
    rw [same, Bool.and_eq_true, beq_iff_eq]
  · rw [same, beq_iff_eq]
  · have hface : v.face = w.face := (same_iff v w).mp h
    constructor
    · rw [← shape_face v, ← shape_face w, hface]
    · rw [text, text, ← chars_face v, ← chars_face w, hface]

/-- Two lists that hold a function made in different frames, given different arguments, and one
error of two kinds: they are the same and are printed alike.  The function is never the same as a
builtin, though programs are told that both are functions. -/
theorem sameness_respects_printing_nested :
    let f : Formals := ⟨["x"], none⟩
    let body : List Value := [.error "m" .overflow, .symbol "x"]
    let v : Value := .qexpr [.lambda f body [] (some 1), .error "m" .user]
    let w : Value :=
      .qexpr [.lambda f [.error "m" .user, .symbol "x"] [("y", .number 1)] none, .error "m" .overflow]
    let made : Value := .lambda f body [] none
    let builtin : Value := .builtin (.operator .add)
    v.same w = true ∧ v.shape.name = w.shape.name ∧ v.text = w.text ∧
      made.label ≠ builtin.label ∧ made.shape = builtin.shape ∧ made.same builtin = false := by
  intro f body v w made builtin
  obtain ⟨-, -, hvariant, -, -, hseen⟩ := sameness_respects_printing
  have hsame : v.same w = true := rfl
  have hlabel : made.label ≠ builtin.label := by decide
  obtain ⟨hname, htext⟩ := hseen v w hsame
  exact ⟨hsame, hname, htext, hlabel, rfl, hvariant made builtin hlabel⟩

end CurryLisp.Value

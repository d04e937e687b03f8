/-
# Parts of texts

A text is counted, taken apart and cut like the list of its characters.  The part between two places is
there if the places are in order and neither of them is outside of the text; otherwise there is an
error, and never a shorter part.  The characters of a part are the cells between the same places of the
list of characters, whatever the characters are.

* `Texts.slice_of_le`, `Texts.slice_of_not`: which parts there are;
* `Texts.part_part`: a part of a part;
* `Operator.run_substring_part`: the operator on places in order;
* `evaluate_join_parts`, `evaluate_part_part`, `evaluate_part_of_sums`: programs with several calls.

The main statement is `texts_are_their_letters`.
-/
import CurryLisp.Proofs.Division
import CurryLisp.Proofs.Splitting

namespace CurryLisp

/-! ## 1. Parts -/

namespace Texts

/-- The characters from one place up to another. -/
def part (s : String) (i j : Nat) : String := String.ofList ((s.toList.drop i).take (j - i))

variable {s : String} {func : String} {i j : Nat}

theorem toList_part : (part s i j).toList = (s.toList.drop i).take (j - i) := String.toList_ofList

/-- A part inside the text is as long as the places are apart. -/
theorem length_part (hj : j ≤ s.length) : (part s i j).length = j - i := by
  rw [← String.length_toList] at hj ⊢
  rw [toList_part, List.length_take, List.length_drop]
  omega

theorem le_length_part {b : Nat} (hj : j ≤ s.length) (hb : b ≤ j - i) : b ≤ (part s i j).length := by
  rwa [length_part hj]

/-- **A part of a part** is a part of the text, at the places counted from the first. -/
theorem part_part (s : String) (i : Nat) {j a b : Nat} (hb : b ≤ j - i) :
    part (part s i j) a b = part s (i + a) (i + b) := by
  have hcells : (((s.toList.drop i).take (j - i)).drop a).take (b - a) =
      (s.toList.drop (i + a)).take (i + b - (i + a)) := by
    have hshorter : min (b - a) (j - i - a) = i + b - (i + a) := by omega
    rw [List.drop_take, List.take_take, List.drop_drop, hshorter]
  rw [part, toList_part, hcells, part]

/-- The parts before and after a place are together the text. -/
theorem toList_part_append (s : String) (i : Nat) :
    (part s 0 i).toList ++ (part s i s.length).toList = s.toList := by
  have hall : (s.toList.drop i).take (s.length - i) = s.toList.drop i := by
    refine List.take_of_length_le ?_
    rw [List.length_drop, String.length_toList]
  rw [toList_part, toList_part, hall, List.drop_zero, Nat.sub_zero, List.take_append_drop]

/-- Places in order, inside the text, have a part between them. -/
theorem slice_of_le (hij : i ≤ j) (hj : j ≤ s.length) :
    slice func s i j = .ok (.string (part s i j)) := by
  have hsigns : ¬ ((i : Int) < 0 ∨ (j : Int) < 0) := by omega
  have horder : ¬ (j : Int) < i := by omega
  have hinside : ¬ (s.length : Int) < j := by omega
  rw [slice, if_neg hsigns, if_neg horder, if_neg hinside, part, Int.toNat_natCast, Int.toNat_natCast]

/-- All other places are refused. -/
theorem slice_of_not {i j : Int} (h : ¬ (0 ≤ i ∧ i ≤ j ∧ j ≤ s.length)) :
    ∃ reason, slice func s i j = .error (.outOfRange func reason) := by
  unfold slice
  split
  · exact ⟨_, rfl⟩
  · split
    · exact ⟨_, rfl⟩
    · rw [if_pos (by omega)]
      exact ⟨_, rfl⟩

end Texts

/-! ## 2. Operators -/

namespace Value

/-- There are as many cells as there are characters. -/
theorem length_letters (s : String) : (s.toList.map letter).length = s.length := by
  rw [List.length_map, String.length_toList]

/-- The characters of a part are the cells from its first place on. -/
theorem letters_part_getElem? (s : String) (i : Nat) {j k : Nat} (hk : k < j - i) :
    ((Texts.part s i j).toList.map letter)[k]? = (s.toList.map letter)[i + k]? := by
  rw [Texts.toList_part, List.getElem?_map, List.getElem?_take_of_lt hk, List.getElem?_drop,
    List.getElem?_map]

end Value

namespace Operator

open Texts (part)

/-- A part is cut out. -/
theorem run_substring_part {s : String} {i j : Nat} (hij : i ≤ j) (hj : j ≤ s.length) :
    substring.run [.string s, .number i, .number j] = .ok (.string (part s i j)) :=
  Texts.slice_of_le hij hj

/-- The sum of two places of a text is a number. -/
theorem run_add_places {s : String} (hs : fits s.length = true) {i a : Nat}
    (h : i + a ≤ s.length) : add.run [.number i, .number a] = .ok (.number (i + a : Nat)) := by
  have hfits : fits ((i : Int) + a) = true := by
    rw [fits_iff] at hs ⊢
    simp only [minNumber, maxNumber] at hs ⊢
    omega
  exact Operation.run_two_of_fits .add (fun h => by cases h.1) hfits

/-- The lists of characters before and after a place join to the list of all characters. -/
theorem run_join_parts (s : String) (i : Nat) :
    join.run [.qexpr ((part s 0 i).toList.map Value.letter),
      .qexpr ((part s i s.length).toList.map Value.letter)] =
        .ok (.qexpr (s.toList.map Value.letter)) := by
  have hall := Texts.toList_part_append s i
  have hrun := run_join [(part s 0 i).toList.map Value.letter,
    (part s i s.length).toList.map Value.letter]
  rwa [List.flatten_cons, List.flatten_cons, List.flatten_nil, List.append_nil, ← List.map_append,
    hall] at hrun

end Operator

/-! ## 3. Programs -/

section Programs

variable {host : Host} {depth : Nat} {e : FrameId} {m : Machine} {s : String} {x y z : Value}

/-- A part is cut out by a call. -/
theorem evaluate_substring {i j : Nat}
    (hcut : m.store.get? e "str-sub" = some (.builtin (.operator .substring)))
    (hx : evaluate host (depth + 1) x e m = .ok (.string s) m)
    (hy : evaluate host (depth + 1) y e m = .ok (.number i) m)
    (hz : evaluate host (depth + 1) z e m = .ok (.number j) m) (hij : i ≤ j) (hj : j ≤ s.length) :
    evaluate host (depth + 2) (.sexpr [.symbol "str-sub", x, y, z]) e m =
      .ok (.string (Texts.part s i j)) m :=
  evaluate_operator .substring hcut (.cons hx (.cons hy (.cons hz .nil))) (List.cons_ne_nil _ _)
    (by simp [Value.isError]) nofun rfl (Operator.run_substring_part hij hj)

/-- The characters of a text are listed by a call. -/
theorem evaluate_chars (hchars : m.store.get? e "chars" = some (.builtin (.operator .chars)))
    (hx : evaluate host (depth + 1) x e m = .ok (.string s) m) :
    evaluate host (depth + 2) (.sexpr [.symbol "chars", x]) e m =
      .ok (.qexpr (s.toList.map Value.letter)) m :=
  evaluate_operator .chars hchars (.cons hx .nil) (List.cons_ne_nil _ _) (by simp [Value.isError])
    nofun rfl (Operator.run_chars s)

/-- The characters before and after a place are joined by a program. -/
theorem evaluate_join_parts (hjoin : m.store.get? e "join" = some (.builtin (.operator .join)))
    (hchars : m.store.get? e "chars" = some (.builtin (.operator .chars)))
    (hcut : m.store.get? e "str-sub" = some (.builtin (.operator .substring))) {i : Nat}
    (hi : i ≤ s.length) :
    let cells (j k : Nat) : Value :=
      .sexpr [.symbol "chars", .sexpr [.symbol "str-sub", .string s, .number j, .number k]]
    evaluate host (depth + 4) (.sexpr [.symbol "join", cells 0 i, cells i s.length]) e m =
      .ok (.qexpr (s.toList.map Value.letter)) m := by
  intro cells
  have hcells (j k : Nat) (hjk : j ≤ k) (hk : k ≤ s.length) :
      evaluate host (depth + 3) (cells j k) e m =
        .ok (.qexpr ((Texts.part s j k).toList.map Value.letter)) m :=
    evaluate_chars hchars (evaluate_substring hcut (evaluate_string host m e depth s)
      (evaluate_number host m e depth j) (evaluate_number host m e depth k) hjk hk)
  have hfront := hcells 0 i (Nat.zero_le i) hi
  have hback := hcells i s.length hi (Nat.le_refl _)
  exact evaluate_operator .join hjoin (.cons hfront (.cons hback .nil)) (List.cons_ne_nil _ _)
    (by simp [Value.isError]) nofun rfl (Operator.run_join_parts s i)

/-- A part of a part is cut out by a program. -/
theorem evaluate_part_part (hcut : m.store.get? e "str-sub" = some (.builtin (.operator .substring)))
    {i j a b : Nat} (hij : i ≤ j) (hj : j ≤ s.length) (hab : a ≤ b) (hb : b ≤ j - i) :
    evaluate host (depth + 3) (.sexpr [.symbol "str-sub",
        .sexpr [.symbol "str-sub", .string s, .number i, .number j], .number a, .number b]) e m =
      .ok (.string (Texts.part s (i + a) (i + b))) m := by
  have hnumber := evaluate_number host m e
  rw [← Texts.part_part s i hb]
  exact evaluate_substring hcut
    (evaluate_substring hcut (evaluate_string host m e depth s) (hnumber depth i) (hnumber depth j)
      hij hj)
    (hnumber (depth + 1) a) (hnumber (depth + 1) b) hab (Texts.le_length_part hj hb)

/-- A part between two sums is cut out by a program. -/
theorem evaluate_part_of_sums (hs : fits s.length = true)
    (hcut : m.store.get? e "str-sub" = some (.builtin (.operator .substring)))
    (hadd : m.store.get? e "+" = some (.builtin (.operator .add))) {i a b : Nat} (hab : a ≤ b)
    (hb : i + b ≤ s.length) :
    evaluate host (depth + 3) (.sexpr [.symbol "str-sub", .string s,
        .sexpr [.symbol "+", .number i, .number a], .sexpr [.symbol "+", .number i, .number b]]) e m =
      .ok (.string (Texts.part s (i + a) (i + b))) m := by
  have hsum (c : Nat) (hc : i + c ≤ s.length) :
      evaluate host (depth + 2) (.sexpr [.symbol "+", .number i, .number c]) e m =
        .ok (.number (i + c : Nat)) m :=
    evaluate_two .add hadd (evaluate_number host m e depth i) (evaluate_number host m e depth c)
      (Operator.run_add_places hs hc)
  exact evaluate_substring hcut (evaluate_string host m e (depth + 1) s) (hsum a (by omega))
    (hsum b hb) (by omega) hb

end Programs

/-! ## 4. The theorem -/

/-- **Texts are counted, joined and cut like their lists of characters.**  Take a text that is not
longer than the largest number.

1. The list of its characters has, one after the other, a text of each of them, and the length of the
   text is the length of this list.
2. There is a part between two places just when they are in order and inside the text.  Its characters
   are the cells between these places of the list of characters.
3. Between all other places there is no part: they are out of range.
4. The characters of the parts before and after a place join to the characters of the text.
5. A part of a part is the part between the sums of the places.
6. So in an environment in which the names stand for the operators,
   `(join (chars (str-sub s 0 i)) (chars (str-sub s i n)))` and `(chars s)` evaluate to the same list, and
   `(str-sub (str-sub s i j) a b)` and `(str-sub s (+ i a) (+ i b))` to the same text. -/
theorem texts_are_their_letters (s : String) (hs : fits s.length = true) :
    ∃ letters : List Value, Operator.chars.run [.string s] = .ok (.qexpr letters) ∧
      (∀ k : Nat, letters[k]? = s.toList[k]?.map fun c => .string (String.singleton c)) ∧
      letters.length = s.length ∧
      Operator.len.run [.string s] = .ok (.number s.length) ∧
      Operator.len.run [.qexpr letters] = .ok (.number s.length) ∧
      (∀ i j : Int, 0 ≤ i ∧ i ≤ j ∧ j ≤ s.length → ∃ t cells,
        Operator.substring.run [.string s, .number i, .number j] = .ok (.string t) ∧
        Operator.chars.run [.string t] = .ok (.qexpr cells) ∧ (cells.length : Int) = j - i ∧
        ∀ k < cells.length, cells[k]? = letters[i.toNat + k]?) ∧
      (∀ i j : Int, ¬ (0 ≤ i ∧ i ≤ j ∧ j ≤ s.length) → ∃ reason,
        Operator.substring.run [.string s, .number i, .number j] =
          .error (.outOfRange "str-sub" reason)) ∧
      (∀ i : Nat, i ≤ s.length → ∃ front back before after,
        Operator.substring.run [.string s, .number 0, .number i] = .ok (.string front) ∧
        Operator.substring.run [.string s, .number i, .number s.length] = .ok (.string back) ∧
        Operator.chars.run [.string front] = .ok before ∧
        Operator.chars.run [.string back] = .ok after ∧
        Operator.join.run [before, after] = .ok (.qexpr letters)) ∧
      (∀ i j a b : Nat, i ≤ j → j ≤ s.length → a ≤ b → b ≤ j - i → ∃ t u first last,
        Operator.substring.run [.string s, .number i, .number j] = .ok (.string t) ∧
        Operator.substring.run [.string t, .number a, .number b] = .ok u ∧
        Operator.add.run [.number i, .number a] = .ok first ∧
        Operator.add.run [.number i, .number b] = .ok last ∧
        Operator.substring.run [.string s, first, last] = .ok u) ∧
      ∀ (host : Host) (depth : Nat) (e : FrameId) (m : Machine),
        (∀ o ∈ [Operator.join, .chars, .substring, .add],
          m.store.get? e o.name = some (.builtin (.operator o))) →
        let part (x y z : Value) : Value := .sexpr [.symbol "str-sub", x, y, z]
        let cells (x : Value) : Value := .sexpr [.symbol "chars", x]
        let plus (x y : Value) : Value := .sexpr [.symbol "+", x, y]
        evaluate host (depth + 2) (cells (.string s)) e m = .ok (.qexpr letters) m ∧
        (∀ i : Nat, i ≤ s.length →
          evaluate host (depth + 4) (.sexpr [.symbol "join",
            cells (part (.string s) (.number 0) (.number i)),
            cells (part (.string s) (.number i) (.number s.length))]) e m = .ok (.qexpr letters) m) ∧
        ∀ i j a b : Nat, i ≤ j → j ≤ s.length → a ≤ b → b ≤ j - i → ∃ u,
          evaluate host (depth + 3)
            (part (part (.string s) (.number i) (.number j)) (.number a) (.number b)) e m =
              .ok (.string u) m ∧
          evaluate host (depth + 3)
            (part (.string s) (plus (.number i) (.number a)) (plus (.number i) (.number b))) e m =
              .ok (.string u) m := by
  have hcount := Value.length_letters s
  refine ⟨s.toList.map Value.letter, Operator.run_chars s, fun _ => List.getElem?_map, hcount, rfl, ?_,
    fun i j hij => ?_, fun i j => Texts.slice_of_not, fun i hi => ?_,
    fun i j a b hij hj hab hb => ?_, fun host depth e m hbound => ?_⟩
  · rw [← hcount]
    rfl
  · obtain ⟨i, rfl⟩ := Int.eq_ofNat_of_zero_le hij.1
    obtain ⟨j, rfl⟩ := Int.eq_ofNat_of_zero_le (Int.le_trans hij.1 hij.2.1)
    have hj : j ≤ s.length := Int.ofNat_le.mp hij.2.2
    refine ⟨_, _, Operator.run_substring_part (Int.ofNat_le.mp hij.2.1) hj,
      Operator.run_chars _, ?_, fun k hk => ?_⟩
    · rw [Value.length_letters, Texts.length_part hj]
      omega
    · rw [Value.length_letters, Texts.length_part hj] at hk
      exact Value.letters_part_getElem? s i hk
  · exact ⟨_, _, _, _, Operator.run_substring_part (Nat.zero_le i) hi,
      Operator.run_substring_part hi (Nat.le_refl _), Operator.run_chars _, Operator.run_chars _,
      Operator.run_join_parts s i⟩
  · refine ⟨_, _, _, _, Operator.run_substring_part hij hj,
      Operator.run_substring_part hab (Texts.le_length_part hj hb),
      Operator.run_add_places hs (by omega), Operator.run_add_places hs (by omega), ?_⟩
    rw [Texts.part_part s i hb]
    exact Operator.run_substring_part (by omega) (by omega)
  · intro part cells plus
    have hchars := hbound .chars (by decide)
    have hcut := hbound .substring (by decide)
    refine ⟨evaluate_chars hchars (evaluate_string host m e depth s),
      fun i hi => evaluate_join_parts (hbound .join (by decide)) hchars hcut hi,
      fun i j a b hij hj hab hb => ?_⟩
    exact ⟨_, evaluate_part_part hcut hij hj hab hb,
      evaluate_part_of_sums hs hcut (hbound .add (by decide)) hab (by omega)⟩

/-- A text with characters outside of ASCII: its second character, its characters cut before it and
joined, a part of its end, places in the wrong order, and a place past the end. -/
theorem texts_are_their_letters_wide :
    let s := "aé𝄞"
    fits s.length = true ∧
      Operator.len.run [.string s] = .ok (.number 3) ∧
      (∃ letters front back before after,
        Operator.chars.run [.string s] = .ok (.qexpr letters) ∧
        letters[1]? = some (.string "é") ∧ letters[3]? = none ∧
        Operator.substring.run [.string s, .number 0, .number 1] = .ok (.string front) ∧
        Operator.substring.run [.string s, .number 1, .number 3] = .ok (.string back) ∧
        Operator.chars.run [.string front] = .ok before ∧
        Operator.chars.run [.string back] = .ok after ∧
        Operator.join.run [before, after] = .ok (.qexpr letters)) ∧
      (∃ t u, Operator.substring.run [.string s, .number 1, .number 3] = .ok (.string t) ∧
        Operator.substring.run [.string t, .number 1, .number 2] = .ok u ∧
        Operator.substring.run [.string s, .number 2, .number 3] = .ok u) ∧
      (∃ reason, Operator.substring.run [.string s, .number 2, .number 1] =
        .error (.outOfRange "str-sub" reason)) ∧
      ∃ reason, Operator.substring.run [.string s, .number 0, .number 4] =
        .error (.outOfRange "str-sub" reason) := by
  intro s
  have hs : fits s.length = true := by decide
  obtain ⟨letters, hchars, hletters, -, hlen, -, -, hrefused, hjoined, hparts, -⟩ :=
    texts_are_their_letters s hs
  have hlength : s.length = 3 := by decide
  have hcells : s.toList = ['a', 'é', '𝄞'] := by decide
  have hsecond : String.singleton 'é' = "é" := by decide
  rw [hcells] at hletters
  obtain ⟨front, back, before, after, hfront, hback, hbefore, hafter, hjoin⟩ :=
    hjoined 1 (by decide)
  obtain ⟨t, u, first, last, ht, hu, hfirst, hlast, hsame⟩ :=
    hparts 1 3 1 2 (by decide) (by decide) (by decide) (by decide)
  cases hfirst
  cases hlast
  rw [hlength] at hlen hrefused hback
  exact ⟨hs, hlen,
    ⟨letters, front, back, before, after, hchars, (hletters 1).trans (by simp [hsecond]),
      hletters 3, hfront, hback, hbefore, hafter, hjoin⟩,
    ⟨t, u, ht, hu, hsame⟩, hrefused 2 1 (by decide), hrefused 0 4 (by decide)⟩

end CurryLisp

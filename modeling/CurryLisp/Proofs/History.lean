/-
# Environments and their history

Environments are made, copied and written to in any order.  What they hold afterwards can be told
from the history alone, and here it is told without any store: a `Ledger` keeps, for each frame, the
frames around it and everything that was ever written in it.  Nothing in a ledger is overwritten and
nothing in it is searched when something is written.

* `entries`: what a frame that was written to shows, each name once, in the order in which the names
  were first written, with the value that was written last;
* `Ledger.Nearest`: the frame in which a name is found, seen from an environment;
* `Store.AccountedBy`: a store and a ledger agree, and each step of a history keeps it.

The main statement is `environments_follow_history`.
-/
import CurryLisp.Proofs.Chains
import CurryLisp.Proofs.Session
import Mathlib.Data.List.Induction

namespace CurryLisp

/-! ## 1. What was written -/

/-- The value that was written last under a name. -/
def lastWritten? (written : List (String × Value)) (x : String) : Option Value :=
  written.reverse.lookup x

/-- The names that were written, each once, in the order in which they were first written. -/
def namesWritten (written : List (String × Value)) : List String :=
  (written.map Prod.fst).eraseDups

/-- What is shown of everything that was written. -/
def entries (written : List (String × Value)) : Bindings :=
  (namesWritten written).map fun x => (x, (lastWritten? written x).getD .unit)

section Written

variable (written : List (String × Value)) (x : String) (v : Value)

theorem mem_namesWritten {written : List (String × Value)} {x : String} :
    x ∈ namesWritten written ↔ x ∈ written.map Prod.fst :=
  List.mem_eraseDups

theorem namesWritten_concat :
    namesWritten (written ++ [(x, v)]) =
      if x ∈ namesWritten written then namesWritten written else namesWritten written ++ [x] := by
  have hsplit : namesWritten (written ++ [(x, v)]) =
      namesWritten written ++ ([x].removeAll (written.map Prod.fst)).eraseDups := by
    rw [namesWritten, List.map_append, List.map_singleton, List.eraseDups_append, namesWritten]
  rw [hsplit]
  by_cases hx : x ∈ written.map Prod.fst
  · rw [if_pos (mem_namesWritten.mpr hx)]
    simp [List.removeAll, hx]
  · rw [if_neg fun h => hx (mem_namesWritten.mp h)]
    simp [List.removeAll, hx, List.eraseDups_cons]

theorem nodup_namesWritten : (namesWritten written).Nodup := by
  induction written using List.reverseRecOn with
  | nil => exact List.nodup_nil
  | append_singleton written p ih =>
    obtain ⟨x, v⟩ := p
    rw [namesWritten_concat]
    split
    · exact ih
    · next hx =>
      refine List.nodup_append.mpr ⟨ih, by simp, fun y hy z hz => ?_⟩
      rw [List.mem_singleton.mp hz]
      rintro rfl
      exact hx hy

theorem lastWritten?_concat (y : String) :
    lastWritten? (written ++ [(x, v)]) y = if y = x then some v else lastWritten? written y := by
  rw [lastWritten?, List.reverse_append, List.reverse_singleton, List.singleton_append,
    List.lookup_cons]
  by_cases hy : y = x
  · simp [hy]
  · have hyx : (y == x) = false := by simpa using hy
    simp [hy, hyx, lastWritten?]

theorem lastWritten?_isSome {written : List (String × Value)} {x : String} :
    (lastWritten? written x).isSome ↔ x ∈ namesWritten written := by
  rw [mem_namesWritten, lastWritten?, List.lookup_isSome_iff]
  simp [List.mem_map]

/-- Binding a name among names that are all different. -/
theorem put_map_of_nodup {names : List String} (h : names.Nodup) (g : String → Value) :
    Bindings.put x v (names.map fun y => (y, g y)) =
      (if x ∈ names then names else names ++ [x]).map fun y => (y, if y = x then v else g y) := by
  induction names with
  | nil => simp [Bindings.put]
  | cons y names ih =>
    obtain ⟨hy, hnames⟩ := List.nodup_cons.mp h
    rw [List.map_cons, Bindings.put]
    by_cases hyx : y = x
    · subst hyx
      have hothers : names.map (fun z => (z, if z = y then v else g z)) =
          names.map fun z => (z, g z) :=
        List.map_congr_left fun z hz => by
          have hzy : ¬ z = y := fun e => hy (e ▸ hz)
          rw [if_neg hzy]
      simp [hothers]
    · have hxy : ¬ x = y := fun e => hyx e.symm
      rw [if_neg hyx, ih hnames]
      by_cases hx : x ∈ names
      · simp [hx, hyx]
      · simp [hx, hyx, hxy]

theorem entries_concat : entries (written ++ [(x, v)]) = (entries written).put x v := by
  rw [entries, entries, put_map_of_nodup x v (nodup_namesWritten written), namesWritten_concat]
  refine List.map_congr_left fun y _ => ?_
  rw [lastWritten?_concat]
  split <;> rfl

/-- **What is written later is bound on top** of what was written before. -/
theorem entries_append (more : List (String × Value)) :
    entries (written ++ more) = (entries written).putAll more := by
  induction more generalizing written with
  | nil => rw [List.append_nil, Bindings.putAll_nil]
  | cons p more ih =>
    obtain ⟨x, v⟩ := p
    rw [Bindings.putAll_cons, ← entries_concat, ← ih, List.append_assoc, List.singleton_append]

/-- A name is bound to what was written last. -/
theorem lookup_entries : (entries written).lookup x = lastWritten? written x := by
  induction written using List.reverseRecOn with
  | nil => rfl
  | append_singleton written p ih =>
    obtain ⟨y, w⟩ := p
    rw [entries_concat, lastWritten?_concat]
    by_cases hx : x = y
    · rw [if_pos hx, hx, Bindings.lookup_put_self]
    · rw [if_neg hx, Bindings.lookup_put_ne _ _ hx, ih]

/-- The names that are shown are the names that were written. -/
theorem names_entries : (entries written).names = namesWritten written := by
  rw [entries, Bindings.names, List.map_map]
  exact List.map_id _

end Written

/-! ## 2. Histories -/

/-- Something that is done to numbered environments. -/
inductive EnvStep
  /-- an environment is made, in another one or in none -/
  | new (parent : Option FrameId)
  /-- an environment is copied -/
  | copy (e : FrameId)
  /-- a name is bound -/
  | put (e : FrameId) (x : String) (v : Value)
  /-- a name is bound in the root -/
  | define (e : FrameId) (x : String) (v : Value)
  /-- names are bound one after the other -/
  | update (e : FrameId) (more : List (String × Value))
  /-- the builtins of a library are bound to their names -/
  | register (e : FrameId) (library : List Builtin)

/-- A step in a store. -/
def Store.step (s : Store) : EnvStep → Store
  | .new parent => s.alloc [] parent
  | .copy e => s.copy e
  | .put e x v => s.put e x v
  | .define e x v => s.put (s.root e) x v
  | .update e more => s.putAll e more
  | .register e library => s.putAll e (libraryBindings library)

/-- Steps in a store. -/
def Store.steps (s : Store) (history : List EnvStep) : Store := history.foldl Store.step s

/-- What is known of a frame: the frames around it, outwards, and everything that was written in it,
in order. -/
structure Account where
  around : List FrameId := []
  written : List (String × Value) := []

/-- An account of each frame, in the order in which the frames were made. -/
abbrev Ledger := List Account

namespace Ledger

/-- The account of a frame.  Of a frame that was not made nothing is known. -/
def account (l : Ledger) (e : FrameId) : Account := (l[e]?).getD {}

/-- A frame and the frames around it. -/
def outwards (l : Ledger) (e : FrameId) : List FrameId := e :: (l.account e).around

/-- The frames around a frame that is made in another one or in none. -/
def inside (l : Ledger) : Option FrameId → List FrameId
  | none => []
  | some p => l.outwards p

/-- The last frame outwards. -/
def outermost (l : Ledger) (e : FrameId) : FrameId := (l.outwards e).getLastD e

/-- Something is written in a frame. -/
def write (l : Ledger) (e : FrameId) (more : List (String × Value)) : Ledger :=
  l.modify e fun a => { a with written := a.written ++ more }

/-- A step in a ledger. -/
def step (l : Ledger) : EnvStep → Ledger
  | .new parent => l ++ [{ around := l.inside (parent.filter (· < l.length)) }]
  | .copy e => l ++ [l.account e]
  | .put e x v => l.write e [(x, v)]
  | .define e x v => l.write (l.outermost e) [(x, v)]
  | .update e more => l.write e more
  | .register e library => l.write e (libraryBindings library)

/-- Steps in a ledger. -/
def steps (l : Ledger) (history : List EnvStep) : Ledger := history.foldl step l

/-- What a step writes in a frame. -/
def writes (l : Ledger) (i : FrameId) : EnvStep → List (String × Value)
  | .new _ | .copy _ => []
  | .put e x v => if i = e then [(x, v)] else []
  | .define e x v => if i = l.outermost e then [(x, v)] else []
  | .update e more => if i = e then more else []
  | .register e library => if i = e then libraryBindings library else []

/-- What steps write in a frame. -/
def allWrites (i : FrameId) : Ledger → List EnvStep → List (String × Value)
  | _, [] => []
  | l, st :: later => l.writes i st ++ allWrites i (l.step st) later

/-- Seen from an environment, the nearest frame with a name is a given one: the name was written in
it, and in none of the frames before it. -/
def Nearest (l : Ledger) (e : FrameId) (x : String) (i : FrameId) : Prop :=
  ∃ nearer further, l.outwards e = nearer ++ i :: further ∧
    x ∈ namesWritten (l.account i).written ∧
    ∀ j ∈ nearer, x ∉ namesWritten (l.account j).written

variable (l : Ledger)

theorem account_concat (a : Account) (i : FrameId) :
    (l ++ [a] : Ledger).account i = if i = l.length then a else l.account i := by
  rcases Nat.lt_trichotomy i l.length with hlt | rfl | hgt
  · rw [if_neg (Nat.ne_of_lt hlt), account, account, List.getElem?_append_left hlt]
  · rw [if_pos rfl, account, List.getElem?_concat_length]
    rfl
  · have hlen : (l ++ [a]).length ≤ i := by
      rw [List.length_append]
      exact hgt
    rw [if_neg (Nat.ne_of_gt hgt), account, account, List.getElem?_eq_none hlen,
      List.getElem?_eq_none (Nat.le_of_lt hgt)]

theorem account_write (e : FrameId) (more : List (String × Value)) (i : FrameId) :
    (l.write e more).account i =
      if i = e ∧ i < l.length then
        { l.account i with written := (l.account i).written ++ more }
      else l.account i := by
  rw [account, account, write, List.getElem?_modify]
  rcases Nat.lt_or_ge i l.length with hlt | hge
  · rw [List.getElem?_eq_getElem hlt]
    by_cases hie : i = e
    · subst hie
      simp [hlt]
    · have hei : ¬ e = i := fun h => hie h.symm
      simp [hie, hei]
  · rw [List.getElem?_eq_none hge, if_neg fun h => absurd h.2 (Nat.not_lt_of_le hge)]
    rfl

/-- Writing moves no frame. -/
theorem outwards_write (e : FrameId) (more : List (String × Value)) (i : FrameId) :
    (l.write e more).outwards i = l.outwards i := by
  rw [outwards, outwards, account_write]
  split <;> rfl

@[simp] theorem length_write (e : FrameId) (more : List (String × Value)) :
    (l.write e more).length = l.length :=
  List.length_modify _ _ _

end Ledger

/-! ## 3. Stores are accounted for -/

/-- A store and a ledger agree: on the frames, on what is around each, and on what it binds. -/
structure Store.AccountedBy (s : Store) (l : Ledger) : Prop where
  size : s.size = l.length
  chain : ∀ e, s.chain e = l.outwards e
  bindings : ∀ e, s.bindings e = entries (l.account e).written

namespace Store.AccountedBy

variable {s : Store} {l : Ledger}

theorem empty : Store.empty.AccountedBy [] where
  size := rfl
  chain _ := chain_of_root rfl
  bindings _ := rfl

theorem root_eq (h : s.AccountedBy l) (e : FrameId) : s.root e = l.outermost e := by
  rw [Store.root, h.chain, Ledger.outermost]

theorem putAll (h : s.AccountedBy l) (e : FrameId) (more : List (String × Value)) :
    (s.putAll e more).AccountedBy (l.write e more) where
  size := by rw [Store.putAll, size_update, h.size, Ledger.length_write]
  chain i := by rw [Store.putAll, chain_update, h.chain, Ledger.outwards_write]
  bindings i := by
    rw [bindings_putAll, Ledger.account_write, h.size, h.bindings]
    split
    · exact (entries_append _ more).symm
    · rfl

/-- A frame that is made is accounted for by what it is made with. -/
theorem alloc (h : s.AccountedBy l) (parent : Option FrameId) (a : Account)
    (haround : a.around = l.inside (parent.filter (· < s.size))) :
    (s.alloc (entries a.written) parent).AccountedBy (l ++ [a]) where
  size := by rw [size_alloc, h.size, List.length_append, List.length_singleton]
  chain i := by
    rw [Ledger.outwards, Ledger.account_concat, ← h.size]
    rcases Nat.lt_trichotomy i s.size with hlt | rfl | hgt
    · rw [chain_alloc_of_lt hlt, if_neg (Nat.ne_of_lt hlt), h.chain, Ledger.outwards]
    · rw [if_pos rfl, haround]
      have hself := parent?_alloc_self s (entries a.written) parent
      cases hp : parent.filter (· < s.size) with
      | none => exact chain_of_root (hself.trans hp)
      | some p =>
        have hlt : p < s.size := by simpa using (Option.filter_eq_some_iff.mp hp).2
        rw [chain_of_parent (hself.trans hp), chain_alloc_of_lt hlt, h.chain, Ledger.inside]
    · have hnone : (s.alloc (entries a.written) parent).parent? i = none :=
        parent?_of_size_le (by rw [size_alloc]; exact hgt)
      have hold : s.chain i = [i] := chain_of_root (parent?_of_size_le (Nat.le_of_lt hgt))
      rw [chain_of_root hnone, if_neg (Nat.ne_of_gt hgt), ← hold, h.chain, Ledger.outwards]
  bindings i := by
    rw [bindings_alloc, Ledger.account_concat, ← h.size]
    split
    · rfl
    · exact h.bindings i

/-- The frames around a frame are those of the chain of the frame around it. -/
theorem around_eq (h : s.AccountedBy l) (e : FrameId) :
    (l.account e).around = l.inside (s.parent? e) := by
  have hchain : s.chain e = e :: (l.account e).around := h.chain e
  cases hp : s.parent? e with
  | none =>
    rw [chain_of_root hp] at hchain
    exact (List.cons.inj hchain).2.symm
  | some p =>
    rw [chain_of_parent hp, h.chain p] at hchain
    exact (List.cons.inj hchain).2.symm

/-- **Each step keeps a store and a ledger in agreement.** -/
theorem step (h : s.AccountedBy l) (st : EnvStep) : (s.step st).AccountedBy (l.step st) := by
  cases st with
  | new parent =>
    refine h.alloc parent { around := l.inside (parent.filter (· < l.length)) } ?_
    rw [h.size]
  | copy e =>
    have hcopy := h.alloc (s.parent? e) (l.account e) (by rw [filter_parent?, h.around_eq])
    rw [← h.bindings] at hcopy
    exact hcopy
  | put e x v => exact h.putAll e [(x, v)]
  | define e x v =>
    change (s.putAll (s.root e) [(x, v)]).AccountedBy (l.write (l.outermost e) [(x, v)])
    rw [← h.root_eq]
    exact h.putAll (s.root e) [(x, v)]
  | update e more => exact h.putAll e more
  | register e library => exact h.putAll e (libraryBindings library)

theorem steps (h : s.AccountedBy l) (history : List EnvStep) :
    (s.steps history).AccountedBy (l.steps history) := by
  induction history generalizing s l with
  | nil => exact h
  | cons st later ih => exact ih (h.step st)

/-! ## 4. What is found -/

theorem lookup_isSome (h : s.AccountedBy l) (i : FrameId) (x : String) :
    ((s.bindings i).lookup x).isSome ↔ x ∈ namesWritten (l.account i).written := by
  rw [h.bindings, lookup_entries, lastWritten?_isSome]

/-- **A name is found in the nearest frame** that it was written in. -/
theorem find?_eq_some_iff (h : s.AccountedBy l) {e i : FrameId} {x : String} :
    s.find? e x = some i ↔ l.Nearest e x i := by
  rw [find?, h.chain, List.find?_eq_some_iff_append, h.lookup_isSome]
  constructor
  · rintro ⟨hi, nearer, further, hsplit, hnot⟩
    refine ⟨nearer, further, hsplit, hi, fun j hj hx => ?_⟩
    have hnone := hnot j hj
    rw [(h.lookup_isSome j x).mpr hx] at hnone
    cases hnone
  · rintro ⟨nearer, further, hsplit, hi, hnot⟩
    refine ⟨hi, nearer, further, hsplit, fun j hj => ?_⟩
    have hnone := mt (h.lookup_isSome j x).mp (hnot j hj)
    rw [Bool.eq_false_of_not_eq_true hnone]
    rfl

/-- A name that is found has the value that was written last in the nearest frame. -/
theorem lookup_of_nearest (h : s.AccountedBy l) {e i : FrameId} {x : String} (hi : l.Nearest e x i)
    {m : Machine} (hm : m.store = s) :
    ∃ v, lastWritten? (l.account i).written x = some v ∧ Machine.lookup e x m = .ok v m := by
  have ⟨_, _, _, hx, _⟩ := hi
  obtain ⟨v, hv⟩ := Option.isSome_iff_exists.mp (lastWritten?_isSome.mpr hx)
  refine ⟨v, hv, ?_⟩
  have hget : s.get? e x = some v := by
    rw [get?, h.find?_eq_some_iff.mpr hi, Option.bind_some, h.bindings, lookup_entries, hv]
  rw [Machine.lookup, hm, hget]
  rfl

/-- A name that is not found is not bound. -/
theorem lookup_of_not_nearest (h : s.AccountedBy l) {e : FrameId} {x : String}
    (hx : ¬ ∃ i, l.Nearest e x i) {m : Machine} (hm : m.store = s) :
    Machine.lookup e x m = .ok (Failure.unboundSymbol x).toValue m := by
  have hfind : s.find? e x = none := by
    cases hs : s.find? e x with
    | none => rfl
    | some i => exact absurd ⟨i, h.find?_eq_some_iff.mp hs⟩ hx
  rw [Machine.lookup, hm, get?, hfind]
  rfl

/-- **What is defined** is found unless a nearer frame has the name. -/
theorem find?_define (h : s.AccountedBy l) {e : FrameId} (he : e < s.size) (x : String)
    (v : Value) :
    ((s.step (.define e x v)).bindings (s.root e)).lookup x = some v ∧
    ((s.step (.define e x v)).find? e x = some (s.root e) ↔
      ∀ i ∈ (s.chain e).dropLast, x ∉ namesWritten (l.account i).written) := by
  have hlt : s.root e < s.size := Nat.lt_of_le_of_lt (root_le s e) he
  have hbound : ((s.step (.define e x v)).bindings (s.root e)).lookup x = some v := by
    change ((s.update (s.root e) (Bindings.put x v)).bindings (s.root e)).lookup x = some v
    rw [bindings_update_self hlt, Bindings.lookup_put_self]
  have hroot : (s.step (.define e x v)).root e = s.root e := root_update _ _ _ _
  have hchain : (s.step (.define e x v)).chain e = s.chain e := chain_update _ _ _ _
  refine ⟨hbound, ?_⟩
  rw [← hroot, find?_eq_root_iff (by rw [hroot, hbound]; rfl), hchain]
  refine forall₂_congr fun i hi => ?_
  -- The frames before the root are not written in.
  have hsame : (s.step (.define e x v)).bindings i = s.bindings i :=
    bindings_update_ne s (ne_root_of_mem_dropLast hi) _
  rw [hsame, h.lookup_isSome]

/-! ## 5. What later steps do to a frame -/

theorem bindings_step (h : s.AccountedBy l) (st : EnvStep) {i : FrameId} (hi : i < s.size) :
    (s.step st).bindings i = (s.bindings i).putAll (l.writes i st) := by
  have hput : ∀ e more, (s.putAll e more).bindings i =
      (s.bindings i).putAll (if i = e then more else []) := by
    intro e more
    rw [bindings_putAll]
    by_cases hie : i = e
    · rw [if_pos ⟨hie, hi⟩, if_pos hie]
    · rw [if_neg fun hx => hie hx.1, if_neg hie, Bindings.putAll_nil]
  cases st with
  | new parent => exact bindings_alloc_of_lt hi _ _
  | copy e => exact bindings_alloc_of_lt hi _ _
  | put e x v => exact hput e [(x, v)]
  | define e x v =>
    rw [Ledger.writes, ← h.root_eq]
    exact hput (s.root e) [(x, v)]
  | update e more => exact hput e more
  | register e library => exact hput e (libraryBindings library)

/-- A step makes one frame or none, and moves none. -/
theorem step_frames (s : Store) (st : EnvStep) :
    s.size ≤ (s.step st).size ∧ ∀ i < s.size, (s.step st).parent? i = s.parent? i := by
  have halloc : ∀ b parent, s.size ≤ (s.alloc b parent).size ∧
      ∀ i < s.size, (s.alloc b parent).parent? i = s.parent? i := fun b parent =>
    ⟨by rw [size_alloc]; exact Nat.le_succ _, fun i hi => parent?_alloc_of_lt hi b parent⟩
  have hupdate : ∀ e change, s.size ≤ (s.update e change).size ∧
      ∀ i < s.size, (s.update e change).parent? i = s.parent? i := fun e change =>
    ⟨Nat.le_of_eq (size_update _ _ _).symm, fun i _ => parent?_update _ _ _ _⟩
  cases st with
  | new parent => exact halloc [] parent
  | copy e => exact halloc _ _
  | put | define | update | register => exact hupdate _ _

/-- Later steps move no frame. -/
theorem parent?_steps (s : Store) (later : List EnvStep) {i : FrameId} (hi : i < s.size) :
    (s.steps later).parent? i = s.parent? i := by
  induction later generalizing s with
  | nil => rfl
  | cons st later ih =>
    obtain ⟨hsize, hparent⟩ := step_frames s st
    exact (ih (s.step st) (Nat.lt_of_lt_of_le hi hsize)).trans (hparent i hi)

/-- **A frame changes by what is written in it**, and by nothing else. -/
theorem bindings_steps (h : s.AccountedBy l) (later : List EnvStep) {i : FrameId}
    (hi : i < s.size) :
    (s.steps later).bindings i = (s.bindings i).putAll (l.allWrites i later) := by
  induction later generalizing s l with
  | nil => rfl
  | cons st later ih =>
    have hlater := ih (h.step st) (Nat.lt_of_lt_of_le hi (step_frames s st).1)
    rw [Ledger.allWrites, Bindings.putAll_append, ← h.bindings_step st hi, ← hlater]
    rfl

/-- **A copy and its original go their own ways**, inside the same frame: each has what was bound at
the time of copying and what was written in it since. -/
theorem copy_steps (h : s.AccountedBy l) {e : FrameId} (he : e < s.size) (later : List EnvStep) :
    let t := (s.step (.copy e)).steps later
    let written (i : FrameId) := (l.step (.copy e)).allWrites i later
    t.bindings s.size = (s.bindings e).putAll (written s.size) ∧
    t.bindings e = (s.bindings e).putAll (written e) ∧
    t.parent? s.size = s.parent? e ∧ t.parent? e = s.parent? e := by
  intro t written
  have hsize : (s.step (.copy e)).size = s.size + 1 := size_alloc _ _ _
  have hnew : s.size < (s.step (.copy e)).size := by
    rw [hsize]
    exact Nat.lt_succ_self _
  have hold : e < (s.step (.copy e)).size := Nat.lt_trans he hnew
  have hparent : (s.step (.copy e)).parent? s.size = s.parent? e :=
    (parent?_alloc_self s _ _).trans (filter_parent? s e)
  refine ⟨?_, ?_, (parent?_steps _ later hnew).trans hparent,
    (parent?_steps _ later hold).trans (parent?_alloc_of_lt he _ _)⟩
  · rw [(h.step (.copy e)).bindings_steps later hnew]
    exact congrArg (Bindings.putAll · _) (bindings_alloc_self s _ _)
  · rw [(h.step (.copy e)).bindings_steps later hold]
    exact congrArg (Bindings.putAll · _) (bindings_alloc_of_lt he _ _)

/-! ## 6. How a frame is printed -/

theorem text_eq (h : s.AccountedBy l) (e : FrameId) :
    s.text e = frameText (entries (l.account e).written) ++
      if (l.account e).around = [] then "" else " -> ..." := by
  rw [text, h.bindings, h.around_eq]
  cases s.parent? e <;> rfl

end Store.AccountedBy

/-! ## 7. Environments and their history -/

/-- **Environments are what their history makes of them.**  After any history, with the ledger that
was kept of it:

* looking a name up gives what was written last in the nearest frame that it was written in, and if
  there is none, the error that it is not bound;
* that frame is the one that is found, along the frames around the environment;
* what is then defined is written in the last of these frames, and found from the environment unless
  a nearer frame has the name;
* a copy has what its original has, inside the same frame, and whatever is done later, each of the
  two has in addition what was written in it;
* a step changes a frame by what it writes there, and no other name;
* a frame is printed with every name that was written in it once, in the order in which they were
  written first. -/
theorem environments_follow_history (history : List EnvStep) :
    let s := Store.empty.steps history
    let l := Ledger.steps [] history
    (∀ e x (m : Machine), m.store = s →
      (∀ i, l.Nearest e x i → ∃ v, lastWritten? (l.account i).written x = some v ∧
        Machine.lookup e x m = .ok v m) ∧
      ((¬ ∃ i, l.Nearest e x i) → Machine.lookup e x m = .ok (Failure.unboundSymbol x).toValue m)) ∧
    (∀ e, s.chain e = l.outwards e ∧
      ∀ x, (∀ i, s.find? e x = some i ↔ l.Nearest e x i) ∧
        ((s.find? e x).isSome ↔ ∃ i, l.Nearest e x i)) ∧
    (∀ e x v, e < s.size →
      s.root e = l.outermost e ∧
      ((s.step (.define e x v)).bindings (s.root e)).lookup x = some v ∧
      ((s.step (.define e x v)).find? e x = some (s.root e) ↔
        ∀ i ∈ (s.chain e).dropLast, x ∉ namesWritten (l.account i).written)) ∧
    (∀ e later, e < s.size →
      let t := (s.step (.copy e)).steps later
      let written (i : FrameId) := (l.step (.copy e)).allWrites i later
      t.bindings s.size = (s.bindings e).putAll (written s.size) ∧
      t.bindings e = (s.bindings e).putAll (written e) ∧
      t.parent? s.size = s.parent? e ∧ t.parent? e = s.parent? e) ∧
    (∀ st i, i < s.size →
      (s.step st).bindings i = (s.bindings i).putAll (l.writes i st) ∧
      ∀ x, x ∉ (l.writes i st).map Prod.fst →
        ((s.step st).bindings i).lookup x = (s.bindings i).lookup x) ∧
    ∀ e, s.bindings e = entries (l.account e).written ∧
      (s.bindings e).names = namesWritten (l.account e).written ∧ (s.bindings e).names.Nodup ∧
      s.text e = Store.frameText (s.bindings e) ++
        if (l.account e).around = [] then "" else " -> ..." := by
  intro s l
  have h : s.AccountedBy l := Store.AccountedBy.empty.steps history
  refine ⟨fun e x m hm => ⟨fun i hi => h.lookup_of_nearest hi hm, fun hx =>
      h.lookup_of_not_nearest hx hm⟩,
    fun e => ⟨h.chain e, fun x => ⟨fun i => h.find?_eq_some_iff, ?_⟩⟩,
    fun e x v he => ⟨h.root_eq e, h.find?_define he x v⟩,
    fun e later he => h.copy_steps he later,
    fun st i hi => ⟨h.bindings_step st hi, fun x hx => ?_⟩,
    fun e => ?_⟩
  · rw [Option.isSome_iff_exists]
    exact exists_congr fun i => h.find?_eq_some_iff
  · rw [h.bindings_step st hi, Bindings.lookup_putAll_of_not_mem _ hx]
  · have hnames : (s.bindings e).names = namesWritten (l.account e).written := by
      rw [h.bindings e, names_entries]
    refine ⟨h.bindings e, hnames, hnames ▸ nodup_namesWritten _, ?_⟩
    rw [h.text_eq e, h.bindings e]

/-- A copy has its own value for a name, its original has the one of the root. -/
theorem environments_follow_history_copy :
    let history : List EnvStep :=
      [.new none, .put 0 "x" (.number 1), .new (some 0), .put 1 "y" (.number 2), .copy 1,
        .put 2 "x" (.number 3), .define 2 "x" (.number 4), .put 2 "y" (.number 5)]
    let m : Machine := { store := Store.empty.steps history }
    Machine.lookup 1 "x" m = .ok (.number 4) m ∧ Machine.lookup 2 "x" m = .ok (.number 3) m ∧
    Machine.lookup 1 "z" m = .ok (Failure.unboundSymbol "z").toValue m ∧
    m.store.text 2 = "\x7by: 5, x: 3\x7d -> ..." := by
  intro history m
  obtain ⟨hlookup, -, -, -, -, htext⟩ := environments_follow_history history
  have hroot : (Ledger.steps [] history).Nearest 1 "x" 0 := ⟨[1], [], rfl, by decide, by decide⟩
  have hcopy : (Ledger.steps [] history).Nearest 2 "x" 2 := ⟨[], [0], rfl, by decide, by decide⟩
  have hnone : ¬ ∃ i, (Ledger.steps [] history).Nearest 1 "z" i := by
    rintro ⟨i, nearer, further, hsplit, hi, -⟩
    have hmem : i ∈ [1, 0] := by
      change i ∈ (Ledger.steps [] history).outwards 1
      rw [hsplit]
      simp
    rcases List.mem_cons.mp hmem with rfl | hmem
    · revert hi; decide
    · rw [List.mem_singleton.mp hmem] at hi
      revert hi; decide
  obtain ⟨v, hv, hx⟩ := (hlookup 1 "x" m rfl).1 0 hroot
  obtain ⟨w, hw, hy⟩ := (hlookup 2 "x" m rfl).1 2 hcopy
  cases hv
  cases hw
  refine ⟨hx, hy, (hlookup 1 "z" m rfl).2 hnone, ?_⟩
  obtain ⟨hbindings, -, -, hshown⟩ := htext 2
  rw [hshown, hbindings]
  decide

end CurryLisp

/-
# What is loaded is watched

What a run must not meet in a file can be asked of the files that it loads, and only the run itself
says which these are.  So a host is made to watch: where a file is about to be read whose trees are
not wanted, it stops for want of calls.  A run that loads no such file does not notice, and what is
known of all runs on the host that watches is known of this one.

* `Host.watching`: the host that watches;
* `Machine.LoadsOnly`: only wanted trees have been loaded on the way from one machine to another;
* `evaluate_watching_follows`: evaluation does the same on both hosts, up to a file that is not
  wanted;
* `Coupling.Alike.ends_of_watching`: if the first of two coupled runs loads no such file, neither
  does the second, and they end alike.
-/
import CurryLisp.Proofs.Depth

namespace CurryLisp

/-! ## 1. The host that watches -/

/-- No trees are read but wanted ones. -/
def Walk.Wanted (wanted : List Node → Prop) : Walk → Prop
  | .reading nodes => wanted nodes
  | _ => True

theorem Walk.wanted_of_isFlat {w : Walk} (h : w.isFlat = true) (wanted : List Node → Prop) :
    w.Wanted wanted := by
  cases w with
  | reading => cases h
  | parsing | copying | printing | comparing => trivial

open Classical in
/-- Surroundings in which there are never calls enough to read trees that are not wanted. -/
noncomputable def Host.watching (host : Host) (wanted : List Node → Prop) : Host :=
  { host with
    calls := { host.calls with
      allows := fun depth w => host.calls.allows depth w && decide (w.Wanted wanted)
      allows_mono := fun hd h => by
        obtain ⟨hw, hwanted⟩ := Bool.and_eq_true_iff.mp h
        exact Bool.and_eq_true_iff.mpr ⟨host.calls.allows_mono hd hw, hwanted⟩
      allows_flat := fun h depth => Bool.and_eq_true_iff.mpr
        ⟨host.calls.allows_flat h depth, decide_eq_true (Walk.wanted_of_isFlat h wanted)⟩ } }

/-- Only files with wanted trees have been loaded on the way from one machine to another. -/
def Machine.LoadsOnly (host : Host) (wanted : List Node → Prop) (m m' : Machine) : Prop :=
  ∀ path ∈ m.loadedSince m', ∀ source nodes, host.files.text path = .ok source →
    parse source = .ok nodes → wanted nodes

/-- A file with trees that are not wanted has been loaded. -/
def Cut.loading (host : Host) (wanted : List Node → Prop) : Cut where
  At m m' := ¬ m.LoadsOnly host wanted m'
  earlier hm h hall := h fun path hp => hall path (hm.mem_left hp)
  later h hm hall := h fun path hp => hall path (hm.mem_right hp)

/-! ## 2. Evaluation on the two hosts -/

section Watching

variable {host : Host} {wanted : List Node → Prop}

theorem Host.watching_sameFiles (host : Host) (wanted : List Node → Prop) :
    (host.watching wanted).SameFiles host :=
  .of_setting rfl rfl

theorem evaluate_watching_allows {depth : Nat} {w : Walk} :
    (evaluate (host.watching wanted) depth).allows w = true ↔
      (evaluate host depth).allows w = true ∧ w.Wanted wanted := by
  classical
  rw [evaluate_allows, evaluate_allows]
  exact Bool.and_eq_true_iff.trans (and_congr_right fun _ => decide_eq_true_iff)

/-- Nothing that is not wanted is ever read. -/
theorem Host.wanted_of_allows {nodes : List Node}
    (h : (host.watching wanted).Allows (.reading nodes)) : wanted nodes := by
  obtain ⟨depth, hallows⟩ := h
  rw [← evaluate_allows] at hallows
  exact (evaluate_watching_allows.mp hallows).2

/-- As long as what is read is wanted, the same is gone through. -/
theorem walk_watching {depth : Nat} {walks : List Walk} (h : ∀ w ∈ walks, w.Wanted wanted) :
    (evaluate (host.watching wanted) depth).walk walks = (evaluate host depth).walk walks := by
  have hall : walks.all (evaluate (host.watching wanted) depth).allows =
      walks.all (evaluate host depth).allows := by
    rw [Bool.eq_iff_iff, List.all_eq_true, List.all_eq_true]
    exact forall₂_congr fun w hw => evaluate_watching_allows.trans (and_iff_left (h w hw))
  unfold Evaluator.walk
  rw [hall]

/-- A file that is not wanted has been loaded once loading it has been reported. -/
theorem Cut.loading_note {path : Path} {source : String} {nodes : List Node}
    (htext : host.files.text path = .ok source) (hparse : parse source = .ok nodes)
    (hnot : ¬ wanted nodes) (m : Machine) :
    (Cut.loading host wanted).At m { m with events := m.events.push (.loading path) } := by
  refine fun hall => hnot (hall path ?_ source nodes htext hparse)
  rw [Machine.loadedSince, Machine.loads_note, List.drop_left]
  exact List.mem_singleton_self path

theorem walksFollow_watching (depth : Nat) :
    WalksFollow (host.watching wanted) (.loading host wanted) wanted
      (evaluate (host.watching wanted) depth) (evaluate host depth) where
  walk walks hfine := by
    rw [walk_watching fun w hw => ?_]
    · exact .walk _ walks
    · cases w with
      | reading nodes => exact hfine nodes hw
      | parsing | copying | printing | comparing => trivial
  load {path source nodes} htext hparse := by
    have hself : Follows (.loading host wanted)
        (do Machine.note (.loading path); (evaluate host depth).walk [.reading nodes])
        (do Machine.note (.loading path); (evaluate host depth).walk [.reading nodes]) :=
      (Follows.note _).bind fun _ => .walk _ _
    by_cases hwanted : wanted nodes
    · rwa [walk_watching fun w hw => by rw [List.mem_singleton.mp hw]; exact hwanted]
    · have hstop : (evaluate (host.watching wanted) depth).walk [.reading nodes] =
          Machine.stop .tooDeep :=
        Evaluator.walk_single_of_not
          (Bool.eq_false_iff.mpr fun h => hwanted (evaluate_watching_allows.mp h).2)
      rw [hstop]
      have hcut (m : Machine) := Cut.loading_note htext hparse hwanted m
      have hwalk : Follows (.loading host wanted) ((evaluate host depth).walk [.reading nodes])
        ((evaluate host depth).walk [.reading nodes]) := .walk _ _
      refine ⟨fun m => Or.inr ⟨_, rfl, hcut m, ?_⟩, hself.loaded, fun m f m' h => ?_⟩
      · exact (Cut.loading host wanted).later (hcut m) (hwalk.loaded _)
      · cases h
        exact Or.inl rfl

/-- **Evaluation does the same on the host that watches**, up to a file that is not wanted. -/
theorem evaluate_watching_follows (depth : Nat) :
    EvaluatorFollows (host.watching wanted) (.loading host wanted) wanted
      (evaluate (host.watching wanted) depth) (evaluate host depth) := by
  induction depth with
  | zero => exact ⟨walksFollow_watching 0, fun _ _ => .stop (Or.inl rfl)⟩
  | succ depth ih =>
    exact ⟨walksFollow_watching _, evaluateStep_follows (host.watching_sameFiles wanted) ih⟩

/-! ## 3. Two runs -/

/-- **What is coupled on the host that watches ends alike on the other one,** if the first run loads
nothing that is not wanted. -/
theorem Coupling.Alike.ends_of_watching {α : Type} {A : Coupling} {n : Nat} {x y : EvalM α}
    {Q : Nat → α → Prop} (hx : A.Alike n x Q) (hfollows : Follows (.loading host wanted) x y)
    (hloads : ∀ {m₁ m₂}, A.Rel m₁ m₂ → m₁.loads = m₂.loads) {m₁ m₂ : Machine}
    (hm : A.Rel m₁ m₂) (hn : n ≤ m₁.store.size)
    (honly : m₁.LoadsOnly host wanted (m₁.after y)) :
    A.Ends m₁.store.size Q (y m₁) (y m₂) := by
  have hfirst : y m₁ = x m₁ := by
    rcases hfollows.same m₁ with hsame | ⟨_, -, -, hcut⟩
    · exact hsame
    · exact absurd honly hcut
  have hends := hx m₁ m₂ hm hn
  rcases hfollows.same m₂ with hsame | ⟨m₂', hstop, hcut, -⟩
  · rwa [hfirst, hsame]
  · -- The second run would have been stopped, and then so would the first.
    exfalso
    rw [hstop] at hends
    generalize hrun : x m₁ = r at hends
    cases hends with
    | @error _ m₁' _ hm' _ =>
      rw [Machine.after_eq_of_error (hfirst.trans hrun)] at honly
      refine hcut fun path hp => honly path ?_
      rwa [Machine.loadedSince, hloads hm, hloads hm']

end Watching

end CurryLisp

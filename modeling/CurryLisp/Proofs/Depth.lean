/-
# How deep evaluation may nest

An evaluation may nest to a given depth, and stops where it would have to go deeper, or where it has
to go through something for which there are not calls enough.  Until then nothing in it depends on
the host's calls: with more of them the same happens, and perhaps more.

`Follows cut x y` says of two computations that the second does what the first does, unless the first
stops because it is nested too deeply.  A `Cut` says what is known when it does: nothing if the host
simply has too few calls (`Cut.any`).  Each step of evaluation keeps it:

* `EvaluatorFollows`: what is to be known of two evaluators;
* `Builtin.call_follows`, `evaluateStep_follows`: calling a builtin, and one level of evaluation;
* `evaluate_follows`: **evaluation with more depth follows evaluation with less**;
* `Interpreter.performWith_follows`: and so does a step of a session.

Nothing stops an evaluation but want of calls, the name of a file, or a numeral with too many digits;
that is carried along, since it is seen at the same places.
-/
import CurryLisp.Proofs.Files
import CurryLisp.Proofs.Numerals
import CurryLisp.Proofs.Session

namespace CurryLisp

/-! ## 1. What has been loaded -/

/-- The file whose forms are about to be evaluated. -/
def Event.loaded? : Event → Option Path
  | .loading path => some path
  | _ => none

namespace Machine

/-- The files that have been loaded, in order. -/
def loads (m : Machine) : List Path := m.events.toList.filterMap Event.loaded?

/-- The files that have been loaded on the way from one machine to another. -/
def loadedSince (m m' : Machine) : List Path := m'.loads.drop m.loads.length

/-- A machine has loaded what another one has, and perhaps more. -/
def Loaded (m m' : Machine) : Prop := m.loads <+: m'.loads

theorem loads_note (m : Machine) (e : Event) :
    ({ m with events := m.events.push e } : Machine).loads = m.loads ++ e.loaded?.toList := by
  simp only [loads, Array.toList_push, List.filterMap_append, List.filterMap_cons,
    List.filterMap_nil]
  cases e.loaded? <;> rfl

variable {m m₁ m₂ : Machine}

theorem Loaded.refl (m : Machine) : m.Loaded m := List.prefix_refl _

theorem Loaded.trans (h : m.Loaded m₁) (h' : m₁.Loaded m₂) : m.Loaded m₂ :=
  List.IsPrefix.trans h h'

theorem Loaded.note (m : Machine) (e : Event) :
    m.Loaded { m with events := m.events.push e } := by
  rw [Loaded, loads_note]
  exact List.prefix_append _ _

/-- What has been loaded lately has been loaded. -/
theorem Loaded.mem_left (h : m.Loaded m₁) {path : Path} (hp : path ∈ m₁.loadedSince m₂) :
    path ∈ m.loadedSince m₂ :=
  (List.drop_sublist_drop_left _ h.length_le).subset hp

/-- What has been loaded stays so. -/
theorem Loaded.mem_right (h : m₁.Loaded m₂) {path : Path} (hp : path ∈ m.loadedSince m₁) :
    path ∈ m.loadedSince m₂ := by
  obtain ⟨more, hmore⟩ := h
  rw [Machine.loadedSince, ← hmore, List.drop_append]
  exact List.mem_append_left _ hp

end Machine

/-! ## 2. Computations that give up -/

/-- What is known of the machines that a computation starts with and ends with when it gives up, and
of those of the one that goes on.  It depends on what is loaded on the way only. -/
structure Cut where
  At : Machine → Machine → Prop
  earlier : ∀ {m m₁ m₂ : Machine}, m.Loaded m₁ → At m₁ m₂ → At m m₂
  later : ∀ {m m₁ m₂ : Machine}, At m m₁ → m₁.Loaded m₂ → At m m₂

/-- Nothing is known. -/
def Cut.any : Cut where
  At _ _ := True
  earlier _ _ := trivial
  later _ _ := trivial

/-- No computation gives up. -/
def Cut.never : Cut where
  At _ _ := False
  earlier _ h := h
  later h _ := h

/-- The second computation does what the first does, unless the first gives up because it is nested
too deeply.  Nothing else stops the first but the name of a file or a numeral with too many
digits. -/
structure Follows (cut : Cut) {α : Type} (x y : EvalM α) : Prop where
  same : ∀ m : Machine, y m = x m ∨
    ∃ m', x m = .error .tooDeep m' ∧ cut.At m m' ∧ cut.At m (m.after y)
  loaded : ∀ m : Machine, m.Loaded (m.after y)
  faults : ∀ m f m', x m = .error f m' → f = .tooDeep ∨ f.OfName ∨ f.OfNumeral

namespace Follows

variable {cut : Cut} {α β : Type}

/-- A computation that gives a value follows itself. -/
theorem of_ok {x : EvalM α} (h : ∀ m : Machine, ∃ a m', x m = .ok a m' ∧ m.Loaded m') :
    Follows cut x x where
  same _ := Or.inl rfl
  loaded m := by
    obtain ⟨a, m', hok, hloaded⟩ := h m
    rwa [Machine.after_eq_of_ok hok]
  faults m f m' hx := by
    obtain ⟨a, m₁, hok, -⟩ := h m
    rw [hok] at hx
    cases hx

theorem pure (a : α) : Follows cut (Pure.pure a : EvalM α) (Pure.pure a) :=
  .of_ok fun m => ⟨a, m, rfl, .refl m⟩

theorem lookup (e : FrameId) (x : String) : Follows cut (Machine.lookup e x) (Machine.lookup e x) :=
  .of_ok fun m => ⟨_, m, rfl, .refl m⟩

theorem note (e : Event) : Follows cut (Machine.note e) (Machine.note e) :=
  .of_ok fun m => ⟨(), _, rfl, .note m e⟩

theorem print (line : String) : Follows cut (Machine.print line) (Machine.print line) :=
  .of_ok fun m => ⟨(), _, rfl, .refl m⟩

theorem modifyStore (change : Store → Store) :
    Follows cut (Machine.modifyStore change) (Machine.modifyStore change) :=
  .of_ok fun m => ⟨(), _, rfl, .refl m⟩

theorem allocate (frame : Bindings) (scope : Option FrameId) :
    Follows cut (Machine.allocate frame scope) (Machine.allocate frame scope) :=
  .of_ok fun m => ⟨_, _, rfl, .refl m⟩

theorem stop {f : Fault} (hf : f = .tooDeep ∨ f.OfName ∨ f.OfNumeral) :
    Follows cut (Machine.stop f : EvalM α) (Machine.stop f) where
  same _ := Or.inl rfl
  loaded m := .refl m
  faults m f' m' h := by
    cases h
    exact hf

/-- Whatever is done instead, a computation that is nested too deeply is followed. -/
theorem tooDeep {y : EvalM α} (hy : ∀ m : Machine, m.Loaded (m.after y)) :
    Follows Cut.any (Machine.stop .tooDeep) y where
  same m := Or.inr ⟨m, rfl, trivial, trivial⟩
  loaded := hy
  faults m f m' h := by
    cases h
    exact Or.inl rfl

/-- Computations are joined. -/
theorem bind {x y : EvalM α} {f g : α → EvalM β} (hx : Follows cut x y)
    (hf : ∀ a, Follows cut (f a) (g a)) : Follows cut (x >>= f) (y >>= g) where
  same m := by
    have hnext : m.Loaded (m.after y) ∧ (m.after y).Loaded (m.after (y >>= g)) := by
      refine ⟨hx.loaded m, ?_⟩
      rw [Machine.after_bind]
      split
      · exact (hf _).loaded _
      · exact .refl _
    rcases hx.same m with hm | ⟨m', hm, hcut, hcut'⟩
    · cases h : x m with
      | ok a m₁ =>
        have hy : y m = .ok a m₁ := hm.trans h
        rw [Machine.after_eq_of_ok hy] at hnext
        rw [EvalM.bind_of_ok h, EvalM.bind_of_ok hy]
        rcases (hf a).same m₁ with hsame | ⟨m', hstop, hcut, hcut'⟩
        · exact Or.inl hsame
        · refine Or.inr ⟨m', hstop, cut.earlier hnext.1 hcut, ?_⟩
          rw [Machine.after_bind, Machine.outcome_eq_of_ok hy, Machine.after_eq_of_ok hy]
          exact cut.earlier hnext.1 hcut'
      | error fault m₁ =>
        rw [EvalM.bind_of_error h, EvalM.bind_of_error (hm.trans h)]
        exact Or.inl rfl
    · exact Or.inr ⟨m', EvalM.bind_of_error hm f, hcut, cut.later hcut' hnext.2⟩
  loaded m := by
    refine (hx.loaded m).trans ?_
    rw [Machine.after_bind]
    split
    · exact (hf _).loaded _
    · exact .refl _
  faults m fault m' h := by
    cases hxm : x m with
    | ok a m₁ =>
      rw [EvalM.bind_of_ok hxm] at h
      exact (hf a).faults _ _ _ h
    | error fault' m₁ =>
      rw [EvalM.bind_of_error hxm] at h
      cases h
      exact hx.faults _ _ _ hxm

/-- A computation is run for some values, one after the other. -/
theorem mapM {f g : Value → EvalM β} (h : ∀ v, Follows cut (f v) (g v)) (vs : List Value) :
    Follows cut (vs.mapM f) (vs.mapM g) := by
  induction vs with
  | nil => exact .pure []
  | cons v rest ih =>
    rw [List.mapM_cons, List.mapM_cons]
    exact (h v).bind fun r => ih.bind fun rs => .pure (r :: rs)

theorem orElseFail {r : Except Failure α} {next next' : α → EvalM Value}
    (h : ∀ a, Follows cut (next a) (next' a)) :
    Follows cut (Value.orElseFail r next) (Value.orElseFail r next') := by
  cases r with
  | ok a => exact h a
  | error f => exact .pure _

/-- What follows is the same if the first is not nested too deeply. -/
theorem eq {x y : EvalM α} {m : Machine} (h : Follows cut x y)
    (hx : m.outcome x ≠ .error .tooDeep) : y m = x m := by
  rcases h.same m with hm | ⟨m', hm, -⟩
  · exact hm
  · exact absurd (Machine.outcome_eq_of_error hm) hx

/-- What follows a computation that does not give up is the same. -/
theorem eq_of_never {x y : EvalM α} (h : Follows .never x y) : x = y := by
  funext m
  rcases h.same m with hm | ⟨_, -, hnever, -⟩
  · exact hm.symm
  · exact hnever.elim

/-- Something is gone through, or there are not calls enough. -/
theorem walk (ev : Evaluator) (walks : List Walk) :
    Follows cut (ev.walk walks) (ev.walk walks) := by
  unfold Evaluator.walk
  split
  · exact .pure ()
  · exact .stop (Or.inl rfl)

end Follows

/-! ## 3. Evaluators -/

/-- Two hosts on which the same files are found. -/
structure Host.SameFiles (host host' : Host) : Prop where
  files : host.files = host'.files
  resolve : ∀ name, host.resolve name = host'.resolve name

theorem Host.SameFiles.refl (host : Host) : host.SameFiles host := ⟨rfl, fun _ => rfl⟩

/-- The same files are found in the same tree if they are looked for in the same places. -/
theorem Host.SameFiles.of_setting {host host' : Host} (hfiles : host.files = host'.files)
    (hpath : host.setting? "JLISP_PATH" = host'.setting? "JLISP_PATH") : host.SameFiles host' where
  files := hfiles
  resolve name := by
    have hfirst (p : Path) (dirs : List Path) :
        host.firstHolding p dirs = host'.firstHolding p dirs := by
      induction dirs with
      | nil => rfl
      | cons dir rest ih => simp only [firstHolding, hfiles, ih]
    have hdirs : host.loadPath = host'.loadPath := by
      rw [loadPath, loadPath, pathsFrom, pathsFrom, hpath]
    simp only [Host.resolve, hfiles, hdirs, hfirst]

/-- What one evaluator can go through is followed by what another can.  Trees that are read are `fine`
or come from a file. -/
structure WalksFollow (host : Host) (cut : Cut) (fine : List Node → Prop) (ev ev' : Evaluator) :
    Prop where
  walk : ∀ walks, (∀ nodes, .reading nodes ∈ walks → fine nodes) →
    Follows cut (ev.walk walks) (ev'.walk walks)
  load : ∀ {path source nodes}, host.files.text path = .ok source → parse source = .ok nodes →
    Follows cut (do Machine.note (.loading path); ev.walk [.reading nodes])
      (do Machine.note (.loading path); ev'.walk [.reading nodes])

/-- The computations of one evaluator follow those of another. -/
structure EvaluatorFollows (host : Host) (cut : Cut) (fine : List Node → Prop)
    (ev ev' : Evaluator) : Prop extends WalksFollow host cut fine ev ev' where
  eval : ∀ v e, Follows cut (ev v e) (ev' v e)

/-- With at least as many calls, as much can be gone through. -/
theorem WalksFollow.of_allows {ev ev' : Evaluator}
    (h : ∀ w, ev.allows w = true → ev'.allows w = true) (host : Host) (fine : List Node → Prop) :
    WalksFollow host Cut.any fine ev ev' := by
  have hwalk (walks : List Walk) : Follows Cut.any (ev.walk walks) (ev'.walk walks) := by
    rcases ev.walk_cases walks with ⟨hall, hdone⟩ | hstop
    · rw [hdone, Evaluator.walk_of_allows fun w hw => h w (hall w hw)]
      exact .pure ()
    · have hself : Follows Cut.any (ev'.walk walks) (ev'.walk walks) := .walk ev' walks
      rw [hstop]
      exact .tooDeep hself.loaded
  exact ⟨fun walks _ => hwalk walks, fun _ _ => (Follows.note _).bind fun _ => hwalk _⟩

theorem WalksFollow.refl (host : Host) (cut : Cut) (fine : List Node → Prop) (ev : Evaluator) :
    WalksFollow host cut fine ev ev :=
  ⟨fun walks _ => .walk ev walks, fun _ _ => (Follows.note _).bind fun _ => .walk ev _⟩

/-! ## 4. Calls -/

/-- No trees are read when a function is called. -/
theorem Value.reading_not_mem_walks (head : Value) (args : List Value) (env : FrameId)
    (nodes : List Node) : .reading nodes ∉ head.walks args env := by
  unfold Value.walks
  split
  · unfold callWalks
    split
    · exact List.not_mem_nil
    · simp
    · split <;> simp [-List.map_take]
  · next b =>
    cases b with
    | operator o =>
      change _ ∉ o.walks args
      unfold Operator.walks
      split <;> simp
    | form f =>
      change _ ∉ f.walks env args
      unfold Form.walks
      split <;> first | simp | (split <;> simp)
  · exact List.not_mem_nil

/-- The host does not read the text that an operator is given if it has too many digits. -/
theorem Operator.ofNumeral_of_fault? {o : Operator} {args : List Value} {f : Text.NumeralFault}
    (h : o.fault? args = some f) : (Fault.numeral f).OfNumeral := by
  obtain ⟨s, -, -, hunread⟩ := fault?_eq_some h
  obtain ⟨-, hlong, rfl⟩ := Texts.unread?_eq_some_iff.mp hunread
  exact .text hlong

section Calls

variable {host host' : Host} {cut : Cut} {fine : List Node → Prop} {ev ev' : Evaluator}

/-- The trees of a text are read as values, up to a numeral with too many digits. -/
theorem Form.valuesOf_follows {source : String} {nodes : List Node}
    (hparse : parse source = .ok nodes) : Follows cut (valuesOf nodes) (valuesOf nodes) := by
  cases hforms : Value.ofNodes nodes with
  | ok forms =>
    rw [valuesOf_eq_pure hforms]
    exact .pure forms
  | error f =>
    rw [valuesOf_eq_stop hforms]
    exact .stop (Or.inr (Or.inr (.of_unread? (unread?_of_ofNodes_eq_error hparse hforms))))

theorem applyLambda_follows (hev : EvaluatorFollows host cut fine ev ev') (f : Formals)
    (body : List Value) (own : Bindings) (scope : Option FrameId) (args : List Value) :
    Follows cut (applyLambda ev f body own scope args)
      (applyLambda ev' f body own scope args) := by
  unfold applyLambda
  split
  · exact .pure _
  · exact (Follows.note _).bind fun _ => .pure _
  · exact (Follows.allocate _ _).bind fun e => hev.eval _ e

theorem Form.runPrinting_follows (hev : EvaluatorFollows host cut fine ev ev') (env : FrameId)
    (forms : List Value) :
    Follows cut (runPrinting ev env forms) (runPrinting ev' env forms) := by
  induction forms with
  | nil => exact .pure ()
  | cons v rest ih =>
    refine (hev.eval v env).bind fun r => ?_
    dsimp only
    split
    · exact (Follows.print _).bind fun _ => ih
    · exact ih

theorem Form.loadText_follows (hev : EvaluatorFollows host cut fine ev ev') (env : FrameId)
    (name : String) {path : Path} {source : String} (htext : host.files.text path = .ok source) :
    Follows cut (loadText ev env name path source) (loadText ev' env name path source) := by
  unfold loadText
  refine (hev.walk _ (by simp)).bind fun _ => ?_
  split
  · exact (Follows.note _).bind fun _ => .pure _
  · next nodes hparse =>
    have hforms : Follows cut
        (do Machine.note (.loading path); ev.walk [.reading nodes]; valuesOf nodes)
        (do Machine.note (.loading path); ev'.walk [.reading nodes]; valuesOf nodes) := by
      rw [← bind_assoc, ← bind_assoc]
      exact (hev.load htext hparse).bind fun _ => valuesOf_follows hparse
    have hrun := hforms.bind fun forms =>
      (runPrinting_follows hev env forms).bind fun _ => Follows.pure Value.unit
    simp only [bind_assoc] at hrun
    simpa only [formsOf, bind_assoc] using hrun

theorem Form.loadFile_follows (hsame : host.SameFiles host')
    (hev : EvaluatorFollows host cut fine ev ev') (env : FrameId) (name : String) :
    Follows cut (loadFile host ev env name) (loadFile host' ev' env name) := by
  unfold loadFile
  rw [← hsame.resolve, ← hsame.files]
  split
  · next f path hres =>
    exact .stop (Or.inr (Or.inl (Host.ofName_of_opening (Host.opening_of_resolve_error hres))))
  · split
    · exact .stop (Or.inr (Or.inl .embeddedNull))
    · exact (Follows.note _).bind fun _ => .pure _
    · exact (Follows.note _).bind fun _ => .pure _
    · next htext => exact loadText_follows hev env name htext

theorem Form.readFile_follows (hsame : host.SameFiles host') (name : String) :
    Follows cut (readFile host name) (readFile host' name) := by
  unfold readFile
  rw [← hsame.resolve, ← hsame.files]
  split
  · exact .pure _
  · split
    · exact .stop (Or.inr (Or.inl .embeddedNull))
    · exact .pure _
    · exact .pure _
    · exact .pure _

/-- **Calling a builtin.** -/
theorem Builtin.call_follows (hsame : host.SameFiles host')
    (hev : EvaluatorFollows host cut fine ev ev') (b : Builtin) (env : FrameId)
    (args : List Value) :
    Follows cut (b.call host ev env args) (b.call host' ev' env args) := by
  cases b with
  | operator o =>
    unfold Builtin.call
    dsimp only
    split
    · next f hfault => exact .stop (Or.inr (Or.inr (Operator.ofNumeral_of_fault? hfault)))
    · exact .pure _
  | form f =>
    cases f with
    | eval | branch => exact .orElseFail fun cells => hev.eval (.sexpr cells) env
    | define | assign =>
      exact .orElseFail fun more => (Follows.modifyStore _).bind fun _ => .pure _
    | lambda => exact .orElseFail fun (formals, body) => (Follows.note _).bind fun _ => .pure _
    | function =>
      refine .orElseFail fun (name, formals, body) => ?_
      have hclose : Follows cut (Form.close env formals body) (Form.close env formals body) :=
        (Follows.note _).bind fun _ => .pure _
      exact hclose.bind fun v => (Follows.modifyStore _).bind fun _ => .pure _
    | print => exact (Follows.print _).bind fun _ => .pure _
    | load => exact .orElseFail fun name => Form.loadFile_follows hsame hev env name
    | read => exact .orElseFail fun name => Form.readFile_follows hsame name

end Calls

/-! ## 5. Evaluation -/

section Evaluation

variable {host host' : Host} {cut : Cut} {fine : List Node → Prop} {ev ev' : Evaluator}

theorem apply_follows (hsame : host.SameFiles host') (hev : EvaluatorFollows host cut fine ev ev')
    (head : Value) (args : List Value) (env : FrameId) :
    Follows cut (apply host ev head args env) (apply host' ev' head args env) := by
  unfold apply applyWith
  split
  · exact applyLambda_follows hev ..
  · exact Builtin.call_follows hsame hev ..
  · exact .pure _

/-- **One level of evaluation** follows if what is below it does. -/
theorem evaluateStep_follows (hsame : host.SameFiles host')
    (hev : EvaluatorFollows host cut fine ev ev') (v : Value) (env : FrameId) :
    Follows cut (evaluateStep host ev v env) (evaluateStep host' ev' v env) := by
  cases v with
  | symbol x =>
    exact (Follows.lookup env x).bind fun v => (hev.walk _ (by simp)).bind fun _ => .pure _
  | sexpr cells =>
    refine (Follows.mapM (fun c => hev.eval c env) cells).bind fun results => ?_
    unfold combine
    split
    · exact .pure _
    · split
      · exact .pure _
      · exact .pure _
      · next head args _ _ =>
        have hwalk := hev.walk (head.walks args env) fun nodes hnodes =>
          absurd hnodes (head.reading_not_mem_walks args env nodes)
        exact hwalk.bind fun _ => apply_follows hsame hev ..
  | number | string | error | qexpr | builtin | lambda => exact .pure _

/-- Evaluation follows itself. -/
theorem evaluate_follows_self (host : Host) (cut : Cut) (fine : List Node → Prop) (d : Nat) :
    EvaluatorFollows host cut fine (evaluate host d) (evaluate host d) := by
  induction d with
  | zero => exact ⟨.refl .., fun _ _ => .stop (Or.inl rfl)⟩
  | succ d ih => exact ⟨.refl .., evaluateStep_follows (.refl host) ih⟩

/-- **Evaluation looks at nothing** but the files that are found and the calls. -/
theorem evaluate_congr (hsame : host.SameFiles host')
    (hcalls : host.calls.allows = host'.calls.allows) (d : Nat) :
    evaluate host d = evaluate host' d := by
  induction d with
  | zero => rw [evaluate, evaluate, hcalls]
  | succ d ih =>
    have hstep : evaluateStep host (evaluate host d) = evaluateStep host' (evaluate host d) := by
      funext v env
      exact (evaluateStep_follows hsame
        (evaluate_follows_self host .never (fun _ => True) d) v env).eq_of_never
    rw [evaluate, evaluate, hcalls, hstep, ih]

/-- **Evaluation with more depth follows evaluation with less.** -/
theorem evaluate_follows (hsame : host.SameFiles host')
    (hcalls : host.calls.allows = host'.calls.allows)
    (fine : List Node → Prop) {d d' : Nat} (hd : d ≤ d') :
    EvaluatorFollows host .any fine (evaluate host d) (evaluate host' d') := by
  have hwalks {k k' : Nat} (hk : k ≤ k') :
      WalksFollow host .any fine (evaluate host k) (evaluate host' k') := by
    refine .of_allows (fun w hw => ?_) host fine
    rw [evaluate_allows] at hw ⊢
    rw [← hcalls]
    exact host.calls.allows_mono hk hw
  induction d generalizing d' with
  | zero =>
    exact ⟨hwalks hd, fun v e =>
      .tooDeep ((evaluate_follows_self host' .any fine d').eval v e).loaded⟩
  | succ d ih =>
    cases d' with
    | zero => exact absurd hd (Nat.not_succ_le_zero d)
    | succ d' =>
      exact ⟨hwalks hd, evaluateStep_follows hsame (ih (Nat.le_of_succ_le_succ hd))⟩

end Evaluation

/-! ## 6. Steps -/

namespace Interpreter

variable {host host' : Host} {cut : Cut} {fine : List Node → Prop} {ev ev' : Evaluator}

/-- The forms of a text whose trees are fine. -/
theorem formsOf_follows (hev : EvaluatorFollows host cut fine ev ev') {source : String}
    {nodes : List Node} (hparse : parse source = .ok nodes) (hfine : fine nodes) :
    Follows cut (Form.formsOf ev nodes) (Form.formsOf ev' nodes) := by
  refine (hev.walk _ fun nodes' hnodes => ?_).bind fun _ => Form.valuesOf_follows hparse
  cases List.mem_singleton.mp hnodes
  exact hfine

theorem evalTextWith_follows (hev : EvaluatorFollows host cut fine ev ev') (root : FrameId)
    {source : String} (hfine : ∀ nodes, parse source = .ok nodes → fine nodes) (name : String) :
    Follows cut (evalTextWith ev root source name) (evalTextWith ev' root source name) := by
  unfold evalTextWith
  refine (hev.walk _ (by simp)).bind fun _ => ?_
  split
  · exact .pure _
  · next nodes hparse =>
    exact (formsOf_follows hev hparse (hfine nodes hparse)).bind fun forms => hev.eval _ root

theorem runTextWith_follows (hev : EvaluatorFollows host cut fine ev ev') (root : FrameId)
    {source : String} (hfine : ∀ nodes, parse source = .ok nodes → fine nodes) (name : String) :
    Follows cut (runTextWith ev root source name) (runTextWith ev' root source name) := by
  unfold runTextWith
  refine (hev.walk _ (by simp)).bind fun _ => ?_
  split
  · exact .pure _
  · next nodes hparse =>
    exact (formsOf_follows hev hparse (hfine nodes hparse)).bind fun forms =>
      .mapM (fun v => hev.eval v root) forms

theorem printErrors_follows (vs : List Value) :
    Follows cut (printErrors vs) (printErrors vs) := by
  induction vs with
  | nil => exact .pure ()
  | cons v rest ih =>
    unfold printErrors
    split
    · exact (Follows.print _).bind fun _ => ih
    · exact ih

theorem runPreludeWith_follows (hev : EvaluatorFollows host cut fine ev ev') (root : FrameId)
    {source : String} (hfine : ∀ nodes, parse source = .ok nodes → fine nodes) :
    Follows cut (runPreludeWith ev root source) (runPreludeWith ev' root source) :=
  (runTextWith_follows hev root hfine _).bind fun vs => printErrors_follows vs

/-- **A step of a session.** -/
theorem performWith_follows (hsame : host.SameFiles host')
    (hev : EvaluatorFollows host cut fine ev ev') (root : FrameId) (s : Step)
    (hfine : ∀ source nodes, s.text? = some source → parse source = .ok nodes → fine nodes) :
    Follows cut (performWith ev host root s) (performWith ev' host' root s) := by
  cases s with
  | eval source name =>
    exact (evalTextWith_follows hev root (hfine source · rfl) name).bind fun _ => .pure _
  | run source name => exact runTextWith_follows hev root (hfine source · rfl) name
  | load name => exact (Form.loadFile_follows hsame hev root name).bind fun _ => .pure _
  | prelude source =>
    exact (runPreludeWith_follows hev root (hfine source · rfl)).bind fun _ => .pure _

end Interpreter

end CurryLisp

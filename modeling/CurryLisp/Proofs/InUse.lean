/-
# Environments in use

An environment is in use if it is the root, the frame of a call, or the environment that a function
was made in, wherever that function is held.  Frames know only the frame around them, so everything
about an environment is found by climbing outwards.  In a session every climb passes frames that are
there, none of them twice, and ends at the one root.  This is so at rest and while evaluations are
under way, at any depth, and so a definition that is made in a call binds in that root.

* `Store.climb`: climbing, frame by frame, without knowing that it ends;
* `Store.LeadsTo`: how a climb ends, and `Machine.Rooted.leadsTo`, that all of them do;
* `Activation.Starts.rooted`: what is started from an evaluation in use is in use too;
* `Underway.rooted`: so it is for all evaluations of a session.

The main statement is `environments_lead_to_one_root`.
-/
import CurryLisp.Proofs.Rooted
import CurryLisp.Proofs.Underway

namespace CurryLisp

/-! ## 1. Climbing -/

namespace Store

/-- The frame that is so many frames outwards. -/
def climb (s : Store) : Nat → FrameId → Option FrameId
  | 0, e => some e
  | k + 1, e => (s.parent? e).bind (s.climb k)

/-- **Climbing meets the frames of the chain**, in order, and then no more. -/
theorem climb_eq (s : Store) (k : Nat) (e : FrameId) : s.climb k e = (s.chain e)[k]? := by
  induction k generalizing e with
  | zero =>
    cases h : s.parent? e with
    | none => simp [climb, chain_of_root h]
    | some p => simp [climb, chain_of_parent h]
  | succ k ih =>
    cases h : s.parent? e with
    | none => simp [climb, chain_of_root h, h]
    | some p => simp [climb, chain_of_parent h, h, ih]

/-- An environment from which climbing ends at the root. -/
structure LeadsTo (s : Store) (root e : FrameId) : Prop where
  /-- the frames on the way are there -/
  there : ∀ i ∈ s.chain e, i < s.size
  /-- they are met one after the other, and there are no more -/
  climb : ∀ k, s.climb k e = (s.chain e)[k]?
  /-- none is met twice -/
  nodup : (s.chain e).Nodup
  /-- the last is the root -/
  last : (s.chain e).getLast? = some root
  /-- where global definitions that are made from there are bound -/
  root_eq : s.root e = root

end Store

/-- Every function inside a value was made in an environment from which climbing ends at the
root. -/
def Value.LeadsTo (s : Store) (root : FrameId) (v : Value) : Prop :=
  v.All fun w => ∀ f body own scope, w = .lambda f body own scope →
    ∃ e, scope = some e ∧ s.LeadsTo root e

/-- From all frames, and from all functions that are bound, climbing ends at the root. -/
structure Machine.OneRoot (root : FrameId) (m : Machine) : Prop where
  root_lt : root < m.store.size
  frames : ∀ e, e < m.store.size → m.store.LeadsTo root e
  bound : ∀ e, ∀ q ∈ m.store.bindings e, q.2.LeadsTo m.store root

namespace Machine.Rooted

variable {root e : FrameId} {m : Machine} {v : Value}

theorem leadsTo (hm : m.Rooted root) (he : e < m.store.size) : m.store.LeadsTo root e where
  there i hi := Nat.lt_of_le_of_lt (Store.le_of_mem_chain hi) he
  climb k := Store.climb_eq m.store k e
  nodup := (Store.chain_pairwise m.store e).imp fun h => Nat.ne_of_gt h
  last := by
    rw [Store.chain_eq_dropLast_append_root, hm.root_eq e he]
    simp
  root_eq := hm.root_eq e he

theorem value_leadsTo (hm : m.Rooted root) (hv : v.Within m.store.size) :
    v.LeadsTo m.store root := by
  refine Value.All.mono hv fun w hw => ?_
  rintro f body own scope rfl
  obtain ⟨e, hscope, he⟩ := hw
  exact ⟨e, hscope, hm.leadsTo he⟩

theorem oneRoot (hm : m.Rooted root) : m.OneRoot root where
  root_lt := hm.root_lt
  frames _ he := hm.leadsTo he
  bound _ q hq := hm.value_leadsTo (hm.within _ q hq)

end Machine.Rooted

/-! ## 2. One evaluation after the other -/

namespace Rooting

variable {root env : FrameId} {host : Host} {d : Nat} {m m' : Machine} {vs : List Value}

/-- One root stays when values are evaluated one after the other. -/
theorem mapM (hm : m.Rooted root) (hvs : ∀ v ∈ vs, v.Within m.store.size)
    (henv : env < m.store.size) {results : List Value}
    (hrun : (vs.mapM fun v => evaluate host d v env) m = .ok results m') :
    m'.Rooted root ∧ m.store.size ≤ m'.store.size ∧ ∀ r ∈ results, r.Within m'.store.size := by
  have hA := sound root host
  have halike : (Rooting root).Alike m.store.size (vs.mapM fun v => evaluate host d v env)
      fun k rs => ∀ r ∈ rs, (Rooting root).Answer k r :=
    Coupling.Alike.mapM (R := (Rooting root).Answer) hA.answer_mono fun v hv k hk =>
      (hA.evaluate d).eval k v env (hA.holds_mono hk (hvs v hv)) (hA.env_mono hk henv)
  obtain ⟨hafter, hsize, hres⟩ := halike.one_run ⟨rfl, hm⟩ (Nat.le_refl _)
  rw [Machine.after_eq_of_ok hrun] at hafter hsize hres
  exact ⟨hafter.2, hsize, fun r hr => (hres _ (Machine.outcome_eq_of_ok hrun) r hr).1⟩

/-- The functions in what is read from a text were made nowhere, for there are none. -/
theorem within_of_text {source : String} {nodes : List Node} {forms : List Value}
    (hparse : parse source = .ok nodes) (hforms : Value.ofNodes nodes = .ok forms) (n : Nat) :
    ∀ v ∈ forms, v.Within n :=
  reads 0 n source nodes forms hparse hforms

/-- One root stays when the first forms of a file are evaluated, and the next is as it was read. -/
theorem loading {name : String} {path : Path} {before after : List Value} {v : Value}
    (hm : m.Rooted root) (henv : env < m.store.size)
    (hopen : host.opening name = .ready path (before ++ v :: after))
    (hrun : Form.runPrinting (evaluate host d) env before
      { m with events := m.events.push (.loading path) } = .ok () m') :
    m'.Rooted root ∧ m.store.size ≤ m'.store.size ∧ v.Within m'.store.size := by
  have hA := sound root host
  obtain ⟨source, nodes, -, -, hparse, hforms⟩ := Host.opening_eq_ready.mp hopen
  have hread := within_of_text hparse hforms
  have hbefore : ∀ w ∈ before, w.Within m.store.size := fun w hw =>
    hread _ w (List.mem_append_left _ hw)
  have halike := hA.runPrinting_alike (hA.evaluate d) henv hbefore
  obtain ⟨hafter, hsize, -⟩ := halike.one_run (hA.note (.loading path) ⟨rfl, hm⟩) (Nat.le_refl _)
  rw [Machine.after_eq_of_ok hrun] at hafter hsize
  exact ⟨hafter.2, hsize, hread _ v (by simp)⟩

end Rooting

/-! ## 3. Evaluations in use -/

/-- An activation on a machine with one root, in an environment that is there, of a value whose
functions were made in environments that are there. -/
structure Activation.Rooted (root : FrameId) (a : Activation) : Prop where
  machine : a.machine.Rooted root
  value : a.value.Within a.machine.store.size
  env : a.env < a.machine.store.size

namespace Activation

variable {root : FrameId} {host : Host} {a b : Activation} {m : Machine} {head : Value}
  {args : List Value}

/-- What is applied in a call that an evaluation comes to. -/
theorem ComesTo.rooted (h : a.ComesTo host m head args) (ha : a.Rooted root) :
    m.Rooted root ∧ a.machine.store.size ≤ m.store.size ∧
      ∀ v ∈ head :: args, v.Within m.store.size := by
  cases h with
  | call hcells _ _ _ => exact Rooting.mapM ha.machine (Value.all_sexpr.mp ha.value).2 ha.env hcells

/-- **What an evaluation in use starts is in use.** -/
theorem Starts.rooted (h : a.Starts host b) (ha : a.Rooted root) : b.Rooted root := by
  have hA := Rooting.sound root host
  cases h with
  | @cell m m' d before after results c env hbefore =>
    have hcells := (Value.all_sexpr.mp ha.value).2
    obtain ⟨hm, hsize, -⟩ := Rooting.mapM ha.machine
      (fun v hv => hcells v (List.mem_append_left _ hv)) ha.env hbefore
    exact ⟨hm, Value.Within.mono (hcells c (by simp)) hsize, Nat.lt_of_lt_of_le ha.env hsize⟩
  | @body _ m d f body args own frame scope hcall _ hbind =>
    obtain ⟨hm, hsize, hwithin⟩ := hcall.rooted ha
    have hf := hwithin _ List.mem_cons_self
    have hframe := hA.frame_of_bind
      (fun v hv => Rooting.arg_of_within (hwithin v (List.mem_cons_of_mem _ hv))) hbind
    have hnew : (m.store.alloc frame scope).size = m.store.size + 1 := Store.size_alloc _ _ _
    refine ⟨(hA.enter ⟨rfl, hm⟩ hf hframe).1.2, ?_, ?_⟩
    · have hbody := hA.holds_form (Value.all_lambda.mp hf).2.1
      exact Value.Within.mono hbody (by simp [hnew])
    · simp [hnew]
  | @eval _ _ _ cells hcall _ =>
    obtain ⟨hm, hsize, hwithin⟩ := hcall.rooted ha
    have hcells := hA.holds_form_of_arg (Rooting.arg_of_within (hwithin (.qexpr cells) (by simp)))
    exact ⟨hm, hcells, Nat.lt_of_lt_of_le ha.env hsize⟩
  | branch hcall _ hchosen =>
    obtain ⟨hm, hsize, hwithin⟩ := hcall.rooted ha
    obtain ⟨n, yes, no, rfl, rfl⟩ := Form.chosen_eq_ok.mp hchosen
    refine ⟨hm, ?_, Nat.lt_of_lt_of_le ha.env hsize⟩
    split
    · exact hA.holds_form_of_arg (Rooting.arg_of_within (hwithin (.qexpr no) (by simp)))
    · exact hA.holds_form_of_arg (Rooting.arg_of_within (hwithin (.qexpr yes) (by simp)))
  | @form _ m _ _ _ _ _ _ _ _ hcall _ hopen _ _ hbefore =>
    obtain ⟨hm, hsize, -⟩ := hcall.rooted ha
    have henv : a.env < m.store.size := Nat.lt_of_lt_of_le ha.env hsize
    obtain ⟨hm', hsize', hv⟩ := Rooting.loading hm henv hopen hbefore
    exact ⟨hm', hv, Nat.lt_of_lt_of_le henv hsize'⟩

end Activation

/-- What a step of a session begins is in use. -/
theorem Step.Begins.rooted {root : FrameId} {host : Host} {d : Nat} {m : Machine} {s : Step}
    {a : Activation} (h : s.Begins host root d m a) (hm : m.Rooted root) : a.Rooted root := by
  cases h with
  | eval _ hparse hforms =>
    have hA := Rooting.sound root host
    exact ⟨hm, hA.holds_form (Rooting.within_of_text hparse hforms _), hm.root_lt⟩
  | @run _ source name nodes before after results v m' _ _ hparse hforms hbefore =>
    have hread := Rooting.within_of_text hparse hforms
    obtain ⟨hm', hsize, -⟩ := Rooting.mapM hm (fun w hw => hread _ w (by simp [hw])) hm.root_lt
      hbefore
    exact ⟨hm', hread _ v (by simp), hm'.root_lt⟩
  | load hopen _ _ hbefore =>
    obtain ⟨hm', -, hv⟩ := Rooting.loading hm hm.root_lt hopen hbefore
    exact ⟨hm', hv, hm'.root_lt⟩

/-- **All evaluations of a session are in use.** -/
theorem Underway.rooted {root : FrameId} {host : Host} {a : Activation}
    (h : Underway root host a) : a.Rooted root := by
  induction h with
  | begins hreach hbegins => exact hbegins.rooted hreach.rooted
  | starts _ hstarts ih => exact hstarts.rooted ih

/-! ## 4. One root for all -/

/-- What is said of an evaluation in use: on the machine it is made on, and on the one it leaves. -/
structure Activation.InUse (host : Host) (root : FrameId) (a : Activation) : Prop where
  before : a.machine.OneRoot root
  env : a.machine.store.LeadsTo root a.env
  value : a.value.LeadsTo a.machine.store root
  after : (a.machine.after (evaluate host a.depth a.value a.env)).OneRoot root
  result : ∀ r m, a.run host = .ok r m → r.LeadsTo m.store root

/-- What is said of a call that an evaluation in use comes to.  What it binds globally is bound in
the root, and nothing else in the store changes. -/
structure Activation.CallInUse (host : Host) (root : FrameId) (a : Activation) (m : Machine)
    (head : Value) (args : List Value) : Prop where
  machine : m.OneRoot root
  env : m.store.LeadsTo root a.env
  values : ∀ v ∈ head :: args, v.LeadsTo m.store root
  define : ∀ more, head = .builtin (.form .define) →
    Form.definitions Form.define.name args = .ok more →
    a.run host = .ok .unit { m with store := m.store.putAll root more }
  function : ∀ name formals body, head = .builtin (.form .function) →
    Form.namedSignature Form.function.name args = .ok (name, formals, body) →
    a.run host = .ok .unit { m with
      store := m.store.putAll root [(name, .lambda formals body [] (some a.env))]
      events := m.events.push (.lambdaMade formals body) }

namespace Activation.Rooted

variable {root : FrameId} {host : Host} {a : Activation}

theorem inUse (ha : a.Rooted root) : a.InUse host root := by
  have hA := Rooting.sound root host
  have halike := (hA.evaluate a.depth).eval a.machine.store.size a.value a.env ha.value ha.env
  obtain ⟨⟨-, hafter⟩, -, hresult⟩ := halike.one_run ⟨rfl, ha.machine⟩ (Nat.le_refl _)
  refine ⟨ha.machine.oneRoot, ha.machine.leadsTo ha.env, ha.machine.value_leadsTo ha.value,
    hafter.oneRoot, fun r m hrun => ?_⟩
  have hr := (hresult r (Machine.outcome_eq_of_ok hrun)).1
  rw [Machine.after_eq_of_ok hrun] at hafter hr
  exact hafter.value_leadsTo hr

theorem callInUse {m : Machine} {head : Value} {args : List Value} (ha : a.Rooted root)
    (h : a.ComesTo host m head args) : a.CallInUse host root m head args := by
  obtain ⟨hm, hsize, hwithin⟩ := h.rooted ha
  obtain ⟨d, -, hrun⟩ := h.run_eq
  have henv : a.env < m.store.size := Nat.lt_of_lt_of_le ha.env hsize
  have hroot : m.store.root a.env = root := hm.root_eq a.env henv
  refine ⟨hm.oneRoot, hm.leadsTo henv, fun v hv => hm.value_leadsTo (hwithin v hv), ?_, ?_⟩
  · rintro more rfl hmore
    rw [hrun, ← hroot]
    change Value.orElseFail _ _ m = _
    rw [hmore]
    rfl
  · rintro name formals body rfl hsig
    rw [hrun, ← hroot]
    change Value.orElseFail _ _ m = _
    rw [hsig]
    rfl

end Activation.Rooted

/-- **Every environment in use leads to one root.**

In all machines that a session comes to, from every frame and from every function, wherever it is
held, climbing ends at the root of the session, and so it is for the results of its steps.  It is so
too for all evaluations that are under way in a step, at any depth, before and after them, and for
every call that one of them comes to.  A call that makes a global definition binds in that root. -/
theorem environments_lead_to_one_root (root : FrameId) :
    (∀ m, Reachable root m → m.OneRoot root ∧ ∀ host d s,
      (m.after (Interpreter.perform ⟨host, root, d⟩ s)).OneRoot root ∧
      ∀ rs m', Interpreter.perform ⟨host, root, d⟩ s m = .ok rs m' →
        ∀ r ∈ rs, r.LeadsTo m'.store root) ∧
    ∀ host a, Underway root host a → a.InUse host root ∧
      ∀ m head args, a.ComesTo host m head args → a.CallInUse host root m head args := by
  refine ⟨fun m h => ⟨h.rooted.oneRoot, fun host d s => ⟨?_, ?_⟩⟩, fun host a h => ⟨?_, ?_⟩⟩
  · exact (h.step host d s).rooted.oneRoot
  · intro rs m' hrun r hr
    have hA := Rooting.sound root host
    have halike := hA.perform (i := ⟨host, root, d⟩) (Rooting.reads root) h.rooted.root_lt s
    obtain ⟨⟨-, hafter⟩, -, hresults⟩ := halike.one_run ⟨rfl, h.rooted⟩ (Nat.le_refl _)
    have hres := (hresults rs (Machine.outcome_eq_of_ok hrun) r hr).1
    rw [Machine.after_eq_of_ok hrun] at hafter hres
    exact hafter.value_leadsTo hres
  · exact h.rooted.inUse
  · exact fun m head args hcall => h.rooted.callInUse hcall

/-- A function that is called at the root makes a global definition while its call is under way: the
evaluation takes place in the frame of the call, and the name is bound in the root. -/
theorem environments_lead_to_one_root_in_a_call :
    let m : Machine := .fresh false
    let body : List Value := [.symbol "def", .qexpr [.symbol "y"], .symbol "x"]
    let inner : Machine := { m with
      store := m.store.alloc [("x", .qexpr [])] (some 0)
      events := m.events.push (.lambdaMade ⟨["x"], none⟩ body) }
    Reachable 0 m ∧ Underway 0 .bare ⟨inner, 4, .sexpr body, 1⟩ ∧
      Activation.run .bare ⟨inner, 4, .sexpr body, 1⟩ =
        .ok .unit { inner with store := inner.store.putAll 0 [("y", .qexpr [])] } := by
  intro m body inner
  let source := "((\\ \x7bx\x7d \x7bdef \x7by\x7d x\x7d) \x7b\x7d)"
  let call : List Value :=
    [.sexpr [.symbol "\\", .qexpr [.symbol "x"], .qexpr body], .qexpr []]
  let token (column : Nat) (kind : TokenKind) (text : String) : Token := ⟨kind, text, ⟨1, column⟩⟩
  have hlex : lex source = ⟨[token 1 (.opener .round) "(",
      token 2 (.opener .round) "(", token 3 .symbol "\\", token 5 (.opener .curly) "\x7b",
      token 6 .symbol "x", token 7 (.closer .curly) "\x7d", token 9 (.opener .curly) "\x7b",
      token 10 .symbol "def", token 14 (.opener .curly) "\x7b", token 15 .symbol "y",
      token 16 (.closer .curly) "\x7d", token 18 .symbol "x", token 19 (.closer .curly) "\x7d",
      token 20 (.closer .round) ")", token 22 (.opener .curly) "\x7b",
      token 23 (.closer .curly) "\x7d", token 24 (.closer .round) ")"], none⟩ := by
    decide +kernel
  have hforms : ∃ nodes, parse source = .ok nodes ∧
      Value.ofNodes nodes = .ok ([] ++ .sexpr call :: []) := by
    rw [parse, hlex]
    exact ⟨_, rfl, rfl⟩
  obtain ⟨nodes, hparse, hforms⟩ := hforms
  have htakes : (evaluate .bare 5).Takes source :=
    Evaluator.takes_of_lex rfl hlex rfl (by decide +kernel) (by decide +kernel)
  have hbegins : Underway 0 .bare ⟨m, 5, .sexpr call, 0⟩ :=
    .begins (.fresh_bare false)
      (.run (Or.inl (Eq.refl (Step.run source ""))) htakes hparse hforms rfl)
  have hcall : Activation.ComesTo .bare ⟨m, 5, .sexpr call, 0⟩ { m with events := inner.events }
      (.lambda ⟨["x"], none⟩ body [] (some 0)) [.qexpr []] :=
    .call (by with_unfolding_all rfl) (List.cons_ne_nil _ _) rfl (List.all_eq_true.mp rfl)
  have hunder : Underway 0 .bare ⟨inner, 4, .sexpr body, 1⟩ := .starts hbegins (.body hcall rfl rfl)
  have hdef : Activation.ComesTo .bare ⟨inner, 4, .sexpr body, 1⟩ inner
      (.builtin (.form .define)) [.qexpr [.symbol "y"], .qexpr []] :=
    .call (by with_unfolding_all rfl) (List.cons_ne_nil _ _) rfl (List.all_eq_true.mp rfl)
  obtain ⟨-, hevaluations⟩ := environments_lead_to_one_root 0
  obtain ⟨-, hcalls⟩ := hevaluations .bare _ hunder
  exact ⟨.fresh_bare false, hunder, (hcalls _ _ _ hdef).define _ rfl rfl⟩

end CurryLisp

/-
# Names that are not used

Nobody makes a symbol.  Symbols come from texts, and from there on they are moved around as parts of
values.  So a name that stands in no text, and in no value that is there at the beginning, is never
looked up, and what it is bound to makes no difference.

`Sparing` is the coupling for it: two machines that agree on all names but some, and values in which
none of these occurs as a symbol.  The other names may be bound to anything; what they are bound to
is never seen.  The names of the extended library are a case of it: for programs that do not use
them, it is as if the library were not there.

Of the texts of files only those matter that are loaded, and which these are is seen when the session
has run.  So the coupling is applied on a host that stops before it reads any other file.
-/
import CurryLisp.Proofs.Chains
import CurryLisp.Proofs.Watching

namespace CurryLisp

/-! ## 1. What does not use some names -/

section Avoiding

variable (names : String → Prop)

/-- A symbol is none of the names. -/
def Value.NotNamed : Value → Prop
  | symbol x => ¬ names x
  | _ => True

/-- No symbol inside a value is one of the names. -/
def Value.Avoids (v : Value) : Prop := v.All (NotNamed names)

/-- No symbol that stands in a text is one of the names. -/
def TextAvoids (source : String) : Prop :=
  ∀ t ∈ (lex source).tokens, t.kind = .symbol → ¬ names t.text

instance [DecidablePred names] (source : String) : Decidable (TextAvoids names source) :=
  inferInstanceAs (Decidable (∀ t ∈ (lex source).tokens, t.kind = .symbol → ¬ names t.text))

/-- Nothing that is read from some trees uses the names. -/
def ReadsAvoid (nodes : List Node) : Prop :=
  ∀ forms, Value.ofNodes nodes = .ok forms → ∀ v ∈ forms, v.Avoids names

/-- No file that is loaded on the way from one machine to another has a text with one of the
names. -/
def Machine.LoadsAvoid (host : Host) (m m' : Machine) : Prop :=
  ∀ path ∈ m.loadedSince m', ∀ source, host.files.text path = .ok source → TextAvoids names source

/-- A step brings no text with one of the names. -/
def Step.Avoids (s : Step) : Prop := ∀ source, s.text? = some source → TextAvoids names source

/-- What is bound to the other names does not use the names. -/
def Store.Avoids (s : Store) : Prop :=
  ∀ e x v, ¬ names x → (s.bindings e).lookup x = some v → v.Avoids names

/-- Two machines are the same but for what they bind to the names, and for what they reported of
other things than the loading of files. -/
structure Machine.SameOutside (m₁ m₂ : Machine) : Prop where
  size : m₁.store.size = m₂.store.size
  parent : ∀ i, m₁.store.parent? i = m₂.store.parent? i
  lookup : ∀ i x, ¬ names x →
    (m₁.store.bindings i).lookup x = (m₂.store.bindings i).lookup x
  printed : m₁.printed = m₂.printed
  loads : m₁.loads = m₂.loads

end Avoiding

variable {names : String → Prop}

theorem Value.plain_notNamed : Plain (NotNamed names) where
  number _ := trivial
  string _ := trivial
  error _ _ := trivial
  sexpr _ := trivial
  qexpr _ := trivial

/-- The forms of a text use no names that the text does not use. -/
theorem TextAvoids.forms {source : String} (h : TextAvoids names source) {nodes : List Node}
    {forms : List Value} (hnodes : parse source = .ok nodes)
    (hforms : Value.ofNodes nodes = .ok forms) : ∀ v ∈ forms, v.Avoids names :=
  Value.all_of_parse Value.plain_notNamed.inRange hnodes h hforms

theorem TextAvoids.reads {source : String} (h : TextAvoids names source) {nodes : List Node}
    (hnodes : parse source = .ok nodes) : ReadsAvoid names nodes :=
  fun _ hforms => h.forms hnodes hforms

/-- What is loaded is read from the texts of files. -/
theorem Machine.LoadsAvoid.loadsOnly {host : Host} {m m' : Machine}
    (h : m.LoadsAvoid names host m') : m.LoadsOnly host (ReadsAvoid names) m' :=
  fun path hpath source _ htext hnodes => (h path hpath source htext).reads hnodes

/-! ## 2. Binding names alike -/

namespace Bindings

variable {b c : Bindings} {x : String} {v : Value}

theorem lookup_put_congr (h : b.lookup x = c.lookup x) (y : String) (w : Value) :
    (b.put y w).lookup x = (c.put y w).lookup x := by
  by_cases hxy : x = y
  · rw [hxy, lookup_put_self, lookup_put_self]
  · rw [lookup_put_ne _ _ hxy, lookup_put_ne _ _ hxy, h]

theorem lookup_putAll_congr (h : b.lookup x = c.lookup x) (more : List (String × Value)) :
    (b.putAll more).lookup x = (c.putAll more).lookup x := by
  induction more generalizing b c with
  | nil => exact h
  | cons q rest ih => exact ih (lookup_put_congr h q.1 q.2)

/-- What a name is bound to after many names are bound is new, or the name was bound to it. -/
theorem mem_of_lookup_putAll {more : List (String × Value)}
    (h : (b.putAll more).lookup x = some v) : (x, v) ∈ more ∨ b.lookup x = some v := by
  induction more generalizing b with
  | nil => exact Or.inr h
  | cons q rest ih =>
    obtain ⟨y, w⟩ := q
    rcases ih h with h | h
    · exact Or.inl (List.mem_cons_of_mem _ h)
    · by_cases hxy : x = y
      · subst hxy
        rw [lookup_put_self] at h
        cases h
        exact Or.inl List.mem_cons_self
      · rw [lookup_put_ne _ _ hxy] at h
        exact Or.inr h

end Bindings

namespace Store

variable {s t : Store} {i : Nat} {x : String}

theorem lookup_putAll_congr (hsize : s.size = t.size)
    (h : (s.bindings i).lookup x = (t.bindings i).lookup x) (e : FrameId)
    (more : List (String × Value)) :
    ((s.putAll e more).bindings i).lookup x = ((t.putAll e more).bindings i).lookup x := by
  rw [bindings_putAll, bindings_putAll, hsize]
  split
  · exact Bindings.lookup_putAll_congr h more
  · exact h

theorem lookup_alloc_congr (hsize : s.size = t.size)
    (h : (s.bindings i).lookup x = (t.bindings i).lookup x) (b : Bindings)
    (parent : Option FrameId) :
    ((s.alloc b parent).bindings i).lookup x = ((t.alloc b parent).bindings i).lookup x := by
  rw [bindings_alloc, bindings_alloc, hsize]
  split
  · rfl
  · exact h

/-- Binding some names leaves what the others are bound to. -/
theorem lookup_putAll_of_not_mem {more : List (String × Value)} (h : x ∉ more.map Prod.fst)
    (s : Store) (e : FrameId) (i : Nat) :
    ((s.putAll e more).bindings i).lookup x = (s.bindings i).lookup x := by
  rw [bindings_putAll]
  split
  · exact Bindings.lookup_putAll_of_not_mem _ h
  · rfl

namespace Avoids

variable {more : List (String × Value)}

theorem putAll (hs : s.Avoids names) (hmore : ∀ q ∈ more, q.2.Avoids names) (e : FrameId) :
    (s.putAll e more).Avoids names := by
  intro i x v hx h
  rw [bindings_putAll] at h
  split at h
  · rcases Bindings.mem_of_lookup_putAll h with h | h
    · exact hmore _ h
    · exact hs i x v hx h
  · exact hs i x v hx h

theorem alloc (hs : s.Avoids names) {b : Bindings} (hb : ∀ q ∈ b, q.2.Avoids names)
    (parent : Option FrameId) : (s.alloc b parent).Avoids names := by
  intro i x v hx h
  rw [bindings_alloc] at h
  split at h
  · exact hb _ (Bindings.mem_of_lookup h)
  · exact hs i x v hx h

/-- Builtins use no names. -/
theorem fresh (extended : Bool) : (Store.fresh extended).Avoids names := fun e _ _ _ h =>
  Store.Bound.fresh (p := fun q => q.2.Avoids names)
    (fun _ => Value.all_of_parts_nil rfl trivial) extended e _
    (Bindings.mem_of_lookup h)

/-- What is looked up under another name does not use the names. -/
theorem get? (hs : s.Avoids names) {e : FrameId} {v : Value} (hx : ¬ names x)
    (h : s.get? e x = some v) : v.Avoids names := by
  obtain ⟨i, -, hv⟩ := Option.bind_eq_some_iff.mp h
  exact hs i x v hx hv

end Avoids

end Store

namespace Machine.SameOutside

variable {m₁ m₂ : Machine}

/-- Names are bound in both machines. -/
theorem putAll (h : m₁.SameOutside names m₂) (e : FrameId) (more : List (String × Value)) :
    ({ m₁ with store := m₁.store.putAll e more } : Machine).SameOutside names
      { m₂ with store := m₂.store.putAll e more } where
  size := by
    change (m₁.store.putAll e more).size = (m₂.store.putAll e more).size
    rw [Store.putAll, Store.putAll, Store.size_update, Store.size_update, h.size]
  parent i := by
    change (m₁.store.putAll e more).parent? i = (m₂.store.putAll e more).parent? i
    rw [Store.putAll, Store.putAll, Store.parent?_update, Store.parent?_update, h.parent]
  lookup i x hx := Store.lookup_putAll_congr h.size (h.lookup i x hx) e more
  printed := h.printed
  loads := h.loads

/-- A frame is made in both machines. -/
theorem alloc (h : m₁.SameOutside names m₂) (b : Bindings) (parent : Option FrameId) :
    ({ m₁ with store := m₁.store.alloc b parent } : Machine).SameOutside names
      { m₂ with store := m₂.store.alloc b parent } where
  size := by
    change (m₁.store.alloc b parent).size = (m₂.store.alloc b parent).size
    rw [Store.size_alloc, Store.size_alloc, h.size]
  parent i := Store.parent?_alloc_congr h.size (h.parent i) b parent
  lookup i x hx := Store.lookup_alloc_congr h.size (h.lookup i x hx) b parent
  printed := h.printed
  loads := h.loads

/-- The names are bound in one of the machines only. -/
theorem bound (m : Machine) (e : FrameId) {more : List (String × Value)}
    (hmore : ∀ q ∈ more, names q.1) :
    m.SameOutside names { m with store := m.store.putAll e more } where
  size := (Store.size_update _ _ _).symm
  parent i := (Store.parent?_update _ _ _ _).symm
  lookup i x hx := by
    refine (Store.lookup_putAll_of_not_mem (fun hmem => ?_) m.store e i).symm
    obtain ⟨q, hq, rfl⟩ := List.mem_map.mp hmem
    exact hx (hmore q hq)
  printed := rfl
  loads := rfl

theorem symm (h : m₁.SameOutside names m₂) : m₂.SameOutside names m₁ where
  size := h.size.symm
  parent i := (h.parent i).symm
  lookup i x hx := (h.lookup i x hx).symm
  printed := h.printed.symm
  loads := h.loads.symm

theorem root_eq (h : m₁.SameOutside names m₂) (e : FrameId) :
    m₁.store.root e = m₂.store.root e := by
  rw [Store.root, Store.root, Store.chain_congr h.parent]

/-- The other names are looked up alike. -/
theorem get? (h : m₁.SameOutside names m₂) (e : FrameId) {x : String} (hx : ¬ names x) :
    m₁.store.get? e x = m₂.store.get? e x :=
  Store.get?_congr_lookup (Store.chain_congr h.parent e) fun i _ => h.lookup i x hx

end Machine.SameOutside

/-! ## 3. Two runs -/

/-- Machines that are the same but for some names, and in which nothing uses these. -/
def Sparing (names : String → Prop) : Coupling where
  Rel m₁ m₂ := m₁.SameOutside names m₂ ∧ m₁.store.Avoids names
  part _ v := v.NotNamed names
  Res _ := True
  Taken _ := True
  Env _ _ := True

namespace Sparing

variable {m₁ m₂ : Machine}

/-- **Evaluation does not see the names** on a host that reads nothing with one of them. -/
theorem sound (host : Host) :
    (Sparing names).Sound (host.watching (ReadsAvoid names)) where
  error _ _ := trivial
  sexpr _ := trivial
  qexpr _ := trivial
  string _ := trivial
  settled _ := trivial
  taken _ := trivial
  operator hargs h :=
    Operator.run_all Value.plain_notNamed.inRange (fun a ha => (hargs a ha).1.1.1)
      (fun n hn => hn ▸ trivial) h
  read _ _ hallows hforms := Host.wanted_of_allows hallows _ hforms
  size_eq hm := hm.1.size
  part_mono _ h := h
  env_mono _ h := h
  close _ _ _ := trivial
  await _ _ _ _ := trivial
  lookup hm _ hx := ⟨hm.1.get? _ hx, fun v hv => ⟨hm.2.get? hx hv, trivial⟩⟩
  print _ hm := ⟨{ hm.1 with printed := congrArg (Array.push · _) hm.1.printed }, hm.2⟩
  note _ hm := ⟨{ hm.1 with
    loads := by rw [Machine.loads_note, Machine.loads_note, hm.1.loads] }, hm.2⟩
  bind hm _ hmore := ⟨hm.1.putAll _ _, hm.2.putAll (fun q hq => (hmore q hq).2.1.1) _⟩
  bindGlobal {_ _ e _} hm _ hmore := by
    rw [← hm.1.root_eq e]
    exact ⟨hm.1.putAll _ _, hm.2.putAll (fun q hq => (hmore q hq).2.1.1) _⟩
  enter hm hf hframe := by
    refine ⟨⟨hm.1.alloc _ _, hm.2.alloc (fun q hq => ?_) _⟩, trivial⟩
    rcases hframe q hq with hq | ⟨-, hq⟩
    · exact (Value.all_lambda.mp hf).2.2 q hq
    · exact hq.1.1

theorem readsText {source : String} (h : TextAvoids names source) :
    (Sparing names).ReadsText source :=
  fun _ _ _ hnodes hforms => h.forms hnodes hforms

/-- What does not see the names on the host that watches does not see them on the other one either,
if no file that is loaded uses them. -/
theorem ends {α : Type} {host : Host} {Q : Nat → α → Prop} {x y : EvalM α}
    (hx : (Sparing names).Alike 0 x Q) (hfollows : Follows (.loading host (ReadsAvoid names)) x y)
    (hm : (Sparing names).Rel m₁ m₂) (hloads : m₁.LoadsAvoid names host (m₁.after y)) :
    (Sparing names).Ends m₁.store.size Q (y m₁) (y m₂) :=
  hx.ends_of_watching hfollows (fun hm => hm.1.loads) hm (Nat.zero_le _) hloads.loadsOnly

/-- **A step does not see the names.** -/
theorem perform_ends {host : Host} {d : Nat} {root : FrameId} {s : Step} (hs : s.Avoids names)
    (hm : (Sparing names).Rel m₁ m₂)
    (hloads : m₁.LoadsAvoid names host (m₁.after (Interpreter.perform ⟨host, root, d⟩ s))) :
    (Sparing names).Ends m₁.store.size (fun k rs => ∀ r ∈ rs, (Sparing names).Answer k r)
      (Interpreter.perform ⟨host, root, d⟩ s m₁) (Interpreter.perform ⟨host, root, d⟩ s m₂) := by
  have hA : (Sparing names).Sound (host.watching (ReadsAvoid names)) := sound host
  have hroot : (Sparing names).Env 0 root := trivial
  rw [Interpreter.perform_eq_performWith] at hloads ⊢
  refine ends (hA.performWith (hA.evaluate d) hroot s fun source htext => readsText (hs source htext))
    ?_ hm hloads
  exact Interpreter.performWith_follows (host.watching_sameFiles _) (evaluate_watching_follows d)
    root s fun source nodes htext hnodes => (hs source htext).reads hnodes

end Sparing

/-! ## 4. Sessions -/

/-- A step that is taken in some surroundings, with some depth of nesting left. -/
structure Turn where
  host : Host
  depth : Nat
  step : Step

/-- What a turn of a session does. -/
def Turn.run (root : FrameId) (t : Turn) : EvalM (List Value) :=
  Interpreter.perform ⟨t.host, root, t.depth⟩ t.step

namespace Machine

/-- The machine after some turns.  A fault ends its turn, and the session goes on. -/
def afterTurns (root : FrameId) : Machine → List Turn → Machine
  | m, [] => m
  | m, t :: rest => (m.after (t.run root)).afterTurns root rest

/-- What is seen of a session: how each turn ends, and what has been printed until then. -/
def transcript (root : FrameId) :
    Machine → List Turn → List (Except Fault (List Value) × Array String)
  | _, [] => []
  | m, t :: rest =>
    (m.outcome (t.run root), (m.after (t.run root)).printed) ::
      (m.after (t.run root)).transcript root rest

end Machine

/-- What is asked of the turns of a session: they bring no text with one of the names, and load no
file with one. -/
def TurnsAvoid (names : String → Prop) (root : FrameId) : Machine → List Turn → Prop
  | _, [] => True
  | m, t :: rest =>
    t.step.Avoids names ∧ m.LoadsAvoid names t.host (m.after (t.run root)) ∧
      TurnsAvoid names root (m.after (t.run root)) rest

/-- What is seen of a session from the making of its interpreter on. -/
def sessionTranscript (host : Host) (extended : Bool) (prelude : String) (turns : List Turn) :
    List (Except Fault (List Value) × Array String) :=
  match Interpreter.make host (some extended) prelude {} with
  | .error f m => [(.error f, m.printed)]
  | .ok i m => (.ok [], m.printed) :: m.transcript i.root turns

/-- What is asked of a session from the making of its interpreter on. -/
def SessionAvoids (names : String → Prop) (host : Host) (extended : Bool) (prelude : String)
    (turns : List Turn) : Prop :=
  TextAvoids names prelude ∧
    match Interpreter.make host (some extended) prelude {} with
    | .error _ m => ({} : Machine).LoadsAvoid names host m
    | .ok i m => ({} : Machine).LoadsAvoid names host m ∧ TurnsAvoid names i.root m turns

/-- **Sessions do not see the names.** -/
theorem Sparing.turns {m₁ m₂ : Machine} (root : FrameId) {turns : List Turn}
    (hturns : TurnsAvoid names root m₁ turns) (hm : (Sparing names).Rel m₁ m₂) :
    m₁.transcript root turns = m₂.transcript root turns ∧
      (Sparing names).Rel (m₁.afterTurns root turns) (m₂.afterTurns root turns) := by
  induction turns generalizing m₁ m₂ with
  | nil => exact ⟨rfl, hm⟩
  | cons t rest ih =>
    obtain ⟨hstep, hloads, hrest⟩ := hturns
    obtain ⟨hout, hafter⟩ := (perform_ends hstep hm hloads).two_runs
    obtain ⟨htail, hlast⟩ := ih hrest hafter
    refine ⟨?_, hlast⟩
    rw [Machine.transcript, Machine.transcript]
    exact congrArg₂ List.cons (congrArg₂ Prod.mk hout hafter.1.printed) htail

/-! ## 5. The extended library -/

/-- Whether an interpreter can be made is settled before its prelude is run, whichever library is
bound. -/
theorem Interpreter.make_some (host : Host) (prelude : String) :
    (∃ f, ∀ extended, make host (some extended) prelude {} =
      .error f { store := .fresh extended }) ∨
    ∃ depth, ∀ extended, make host (some extended) prelude {} =
      begin ⟨host, 0, depth⟩ prelude (.fresh extended) := by
  have hmake := fun extended => make_eq host (some extended) prelude
  cases hdepth : host.settledDepth with
  | error f =>
    simp only [hdepth, Option.getD_some] at hmake
    exact Or.inl ⟨f, hmake⟩
  | ok depth =>
    simp only [hdepth, Option.getD_some] at hmake
    exact Or.inr ⟨depth, hmake⟩

/-- The names of the extended library. -/
def IsExtendedName (x : String) : Prop := ∃ b ∈ Builtin.extended, b.name = x

instance : DecidablePred IsExtendedName := fun x =>
  inferInstanceAs (Decidable (∃ b ∈ Builtin.extended, b.name = x))

/-- The two fresh machines differ in what is bound to the names of the extended library. -/
theorem Sparing.fresh (extended : Bool) :
    (Sparing IsExtendedName).Rel (.fresh extended) (.fresh !extended) := by
  have hmore : ∀ q ∈ libraryBindings Builtin.extended, IsExtendedName q.1 := by
    intro q hq
    obtain ⟨b, hb, rfl⟩ := List.mem_map.mp hq
    exact ⟨b, hb, rfl⟩
  have hbound := Machine.SameOutside.bound (.fresh false) 0 hmore
  have hloads : (Machine.fresh false).loads = (Machine.fresh true).loads := by decide
  have hfresh : (Machine.fresh false).SameOutside IsExtendedName (.fresh true) :=
    { hbound with loads := hloads }
  cases extended with
  | false => exact ⟨hfresh, .fresh false⟩
  | true => exact ⟨hfresh.symm, .fresh true⟩

/-- A prelude that does not use the names is run alike. -/
theorem Sparing.begin_ends {m₁ m₂ : Machine} {host : Host} {depth : Nat} {prelude : String}
    (hprelude : TextAvoids names prelude) (hm : (Sparing names).Rel m₁ m₂)
    (hloads : m₁.LoadsAvoid names host
      (m₁.after (Interpreter.begin ⟨host, 0, depth⟩ prelude))) :
    (Sparing names).Ends m₁.store.size (fun _ _ => True)
      (Interpreter.begin ⟨host, 0, depth⟩ prelude m₁)
      (Interpreter.begin ⟨host, 0, depth⟩ prelude m₂) := by
  let watched := evaluate (host.watching (ReadsAvoid names)) depth
  have hA : (Sparing names).Sound (host.watching (ReadsAvoid names)) := sound host
  have hroot : (Sparing names).Env 0 0 := trivial
  let i : Interpreter := ⟨host, 0, depth⟩
  have hx : (Sparing names).Alike 0 (do
      if prelude ≠ "" then Interpreter.runPreludeWith watched 0 prelude
      return i) fun _ _ => True := by
    split
    · exact (hA.runPrelude_alike (hA.evaluate depth) hroot (readsText hprelude)).bind
        fun _ _ _ _ => .pure fun _ _ => trivial
    · exact .pure fun _ _ => trivial
  refine ends hx ?_ hm hloads
  unfold Interpreter.begin
  split
  · exact (Interpreter.runPreludeWith_follows (evaluate_watching_follows depth) 0
      fun nodes hnodes => hprelude.reads hnodes).bind fun _ => .pure i
  · exact .pure i

/-- A session that does not use the extended library shows the same with it and without. -/
theorem sessionTranscript_extended {host : Host} {extended : Bool} {prelude : String}
    {turns : List Turn} (h : SessionAvoids IsExtendedName host extended prelude turns) :
    sessionTranscript host extended prelude turns =
      sessionTranscript host (!extended) prelude turns := by
  obtain ⟨hprelude, hsession⟩ := h
  rcases Interpreter.make_some host prelude with ⟨f, hmake⟩ | ⟨depth, hmake⟩
  · rw [sessionTranscript, sessionTranscript, hmake, hmake]
  · rw [hmake] at hsession
    have hloads : (Machine.fresh extended).LoadsAvoid IsExtendedName host
        ((Machine.fresh extended).after (Interpreter.begin ⟨host, 0, depth⟩ prelude)) := by
      unfold Machine.after
      split at hsession
      · next hrun => rw [hrun]; exact hsession
      · next hrun => rw [hrun]; exact hsession.1
    have hends := Sparing.begin_ends hprelude (Sparing.fresh extended) hloads
    rw [sessionTranscript, sessionTranscript, hmake, hmake]
    generalize Interpreter.begin ⟨host, 0, depth⟩ prelude (.fresh extended) = r₁,
      Interpreter.begin ⟨host, 0, depth⟩ prelude (.fresh !extended) = r₂ at hends hsession
    cases hends with
    | @ok i m₁ m₂ hm _ _ =>
      obtain ⟨htranscript, -⟩ := Sparing.turns i.root hsession.2 hm
      exact congrArg₂ List.cons (congrArg (Prod.mk _) hm.1.printed) htranscript
    | error hm _ => exact congrArg (fun printed => [(Except.error _, printed)]) hm.1.printed

/-! ## 6. The theorem -/

/-- **Names that are not used do not matter.**

Take a machine in which nothing that is bound to the other names uses the names, and bind the names
to any values in some frame, such as the root.

1. A value that does not use the names, evaluated in any environment, gives the same value or the
   same fault, prints the same, and leaves everything but the names bound alike in all frames, if no
   file uses the names that is loaded meanwhile without the bindings.
2. The same is seen of any session that goes on from there, if no text that it brings and no file
   that it loads uses the names.
3. A session that does not use the names of the extended library, from the making of its interpreter
   on and whether the library is bound in it or not, is the same the other way. -/
theorem unused_names_do_not_matter :
    (∀ (names : String → Prop) (m : Machine) (root : FrameId) (more : List (String × Value)),
      m.store.Avoids names → (∀ q ∈ more, names q.1) →
      let m' : Machine := { m with store := m.store.putAll root more }
      (∀ host depth v e, v.Avoids names →
        m.LoadsAvoid names host (m.after (evaluate host depth v e)) →
        m.outcome (evaluate host depth v e) = m'.outcome (evaluate host depth v e) ∧
        (m.after (evaluate host depth v e)).SameOutside names
          (m'.after (evaluate host depth v e))) ∧
      ∀ turns, TurnsAvoid names root m turns →
        m.transcript root turns = m'.transcript root turns ∧
        (m.afterTurns root turns).SameOutside names (m'.afterTurns root turns)) ∧
    ∀ (host : Host) (extended : Bool) (prelude : String) (turns : List Turn),
      SessionAvoids IsExtendedName host extended prelude turns →
      sessionTranscript host extended prelude turns =
        sessionTranscript host (!extended) prelude turns := by
  refine ⟨fun names m root more hstore hmore => ?_,
    fun _ _ _ _ => sessionTranscript_extended⟩
  intro m'
  have hm : (Sparing names).Rel m m' := ⟨.bound m root hmore, hstore⟩
  refine ⟨fun host depth v e hv hloads => ?_, fun turns hturns => ?_⟩
  · have hx := ((Sparing.sound host).evaluate depth).eval 0 v e hv trivial
    have hends := Sparing.ends hx ((evaluate_watching_follows depth).eval v e) hm hloads
    obtain ⟨hout, hafter⟩ := hends.two_runs
    exact ⟨hout, hafter.1⟩
  · obtain ⟨htranscript, hafter⟩ := Sparing.turns root hturns hm
    exact ⟨htranscript, hafter.1⟩

/-- A text that binds a name and loads a file, with the extended library and without it; and a sum
with a name bound that does not occur in it.  A file with names of the library lies beside the one
that is loaded. -/
theorem unused_names_do_not_matter_load :
    let host : Host := ⟨⟨[], [(["lib"], .file "(print x)".toUTF8.toList),
      (["other"], .file "(len \x7b\x7d)".toUTF8.toList)]⟩, [], .counted 1000⟩
    let turns : List Turn := [⟨host, 9, .run "(= \x7bx\x7d 3) (load \"lib\")" "<input>"⟩]
    let m : Machine := .fresh false
    let sum : Value := .sexpr [.symbol "+", .number 1, .number 2]
    (∃ path source, host.files.text path = .ok source ∧ ¬ TextAvoids IsExtendedName source) ∧
    SessionAvoids IsExtendedName host false "" turns ∧
    sessionTranscript host false "" turns = sessionTranscript host true "" turns ∧
    (m.store.Avoids (· = "y") ∧ sum.Avoids (· = "y") ∧
      m.LoadsAvoid (· = "y") host (m.after (evaluate host 9 sum 0))) ∧
    m.outcome (evaluate host 9 sum 0) =
      ({ m with store := m.store.putAll 0 [("y", sum)] } : Machine).outcome
        (evaluate host 9 sum 0) := by
  intro host turns m sum
  have hother : host.files.text ⟨.here, ["other"]⟩ = .ok "(len \x7b\x7d)" := by decide +kernel
  have hlib : host.files.text ⟨.here, ["lib"]⟩ = .ok "(print x)" := by decide +kernel
  have hused : ¬ TextAvoids IsExtendedName "(len \x7b\x7d)" := by decide +kernel
  have hdepth : host.settledDepth = .ok 333 := by decide +kernel
  have hmake : Interpreter.make host (some false) "" {} = .ok ⟨host, 0, 333⟩ m := by
    rw [Interpreter.make_eq, hdepth]
    rfl
  have hsession : SessionAvoids IsExtendedName host false "" turns := by
    have hload : m.loadedSince (m.after (Turn.run 0 turns[0])) = [⟨.here, ["lib"]⟩] := by
      decide +kernel
    refine ⟨by decide +kernel, ?_⟩
    rw [hmake]
    refine ⟨fun path hpath => absurd hpath List.not_mem_nil, ?_, fun path hpath => ?_, trivial⟩
    · rintro _ ⟨⟩
      decide +kernel
    · have hpath : path ∈ m.loadedSince (m.after (Turn.run 0 turns[0])) := hpath
      rw [hload] at hpath
      rw [List.mem_singleton.mp hpath, hlib]
      rintro _ ⟨⟩
      decide +kernel
  have hsum : sum.Avoids (· = "y") := by
    refine Value.all_sexpr.mpr ⟨trivial, ?_⟩
    simp only [List.mem_cons, List.not_mem_nil, or_false]
    rintro w (rfl | rfl | rfl)
    · exact Value.all_of_parts_nil rfl (by decide : ¬ "+" = "y")
    · exact Value.all_of_parts_nil rfl trivial
    · exact Value.all_of_parts_nil rfl trivial
  have hnone : m.loadedSince (m.after (evaluate host 9 sum 0)) = [] := by decide +kernel
  have hloads : m.LoadsAvoid (· = "y") host (m.after (evaluate host 9 sum 0)) := by
    intro path hpath
    rw [hnone] at hpath
    cases hpath
  obtain ⟨hnames, hlibrary⟩ := unused_names_do_not_matter
  have hm : m.store.Avoids (· = "y") := .fresh false
  have hmore : ∀ q ∈ [("y", sum)], q.1 = "y" := fun q hq => by rw [List.mem_singleton.mp hq]
  obtain ⟨heval, -⟩ := hnames (· = "y") m 0 [("y", sum)] hm hmore
  exact ⟨⟨_, _, hother, hused⟩, hsession, hlibrary host false "" turns hsession,
    ⟨hm, hsum, hloads⟩, (heval host 9 sum 0 hsum hloads).1⟩

end CurryLisp

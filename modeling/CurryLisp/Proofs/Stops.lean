/-
# What stops a program

Errors are values, and nearly everything that goes wrong is an error.  Three things are not: calls
that are nested too deeply, a file name that opening stops on, and a numeral with too many digits
for the host.  Such a name holds the null character, which stops `load` and `read`, or the search
for it cannot come to an end, which stops `load` alone: `read` gives an error for that.  Such a
numeral stops `int`, and stands in a text that cannot be read as a whole.

* `Builtin.call_eq_error`: a call is stopped by a fault of its own or by an evaluation that it makes;
* `Builtin.OwnFault.stops`: and where it has a fault of its own, it does stop;
* `Builtin.exists_ownFault_load_iff`: what stops `load`;
* `Host.resolve_of_find_error`: names with which the search cannot come to an end.

The main statement is `stopped_by_depth_name_or_numeral`.
-/
import CurryLisp.Proofs.Depth

namespace CurryLisp

/-! ## 1. What stops a call -/

namespace Builtin

/-- What a call evaluates, in the environment that it is made from. -/
def evaluated (host : Host) (args : List Value) : Builtin → List Value
  | .form .eval =>
    match Form.quoted Form.eval.name args with
    | .ok cells => [.sexpr cells]
    | .error _ => []
  | .form .branch =>
    match Form.chosen Form.branch.name args with
    | .ok cells => [.sexpr cells]
    | .error _ => []
  | .form .load =>
    match Form.fileName Form.load.name args with
    | .ok name =>
      match host.opening name with
      | .ready _ forms => forms
      | _ => []
    | .error _ => []
  | _ => []

/-- What stops a call, whatever it evaluates: the name of a file, or a numeral. -/
inductive OwnFault (host : Host) : Builtin → List Value → Fault → Prop
  | load {name : String} {f : Fault} : host.opening name = .stopped f →
      OwnFault host (.form .load) [.string name] f
  | unread {name : String} {path : Path} {f : NodeFault} : host.opening name = .unread path f →
      OwnFault host (.form .load) [.string name] (.node f)
  | read {name : String} : '\x00' ∈ name.toList →
      OwnFault host (.form .read) [.string name] .embeddedNull
  | int {s : String} {f : Text.NumeralFault} : Texts.unread? s = some f →
      OwnFault host (.operator .int) [.string s] (.numeral f)

variable {host : Host} {b : Builtin} {args : List Value} {f : Fault}

theorem OwnFault.ofName_or_ofNumeral (h : OwnFault host b args f) : f.OfName ∨ f.OfNumeral := by
  cases h with
  | load hopen => exact Or.inl (Host.ofName_of_opening hopen)
  | unread hopen => exact Or.inr (Host.ofNumeral_of_opening hopen)
  | read _ => exact Or.inl .embeddedNull
  | @int s f hunread =>
    have hfault : Operator.int.fault? [.string s] = some f := hunread
    exact Or.inr (Operator.ofNumeral_of_fault? hfault)

theorem call_load (ev : Evaluator) (env : FrameId) (name : String) :
    (form .load).call host ev env [.string name] = Form.loadFile host ev env name := rfl

theorem call_read (ev : Evaluator) (env : FrameId) (name : String) :
    (form .read).call host ev env [.string name] = Form.readFile host name := rfl

/-- Whoever calls, the call stops: with the fault, or because a file is nested too deeply for its
numeral to be reached. -/
theorem OwnFault.stops (h : OwnFault host b args f) (ev : Evaluator) (env : FrameId)
    (m : Machine) : ∃ m', m'.store = m.store ∧ m'.printed = m.printed ∧
      (b.call host ev env args m = .error f m' ∨
        b = .form .load ∧ f.OfNumeral ∧ b.call host ev env args m = .error .tooDeep m') := by
  cases h with
  | load hopen =>
    refine ⟨m, rfl, rfl, Or.inl ?_⟩
    rw [call_load, Form.loadFile_of_stopped hopen]
    rfl
  | @unread name path f hopen =>
    have hnumeral : (Fault.node f).OfNumeral := Host.ofNumeral_of_opening hopen
    rw [call_load, Form.loadFile_eq, hopen]
    rcases ev.walk_cases (parseWalks (host.sourceOf name)) with ⟨-, hparse⟩ | hparse
    · rw [hparse]
      rcases ev.walk_cases (readWalks (host.sourceOf name)) with ⟨-, hread⟩ | hread
      · rw [hread]
        exact ⟨{ m with events := m.events.push (.loading path) }, rfl, rfl, Or.inl rfl⟩
      · rw [hread]
        exact ⟨{ m with events := m.events.push (.loading path) }, rfl, rfl,
          Or.inr ⟨rfl, hnumeral, rfl⟩⟩
    · rw [hparse]
      exact ⟨m, rfl, rfl, Or.inr ⟨rfl, hnumeral, rfl⟩⟩
  | read hnull =>
    refine ⟨m, rfl, rfl, Or.inl ?_⟩
    rw [call_read, Form.readFile_of_null hnull]
    rfl
  | @int s f hunread =>
    refine ⟨m, rfl, rfl, Or.inl ?_⟩
    have hfault : Operator.int.fault? [.string s] = some f := hunread
    rw [call, hfault]
    rfl

/-- The names that stop `load` are those with which the search cannot come to an end, and those of
files that could be parsed but hold a numeral with too many digits. -/
theorem exists_ownFault_load_iff {name : String} :
    (∃ f, OwnFault host (.form .load) [.string name] f) ↔
      ¬ host.CanSeek name ∨ ∃ path f, host.opening name = .unread path f := by
  rw [Host.not_canSeek_iff]
  constructor
  · rintro ⟨f, hown⟩
    cases hown with
    | load hopen => exact Or.inl ⟨f, hopen⟩
    | unread hopen => exact Or.inr ⟨_, _, hopen⟩
  · rintro (⟨f, hopen⟩ | ⟨path, f, hopen⟩)
    · exact ⟨f, .load hopen⟩
    · exact ⟨.node f, .unread hopen⟩

end Builtin

/-- What stops a check with something after it is what comes after. -/
theorem Value.orElseFail_eq_error {α : Type} {r : Except Failure α} {next : α → EvalM Value}
    {m m' : Machine} {f : Fault} (h : orElseFail r next m = .error f m') :
    ∃ a, r = .ok a ∧ next a m = .error f m' := by
  cases r with
  | ok a => exact ⟨a, rfl, h⟩
  | error _ => cases h

/-- What stops the forms of a file has stopped one of them. -/
theorem Form.runPrinting_eq_error {ev : Evaluator} {env : FrameId} {forms : List Value}
    {m m' : Machine} {f : Fault} (h : runPrinting ev env forms m = .error f m') :
    ∃ v ∈ forms, ∃ m₁, ev v env m₁ = .error f m' := by
  induction forms generalizing m with
  | nil => cases h
  | cons v rest ih =>
    rcases EvalM.bind_eq_error.mp h with h | ⟨r, m₁, -, h⟩
    · exact ⟨v, List.mem_cons_self, m, h⟩
    · have hrest : ∃ m₂, runPrinting ev env rest m₂ = .error f m' := by
        dsimp only at h
        split at h
        · rcases EvalM.bind_eq_error.mp h with h | ⟨_, m₂, -, h⟩
          · cases h
          · exact ⟨m₂, h⟩
        · exact ⟨m₁, h⟩
      obtain ⟨m₂, hrest⟩ := hrest
      obtain ⟨w, hw, hstop⟩ := ih hrest
      exact ⟨w, List.mem_cons_of_mem _ hw, hstop⟩

/-- What stops a walk is want of calls. -/
theorem Evaluator.walk_eq_error {ev : Evaluator} {walks : List Walk} {m m' : Machine} {f : Fault}
    (h : ev.walk walks m = .error f m') : f = .tooDeep := by
  rcases ev.walk_cases walks with ⟨-, hwalk⟩ | hwalk
  · rw [hwalk] at h
    cases h
  · rw [hwalk] at h
    cases h
    rfl

/-- **What stops loading a file** is its name, a numeral in it, want of calls to go through its
text, or has stopped one of its forms. -/
theorem Form.loadFile_eq_error {host : Host} {ev : Evaluator} {env : FrameId} {name : String}
    {m m' : Machine} {f : Fault} (h : loadFile host ev env name m = .error f m') :
    f = .tooDeep ∨ Builtin.OwnFault host (.form .load) [.string name] f ∨
      ∃ path forms, host.opening name = .ready path forms ∧
        ∃ v ∈ forms, ∃ m₁, ev v env m₁ = .error f m' := by
  rw [loadFile_eq] at h
  rcases EvalM.bind_eq_error.mp h with hparse | ⟨_, _, -, h⟩
  · exact Or.inl (Evaluator.walk_eq_error hparse)
  cases hopen : host.opening name with
  | stopped g =>
    rw [hopen] at h
    cases h
    exact Or.inr (Or.inl (.load hopen))
  | refused e reason =>
    rw [hopen] at h
    cases h
  | unread path g =>
    rw [hopen] at h
    rcases EvalM.bind_eq_error.mp h with hnote | ⟨_, _, -, h⟩
    · cases hnote
    rcases EvalM.bind_eq_error.mp h with hread | ⟨_, _, -, h⟩
    · exact Or.inl (Evaluator.walk_eq_error hread)
    · cases h
      exact Or.inr (Or.inl (.unread hopen))
  | ready path forms =>
    rw [hopen] at h
    rcases EvalM.bind_eq_error.mp h with hnote | ⟨_, _, -, h⟩
    · cases hnote
    rcases EvalM.bind_eq_error.mp h with hread | ⟨_, _, -, h⟩
    · exact Or.inl (Evaluator.walk_eq_error hread)
    rcases EvalM.bind_eq_error.mp h with hforms | ⟨_, _, -, hunit⟩
    · exact Or.inr (Or.inr ⟨path, forms, rfl, runPrinting_eq_error hforms⟩)
    · cases hunit

/-- **What stops a call** is a fault of its own, or has stopped one of the evaluations that the call
makes.  Loading may also lack the calls to go through a text. -/
theorem Builtin.call_eq_error {host : Host} {b : Builtin} {ev : Evaluator} {env : FrameId}
    {args : List Value} {m m' : Machine} {f : Fault}
    (h : b.call host ev env args m = .error f m') :
    b = .form .load ∧ f = .tooDeep ∨ b.OwnFault host args f ∨
      ∃ v ∈ b.evaluated host args, ∃ m₁, ev v env m₁ = .error f m' := by
  cases b with
  | operator o =>
    cases hfault : o.fault? args with
    | none =>
      rw [call, hfault] at h
      cases h
    | some g =>
      rw [call, hfault] at h
      cases h
      obtain ⟨s, rfl, rfl, hunread⟩ := Operator.fault?_eq_some hfault
      exact Or.inr (Or.inl (.int hunread))
  | form g =>
    cases g with
    | eval | branch =>
      obtain ⟨cells, hcells, hstop⟩ := Value.orElseFail_eq_error h
      refine Or.inr (Or.inr ⟨.sexpr cells, ?_, m, hstop⟩)
      rw [evaluated, hcells]
      exact List.mem_cons_self
    | define | assign | lambda | function =>
      obtain ⟨_, -, hnever⟩ := Value.orElseFail_eq_error h
      cases hnever
    | print => cases h
    | load =>
      obtain ⟨name, hfile, hload⟩ := Value.orElseFail_eq_error h
      rw [evaluated, hfile]
      obtain rfl := Form.fileName_eq_ok.mp hfile
      rcases Form.loadFile_eq_error hload with hdeep | hown | ⟨path, forms, hopen, hstop⟩
      · exact Or.inl ⟨rfl, hdeep⟩
      · exact Or.inr (Or.inl hown)
      · refine Or.inr (Or.inr ?_)
        dsimp only
        rw [hopen]
        exact hstop
    | read =>
      obtain ⟨name, hfile, hread⟩ := Value.orElseFail_eq_error h
      obtain rfl := Form.fileName_eq_ok.mp hfile
      by_cases hnull : '\x00' ∈ name.toList
      · rw [Form.readFile_of_null hnull] at hread
        cases hread
        exact Or.inr (Or.inl (.read hnull))
      · obtain ⟨v, hpure, -⟩ := Form.readFile_eq_pure host hnull
        rw [hpure] at hread
        cases hread

/-! ## 2. Names that cannot be sought -/

/-- A name that leads through something that may not be gone through ends the search at once. -/
theorem Host.resolve_of_find_error {host : Host} {name : String} {f : OpenFault}
    (hnull : '\x00' ∉ name.toList) (hhere : (Path.ofString name).start = .here)
    (hfind : host.files.find (Path.ofString name) = .error f) (hends : f.EndsSearch) :
    host.resolve name = .error (f, Path.ofString name) := by
  have hp : (Path.ofString name).holdsNull = false :=
    Bool.eq_false_iff.mpr (mt Path.holdsNull_ofString.mp hnull)
  have habs : ¬ (Path.ofString name).isAbsolute = true := by
    rw [Path.isAbsolute, hhere]
    exact nofun
  have hholds : host.files.holds (Path.ofString name) = .error f := by
    rw [FileTree.holds, hp, if_neg (by decide), hfind]
    cases hends <;> rfl
  rw [resolve, hholds, if_neg habs]

/-- A first name that is too long cannot be sought. -/
theorem FileTree.find_of_longName {t : FileTree} {first : String} {rest : List String}
    (hdir : t.at? t.workdir = some .directory) (hlong : maxNameBytes < first.utf8ByteSize) :
    t.find ⟨.here, first :: rest⟩ = .error .nameTooLong := by
  have hfrom : (if (Path.mk .here (first :: rest)).isAbsolute then [] else t.workdir) =
      t.workdir := rfl
  rw [find, hfrom]
  split
  · rfl
  · rw [walk, hdir]
    exact if_pos hlong

/-- A directory that may not be entered cannot be gone through. -/
theorem FileTree.find_of_locked {t : FileTree} {first : String} {rest : List String}
    (hdir : t.at? t.workdir = some .directory)
    (hpath : (Path.mk .here (first :: rest)).text.utf8ByteSize ≤ maxPathBytes)
    (hup : first ≠ "..") (hshort : first.utf8ByteSize ≤ maxNameBytes) (hrest : rest ≠ [])
    (hlocked : t.at? (t.workdir ++ [first]) = some .lockedDirectory) :
    t.find ⟨.here, first :: rest⟩ = .error .forbidden := by
  have hfrom : (if (Path.mk .here (first :: rest)).isAbsolute then [] else t.workdir) =
      t.workdir := rfl
  rw [find, if_neg (Nat.not_lt_of_le hpath), hfrom, walk, hdir]
  dsimp only
  rw [if_neg (Nat.not_lt_of_le hshort), if_neg hup]
  cases rest with
  | nil => exact absurd rfl hrest
  | cons name rest => rw [walk, hlocked]

/-- Loading a file whose search comes to an end, with calls enough to parse it, reports why there is
nothing to evaluate and gives that as an error, unless the file has been parsed. -/
theorem Form.loadFile_of_canSeek {host : Host} {name : String} {ev : Evaluator}
    (h : host.CanSeek name)
    (hcalls : ∀ source, host.sourceOf name = some source → ev.allows (.parsing source) = true) :
    (∃ e reason, host.opening name = .refused e reason ∧ ∀ env m,
      loadFile host ev env name m =
        .ok (Failure.notLoaded name reason).toValue { m with events := m.events.push e }) ∨
    (∃ path f, host.opening name = .unread path f) ∨
    ∃ path forms, host.opening name = .ready path forms := by
  cases hopen : host.opening name with
  | stopped f => exact absurd h (Host.not_canSeek_iff.mpr ⟨f, hopen⟩)
  | refused e reason =>
    refine Or.inl ⟨e, reason, rfl, fun env m => ?_⟩
    have hwalk : ev.walk (parseWalks (host.sourceOf name)) = pure () := by
      refine Evaluator.walk_of_allows fun w hw => ?_
      obtain ⟨source, hsource, rfl⟩ := List.mem_map.mp hw
      exact hcalls source (Option.mem_toList.mp hsource)
    rw [loadFile_eq, hopen, hwalk]
    rfl
  | unread path f => exact Or.inr (Or.inl ⟨path, f, rfl⟩)
  | ready path forms => exact Or.inr (Or.inr ⟨path, forms, rfl⟩)

/-! ## 3. What stops a program -/

/-- **Only depth, file names and numerals stop a program.**

* What stops a call is a fault of its own, or has stopped one of the evaluations that the call
  makes; loading may also lack the calls to go through a text.  Only `load`, `read` and `int` have
  faults of their own, and these do stop, with everything bound and printed as before.  A load may
  lack the calls to come to its numeral.
* `load` stops on the names with which the search cannot come to an end, and on those of files that
  can be parsed and hold a numeral with too many digits.  With any other name it gives an error if
  there is nothing to evaluate.
* The search cannot come to an end with the null character in the name, with a name whose first part
  is too long, and with one that leads into a directory that may not be entered.
* `read` stops on the names with the null character.  With any other name it gives a text or an
  error.
* `int` stops on the texts of numerals with too many digits.
* Evaluation and the steps of a session are stopped for want of depth, or by such a fault. -/
theorem stopped_by_depth_name_or_numeral (host : Host) :
    (∀ (b : Builtin) ev env args m f m', b.call host ev env args m = .error f m' →
      b = .form .load ∧ f = .tooDeep ∨ b.OwnFault host args f ∨
        ∃ v ∈ b.evaluated host args, ∃ m₁, ev v env m₁ = .error f m') ∧
    (∀ (b : Builtin) args f, b.OwnFault host args f → (f.OfName ∨ f.OfNumeral) ∧
      (b = .form .load ∨ b = .form .read ∨ b = .operator .int) ∧
      ∀ ev env m, ∃ m', m'.store = m.store ∧ m'.printed = m.printed ∧
        (b.call host ev env args m = .error f m' ∨
          b = .form .load ∧ f.OfNumeral ∧ b.call host ev env args m = .error .tooDeep m')) ∧
    (∀ name, (∃ f, Builtin.OwnFault host (.form .load) [.string name] f) ↔
      ¬ host.CanSeek name ∨ ∃ path source nodes, host.resolve name = .ok path ∧
        host.files.text path = .ok source ∧ parse source = .ok nodes ∧
        (unread? source).isSome = true) ∧
    (∀ name (ev : Evaluator), host.CanSeek name →
      (∀ source, host.sourceOf name = some source → ev.allows (.parsing source) = true) →
      (∃ e reason, host.opening name = .refused e reason ∧ ∀ env m,
        (Builtin.form .load).call host ev env [.string name] m =
          .ok (.error (Failure.notLoaded name reason).message .loadFailure)
            { m with events := m.events.push e }) ∨
      (∃ path f, host.opening name = .unread path f) ∨
      ∃ path forms, host.opening name = .ready path forms) ∧
    (∀ name, '\x00' ∉ name.toList →
      ∀ first rest, Path.ofString name = ⟨.here, first :: rest⟩ →
      host.files.at? host.files.workdir = some .directory →
      (maxNameBytes < first.utf8ByteSize →
        Builtin.OwnFault host (.form .load) [.string name]
          (.unopened .nameTooLong (Path.ofString name))) ∧
      ((Path.ofString name).text.utf8ByteSize ≤ maxPathBytes → first ≠ ".." →
        first.utf8ByteSize ≤ maxNameBytes → rest ≠ [] →
        host.files.at? (host.files.workdir ++ [first]) = some .lockedDirectory →
        Builtin.OwnFault host (.form .load) [.string name]
          (.unopened .forbidden (Path.ofString name)))) ∧
    (∀ name, '\x00' ∈ name.toList →
      Builtin.OwnFault host (.form .load) [.string name] .embeddedNull ∧
      Builtin.OwnFault host (.form .read) [.string name] .embeddedNull) ∧
    (∀ name, '\x00' ∉ name.toList → ∃ v,
      (∀ ev env m, (Builtin.form .read).call host ev env [.string name] m = .ok v m) ∧
      ((∃ reason, v = .error (Failure.notLoaded name reason).message .loadFailure) ∨
        ∃ source, v = .string source)) ∧
    (∀ s n, Text.Denotes s.toList n → Text.maxDigits < Text.leadingDigits s.toList →
      Builtin.OwnFault host (.operator .int) [.string s]
        (.numeral (.tooLong (Text.leadingDigits s.toList)))) ∧
    (∀ depth v env m f m', evaluate host depth v env m = .error f m' →
      f = .tooDeep ∨ f.OfName ∨ f.OfNumeral) ∧
    ∀ root depth s m f m', Interpreter.perform ⟨host, root, depth⟩ s m = .error f m' →
      f = .tooDeep ∨ f.OfName ∨ f.OfNumeral := by
  have hev (depth : Nat) :
      EvaluatorFollows host .any (fun _ => True) (evaluate host depth) (evaluate host depth) :=
    evaluate_follows_self ..
  refine ⟨fun b ev env args m f m' => Builtin.call_eq_error, ?_, fun name => ?_,
    fun name ev hseek hcalls => Form.loadFile_of_canSeek hseek hcalls, ?_, ?_, ?_, ?_,
    fun depth v env => ((hev depth).eval v env).faults, ?_⟩
  · intro b args f hown
    refine ⟨hown.ofName_or_ofNumeral, ?_, hown.stops⟩
    cases hown with
    | load | unread => exact Or.inl rfl
    | read => exact Or.inr (Or.inl rfl)
    | int => exact Or.inr (Or.inr rfl)
  · rw [Builtin.exists_ownFault_load_iff, Host.exists_unread_iff]
  · intro name hnull first rest hname hdir
    have hown {f : OpenFault} (hfind : host.files.find (Path.ofString name) = .error f)
        (hends : f.EndsSearch) : Builtin.OwnFault host (.form .load) [.string name]
          (.unopened f (Path.ofString name)) :=
      .load (Host.opening_of_resolve_error
        (Host.resolve_of_find_error hnull (by rw [hname]) hfind hends))
    refine ⟨fun hlong => hown ?_ .nameTooLong, fun hpath hup hshort hrest hlocked =>
      hown ?_ .forbidden⟩
    · rw [hname]
      exact FileTree.find_of_longName hdir hlong
    · rw [hname] at hpath ⊢
      exact FileTree.find_of_locked hdir hpath hup hshort hrest hlocked
  · exact fun name hnull => ⟨.load (Host.opening_of_null hnull), .read hnull⟩
  · intro name hnull
    obtain ⟨v, hread, hv⟩ := Form.readFile_eq_pure host hnull
    refine ⟨v, fun ev env m => ?_, hv.imp_right fun ⟨_, source, _, _, hv⟩ => ⟨source, hv⟩⟩
    rw [Builtin.call_read, hread]
    rfl
  · exact fun s n hn hlong => .int (Texts.unread?_eq_some_iff.mpr ⟨⟨n, hn⟩, hlong, rfl⟩)
  · intro root depth s m f m' h
    rw [Interpreter.perform_eq_performWith] at h
    exact (Interpreter.performWith_follows (.refl host) (hev depth) root s
      (fun _ _ _ _ => trivial)).faults m f m' h

/-- A name that is nowhere is no reason to stop. -/
theorem stopped_by_depth_name_or_numeral_missing :
    Host.bare.CanSeek "z" ∧
    ∀ m : Machine, m.outcome ((Builtin.form .load).call .bare (evaluate .bare 2) 0 [.string "z"]) =
      .ok (.error "could not load library 'z': No such file or directory" .loadFailure) := by
  have hseek : Host.bare.CanSeek "z" :=
    ⟨by decide, ⟨.here, ["z"]⟩, by decide +kernel⟩
  have hopen : Host.bare.opening "z" =
      .refused (.unopened ⟨.here, ["z"]⟩ .missing) (.unopened .missing) := by
    with_unfolding_all rfl
  have hsource : Host.bare.sourceOf "z" = none := by
    decide +kernel
  obtain ⟨-, -, -, hload, -⟩ := stopped_by_depth_name_or_numeral .bare
  refine ⟨hseek, fun m => ?_⟩
  rcases hload "z" (evaluate .bare 2) hseek (by rw [hsource]; exact nofun) with
    ⟨e, reason, hrefused, hcall⟩ | ⟨path, f, hunread⟩ | ⟨path, forms, hready⟩
  · rw [hopen] at hrefused
    cases hrefused
    exact Machine.outcome_eq_of_ok (hcall ..)
  · rw [hopen] at hunread
    cases hunread
  · rw [hopen] at hready
    cases hready

/-- Loading stops on a name of 256 letters, for which reading gives an error.  Both stop on a name
with the null character, and `int` stops on one digit too many. -/
theorem load_stops_on_long_name :
    let long := String.ofList (List.replicate 256 'x')
    let run (b : Builtin) (text : String) :=
      (Machine.fresh false).outcome (b.call .bare (evaluate .bare 2) 0 [.string text])
    run (.form .load) long = .error (.unopened .nameTooLong ⟨.here, [long]⟩) ∧
    run (.form .read) long =
      .ok (Failure.notLoaded long (.unopened .nameTooLong)).toValue ∧
    run (.form .load) "a\x00b" = .error .embeddedNull ∧
    run (.form .read) "a\x00b" = .error .embeddedNull ∧
    run (.operator .int) (nines (Text.maxDigits + 1)) =
      .error (.numeral (.tooLong (Text.maxDigits + 1))) := by
  intro long run
  have hmem : ∀ c, c ≠ 'x' → c ∉ long.toList := by
    intro c hc h
    rw [String.toList_ofList] at h
    exact hc (List.eq_of_mem_replicate h)
  have hpath : Path.ofString long = ⟨.here, [long]⟩ := by
    refine Path.ofString_of_isName (hmem '/' (by decide)) ?_
    rw [String.toList_ofList]
    decide
  have hres : Host.bare.resolve long = .error (.nameTooLong, ⟨.here, [long]⟩) := by
    rw [← hpath]
    refine Host.resolve_of_find_error (hmem _ (by decide)) (by rw [hpath]) ?_ .nameTooLong
    rw [hpath]
    exact FileTree.find_of_longName rfl (by decide +kernel)
  have hnull : '\x00' ∈ "a\x00b".toList := by decide
  have hload {name : String} {f : Fault} (hopen : Host.bare.opening name = .stopped f) :
      run (.form .load) name = .error f :=
    Machine.outcome_eq_of_error (congrFun (Form.loadFile_of_stopped hopen) (.fresh false))
  have hread : (Builtin.form .read).call .bare (evaluate .bare 2) 0 [.string long] =
      pure (Failure.notLoaded long (.unopened .nameTooLong)).toValue := by
    rw [Builtin.call_read, Form.readFile_of_resolve_error hres]
  have hreadNull : (Builtin.form .read).call .bare (evaluate .bare 2) 0 [.string "a\x00b"] =
      Machine.stop .embeddedNull := by
    rw [Builtin.call_read, Form.readFile_of_null hnull]
  have hint : (Builtin.operator .int).call .bare (evaluate .bare 2) 0
      [.string (nines (Text.maxDigits + 1))] =
      Machine.stop (.numeral (.tooLong (Text.maxDigits + 1))) := by
    rw [Builtin.call, Operator.fault?_nines]
  exact ⟨hload (Host.opening_of_resolve_error hres),
    Machine.outcome_eq_of_ok (congrFun hread (.fresh false)), hload (Host.opening_of_null hnull),
    Machine.outcome_eq_of_error (congrFun hreadNull (.fresh false)),
    Machine.outcome_eq_of_error (congrFun hint (.fresh false))⟩

end CurryLisp

/-
# What a file name comes to

Before a file is loaded it is looked for, opened, decoded, parsed and read, and nothing is evaluated
until all of that is done.  How it ends is settled by the surroundings and the name alone, as long as
there are calls enough to parse and to read the file: `Host.opening` is that outcome, and loading
acts on it (`loadFile_eq`).

Opening stops in three cases only: the name holds the null character, the search does not come to an
end because a name on the way is too long or a directory may not be entered
(`Host.opening_eq_stopped`), or the file holds a numeral with too many digits for the host
(`Host.opening_eq_unread`).  Every other trouble with a file is an answer.

* `Path.holdsNull_ofString`: where a null character in a name ends up;
* `Host.resolve_of_null`, `Host.holdsNull_of_resolve`: the search neither loses it nor adds one;
* `Host.opening_eq_ready`: the forms that are ready are those of the text of the file;
* `Form.readFile_of_null`, `Form.readFile_eq_pure`: what reading a file comes to.
-/
import CurryLisp.Interpreter
import CurryLisp.Proofs.Reading

namespace CurryLisp

/-! ## 1. The null character in a path -/

namespace Path

theorem splitSlashes_ne_nil (cs : List Char) : splitSlashes cs ≠ [] := by
  cases cs with
  | nil => exact nofun
  | cons c rest =>
    rw [splitSlashes]
    split
    · exact nofun
    · split <;> exact nofun

/-- Cutting at slashes drops nothing but slashes. -/
theorem mem_splitSlashes {c : Char} (hc : c ≠ '/') {cs : List Char} :
    (∃ w ∈ splitSlashes cs, c ∈ w) ↔ c ∈ cs := by
  induction cs with
  | nil => simp [splitSlashes]
  | cons d rest ih =>
    rw [List.mem_cons, ← ih, splitSlashes]
    split
    · next hd =>
      have hcd : ¬ c = d := hd ▸ hc
      simp [hcd]
    · split
      · next hnil => exact absurd hnil (splitSlashes_ne_nil rest)
      · next w ws hsplit =>
        rw [hsplit]
        simp only [List.mem_cons, exists_eq_or_imp, or_assoc]

theorem splitSlashes_of_not_mem {cs : List Char} (h : '/' ∉ cs) : splitSlashes cs = [cs] := by
  induction cs with
  | nil => rfl
  | cons c rest ih =>
    obtain ⟨hc, hrest⟩ := not_or.mp (mt List.mem_cons.mpr h)
    rw [splitSlashes, if_neg fun e => hc e.symm, ih hrest]

/-- A name without slashes is a path of one part. -/
theorem ofString_of_isName {name : String} (hslash : '/' ∉ name.toList)
    (hname : isName name.toList = true) : ofString name = ⟨.here, [name]⟩ := by
  have hstart : Start.ofChars name.toList = .here := by
    have hnone : name.toList.takeWhile (· == '/') = [] := by
      cases hcs : name.toList with
      | nil => rfl
      | cons c rest =>
        rw [hcs] at hslash
        have hc : ¬ (c == '/') = true := fun e => hslash (by simp [eq_of_beq e])
        exact List.takeWhile_cons_of_neg hc
    rw [Start.ofChars, hnone]
    rfl
  have hfilter : [name.toList].filter isName = [name.toList] := List.filter_cons_of_pos hname
  rw [ofString, splitSlashes_of_not_mem hslash, hstart, hfilter, List.map_singleton,
    String.ofList_toList]

theorem holdsNull_ofString {s : String} :
    (ofString s).holdsNull = true ↔ '\x00' ∈ s.toList := by
  rw [← mem_splitSlashes (show '\x00' ≠ '/' by decide), holdsNull, ofString]
  simp only [List.any_map, List.any_filter, List.any_eq_true, Function.comp_apply,
    String.toList_ofList, List.contains_iff_mem, Bool.and_eq_true]
  refine exists_congr fun w => and_congr_right fun _ => and_iff_right_of_imp fun hw => ?_
  -- A piece with a null character is neither empty nor a single dot.
  rw [isName, Bool.not_eq_true', Bool.or_eq_false_iff]
  constructor
  · exact beq_eq_false_iff_ne.mpr (List.ne_nil_of_mem hw)
  · refine beq_eq_false_iff_ne.mpr ?_
    rintro rfl
    exact absurd (List.mem_singleton.mp hw) (by decide)

theorem holdsNull_under {dir p : Path} (hp : p.isAbsolute = false) :
    (dir.under p).holdsNull = (dir.holdsNull || p.holdsNull) := by
  rw [under, if_neg (Bool.eq_false_iff.mp hp), holdsNull, List.any_append, holdsNull, holdsNull]

end Path

/-! ## 2. Looking for a file -/

/-- The reasons for which looking for a file fails. -/
inductive OpenFault.EndsSearch : OpenFault → Prop
  | forbidden : EndsSearch .forbidden
  | nameTooLong : EndsSearch .nameTooLong

namespace FileTree

variable {t : FileTree} {p : Path}

/-- That something is a directory is no reason not to get there. -/
theorem walk_ne_isDirectory {place names : List String} :
    t.walk place names ≠ .error .isDirectory := by
  fun_induction FileTree.walk t place names with
  | case8 _ _ _ _ ih | case9 _ _ _ _ _ _ ih => exact ih
  | case1 | case2 | case3 | case4 | case5 | case6 | case7 => exact nofun

theorem holds_of_holdsNull (h : p.holdsNull = true) : t.holds p = .ok false := by
  rw [holds, if_pos h]

theorem holdsNull_of_holds (h : t.holds p = .ok true) : p.holdsNull = false := by
  cases hp : p.holdsNull with
  | false => rfl
  | true =>
    rw [holds_of_holdsNull hp] at h
    cases h

/-- Looking whether something is there fails where a name is too long or a directory may not be
entered, and for no other reason. -/
theorem endsSearch_of_holds {f : OpenFault} (h : t.holds p = .error f) : f.EndsSearch := by
  unfold holds at h
  split at h
  · cases h
  · split at h
    · cases h
    · next hfind =>
      split at h
      · cases h
      · next hpresent =>
        cases h
        cases f with
        | missing | notDirectory => exact absurd rfl hpresent
        | forbidden => exact .forbidden
        | nameTooLong => exact .nameTooLong
        | isDirectory =>
          unfold find at hfind
          split at hfind
          · cases hfind
          · exact absurd hfind walk_ne_isDirectory

theorem text_eq_embeddedNull_iff : t.text p = .error .embeddedNull ↔ p.holdsNull = true := by
  unfold text
  constructor
  · intro h
    split at h
    · assumption
    · split at h
      · cases h
      · split at h <;> cases h
  · exact fun h => if_pos h

end FileTree

namespace Host

variable {h : Host} {p : Path} {name : String}

theorem endsSearch_of_firstHolding {dirs : List Path} {f : OpenFault} {path : Path}
    (hfirst : h.firstHolding p dirs = .error (f, path)) : f.EndsSearch := by
  induction dirs with
  | nil => cases hfirst
  | cons dir rest ih =>
    unfold firstHolding at hfirst
    split at hfirst
    · next hholds =>
      cases hfirst
      exact FileTree.endsSearch_of_holds hholds
    · cases hfirst
    · exact ih hfirst

/-- What is found is there, under one of the directories that were searched. -/
theorem holds_of_firstHolding {dirs : List Path} {q : Path}
    (hfirst : h.firstHolding p dirs = .ok (some q)) :
    (∃ dir ∈ dirs, q = dir.under p) ∧ h.files.holds q = .ok true := by
  induction dirs with
  | nil => cases hfirst
  | cons dir rest ih =>
    unfold firstHolding at hfirst
    split at hfirst
    · cases hfirst
    · next hholds =>
      cases hfirst
      exact ⟨⟨dir, List.mem_cons_self, rfl⟩, hholds⟩
    · obtain ⟨⟨d, hd, hq⟩, hholds⟩ := ih hfirst
      exact ⟨⟨d, List.mem_cons_of_mem _ hd, hq⟩, hholds⟩

/-- No directory holds a name with the null character. -/
theorem firstHolding_of_holdsNull (hp : p.isAbsolute = false) (hnull : p.holdsNull = true)
    (dirs : List Path) : h.firstHolding p dirs = .ok none := by
  induction dirs with
  | nil => rfl
  | cons dir rest ih =>
    have hunder : (dir.under p).holdsNull = true := by
      rw [Path.holdsNull_under hp, hnull, Bool.or_true]
    rw [firstHolding, FileTree.holds_of_holdsNull hunder]
    exact ih

/-- The search fails where a name is too long or a directory may not be entered, and for no other
reason. -/
theorem endsSearch_of_resolve {f : OpenFault} {path : Path}
    (hres : h.resolve name = .error (f, path)) : f.EndsSearch := by
  unfold resolve at hres
  dsimp only at hres
  split at hres
  · cases hres
  · split at hres
    · next hholds =>
      cases hres
      exact FileTree.endsSearch_of_holds hholds
    · cases hres
    · split at hres
      · next hfirst =>
        cases hres
        exact endsSearch_of_firstHolding hfirst
      · cases hres

/-- A name with the null character is found nowhere and stays as it is. -/
theorem resolve_of_null (hnull : '\x00' ∈ name.toList) :
    h.resolve name = .ok (Path.ofString name) := by
  have hp := Path.holdsNull_ofString.mpr hnull
  unfold resolve
  dsimp only
  split
  · rfl
  · next habs =>
    rw [FileTree.holds_of_holdsNull hp,
      firstHolding_of_holdsNull (Bool.eq_false_iff.mpr habs) hp]
    rfl

/-- A name without the null character stands for a path without it. -/
theorem holdsNull_of_resolve {path : Path} (hnull : '\x00' ∉ name.toList)
    (hres : h.resolve name = .ok path) : path.holdsNull = false := by
  have hp : (Path.ofString name).holdsNull = false :=
    Bool.eq_false_iff.mpr (mt Path.holdsNull_ofString.mp hnull)
  unfold resolve at hres
  dsimp only at hres
  split at hres
  · cases hres
    exact hp
  · split at hres
    · cases hres
    · cases hres
      exact hp
    · split at hres
      · cases hres
      · next found hfirst =>
        cases hres
        cases found with
        | none => exact hp
        | some q => exact FileTree.holdsNull_of_holds (holds_of_firstHolding hfirst).2

end Host

/-! ## 3. Opening a file -/

/-- What a file name comes to, before anything is evaluated. -/
inductive Opening
  /-- opening stops -/
  | stopped (f : Fault)
  /-- there is nothing that can be evaluated, which is reported -/
  | refused (e : Event) (reason : LoadFault)
  /-- the file has been parsed to its end, but the host does not read one of its numerals -/
  | unread (path : Path) (f : NodeFault)
  /-- the file has been read to its end -/
  | ready (path : Path) (forms : List Value)

/-- Looks for a file, opens it, decodes it, parses it and reads it. -/
def Host.opening (h : Host) (name : String) : Opening :=
  match h.resolve name with
  | .error (f, path) => .stopped (.unopened f path)
  | .ok path =>
    match h.files.text path with
    | .error .embeddedNull => .stopped .embeddedNull
    | .error (.unopened f) => .refused (.unopened path f) (.unopened f)
    | .error (.undecodable f) => .refused (.undecodable path f) (.undecodable f)
    | .ok source =>
      match parse source with
      | .error f => .refused (.malformed path f) (.malformed path.text f)
      | .ok nodes =>
        match Value.ofNodes nodes with
        | .error f => .unread path f
        | .ok forms => .ready path forms

/-- The text that a file name leads to, if it leads to one. -/
def Host.sourceOf (h : Host) (name : String) : Option String :=
  match h.resolve name with
  | .error _ => none
  | .ok path => (h.files.text path).toOption

/-- What is gone through to parse a text that there may be. -/
def parseWalks (source : Option String) : List Walk := source.toList.map .parsing

/-- What is gone through to read a text that there may be, if it can be parsed. -/
def readWalks (source : Option String) : List Walk :=
  match source.map parse with
  | some (.ok nodes) => [.reading nodes]
  | _ => []

/-- The faults that are about the name of a file. -/
inductive Fault.OfName : Fault → Prop
  | embeddedNull : OfName .embeddedNull
  | unsought {f : OpenFault} (path : Path) : f.EndsSearch → OfName (.unopened f path)

/-- The faults that are about a numeral with too many digits for the host. -/
inductive Fault.OfNumeral : Fault → Prop
  | node {digits : Nat} : Text.maxDigits < digits → OfNumeral (.node (.badNumeral (.tooLong digits)))
  | text {digits : Nat} : Text.maxDigits < digits → OfNumeral (.numeral (.tooLong digits))

theorem Fault.OfNumeral.of_unread? {source : String} {f : NodeFault}
    (h : unread? source = some f) : (Fault.node f).OfNumeral := by
  obtain ⟨t, -, hlong, rfl⟩ := exists_tooLong_of_unread? h
  exact .node (of_decide_eq_true (Bool.and_eq_true_iff.mp hlong).2)

/-- The search for a file can come to an end: its name does not hold the null character, no name on
the way is too long, and no directory on the way may not be entered. -/
def Host.CanSeek (h : Host) (name : String) : Prop :=
  '\x00' ∉ name.toList ∧ ∃ path, h.resolve name = .ok path

section Opening

variable {h : Host} {name : String}

theorem Host.opening_of_null (hnull : '\x00' ∈ name.toList) :
    h.opening name = .stopped .embeddedNull := by
  have htext : h.files.text (Path.ofString name) = .error .embeddedNull :=
    FileTree.text_eq_embeddedNull_iff.mpr (Path.holdsNull_ofString.mpr hnull)
  rw [opening, resolve_of_null hnull]
  dsimp only
  rw [htext]

theorem Host.opening_of_resolve_error {f : OpenFault} {path : Path}
    (hres : h.resolve name = .error (f, path)) : h.opening name = .stopped (.unopened f path) := by
  rw [opening, hres]

/-- **Opening stops on a bad name**, and for no other reason before the file has been parsed. -/
theorem Host.opening_eq_stopped {f : Fault} (hopen : h.opening name = .stopped f) :
    ('\x00' ∈ name.toList ∧ f = .embeddedNull) ∨
      ∃ reason path, h.resolve name = .error (reason, path) ∧ reason.EndsSearch ∧
        f = .unopened reason path := by
  unfold opening at hopen
  split at hopen
  · next reason path hres =>
    cases hopen
    exact Or.inr ⟨reason, path, hres, endsSearch_of_resolve hres, rfl⟩
  · next path hres =>
    split at hopen
    · next htext =>
      cases hopen
      refine Or.inl ⟨Classical.byContradiction fun hnull => ?_, rfl⟩
      have hpath := FileTree.text_eq_embeddedNull_iff.mp htext
      rw [holdsNull_of_resolve hnull hres] at hpath
      cases hpath
    · cases hopen
    · cases hopen
    · split at hopen
      · cases hopen
      · split at hopen <;> cases hopen

/-- What could be parsed and is not read holds a numeral with too many digits. -/
theorem Host.opening_eq_unread {path : Path} {f : NodeFault} (hopen : h.opening name = .unread path f) :
    ∃ source nodes, h.resolve name = .ok path ∧ h.files.text path = .ok source ∧
      parse source = .ok nodes ∧ Value.ofNodes nodes = .error f ∧ unread? source = some f := by
  unfold opening at hopen
  split at hopen
  · cases hopen
  · next p hres =>
    split at hopen
    · cases hopen
    · cases hopen
    · cases hopen
    · next source htext =>
      split at hopen
      · cases hopen
      · next nodes hnodes =>
        split at hopen
        · next fault hfault =>
          cases hopen
          exact ⟨source, nodes, hres, htext, hnodes, hfault,
            unread?_of_ofNodes_eq_error hnodes hfault⟩
        · cases hopen

/-- A file is not read just when it could be parsed and holds a numeral with too many digits. -/
theorem Host.exists_unread_iff :
    (∃ path f, h.opening name = .unread path f) ↔
      ∃ path source nodes, h.resolve name = .ok path ∧ h.files.text path = .ok source ∧
        parse source = .ok nodes ∧ (unread? source).isSome = true := by
  constructor
  · rintro ⟨path, f, hopen⟩
    obtain ⟨source, nodes, hres, htext, hnodes, -, hfault⟩ := opening_eq_unread hopen
    exact ⟨path, source, nodes, hres, htext, hnodes, by rw [hfault]; rfl⟩
  · rintro ⟨path, source, nodes, hres, htext, hnodes, hsome⟩
    obtain ⟨f, hfault⟩ := Option.isSome_iff_exists.mp hsome
    refine ⟨path, f, ?_⟩
    have hforms : Value.ofNodes nodes = .error f := ofNodes_of_unread hnodes hfault
    simp only [opening, hres, htext, hnodes, hforms]

/-- **What is ready to be evaluated was read from the file**, and parsed to its end. -/
theorem Host.opening_eq_ready {path : Path} {forms : List Value} :
    h.opening name = .ready path forms ↔
      ∃ source nodes, h.resolve name = .ok path ∧ h.files.text path = .ok source ∧
        parse source = .ok nodes ∧ Value.ofNodes nodes = .ok forms := by
  constructor
  · intro hopen
    unfold opening at hopen
    split at hopen
    · cases hopen
    · next p hres =>
      split at hopen
      · cases hopen
      · cases hopen
      · cases hopen
      · next source htext =>
        split at hopen
        · cases hopen
        · next nodes hnodes =>
          split at hopen
          · cases hopen
          · next vs hforms =>
            cases hopen
            exact ⟨source, nodes, hres, htext, hnodes, hforms⟩
  · rintro ⟨source, nodes, hres, htext, hnodes, hforms⟩
    simp only [opening, hres, htext, hnodes, hforms]

/-- What opening stops with is about the name. -/
theorem Host.ofName_of_opening {f : Fault} (hopen : h.opening name = .stopped f) : f.OfName := by
  rcases opening_eq_stopped hopen with ⟨-, rfl⟩ | ⟨reason, path, -, hends, rfl⟩
  · exact .embeddedNull
  · exact .unsought path hends

/-- What keeps a file from being read is about a numeral. -/
theorem Host.ofNumeral_of_opening {path : Path} {f : NodeFault}
    (hopen : h.opening name = .unread path f) : (Fault.node f).OfNumeral := by
  obtain ⟨source, -, -, -, -, -, hfault⟩ := opening_eq_unread hopen
  exact .of_unread? hfault

theorem Host.sourceOf_of_text {path : Path} {source : String} (hres : h.resolve name = .ok path)
    (htext : h.files.text path = .ok source) : h.sourceOf name = some source := by
  rw [sourceOf, hres]
  dsimp only
  rw [htext]
  rfl

/-- There is no text behind a name that opening stops on. -/
theorem Host.sourceOf_of_stopped {f : Fault} (hopen : h.opening name = .stopped f) :
    h.sourceOf name = none := by
  rcases opening_eq_stopped hopen with ⟨hnull, -⟩ | ⟨reason, path, hres, -⟩
  · rw [sourceOf, resolve_of_null hnull]
    dsimp only
    rw [FileTree.text_eq_embeddedNull_iff.mpr (Path.holdsNull_ofString.mpr hnull)]
    rfl
  · rw [sourceOf, hres]

/-- Opening stops just when the search cannot come to an end. -/
theorem Host.not_canSeek_iff :
    ¬ h.CanSeek name ↔ ∃ f, h.opening name = .stopped f := by
  constructor
  · intro hseek
    by_cases hnull : '\x00' ∈ name.toList
    · exact ⟨_, opening_of_null hnull⟩
    · cases hres : h.resolve name with
      | ok path => exact absurd ⟨hnull, path, hres⟩ hseek
      | error e => exact ⟨_, opening_of_resolve_error hres⟩
  · rintro ⟨f, hopen⟩ ⟨hnull, path, hres⟩
    rcases opening_eq_stopped hopen with ⟨hnull', -⟩ | ⟨_, path', hres', -⟩
    · exact hnull hnull'
    · rw [hres] at hres'
      cases hres'

end Opening

/-! ## 4. Loading and reading -/

namespace Form

variable {host : Host} {ev : Evaluator} {env : FrameId} {name : String}

/-- **Loading a file acts on what its name has come to.**  It also stops if there are not calls enough
to parse its text, or to read it. -/
theorem loadFile_eq : loadFile host ev env name = do
    ev.walk (parseWalks (host.sourceOf name))
    match host.opening name with
    | .stopped f => Machine.stop f
    | .refused e reason => do
      Machine.note e
      return (Failure.notLoaded name reason).toValue
    | .unread path f => do
      Machine.note (.loading path)
      ev.walk (readWalks (host.sourceOf name))
      Machine.stop (.node f)
    | .ready path forms => do
      Machine.note (.loading path)
      ev.walk (readWalks (host.sourceOf name))
      runPrinting ev env forms
      return .unit := by
  rw [loadFile, Host.opening, Host.sourceOf]
  cases host.resolve name with
  | error e => rfl
  | ok path =>
    dsimp only
    cases host.files.text path with
    | error f => cases f <;> rfl
    | ok source =>
      dsimp only [loadText, Except.toOption, parseWalks, readWalks, Option.toList, Option.map]
      cases hparse : parse source with
      | error f => rfl
      | ok nodes =>
        dsimp only [formsOf, List.map]
        cases hread : Value.ofNodes nodes with
        | error f =>
          simp only [bind_assoc, valuesOf_eq_stop hread]
          rfl
        | ok forms => simp only [bind_assoc, valuesOf_eq_pure hread, pure_bind]

/-- Loading stops where opening does. -/
theorem loadFile_of_stopped {f : Fault} (hopen : host.opening name = .stopped f) :
    loadFile host ev env name = Machine.stop f := by
  rw [loadFile_eq, hopen, Host.sourceOf_of_stopped hopen]
  rfl

section Parsed

variable {path : Path} {text : String} {nodes : List Node} (hres : host.resolve name = .ok path)
  (htext : host.files.text path = .ok text) (hparse : parse text = .ok nodes)

include hres htext hparse

theorem loadFile_of_parse : loadFile host ev env name = do
    ev.walk [.parsing text]
    Machine.note (.loading path)
    runPrinting ev env (← formsOf ev nodes)
    return .unit := by
  rw [loadFile, hres]
  dsimp only
  rw [htext]
  dsimp only
  rw [loadText, hparse]

/-- The forms of a file are evaluated if there are calls enough to come to them. -/
theorem loadFile_of_takes (htakes : ev.Takes text) :
    loadFile host ev env name = do
      Machine.note (.loading path)
      runPrinting ev env (← valuesOf nodes)
      return .unit := by
  rw [loadFile_of_parse hres htext hparse, Evaluator.walk_single htakes.1, formsOf,
    Evaluator.walk_single (htakes.2 nodes hparse)]
  rfl

/-- Without calls enough loading stops before the first form. -/
theorem loadFile_of_not_takes (htakes : ¬ ev.Takes text) (m : Machine) :
    ∃ events, loadFile host ev env name m = .error .tooDeep { m with events := events } := by
  rw [loadFile_of_parse hres htext hparse]
  rcases ev.walk_cases [.parsing text] with ⟨hparsing, hwalk⟩ | hwalk
  · rw [hwalk, formsOf]
    rcases ev.walk_cases [.reading nodes] with ⟨hreading, -⟩ | hwalk'
    · exact absurd (Evaluator.takes_of_parse hparse (hparsing _ List.mem_cons_self)
        (hreading _ List.mem_cons_self)) htakes
    · rw [hwalk']
      exact ⟨m.events.push (.loading path), rfl⟩
  · rw [hwalk]
    exact ⟨m.events, rfl⟩

/-- A numeral with too many digits stops loading before the first form. -/
theorem loadFile_of_unread (htakes : ev.Takes text) {f : NodeFault}
    (hfault : unread? text = some f) (m : Machine) :
    loadFile host ev env name m =
      .error (.node f) { m with events := m.events.push (.loading path) } := by
  rw [loadFile_of_takes hres htext hparse htakes, valuesOf_eq_stop (ofNodes_of_unread hparse hfault)]
  rfl

end Parsed

/-- Reading a file whose name holds the null character stops. -/
theorem readFile_of_null (hnull : '\x00' ∈ name.toList) :
    readFile host name = Machine.stop .embeddedNull := by
  have htext : host.files.text (Path.ofString name) = .error .embeddedNull :=
    FileTree.text_eq_embeddedNull_iff.mpr (Path.holdsNull_ofString.mpr hnull)
  rw [readFile, Host.resolve_of_null hnull]
  dsimp only
  rw [htext]

/-- A search that fails is an error for reading. -/
theorem readFile_of_resolve_error {f : OpenFault} {path : Path}
    (hres : host.resolve name = .error (f, path)) :
    readFile host name = pure (Failure.notLoaded name (.unopened f)).toValue := by
  rw [readFile, hres]

/-- Reading any other file gives its text, or an error that says why there is none. -/
theorem readFile_eq_pure (host : Host) (hnull : '\x00' ∉ name.toList) :
    ∃ v, readFile host name = pure v ∧
      ((∃ reason, v = (Failure.notLoaded name reason).toValue) ∨
        ∃ path source, host.resolve name = .ok path ∧ host.files.text path = .ok source ∧
          v = .string source) := by
  unfold readFile
  split
  · exact ⟨_, rfl, Or.inl ⟨_, rfl⟩⟩
  · next path hres =>
    split
    · next htext =>
      have hpath := FileTree.text_eq_embeddedNull_iff.mp htext
      rw [Host.holdsNull_of_resolve hnull hres] at hpath
      cases hpath
    · exact ⟨_, rfl, Or.inl ⟨_, rfl⟩⟩
    · exact ⟨_, rfl, Or.inl ⟨_, rfl⟩⟩
    · next source htext => exact ⟨_, rfl, Or.inr ⟨path, source, hres, htext, rfl⟩⟩

end Form

end CurryLisp

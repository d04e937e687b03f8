/-
# What is read from a text

Whatever is read from a text is made of the tokens of the text: numbers in range, texts, errors,
lists, and the symbols that stand in it.  So what asks nothing of the others holds of everything
inside the forms of a text as soon as it holds of its symbols (`Value.all_of_parse`).

Not every tree has a value.  The tree of a text has one unless the text holds a numeral with too many
digits for the host, and then reading stops at the first of them (`ofNodes_of_parse`).  Such a
numeral is a text by itself: `nines` are the ones that examples are made with.
-/
import CurryLisp.Proofs.Checks
import CurryLisp.Proofs.Grammar

namespace CurryLisp

/-! ## 1. Trees -/

namespace Value

variable {p : Value → Prop}

mutual

/-- A value that is read from a tree holds no function, and no symbol but those of the tree. -/
theorem ofNode_all (hp : PlainInRange p) :
    ∀ {n : Node} {v : Value}, (∀ k ∈ n.flatten, k.kind = .symbol → p (.symbol k.text)) →
      ofNode n = .ok v → v.All p
  | ⟨.number, contents, _, _⟩, v, _, h => by
    rw [ofNode, numberOf] at h
    split at h
    · cases h
    · cases h
      split
      · next hn => exact hp.all_number hn
      · exact hp.all_failure _
  | ⟨.symbol, contents, _, _⟩, v, hsym, h => by
    rw [ofNode] at h
    cases h
    rw [Node.flatten] at hsym
    exact all_of_parts_nil rfl (hsym _ List.mem_cons_self rfl)
  | ⟨.string, contents, _, _⟩, v, _, h => by
    rw [ofNode, stringOf] at h
    cases h
    exact hp.all_string _
  | ⟨.sexpr, _, children, _⟩, v, hsym, h => by
    rw [ofNode] at h
    obtain ⟨cells, hn, rfl⟩ := map_eq_ok.mp h
    rw [Node.flatten] at hsym
    exact hp.all_form (ofNodes_all hp (fun k hk => hsym k (by simp [Mark.enclose, hk])) hn)
  | ⟨.qexpr, _, children, _⟩, v, hsym, h => by
    rw [ofNode] at h
    obtain ⟨cells, hn, rfl⟩ := map_eq_ok.mp h
    rw [Node.flatten] at hsym
    exact hp.all_list (ofNodes_all hp (fun k hk => hsym k (by simp [Mark.enclose, hk])) hn)
  | ⟨.root, _, children, _⟩, v, hsym, h => by
    rw [ofNode] at h
    obtain ⟨cells, hn, rfl⟩ := map_eq_ok.mp h
    rw [Node.flatten] at hsym
    exact hp.all_form (ofNodes_all hp hsym hn)
  | ⟨.comment, _, _, _⟩, v, _, h | ⟨.other _, _, _, _⟩, v, _, h => by
    rw [ofNode] at h
    cases h

theorem ofNodes_all (hp : PlainInRange p) :
    ∀ {ns : List Node} {vs : List Value},
      (∀ k ∈ Node.flattenAll ns, k.kind = .symbol → p (.symbol k.text)) →
      ofNodes ns = .ok vs → ∀ v ∈ vs, v.All p
  | [], vs, _, h => by
    rw [ofNodes] at h
    cases h
    exact fun v hv => absurd hv List.not_mem_nil
  | n :: rest, vs, hsym, h => by
    rw [Node.flattenAll] at hsym
    have hrest : ∀ k ∈ Node.flattenAll rest, k.kind = .symbol → p (.symbol k.text) := fun k hk =>
      hsym k (List.mem_append_right _ hk)
    rw [ofNodes] at h
    split at h
    · exact ofNodes_all hp hrest h
    · split at h
      · cases h
      · next w hn =>
        obtain ⟨ws, hr, rfl⟩ := map_eq_ok.mp h
        intro v hv
        rcases List.mem_cons.mp hv with rfl | hv
        · exact ofNode_all hp (fun k hk => hsym k (List.mem_append_left _ hk)) hn
        · exact ofNodes_all hp hrest hr v hv

end

end Value

/-- What keeps the first numeral with too many digits, among some tokens, from being read. -/
def unreadOf (ts : List Token) : Option NodeFault := (ts.find? Token.isTooLong).map Token.unread

theorem unreadOf_cons {t : Token} (h : t.isTooLong = false) (ts : List Token) :
    unreadOf (t :: ts) = unreadOf ts := by
  rw [unreadOf, unreadOf, List.find?_cons_of_neg (by simp [h])]

theorem unreadOf_append (ts us : List Token) :
    unreadOf (ts ++ us) = (unreadOf ts).or (unreadOf us) := by
  rw [unreadOf, unreadOf, unreadOf, List.find?_append]
  cases ts.find? Token.isTooLong <;> rfl

/-- Trees are read as values, or reading stops with a fault. -/
def Value.ReadsOr (fault : Option NodeFault) (nodes : List Node) : Prop :=
  match fault with
  | none => ∃ vs, ofNodes nodes = .ok vs
  | some f => ofNodes nodes = .error f

/-- Reading goes on behind a tree that is read, and stops at one that is not. -/
theorem Value.ReadsOr.cons {n : Node} {rest : List Node} {fault : Option NodeFault}
    (htag : n.tag ≠ .comment) (hrest : ReadsOr fault rest) :
    ((∃ v, ofNode n = .ok v) → ReadsOr fault (n :: rest)) ∧
      ∀ f, ofNode n = .error f → ReadsOr (some f) (n :: rest) := by
  constructor
  · rintro ⟨v, hv⟩
    cases fault with
    | none =>
      obtain ⟨vs, hvs⟩ := hrest
      exact ⟨v :: vs, by rw [ofNodes, if_neg htag, hv, hvs]; rfl⟩
    | some f =>
      have hrest : ofNodes rest = .error f := hrest
      change ofNodes (n :: rest) = _
      rw [ofNodes, if_neg htag, hv, hrest]
      rfl
  · intro f hf
    change ofNodes (n :: rest) = _
    rw [ofNodes, if_neg htag, hf]

/-- **Trees that are spelled by proper tokens are read,** up to the first numeral with too many
digits. -/
theorem Spells.readsOr {nodes : List Node} {ts : List Token} (h : Spells nodes ts)
    (hproper : ∀ t ∈ ts, t.Proper) : Value.ReadsOr (unreadOf ts) nodes := by
  induction h with
  | nil => exact ⟨[], by rw [Value.ofNodes]⟩
  | @leaf t tag nodes ts htag _ ih =>
    have hrest := ih fun u hu => hproper u (List.mem_cons_of_mem _ hu)
    cases hk : t.kind with
    | opener b | closer b =>
      rw [hk] at htag
      cases htag
    | comment =>
      rw [hk] at htag
      cases htag
      have hskip : Value.ofNodes (.leaf .comment t :: nodes) = Value.ofNodes nodes := by
        rw [Value.ofNodes, Node.leaf, if_pos rfl]
      rw [unreadOf_cons (Token.isTooLong_of_kind (by simp [hk]))]
      unfold Value.ReadsOr at hrest ⊢
      rwa [hskip]
    | string | symbol =>
      rw [hk] at htag
      cases htag
      rw [unreadOf_cons (Token.isTooLong_of_kind (by simp [hk]))]
      refine (hrest.cons ?_).1 ⟨_, by rw [Node.leaf, Value.ofNode]⟩
      intro hcomment
      cases hcomment
    | number =>
      rw [hk] at htag
      cases htag
      obtain ⟨n, -, hn⟩ := ofNode_number hk (hproper t List.mem_cons_self)
      have hcons := hrest.cons (n := .leaf .number t) fun hcomment => by cases hcomment
      by_cases hlong : t.isTooLong = true
      · rw [if_pos hlong] at hn
        have hfirst : unreadOf (t :: ts) = some t.unread := by
          rw [unreadOf, List.find?_cons_of_pos hlong, Option.map_some]
        rw [hfirst]
        exact hcons.2 _ hn
      · rw [if_neg hlong] at hn
        rw [unreadOf_cons (Bool.eq_false_iff.mpr hlong)]
        exact hcons.1 ⟨_, hn⟩
  | @list b opener closer children nodes inside ts hopener hcloser _ _ ihInside ih =>
    have hinside := ihInside fun t ht => hproper t (by simp [ht])
    have hrest := ih fun t ht => hproper t (by simp [ht])
    have hcons := hrest.cons (n := .list b opener children) fun hcomment => by
      cases b <;> cases hcomment
    rw [unreadOf_cons (Token.isTooLong_of_kind (by simp [hopener])), unreadOf_append,
      unreadOf_cons (Token.isTooLong_of_kind (by simp [hcloser]))]
    cases hfault : unreadOf inside with
    | none =>
      rw [hfault] at hinside
      obtain ⟨vs, hvs⟩ := hinside
      exact hcons.1 ⟨_, Value.ofNode_list b opener hvs⟩
    | some f =>
      rw [hfault] at hinside
      have hinside : Value.ofNodes children = .error f := hinside
      refine hcons.2 f ?_
      cases b
      · rw [Node.list, Tag.ofBracket, Value.ofNode, hinside]
        rfl
      · rw [Node.list, Tag.ofBracket, Value.ofNode, hinside]
        rfl

/-! ## 2. Texts -/

section Texts

variable {source : String} {nodes : List Node}

/-- Why a text is not read: it holds a numeral with too many digits for the host. -/
def unread? (source : String) : Option NodeFault := unreadOf (lex source).tokens

/-- **A text that can be parsed is read,** up to the first numeral with too many digits. -/
theorem ofNodes_of_parse (h : parse source = .ok nodes) : Value.ReadsOr (unread? source) nodes :=
  (parse_eq_ok_iff.mp h).2.readsOr fun _ ht => proper_of_mem_lex ht

theorem exists_ofNodes_of_parse (h : parse source = .ok nodes) (hread : unread? source = none) :
    ∃ forms, Value.ofNodes nodes = .ok forms := by
  have hreads := ofNodes_of_parse h
  rwa [hread] at hreads

theorem ofNodes_of_unread (h : parse source = .ok nodes) {f : NodeFault}
    (hunread : unread? source = some f) : Value.ofNodes nodes = .error f := by
  have hreads := ofNodes_of_parse h
  rwa [hunread] at hreads

theorem unread?_of_ofNodes_eq_error (h : parse source = .ok nodes) {f : NodeFault}
    (hf : Value.ofNodes nodes = .error f) : unread? source = some f := by
  have hreads := ofNodes_of_parse h
  cases hfault : unread? source with
  | none =>
    rw [hfault] at hreads
    obtain ⟨forms, hforms⟩ := hreads
    cases hf.symm.trans hforms
  | some g =>
    rw [hfault] at hreads
    cases hf.symm.trans hreads
    rfl

/-- A text that is not read holds a numeral with too many digits. -/
theorem exists_tooLong_of_unread? {f : NodeFault} (h : unread? source = some f) :
    ∃ t ∈ (lex source).tokens, t.isTooLong = true ∧ f = t.unread := by
  obtain ⟨t, hfind, rfl⟩ := Option.map_eq_some_iff.mp h
  exact ⟨t, List.mem_of_find?_eq_some hfind, List.find?_some hfind, rfl⟩

theorem isTooLong_of_unread?_eq_none (h : unread? source = none) :
    ∀ t ∈ (lex source).tokens, t.isTooLong = false := by
  intro t ht
  exact Bool.eq_false_iff.mpr (List.find?_eq_none.mp (Option.map_eq_none_iff.mp h) t ht)

/-- **What holds of the symbols of a text holds of everything inside its forms**, if it asks nothing
of numbers in range, texts, errors and lists. -/
theorem Value.all_of_parse {p : Value → Prop} (hp : PlainInRange p) (h : parse source = .ok nodes)
    (hsym : ∀ t ∈ (lex source).tokens, t.kind = .symbol → p (.symbol t.text))
    {forms : List Value} (hforms : ofNodes nodes = .ok forms) : ∀ v ∈ forms, v.All p := by
  refine ofNodes_all hp (fun k hk => ?_) hforms
  rw [(parse_eq_ok_iff.mp h).2.flattenAll fun _ ht => proper_of_mem_lex ht] at hk
  obtain ⟨t, ht, rfl⟩ := List.mem_map.mp hk
  intro hkind
  cases htk : t.kind <;> rw [Token.mark, htk] at hkind ⊢ <;> cases hkind
  exact hsym t ht htk

end Texts

/-! ## 3. A numeral by itself -/

section Numerals

variable {s : String}

theorem lex_of_isNumeral (h : IsNumeral s) : lex s = ⟨[⟨.number, s, {}⟩], none⟩ := by
  obtain ⟨c, more, hs, hc, hstart, hmore⟩ := h.exists_cons
  have hlexeme : lexeme? s.toList = some ⟨.number, s.toList, []⟩ := by
    have hl := lexeme?_number hc (hstart []) hmore apart_nil
    rwa [List.append_nil, ← hs] at hl
  rw [lex]
  rw [hs] at hlexeme ⊢
  rw [lexFrom_lexeme _ (isBlank_of_isSymbolChar hc) hlexeme, lexFrom_nil, ← hs,
    String.ofList_toList]
  rfl

theorem parse_of_isNumeral (h : IsNumeral s) : parse s = .ok [.leaf .number ⟨.number, s, {}⟩] := by
  rw [parse_eq_ok_iff, lex_of_isNumeral h]
  exact ⟨rfl, .leaf rfl .nil⟩

/-- A numeral by itself is read unless it has too many digits. -/
theorem unread?_of_isNumeral (h : IsNumeral s) :
    unread? s = if Text.maxDigits < Text.leadingDigits s.toList
      then some (.badNumeral (.tooLong (Text.leadingDigits s.toList))) else none := by
  rw [unread?, lex_of_isNumeral h, unreadOf, List.find?_singleton, Token.isTooLong,
    decide_eq_true rfl, Bool.true_and]
  by_cases hlong : Text.maxDigits < Text.leadingDigits s.toList
  · rw [if_pos (decide_eq_true hlong), if_pos hlong]
    rfl
  · rw [if_neg (by simpa using hlong), if_neg hlong]
    rfl

/-- A numeral of so many nines. -/
def nines (count : Nat) : String := String.ofList (List.replicate count '9')

theorem isNumeral_nines (count : Nat) : IsNumeral (nines (count + 1)) := by
  refine ⟨List.replicate (count + 1) '9', List.cons_ne_nil _ _, fun d hd => ?_,
    Or.inl String.toList_ofList⟩
  rw [List.eq_of_mem_replicate hd]
  decide

theorem leadingDigits_nines (count : Nat) :
    Text.leadingDigits (nines (count + 1)).toList = count + 1 := by
  rw [leadingDigits_of_isNumeral (isNumeral_nines count), nines, String.toList_ofList,
    List.filter_replicate_of_pos (by decide), List.length_replicate]

/-- The least of these that the host does not read. -/
theorem unread?_nines :
    unread? (nines (Text.maxDigits + 1)) = some (.badNumeral (.tooLong (Text.maxDigits + 1))) := by
  rw [unread?_of_isNumeral (isNumeral_nines _), leadingDigits_nines,
    if_pos (Nat.lt_succ_self _)]

end Numerals

end CurryLisp

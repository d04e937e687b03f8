/-
# Printing and reading

A value that is built from numbers, texts, symbols and lists is printed as a text that reads as
that value and nothing else.  The numbers must be in range and the symbols must be single symbol
tokens; texts and nesting are free.

Reading is cutting, building a tree and taking the value of the tree.  `ReadsAs` says of some
characters, wherever they stand, that all three give one value, and that what follows is read as if
they had not been there.  It is shown of pieces first, then of cells that are set side by side, then
of lists; `readsAs_chars` is the induction over values.
-/
import CurryLisp.Proofs.Lexemes
import CurryLisp.Proofs.Parts
import CurryLisp.Syntax.Forest

namespace CurryLisp

/-! ## 1. Values that can be read back -/

/-- The name is a single symbol token: it is not empty, every character may stand in a symbol, and
it does not begin like a number. -/
def IsSymbolToken (name : String) : Prop :=
  ∃ c more, name.toList = c :: more ∧ startsNumber c more = false ∧
    ∀ d ∈ c :: more, isSymbolChar d = true

namespace Value

/-- What a value is like that is printed as it is written. -/
def Written : Value → Prop
  | number n => fits n = true
  | string _ | sexpr _ | qexpr _ => True
  | symbol s => IsSymbolToken s
  | error _ _ | builtin _ | lambda _ _ _ _ => False

/-- A value that is built from numbers in range, texts, symbols that are single tokens, and lists,
at any depth. -/
def Readable (v : Value) : Prop := v.All Written

end Value

/-! ## 2. Trees that are built -/

namespace Forest

/-- Finished nodes join the innermost open list. -/
theorem foldl_add_open (f : Forest) (o : OpenList) (outer : List OpenList) (nodes : List Node) :
    nodes.foldl add { f with openLists := o :: outer } =
      { f with openLists := { o with children := nodes.reverse ++ o.children } :: outer } := by
  induction nodes generalizing o with
  | nil => rfl
  | cons n rest ih =>
    rw [List.foldl_cons]
    refine (ih { o with children := n :: o.children }).trans ?_
    rw [List.reverse_cons, List.append_assoc]
    rfl

/-- A list is an opening bracket, its children and the closing bracket. -/
theorem pushAll_list {f : Forest} {b : Bracket} {opener closer : Token} {ts : List Token}
    {nodes : List Node} (hopen : opener.kind = .opener b) (hclose : closer.kind = .closer b)
    (h : ∀ g : Forest, g.pushAll ts = .ok (nodes.foldl add g)) :
    f.pushAll (opener :: (ts ++ [closer])) = .ok (f.add (.list b opener nodes)) := by
  have hpush : f.push opener = .ok { f with openLists := ⟨b, opener, []⟩ :: f.openLists } := by
    rw [push, hopen]
  rw [pushAll_cons_ok hpush, pushAll_append_ok (h _), foldl_add_open]
  have hlast : ({ f with openLists := ⟨b, opener, nodes.reverse ++ []⟩ :: f.openLists } :
      Forest).push closer = .ok (f.add (.list b opener nodes)) := by
    rw [push, hclose]
    simp [OpenList.close]
  rw [pushAll_cons_ok hlast, pushAll_nil]

end Forest

/-- Puts tokens before the others. -/
def Lexed.prepend (ts : List Token) (l : Lexed) : Lexed := ⟨ts ++ l.tokens, l.fault⟩

theorem Lexed.prepend_append (ts us : List Token) (l : Lexed) :
    (l.prepend us).prepend ts = l.prepend (ts ++ us) := by
  rw [prepend, prepend, prepend, List.append_assoc]

/-! ## 3. Characters that are read as values -/

/-- Wherever they stand, the characters are cut into tokens that add one node to any forest, and
the value of the node is `v`. -/
def ReadsAs (cs : List Char) (v : Value) : Prop :=
  ∀ p rest, Apart rest → ∃ ts node,
    lexFrom p (cs ++ rest) = (lexFrom (p.advanceOver cs) rest).prepend ts ∧
    (∀ f : Forest, f.pushAll ts = .ok (f.add node)) ∧
    node.tag ≠ .comment ∧ Value.ofNode node = .ok v

/-- The characters are read as some values, one after the other. -/
def ReadsAsAll (cs : List Char) (vs : List Value) : Prop :=
  ∀ p rest, Apart rest → ∃ ts nodes,
    lexFrom p (cs ++ rest) = (lexFrom (p.advanceOver cs) rest).prepend ts ∧
    (∀ f : Forest, f.pushAll ts = .ok (nodes.foldl Forest.add f)) ∧
    Value.ofNodes nodes = .ok vs

/-- A lexeme that becomes a leaf of the tree. -/
theorem readsAs_of_lexeme {cs : List Char} {v : Value} (kind : TokenKind) (tag : Tag)
    (hne : ∃ c more, cs = c :: more ∧ Text.isBlank c = false)
    (hlex : ∀ rest, Apart rest → lexeme? (cs ++ rest) = some ⟨kind, cs, rest⟩)
    (hpush : ∀ (f : Forest) (p : Position), f.push ⟨kind, String.ofList cs, p⟩ =
      .ok (f.add (.leaf tag ⟨kind, String.ofList cs, p⟩)))
    (htag : tag ≠ .comment)
    (hv : ∀ p, Value.ofNode (.leaf tag ⟨kind, String.ofList cs, p⟩) = .ok v) : ReadsAs cs v := by
  intro p rest hrest
  refine ⟨[⟨kind, String.ofList cs, p⟩], .leaf tag ⟨kind, String.ofList cs, p⟩, ?_, ?_, htag, hv p⟩
  · obtain ⟨c, more, rfl, hblank⟩ := hne
    exact lexFrom_lexeme p hblank (hlex rest hrest)
  · intro f
    rw [Forest.pushAll_cons_ok (hpush f p), Forest.pushAll_nil]

theorem readsAs_number {n : Int} (h : fits n = true) : ReadsAs (decimalChars n) (.number n) := by
  obtain ⟨c, more, hcs, hstart, hmore⟩ := exists_decimalChars_eq_cons n
  have hc : isSymbolChar c = true :=
    isSymbolChar_of_mem_decimalChars (hcs ▸ List.mem_cons_self)
  refine readsAs_of_lexeme .number .number ⟨c, more, hcs, isBlank_of_isSymbolChar hc⟩
    ?_ (fun _ _ => rfl) (by decide) fun p => ?_
  · intro rest hrest
    rw [hcs]
    exact lexeme?_number hc (hstart rest) hmore hrest
  · rw [Node.leaf, Value.ofNode]
    exact numberOf_decimal h

theorem readsAs_string (s : String) : ReadsAs (literalChars s.toList) (.string s) := by
  refine readsAs_of_lexeme .string .string ⟨'"', _, rfl, by decide⟩ ?_
    (fun _ _ => rfl) (by decide) fun p => ?_
  · intro rest _
    exact lexeme?_string s.toList rest
  · rw [Node.leaf, Value.ofNode, stringOf_literal]

theorem readsAs_symbol {s : String} (h : IsSymbolToken s) : ReadsAs s.toList (.symbol s) := by
  obtain ⟨c, more, hcs, hstart, hall⟩ := h
  have hc : isSymbolChar c = true := hall c List.mem_cons_self
  refine readsAs_of_lexeme .symbol .symbol ⟨c, more, hcs, isBlank_of_isSymbolChar hc⟩
    ?_ (fun _ _ => rfl) (by decide) fun p => ?_
  · intro rest hrest
    rw [hcs]
    exact lexeme?_symbol hc hstart (fun d hd => hall d (List.mem_cons_of_mem _ hd)) hrest
  · rw [Node.leaf, Value.ofNode, String.ofList_toList]

/-! ## 4. Lists -/

theorem readsAsAll_nil : ReadsAsAll [] [] :=
  fun _ _ _ => ⟨[], [], rfl, fun _ => rfl, rfl⟩

theorem readsAsAll_one {cs : List Char} {v : Value} (h : ReadsAs cs v) : ReadsAsAll cs [v] := by
  intro p rest hrest
  obtain ⟨ts, node, hlex, hpush, htag, hv⟩ := h p rest hrest
  exact ⟨ts, [node], hlex, hpush, Value.ofNodes_single htag hv⟩

/-- Cells are set apart by a space. -/
theorem readsAsAll_cons {cs ds : List Char} {v : Value} {vs : List Value} (h : ReadsAs cs v)
    (hs : ReadsAsAll ds vs) : ReadsAsAll (cs ++ ' ' :: ds) (v :: vs) := by
  intro p rest hrest
  obtain ⟨ts, node, hlex, hpush, htag, hv⟩ :=
    h p (' ' :: (ds ++ rest)) (apart_cons (by decide) _)
  obtain ⟨us, nodes, hlex', hpush', hvs⟩ := hs ((p.advanceOver cs).advance ' ') rest hrest
  refine ⟨ts ++ us, node :: nodes, ?_, fun f => ?_, ?_⟩
  · calc lexFrom p (cs ++ ' ' :: ds ++ rest)
        = lexFrom p (cs ++ ' ' :: (ds ++ rest)) := by rw [List.append_assoc, List.cons_append]
      _ = (lexFrom (p.advanceOver cs) (' ' :: (ds ++ rest))).prepend ts := hlex
      _ = (lexFrom ((p.advanceOver cs).advance ' ') (ds ++ rest)).prepend ts := by
          rw [lexFrom_blank _ _ (by decide)]
      _ = ((lexFrom (((p.advanceOver cs).advance ' ').advanceOver ds) rest).prepend us).prepend
            ts := by rw [hlex']
      _ = (lexFrom (p.advanceOver (cs ++ ' ' :: ds)) rest).prepend (ts ++ us) := by
          rw [Lexed.prepend_append, Position.advanceOver_append, Position.advanceOver_cons]
  · rw [Forest.pushAll_append_ok (hpush f), hpush', List.foldl_cons]
  · rw [Value.ofNodes, if_neg htag, hv, hvs]
    rfl

/-- A bracket is a token of its own. -/
theorem lexFrom_single {c : Char} {kind : TokenKind} {rest : List Char} (p : Position)
    (hblank : Text.isBlank c = false) (h : lexeme? (c :: rest) = some (.single kind c rest)) :
    lexFrom p (c :: rest) = (lexFrom (p.advance c) rest).prepend [⟨kind, String.ofList [c], p⟩] :=
  lexFrom_lexeme p hblank h

/-- The value of a list between brackets. -/
def Value.ofBracket : Bracket → List Value → Value
  | .round => sexpr
  | .curly => qexpr

theorem Value.ofNode_list (b : Bracket) (opener : Token) {nodes : List Node} {vs : List Value}
    (h : ofNodes nodes = .ok vs) : ofNode (.list b opener nodes) = .ok (ofBracket b vs) := by
  cases b with
  | round =>
    change (ofNodes nodes).map sexpr = _
    rw [h]
    rfl
  | curly =>
    change (ofNodes nodes).map qexpr = _
    rw [h]
    rfl

theorem readsAs_bracketed {cs : List Char} {vs : List Value} (b : Bracket)
    (h : ReadsAsAll cs vs) : ReadsAs (bracketed b cs) (.ofBracket b vs) := by
  intro p rest _
  have hclosed : Apart (b.closeChar :: rest) := apart_cons (by cases b <;> decide) rest
  obtain ⟨ts, nodes, hlex, hpush, hvs⟩ := h (p.advance b.openChar) (b.closeChar :: rest) hclosed
  let opener : Token := ⟨.opener b, String.ofList [b.openChar], p⟩
  let closer : Token := ⟨.closer b, String.ofList [b.closeChar],
    (p.advance b.openChar).advanceOver cs⟩
  refine ⟨opener :: (ts ++ [closer]), .list b opener nodes, ?_, fun f => ?_, ?_, ?_⟩
  · have hopened : bracketed b cs ++ rest = b.openChar :: (cs ++ b.closeChar :: rest) := by
      simp [bracketed]
    rw [hopened, lexFrom_single p (by cases b <;> decide) (lexeme?_open b _), hlex,
      lexFrom_single _ (by cases b <;> decide) (lexeme?_close b _), Lexed.prepend_append,
      Lexed.prepend_append]
    congr 2
    simp [bracketed]
  · exact Forest.pushAll_list rfl rfl hpush
  · cases b <;> exact Tag.noConfusion
  · exact Value.ofNode_list b opener hvs

theorem readsAsAll_cellsChars {vs : List Value} (h : ∀ v ∈ vs, ReadsAs v.chars v) :
    ReadsAsAll (Value.cellsChars vs) vs := by
  induction vs with
  | nil =>
    rw [Value.cellsChars]
    exact readsAsAll_nil
  | cons v rest ih =>
    have hv : ReadsAs v.chars v := h v List.mem_cons_self
    cases rest with
    | nil =>
      rw [Value.cellsChars]
      exact readsAsAll_one hv
    | cons w more =>
      rw [Value.cellsChars]
      exact readsAsAll_cons hv (ih fun u hu => h u (List.mem_cons_of_mem _ hu))

/-! ## 5. Values -/

/-- **A value is read as what it was printed from**, whatever follows it. -/
theorem readsAs_chars {v : Value} (h : v.Readable) : ReadsAs v.chars v := by
  induction h with
  | @intro v hv _ ih =>
    cases v with
    | number n =>
      rw [Value.chars_number]
      exact readsAs_number hv
    | string s =>
      rw [Value.chars_string]
      exact readsAs_string s
    | symbol s =>
      rw [Value.chars_symbol]
      exact readsAs_symbol hv
    | sexpr cells =>
      rw [Value.chars_sexpr]
      exact readsAs_bracketed .round (readsAsAll_cellsChars ih)
    | qexpr cells =>
      rw [Value.chars_qexpr]
      exact readsAs_bracketed .curly (readsAsAll_cellsChars ih)
    | error | builtin | lambda => exact absurd hv id

/-- A text that is read as a value parses as one tree, the value of which it is. -/
theorem ReadsAs.exists_parse {s : String} {v : Value} (h : ReadsAs s.toList v) :
    ∃ node, parse s = .ok [node] ∧ node.tag ≠ .comment ∧ Value.ofNode node = .ok v := by
  obtain ⟨ts, node, hlex, hpush, htag, hv⟩ := h {} [] apart_nil
  rw [List.append_nil, lexFrom_nil] at hlex
  refine ⟨node, ?_, htag, hv⟩
  have hlexed : lex s = ⟨ts ++ [], none⟩ := hlex
  rw [parse, hlexed, List.append_nil, parseLexed, hpush]
  rfl

/-- The printed form of a value parses as one tree, the value of which it is. -/
theorem parse_text {v : Value} (h : v.Readable) :
    ∃ node, parse v.text = .ok [node] ∧ node.tag ≠ .comment ∧ Value.ofNode node = .ok v := by
  refine ReadsAs.exists_parse ?_
  rw [Value.toList_text]
  exact readsAs_chars h

/-- **Reading takes back what printing produced**, and so no two values are printed alike.

1. The printed form of a readable value parses, and its forms are that one value.
2. Readable values with the same printed form are equal. -/
theorem printing_reads_back {v : Value} (h : v.Readable) :
    (∃ nodes, parse v.text = .ok nodes ∧ Value.ofNodes nodes = .ok [v]) ∧
    ∀ w : Value, w.Readable → w.text = v.text → w = v := by
  obtain ⟨node, hparse, htag, hv⟩ := parse_text h
  refine ⟨⟨[node], hparse, ?_⟩, fun w hw htext => ?_⟩
  · rw [Value.ofNodes, if_neg htag, hv]
    rfl
  · obtain ⟨node', hparse', -, hw⟩ := parse_text hw
    rw [htext, hparse] at hparse'
    cases hparse'
    rw [hv] at hw
    cases hw
    rfl

/-- A minus that stands alone, a negative number and a text with a quote in it, side by side. -/
theorem printing_reads_back_minus :
    let v : Value := .qexpr [.symbol "-", .number (-1), .string "\"", .sexpr []]
    v.Readable ∧ (∃ nodes, parse v.text = .ok nodes ∧ Value.ofNodes nodes = .ok [v]) ∧
      ∀ w : Value, w.Readable → w.text = v.text → w = v := by
  intro v
  have hminus : IsSymbolToken "-" := by
    refine ⟨'-', [], rfl, rfl, fun d hd => ?_⟩
    rw [List.mem_singleton.mp hd]
    rfl
  have hv : v.Readable := by
    refine Value.all_qexpr.mpr ⟨trivial, ?_⟩
    simp only [List.mem_cons, List.not_mem_nil, or_false]
    rintro w (rfl | rfl | rfl | rfl)
    · exact Value.all_of_parts_nil rfl hminus
    · exact Value.all_of_parts_nil rfl (by decide : fits (-1) = true)
    · exact Value.all_of_parts_nil rfl trivial
    · exact Value.all_of_parts_nil rfl trivial
  exact ⟨hv, printing_reads_back hv⟩

end CurryLisp

/-
# The grammar of texts

A text is a sequence of forms, and a form is a token that is no bracket, or a list between brackets
of one kind.  `Spells` is this grammar, as a relation between trees and the tokens they are written
with.  The reader accepts the texts of the grammar and no others, and gives the one tree that spells
the text (`parse_eq_ok_iff`).

Of a text that is refused, one fault is reported, and `scan` says which: it goes through the tokens
with the stack of the brackets that are open, and knows nothing of trees.

* `Forest.HasRead`: what the reader keeps while it goes on;
* `Forest.HasRead.push`, `Forest.HasRead.pushAll`: one token, and a run;
* `Forest.pushAll_of_spells`: what the grammar spells is read;
* `Spells.flattenAll`: what a tree keeps of its text;
* `parse_eq_ok_iff`: the texts that are accepted.
-/
import CurryLisp.Proofs.Tokens
import CurryLisp.Syntax.Fault

namespace CurryLisp

/-! ## 1. The grammar -/

/-- The tag of the leaf that a token becomes, unless it is a bracket. -/
def TokenKind.leafTag? : TokenKind → Option Tag
  | comment => some .comment
  | string => some .string
  | number => some .number
  | symbol => some .symbol
  | opener _ | closer _ => none

/-- The trees that are written with some tokens. -/
inductive Spells : List Node → List Token → Prop
  | nil : Spells [] []
  | leaf {t : Token} {tag : Tag} {nodes : List Node} {ts : List Token} :
      t.kind.leafTag? = some tag → Spells nodes ts → Spells (.leaf tag t :: nodes) (t :: ts)
  | list {b : Bracket} {opener closer : Token} {children nodes : List Node}
      {inside ts : List Token} : opener.kind = .opener b → closer.kind = .closer b →
      Spells children inside → Spells nodes ts →
      Spells (.list b opener children :: nodes) (opener :: (inside ++ closer :: ts))

/-- Trees are set side by side as their tokens are. -/
theorem Spells.append {nodes more : List Node} {ts us : List Token} (h : Spells nodes ts)
    (hmore : Spells more us) : Spells (nodes ++ more) (ts ++ us) := by
  induction h with
  | nil => exact hmore
  | leaf htag _ ih => exact .leaf htag ih
  | list hopen hclose hinside _ _ ih =>
    rw [List.cons_append, List.cons_append, List.append_assoc, List.cons_append]
    exact .list hopen hclose hinside ih

/-! ## 2. The stack of open brackets -/

/-- Goes through tokens with a stack of opening brackets, innermost first: gives the brackets that
are open at the end, or the first closing bracket that does not close the innermost one. -/
def scan (stack : List Token) : List Token → Except Token (List Token)
  | [] => .ok stack
  | t :: rest =>
    match t.kind with
    | .opener _ => scan (t :: stack) rest
    | .closer b =>
      match stack with
      | [] => .error t
      | o :: outer => if o.kind = .opener b then scan outer rest else .error t
    | .comment | .string | .number | .symbol => scan stack rest

/-! ## 3. What the reader keeps -/

namespace Forest

/-- The opening brackets of the lists that are open, innermost first. -/
def stack (f : Forest) : List Token := f.openLists.map OpenList.opener

@[simp] theorem stack_add (f : Forest) (n : Node) : (f.add n).stack = f.stack := by
  obtain ⟨_ | ⟨o, outer⟩, forms⟩ := f <;> rfl

/-- The forest holds what has been read: the finished forms spell the first tokens, and then each
open list spells its opening bracket and its children. -/
inductive HasRead : Forest → List Token → Prop
  | forms {forms : List Node} {ts : List Token} :
      Spells forms.reverse ts → HasRead ⟨[], forms⟩ ts
  | within {o : OpenList} {outer : List OpenList} {forms : List Node} {ts inside : List Token} :
      HasRead ⟨outer, forms⟩ ts → o.opener.kind = .opener o.bracket →
      Spells o.children.reverse inside → HasRead ⟨o :: outer, forms⟩ (ts ++ o.opener :: inside)

namespace HasRead

variable {f f' : Forest} {ts us : List Token} {t : Token}

theorem empty : HasRead {} [] := .forms .nil

/-- A finished node joins what has been read. -/
theorem add {n : Node} (h : f.HasRead ts) (hn : Spells [n] us) : (f.add n).HasRead (ts ++ us) := by
  cases h with
  | forms hforms =>
    refine .forms ?_
    rw [List.reverse_cons]
    exact hforms.append hn
  | @within o outer forms ts inside houter hopen hinside =>
    rw [List.append_assoc, List.cons_append]
    refine .within (o := { o with children := n :: o.children }) houter hopen ?_
    rw [List.reverse_cons]
    exact hinside.append hn

/-- Closing a list finishes a node. -/
theorem close {o : OpenList} {outer : List OpenList} {forms : List Node}
    (h : HasRead ⟨o :: outer, forms⟩ ts) (hclose : t.kind = .closer o.bracket) :
    (Forest.add ⟨outer, forms⟩ o.close).HasRead (ts ++ [t]) := by
  cases h with
  | within houter hopen hinside =>
    rw [List.append_assoc, List.cons_append]
    exact houter.add (.list hopen hclose hinside .nil)

/-- **One token.**  It is taken, and the stack goes on as it is scanned; or it is a closing bracket
that is refused here and where it is scanned. -/
theorem push (h : f.HasRead ts) (t : Token) :
    (∃ f', f.push t = .ok f' ∧ f'.HasRead (ts ++ [t]) ∧
      ∀ rest, scan f.stack (t :: rest) = scan f'.stack rest) ∨
    ∃ b, t.kind = .closer b ∧ f.push t = .error ⟨.strayCloser b, t.position⟩ ∧
      ∀ rest, scan f.stack (t :: rest) = .error t := by
  have leaf : ∀ tag, t.kind.leafTag? = some tag → f.push t = .ok (f.add (.leaf tag t)) →
      (∀ rest, scan f.stack (t :: rest) = scan f.stack rest) →
      ∃ f', f.push t = .ok f' ∧ f'.HasRead (ts ++ [t]) ∧
        ∀ rest, scan f.stack (t :: rest) = scan f'.stack rest := by
    intro tag htag hpush hscan
    refine ⟨_, hpush, h.add (.leaf htag .nil), fun rest => ?_⟩
    rw [hscan, stack_add]
  cases hk : t.kind with
  | comment | string | number | symbol =>
    refine Or.inl (leaf _ (by rw [hk]; rfl) (by rw [Forest.push, hk]) fun rest => ?_)
    rw [scan, hk]
  | opener b =>
    refine Or.inl ⟨_, by rw [Forest.push, hk], ?_, fun rest => ?_⟩
    · exact .within (o := ⟨b, t, []⟩) h hk .nil
    · rw [scan, hk]
      rfl
  | closer b =>
    cases h with
    | forms hforms =>
      refine Or.inr ⟨b, rfl, by rw [Forest.push, hk], fun rest => ?_⟩
      rw [scan, hk]
      rfl
    | @within o outer forms ts inside houter hopen hinside =>
      have hscan : ∀ rest, scan (stack ⟨o :: outer, forms⟩) (t :: rest) =
          if o.bracket = b then scan (stack ⟨outer, forms⟩) rest else .error t := by
        intro rest
        rw [scan, hk]
        simp [stack, hopen]
      by_cases hb : o.bracket = b
      · refine Or.inl ⟨_, by rw [Forest.push, hk]; exact if_pos hb, ?_, fun rest => ?_⟩
        · exact (HasRead.within houter hopen hinside).close (hb ▸ hk)
        · rw [hscan, if_pos hb, stack_add]
      · refine Or.inr ⟨b, rfl, by rw [Forest.push, hk]; exact if_neg hb, fun rest => ?_⟩
        rw [hscan, if_neg hb]

/-- **A run of tokens.**  Either all are taken, and the stack is as it is scanned; or the token that
is refused is the one that the scan ends at. -/
theorem pushAll (h : f.HasRead ts) (us : List Token) :
    (∃ f', f.pushAll us = .ok f' ∧ f'.HasRead (ts ++ us) ∧ scan f.stack us = .ok f'.stack) ∨
    ∃ t b rest, t.kind = .closer b ∧ t ∈ us ∧ scan f.stack us = .error t ∧
      f.pushAll us = .error (⟨.strayCloser b, t.position⟩, rest) := by
  induction us generalizing f ts with
  | nil => exact Or.inl ⟨f, rfl, by rwa [List.append_nil], rfl⟩
  | cons u rest ih =>
    rcases h.push u with ⟨f', hpush, hread, hscan⟩ | ⟨b, hk, hpush, hscan⟩
    · rw [hscan, pushAll_cons_ok hpush]
      rcases ih hread with ⟨g, hg, hread', hscan'⟩ | ⟨t, b, more, hk, hmem, hscan', hpush'⟩
      · exact Or.inl ⟨g, hg, by rwa [List.append_assoc] at hread', hscan'⟩
      · exact Or.inr ⟨t, b, more, hk, List.mem_cons_of_mem _ hmem, hscan', hpush'⟩
    · exact Or.inr ⟨u, b, u :: rest, hk, List.mem_cons_self, hscan rest, pushAll_cons_error hpush rest⟩

end HasRead

variable {f : Forest} {t : Token} {tag : Tag} {ts : List Token} {nodes forms : List Node}

theorem push_leaf (f : Forest) (h : t.kind.leafTag? = some tag) :
    f.push t = .ok (f.add (.leaf tag t)) := by
  rw [push]
  cases hk : t.kind <;> rw [hk] at h <;> cases h <;> rfl

/-- **What the grammar spells is read**, and joins what is there. -/
theorem pushAll_of_spells (h : Spells nodes ts) (f : Forest) :
    f.pushAll ts = .ok (nodes.foldl add f) := by
  induction h generalizing f with
  | nil => rfl
  | leaf htag _ ih => rw [pushAll_cons_ok (push_leaf f htag), ih, List.foldl_cons]
  | @list b opener closer children nodes inside ts hopen hclose _ _ ihInside ih =>
    have hlist : f.pushAll (opener :: (inside ++ [closer])) =
        .ok (f.add (.list b opener children)) :=
      pushAll_list hopen hclose fun g => ihInside g
    have hsplit : opener :: (inside ++ closer :: ts) = opener :: (inside ++ [closer]) ++ ts := by
      simp
    rw [hsplit, pushAll_append_ok hlist, ih, List.foldl_cons]

theorem foldl_add_forms (nodes : List Node) :
    nodes.foldl add ⟨[], forms⟩ = ⟨[], nodes.reverse ++ forms⟩ := by
  induction nodes generalizing forms with
  | nil => rfl
  | cons n rest ih =>
    rw [List.foldl_cons, List.reverse_cons, List.append_assoc]
    exact ih

end Forest

/-! ## 4. What a tree keeps of its text -/

/-- What a tree keeps of a token: its kind and its text, and its place unless it is a closing
bracket. -/
structure Mark where
  kind : TokenKind
  text : String
  position : Option Position
  deriving DecidableEq, Repr

/-- What a tree keeps of a token. -/
def Token.mark (t : Token) : Mark :=
  match t.kind with
  | .closer b => ⟨.closer b, t.text, none⟩
  | kind => ⟨kind, t.text, some t.position⟩

/-- A list is flattened to its opening bracket, what is inside, and the closing bracket of the same
kind. -/
def Mark.enclose (b : Bracket) (text : String) (p : Position) (inside : List Mark) : List Mark :=
  ⟨.opener b, text, some p⟩ :: (inside ++ [⟨.closer b, String.singleton b.closeChar, none⟩])

namespace Node

mutual

/-- Flattens a tree: a list to its brackets around its children in order, the root to its children,
and any other node to its token. -/
def flatten : Node → List Mark
  | ⟨tag, contents, children, p⟩ =>
    match tag with
    | .number => [⟨.number, contents, some p⟩]
    | .symbol => [⟨.symbol, contents, some p⟩]
    | .string => [⟨.string, contents, some p⟩]
    | .comment => [⟨.comment, contents, some p⟩]
    | .sexpr => Mark.enclose .round contents p (flattenAll children)
    | .qexpr => Mark.enclose .curly contents p (flattenAll children)
    | .root => flattenAll children
    | .other _ => []

/-- Flattens some trees, one after the other. -/
def flattenAll : List Node → List Mark
  | [] => []
  | n :: rest => n.flatten ++ flattenAll rest

end

theorem flatten_leaf {t : Token} {tag : Tag} (h : t.kind.leafTag? = some tag) :
    (leaf tag t).flatten = [t.mark] := by
  rw [Token.mark]
  cases hk : t.kind <;> rw [hk] at h <;> cases h <;> rw [leaf, flatten]

theorem flatten_list (b : Bracket) (opener : Token) (children : List Node) :
    (list b opener children).flatten =
      Mark.enclose b opener.text opener.position (flattenAll children) := by
  cases b <;> exact flatten.eq_def _

end Node

/-- **Trees are flattened to the tokens that spell them.** -/
theorem Spells.flattenAll {nodes : List Node} {ts : List Token} (h : Spells nodes ts)
    (hproper : ∀ t ∈ ts, t.Proper) : Node.flattenAll nodes = ts.map Token.mark := by
  induction h with
  | nil => rfl
  | leaf htag _ ih =>
    rw [Node.flattenAll, Node.flatten_leaf htag, List.map_cons,
      ih fun t ht => hproper t (List.mem_cons_of_mem _ ht)]
    rfl
  | @list b opener closer children nodes inside ts hopen hclose _ _ ihInside ih =>
    have hcloser : closer.text = String.singleton b.closeChar := by
      have := hproper closer (by simp)
      rwa [Token.Proper, hclose] at this
    rw [Node.flattenAll, Node.flatten_list, ihInside fun t ht => hproper t (by simp [ht]),
      ih fun t ht => hproper t (by simp [ht])]
    simp [Mark.enclose, Token.mark, hopen, hclose, hcloser]

/-! ## 5. What is accepted -/

namespace Forest.HasRead

variable {o : OpenList} {outer : List OpenList} {done : List Node} {ts : List Token}

/-- When no list is open, the finished forms spell what has been read. -/
theorem spells (h : HasRead ⟨[], done⟩ ts) : Spells done.reverse ts := by
  cases h with
  | forms h => exact h

/-- An open list begins with an opening bracket that has been read. -/
theorem opener (h : HasRead ⟨o :: outer, done⟩ ts) :
    o.opener.kind = .opener o.bracket ∧ o.opener ∈ ts := by
  cases h with
  | within _ hopen _ => exact ⟨hopen, by simp⟩

end Forest.HasRead

/-- A closing bracket that is refused is reported, also before a fault of the characters. -/
theorem parse_of_refused {source : String} {e : SyntaxFault} {rest : List Token}
    (h : ({} : Forest).pushAll (lex source).tokens = .error (e, rest)) :
    parse source = .error e := by
  rw [parse, parseLexed, h]

/-- When all tokens are taken, a fault of the characters is reported before an open list. -/
theorem parse_of_taken {source : String} {f : Forest}
    (h : ({} : Forest).pushAll (lex source).tokens = .ok f) :
    parse source = match (lex source).fault with
      | some e => .error e
      | none => f.finish := by
  unfold parse parseLexed
  split
  · next hpush =>
    rw [h] at hpush
    cases hpush
  · next hpush =>
    rw [h] at hpush
    cases hpush
    rfl

/-- **The reader accepts the grammar**, and gives the tree that spells the text. -/
theorem parse_eq_ok_iff {source : String} {forms : List Node} :
    parse source = .ok forms ↔
      (lex source).fault = none ∧ Spells forms (lex source).tokens := by
  constructor
  · intro h
    rcases Forest.HasRead.empty.pushAll (lex source).tokens with
      ⟨⟨lists, done⟩, hpush, hread, -⟩ | ⟨t, b, rest, -, -, -, hpush⟩
    · rw [parse_of_taken hpush] at h
      split at h
      · cases h
      · next hfault =>
        cases lists with
        | nil =>
          cases h
          exact ⟨hfault, hread.spells⟩
        | cons o outer => cases h
    · rw [parse_of_refused hpush] at h
      cases h
  · rintro ⟨hfault, hforms⟩
    have hpush := Forest.pushAll_of_spells hforms {}
    rw [Forest.foldl_add_forms, List.append_nil] at hpush
    rw [parse_of_taken hpush, hfault]
    exact congrArg Except.ok (List.reverse_reverse forms)

end CurryLisp

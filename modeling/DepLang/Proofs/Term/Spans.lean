/-
Terms whose spans are faithful. Every node of such a term has a span of
the text, with what stands under it inside it and in the order in which
it is written (`Term.Faithful`). Two kinds of node have none: the name of
an operator that stands between its operands, and the type that a lambda
does not give (`Term.Located`). Both are told by the tokens of the text:
the operator is one of them and stands where the operands leave room for
it, and the name that the lambda binds is followed by its arrow.

A node is faithful by itself: its span, and those of its children, which
may come from anywhere. So a faithful term is put together from below. A
row of terms keeps to a stretch of the text (`InLine`); it gets longer term
by term, and a node that spans the stretch is faithful if its children
are in a row there (`Faithful.of_inLine`). In this way a term covers a
stretch (`Term.Covers`), and what an operator makes of two terms covers
both of theirs.
-/
import DepLang.Proofs.Grammar.Canonical

namespace DepLang

/-- What a term is read off: the tokens of a text, the operators that
are declared, and the length of the text. -/
structure Source where
  tokens : List Token
  table : FixityTable
  length : Nat

namespace Source

/-- Equality is infix, and so is every operator that is declared. -/
def IsInfix (source : Source) (symbol : String) : Prop :=
  symbol = "=" ∨ ∃ e ∈ source.table, e.symbol = symbol

/-- An infix operator stands between two terms of the text. -/
inductive Joins (source : Source) (x y : Term) : Name → Prop
  | intro {symbol : String} {token : Token} {σ τ : Span}
      (declared : source.IsInfix symbol) (member : token ∈ source.tokens)
      (operator : token.lexeme = .operator symbol)
      (left : x.span = some σ) (right : y.span = some τ)
      (behind : σ.stop ≤ token.span.start)
      (ahead : token.span.stop ≤ τ.start) :
      Joins source x y (.ofText symbol)

/-- The lambda that starts where the span does gives no type: the name
that it binds is followed by the arrow. -/
inductive Untyped (source : Source) (σ : Span) : Prop
  | intro {i : Nat} {lambda name arrow : Token} {text : String}
      (first : source.tokens[i]? = some lambda)
      (second : source.tokens[i + 1]? = some name)
      (third : source.tokens[i + 2]? = some arrow)
      (start : lambda.span.start = σ.start)
      (opens : lambda.lexeme = .operator "\\")
      (binds : name.lexeme = .ident text)
      (maps : arrow.lexeme = .operator "=>")

end Source

namespace Term

-- ======================================================== children

/-- The terms right under a node, in the order in which they are
written. -/
def children : Term → List Term
  | .ref _ _ | .hole _ | .set _ => []
  | .quote body _ | .hidden body _ => [body]
  | .app fn implicits args _ => fn :: (implicits.map Prod.snd ++ args)
  | .lam _ type body _ | .pi _ _ type body _ => [type, body]

/-- The spans of the children that have one. -/
def childSpans (t : Term) : List Span := t.children.filterMap span

variable {source : Source} {t u : Term}

theorem mem_subterms_iff :
    u ∈ t.subterms ↔ u = t ∨ ∃ c ∈ t.children, u ∈ c.subterms := by
  cases t with
  | ref | hole | set => simp [subterms, children]
  | quote | hidden => simp [subterms, children]
  | lam | pi => simp [subterms, children]
  | app fn named args =>
      simp only [subterms, children, subtermsNamed_eq_flatMap,
        subtermsAll_eq_flatMap, List.mem_cons, List.mem_append,
        List.mem_flatMap, List.mem_map, or_assoc,
        or_and_right, exists_or, exists_exists_and_eq_and, exists_eq_left]

-- ======================================================== faithful

/-- Nodes have spans, but for the name of an infix operator between its
operands and for a type that a lambda leaves out. -/
inductive Located (source : Source) : Term → Prop
  | ref {x : Name} {σ : Span} : Located source (.ref x (some σ))
  | hole {σ : Span} : Located source (.hole (some σ))
  | set {σ : Span} : Located source (.set (some σ))
  | quote {body : Term} {σ : Span} (inner : Located source body) :
      Located source (.quote body (some σ))
  | app {fn : Term} {named : List (Name × Term)} {args : List Term}
      {σ : Span} (head : Located source fn)
      (values : ∀ a ∈ named, Located source a.2)
      (each : ∀ a ∈ args, Located source a) :
      Located source (.app fn named args (some σ))
  | operation {op : Name} {x y : Term} {σ : Span}
      (joins : source.Joins x y op) (left : Located source x)
      (right : Located source y) :
      Located source (.app (.ref op none) [] [x, y] (some σ))
  | lam {x : Name} {type body : Term} {σ : Span}
      (domain : Located source type) (inner : Located source body) :
      Located source (.lam x type body (some σ))
  | untyped {x : Name} {body : Term} {σ : Span}
      (omitted : source.Untyped σ) (inner : Located source body) :
      Located source (.lam x (.hole none) body (some σ))
  | pi {p : Plicity} {x : Name} {type body : Term} {σ : Span}
      (domain : Located source type) (inner : Located source body) :
      Located source (.pi p x type body (some σ))

/-- The span of a node is part of a text of the given length and has the
spans of its children in it, one behind the other. -/
structure Fits (source : Source) (u : Term) : Prop where
  bounded : ∀ σ ∈ u.span, σ.start < σ.stop ∧ σ.stop ≤ source.length
  nested : ∀ σ ∈ u.span, ∀ τ ∈ u.childSpans,
    σ.start ≤ τ.start ∧ τ.stop ≤ σ.stop
  ordered : u.childSpans.Pairwise (·.stop ≤ ·.start)

/-- All nodes have spans that fit in the text and in one another. -/
structure Faithful (source : Source) (t : Term) : Prop where
  located : t.Located source
  fits : ∀ u ∈ t.subterms, u.Fits source

theorem Faithful.fits_self (h : t.Faithful source) : t.Fits source :=
  h.fits t (mem_subterms_iff.2 (.inl rfl))

-- ============================================================ rows

/-- The term is faithful, and its span keeps to a stretch of text. -/
structure Covers (source : Source) (lo hi : Nat) (t : Term) : Prop where
  faithful : t.Faithful source
  spanned : ∃ σ, t.span = some σ ∧ lo ≤ σ.start ∧ σ.stop ≤ hi

/-- The terms keep to a stretch of text, one behind the other. -/
structure InLine (source : Source) (lo hi : Nat) (ts : List Term) : Prop where
  fits : ∀ t ∈ ts, ∀ u ∈ t.subterms, u.Fits source
  inside : ∀ τ ∈ ts.filterMap span, lo ≤ τ.start ∧ τ.stop ≤ hi
  ordered : (ts.filterMap span).Pairwise (·.stop ≤ ·.start)

variable {lo mid hi : Nat} {ts us : List Term} {σ : Span}

theorem InLine.nil : InLine source lo hi [] := ⟨by simp, by simp, .nil⟩

theorem InLine.mono {lo' hi' : Nat} (h : InLine source lo hi ts)
    (le : lo' ≤ lo) (le' : hi ≤ hi') : InLine source lo' hi' ts := by
  refine ⟨h.fits, fun τ hτ => ?_, h.ordered⟩
  have := h.inside τ hτ
  omega

theorem InLine.append (first : InLine source lo mid ts)
    (rest : InLine source mid hi us) (le : lo ≤ mid) (le' : mid ≤ hi) :
    InLine source lo hi (ts ++ us) := by
  refine ⟨List.forall_mem_append.2 ⟨first.fits, rest.fits⟩, ?_, ?_⟩
  · rw [List.filterMap_append]
    exact List.forall_mem_append.2
      ⟨(first.mono (Nat.le_refl _) le').inside,
        (rest.mono le (Nat.le_refl _)).inside⟩
  · rw [List.filterMap_append]
    refine List.pairwise_append.2
      ⟨first.ordered, rest.ordered, fun σ hσ τ hτ => ?_⟩
    exact Nat.le_trans (first.inside σ hσ).2 (rest.inside τ hτ).1

theorem Covers.inLine (h : t.Covers source lo hi) :
    InLine source lo hi [t] := by
  obtain ⟨σ, spanned, le, le'⟩ := h.spanned
  have spans : [t].filterMap span = [σ] := by simp [spanned]
  refine ⟨?_, ?_, ?_⟩
  · rintro u (_ | ⟨_, ⟨⟩⟩)
    exact h.faithful.fits
  · rw [spans]
    exact List.forall_mem_singleton.2 ⟨le, le'⟩
  · rw [spans]
    exact List.pairwise_singleton _ _

theorem Covers.mono {lo' hi' : Nat} (h : t.Covers source lo hi)
    (le : lo' ≤ lo) (le' : hi ≤ hi') : t.Covers source lo' hi' := by
  obtain ⟨σ, spanned, from_lo, to_hi⟩ := h.spanned
  exact ⟨h.faithful, σ, spanned, Nat.le_trans le from_lo,
    Nat.le_trans to_hi le'⟩

/-- A stretch that is covered has some characters. -/
theorem Covers.lt (h : t.Covers source lo hi) : lo < hi := by
  obtain ⟨σ, spanned, le, le'⟩ := h.spanned
  have lt := (h.faithful.fits_self.bounded σ spanned).1
  omega

/-- One more term in front of a row. -/
theorem InLine.cons (first : t.Covers source lo mid)
    (rest : InLine source mid hi ts) (le : mid ≤ hi) :
    InLine source lo hi (t :: ts) :=
  first.inLine.append rest (Nat.le_of_lt first.lt) le

theorem InLine.pair (first : t.Covers source lo mid)
    (second : u.Covers source mid hi) : InLine source lo hi [t, u] :=
  .cons first second.inLine (Nat.le_of_lt second.lt)

/-- What has no span and nothing under it takes up no place. -/
theorem InLine.bare (bare : t.span = none) (leaf : t.children = [])
    (rest : InLine source lo hi ts) : InLine source lo hi (t :: ts) := by
  have spans : (t :: ts).filterMap span = ts.filterMap span := by
    simp [bare]
  have none : t.childSpans = [] := by rw [childSpans, leaf]; rfl
  refine ⟨List.forall_mem_cons.2 ⟨fun u hu => ?_, rest.fits⟩, ?_, ?_⟩
  · rcases mem_subterms_iff.1 hu with rfl | ⟨c, hc, -⟩
    · exact ⟨by simp [bare], by simp [bare], none ▸ .nil⟩
    · rw [leaf] at hc
      cases hc
  · rw [spans]
    exact rest.inside
  · rw [spans]
    exact rest.ordered

/-- A node is faithful that spans the row of its children. -/
theorem Faithful.of_inLine (located : t.Located source)
    (spanned : t.span = some σ) (some_char : σ.start < σ.stop)
    (short : σ.stop ≤ source.length)
    (row : InLine source σ.start σ.stop t.children) : t.Faithful source := by
  refine ⟨located, fun u hu => ?_⟩
  rcases mem_subterms_iff.1 hu with rfl | ⟨c, hc, hu⟩
  · refine ⟨?_, ?_, row.ordered⟩
    all_goals rintro τ hτ
    all_goals obtain rfl : σ = τ := Option.some.inj (spanned.symm.trans hτ)
    · exact ⟨some_char, short⟩
    · exact row.inside
  · exact row.fits c hc u hu

/-- A node covers what it spans. -/
theorem Covers.of_inLine (located : t.Located source)
    (spanned : t.span = some σ) (some_char : σ.start < σ.stop)
    (short : σ.stop ≤ source.length)
    (row : InLine source σ.start σ.stop t.children) :
    t.Covers source σ.start σ.stop :=
  ⟨.of_inLine located spanned some_char short row, σ, spanned,
    Nat.le_refl _, Nat.le_refl _⟩

end Term

-- ======================================================= operators

variable {source : Source} {lo hi : Nat} {x y : Term}

open Term

/-- An operation goes from the start of its first operand to the end of
its second, and its name has no place of its own: the token that gives
the name stands between the two. -/
theorem Operator.covers_build {op : Operator} {token : Token}
    (declared : op.form = .application → source.IsInfix op.symbol)
    (member : token ∈ source.tokens)
    (operator : token.lexeme = .operator op.symbol)
    (forward : token.span.start ≤ token.span.stop)
    (first : x.Covers source lo token.span.start)
    (second : y.Covers source token.span.stop hi) :
    (op.build x y).Covers source lo hi := by
  obtain ⟨σ, spanned, le, le'⟩ := first.spanned
  obtain ⟨τ, spanned', le₂, le₂'⟩ := second.spanned
  have joined : joinSpans x y = some (σ.through τ) := by
    simp only [joinSpans, spanned, spanned']
  have start := first.faithful.fits_self.bounded σ spanned
  have stop := second.faithful.fits_self.bounded τ spanned'
  have fits : σ.start < τ.stop := by omega
  -- the operands are in a row from where the first starts
  have row : InLine source σ.start τ.stop [x, y] := by
    have left : x.Covers source σ.start σ.stop :=
      ⟨first.faithful, σ, spanned, Nat.le_refl _, Nat.le_refl _⟩
    have right : y.Covers source σ.stop τ.stop :=
      ⟨second.faithful, τ, spanned', by omega, Nat.le_refl _⟩
    exact .pair left right
  refine ⟨?_, σ.through τ, ?_, le, le₂'⟩
  · unfold Operator.build
    rw [joined]
    cases form : op.form with
    | application =>
        have joins : source.Joins x y (.ofText op.symbol) :=
          .intro (declared form) member operator spanned spanned' le' le₂
        exact .of_inLine
          (.operation joins first.faithful.located second.faithful.located)
          rfl fits stop.2 (.bare rfl rfl row)
    | arrow =>
        exact .of_inLine (.pi first.faithful.located second.faithful.located)
          rfl fits stop.2 row
  · unfold Operator.build
    cases op.form <;> exact joined

end DepLang

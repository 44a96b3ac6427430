/-
Where expressions are entered inside an expression: behind a token that
was read, on one of the tokens, and under the registry that the outer
expression was entered under. Any parser that does there what an
expression does can be put in the place of nested expressions, whatever
it does elsewhere (`operand_eq_of_nested`, `exprOver_eq_of_nested`). So
it is no restriction to let nested expressions in nowhere else
(`expr_eq_guarded`).

A region is a set of states that runs without declarations stay in
(`Region`). Two parsers that run the same from a region do so inside
every combinator, since the parts that have run, and the attempts that
were given up, leave off in the region again. Reading a token leads from
a region to what is ahead of it, and there the rules enter expressions.
-/
import DepLang.Proofs.Grammar.Bounded

namespace DepLang.Grammar

open DepLang.Parser

variable {α β : Type} {inp : Input} {I : State → Prop}

-- ========================================================= regions

/-- The second state can be come to from the first one, without any
declarations. -/
structure Ahead (inp : Input) (s t : State) : Prop where
  registry : t.registry = s.registry
  cursor_le : s.cursor ≤ t.cursor
  within : t.cursor ≤ inp.tokens.size

theorem Ahead.trans {s t u : State} (h : Ahead inp s t)
    (h' : Ahead inp t u) : Ahead inp s u where
  registry := h'.registry.trans h.registry
  cursor_le := Nat.le_trans h.cursor_le h'.cursor_le
  within := h'.within

theorem Ahead.remaining_le {s t : State} (h : Ahead inp s t) :
    inp.remaining t ≤ inp.remaining s :=
  Nat.sub_le_sub_left h.cursor_le _

theorem Ahead.remaining_lt {s t : State} (h : Ahead inp s t)
    (behind : s.cursor < t.cursor) :
    inp.remaining t < inp.remaining s := by
  have := h.within
  unfold Input.remaining
  omega

/-- States on the tokens, with all that are ahead of them. -/
structure Region (inp : Input) (I : State → Prop) : Prop where
  within : ∀ s, I s → s.cursor ≤ inp.tokens.size
  ahead : ∀ s t, I s → Ahead inp s t → I t

/-- The states of a region once a token has been read. -/
def Behind (inp : Input) (I : State → Prop) (t : State) : Prop :=
  ∃ s, I s ∧ Ahead inp s t ∧ s.cursor < t.cursor

theorem region_ahead (inp : Input) (s : State) :
    Region inp (Ahead inp s) where
  within := fun _ h => h.within
  ahead := fun _ _ h later => h.trans later

theorem region_behind (inp : Input) (I : State → Prop) :
    Region inp (Behind inp I) where
  within := fun _ ⟨_, _, ahead, _⟩ => ahead.within
  ahead := fun _ _ ⟨s, hs, ahead, lt⟩ later =>
    ⟨s, hs, ahead.trans later, Nat.lt_of_lt_of_le lt later.cursor_le⟩

theorem ahead_past {s : State} (inside : s.cursor ≤ inp.tokens.size) :
    Ahead inp s (past inp s) := by
  have stays : s.cursor ≤ (past inp s).cursor
      ∧ (past inp s).cursor ≤ inp.tokens.size := by
    unfold past
    split
    next => exact ⟨Nat.le_refl _, inside⟩
    next more => exact ⟨Nat.le_succ _, lt_size_of_kind more⟩
  exact ⟨registry_past inp s, stays.1, stays.2⟩

theorem ahead_of_plain {p : Parser α} (plain : Plain p) {s t : State}
    {a : α} (inside : s.cursor ≤ inp.tokens.size)
    (run : p inp s = .ok a t) : Ahead inp s t := by
  have stays := plain.alike.stays inside
  rw [run] at stays
  exact ⟨plain.quiet inp s a t run, stays.1, stays.2⟩

theorem Region.past (region : Region inp I) {s : State} (hs : I s) :
    I (past inp s) :=
  region.ahead s _ hs (ahead_past (region.within s hs))

/-- Runs without declarations stay in a region. -/
theorem Region.ok (region : Region inp I) {p : Parser α}
    (plain : Plain p) {s t : State} {a : α} (hs : I s)
    (run : p inp s = .ok a t) : I t :=
  region.ahead s t hs (ahead_of_plain plain (region.within s hs) run)

-- ====================================================== same runs

/-- The parsers run the same from the region. -/
def Same (inp : Input) (I : State → Prop) (p p' : Parser α) : Prop :=
  ∀ s, I s → p inp s = p' inp s

theorem Same.refl (p : Parser α) : Same inp I p p := fun _ _ => rfl

/-- Nothing is asked of what follows, if it is the same. -/
theorem Same.andThen {p p' : Parser α} (h : Same inp I p p')
    (f : α → Parser β) : Same inp I (p >>= f) (p' >>= f) :=
  fun s hs => bind_congr_at (h s hs) fun _ _ _ => rfl

theorem Same.attempt {p p' : Parser α} (h : Same inp I p p') :
    Same inp I (attempt p) (attempt p') := by
  intro s hs
  unfold Parser.attempt
  rw [h s hs]

section
variable (region : Region inp I) {p p' : Parser α}
include region

theorem Same.bind {f f' : α → Parser β} (plain : Plain p)
    (first : Same inp I p p') (next : ∀ a, Same inp I (f a) (f' a)) :
    Same inp I (p >>= f) (p' >>= f') :=
  fun s hs => bind_congr_at (first s hs) fun a t run =>
    next a t (region.ok plain hs run)

/-- What follows a part that is the same. -/
theorem Same.after {f f' : α → Parser β} (plain : Plain p)
    (next : ∀ a, Same inp I (f a) (f' a)) :
    Same inp I (p >>= f) (p >>= f') :=
  .bind region plain (.refl p) next

/-- What follows a token is only run behind it. -/
theorem Same.behind {R : Likeness α} {f f' : α → Parser β}
    (plain : Plain p) (alike : Alike True expr expr false true R p p)
    (next : ∀ a, Same inp (Behind inp I) (f a) (f' a)) :
    Same inp I (p >>= f) (p >>= f') := by
  refine fun s hs => bind_congr_at rfl fun a t run => ?_
  have less := alike.remaining_lt expr_steady expr_steady run rfl rfl
  have lt : s.cursor < t.cursor := by
    unfold Input.remaining at less
    omega
  have ahead := ahead_of_plain plain (region.within s hs) run
  exact next a t ⟨s, hs, ahead, lt⟩

/-- An attempt that was given up leaves off where it began. -/
theorem Same.attemptElse {k k' : Failure → Parser α} (plain : Plain p)
    (h : Same inp I p p') (otherwise : ∀ e, Same inp I (k e) (k' e)) :
    Same inp I (attemptElse p k) (attemptElse p' k') := by
  intro s hs
  unfold Parser.attemptElse
  rw [← h.attempt s hs]
  cases run : Parser.attempt p inp s with
  | ok | defect => rfl
  | error e t =>
      obtain ⟨cursor, registry⟩ := attempt_error plain.alike.steady run
      have inside := region.within s hs
      refine otherwise e t (region.ahead s t hs ⟨registry, ?_, ?_⟩)
      · exact Nat.le_of_eq cursor.symm
      · rw [cursor]
        exact inside

theorem same_choiceAfter {ps ps' : List (Parser α)}
    (plain : ∀ p ∈ ps, Plain p) (each : List.Forall₂ (Same inp I) ps ps') :
    ∀ failed, Same inp I (choiceAfter failed ps)
      (choiceAfter failed ps') := by
  induction each with
  | nil => exact fun _ => .refl _
  | cons first _ ih =>
      intro failed
      obtain ⟨plain, others⟩ := List.forall_mem_cons.1 plain
      rw [choiceAfter_cons, choiceAfter_cons]
      exact first.attemptElse region plain fun e => ih others _

theorem same_choice {ps ps' : List (Parser α)}
    (plain : ∀ p ∈ ps, Plain p) (each : List.Forall₂ (Same inp I) ps ps') :
    Same inp I (choice ps) (choice ps') := by
  cases each with
  | nil => exact .refl _
  | cons first rest =>
      obtain ⟨plain, others⟩ := List.forall_mem_cons.1 plain
      rw [choice_cons, choice_cons]
      exact first.attemptElse region plain
        (same_choiceAfter region others rest)

theorem Same.optional (plain : Plain p) (h : Same inp I p p') (a : α) :
    Same inp I (optional p a) (optional p' a) := by
  rw [optional_eq, optional_eq]
  exact h.attemptElse region plain fun _ => .refl _

theorem Same.many (plain : Plain p) (h : Same inp I p p') :
    Same inp I (many p) (many p') := by
  have round : Plain (some <$> p) := plain.map
  have same : Same inp I (some <$> p) (some <$> p') := h.andThen _
  have rounds := same.optional region round none
  exact loopFrom_congr I rounds fun s a t hs run =>
    region.ok (round.optional none) hs run

theorem Same.many1 (plain : Plain p) (h : Same inp I p p') :
    Same inp I (many1 p) (many1 p') :=
  .bind region plain h fun _ => (h.many region plain).andThen _

end

-- ============================================================ rules

section
variable (region : Region inp I) {e : Parser Term}
include region

section
variable (nested : Same inp I expr e)
include nested

theorem same_announced (op : String) :
    Same inp I (symbol op >>= fun _ => expr) (symbol op >>= fun _ => e) :=
  .after region (plain_symbol op) fun _ => nested

end

variable (nested : Same inp (Behind inp I) expr e)
include nested

theorem same_atom : Same inp I (atom expr) (atom e) := by
  refine .after region plain_here fun start =>
    same_choice region (plain_atomAlternatives start) ?_
  have quotation : Same inp I (quotation expr start) (quotation e start) :=
    .behind region (plain_mark .quote) (.mark _) fun _ => nested.andThen _
  have parenthesized : Same inp I (parenthesized expr) (parenthesized e) :=
    .behind region (plain_mark .lparen) (.mark _) fun _ => nested.andThen _
  exact .cons quotation <| .cons (.refl _) <| .cons (.refl _) <|
    .cons parenthesized <| .cons (.refl _) .nil

theorem same_namedArgument :
    Same inp I (namedArgument expr) (namedArgument e) := by
  have behind := region_behind inp I
  refine .behind region (plain_mark .lbrace) (.mark _) fun _ =>
    .after behind plain_here fun start =>
    .after behind plain_identName fun target =>
    .after behind (plain_located start _) fun itself => ?_
  have value : Same inp (Behind inp I) (namedValue expr) (namedValue e) :=
    same_announced behind nested "="
  exact (value.optional behind (plain_announced "=") itself).andThen _

theorem same_applicationOf (head : Term) (start : Nat) :
    Same inp I (applicationOf expr head start)
      (applicationOf e head start) := by
  have named := same_namedArgument region nested
  have args := same_atom region nested
  exact .bind region plain_namedArgument.many
    (named.many region plain_namedArgument) fun _ =>
      (args.many1 region plain_atom).andThen _

theorem same_applicationOrAtom :
    Same inp I (applicationOrAtom expr) (applicationOrAtom e) :=
  .after region plain_here fun start =>
    .bind region plain_atom (same_atom region nested) fun head =>
      (same_applicationOf region nested head start).optional region
        (plain_applicationOf head start) head

theorem same_lambda : Same inp I (lambda expr) (lambda e) := by
  have behind := region_behind inp I
  have type : Same inp (Behind inp I) (ascription expr) (ascription e) :=
    same_announced behind nested ":"
  refine .after region plain_here fun start =>
    .behind region (plain_symbol _) (.symbol _) fun _ =>
    .after behind plain_identName fun binder => ?_
  exact .bind behind ((plain_announced ":").optional _)
    (type.optional behind (plain_announced ":") _) fun type =>
    .after behind (plain_symbol "=>") fun _ => nested.andThen _

theorem same_piBetween {opening closing : Mark} {plicity : Plicity}
    (start : Nat) :
    Same inp I (piBetween expr opening closing plicity start)
      (piBetween e opening closing plicity start) := by
  have behind := region_behind inp I
  have type : Same inp (Behind inp I) (ascription expr) (ascription e) :=
    same_announced behind nested ":"
  exact .behind region (plain_mark opening) (.mark _) fun _ =>
    .after behind plain_identName fun _ =>
    .bind behind (plain_announced ":") type fun _ =>
    .after behind (plain_mark closing) fun _ =>
    .after behind (plain_symbol "->") fun _ => nested.andThen _

theorem same_piType : Same inp I (piType expr) (piType e) :=
  .after region plain_here fun start =>
    same_choice region (plain_piAlternatives start) <|
      .cons (same_piBetween region nested start) <|
      .cons (same_piBetween region nested start) .nil

theorem same_operand : Same inp I (operand expr) (operand e) :=
  same_choice region plain_operandAlternatives <|
    .cons (same_applicationOrAtom region nested) <|
    .cons (same_lambda region nested) <|
    .cons (same_piType region nested) .nil

end

-- =========================================================== chains

section
variable (region : Region inp I)
include region

/-- The rounds of a chain begin in the region. -/
theorem same_chain {q q' : Parser Term} (plain : Plain q)
    (h : Same inp I q q') (level : Level) :
    Same inp I (chain level q) (chain level q') := by
  have loops (assoc : Assoc) :
      Same inp I (loop (chainStep level assoc q))
        (loop (chainStep level assoc q')) := by
    refine loopFrom_congr I (fun s hs => ?_) fun s a t hs run => ?_
    · rw [chainStep_apply, chainStep_apply, h _ (region.past hs)]
    · exact region.ok plain (region.past hs) (operand_of_chainStep run)
  intro s hs
  rw [chain_apply, chain_apply, ← h s hs]
  cases run : q inp s with
  | ok x t =>
      have ht := region.past (region.ok plain hs run)
      simp only [← h _ ht]
      cases offered level inp t with
      | none => rfl
      | some op =>
          cases run : q inp (past inp t) with
          | ok y u => simp only [loops op.assoc u (region.ok plain ht run)]
          | error | defect => rfl
  | error | defect => rfl

theorem same_chains {e : Parser Term} (levels : List Level)
    (nested : Same inp (Behind inp I) expr e) :
    Same inp I (chains (operand expr) levels)
      (chains (operand e) levels) := by
  induction levels with
  | nil => exact same_operand region nested
  | cons level tighter ih =>
      exact same_chain region (plain_chains tighter) ih level

end

-- ===================================================== expressions

section
variable {s : State} {e : Parser Term}
  (nested : ∀ t, Ahead inp s t → s.cursor < t.cursor →
    e inp t = expr inp t)
include nested

/-- Nested expressions are entered behind a token, from where the outer
one was entered. -/
theorem same_of_nested : Same inp (Behind inp (Ahead inp s)) expr e := by
  rintro t ⟨u, before, after, lt⟩
  have behind := Nat.lt_of_le_of_lt before.cursor_le lt
  exact (nested t (before.trans after) behind).symm

variable (inside : s.cursor ≤ inp.tokens.size)
include inside

theorem operand_eq_of_nested :
    operand e inp s = operand expr inp s :=
  (same_operand (region_ahead inp s) (same_of_nested nested) s
    ⟨rfl, Nat.le_refl _, inside⟩).symm

theorem exprOver_eq_of_nested : exprOver e inp s = expr inp s := by
  rw [congrFun (congrFun expr_eq_exprOver inp) s]
  exact (same_chains (region_ahead inp s) _ (same_of_nested nested) s
    ⟨rfl, Nat.le_refl _, inside⟩).symm

end

/-- A parser that may be entered only from some states. -/
def enteredOnly (enter : State → Bool) (p : Parser α) : Parser α :=
  fun inp s => if enter s then p inp s else broken .nestedTooDeep inp s

/-- No expression inside an expression is entered before a token of the
outer one was read, or behind the tokens, or under other operators. -/
theorem expr_eq_guarded {s : State}
    (inside : s.cursor ≤ inp.tokens.size) :
    exprOver (enteredOnly (fun t => s.cursor < t.cursor
        ∧ t.cursor ≤ inp.tokens.size
        ∧ t.registry.fixities = s.registry.fixities) expr) inp s
      = expr inp s := by
  refine exprOver_eq_of_nested (fun t ahead behind => ?_) inside
  have enter : s.cursor < t.cursor ∧ t.cursor ≤ inp.tokens.size
      ∧ t.registry.fixities = s.registry.fixities :=
    ⟨behind, ahead.within, congrArg _ ahead.registry⟩
  unfold enteredOnly
  rw [if_pos (decide_eq_true enter)]

end DepLang.Grammar

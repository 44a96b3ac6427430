/-
The stretch of text that an expression covers. An expression that is read
off tokens in their places is faithful, and its span keeps to the tokens
it was read from: it starts no earlier than the first of them and ends no
later than the last (`covers_of_reads_expr`).

The invariant is about places, not about spans: a rule that reads from
one place to another covers the text of the tokens between them. What an
alternative has seen before it was given up leaves no trace in it, for
what is read depends on the place it is read from. Where a rule takes its
start from its first token and its stop from the last token that was
read, the two are the bounds themselves; where parentheses are dropped
the term keeps to less; and where an operator joins its operands, their
spans are the bounds. Rules that read one after another make a row of
terms, since tokens stand one behind the other.
-/
import DepLang.Proofs.Grammar.Forms
import DepLang.Proofs.Grammar.Proper
import DepLang.Proofs.Operators.Simple
import DepLang.Proofs.Parser.Prefix
import DepLang.Proofs.Term.Spans

namespace DepLang

open DepLang.Parser

-- ========================================================== places

/-- The tokens are those of the source, one behind the other in its text,
and all but the end have some characters. -/
structure Input.Placed (inp : Input) (source : Source) : Prop where
  listed : ∀ i < inp.tokens.size, source.tokens[i]? = some (inp.tokenAt i)
  some_char : ∀ i < inp.tokens.size,
    (inp.tokenAt i).span.start < (inp.tokenAt i).span.stop
  forward : ∀ i, (inp.tokenAt i).span.start ≤ (inp.tokenAt i).span.stop
  short : ∀ i, (inp.tokenAt i).span.stop ≤ source.length
  ordered : ∀ i j, i < j →
    (inp.tokenAt i).span.stop ≤ (inp.tokenAt j).span.start

namespace Input

variable {inp : Input} {source : Source} {i j k : Nat}

/-- Where the token before an index stops. -/
def stopBefore (inp : Input) (j : Nat) : Nat :=
  (inp.tokenAt (j - 1)).span.stop

theorem Placed.startAt_le (h : inp.Placed source) (le : i ≤ j) :
    inp.startAt i ≤ inp.startAt j := by
  rcases Nat.lt_or_eq_of_le le with lt | rfl
  · exact Nat.le_trans (h.forward i) (h.ordered i j lt)
  · exact Nat.le_refl _

/-- A token before another stops before the other starts. -/
theorem Placed.stopBefore_le_startAt (h : inp.Placed source) (lt : i < j)
    (le : j ≤ k) : inp.stopBefore j ≤ inp.startAt k :=
  h.ordered (j - 1) k (by omega)

theorem Placed.stopBefore_le (h : inp.Placed source) (le : j ≤ k) :
    inp.stopBefore j ≤ inp.stopBefore k := by
  rcases Nat.lt_or_eq_of_le (Nat.sub_le_sub_right le 1) with lt | same
  · exact Nat.le_trans (h.ordered _ _ lt) (h.forward (k - 1))
  · unfold stopBefore
    rw [same]

theorem Placed.startAt_lt_stopBefore (h : inp.Placed source) (lt : i < j)
    (inside : i < inp.tokens.size) : inp.startAt i < inp.stopBefore j :=
  Nat.lt_of_lt_of_le (h.some_char i inside)
    (h.stopBefore_le (j := i + 1) lt)

end Input

namespace Grammar

open Term

variable {inp : Input} {r : Registry} {source : Source} {i j : Nat}
  {t : Term}

/-- What is read between two places covers the text between them. -/
def CoversBetween (inp : Input) (source : Source) (i j : Nat) (t : Term) :
    Prop :=
  t.Covers source (inp.startAt i) (inp.stopBefore j)

/-- Expressions that start behind a place and end no later than another
cover what they are read from. -/
def CoversInside (inp : Input) (r : Registry) (source : Source)
    (i j : Nat) : Prop :=
  ∀ i' j' t', i < i' → j' ≤ j → Reads inp r expr i' j' t' →
    CoversBetween inp source i' j' t'

theorem CoversInside.mono {i' j' : Nat}
    (h : CoversInside inp r source i j) (le : i ≤ i') (le' : j' ≤ j) :
    CoversInside inp r source i' j' :=
  fun k l t later sooner => h k l t (by omega) (by omega)

section
variable (placed : inp.Placed source)
include placed

theorem CoversBetween.mono {i' j' : Nat}
    (h : CoversBetween inp source i j t) (le : i' ≤ i) (le' : j ≤ j') :
    CoversBetween inp source i' j' t :=
  Covers.mono h (placed.startAt_le le) (placed.stopBefore_le le')

/-- A node with the span of all that was read for it covers that, if its
children are in a row there. -/
theorem covers_node (lt : i < j) (inside : i < inp.tokens.size)
    (located : t.Located source)
    (spanned : t.span = some (spanTo inp (inp.tokenAt i).span.start j))
    (row : InLine source (inp.startAt i) (inp.stopBefore j) t.children) :
    CoversBetween inp source i j t := by
  have some_char : inp.startAt i < inp.stopBefore j :=
    placed.startAt_lt_stopBefore lt inside
  have span : spanTo inp (inp.tokenAt i).span.start j
      = ⟨inp.startAt i, inp.stopBefore j⟩ :=
    congrArg (Span.mk _) (Nat.max_eq_left (Nat.le_of_lt some_char))
  rw [span] at spanned
  exact .of_inLine located spanned some_char (placed.short _) row

/-- One more term in front of a row. -/
theorem inLine_cons {k : Nat} {ts : List Term}
    (first : CoversBetween inp source i k t)
    (rest : InLine source (inp.startAt k) (inp.stopBefore j) ts)
    (lt : i < k) (le : k ≤ j) :
    InLine source (inp.startAt i) (inp.stopBefore j) (t :: ts) := by
  have apart := placed.stopBefore_le_startAt lt (Nat.le_refl k)
  exact .cons first (rest.mono apart (Nat.le_refl _))
    (placed.stopBefore_le le)

/-- A row behind a row. -/
theorem inLine_append {k : Nat} {ts us : List Term}
    (first : InLine source (inp.startAt i) (inp.stopBefore k) ts)
    (rest : InLine source (inp.startAt k) (inp.stopBefore j) us)
    (le : i ≤ k) (lt : k < j) (some_before : 0 < k)
    (inside : k < inp.tokens.size) :
    InLine source (inp.startAt i) (inp.stopBefore j) (ts ++ us) := by
  have apart := placed.stopBefore_le_startAt some_before (Nat.le_refl k)
  exact .append (first.mono (Nat.le_refl _) apart) rest
    (placed.startAt_le le)
    (Nat.le_of_lt (placed.startAt_lt_stopBefore lt inside))

/-- The two parts of a binder. -/
theorem inLine_pair {k : Nat} {u : Term}
    (first : CoversBetween inp source i k t)
    (second : CoversBetween inp source k j u) (lt : i < k) (le : k ≤ j) :
    InLine source (inp.startAt i) (inp.stopBefore j) [t, u] :=
  inLine_cons placed first (Covers.inLine second) lt le

-- ============================================================ atoms

theorem covers_of_atom (within : CoversInside inp r source i j)
    (h : Reads inp r (atom expr) i j t) :
    CoversBetween inp source i j t := by
  obtain ⟨lt, inside⟩ := h.lt atom_alike
  cases reads_atom_cases h with
  | name named =>
      cases named with
      | word token =>
          obtain ⟨rfl, rfl⟩ := h.unique (reads_atom_ident token)
          exact covers_node placed lt inside .ref rfl .nil
      | operator opening token free closing =>
          obtain ⟨rfl, rfl⟩ :=
            h.unique (reads_atom_operator opening token free closing)
          exact covers_node placed lt inside .ref rfl .nil
  | hole token =>
      obtain ⟨rfl, rfl⟩ := h.unique (reads_atom_hole token)
      exact covers_node placed lt inside .hole rfl .nil
  | set token =>
      obtain ⟨rfl, rfl⟩ := h.unique (reads_atom_set token)
      exact covers_node placed lt inside .set rfl .nil
  | @quote body k opening inner closing =>
      obtain ⟨rfl, rfl⟩ := h.unique (reads_atom_quote opening inner closing)
      have body := within _ _ _ (Nat.lt_succ_self i) (Nat.le_succ k) inner
      refine covers_node placed lt inside (.quote body.faithful.located)
        rfl ?_
      exact (body.mono placed (Nat.le_succ i) (Nat.le_succ k)).inLine
  | @parens k opening inner closing stop =>
      have body := within _ _ _ (Nat.lt_succ_self i) (by omega) inner
      exact body.mono placed (Nat.le_succ i) (by omega)

theorem covers_of_namedArgument {x : Name × Term}
    (within : CoversInside inp r source i j)
    (h : Reads inp r (namedArgument expr) i j x) :
    CoversBetween inp source i j x.2 := by
  cases reads_namedArgument_cases h with
  | itself opening target closing =>
      obtain ⟨same, rfl⟩ :=
        h.unique (reads_namedArgument_itself opening target closing)
      have inside : i + 1 < inp.tokens.size := lt_size_of_lexeme target nofun
      rw [same]
      refine CoversBetween.mono placed (i := i + 1) (j := i + 1 + 1) ?_
        (Nat.le_succ i) (Nat.le_succ (i + 1 + 1))
      exact covers_node placed (Nat.lt_succ_self (i + 1)) inside .ref rfl
        .nil
  | value opening target equals inner closing stop =>
      have value := within _ _ _ (by omega) (by omega) inner
      exact value.mono placed (by omega) (by omega)

-- ==================================================== applications

/-- What is read over and over is in a row. -/
theorem inLine_of_reads_many {α : Type} {p : Parser α} {R : Likeness α}
    (plain : Plain p) (alike : Alike True expr expr false true R p p)
    (term : α → Term) {as : List α} (h : Reads inp r (many p) i j as)
    (each : ∀ k l a, i ≤ k → l ≤ j → Reads inp r p k l a →
      CoversBetween inp source k l (term a)) :
    InLine source (inp.startAt i) (inp.stopBefore j) (as.map term) := by
  replace h := readsAll_of_many plain alike h
  induction h with
  | nil => exact .nil
  | cons first less more ih =>
      have rest := ih fun k l a from_k to_j => each k l a (by omega) to_j
      have first := each _ _ _ (Nat.le_refl _) more.le first
      exact inLine_cons placed first rest less more.le

/-- Arguments by name and by position, after a head. -/
theorem covers_of_application {k l : Nat} {fn : Term}
    {named : List (Name × Term)} {args : List Term}
    (within : CoversInside inp r source i j)
    (head : Reads inp r (atom expr) i k fn)
    (names : Reads inp r (many (namedArgument expr)) k l named)
    (rest : Reads inp r (many1 (atom expr)) l j args) :
    CoversBetween inp source i j (.app fn named args
      (some (spanTo inp (inp.tokenAt i).span.start j))) := by
  obtain ⟨a, m, as, rfl, first, more⟩ := reads_many1_cases plain_atom rest
  obtain ⟨lt, inside⟩ := head.lt atom_alike
  obtain ⟨lt', inside'⟩ := first.lt atom_alike
  have le := plain_namedArgument.many.le names
  have le' := plain_atom.many.le more
  have inNames (k' l' : Nat) (a : Name × Term) (from_k : k ≤ k')
      (to_l : l' ≤ l) (h : Reads inp r (namedArgument expr) k' l' a) :
      CoversBetween inp source k' l' a.2 :=
    covers_of_namedArgument placed (within.mono (by omega) (by omega)) h
  have inArgs (k' l' : Nat) (a : Term) (from_m : m ≤ k') (to_j : l' ≤ j)
      (h : Reads inp r (atom expr) k' l' a) :
      CoversBetween inp source k' l' a :=
    covers_of_atom placed (within.mono (by omega) (by omega)) h
  have head := covers_of_atom placed (within.mono (by omega) (by omega)) head
  have first := covers_of_atom placed (within.mono (by omega) (by omega))
    first
  have located : (Term.app fn named (a :: as)
      (some (spanTo inp (inp.tokenAt i).span.start j))).Located source := by
    refine .app head.faithful.located ?_ ?_
    · exact forall_of_reads_many plain_namedArgument namedArgument_alike
        names fun k' l' a from_k to_l h =>
          (inNames k' l' a from_k to_l h).faithful.located
    · refine List.forall_mem_cons.2 ⟨first.faithful.located, ?_⟩
      exact forall_of_reads_many plain_atom atom_alike more
        fun k' l' a from_m to_j h =>
          (inArgs k' l' a from_m to_j h).faithful.located
  -- the head, the values and the arguments, each behind the one before
  have values := inLine_of_reads_many placed plain_namedArgument
    namedArgument_alike Prod.snd names inNames
  have others := inLine_of_reads_many placed plain_atom atom_alike id more
    inArgs
  rw [List.map_id] at others
  have args := inLine_cons placed first others lt' le'
  have behind := inLine_append placed values args le (by omega) (by omega)
    inside'
  refine covers_node placed (by omega) inside located rfl ?_
  exact inLine_cons placed head behind lt (by omega)

-- ========================================================= binders

/-- A lambda whose arrow stands right behind the name that it binds. -/
theorem untyped {text : String}
    (opens : (inp.tokenAt i).lexeme = .operator "\\")
    (binds : (inp.tokenAt (i + 1)).lexeme = .ident text)
    (maps : (inp.tokenAt (i + 1 + 1)).lexeme = .operator "=>") :
    source.Untyped (spanTo inp (inp.tokenAt i).span.start j) :=
  .intro (placed.listed i (lt_size_of_lexeme opens nofun))
    (placed.listed (i + 1) (lt_size_of_lexeme binds nofun))
    (placed.listed (i + 1 + 1) (lt_size_of_lexeme maps nofun))
    rfl opens binds maps

theorem covers_of_lambda (within : CoversInside inp r source i j)
    (h : Reads inp r (lambda expr) i j t) :
    CoversBetween inp source i j t := by
  obtain ⟨lt, inside⟩ := h.lt lambda_alike
  obtain ⟨text, k, type, body, opens, binds, domain, maps, inner, rfl⟩ :=
    reads_lambda_whole h
  have less := lt_of_reads_expr inner
  have le := ((plain_announced ":").optional _).le domain
  have inner := within _ _ _ (by omega) (Nat.le_refl j) inner
  rcases reads_optional_cases (plain_announced ":") domain with
    given | ⟨rfl, rfl⟩
  · have given := (reads_announced_cases given).2
    have lt' := lt_of_reads_expr given
    have domain := within _ _ _ (by omega) (by omega) given
    refine covers_node placed lt inside
      (.lam domain.faithful.located inner.faithful.located) rfl ?_
    exact inLine_pair placed (domain.mono placed (by omega) (Nat.le_refl k))
      (inner.mono placed (Nat.le_succ k) (Nat.le_refl j)) (by omega)
      (by omega)
  · have omitted := untyped (j := j) placed opens binds maps
    refine covers_node placed lt inside
      (.untyped omitted inner.faithful.located) rfl (.bare rfl rfl ?_)
    exact (inner.mono placed (by omega) (Nat.le_refl j)).inLine

theorem covers_of_piBetween {opening closing : Mark} {plicity : Plicity}
    (within : CoversInside inp r source i j)
    (h : Reads inp r (piBetween expr opening closing plicity
      (inp.tokenAt i).span.start) i j t) :
    CoversBetween inp source i j t := by
  obtain ⟨text, type, body, binder, -⟩ := reads_piBetween_cases h
  obtain ⟨k, domain, closes, maps, inner⟩ := binder.rest
  obtain ⟨rfl, -⟩ := h.unique (reads_piBetween binder.opens binder.target
    binder.colon domain closes maps inner)
  have inside : i < inp.tokens.size := lt_size_of_kind <| by
    rw [binder.opens]
    simp
  have lt := lt_of_reads_expr domain
  have lt' := lt_of_reads_expr inner
  have domain := within _ _ _ (by omega) (by omega) domain
  have inner := within _ _ _ (by omega) (Nat.le_refl j) inner
  refine covers_node placed (by omega) inside
    (.pi domain.faithful.located inner.faithful.located) rfl ?_
  exact inLine_pair placed (domain.mono placed (by omega) (Nat.le_refl k))
    (inner.mono placed (by omega) (Nat.le_refl j)) (by omega) (by omega)

theorem covers_of_operand (within : CoversInside inp r source i j)
    (h : Reads inp r (operand expr) i j t) :
    CoversBetween inp source i j t := by
  rcases reads_operand_alternatives h with h | h | h
  · rcases reads_applicationOrAtom_whole h with
      atom | ⟨k, l, fn, named, args, head, names, rest, rfl⟩
    · exact covers_of_atom placed within atom
    · exact covers_of_application placed within head names rest
  · exact covers_of_lambda placed within h
  · rcases reads_piType_alternatives h with h | h
    · exact covers_of_piBetween placed within h
    · exact covers_of_piBetween placed within h

-- ===================================================== expressions

/-- An operation covers its operands and the operator between them. -/
theorem covers_build (declared : ∀ e ∈ r.fixities, e ∈ source.table)
    {level : Level} (member : level ∈ r.fixities.levels.reverse) :
    JoinKeeps inp level (CoversBetween inp source) := by
  intro i k j op x y lt less offered first second
  obtain ⟨token, known⟩ := FixityTable.of_operator?_levels member offered
  have inside : k < inp.tokens.size := lt_size_of_lexeme token nofun
  have isInfix (applied : op.form = .application) :
      source.IsInfix op.symbol := by
    rcases known with ⟨arrow, -⟩ | ⟨-, equality | ⟨e, he, named⟩⟩
    · rw [arrow] at applied
      cases applied
    · exact .inl equality
    · exact .inr ⟨e, declared e he, named⟩
  refine Operator.covers_build isInfix
    (List.mem_of_getElem? (placed.listed k inside)) token
    (placed.forward k) ?_ ?_
  · exact Covers.mono first (Nat.le_refl _)
      (placed.stopBefore_le_startAt lt (Nat.le_refl k))
  · exact Covers.mono second (placed.ordered k (k + 1) (Nat.lt_succ_self k))
      (Nat.le_refl _)

/-- Whatever an expression is read from, it covers that. -/
theorem covers_of_reads_expr (declared : ∀ e ∈ r.fixities, e ∈ source.table)
    (h : Reads inp r expr i j t) : CoversBetween inp source i j t :=
  reads_operand_induction (Q := CoversBetween inp source)
    (fun _ _ _ within operand => covers_of_operand placed within operand)
    (fun _ member => covers_build placed declared member) h

end

end Grammar

end DepLang

/-
An expression means the same wherever it stands. Two inputs may have the
same lexemes up to some place and differ from there on: where one ends,
the other may close a bracket or a declaration. What is read as an
expression in the one, up to that place, is read so in the other, and it
is the same up to spans (`carries_expr`). What is declared there besides
operators makes no difference.

The expression is followed rule by rule, in the forms that were read.
The other input refuses what had to be refused before the same form, for
that is decided by the first tokens; and a repetition stops there as it
did, because before the place the next token is the same, and at the
place it is one that stops everything.
-/
import DepLang.Proofs.Grammar.Cases
import DepLang.Proofs.Grammar.Exclusive
import DepLang.Proofs.Printer.Roundtrip

namespace DepLang

open DepLang.Grammar DepLang.Parser

/-- The same lexemes before a place. -/
structure Input.SameBefore (inp inp' : Input) (m : Nat) : Prop where
  language : inp.language = inp'.language
  lexeme : ∀ i < m, (inp.tokenAt i).lexeme = (inp'.tokenAt i).lexeme

namespace Input.SameBefore

variable {inp inp' : Input} {i m : Nat}

theorem symm (h : inp.SameBefore inp' m) : inp'.SameBefore inp m where
  language := h.language.symm
  lexeme i less := (h.lexeme i less).symm

theorem kind (h : inp.SameBefore inp' m) (less : i < m) {kind : TokenKind}
    (token : (inp.tokenAt i).kind = kind) : (inp'.tokenAt i).kind = kind := by
  rw [Token.kind, ← h.lexeme i less]
  exact token

theorem token (h : inp.SameBefore inp' m) (less : i < m) {l : Lexeme}
    (token : (inp.tokenAt i).lexeme = l) : (inp'.tokenAt i).lexeme = l :=
  (h.lexeme i less).symm.trans token

end Input.SameBefore

namespace Grammar

/-- The other input's rule reads the same term, up to spans. -/
def Carries (inp' : Input) (r : Registry) (p : Parser Term) (i j : Nat)
    (t : Term) : Prop :=
  ∃ t' : Term, t'.erase = t.erase ∧ Reads inp' r p i j t'

theorem carries_of {inp' : Input} {r : Registry} {p : Parser Term}
    {i j : Nat} {t t' : Term} (h : Reads inp' r p i j t')
    (agree : t'.erase = t.erase) : Carries inp' r p i j t :=
  ⟨t', agree, h⟩

/-- Nested expressions behind a start and up to an end are carried, where
an atom can end behind them. -/
def Carried (inp inp' : Input) (r r' : Registry) (i j : Nat) : Prop :=
  ∀ i' j' t', i < i' → j' ≤ j → Reads inp r expr i' j' t' →
    endsAtom (inp'.tokenAt j').lexeme = true →
    Carries inp' r' expr i' j' t'

theorem Carried.mono {inp inp' : Input} {r r' : Registry} {i j i' j' : Nat}
    (h : Carried inp inp' r r' i j) (le : i ≤ i') (le' : j' ≤ j) :
    Carried inp inp' r r' i' j' :=
  fun k l t later sooner => h k l t (by omega) (by omega)

theorem endsAtom_of_closing {l : Lexeme} (closing : isClosing l = true) :
    endsAtom l = true := by
  have stops : Stops [] .binder l := stops_of_closing (by simp) closing
  exact stops.1

theorem endsAtom_of_operator {l : Lexeme} (h : l.kind = .operator) :
    endsAtom l = true := by
  cases l with
  | operator => rfl
  | _ => cases h

theorem isClosing_of_kind {l : Lexeme} {m : Mark} (h : l.kind = .mark m)
    (closing : (m == .rparen || m == .rbrace || m == .rbracket
      || m == .semicolon) = true) : isClosing l = true := by
  cases l with
  | mark m' _ =>
      cases h
      exact closing
  | _ => cases h

section
variable {inp inp' : Input} {r r' : Registry} {m i j : Nat} {t : Term}
  (standard : inp.language = .standard) (same : inp.SameBefore inp' m)
include standard same

-- ============================================================ atoms

/-- An atom, if the expressions that end before it does are carried. -/
theorem carries_atom (le : j ≤ m)
    (nested : Carried inp inp' r r' i (j - 1))
    (h : Reads inp r (atom expr) i j t) :
    Carries inp' r' (atom expr) i j t := by
  have standard' : inp'.language = .standard :=
    same.language.symm.trans standard
  cases reads_atom_cases h with
  | name named shape =>
      cases named with
      | word token stop =>
          subst stop
          exact carries_of (reads_atom_ident (same.token le token)) shape.symm
      | operator opening token free closing stop =>
          subst stop
          rw [same.language] at free
          exact carries_of (reads_atom_operator
            (same.kind (by omega) opening) (same.token (by omega) token)
            free (same.kind (by omega) closing)) shape.symm
  | hole token stop shape =>
      subst stop
      exact carries_of (reads_atom_hole (same.kind le token)) shape.symm
  | set token stop shape =>
      subst stop
      exact carries_of (reads_atom_set (same.token le token)) shape.symm
  | quote opening inner closing stop shape =>
      subst stop
      have closes := same.kind le closing
      obtain ⟨body, agree, inner'⟩ := nested _ _ _ (by omega) (by omega) inner
        (endsAtom_of_closing (isClosing_of_kind closes rfl))
      have less := lt_of_reads_expr inner
      refine carries_of (reads_atom_quote (same.kind (by omega) opening)
        inner' closes) ?_
      rw [shape, Term.erase, agree]
  | parens opening inner closing stop =>
      subst stop
      have closes := same.kind le closing
      obtain ⟨t', agree, inner'⟩ := nested _ _ _ (by omega) (by omega) inner
        (endsAtom_of_closing (isClosing_of_kind closes rfl))
      have less := lt_of_reads_expr inner
      have next := not_free_of_reads inner'
        (by rw [standard']; decide)
      exact carries_of (reads_atom_parens (same.kind (by omega) opening)
        next inner' closes) agree

-- ======================================================== operands

/-- Atoms one after another, up to where no other can start. -/
theorem carries_atoms {ts : List Term} (le : j ≤ m)
    (nested : Carried inp inp' r r' i j)
    (ends : endsAtom (inp'.tokenAt j).lexeme = true)
    (h : Reads inp r (many (atom expr)) i j ts) :
    ∃ ts', Term.eraseAll ts' = Term.eraseAll ts
      ∧ Reads inp' r' (many (atom expr)) i j ts' := by
  replace h := readsAll_of_many plain_atom atom_alike h
  induction h with
  | nil =>
      exact ⟨[], rfl,
        reads_many_nil (refuses_atom (endsAtom_iff.1 ends).1)⟩
  | cons first less more ih =>
      have le' := more.le
      obtain ⟨t', agree, first'⟩ := carries_atom standard same (by omega)
        (nested.mono (Nat.le_refl _) (by omega)) first
      obtain ⟨ts', agrees, more'⟩ :=
        ih le (nested.mono (by omega) (Nat.le_refl _)) ends
      refine ⟨t' :: ts', by rw [Term.eraseAll, Term.eraseAll, agree, agrees],
        ?_⟩
      have inside := (kind_of_startsAtom (startsAtom_of_reads first')).1
      exact reads_many_cons inside less first' more'

omit standard in
theorem carries_namedArgument {x : Name × Term} (le : j ≤ m)
    (nested : Carried inp inp' r r' i j)
    (h : Reads inp r (namedArgument expr) i j x) :
    ∃ t', t'.erase = x.2.erase
      ∧ Reads inp' r' (namedArgument expr) i j (x.1, t') := by
  cases reads_namedArgument_cases h with
  | itself opening target closing stop shape =>
      subst stop
      refine ⟨_, ?_, reads_namedArgument_itself
        (same.kind (by omega) opening) (same.token (by omega) target)
        (same.kind (by omega) closing)⟩
      exact shape.symm
  | value opening target equals inner closing stop =>
      subst stop
      have less := lt_of_reads_expr inner
      have closes := same.kind le closing
      obtain ⟨t', agree, inner'⟩ := nested _ _ _ (by omega) (by omega) inner
        (endsAtom_of_closing (isClosing_of_kind closes rfl))
      exact ⟨t', agree, reads_namedArgument (same.kind (by omega) opening)
        (same.token (by omega) target) (same.token (by omega) equals) inner'
        closes⟩

omit standard in
/-- Arguments by name, up to where an atom starts. -/
theorem carries_namedArguments {xs : List (Name × Term)} (le : j ≤ m)
    (nested : Carried inp inp' r r' i j)
    (starts : startsAtom (inp'.tokenAt j).lexeme = true)
    (h : Reads inp r (many (namedArgument expr)) i j xs) :
    ∃ xs', Term.eraseNamed xs' = Term.eraseNamed xs
      ∧ Reads inp' r' (many (namedArgument expr)) i j xs' := by
  replace h := readsAll_of_many plain_namedArgument namedArgument_alike h
  induction h with
  | nil =>
      exact ⟨[], rfl, reads_many_nil
        (refuses_namedArgument (kind_of_startsAtom starts).2)⟩
  | @cons _ _ _ x _ first less more ih =>
      have le' := more.le
      obtain ⟨t', agree, first'⟩ := carries_namedArgument same (by omega)
        (nested.mono (Nat.le_refl _) le') first
      obtain ⟨xs', agrees, more'⟩ :=
        ih le (nested.mono (by omega) (Nat.le_refl _)) starts
      refine ⟨(x.1, t') :: xs', by
        rw [Term.eraseNamed, Term.eraseNamed, agree, agrees], ?_⟩
      have opens := (reads_namedArgument_cases first').opens
      exact reads_many_cons (by simp [opens]) less first' more'

omit standard in
/-- A binder in brackets and what it maps to. -/
theorem carries_binder {opening closing : Mark} {text : String}
    {type body : Term} (le : j ≤ m) (nested : Carried inp inp' r r' i j)
    (ends : endsAtom (inp'.tokenAt j).lexeme = true)
    (closes : (closing == .rparen || closing == .rbrace
      || closing == .rbracket || closing == .semicolon) = true)
    (h : BinderForm inp r opening closing i j text type body) :
    ∃ type' body' : Term, type'.erase = type.erase
      ∧ body'.erase = body.erase
      ∧ BinderForm inp' r' opening closing i j text type' body' := by
  obtain ⟨k, domain, closer, maps, inner⟩ := h.rest
  have less := lt_of_reads_expr domain
  have less' := lt_of_reads_expr inner
  have closer := same.kind (by omega) closer
  obtain ⟨type', agree, domain'⟩ := nested _ _ _ (by omega) (by omega) domain
    (endsAtom_of_closing (isClosing_of_kind closer closes))
  obtain ⟨body', agree', inner'⟩ := nested _ _ _ (by omega) (by omega) inner
    ends
  exact ⟨type', body', agree, agree',
    same.kind (by omega) h.opens, same.token (by omega) h.target,
    same.token (by omega) h.colon, k, domain', closer,
    same.token (by omega) maps, inner'⟩

omit standard in
/-- The type that a lambda gives to its variable, or none. -/
theorem carries_domain {type : Term} (le : j ≤ m)
    (nested : Carried inp inp' r r' i j)
    (maps : (inp'.tokenAt j).lexeme = .operator "=>")
    (h : Reads inp r ((announced ":").optional (.hole none)) (i + 1) j
      type) :
    Carries inp' r' ((announced ":").optional (.hole none)) (i + 1) j
      type := by
  rcases reads_optional_cases (plain_announced ":") h with
    given | ⟨rfl, rfl⟩
  · obtain ⟨colon, typed⟩ := reads_announced_cases given
    have less := lt_of_reads_expr typed
    obtain ⟨type', agree, typed'⟩ := nested _ _ _ (by omega)
      (Nat.le_refl j) typed (by rw [maps]; rfl)
    exact carries_of
      (reads_ascription (same.token (by omega) colon) typed') agree
  · refine carries_of (reads_no_ascription ?_) rfl
    rw [maps]
    decide

/-- A head with what it is applied to. -/
theorem carries_application {k l : Nat} {fn : Term}
    {named : List (Name × Term)} {args : List Term} (le : j ≤ m)
    (nested : Carried inp inp' r r' i j)
    (ends : endsAtom (inp'.tokenAt j).lexeme = true)
    (head : Reads inp r (atom expr) i k fn)
    (names : Reads inp r (many (namedArgument expr)) k l named)
    (rest : Reads inp r (many1 (atom expr)) l j args)
    (shape : t.erase = .app fn.erase (Term.eraseNamed named)
      (Term.eraseAll args) none) :
    Carries inp' r' (operand expr) i j t := by
  obtain ⟨a, n, as, rfl, first, more⟩ := reads_many1_cases plain_atom rest
  have := lt_of_reads_atom head
  have := plain_namedArgument.many.le names
  have := lt_of_reads_atom first
  have := plain_atom.many.le more
  obtain ⟨fn', agree, head'⟩ := carries_atom standard same (by omega)
    (nested.mono (by omega) (by omega)) head
  obtain ⟨a', agree', first'⟩ := carries_atom standard same (by omega)
    (nested.mono (by omega) (by omega)) first
  obtain ⟨xs, agrees, names'⟩ := carries_namedArguments same (by omega)
    (nested.mono (by omega) (by omega)) (startsAtom_of_reads first') names
  obtain ⟨as', agrees', more'⟩ := carries_atoms standard same le
    (nested.mono (by omega) (by omega)) ends more
  refine carries_of (reads_application head' names'
    (Reads.many1 first' more')) ?_
  rw [shape, Term.erase, agree, agrees, Term.eraseAll, agree', agrees',
    ← Term.eraseAll]

variable (free : ∀ entry ∈ r.fixities,
    Language.standard.isReservedOperator entry.symbol = false)
  (table : r'.fixities = r.fixities)
include free table

theorem carries_operand (le : j ≤ m) (nested : Carried inp inp' r r' i j)
    (ends : endsAtom (inp'.tokenAt j).lexeme = true)
    (h : Reads inp r (operand expr) i j t) :
    Carries inp' r' (operand expr) i j t := by
  cases reads_operand_cases h with
  | atom h =>
      obtain ⟨t', agree, h'⟩ := carries_atom standard same le
        (nested.mono (Nat.le_refl i) (Nat.sub_le j 1)) h
      exact carries_of (reads_operand_of_atom h' ends) agree
  | app head names rest shape =>
      exact carries_application standard same le nested ends head names rest
        shape
  | @lambda text k type body opening target domain maps inner shape =>
      have less := lt_of_reads_expr inner
      have le' := ((plain_announced ":").optional (.hole none)).le domain
      have maps' := same.token (by omega) maps
      obtain ⟨type', agree, domain'⟩ := carries_domain same (by omega)
        (nested.mono (by omega) (by omega)) maps' domain
      obtain ⟨body', agree', inner'⟩ := nested _ _ _ (by omega) (by omega)
        inner ends
      refine carries_of (reads_lambda (same.token (by omega) opening)
        (same.token (by omega) target) domain' maps' inner') ?_
      rw [shape, Term.erase, agree, agree']
  | explicit binder shape =>
      obtain ⟨type', body', agree, agree', binder'⟩ :=
        carries_binder same le nested ends rfl binder
      obtain ⟨k, domain, closes, maps, inner⟩ := binder'.rest
      obtain ⟨name, alone⟩ :=
        reads_expr_before_colon (table ▸ free) binder'.target binder'.colon
      refine carries_of (reads_pi_explicit binder'.opens binder'.target
        binder'.colon alone domain closes maps inner) ?_
      rw [shape, Term.erase, agree, agree']
  | implicit binder shape =>
      obtain ⟨type', body', agree, agree', binder'⟩ :=
        carries_binder same le nested ends rfl binder
      obtain ⟨k, domain, closes, maps, inner⟩ := binder'.rest
      refine carries_of (reads_pi_implicit binder'.opens binder'.target
        binder'.colon domain closes maps inner) ?_
      rw [shape, Term.erase, agree, agree']

-- ========================================================== chains

omit standard free table in
/-- The links of a chain, each with its operand carried over. -/
theorem carries_links {level : Level} {assoc : Assoc}
    {rest : List (Operator × Term)} {P Q : Nat → Nat → Term → Prop}
    (bounds : ∀ k l y, P k l y → k ≤ l) {start : Nat}
    (each : ∀ k l y, start ≤ k → l ≤ j → P k l y →
      (l < j → (inp.tokenAt l).kind = .operator) →
      ∃ y' : Term, y'.erase = y.erase ∧ Q k l y')
    (le : j ≤ m) (from_start : start ≤ i)
    (idle : level.operator? (inp'.tokenAt j).lexeme = none)
    (h : Links inp level assoc P i j rest) :
    ∃ rest', List.Forall₂ (Agree False eraseStep) rest' rest
      ∧ Links inp' level assoc Q i j rest' := by
  induction h with
  | nil => exact ⟨[], .nil, .nil idle⟩
  | @cons i j k op y rest token goes operand more ih =>
      have less := bounds _ _ _ operand
      have less' := more.le bounds
      obtain ⟨y', agree, operand'⟩ := each _ _ _ (by omega) less' operand
        fun inside => by
          cases more with
          | nil => omega
          | cons token => exact operator_of_offered token
      obtain ⟨rest', agrees, more'⟩ := ih each le (by omega) idle
      rw [same.lexeme i (by omega)] at token
      refine ⟨(op, y') :: rest', .cons ⟨?_, False.elim⟩ agrees,
        .cons token goes operand' more'⟩
      rw [eraseStep, eraseStep, agree]

theorem carries_chains {levels : List Level} (le : j ≤ m)
    (nested : Carried inp inp' r r' i j)
    (ends : endsAtom (inp'.tokenAt j).lexeme = true)
    (idle : ∀ level ∈ levels,
      level.operator? (inp'.tokenAt j).lexeme = none)
    (h : Reads inp r (chains (operand expr) levels) i j t) :
    Carries inp' r' (chains (operand expr) levels) i j t := by
  induction levels generalizing i j t with
  | nil => exact carries_operand standard same free table le nested ends h
  | cons level tighter ih =>
      have plain := plain_chains tighter
      have bounds : ∀ k l y,
          Reads inp r (chains (operand expr) tighter) k l y → k ≤ l :=
        fun _ _ _ => plain.le
      have bounds' : ∀ k l y,
          Reads inp' r' (chains (operand expr) tighter) k l y → k ≤ l :=
        fun _ _ _ => plain.le
      have here := idle level List.mem_cons_self
      have tight := fun lv hl => idle lv (List.mem_cons_of_mem level hl)
      -- an operand ends at the end, or before an operator
      have each : ∀ k l y, i ≤ k → l ≤ j →
          Reads inp r (chains (operand expr) tighter) k l y →
          (l < j → (inp.tokenAt l).kind = .operator) →
          Carries inp' r' (chains (operand expr) tighter) k l y := by
        intro k l y from_i to_j read operator
        rcases Nat.lt_or_eq_of_le to_j with inside | rfl
        · have lexeme := same.lexeme l (by omega)
          refine ih (by omega) (nested.mono from_i to_j) ?_ (fun lv hl => ?_)
            read
          · rw [← lexeme]
            exact endsAtom_of_operator (operator inside)
          · rw [← lexeme]
            exact idle_of_reads_chains read lv hl
        · exact ih le (nested.mono from_i (Nat.le_refl l)) ends tight read
      cases reads_chain_cases plain h with
      | single operand =>
          obtain ⟨t', agree, operand'⟩ := each i j t (Nat.le_refl i)
            (Nat.le_refl j) operand (by omega)
          exact carries_of (ChainForm.reads bounds' (.single operand' here))
            agree
      | @many k l op x y rest first token second more shape =>
          have to_k := bounds _ _ _ first
          have to_l := bounds _ _ _ second
          have to_j := more.le bounds
          obtain ⟨x', agree, first'⟩ := each i k x (Nat.le_refl i) (by omega)
            first fun _ => operator_of_offered token
          obtain ⟨y', agree', second'⟩ := each _ l y (by omega) (by omega)
            second fun inside => by
              cases more with
              | nil => omega
              | cons token => exact operator_of_offered token
          obtain ⟨rest', agrees, more'⟩ := carries_links same bounds
            (fun k' l' y' from_l => each k' l' y' (by omega)) le
            (Nat.le_refl l) here more
          rw [same.lexeme k (by omega)] at token
          refine carries_of (ChainForm.reads bounds'
            (.many first' token second' more' rfl)) ?_
          have head : Term.Agrees False x' x := ⟨agree, False.elim⟩
          have step : Agree False eraseStep (op, y') (op, y) :=
            agree_step.2 ⟨rfl, agree', False.elim⟩
          rw [shape]
          exact (joinChain_agrees op.assoc head (.cons step agrees)).1

-- ===================================================== expressions

/-- An expression is read over to the other input, if that has a lexeme
at the place that stops expressions. -/
theorem carries_expr
    (stops : Stops r.fixities .binder (inp'.tokenAt m).lexeme)
    (le : j ≤ m) (ends : endsAtom (inp'.tokenAt j).lexeme = true)
    (h : Reads inp r expr i j t) : Carries inp' r' expr i j t := by
  refine reads_expr_induction (Q := fun i j t => j ≤ m →
    endsAtom (inp'.tokenAt j).lexeme = true → Carries inp' r' expr i j t)
    (fun i j t nested read le ends => ?_) h le ends
  have chains := chains_of_reads_expr read
  -- at the place the other input stops, and before it ends as this one
  have idle : ∀ level ∈ r.fixities.levels.reverse,
      level.operator? (inp'.tokenAt j).lexeme = none := by
    intro level member
    rcases Nat.lt_or_eq_of_le le with before | rfl
    · rw [← same.lexeme j before]
      exact idle_of_reads_chains chains level member
    · rw [FixityTable.reverse_levels] at member
      rcases List.mem_cons.1 member with rfl | member
      · exact stops.2.2
      · exact stops.2.1 level member
  have inner : Carried inp inp' r r' i j :=
    fun k l t' later sooner read' ends' =>
      nested k l t' later sooner read' (by omega) ends'
  obtain ⟨t', agree, read'⟩ :=
    carries_chains standard same free table le inner ends idle chains
  rw [← table] at read'
  exact carries_of (reads_expr read') agree

/-- Behind an atom anything may stand: what is nested in it ends inside,
and there the lexemes are the same. -/
theorem carries_whole_atom (le : j ≤ m)
    (h : Reads inp r (atom expr) i j t) :
    Carries inp' r' (atom expr) i j t := by
  have less := lt_of_reads_atom h
  refine carries_atom standard same le
    (fun k l t' later sooner read ends => ?_) h
  have inside : l < m := by omega
  have stops : Stops r.fixities .binder (inp'.tokenAt l).lexeme := by
    have idle := idle_of_reads_chains (chains_of_reads_expr read)
    rw [same.lexeme l inside, FixityTable.reverse_levels] at idle
    obtain ⟨arrow, tighter⟩ := List.forall_mem_cons.1 idle
    exact ⟨ends, tighter, arrow⟩
  have before : inp.SameBefore inp' l :=
    ⟨same.language, fun n less => same.lexeme n (by omega)⟩
  exact carries_expr standard before free table stops (Nat.le_refl l) ends
    read

end

end Grammar

end DepLang

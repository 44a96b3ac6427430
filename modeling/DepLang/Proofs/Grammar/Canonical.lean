/-
What expressions are read to. Their names are words and operators as the
text spells them, their infix operators are those of the table, and what
takes arguments has some: whatever holds of terms of these forms if it
holds of their parts, holds of what an expression is read to
(`expr_finds`).

So it is a canonical term, but for two things that can be written and
are not printed as they were. An operator may be applied to two
arguments as any other name is, by prefixing it in parentheses, and is
then printed infix, declared or not. And the head of an application may
be an application in parentheses, which are not printed. The conditions
`InfixDeclared` and `HeadApart` exclude these.

Each rule of expressions has one lemma here, which follows the rule line
by line.
-/
import DepLang.Grammar.Expr
import DepLang.Proofs.Lexer.Spelled
import DepLang.Proofs.Operators.Levels
import DepLang.Proofs.Parser.Finds
import DepLang.Proofs.Printer.Canonical
import DepLang.Proofs.Term.Agree

namespace DepLang

open DepLang.Parser

-- ======================================================== subterms

namespace Term

mutual

/-- The term and all terms in it. -/
def subterms : Term → List Term
  | .ref name σ => [.ref name σ]
  | .hole σ => [.hole σ]
  | .set σ => [.set σ]
  | .quote body σ => .quote body σ :: body.subterms
  | .hidden body σ => .hidden body σ :: body.subterms
  | .app fn implicits args σ =>
    .app fn implicits args σ
      :: (fn.subterms ++ subtermsNamed implicits ++ subtermsAll args)
  | .lam binder type body σ =>
    .lam binder type body σ :: (type.subterms ++ body.subterms)
  | .pi plicity binder type body σ =>
    .pi plicity binder type body σ :: (type.subterms ++ body.subterms)

/-- The terms in positional arguments. -/
def subtermsAll : List Term → List Term
  | [] => []
  | t :: ts => t.subterms ++ subtermsAll ts

/-- The terms in arguments given by name. -/
def subtermsNamed : List (Name × Term) → List Term
  | [] => []
  | (_, t) :: ts => t.subterms ++ subtermsNamed ts

end

theorem subtermsAll_eq_flatMap (ts : List Term) :
    subtermsAll ts = ts.flatMap subterms := by
  induction ts with
  | nil => rfl
  | cons t ts ih => rw [subtermsAll, List.flatMap_cons, ih]

theorem subtermsNamed_eq_flatMap (ts : List (Name × Term)) :
    subtermsNamed ts = ts.flatMap fun a => a.2.subterms := by
  induction ts with
  | nil => rfl
  | cons a ts ih => rw [subtermsNamed, List.flatMap_cons, ih]

theorem mem_subtermsAll {ts : List Term} {t u : Term} (ht : t ∈ ts)
    (hu : u ∈ t.subterms) : u ∈ subtermsAll ts := by
  rw [subtermsAll_eq_flatMap]
  exact List.mem_flatMap.2 ⟨t, ht, hu⟩

theorem mem_subtermsNamed {ts : List (Name × Term)} {a : Name × Term}
    {u : Term} (ha : a ∈ ts) (hu : u ∈ a.2.subterms) :
    u ∈ subtermsNamed ts := by
  rw [subtermsNamed_eq_flatMap]
  exact List.mem_flatMap.2 ⟨a, ha, hu⟩

-- ====================================================== conditions

/-- An operator applied to two arguments and nothing else is equality or
in the table. -/
def InfixDeclared (table : FixityTable) : Term → Prop
  | .app fn implicits args _ =>
    ∀ op ∈ infixOperator? fn implicits args,
      op = .ofText "=" ∨ ∃ e ∈ table, op = .ofText e.symbol
  | _ => True

/-- The head of an application does not print as an application. -/
def HeadApart : Term → Prop
  | .app fn _ _ _ => fn.precedence ≠ .application
  | _ => True

instance (table : FixityTable) : DecidablePred (InfixDeclared table)
  | .app _ _ _ _ => inferInstanceAs (Decidable (∀ op ∈ _, _ ∨ _))
  | .ref _ _ | .hole _ | .set _ | .quote _ _ | .hidden _ _
  | .lam _ _ _ _ | .pi _ _ _ _ _ => isTrue trivial

instance : DecidablePred HeadApart
  | .app _ _ _ _ => inferInstanceAs (Decidable (_ ≠ _))
  | .ref _ _ | .hole _ | .set _ | .quote _ _ | .hidden _ _
  | .lam _ _ _ _ | .pi _ _ _ _ _ => isTrue trivial

/-- All parts of the term meet the conditions. -/
def Settled (table : FixityTable) (t : Term) : Prop :=
  ∀ u ∈ t.subterms, u.InfixDeclared table ∧ u.HeadApart

/-- The term is canonical, if its parts meet the conditions. -/
def Reprints (table : FixityTable) (t : Term) : Prop :=
  t.Settled table → t.Canonical table

variable {table : FixityTable} {t u : Term} {σ : Option Span}

theorem reprints_quote (h : t.Reprints table) :
    (quote t σ).Reprints table :=
  fun settled => .quote <| h fun u hu => settled u <| by
    rw [subterms]
    exact List.mem_cons_of_mem _ hu

theorem reprints_lam {text : String} (name : IsIdentifier text)
    (ht : t.Reprints table) (hu : u.Reprints table) :
    (lam (.ofText text) t u σ).Reprints table := by
  intro settled
  simp only [Settled, subterms, List.forall_mem_cons,
    List.forall_mem_append] at settled
  exact .lam name (ht settled.2.1) (hu settled.2.2)

theorem reprints_pi {plicity : Plicity} {text : String}
    (name : IsIdentifier text) (ht : t.Reprints table)
    (hu : u.Reprints table) :
    (pi plicity (.ofText text) t u σ).Reprints table := by
  intro settled
  simp only [Settled, subterms, List.forall_mem_cons,
    List.forall_mem_append] at settled
  exact .pi name (ht settled.2.1) (hu settled.2.2)

theorem reprints_arrow (ht : t.Reprints table) (hu : u.Reprints table) :
    (pi .explicit arrowBinder t u σ).Reprints table := by
  intro settled
  simp only [Settled, subterms, List.forall_mem_cons,
    List.forall_mem_append] at settled
  exact .arrow (ht settled.2.1) (hu settled.2.2)

/-- What prints infix is a name applied to two operands. -/
theorem eq_of_infixOperator? {fn : Term} {implicits : List (Name × Term)}
    {args : List Term} {op : Name}
    (h : infixOperator? fn implicits args = some op) :
    ∃ head x y, fn = .ref op head ∧ implicits = [] ∧ args = [x, y] := by
  unfold infixOperator? at h
  split at h
  · split at h
    · cases h
      exact ⟨_, _, _, rfl, rfl, rfl⟩
    · cases h
  · cases h

theorem reprints_app {fn : Term} {implicits : List (Name × Term)}
    {args : List Term} (some_arg : args ≠ []) (head : fn.Reprints table)
    (names : ∀ a ∈ implicits,
      (∃ text, a.1 = .ofText text ∧ IsIdentifier text)
        ∧ a.2.Reprints table)
    (each : ∀ a ∈ args, a.Reprints table) :
    (app fn implicits args σ).Reprints table := by
  intro settled
  simp only [Settled, subterms, List.forall_mem_cons,
    List.forall_mem_append] at settled
  obtain ⟨⟨declared, apart⟩, ⟨inHead, inNamed⟩, inArgs⟩ := settled
  have each : ∀ a ∈ args, a.Canonical table := fun a ha =>
    each a ha fun u hu => inArgs u (mem_subtermsAll ha hu)
  cases shown : infixOperator? fn implicits args with
  | none =>
      exact .app shown apart some_arg (fun a ha => (names a ha).1)
        (head inHead)
        (fun a ha => (names a ha).2 fun u hu =>
          inNamed u (mem_subtermsNamed ha hu)) each
  | some op =>
      have known : op = .ofText "=" ∨ ∃ e ∈ table, op = .ofText e.symbol :=
        declared op shown
      obtain ⟨head, x, y, rfl, rfl, rfl⟩ := eq_of_infixOperator? shown
      have hx := each x List.mem_cons_self
      have hy := each y (List.mem_cons_of_mem x List.mem_cons_self)
      rcases known with rfl | ⟨e, he, rfl⟩
      · exact .joined (.inl rfl) hx hy
      · exact .joined (.inr ⟨e, he, rfl⟩) hx hy

-- =========================================================== forms

/-- What holds of a term of any form that can be written, if it holds of
the term's parts. -/
structure Forms (table : FixityTable) (P : Term → Prop) : Prop where
  word {text : String} {σ : Option Span} :
    IsIdentifier text → P (.ref (.ofText text) σ)
  operator {text : String} {σ : Option Span} :
    IsFreeOperator text → P (.ref (.ofText text) σ)
  hole {σ : Option Span} : P (.hole σ)
  set {σ : Option Span} : P (.set σ)
  quote {t : Term} {σ : Option Span} : P t → P (.quote t σ)
  lam {text : String} {t u : Term} {σ : Option Span} :
    IsIdentifier text → P t → P u → P (.lam (.ofText text) t u σ)
  pi {plicity : Plicity} {text : String} {t u : Term} {σ : Option Span} :
    IsIdentifier text → P t → P u → P (.pi plicity (.ofText text) t u σ)
  arrow {t u : Term} {σ : Option Span} :
    P t → P u → P (.pi .explicit arrowBinder t u σ)
  joined {symbol : String} {x y : Term} {head σ : Option Span} :
    (symbol = "=" ∨ ∃ e ∈ table, e.symbol = symbol) → P x → P y →
      P (.app (.ref (.ofText symbol) head) [] [x, y] σ)
  app {fn : Term} {implicits : List (Name × Term)} {args : List Term}
    {σ : Option Span} : args ≠ [] → P fn →
      (∀ a ∈ implicits, (∃ text, a.1 = .ofText text ∧ IsIdentifier text)
        ∧ P a.2) →
      (∀ a ∈ args, P a) → P (.app fn implicits args σ)

theorem reprints_forms (table : FixityTable) :
    Forms table (Reprints table) where
  word name _ := .word name
  operator name _ := .operator name
  hole _ := .hole
  set _ := .set
  quote := reprints_quote
  lam := reprints_lam
  pi := reprints_pi
  arrow := reprints_arrow
  joined known hx hy := by
    intro settled
    simp only [Settled, subterms, subtermsNamed, subtermsAll,
      List.append_nil, List.forall_mem_cons, List.forall_mem_append]
      at settled
    exact .joined known (hx settled.2.2.1) (hy settled.2.2.2)
  app := reprints_app

end Term

-- ======================================================= operators

/-- What the operator makes is of the table's making. -/
def Operator.Joins (table : FixityTable) (op : Operator) : Prop :=
  op.form = .application →
    op.symbol = "=" ∨ ∃ e ∈ table, e.symbol = op.symbol

section
variable {table : FixityTable} {op : Operator} {x y : Term}

variable {P : Term → Prop} (forms : Term.Forms table P)
include forms

theorem build_forms (joins : op.Joins table) (hx : P x) (hy : P y) :
    P (op.build x y) := by
  unfold Operator.build
  cases form : op.form with
  | arrow => exact forms.arrow hx hy
  | application => exact forms.joined (joins form) hx hy

omit forms in
/-- The levels of a table hold its operators, equality and the
arrow. -/
theorem joins_of_mem_levels {level : Level} (hl : level ∈ table.levels)
    (hop : op ∈ level) : op.Joins table := by
  have split : level ∈ table.runs.map Level.ofEntries
      ∨ level ∈ [Level.equality, Level.arrow] := List.mem_append.1 hl
  rcases split with split | split
  · obtain ⟨run, hrun, rfl⟩ := List.mem_map.1 split
    have fromRun : ∃ e ∈ run, op = Level.declared e := by
      simp only [Level.ofEntries, List.mem_append, List.mem_map,
        List.mem_filter] at hop
      obtain (⟨e, ⟨he, -⟩, rfl⟩ | ⟨e, ⟨he, -⟩, rfl⟩) | ⟨e, ⟨he, -⟩, rfl⟩ := hop
      all_goals exact ⟨e, he, rfl⟩
    obtain ⟨e, he, rfl⟩ := fromRun
    exact fun _ => .inr
      ⟨e, (FixityTable.mem_iff_runs e).2 ⟨run, hrun, he⟩, rfl⟩
  · rcases List.mem_cons.1 split with rfl | split
    · cases List.mem_singleton.1 hop
      exact fun _ => .inl rfl
    · cases List.mem_singleton.1 split
      cases List.mem_singleton.1 hop
      exact fun form => by cases form

end

-- ========================================================== inputs

/-- An input of the standard language whose words and operators are such
by themselves, and whose numbers can be written. -/
structure Input.Spelled (inp : Input) : Prop where
  language : inp.language = .standard
  ident : ∀ i word, (inp.tokenAt i).lexeme = .ident word →
    IsIdentifier word
  operator : ∀ i symbol, (inp.tokenAt i).lexeme = .operator symbol →
    Lexer.Lone symbol (.operator symbol)
  natural : ∀ i n, (inp.tokenAt i).lexeme = .natural n →
    n.repr.length ≤ Text.digitLimit

namespace Grammar

variable {inp : Input} {table : FixityTable} {P : Term → Prop}

/-- A name spelled by an identifier. -/
def IsWord (name : Name) : Prop :=
  ∃ text, name = .ofText text ∧ IsIdentifier text

/-- A name that can be defined: one spelled by an identifier or by an
operator. -/
def IsTarget (name : Name) : Prop :=
  ∃ text, name = .ofText text ∧ (IsIdentifier text ∨ IsFreeOperator text)

theorem finds_mark (m : Mark) :
    Finds inp table (fun _ => True) (mark m) := by
  unfold mark expect
  exact finds_acceptIf.any

theorem finds_symbol (op : String) :
    Finds inp table (fun _ => True) (symbol op) := by
  unfold symbol
  exact finds_acceptIf.any

theorem finds_reserved (word : String) :
    Finds inp table (fun _ => True) (reserved word) := by
  unfold reserved
  exact finds_acceptIf.any

theorem finds_here : Finds inp table (fun _ => True) here :=
  finds_ask fun _ => trivial

theorem finds_located {start : Nat} {f : Option Span → Term}
    (h : ∀ σ, P (f σ)) : Finds inp table P (located start f) := by
  have span : Finds inp table (fun _ => True) (spanFrom start) :=
    finds_ask fun _ => trivial
  exact span.bind fun σ _ => finds_pure (h (some σ))

theorem ascription_finds {e : Parser Term}
    (he : Finds inp table P e) : Finds inp table P (ascription e) :=
  (finds_symbol _).bind fun _ _ => he

-- =========================================================== names

section
variable (spelled : inp.Spelled)
include spelled

theorem identName_finds : Finds inp table IsWord identName := by
  have token : Finds inp table
      (fun t => ∃ i, t = inp.tokenAt i ∧ (t.lexeme.kind == .ident) = true)
      identifier := by
    unfold identifier expect
    exact finds_acceptIf
  refine token.bind fun t found => finds_pure ?_
  obtain ⟨i, rfl, ident⟩ := found
  cases lexeme : (inp.tokenAt i).lexeme with
  | ident word =>
      refine ⟨word, ?_, spelled.ident i word lexeme⟩
      rw [Token.text, lexeme]
      rfl
  | _ => simp [lexeme, Lexeme.kind] at ident

theorem operatorName_finds :
    Finds inp table (fun x => ∃ text, x = .ofText text
      ∧ IsFreeOperator text) operatorName := by
  refine (finds_mark _).bind fun _ _ => ?_
  refine finds_acceptIf.bind fun t found => ?_
  refine (finds_mark _).bind fun _ _ => finds_pure ?_
  obtain ⟨i, rfl, free⟩ := found
  cases lexeme : (inp.tokenAt i).lexeme with
  | operator symbol =>
      rw [lexeme, spelled.language] at free
      refine ⟨symbol, ?_, spelled.operator i symbol lexeme, ?_⟩
      · rw [Token.text, lexeme]
        rfl
      · simpa [isFreeOperator] using free
  | _ => simp [lexeme, isFreeOperator] at free

theorem name_finds : Finds inp table IsTarget name := by
  refine .choice ⟨(identName_finds spelled).imp ?_,
    (operatorName_finds spelled).imp ?_⟩
  · rintro _ ⟨text, rfl, word⟩
    exact ⟨text, rfl, .inl word⟩
  · rintro _ ⟨text, rfl, operator⟩
    exact ⟨text, rfl, .inr operator⟩

-- =========================================================== atoms

variable {e : Parser Term} {start : Nat} (forms : Term.Forms table P)
include forms

theorem reference_finds : Finds inp table P (reference start) := by
  refine (name_finds spelled).bind ?_
  rintro _ ⟨text, rfl, word | operator⟩
  · exact finds_located fun _ => forms.word word
  · exact finds_located fun _ => forms.operator operator

variable (he : Finds inp table P e)
include he

theorem atom_finds : Finds inp table P (atom e) := by
  refine finds_here.bind fun start _ => .choice
    ⟨?quotation, reference_finds spelled forms, ?hole, ?parenthesized, ?set⟩
  case quotation =>
    exact (finds_mark _).bind fun _ _ => he.bind fun t body =>
      (finds_mark _).bind fun _ _ =>
        finds_located fun _ => forms.quote body
  case hole =>
    exact (finds_mark _).bind fun _ _ => finds_located fun _ => forms.hole
  case parenthesized =>
    exact (finds_mark _).bind fun _ _ => he.bind fun t body =>
      (finds_mark _).bind fun _ _ => finds_pure body
  case set =>
    exact (finds_reserved _).bind fun _ _ => finds_located fun _ => forms.set

-- ==================================================== applications

theorem namedArgument_finds :
    Finds inp table (fun a => IsWord a.1 ∧ P a.2)
      (namedArgument e) := by
  refine (finds_mark _).bind fun _ _ => finds_here.bind fun _ _ => ?_
  refine (identName_finds spelled).bind fun x word => ?_
  have itself : ∀ σ, P (.ref x σ) := by
    obtain ⟨text, rfl, ident⟩ := word
    exact fun _ => forms.word ident
  have value : Finds inp table P (namedValue e) :=
    (finds_symbol _).bind fun _ _ => he
  exact (finds_located itself).bind fun _ same =>
    (value.optional same).bind fun _ found =>
      (finds_mark _).bind fun _ _ => finds_pure ⟨word, found⟩

theorem applicationOf_finds {head : Term} (h : P head) :
    Finds inp table P (applicationOf e head start) := by
  refine (namedArgument_finds spelled forms he).many.bind fun named names => ?_
  refine (atom_finds spelled forms he).many1.bind fun args each => ?_
  exact finds_located fun _ =>
    forms.app each.1 h names each.2

theorem applicationOrAtom_finds :
    Finds inp table P (applicationOrAtom e) :=
  finds_here.bind fun _ _ => (atom_finds spelled forms he).bind fun _ head =>
    (applicationOf_finds spelled forms he head).optional head

-- ========================================================= binders

theorem lambda_finds : Finds inp table P (lambda e) := by
  refine finds_here.bind fun _ _ => (finds_symbol _).bind fun _ _ => ?_
  refine (identName_finds spelled).bind ?_
  rintro _ ⟨text, rfl, word⟩
  refine ((ascription_finds he).optional ?_).bind fun type ht => ?_
  · exact forms.hole
  · exact (finds_symbol _).bind fun _ _ => he.bind fun body hb =>
      finds_located fun _ => forms.lam word ht hb

theorem piBetween_finds (opening closing : Mark) (plicity : Plicity) :
    Finds inp table P (piBetween e opening closing plicity start) := by
  refine (finds_mark _).bind fun _ _ => (identName_finds spelled).bind ?_
  rintro _ ⟨text, rfl, word⟩
  exact (ascription_finds he).bind fun type ht =>
    (finds_mark _).bind fun _ _ => (finds_symbol _).bind fun _ _ =>
      he.bind fun body hb =>
        finds_located fun _ => forms.pi word ht hb

theorem operand_finds : Finds inp table P (operand e) :=
  .choice ⟨applicationOrAtom_finds spelled forms he, lambda_finds spelled forms he,
    finds_here.bind fun _ _ => .choice
      ⟨piBetween_finds spelled forms he _ _ _, piBetween_finds spelled forms he _ _ _⟩⟩

end

-- ========================================================== chains

section
variable {operand : Parser Term} {level : Level}

theorem peekOperator_finds :
    Finds inp table (fun o => ∀ op ∈ o, op ∈ level)
      (peekOperator level) := by
  refine finds_ask fun s op found => ?_
  unfold Level.operator? at found
  split at found
  · exact List.mem_of_find?_eq_some found
  · cases found

variable (joins : ∀ op ∈ level, op.Joins table)
  (h : Finds inp table P operand)
include joins h

theorem chainStep_finds (assoc : Assoc) :
    Finds inp table
      (fun o => ∀ a ∈ o, a.1.Joins table ∧ P a.2)
      (chainStep level assoc operand) := by
  refine peekOperator_finds.bind fun o found => ?_
  cases o with
  | none => exact finds_pure fun a ha => by cases ha
  | some op =>
      show Finds inp table _ (if continues assoc op then _ else _)
      split
      · refine finds_advance.bind fun _ _ => h.bind fun y hy =>
          finds_pure fun a ha => ?_
        cases ha
        exact ⟨joins op (found op rfl), hy⟩
      · exact finds_failWith

theorem chain_finds (forms : Term.Forms table P) :
    Finds inp table P (chain level operand) := by
  refine h.bind fun x hx => peekOperator_finds.bind fun o found => ?_
  cases o with
  | none => exact finds_pure hx
  | some op =>
      refine finds_advance.bind fun _ _ => h.bind fun y hy => ?_
      refine (chainStep_finds joins h op.assoc).loop.bind fun rest each => ?_
      have first := joins op (found op rfl)
      exact finds_pure <| joinChain_keeps (build_forms forms) op.assoc
        (List.forall_mem_cons.2 ⟨⟨first, hy⟩, each⟩) hx

end

theorem chains_finds {operand : Parser Term} {levels : List Level}
    (forms : Term.Forms table P) (joins : ∀ level ∈ levels, ∀ op ∈ level, op.Joins table)
    (h : Finds inp table P operand) :
    Finds inp table P (chains operand levels) := by
  induction levels with
  | nil => exact h
  | cons level tighter ih =>
      obtain ⟨first, others⟩ := List.forall_mem_cons.1 joins
      exact chain_finds first (ih others) forms

-- ===================================================== expressions

theorem exprWithin_finds (spelled : inp.Spelled)
    (forms : Term.Forms table P) (depth : Nat) :
    Finds inp table P (exprWithin depth) := by
  induction depth with
  | zero =>
      intro s t u start run
      cases run
  | succ depth ih =>
      intro s t u start run
      refine chains_finds forms (fun level hl op hop => ?_)
        (operand_finds spelled forms ih) s t u start run
      rw [start] at hl
      exact joins_of_mem_levels (List.mem_reverse.1 hl) hop

/-- What holds of terms of all forms holds of what is read. -/
theorem expr_finds (spelled : inp.Spelled) (forms : Term.Forms table P) :
    Finds inp table P expr :=
  fun s => exprWithin_finds spelled forms _ s

theorem wholeExpr_finds (spelled : inp.Spelled)
    (forms : Term.Forms table P) : Finds inp table P wholeExpr := by
  refine (expr_finds spelled forms).bind fun t found => ?_
  have ended : Finds inp table (fun _ => True) eof := by
    refine (finds_ask fun _ => trivial).bind
      (P := fun _ => True) fun ended _ => ?_
    cases ended with
    | true => exact finds_pure trivial
    | false => exact finds_failWith
  exact ended.bind fun _ _ => finds_pure found

end Grammar

end DepLang

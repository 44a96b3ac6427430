/-
Declarations as they are written, and what they do. A declaration is
read together with what it declares: its types are closed one after
another, each under what the ones before it have recorded. Here the two
are told apart. A written declaration has its types as the text has
them, and enacting it (`Registry.enact`) closes and records them; every
declaration that is read is a written one enacted
(`written_of_declForm`). A data type given by its arguments is written
as one given by signatures, which is all that is left of it.

What was enacted, completed and then found again, up to outlines, is
enacted to the same registry and the same outlines (`enact_again`).
-/
import DepLang.Proofs.Grammar.Written

namespace DepLang

open DepLang.Grammar DepLang.Parser

-- =========================================================== written

namespace Term

/-- A term with a property, or such a term hidden. -/
inductive MayHide (P : Term → Prop) : Term → Prop
  | shown {t : Term} (h : P t) : MayHide P t
  | hidden {t : Term} {σ : Option Span} (h : P t) :
      MayHide P (.hidden t σ)

end Term

/-- A clause whose terms are written ones. -/
inductive Clause.Written (table : FixityTable) : Clause → Prop
  | intro {x : Name} {named : List (Name × Term)} {args : List Term}
      {rhs : Term} (target : IsTarget x)
      (values : ∀ a ∈ named, a.2.Written table)
      (each : ∀ a ∈ args, a.MayHide (Term.Written table))
      (body : rhs.Written table) :
      Written table ⟨x, .app (.ref x none) named args none, rhs⟩

/-- A declaration as it is written: its types are not closed yet, its
clause stands alone. -/
inductive Decl.Written (table : FixityTable) : Decl → Prop
  | fixity {fix : Fixity} {symbols : List String}
      (short : fix.prec.repr.length ≤ Text.digitLimit)
      (some_symbol : symbols ≠ [])
      (free : ∀ symbol ∈ symbols, IsFreeOperator symbol) :
      Written table (.fixity fix symbols)
  | signature {x : Name} {t : Term} (target : IsTarget x)
      (type : t.Written table) : Written table (.signature x t)
  | data {x : Name} {t : Term} {constructors : List (Name × Term)}
      (target : IsTarget x) (kind : t.Written table)
      (some_constructor : constructors ≠ [])
      (each : ∀ a ∈ constructors, IsTarget a.1 ∧ a.2.Written table) :
      Written table (.data ⟨x, t, constructors⟩)
  | clause {c : Clause} (h : c.Written table) :
      Written table (.clauses ungrouped [c])

-- ========================================================== enacting

/-- A constructor with the type that its arguments make. -/
def Grammar.constructorOf (result : Term) (c : Name × List Term) :
    Name × Term :=
  (c.1, Term.arrows argumentBinder c.2 result)

namespace Registry

/-- Names with their types closed one after another, and the registry
behind them. -/
def declareTyped : Registry → List (Name × Term) →
    List (Name × Term) × Registry
  | r, [] => ([], r)
  | r, (x, t) :: rest =>
    let (typed, last) := (r.declare x t).declareTyped rest
    ((x, (r.generalise t).1) :: typed, last)

/-- A declaration with its types closed, and the registry behind it. -/
def enact (r : Registry) : Decl → Decl × Registry
  | .fixity fix symbols =>
    (.fixity fix symbols, r.addFixities (symbols.map (⟨fix, ·⟩)))
  | .signature x t => (.signature x (r.generalise t).1, r.declare x t)
  | .data ⟨x, t, constructors⟩ =>
    let (typed, last) := (r.declare x t).declareTyped constructors
    (.data ⟨x, (r.generalise t).1, typed⟩, last)
  | .clauses x group => (.clauses x group, r)

/-- Constructors given by their arguments are declared by the types
these make. -/
theorem declareAll_eq_declareTyped (result : Term)
    (constructors : List (Name × List Term)) :
    ∀ r : Registry, r.declareAll result constructors
      = r.declareTyped (constructors.map (constructorOf result)) := by
  induction constructors with
  | nil => exact fun r => rfl
  | cons c rest ih =>
      intro r
      rw [declareAll, List.map_cons, declareTyped, ih]
      rfl

end Registry

-- ============================================================== read

namespace Grammar

variable {inp : Input} {r r' : Registry} {i j : Nat}

/-- What is always found is found by a reading. -/
theorem holds_of_reads {α : Type} {P : α → Prop} {p : Parser α} {a : α}
    (finds : Finds inp r.fixities P p) (h : Reads inp r p i j a) : P a := by
  obtain ⟨s, t, start, -, run⟩ := h.run
  exact (finds s a t (by rw [start.2]) run).1

variable (spelled : inp.Spelled)
include spelled

theorem target_of_nameForm {x : Name} (h : NameForm inp i j x) :
    IsTarget x := by
  cases h with
  | word token => exact ⟨_, rfl, .inl (spelled.ident _ _ token)⟩
  | operator _ token free =>
      rw [spelled.language] at free
      exact ⟨_, rfl, .inr ⟨spelled.operator _ _ token, free⟩⟩

theorem written_finds {table : FixityTable} :
    Finds inp table (Term.Written table) expr :=
  expr_finds spelled (Term.written_forms table)

theorem written_of_reads_announced {op : String} {t : Term}
    (h : Reads inp r (announced op) i j t) : t.Written r.fixities :=
  holds_of_reads (written_finds spelled) (reads_announced_cases h).2

theorem patternAtom_finds {table : FixityTable} :
    Finds inp table (Term.MayHide (Term.Written table))
      (patternAtom expr) := by
  have atom : Finds inp table (Term.Written table) (atom expr) :=
    atom_finds spelled (Term.written_forms table) (written_finds spelled)
  refine finds_here.bind fun start _ => .choice ⟨atom.imp fun _ => .shown, ?_⟩
  exact (finds_symbol _).bind fun _ _ => atom.bind fun t inner =>
    finds_located fun _ => .hidden inner

theorem written_of_clauseForm {c : Clause} (h : ClauseForm inp r i j c) :
    c.Written r.fixities := by
  cases h with
  | function head names rest body =>
      have given := holds_of_reads (namedArgument_finds spelled
        (Term.written_forms _) (written_finds spelled)).many names
      refine .intro (target_of_nameForm spelled head) ?_ ?_
        (written_of_reads_announced spelled body)
      · exact fun a ha => (given a ha).2
      · exact holds_of_reads (patternAtom_finds spelled).many rest
  | operator first token free second body =>
      have atom : Finds inp r.fixities (Term.Written r.fixities)
          (atom expr) :=
        atom_finds spelled (Term.written_forms _) (written_finds spelled)
      rw [spelled.language] at free
      refine .intro ⟨_, rfl, .inr ⟨spelled.operator _ _ token, free⟩⟩
        (by simp) ?_ (written_of_reads_announced spelled body)
      simpa using ⟨.shown (holds_of_reads atom first),
        .shown (holds_of_reads atom second)⟩

theorem free_of_listed {symbols : List String}
    (h : Listed inp i j symbols) :
    ∀ symbol ∈ symbols, IsFreeOperator symbol := by
  induction h with
  | last token free =>
      rw [spelled.language] at free
      exact List.forall_mem_singleton.2
        ⟨spelled.operator _ _ token, free⟩
  | more token free _ _ ih =>
      rw [spelled.language] at free
      exact List.forall_mem_cons.2
        ⟨⟨spelled.operator _ _ token, free⟩, ih⟩

theorem constructors_finds {table : FixityTable} :
    Finds inp table
      (fun cs => cs ≠ [] ∧ ∀ c ∈ cs,
        IsTarget c.1 ∧ ∀ t ∈ c.2, t.Written table)
      (sepBy1 constructorByArguments (symbol "|")) := by
  have atom : Finds inp table (Term.Written table) (atom expr) :=
    atom_finds spelled (Term.written_forms table) (written_finds spelled)
  have one : Finds inp table
      (fun c => IsTarget c.1 ∧ ∀ t ∈ c.2, t.Written table)
      constructorByArguments :=
    (name_finds spelled).bind fun _ target => atom.many.bind fun _ each =>
      finds_pure ⟨target, each⟩
  exact one.sepBy1 (finds_symbol _)

theorem typed_of_signatureForm {typed : Name × Term}
    (h : SignatureForm inp r i j typed r') :
    ∃ x t, IsTarget x ∧ t.Written r.fixities
      ∧ typed = (x, (r.generalise t).1) ∧ r' = r.declare x t := by
  cases h with
  | intro named ascribed =>
      exact ⟨_, _, target_of_nameForm spelled named,
        written_of_reads_announced spelled ascribed, rfl, rfl⟩

theorem typed_of_signaturesForm {typed : List (Name × Term)}
    (h : SignaturesForm inp r i j typed r') :
    ∃ types, (∀ a ∈ types, IsTarget a.1 ∧ a.2.Written r.fixities)
      ∧ r.declareTyped types = (typed, r') := by
  induction h with
  | nil => exact ⟨[], by simp, rfl⟩
  | cons _ first _ ih =>
      obtain ⟨types, each, rest⟩ := ih
      rw [first.fixities] at each
      obtain ⟨x, t, target, written, rfl, rfl⟩ :=
        typed_of_signatureForm spelled first
      refine ⟨(x, t) :: types, ?_, ?_⟩
      · exact List.forall_mem_cons.2 ⟨⟨target, written⟩, each⟩
      · rw [Registry.declareTyped, rest]

omit spelled in
theorem written_arrows {table : FixityTable} {args : List Term}
    {result : Term} (each : ∀ t ∈ args, t.Written table)
    (last : result.Written table) :
    (Term.arrows argumentBinder args result).Written table := by
  unfold Term.arrows
  induction args with
  | nil => exact last
  | cons t args ih =>
      rw [List.forall_mem_cons] at each
      exact .arrow each.1 (ih each.2)

omit spelled in
theorem IsTarget.written {table : FixityTable} {x : Name} (h : IsTarget x)
    (σ : Option Span) : (Term.ref x σ).Written table := by
  obtain ⟨text, rfl, word | operator⟩ := h
  · exact .word word
  · exact .operator operator

omit spelled in
theorem written_dataResult {table : FixityTable} {x : Name}
    {params : List Name} (target : IsTarget x)
    (words : ∀ y ∈ params, IsWord y) :
    (dataResult x params).Written table := by
  unfold dataResult Term.applied
  cases params with
  | nil => exact target.written none
  | cons y params =>
      refine .app (by simp) (target.written none) (by simp) ?_
      intro a ha
      obtain ⟨z, hz, rfl⟩ := List.mem_map.1 ha
      obtain ⟨text, rfl, word⟩ := words z hz
      exact .word word

/-- A declaration that is read is a written one enacted. -/
theorem written_of_declForm {d : Decl} (h : DeclForm inp r i j d r') :
    ∃ raw : Decl, raw.Written r.fixities ∧ r.enact raw = (d, r') := by
  cases h with
  | @fixity fix symbols _ number listed =>
      refine ⟨.fixity fix symbols, ?_, rfl⟩
      have some_symbol : symbols ≠ [] := by cases listed <;> simp
      exact .fixity (spelled.natural _ _ number) some_symbol
        (free_of_listed spelled listed)
  | signature signed =>
      obtain ⟨_, t, target, written, same, rfl⟩ :=
        typed_of_signatureForm spelled signed
      cases same
      exact ⟨.signature _ t, .signature target written, rfl⟩
  | @dataBySignatures _ _ _ x kind _ _ _ _ _ named ascribed _ first more =>
      obtain ⟨types, each, rest⟩ := typed_of_signaturesForm spelled more
      rw [first.fixities] at each
      obtain ⟨y, t, target, written, rfl, rfl⟩ :=
        typed_of_signatureForm spelled first
      refine ⟨.data ⟨x, kind, (y, t) :: types⟩,
        .data (target_of_nameForm spelled named)
          (written_of_reads_announced spelled ascribed) (by simp)
          (List.forall_mem_cons.2 ⟨⟨target, written⟩, each⟩), ?_⟩
      rw [Registry.enact, Registry.declareTyped, rest]
  | @dataByArguments k l x params constructors typed r₁ _ named parameters _
      listed declared =>
      have target := target_of_nameForm spelled named
      have words := holds_of_reads (identName_finds spelled).many parameters
      obtain ⟨some_constructor, each⟩ :=
        holds_of_reads (constructors_finds spelled) listed
      refine ⟨.data ⟨x, dataKind params,
        constructors.map (constructorOf (dataResult x params))⟩,
        .data target ?_ (by simpa using some_constructor) ?_, ?_⟩
      · exact written_arrows (by simp [Term.Written.set]) .set
      · intro a ha
        obtain ⟨⟨y, args⟩, member, rfl⟩ := List.mem_map.1 ha
        obtain ⟨named, arguments⟩ := each _ member
        exact ⟨named,
          written_arrows arguments (written_dataResult target words)⟩
      · rw [Registry.declareAll_eq_declareTyped] at declared
        rw [Registry.enact, declared]
  | clause h =>
      exact ⟨_, .clause (written_of_clauseForm spelled h), rfl⟩

end Grammar

-- ======================================================== registries

namespace Registry

variable {r : Registry} {types : List (Name × Term)}

@[simp] theorem fixities_declareTyped :
    ∀ r : Registry, (r.declareTyped types).2.fixities = r.fixities := by
  induction types with
  | nil => exact fun r => rfl
  | cons a types ih => exact fun r => ih _

/-- Enacting adds the operators that the declaration says. -/
theorem fixities_enact (d : Decl) :
    (r.enact d).2.fixities = r.fixities.after (r.enact d).1 := by
  cases d with
  | data d => exact fixities_declareTyped _
  | _ => rfl

/-- The operators that are declared are free ones still. -/
theorem free_enact (free : ∀ e ∈ r.fixities, IsFreeOperator e.symbol)
    {d : Decl} (h : d.Written r.fixities) :
    ∀ e ∈ (r.enact d).2.fixities, IsFreeOperator e.symbol := by
  rw [fixities_enact]
  intro e member
  cases h with
  | fixity _ _ declared =>
      have split := (FixityTable.perm_add _ _).mem_iff.1 member
      rcases List.mem_append.1 split with new | old
      · obtain ⟨symbol, there, rfl⟩ := List.mem_map.1 new
        exact declared symbol there
      · exact free e old
  | _ => exact free e member

end Registry

-- ============================================================= again

namespace Term

variable {table : FixityTable}

theorem MayHide.refersToUser {t : Term} (h : t.MayHide (Written table)) :
    t.RefersToUser := by
  cases h with
  | shown h => exact h.refersToUser
  | hidden h =>
      simp only [RefersToUser, subterms, List.forall_mem_cons]
      exact ⟨by simp, h.refersToUser⟩

end Term

theorem Clause.Written.refersToUser {table : FixityTable} {c : Clause}
    (h : c.Written table) :
    c.lhs.RefersToUser ∧ c.rhs.RefersToUser := by
  cases h with
  | intro target values each body =>
      have head : (Term.ref _ none).Written table := target.written none
      have inHead := head.refersToUser
      refine ⟨?_, body.refersToUser⟩
      simp only [Term.RefersToUser, Term.subterms,
        Term.subtermsNamed_eq_flatMap, Term.subtermsAll_eq_flatMap,
        List.forall_mem_cons, List.forall_mem_append,
        List.forall_mem_flatMap] at inHead ⊢
      exact ⟨by simp,
        ⟨inHead, fun a ha => (values a ha).refersToUser⟩,
        fun a ha => (each a ha).refersToUser⟩

/-- A declaration up to spans and to the machine's names. -/
def Decl.outline (d : Decl) : Decl := d.mapTerms Term.outline

namespace Registry

variable {r last : Registry}

/-- The types of declared names, completed and up to outlines. -/
def outlineTyped (last : Registry) (typed : List (Name × Term)) :
    List (Name × Term) :=
  (typed.map fun (x, t) => (x, last.supply t)).map
    fun (x, t) => (x, t.outline)

/-- Types that were closed one after another, completed and found again
are declared as they were at first. -/
theorem declareTyped_again {types again : List (Name × Term)}
    (user : ∀ a ∈ types, a.2.RefersToUser)
    (once : ∀ a ∈ (r.declareTyped types).1, (last.supply a.2).BoundOnce)
    (same : (again.map fun (x, t) => (x, t.erase))
      = last.outlineTyped (r.declareTyped types).1) :
    (r.declareTyped again).2 = (r.declareTyped types).2
      ∧ last.outlineTyped (r.declareTyped again).1
        = last.outlineTyped (r.declareTyped types).1 := by
  induction types generalizing r again with
  | nil =>
      cases List.map_eq_nil_iff.1 same
      exact ⟨rfl, rfl⟩
  | cons a types ih =>
      obtain ⟨x, t⟩ := a
      cases again with
      | nil => cases same
      | cons b again =>
          obtain ⟨y, u⟩ := b
          obtain ⟨first, rest⟩ := List.cons_eq_cons.1 same
          obtain ⟨rfl, found⟩ := Prod.mk.inj first
          obtain ⟨once, later⟩ := List.forall_mem_cons.1 once
          obtain ⟨user, others⟩ := List.forall_mem_cons.1 user
          have closed := generalise_again once found
          have declared := declare_again y once found
          have outlines := last.outline_supply_again
            (user.bindImplicits (r.newImplicits t)) found
          obtain ⟨behind, typed⟩ := ih others later rest
          rw [declareTyped, declareTyped, declared, closed]
          exact ⟨behind,
            List.cons_eq_cons.2 ⟨Prod.ext rfl outlines, typed⟩⟩

/-- The kind and the constructors of a data type that was enacted,
completed and found again are declared as they were at first. -/
theorem enact_data_again {x : Name} {t u : Term}
    {constructors again : List (Name × Term)}
    (user : ∀ a ∈ (x, t) :: constructors, a.2.RefersToUser)
    (once : ∀ a ∈ (r.declareTyped ((x, t) :: constructors)).1,
      (last.supply a.2).BoundOnce)
    (same : (Decl.data ⟨x, u, again⟩).erase
      = ((r.enact (.data ⟨x, t, constructors⟩)).1.mapTerms
        last.supply).outline) :
    (r.enact (.data ⟨x, u, again⟩)).2
        = (r.enact (.data ⟨x, t, constructors⟩)).2
      ∧ ((r.enact (.data ⟨x, u, again⟩)).1.mapTerms last.supply).outline
        = ((r.enact (.data ⟨x, t, constructors⟩)).1.mapTerms
          last.supply).outline := by
  obtain ⟨-, kinds, others⟩ := DataType.mk.inj (Decl.data.inj same)
  have found : (((x, u) :: again).map fun (y, v) => (y, v.erase))
      = last.outlineTyped (r.declareTyped ((x, t) :: constructors)).1 :=
    List.cons_eq_cons.2 ⟨Prod.ext rfl kinds, others⟩
  obtain ⟨behind, typed⟩ := declareTyped_again user once found
  obtain ⟨kinds, others⟩ := List.cons_eq_cons.1 typed
  obtain ⟨-, kinds⟩ := Prod.mk.inj kinds
  exact ⟨behind, congrArg₂ (fun k cs => Decl.data ⟨x, k, cs⟩)
    kinds others⟩

/-- A clause that was completed and found again is completed to the
same. -/
theorem outline_clause_again {table : FixityTable} {c c' : Clause}
    (written : c.Written table)
    (same : c'.erase = (c.mapTerms r.supply).mapTerms Term.outline) :
    (c'.mapTerms r.supply).mapTerms Term.outline
      = (c.mapTerms r.supply).mapTerms Term.outline := by
  obtain ⟨head, lhs, rhs⟩ := Clause.mk.inj same
  obtain ⟨inLhs, inRhs⟩ := written.refersToUser
  have left := r.outline_supply_again inLhs lhs
  have right := r.outline_supply_again inRhs rhs
  show Clause.mk c'.head (r.supply c'.lhs).outline
      (r.supply c'.rhs).outline
    = Clause.mk c.head (r.supply c.lhs).outline (r.supply c.rhs).outline
  rw [left, right, show c'.head = c.head from head]

/-- What is enacted, completed and found again, up to its outline, is
enacted to the same registry and, up to its outline, to the same. -/
theorem enact_again {raw again : Decl} {table : FixityTable}
    (written : raw.Written table)
    (once : ∀ a ∈ ((r.enact raw).1.mapTerms (r.enact raw).2.supply).types,
      a.2.BoundOnce)
    (same : again.erase
      = ((r.enact raw).1.mapTerms (r.enact raw).2.supply).outline) :
    (r.enact again).2 = (r.enact raw).2
      ∧ ((r.enact again).1.mapTerms (r.enact raw).2.supply).outline
        = ((r.enact raw).1.mapTerms (r.enact raw).2.supply).outline := by
  cases written with
  | @fixity fix symbols =>
      cases again with
      | fixity =>
          cases same
          exact ⟨rfl, rfl⟩
      | _ => cases same
  | @signature x t _ type =>
      cases again with
      | signature y u =>
          obtain ⟨rfl, found⟩ := Decl.signature.inj same
          have once := List.forall_mem_singleton.1 once
          have closed := generalise_again once found
          have declared := declare_again y once found
          have outlines := (r.declare y t).outline_supply_again
            (type.refersToUser.bindImplicits (r.newImplicits t)) found
          rw [enact, declared, closed]
          exact ⟨rfl, congrArg (Decl.signature y) outlines⟩
      | _ => cases same
  | @data x t constructors _ kind _ each =>
      cases again with
      | data d =>
          obtain ⟨y, u, again⟩ := d
          obtain ⟨rfl, -, -⟩ := DataType.mk.inj (Decl.data.inj same)
          have user : ∀ a ∈ (y, t) :: constructors, a.2.RefersToUser :=
            List.forall_mem_cons.2
              ⟨kind.refersToUser, fun a ha => (each a ha).2.refersToUser⟩
          refine enact_data_again user (List.forall_mem_cons.2 ?_) same
          exact ⟨once _ List.mem_cons_self, fun a ha => once (a.1, _) <|
            List.mem_cons_of_mem _ <| List.mem_map.2 ⟨a, ha, rfl⟩⟩
      | _ => cases same
  | @clause c written =>
      cases again with
      | clauses y group =>
          obtain ⟨rfl, clauses⟩ := Decl.clauses.inj same
          obtain ⟨c', rfl⟩ : ∃ c', group = [c'] := by
            have count := congrArg List.length clauses
            exact List.length_eq_one_iff.1 (by simpa using count)
          have alike := outline_clause_again written
            (List.head_eq_of_cons_eq clauses)
          exact ⟨rfl, congrArg (fun c => Decl.clauses _ [c]) alike⟩
      | _ => cases same

end Registry

end DepLang

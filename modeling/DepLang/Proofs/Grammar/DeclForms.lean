/-
The rules of declarations, from their forms: what has the form of a
declaration is read as one, with the value of the form, and leaves the
registry that the form says. With the rules read backwards
(`declForm_of_declaration`) this makes the forms the grammar.

A rule that declares something leads from one registry to another
(`Leads`); what it does is otherwise told like that of the rules that
declare nothing. Of the alternatives before the one that is meant, each
refuses, since any two of them are apart.
-/
import DepLang.Proofs.Grammar.DeclCases
import DepLang.Proofs.Grammar.Exclusive

namespace DepLang

open DepLang.Parser

-- ========================================================== leading

namespace Parser

variable {α β : Type} {inp : Input} {r r' r'' : Registry} {p : Parser α}
  {i j k : Nat} {a : α} {b : β}

/-- The parser finds the value from one cursor and registry to others. -/
def Leads (inp : Input) (r : Registry) (p : Parser α) (i j : Nat) (a : α)
    (r' : Registry) : Prop :=
  ∀ s, At i r s → ∃ t, At j r' t ∧ p inp s = .ok a t

theorem Reads.leads (h : Reads inp r p i j a) : Leads inp r p i j a r := h

theorem Leads.not_refuses (h : Leads inp r p i j a r') :
    ¬Refuses inp r p i := by
  intro stops
  have start : At i r { cursor := i, registry := r } := ⟨rfl, rfl⟩
  obtain ⟨t, -, run⟩ := h _ start
  exact stops.not_ok start run

theorem leads_pure (a : α) : Leads inp r (pure a) i i a r :=
  reads_pure a

theorem Leads.bind {f : α → Parser β} (first : Leads inp r p i j a r')
    (next : Leads inp r' (f a) j k b r'') :
    Leads inp r (p >>= f) i k b r'' := by
  intro s start
  obtain ⟨t, at_t, run⟩ := first s start
  obtain ⟨u, at_u, rest⟩ := next t at_t
  refine ⟨u, at_u, ?_⟩
  rw [bind_apply, run]
  exact rest

/-- After a rule that declares nothing. -/
theorem Reads.lead {f : α → Parser β} (first : Reads inp r p i j a)
    (next : Leads inp r (f a) j k b r') : Leads inp r (p >>= f) i k b r' :=
  Leads.bind first next

theorem leads_consult (f : Registry → α) :
    Leads inp r (ask fun _ s => f s.registry) i i (f r) r := by
  rintro s ⟨cursor, rfl⟩
  exact ⟨s, ⟨cursor, rfl⟩, rfl⟩

theorem leads_declareFixities (entries : List FixityEntry) :
    Leads inp r (declareFixities entries) i i ()
      (r.addFixities entries) := by
  rintro s ⟨cursor, rfl⟩
  exact ⟨{ s with
    registry := s.registry.addFixities entries
    events := (entries.map Event.fixity).reverse ++ s.events },
    ⟨cursor, rfl⟩, rfl⟩

/-- One of several alternatives that are apart. -/
theorem Leads.choice {ps : List (Parser α)}
    (apart : ps.Pairwise (Apart inp r i)) (member : p ∈ ps)
    (h : Leads inp r p i j a r') :
    Leads inp r (choice ps) i j a r' := by
  induction ps with
  | nil => cases member
  | cons q ps ih =>
      obtain ⟨others, apart⟩ := List.pairwise_cons.1 apart
      intro s start
      rw [choice_cons]
      unfold attemptElse
      rcases List.mem_cons.1 member with rfl | member
      · obtain ⟨t, at_t, run⟩ := h s start
        refine ⟨t, at_t, ?_⟩
        unfold attempt
        rw [run]
      · have refuses : Refuses inp r q i :=
          (others p member).resolve_right h.not_refuses
        obtain ⟨e, u, at_u, failed⟩ := refuses.attempt start
        obtain ⟨t, at_t, run⟩ := ih apart member u at_u
        refine ⟨t, at_t, ?_⟩
        rw [failed]
        exact (choice_ok_iff e).1 run

theorem leads_loop_cons {next : Parser (Option α)} {as : List α}
    (inside : (inp.tokenAt i).kind ≠ .eof) (less : i < j)
    (h : Leads inp r next i j (some a) r')
    (rest : Leads inp r' (loop next) j k as r'') :
    Leads inp r (loop next) i k (a :: as) r'' := by
  intro s start
  obtain ⟨t, at_t, run⟩ := h s start
  obtain ⟨u, at_u, more⟩ := rest t at_t
  refine ⟨u, at_u, ?_⟩
  rw [loop_apply, run]
  simp only [if_pos (remaining_lt_of_at start at_t inside less)]
  rw [map_apply, more]

theorem leads_many_cons {as : List α}
    (inside : (inp.tokenAt i).kind ≠ .eof) (less : i < j)
    (h : Leads inp r p i j a r') (rest : Leads inp r' (many p) j k as r'') :
    Leads inp r (many p) i k (a :: as) r'' := by
  refine leads_loop_cons inside less ?_ rest
  intro s start
  obtain ⟨t, at_t, run⟩ := h s start
  refine ⟨t, at_t, ?_⟩
  rw [optional_eq]
  unfold attemptElse attempt
  rw [map_apply, run]

end Parser

namespace Grammar

variable {inp : Input} {r r' : Registry} {i j k : Nat} {t : Term}

-- ======================================================== fixities

theorem reads_natural {value : Nat}
    (token : (inp.tokenAt i).lexeme = .natural value) :
    Reads inp r natural i (i + 1) value := by
  refine reads_accept (by simp [Token.kind, token, Lexeme.kind]) ?_
  simp only [token]

theorem reads_associativity {assoc : Assoc}
    (token : (inp.tokenAt i).lexeme = .reserved assoc.keyword) :
    Reads inp r associativity i (i + 1) assoc := by
  have found : associativity? (inp.tokenAt i).lexeme = some assoc := by
    rw [token]
    cases assoc <;> decide
  have look : Reads inp r (ask fun inp s =>
      associativity? (inp.tokenAt s.cursor).lexeme) i i (some assoc) := by
    rw [← found]
    exact reads_look fun t => associativity? t.lexeme
  refine look.bind ((reads_advance ?_).bind (reads_pure assoc))
  simp [Token.kind, token, Lexeme.kind]

theorem reads_operatorSymbol {op : String}
    (token : (inp.tokenAt i).lexeme = .operator op)
    (free : inp.language.isReservedOperator op = false) :
    Reads inp r operatorSymbol i (i + 1) op := by
  have text : (inp.tokenAt i).text = op := by
    rw [Token.text, token]
    rfl
  subst text
  exact (reads_operator token free).bind (reads_pure _)

/-- Operators with commas between them, up to where no comma follows. -/
theorem Listed.reads {ops : List String} (h : Listed inp i j ops)
    (ended : (inp.tokenAt j).kind ≠ .mark .comma) :
    Reads inp r (sepBy1 operatorSymbol (mark .comma)) i j ops := by
  induction h with
  | last token free =>
      exact (reads_operatorSymbol token free).bind
        ((reads_many_nil (refuses_expect ended).bind).bind (reads_pure _))
  | more token free comma rest ih =>
      have others := reads_many_of_sepBy1 plain_operatorSymbol (plain_mark _)
        (by simp [comma]) (Nat.lt_succ_self _) (reads_mark comma) (ih ended)
      exact (reads_operatorSymbol token free).bind
        (others.bind (reads_pure _))

-- ========================================================= clauses

theorem NameForm.reads {x : Name} (h : NameForm inp i j x) :
    Reads inp r name i j x := by
  cases h with
  | word token stop =>
      subst stop
      exact (reads_identName token).choice
  | operator opening token free closing stop =>
      subst stop
      exact reads_name_operator opening token free closing

/-- What has the form of a clause is read as one. -/
theorem ClauseForm.reads (standard : inp.language = .standard) {c : Clause}
    (h : ClauseForm inp r i j c) : Reads inp r clause i j c := by
  have apart := clauseAlternatives_apart (r := r) (i := i) standard
  cases h with
  | @function k l m target named args rhs head names rest body =>
      have read : Reads inp r functionClause i j _ := head.reads.bind <|
        names.bind <| rest.bind <| body.bind (reads_pure _)
      exact Leads.choice apart (by simp [clauseAlternatives]) read
  | @operator k l op left right rhs first token free second body =>
      have text : (inp.tokenAt k).text = op := by
        rw [Token.text, token]
        rfl
      subst text
      have read : Reads inp r operatorClause i j _ := first.bind <|
        (reads_operator token free).bind <| second.bind <|
        body.bind (reads_pure _)
      exact Leads.choice apart (by simp [clauseAlternatives]) read

-- ====================================================== signatures

theorem leads_declareType (target : Name) (type : Term) :
    Leads inp r (declareType target type) i i (r.generalise type).1
      (r.declare target type) := by
  rintro s ⟨cursor, rfl⟩
  exact ⟨(define target (s.registry.generalise type).2 inp s).state,
    ⟨cursor, rfl⟩, rfl⟩

theorem SignatureForm.leads {typed : Name × Term}
    (h : SignatureForm inp r i j typed r') :
    Leads inp r signature i j typed r' := by
  cases h with
  | intro named ascribed =>
      exact named.reads.lead <| ascribed.lead <|
        (leads_declareType _ _).bind (leads_pure _)

/-- More signatures, up to where no bar follows. -/
theorem SignaturesForm.leads {typed : List (Name × Term)}
    (h : SignaturesForm inp r i j typed r')
    (ended : (inp.tokenAt j).lexeme ≠ .operator "|") :
    Leads inp r (many (symbol "|" >>= fun _ => signature)) i j typed r' := by
  induction h with
  | nil => exact reads_many_nil (refuses_symbol ended).bind
  | cons bar first more ih =>
      have le := first.le
      exact leads_many_cons (by simp [Token.kind, bar, Lexeme.kind])
        (by omega) ((reads_symbol bar).lead first.leads) (ih ended)

-- ===================================================== constructors

theorem ConstructorForm.reads {c : Name × List Term}
    (h : ConstructorForm inp r i j c) :
    Reads inp r constructorByArguments i j c := by
  cases h with
  | intro named atoms =>
      exact named.reads.bind <| atoms.bind (reads_pure _)

theorem ConstructorForm.le {c : Name × List Term}
    (h : ConstructorForm inp r i j c) : i ≤ j :=
  plain_constructorByArguments.le h.reads

/-- More constructors, up to where no bar follows. -/
theorem ConstructorsForm.reads {cs : List (Name × List Term)}
    (h : ConstructorsForm inp r i j cs)
    (ended : (inp.tokenAt j).lexeme ≠ .operator "|") :
    Reads inp r (many (symbol "|" >>= fun _ => constructorByArguments))
      i j cs := by
  induction h with
  | nil => exact reads_many_nil (refuses_symbol ended).bind
  | cons bar first more ih =>
      have le := first.le
      exact reads_many_cons (by simp [Token.kind, bar, Lexeme.kind])
        (by omega) ((reads_symbol bar).bind first.reads) (ih ended)

-- ==================================================== declarations

theorem leads_declareConstructors (result : Term)
    (constructors : List (Name × List Term)) :
    ∀ r : Registry, Leads inp r (declareConstructors result constructors) i i
      (r.declareAll result constructors).1
      (r.declareAll result constructors).2 := by
  induction constructors with
  | nil => exact fun r => leads_pure []
  | cons c rest ih =>
      exact fun r => (leads_declareType _ _).bind <|
        (ih _).bind (leads_pure _)

/-- What has the form of a declaration and a semicolon behind it is read
as one. -/
theorem DeclForm.leads (standard : inp.language = .standard) {d : Decl}
    (h : DeclForm inp r i j d r')
    (semicolon : (inp.tokenAt j).kind = .mark .semicolon) :
    Leads inp r declaration i j d r' := by
  have apart := declarationAlternatives_apart (r := r) (i := i) standard
  have data_apart : dataAlternatives.Pairwise (Apart inp r i) :=
    dataAlternatives_apart
  cases h with
  | fixity word prec listed =>
      have operators := listed.reads (r := r) (by simp [semicolon])
      have read : Leads inp r fixityDeclaration i j _ _ :=
        (reads_associativity word).lead <| (reads_natural prec).lead <|
        operators.lead <| (leads_declareFixities _).bind (leads_pure _)
      exact read.choice apart (by simp [declarationAlternatives])
  | signature h =>
      have read : Leads inp r signatureDeclaration i j _ _ :=
        h.leads.bind (leads_pure _)
      exact read.choice apart (by simp [declarationAlternatives])
  | @dataBySignatures k l m target kind typed rest _ _ word named ascribed
      begins first more =>
      have ended : (inp.tokenAt j).lexeme ≠ .operator "|" :=
        ne_operator_of_mark semicolon
      have signatures : Leads inp (r.declare target kind)
          (sepBy1 Grammar.signature (symbol "|")) (l + 1) j (typed :: rest)
          r' :=
        first.leads.bind ((more.leads ended).bind (leads_pure _))
      have read : Leads inp r Grammar.dataBySignatures i j _ _ :=
        (reads_reserved word).lead <| named.reads.lead <|
        ascribed.lead <| (reads_reserved begins).lead <|
        (leads_declareType _ _).bind <| signatures.bind (leads_pure _)
      have data : Leads inp r dataDeclaration i j _ r' :=
        read.choice data_apart (by simp [dataAlternatives])
      exact data.choice apart (by simp [declarationAlternatives])
  | @dataByArguments k l target params constructors typed _ word named
      parameters equals listed declared =>
      have constructed : Leads inp (r.declare target (dataKind params))
          (declareConstructors (dataResult target params) constructors)
          j j typed r' := by
        have all : Leads inp (r.declare target (dataKind params))
            (declareConstructors (dataResult target params) constructors)
            j j _ _ := leads_declareConstructors _ _ _
        rwa [declared] at all
      have read : Leads inp r Grammar.dataByArguments i j _ _ :=
        (reads_reserved word).lead <| named.reads.lead <|
        parameters.lead <| (reads_symbol equals).lead <|
        listed.lead <| (leads_declareType _ _).bind <|
        constructed.bind (leads_pure _)
      have data : Leads inp r dataDeclaration i j _ r' :=
        read.choice data_apart (by simp [dataAlternatives])
      exact data.choice apart (by simp [declarationAlternatives])
  | clause h =>
      have read : Leads inp r clauseDeclaration i j _ r :=
        (h.reads standard).lead (leads_pure _)
      exact read.choice apart (by simp [declarationAlternatives])

-- ========================================================= modules

theorem DeclForm.leads_item (standard : inp.language = .standard) {d : Decl}
    (h : DeclForm inp r i j d r')
    (semicolon : (inp.tokenAt j).kind = .mark .semicolon) :
    Leads inp r item i (j + 1) (d.mapTerms r'.supply) r' :=
  (h.leads standard semicolon).bind <| (reads_mark semicolon).lead <|
    (leads_consult id).bind (leads_pure _)

theorem leads_item?_none (ended : (inp.tokenAt i).kind = .eof) :
    Leads inp r item? i i none r := by
  intro s start
  refine ⟨s, start, ?_⟩
  rw [item?_apply, start.1, if_pos ended]

theorem leads_item?_some {d : Decl} (h : Leads inp r item i j d r')
    (more : (inp.tokenAt i).kind ≠ .eof) :
    Leads inp r item? i j (some d) r' := by
  intro s start
  obtain ⟨t, at_t, run⟩ := h s start
  refine ⟨t, at_t, ?_⟩
  rw [item?_apply, start.1, if_neg more, map_apply, run]

/-- No declaration starts where the input ends. -/
theorem DeclForm.inside {d : Decl} (h : DeclForm inp r i j d r') :
    (inp.tokenAt i).kind ≠ .eof := by
  have named {j : Nat} {x : Name} (h : NameForm inp i j x) :
      (inp.tokenAt i).kind ≠ .eof := by
    cases h with
    | word token => simp [Token.kind, token, Lexeme.kind]
    | operator opening => simp [opening]
  cases h with
  | fixity word | dataBySignatures word | dataByArguments word =>
      simp [Token.kind, word, Lexeme.kind]
  | signature h =>
      cases h with
      | intro head => exact named head
  | clause h =>
      cases h with
      | function head => exact named head
      | operator first =>
          exact (kind_of_startsAtom (startsAtom_of_reads first)).1

theorem ItemsForm.leads_loop (standard : inp.language = .standard)
    {ds : List Decl} (h : ItemsForm inp r i j ds r') :
    Leads inp r (loop item?) i j ds r' := by
  induction h with
  | nil ended => exact reads_loop_nil (leads_item?_none ended)
  | cons first semicolon more ih =>
      have le := first.le
      exact leads_loop_cons first.inside (by omega)
        (leads_item?_some (first.leads_item standard semicolon) first.inside)
        ih

/-- What has the form of a module is read as one. -/
theorem ItemsForm.leads (standard : inp.language = .standard)
    {ds : List Decl} (h : ItemsForm inp r i j ds r') (some : ds ≠ []) :
    Leads inp r moduleItems i j ds r' := by
  cases h with
  | nil => exact absurd rfl some
  | cons first semicolon more =>
      exact (first.leads_item standard semicolon).bind <|
        (more.leads_loop standard).bind (leads_pure _)

end Grammar

end DepLang

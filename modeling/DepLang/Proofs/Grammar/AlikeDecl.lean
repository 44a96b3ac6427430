/-
The rules of declarations are built alike, as those of expressions are.
What is new is that they change the registry and consult it. They
consult its implicit arguments only, when a type is closed and when a
declaration is completed, and by those alone and the shapes of terms
both are decided; the fixities count in expressions, and the journal
never.
-/
import DepLang.Grammar.Decl
import DepLang.Proofs.Grammar.Alike

namespace DepLang

-- ================================================ agreeing declarations

theorem Clause.mapTerms_mapTerms (f g : Term → Term) (c : Clause) :
    (c.mapTerms f).mapTerms g = c.mapTerms (g ∘ f) :=
  rfl

theorem Decl.mapTerms_mapTerms (f g : Term → Term) (d : Decl) :
    (d.mapTerms f).mapTerms g = d.mapTerms (g ∘ f) := by
  cases d with
  | fixity => rfl
  | signature => rfl
  | data type =>
      simp [mapTerms, DataType.mapTerms, Function.comp_def]
  | clauses name group =>
      simp [mapTerms, Function.comp_def, Clause.mapTerms_mapTerms]

/-- Completing a declaration and forgetting its spans, in either
order. -/
theorem Decl.erase_mapTerms_supply (r : Registry) (d : Decl) :
    (d.mapTerms r.supply).erase = d.erase.mapTerms r.supply := by
  have commute : Term.erase ∘ r.supply = r.supply ∘ Term.erase :=
    funext r.erase_supply
  unfold Decl.erase
  rw [mapTerms_mapTerms, mapTerms_mapTerms, commute]

variable {exact : Prop}

/-- Declarations that agree are completed alike. -/
theorem Decl.mapTerms_supply_agrees {r r' : Registry}
    (same : r.implicitsOf? = r'.implicitsOf?) {d d' : Decl}
    (h : Agree exact Decl.erase d d') :
    Agree exact Decl.erase (d.mapTerms r.supply)
      (d'.mapTerms r'.supply) := by
  have supplies : r.supply = r'.supply :=
    funext fun t => Registry.supplyUnder_congr same [] t
  rw [supplies]
  constructor
  · rw [erase_mapTerms_supply, erase_mapTerms_supply, h.1]
  · intro hx
    rw [h.2 hx]

theorem Clause.agrees {x : Name} {t u v w : Term}
    (lhs : Term.Agrees exact t u) (rhs : Term.Agrees exact v w) :
    Agree exact Clause.erase ⟨x, t, v⟩ ⟨x, u, w⟩ :=
  ⟨by rw [erase, mapTerms, erase, mapTerms, lhs.1, rhs.1],
    fun h => by rw [lhs.2 h, rhs.2 h]⟩

theorem Decl.signature_agrees {x : Name} {t u : Term}
    (type : Term.Agrees exact t u) :
    Agree exact Decl.erase (.signature x t) (.signature x u) :=
  ⟨by rw [erase, mapTerms, erase, mapTerms, type.1],
    fun h => by rw [type.2 h]⟩

theorem Decl.clauses_agrees {x : Name} {c c' : Clause}
    (clause : Agree exact Clause.erase c c') :
    Agree exact Decl.erase (.clauses x [c]) (.clauses x [c']) := by
  refine ⟨?_, fun h => by rw [clause.2 h]⟩
  show Decl.clauses x [c.erase] = Decl.clauses x [c'.erase]
  rw [clause.1]

theorem Decl.data_agrees {x : Name} {t u : Term}
    {cs cs' : List (Name × Term)} (kind : Term.Agrees exact t u)
    (constructors : List.Forall₂ (Agree exact Term.eraseBinding) cs cs') :
    Agree exact Decl.erase (.data ⟨x, t, cs⟩) (.data ⟨x, u, cs'⟩) := by
  have typed := Term.agree_named constructors
  rw [Agree, Term.eraseNamed_eq_map, Term.eraseNamed_eq_map] at typed
  refine ⟨?_, fun h => by rw [kind.2 h, typed.2 h]⟩
  show Decl.data ⟨x, t.erase, cs.map Term.eraseBinding⟩
    = Decl.data ⟨x, u.erase, cs'.map Term.eraseBinding⟩
  rw [kind.1, typed.1]

/-- A constructor with its arguments' types, without spans. -/
def eraseArgs : Name × List Term → Name × List Term
  | (x, ts) => (x, Term.eraseAll ts)

/-- Function types agree if their ends do. -/
theorem Term.arrows_agrees {x : Name} {ts us : List Term} {t u : Term}
    (domains : List.Forall₂ (Term.Agrees exact) ts us)
    (result : Term.Agrees exact t u) :
    Term.Agrees exact (Term.arrows x ts t) (Term.arrows x us u) := by
  unfold Term.arrows
  induction domains with
  | nil => exact result
  | cons domain _ ih => exact Term.agrees_pi domain ih fun _ => rfl

namespace Grammar

open DepLang.Parser

variable {b : Bool}

-- ==================================================== declared types

/-- A declared type is its closure, recorded. -/
theorem declareType_eq (target : Name) (type : Term) :
    declareType target type =
      (ask fun _ s => s.registry.generalise type) >>= fun closed =>
        define target closed.2 >>= fun _ => pure closed.1 :=
  rfl

theorem declareType_alike {e e' : Parser Term} (target : Name)
    {t u : Term} (type : Term.Agrees exact t u) :
    Alike exact e e' b b (Term.likeness exact)
      (declareType target t) (declareType target u) := by
  rw [declareType_eq, declareType_eq]
  refine .bind (R := .upTo exact Registry.eraseClosed)
    (.consult (·.generalise t) (·.generalise u) fun _ _ same =>
      Registry.generalise_agrees same type) ?_
  rintro ⟨t', names⟩ ⟨u', names'⟩ ⟨shapes, equal⟩
  obtain ⟨same, rfl⟩ : t'.erase = u'.erase ∧ names = names' := by
    simpa [Registry.eraseClosed] using shapes
  exact .bind (.define target names) fun _ _ _ =>
    .pure ⟨same, fun h => congrArg Prod.fst (equal h)⟩

theorem signature_alike :
    Alike exact expr expr b true (.upTo exact Term.eraseBinding)
      signature signature := by
  refine .bind name_alike fun target _ same => ?_
  cases same
  exact .bind ascription_alike fun _ _ type =>
    .bind (declareType_alike target type) fun _ _ closed =>
      .pure (Term.agree_binding closed)

-- ======================================================== fixities

variable {e e' : Parser Term}

theorem associativity_alike :
    Alike exact e e' b b .same associativity associativity := by
  refine .bind (R := .same)
    (.look (f := fun t => associativity? t.lexeme) fun t t' h => ?_) ?_
  · show associativity? t.lexeme = associativity? t'.lexeme
    rw [h.1]
  · intro found _ same
    cases same
    cases found with
    | none => exact .fail _
    | some assoc => exact .bind .advance fun _ _ _ => .pure rfl

theorem operatorSymbol_alike :
    Alike exact e e' b true .same operatorSymbol operatorSymbol :=
  .bind .operator fun op op' h => .pure <| by
    show op.lexeme.text = op'.lexeme.text
    rw [h.1]

theorem fixityDeclaration_alike :
    Alike exact e e' b true (.upTo exact Decl.erase)
      fixityDeclaration fixityDeclaration := by
  refine .bind associativity_alike fun assoc _ same => ?_
  cases same
  refine .bind .natural fun prec _ same => ?_
  cases same
  refine .bind (.sepBy1 operatorSymbol_alike (.mark _)) ?_
  intro symbols _ same
  cases Likeness.eq_of_same same
  exact .bind (.declareFixities _) fun _ _ _ => .pure (.refl _)

-- ====================================================== signatures

theorem signatureDeclaration_alike :
    Alike exact expr expr b true (.upTo exact Decl.erase)
      signatureDeclaration signatureDeclaration := by
  refine .bind signature_alike ?_
  rintro ⟨x, t⟩ ⟨y, u⟩ ⟨shapes, equal⟩
  obtain ⟨rfl, same⟩ : x = y ∧ t.erase = u.erase := by
    simpa [Term.eraseBinding] using shapes
  exact .pure (Decl.signature_agrees
    ⟨same, fun h => congrArg Prod.snd (equal h)⟩)

-- ====================================================== data types

theorem dataBySignatures_alike :
    Alike exact expr expr b true (.upTo exact Decl.erase)
      dataBySignatures dataBySignatures := by
  refine .bind (.reserved _) fun _ _ _ =>
    .bind name_alike fun target _ same => ?_
  cases same
  refine .bind ascription_alike fun _ _ kind =>
    .bind (.reserved _) fun _ _ _ =>
      .bind (declareType_alike target kind) fun _ _ closed => ?_
  exact .bind (.sepBy1 signature_alike (.symbol _)) fun _ _ constructors =>
    .pure (Decl.data_agrees closed constructors)

theorem constructorByArguments_alike :
    Alike exact expr expr b true (.upTo exact eraseArgs)
      constructorByArguments constructorByArguments := by
  refine .bind name_alike fun target _ same => ?_
  cases same
  refine .bind atom_alike.many fun ts us args => .pure ?_
  have all := Term.agree_all args
  exact ⟨by rw [eraseArgs, eraseArgs, all.1], fun h => by rw [all.2 h]⟩

/-- Argument lists that agree as a whole agree one by one. -/
theorem forall₂_of_agree_all {ts us : List Term}
    (h : Agree exact Term.eraseAll ts us) :
    List.Forall₂ (Term.Agrees exact) ts us := by
  obtain ⟨shapes, equal⟩ := h
  induction ts generalizing us with
  | nil =>
      cases us with
      | nil => exact .nil
      | cons => simp [Term.eraseAll] at shapes
  | cons t ts ih =>
      cases us with
      | nil => simp [Term.eraseAll] at shapes
      | cons u us =>
          simp only [Term.eraseAll, List.cons.injEq] at shapes equal
          exact .cons ⟨shapes.1, fun h => (equal h).1⟩
            (ih shapes.2 fun h => (equal h).2)

theorem declareConstructors_alike {result : Term}
    {cs cs' : List (Name × List Term)}
    (h : List.Forall₂ (Agree exact eraseArgs) cs cs') :
    Alike exact expr expr b b (.list (.upTo exact Term.eraseBinding))
      (declareConstructors result cs) (declareConstructors result cs') := by
  induction h with
  | nil => exact .pure .nil
  | @cons c c' cs cs' head _ ih =>
      obtain ⟨x, ts⟩ := c
      obtain ⟨y, us⟩ := c'
      obtain ⟨shapes, equal⟩ := head
      obtain ⟨rfl, same⟩ :
          x = y ∧ Term.eraseAll ts = Term.eraseAll us := by
        simpa [eraseArgs] using shapes
      have args : Agree exact Term.eraseAll ts us :=
        ⟨same, fun h => congrArg Prod.snd (equal h)⟩
      have type : Term.Agrees exact
          (Term.arrows argumentBinder ts result)
          (Term.arrows argumentBinder us result) :=
        Term.arrows_agrees (forall₂_of_agree_all args) (.refl _)
      exact .bind (declareType_alike x type) fun _ _ closed =>
        .bind ih fun _ _ rest =>
          .pure (.cons (Term.agree_binding closed) rest)

theorem dataByArguments_alike :
    Alike exact expr expr b true (.upTo exact Decl.erase)
      dataByArguments dataByArguments := by
  refine .bind (.reserved _) fun _ _ _ =>
    .bind name_alike fun target _ same => ?_
  cases same
  refine .bind identName_alike.many fun params _ same => ?_
  cases Likeness.eq_of_same same
  exact .bind (.symbol _) fun _ _ _ =>
    .bind (.sepBy1 constructorByArguments_alike (.symbol _))
      fun _ _ constructors =>
        .bind (declareType_alike target (.refl _)) fun _ _ closed =>
          .bind (declareConstructors_alike constructors) fun _ _ typed =>
            .pure (Decl.data_agrees closed typed)

theorem dataDeclaration_alike :
    Alike exact expr expr b true (.upTo exact Decl.erase)
      dataDeclaration dataDeclaration :=
  .oneOf <| .cons dataBySignatures_alike <|
    .cons dataByArguments_alike .nil

-- ========================================================= clauses

theorem definiens_alike :
    TermAlike exact expr expr b definiens definiens :=
  .bind (.symbol _) fun _ _ _ => .nested

theorem functionClause_alike :
    Alike exact expr expr b true (.upTo exact Clause.erase)
      functionClause functionClause := by
  refine .bind name_alike fun target _ same => ?_
  cases same
  exact .bind namedArgument_alike.many fun _ _ named =>
    .bind patternAtom_alike.many fun _ _ args =>
      .bind definiens_alike fun _ _ rhs =>
        .pure (Clause.agrees
          (Term.agrees_app (.refl _) (Term.agree_named named)
            (Term.agree_all args) fun _ => rfl) rhs)

theorem operatorClause_alike :
    Alike exact expr expr b true (.upTo exact Clause.erase)
      operatorClause operatorClause := by
  refine .bind atom_alike fun _ _ left =>
    .bind .operator fun op op' h => .bind atom_alike fun _ _ right =>
      .bind definiens_alike fun _ _ rhs => .pure ?_
  have text : op.text = op'.text := congrArg Lexeme.text h.1
  rw [text]
  exact Clause.agrees
    (Term.agrees_app (.refl _) (.refl _)
      (Term.agree_all (.cons left (.cons right .nil))) fun _ => rfl) rhs

theorem clause_alike :
    Alike exact expr expr b true (.upTo exact Clause.erase)
      clause clause :=
  .oneOf <| .cons functionClause_alike <|
    .cons operatorClause_alike .nil

theorem clauseDeclaration_alike :
    Alike exact expr expr b true (.upTo exact Decl.erase)
      clauseDeclaration clauseDeclaration :=
  .bind clause_alike fun _ _ clause => .pure (Decl.clauses_agrees clause)

-- ==================================================== declarations

theorem declaration_alike :
    Alike exact expr expr b true (.upTo exact Decl.erase)
      declaration declaration :=
  .oneOf <| .cons fixityDeclaration_alike <|
    .cons signatureDeclaration_alike <| .cons dataDeclaration_alike <|
    .cons clauseDeclaration_alike .nil

theorem item_alike :
    Alike exact expr expr b true (.upTo exact Decl.erase) item item :=
  .bind declaration_alike fun d d' decl => .bind (.mark _) fun _ _ _ =>
    .consult (d.mapTerms ·.supply) (d'.mapTerms ·.supply) fun _ _ same =>
      Decl.mapTerms_supply_agrees same decl

theorem item?_alike :
    Alike exact expr expr b b (.option (.upTo exact Decl.erase))
      item? item? := by
  refine .bind .atEnd fun ended _ same => ?_
  cases same
  cases ended with
  | true => exact .pure .none
  | false => exact .map item_alike.untold fun _ _ decl => .some decl

theorem moduleItems_alike :
    Alike exact expr expr b true (.list (.upTo exact Decl.erase))
      moduleItems moduleItems :=
  .bind item_alike fun _ _ first => .bind (.loop item?_alike)
    fun _ _ rest => .pure (.cons first rest)

end Grammar

end DepLang

/-
Every rule stays inside its declaration: the only semicolon of the
grammar is the one that ends an item. For each rule this is one
derivation that follows the rule line by line. Expressions, and all that
is made of them alone, declare nothing, whatever stands for a nested
expression; the rules of declarations may declare.

Expressions themselves follow by induction on how deep they may be
nested: `expr_quiet`, `expr_accountable`, `expr_fenced`, and
`expr_sound`, where it counts that the bound on the nesting is never
met. So a whole expression and a whole module are read or fail, and a
defect, which would be an error in the grammar itself, is not among the
ends (`moduleItems_sound`).
-/
import DepLang.Proofs.Grammar.AlikeDecl
import DepLang.Proofs.Grammar.Nesting
import DepLang.Proofs.Parser.Fence
import DepLang.Proofs.Parser.Prefix

namespace DepLang.Grammar

open DepLang.Parser

variable {e : Parser Term} {declares : Prop} {free : Bool} {start : Nat}

/-- A rule that stays inside, over nested expressions `e`. -/
abbrev Stays (e : Parser Term) (declares : Prop) {α : Type}
    (p : Parser α) : Prop :=
  ∀ {free}, Inside e declares free p

-- =========================================================== names

theorem spanFrom_inside : Stays e declares (spanFrom start) := by
  intro free
  let ending (stop : Nat) : Span := ⟨start, max stop start⟩
  show Inside e declares free (ending <$> lastStop)
  exact Inside.lastStop.map ending

theorem located_inside (f : Option Span → Term) :
    Stays e declares (located start f) :=
  .bind spanFrom_inside fun _ => .pure _

theorem here_inside : Stays e declares here :=
  .look fun t => t.span.start

theorem identName_inside : Stays e declares identName :=
  .bind .identifier fun _ => .pure _

theorem operatorName_inside : Stays e declares operatorName :=
  .bind (.mark _) fun _ => .bind .operator fun _ =>
    .bind (.mark _) fun _ => .pure _

/-- A choice of alternatives that stay inside one by one. -/
theorem choice_inside {α : Type} {p : Parser α} {ps : List (Parser α)}
    (first : Inside e declares free p)
    (others : List.Forall (Inside e declares free) ps) :
    Inside e declares free (choice (p :: ps)) := by
  refine .choice (List.cons_ne_nil p ps) fun q hq => ?_
  rcases List.mem_cons.1 hq with rfl | hq
  · exact first
  · exact List.forall_iff_forall_mem.1 others q hq

theorem name_inside : Stays e declares name :=
  choice_inside identName_inside operatorName_inside

-- =========================================================== atoms

theorem quotation_inside : Stays e declares (quotation e start) :=
  .bind (.mark _) fun _ => .bind .nested fun _ =>
    .bind (.mark _) fun _ => located_inside _

theorem reference_inside : Stays e declares (reference start) :=
  .bind name_inside fun _ => located_inside _

theorem hole_inside : Stays e declares (hole start) :=
  .bind (.mark _) fun _ => located_inside _

theorem parenthesized_inside : Stays e declares (parenthesized e) :=
  .bind (.mark _) fun _ => .bind .nested fun _ =>
    .bind (.mark _) fun _ => .pure _

theorem setType_inside : Stays e declares (setType start) :=
  .bind (.reserved _) fun _ => located_inside _

theorem atom_inside : Stays e declares (atom e) :=
  .bind here_inside fun _ => choice_inside quotation_inside
    ⟨reference_inside, hole_inside, parenthesized_inside, setType_inside⟩

theorem hidden_inside : Stays e declares (hidden e start) :=
  .bind (.symbol _) fun _ => .bind atom_inside fun _ => located_inside _

theorem patternAtom_inside : Stays e declares (patternAtom e) :=
  .bind here_inside fun _ => choice_inside atom_inside hidden_inside

-- ==================================================== applications

theorem namedArgument_inside : Stays e declares (namedArgument e) :=
  .bind (.mark _) fun _ => .bind here_inside fun _ =>
    .bind identName_inside fun _ => .bind (located_inside _) fun _ =>
      .bind (.optional (.bind (.symbol _) fun _ => .nested) _) fun _ =>
        .bind (.mark _) fun _ => .pure _

theorem applicationOf_inside (head : Term) :
    Stays e declares (applicationOf e head start) :=
  .bind (.many namedArgument_inside) fun _ =>
    .bind (.many1 atom_inside) fun _ => located_inside _

theorem applicationOrAtom_inside : Stays e declares (applicationOrAtom e) :=
  .bind here_inside fun _ => .bind atom_inside fun head =>
    .optional (applicationOf_inside head) head

-- ======================================================== operands

theorem ascription_inside : Stays e declares (ascription e) :=
  .bind (.symbol _) fun _ => .nested

theorem lambda_inside : Stays e declares (lambda e) :=
  .bind here_inside fun _ => .bind (.symbol _) fun _ =>
    .bind identName_inside fun _ =>
      .bind (.optional ascription_inside _) fun _ =>
        .bind (.symbol _) fun _ => .bind .nested fun _ => located_inside _

theorem piBetween_inside {opening closing : Mark} {plicity : Plicity}
    (left : opening ≠ .semicolon) (right : closing ≠ .semicolon) :
    Stays e declares (piBetween e opening closing plicity start) :=
  .bind (.mark _ left) fun _ => .bind identName_inside fun _ =>
    .bind ascription_inside fun _ => .bind (.mark _ right) fun _ =>
      .bind (.symbol _) fun _ => .bind .nested fun _ => located_inside _

theorem piType_inside : Stays e declares (piType e) :=
  .bind here_inside fun _ =>
    choice_inside (piBetween_inside (by decide) (by decide))
      (piBetween_inside (by decide) (by decide))

theorem operand_inside : Stays e declares (operand e) :=
  choice_inside applicationOrAtom_inside ⟨lambda_inside, piType_inside⟩

-- ========================================================== chains

/-- No level has a mark for an operator. -/
theorem operator?_of_semicolon (level : Level) {t : Token}
    (h : t.kind = .mark .semicolon) : level.operator? t.lexeme = none := by
  have kind : t.lexeme.kind = .mark .semicolon := h
  cases found : t.lexeme <;> simp_all [Lexeme.kind, Level.operator?]

variable {operand : Parser Term}

theorem chainStep_inside (level : Level) (assoc : Assoc)
    (h : Stays e declares operand) :
    Stays e declares (chainStep level assoc operand) := by
  refine .seen (f := fun t => level.operator? t.lexeme)
    (fun _ => operator?_of_semicolon level) (.pure _) fun op => ?_
  show Inside e declares true (if continues assoc op then _ else _)
  split
  · exact .bind .advance fun _ => .bind h fun _ => .pure _
  · exact .failWith _ .nil

theorem chain_inside (level : Level) (h : Stays e declares operand) :
    Stays e declares (chain level operand) :=
  .bind h fun _ => .seen (f := fun t => level.operator? t.lexeme)
    (fun _ => operator?_of_semicolon level) (.pure _) fun op =>
      .bind .advance fun _ => .bind h fun _ =>
        .bind (.loop (chainStep_inside level op.assoc h)) fun _ => .pure _

theorem chains_inside (levels : List Level) (h : Stays e declares operand) :
    Stays e declares (chains operand levels) := by
  induction levels with
  | nil => exact h
  | cons level tighter ih => exact chain_inside level ih

-- ===================================================== expressions

/-- Expressions change nothing in the registry. -/
theorem expr_quiet : Quiet expr := by
  have within : ∀ depth, Quiet (exprWithin depth) := by
    intro depth
    induction depth with
    | zero =>
        intro inp s a t run
        cases run
    | succ depth ih =>
        intro inp s
        have stays : Inside (exprWithin depth) False false
            (chains (operand (exprWithin depth))
              s.registry.fixities.levels.reverse) :=
          chains_inside _ operand_inside
        exact stays.quiet (exprWithin_steady depth) ih inp s
  exact fun inp s => within _ inp s

/-- Rules that stay inside their declaration and declare nothing. -/
theorem quiet_of_stays {α : Type} {p : Parser α}
    (h : Stays expr False p) : Quiet p := by
  have inside : Inside expr False false p := h
  exact inside.quiet expr_steady expr_quiet

theorem steady_of_stays {α : Type} {p : Parser α}
    (h : Stays expr True p) : Steady p := by
  have inside : Inside expr True false p := h
  exact inside.steady expr_steady

/-- The bound on the nesting of expressions is never met. -/
theorem expr_sound (inp : Input) : Sound inp expr := by
  suffices within : ∀ n s, inp.remaining s = n →
      ∀ d t, expr inp s ≠ .defect d t from
    fun s => within _ s rfl
  intro n
  induction n using Nat.strongRecOn with
  | ind n ih =>
      intro s left
      -- nested expressions, as far as they can be entered from here
      let below : Parser Term := fun inp' u =>
        if inp.remaining u < n then expr inp' u
        else .error (failureAt inp' u none []) u
      have steady : Steady below := by
        intro inp' u
        show (if inp.remaining u < n then expr inp' u else _).state.Follows u
        split
        · exact expr_steady inp' u
        · exact .refl u
      have sound : Sound inp below := by
        intro u d t
        show (if inp.remaining u < n then expr inp u else _) ≠ _
        split
        next less => exact ih _ less u rfl d t
        next => exact fun run => by cases run
      have same : expr inp s = exprOver below inp s := by
        rw [expr_eq_exprOver]
        refine exprOver_congr expr_steady steady fun u less => ?_
        exact (if_pos (left ▸ less)).symm
      have stays : Inside below True false
          (chains (operand below) s.registry.fixities.levels.reverse) :=
        chains_inside _ operand_inside
      intro d t
      rw [same]
      exact stays.sound sound s d t

theorem exprWithin_accountable (inp : Input) (depth : Nat) :
    Accountable inp (exprWithin depth) := by
  induction depth with
  | zero => exact accountable_broken .nestedTooDeep
  | succ depth ih =>
      exact (accountable_ask fun _ s => s.registry.fixities.levels.reverse).bind
        fun levels =>
          (chains_inside levels operand_inside :
            Inside (exprWithin depth) True false _).accountable ih

/-- Expressions account for their failures. -/
theorem expr_accountable (inp : Input) : Accountable inp expr :=
  (accountable_ask fun inp s => inp.remaining s + 1).bind
    (exprWithin_accountable inp)

/-- Expressions never look over a fence. They run at one depth on both
sides, deep enough for either input. -/
theorem expr_fenced {inp inp' : Input} {m : Nat}
    (fence : inp.Fence inp' m) : Fenced inp inp' m false expr expr := by
  have within : ∀ depth, Fenced inp inp' m false
      (exprWithin depth) (exprWithin depth) := by
    intro depth
    induction depth with
    | zero => exact fun _ _ start _ => .defect .nestedTooDeep start
    | succ depth ih =>
        intro s s' start known
        have stays : Inside (exprWithin depth) True false
            (chains (operand (exprWithin depth))
              s.registry.fixities.levels.reverse) :=
          chains_inside _ operand_inside
        have run := stays.fenced fence (exprWithin_steady depth) ih s s'
          start known
        show EndsBeside m (exprOver (exprWithin depth) inp s)
          (exprOver (exprWithin depth) inp' s')
        unfold exprOver
        rw [← start.registry]
        exact run
  intro s s' start known
  obtain ⟨depth, deep, deep'⟩ := exists_exprWithin inp inp'
  rw [deep, deep']
  exact within depth s s' start known

/-- Expressions are confined to what the inputs share. -/
theorem expr_confined {inp inp' : Input} {p : Nat}
    (shares : inp.Shares inp' p) : Confined inp inp' p expr expr := by
  have within : ∀ depth, Confined inp inp' p
      (exprWithin depth) (exprWithin depth) := by
    intro depth
    induction depth with
    | zero => exact fun _ _ start => .inl (.defect .nestedTooDeep start)
    | succ depth ih =>
        intro s s' start
        have stays : Inside (exprWithin depth) True false
            (chains (operand (exprWithin depth))
              s.registry.fixities.levels.reverse) :=
          chains_inside _ operand_inside
        have run := stays.confined shares (exprWithin_accountable inp depth)
          ih s s' start
        show EndsAlongside p (exprOver (exprWithin depth) inp s)
            (exprOver (exprWithin depth) inp' s')
          ∨ (exprOver (exprWithin depth) inp s).Escapes inp p
        unfold exprOver
        rw [← start.registry]
        exact run
  intro s s' start
  obtain ⟨depth, deep, deep'⟩ := exists_exprWithin inp inp'
  rw [deep, deep']
  exact within depth s s' start

-- ==================================================== declarations

theorem declareType_inside (target : Name) (type : Term) :
    Stays e True (declareType target type) :=
  .bind (.consult id) fun _ => .bind (.define trivial _ _) fun _ => .pure _

theorem signature_inside : Stays expr True signature :=
  .bind name_inside fun _ => .bind ascription_inside fun _ =>
    .bind (declareType_inside _ _) fun _ => .pure _

/-- No associativity is spelled by a mark. -/
theorem associativity?_of_semicolon {t : Token}
    (h : t.kind = .mark .semicolon) : associativity? t.lexeme = none := by
  have kind : t.lexeme.kind = .mark .semicolon := h
  cases found : t.lexeme <;> simp_all [Lexeme.kind, associativity?]

theorem associativity_inside : Stays e declares associativity :=
  .seen (f := fun t => associativity? t.lexeme)
    (fun _ => associativity?_of_semicolon) (.fail (by decide)) fun _ =>
      .bind .advance fun _ => .pure _

theorem fixityDeclaration_inside : Stays e True fixityDeclaration :=
  .bind associativity_inside fun _ => .bind .natural fun _ =>
    .bind (.sepBy1 (.bind .operator fun _ => .pure _) (.mark _)) fun _ =>
      .bind (.declareFixities trivial _) fun _ => .pure _

theorem signatureDeclaration_inside : Stays expr True signatureDeclaration :=
  .bind signature_inside fun _ => .pure _

theorem dataBySignatures_inside : Stays expr True dataBySignatures :=
  .bind (.reserved _) fun _ => .bind name_inside fun _ =>
    .bind ascription_inside fun _ => .bind (.reserved _) fun _ =>
      .bind (declareType_inside _ _) fun _ =>
        .bind (.sepBy1 signature_inside (.symbol _)) fun _ => .pure _

theorem constructorByArguments_inside :
    Stays expr declares constructorByArguments :=
  .bind name_inside fun _ => .bind (.many atom_inside) fun _ => .pure _

theorem declareConstructors_inside (result : Term)
    (constructors : List (Name × List Term)) :
    Stays e True (declareConstructors result constructors) := by
  induction constructors with
  | nil => exact .pure _
  | cons c rest ih =>
      exact .bind (declareType_inside _ _) fun _ => .bind ih fun _ =>
        .pure _

theorem dataByArguments_inside : Stays expr True dataByArguments :=
  .bind (.reserved _) fun _ => .bind name_inside fun _ =>
    .bind (.many identName_inside) fun _ => .bind (.symbol _) fun _ =>
      .bind (.sepBy1 constructorByArguments_inside (.symbol _)) fun _ =>
        .bind (declareType_inside _ _) fun _ =>
          .bind (declareConstructors_inside _ _) fun _ => .pure _

theorem dataDeclaration_inside : Stays expr True dataDeclaration :=
  choice_inside dataBySignatures_inside dataByArguments_inside

theorem definiens_inside : Stays expr declares definiens :=
  .bind (.symbol _) fun _ => .nested

theorem functionClause_inside : Stays expr declares functionClause :=
  .bind name_inside fun _ => .bind (.many namedArgument_inside) fun _ =>
    .bind (.many patternAtom_inside) fun _ =>
      .bind definiens_inside fun _ => .pure _

theorem operatorClause_inside : Stays expr declares operatorClause :=
  .bind atom_inside fun _ => .bind .operator fun _ =>
    .bind atom_inside fun _ => .bind definiens_inside fun _ => .pure _

theorem clauseDeclaration_inside : Stays expr declares clauseDeclaration :=
  .bind (choice_inside functionClause_inside operatorClause_inside)
    fun _ => .pure _

theorem declaration_inside : Stays expr True declaration :=
  choice_inside fixityDeclaration_inside
    ⟨signatureDeclaration_inside, dataDeclaration_inside,
      clauseDeclaration_inside⟩

-- ==================================================== whole inputs

variable {inp : Input}

theorem wholeExpr_sound : Sound inp wholeExpr := by
  refine (expr_sound inp).bind fun _ => ?_
  refine Sound.bind ((sound_ask _).bind fun ended => ?_) fun _ =>
    sound_pure _
  cases ended with
  | true => exact sound_pure ()
  | false => exact fun s d t run => by cases run

theorem item_sound : Sound inp item := by
  have inside : Inside expr True false declaration := declaration_inside
  have semicolon : Sound inp (mark .semicolon) := by
    unfold mark expect acceptIf
    exact sound_accept _ _
  exact (inside.sound (expr_sound inp)).bind fun _ =>
    semicolon.bind fun _ => (sound_ask _).bind fun _ => sound_pure _

theorem item?_sound : Sound inp item? := by
  refine (sound_ask _).bind fun ended => ?_
  cases ended with
  | true => exact sound_pure _
  | false => exact Sound.bind item_sound fun _ => sound_pure _

theorem moduleItems_sound : Sound inp moduleItems :=
  .bind item_sound fun _ => .bind (.loop item?_sound) fun _ =>
    sound_pure _

end DepLang.Grammar

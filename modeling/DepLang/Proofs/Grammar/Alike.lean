/-
The rules of expressions are built alike from whatever stands for a
nested expression. For each rule this is one lemma that follows the
rule line by line; it says that the rule reads a token on its way to a
value, that it enters nested expressions only after one, and that its
value depends on spans only in its own spans.
-/
import DepLang.Grammar.Expr
import DepLang.Proofs.Parser.Alike

namespace DepLang.Grammar

open DepLang.Parser
open Term (agrees_ref agrees_hole agrees_set agrees_quote agrees_hidden
  agrees_app agrees_lam agrees_pi)

variable {exact : Prop} {e e' : Parser Term} {b : Bool}

/-- A rule for terms, built alike and past its first token at the
end. -/
abbrev TermAlike (exact : Prop) (e e' : Parser Term) (b : Bool)
    (p p' : Parser Term) : Prop :=
  Alike exact e e' b true (Term.likeness exact) p p'

-- =========================================================== spans

theorem here_alike :
    Alike exact e e' b b (.offset exact) here here := by
  refine .look (f := fun t => t.span.start) fun t t' ht => ?_
  exact ⟨rfl, fun h => by rw [ht.2 h]⟩

theorem spanFrom_alike {i j : Nat} (start : exact → i = j) :
    Alike exact e e' b b (.upTo exact fun _ => ())
      (spanFrom i) (spanFrom j) := by
  let ending (k stop : Nat) : Span := ⟨k, max stop k⟩
  have value : ∀ stop stop', Likeness.offset exact stop stop' →
      Agree exact (fun _ => ()) (ending i stop) (ending j stop') :=
    fun _ _ stop => ⟨rfl, fun h => by rw [start h, stop.2 h]⟩
  show Alike exact e e' b b _ (ending i <$> lastStop) (ending j <$> lastStop)
  exact Alike.lastStop.map value

/-- A term with its span, if terms with like spans agree. -/
theorem located_alike {i j : Nat} {f f' : Option Span → Term}
    (start : exact → i = j)
    (value : ∀ σ τ, (exact → σ = τ) → Term.Agrees exact (f σ) (f' τ)) :
    Alike exact e e' b b (Term.likeness exact)
      (located i f) (located j f') :=
  .bind (spanFrom_alike start) fun _ _ span => .pure
    (value _ _ fun h => by rw [span.2 h])

-- =========================================================== names

theorem identName_alike :
    Alike exact e e' b true .same identName identName :=
  .bind .identifier fun word word' h => .pure <| by
    show Name.ofText word.lexeme.text = Name.ofText word'.lexeme.text
    rw [h.1]

theorem operatorName_alike :
    Alike exact e e' b true .same operatorName operatorName :=
  .bind (.mark _) fun _ _ _ => .bind .operator fun op op' h =>
    .bind (.mark _) fun _ _ _ => .pure <| by
      show Name.ofText op.lexeme.text = Name.ofText op'.lexeme.text
      rw [h.1]

theorem name_alike : Alike exact e e' b true .same name name :=
  .oneOf (.cons identName_alike (.cons operatorName_alike .nil))

-- =========================================================== atoms

variable {i j : Nat}

theorem quotation_alike (start : exact → i = j) :
    TermAlike exact e e' b (quotation e i) (quotation e' j) :=
  .bind (.mark _) fun _ _ _ => .bind .nested fun _ _ body =>
    .bind (.mark _) fun _ _ _ =>
      located_alike start fun _ _ => agrees_quote body

theorem reference_alike (start : exact → i = j) :
    TermAlike exact e e' b (reference i) (reference j) := by
  refine .bind name_alike fun x _ same => ?_
  cases same
  exact located_alike start fun _ _ => agrees_ref

theorem hole_alike (start : exact → i = j) :
    TermAlike exact e e' b (hole i) (hole j) :=
  .bind (.mark _) fun _ _ _ => located_alike start fun _ _ => agrees_hole

theorem parenthesized_alike :
    TermAlike exact e e' b (parenthesized e) (parenthesized e') :=
  .bind (.mark _) fun _ _ _ => .bind .nested fun _ _ body =>
    .bind (.mark _) fun _ _ _ => .pure body

theorem setType_alike (start : exact → i = j) :
    TermAlike exact e e' b (setType i) (setType j) :=
  .bind (.reserved _) fun _ _ _ =>
    located_alike start fun _ _ => agrees_set

theorem atom_alike : TermAlike exact e e' b (atom e) (atom e') :=
  .bind here_alike fun _ _ start => .oneOf <|
    .cons (quotation_alike start.2) <| .cons (reference_alike start.2) <|
    .cons (hole_alike start.2) <| .cons parenthesized_alike <|
    .cons (setType_alike start.2) .nil

theorem hidden_alike (start : exact → i = j) :
    TermAlike exact e e' b (hidden e i) (hidden e' j) :=
  .bind (.symbol _) fun _ _ _ => .bind atom_alike fun _ _ body =>
    located_alike start fun _ _ => agrees_hidden body

theorem patternAtom_alike :
    TermAlike exact e e' b (patternAtom e) (patternAtom e') :=
  .bind here_alike fun _ _ start => .oneOf <|
    .cons atom_alike <| .cons (hidden_alike start.2) .nil

-- ==================================================== applications

theorem namedValue_alike :
    TermAlike exact e e' b (namedValue e) (namedValue e') :=
  .bind (.symbol _) fun _ _ _ => .nested

theorem namedArgument_alike :
    Alike exact e e' b true (.upTo exact Term.eraseBinding)
      (namedArgument e) (namedArgument e') := by
  refine .bind (.mark _) fun _ _ _ => .bind here_alike fun i j start =>
    .bind identName_alike fun x _ same => ?_
  cases same
  exact .bind (located_alike start.2 fun _ _ => agrees_ref)
    fun _ _ itself => .bind (.optional namedValue_alike itself)
      fun _ _ value => .bind (.mark _) fun _ _ _ =>
        .pure (Term.agree_binding value)

theorem applicationOf_alike {t u : Term} (head : Term.Agrees exact t u)
    (start : exact → i = j) :
    TermAlike exact e e' b (applicationOf e t i) (applicationOf e' u j) :=
  .bind namedArgument_alike.many fun _ _ named =>
    .bind atom_alike.many1 fun _ _ args =>
      located_alike start fun _ _ =>
        agrees_app head (Term.agree_named named) (Term.agree_all args)

/-- An application whose head is given. -/
theorem applicationGiven_alike {t u : Term}
    (head : Term.Agrees exact t u) (start : exact → i = j) :
    TermAlike exact e e' b
      (application e (some (t, i))) (application e' (some (u, j))) :=
  applicationOf_alike head start

/-- An application whose head is still to be read. -/
theorem application_alike :
    TermAlike exact e e' b (application e none) (application e' none) :=
  .bind here_alike fun _ _ start => .bind atom_alike fun _ _ head =>
    applicationOf_alike head start.2

theorem applicationOrAtom_alike :
    TermAlike exact e e' b (applicationOrAtom e) (applicationOrAtom e') :=
  .bind here_alike fun _ _ start => .bind atom_alike fun _ _ head =>
    .optional (applicationGiven_alike head start.2) head

-- ========================================================= binders

theorem ascription_alike :
    TermAlike exact e e' b (ascription e) (ascription e') :=
  .bind (.symbol _) fun _ _ _ => .nested

theorem lambda_alike : TermAlike exact e e' b (lambda e) (lambda e') := by
  refine .bind here_alike fun i j start => .bind (.symbol _) fun _ _ _ =>
    .bind identName_alike fun x _ same => ?_
  cases same
  exact .bind (.optional ascription_alike (.refl _)) fun _ _ type =>
    .bind (.symbol _) fun _ _ _ => .bind .nested fun _ _ body =>
      located_alike start.2 fun _ _ => agrees_lam type body

theorem piBetween_alike {opening closing : Mark} {p : Plicity}
    (start : exact → i = j) :
    TermAlike exact e e' b (piBetween e opening closing p i)
      (piBetween e' opening closing p j) := by
  refine .bind (.mark _) fun _ _ _ =>
    .bind identName_alike fun x _ same => ?_
  cases same
  exact .bind ascription_alike fun _ _ type =>
    .bind (.mark _) fun _ _ _ => .bind (.symbol _) fun _ _ _ =>
      .bind .nested fun _ _ body =>
        located_alike start fun _ _ => agrees_pi type body

theorem piType_alike : TermAlike exact e e' b (piType e) (piType e') :=
  .bind here_alike fun _ _ start => .oneOf <|
    .cons (piBetween_alike start.2) <|
    .cons (piBetween_alike start.2) .nil

-- ======================================================== operands

theorem operand_alike :
    TermAlike exact e e' b (operand e) (operand e') :=
  .oneOf <| .cons applicationOrAtom_alike <| .cons lambda_alike <|
    .cons piType_alike .nil

-- ========================================================== chains

/-- Being the same operator with like operands. -/
abbrev stepLikeness (exact : Prop) : Likeness (Operator × Term) :=
  .upTo exact eraseStep

theorem peekOperator_alike (level : Level) :
    Alike exact e e' b b .same
      (peekOperator level) (peekOperator level) :=
  .look (f := fun t => level.operator? t.lexeme) fun t t' h => by
    show level.operator? t.lexeme = level.operator? t'.lexeme
    rw [h.1]

variable {operand operand' : Parser Term}

theorem chainStep_alike (level : Level) (assoc : Assoc)
    (h : TermAlike exact e e' b operand operand') :
    Alike exact e e' b b (stepLikeness exact).option
      (chainStep level assoc operand) (chainStep level assoc operand') := by
  refine .bind (peekOperator_alike level) fun op _ same => ?_
  cases same
  cases op with
  | none => exact .pure .none
  | some op =>
      show Alike exact e e' b b _
        (if continues assoc op then _ else _)
        (if continues assoc op then _ else _)
      split
      · refine .bind .advance fun _ _ _ => .bind h.untold ?_
        intro t u agree
        exact .pure (.some (agree_step.2 ⟨rfl, agree⟩))
      · exact .failWith _ _

theorem chain_alike (level : Level)
    (h : ∀ {b}, TermAlike exact e e' b operand operand') :
    TermAlike exact e e' b (chain level operand) (chain level operand') := by
  refine .bind h fun x x' first => ?_
  refine .bind (peekOperator_alike level) fun op _ same => ?_
  cases same
  cases op with
  | none => exact .pure first
  | some op =>
      refine .bind .advance fun _ _ _ => .bind h fun y y' second => ?_
      refine .bind (.loop (chainStep_alike level op.assoc h)) ?_
      intro rest rest' like
      refine .pure (joinChain_agrees op.assoc first (.cons ?_ like))
      exact agree_step.2 ⟨rfl, second⟩

theorem chains_alike (levels : List Level)
    (h : ∀ {b}, TermAlike exact e e' b operand operand') :
    ∀ {b}, TermAlike exact e e' b
      (chains operand levels) (chains operand' levels) := by
  induction levels with
  | nil => exact h
  | cons level tighter ih => exact chain_alike level ih

end DepLang.Grammar

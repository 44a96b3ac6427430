/-
Programs over the token stream. A program is whatever can be put
together from the primitives, the combinators, the declarations and the
rules of the grammar; what it does next may depend on what it has
found. `Built` says so of a parser, and a property that each way of
putting programs together keeps is then one induction.

Every program is built alike to itself (`Built.selfAlike`), which is
where what is known of the rules comes in. Scripts that never ask for
the report of a failure are programs (`Script.built`); asking for it is
the one thing a script can do that a program cannot, and that no rule
does.
-/
import DepLang.Proofs.Grammar.Looks
import DepLang.Script

namespace DepLang

open DepLang.Grammar DepLang.Parser

variable {ρ : Type}

-- ======================================================== programs

/-- Parsers put together from the primitives, the combinators, the
declarations and the rules of the grammar. -/
inductive Parser.Built : {α : Type} → Parser α → Prop
  | pure {α : Type} (a : α) : Built (pure a)
  | bind {α β : Type} {p : Parser α} {f : α → Parser β}
      (first : Built p) (next : ∀ a, Built (f a)) : Built (p >>= f)
  | peek (offset : Nat) : Built (peek offset)
  | advance : Built advance
  | atEnd : Built atEnd
  | eof : Built eof
  | expect (kind : TokenKind) : Built (expect kind)
  | reserved (word : String) : Built (reserved word)
  | symbol (op : String) : Built (symbol op)
  | operator : Built operator
  | identifier : Built identifier
  | natural : Built natural
  | failWith {α : Type} (complaint : Option Complaint)
      (expected : List String) :
      Built (failWith complaint expected : Parser α)
  | attempt {α : Type} {p : Parser α} (body : Built p) :
      Built (attempt p)
  | choice {α : Type} {ps : List (Parser α)}
      (each : ∀ p ∈ ps, Built p) : Built (choice ps)
  | optional {α : Type} {p : Parser α} (body : Built p) (a : α) :
      Built (optional p a)
  | many {α : Type} {p : Parser α} (body : Built p) : Built (many p)
  | many1 {α : Type} {p : Parser α} (body : Built p) : Built (many1 p)
  | sepBy1 {α β : Type} {p : Parser α} {q : Parser β}
      (body : Built p) (separator : Built q) : Built (sepBy1 p q)
  | define (name : Name) (names : List Name) : Built (define name names)
  | declareFixities (entries : List FixityEntry) :
      Built (declareFixities entries)
  | declareType (name : Name) (type : Term) :
      Built (declareType name type)
  | application (head : Term) (start : Option Nat) :
      Built (Grammar.application expr (start.map (head, ·)))
  | rule {ρ : Type} (rule : Rule) :
      Built (rule.parser : Parser (Value ρ))

/-- Making a value of another one. -/
theorem Parser.Built.map {α β : Type} {p : Parser α} (h : Built p)
    (f : α → β) : Built (f <$> p) :=
  .bind h fun a => .pure (f a)

-- ============================================ programs are alike

theorem selfAlike_map {α β : Type} {p : Parser α} {b : Bool} (f : α → β)
    (h : Alike True expr expr true b .same p p) :
    Alike True expr expr true b .same (f <$> p) (f <$> p) :=
  h.map fun _ _ same => congrArg f same

theorem rule_selfAlike (rule : Rule) :
    SelfAlike (rule.parser : Parser (Value ρ)) := by
  cases rule with
  | expr => exact selfAlike_map _ Alike.nested.same
  | operand => exact selfAlike_map _ operand_alike.same
  | atom => exact selfAlike_map _ atom_alike.same
  | patternAtom => exact selfAlike_map _ patternAtom_alike.same
  | application => exact selfAlike_map _ application_alike.same
  | ascription => exact selfAlike_map _ ascription_alike.same
  | lambda => exact selfAlike_map _ lambda_alike.same
  | piType => exact selfAlike_map _ piType_alike.same
  | name => exact selfAlike_map _ name_alike
  | namedArgument => exact selfAlike_map _ namedArgument_alike.same
  | signature => exact selfAlike_map _ signature_alike.same
  | constructorByArguments =>
      exact selfAlike_map _ constructorByArguments_alike.same
  | associativity => exact selfAlike_map _ associativity_alike
  | functionClause => exact selfAlike_map _ functionClause_alike.same
  | operatorClause => exact selfAlike_map _ operatorClause_alike.same
  | clause => exact selfAlike_map _ clause_alike.same
  | item => exact selfAlike_map _ item_alike.same
  | declaration => exact selfAlike_map _ declaration_alike.same
  | fixityDeclaration => exact selfAlike_map _ fixityDeclaration_alike.same
  | signatureDeclaration =>
      exact selfAlike_map _ signatureDeclaration_alike.same
  | dataBySignatures => exact selfAlike_map _ dataBySignatures_alike.same
  | dataByArguments => exact selfAlike_map _ dataByArguments_alike.same
  | dataDeclaration => exact selfAlike_map _ dataDeclaration_alike.same
  | clauseDeclaration => exact selfAlike_map _ clauseDeclaration_alike.same

theorem application_selfAlike (head : Term) (start : Option Nat) :
    TermAlike True expr expr true
      (Grammar.application expr (start.map (head, ·)))
      (Grammar.application expr (start.map (head, ·))) := by
  cases start with
  | none => exact application_alike
  | some i => exact applicationGiven_alike (.refl head) fun _ => rfl

/-- A program is built alike to itself. -/
theorem Parser.Built.selfAlike {α : Type} {p : Parser α} (h : Built p) :
    SelfAlike p := by
  induction h with
  | pure a => exact .pure rfl
  | bind _ _ first next =>
      refine .bind first fun a a' same => ?_
      cases same
      exact next a
  | peek offset => exact Alike.same (.peek offset)
  | advance => exact Alike.same .advance
  | atEnd => exact .atEnd
  | eof => exact .eof
  | expect kind => exact Alike.same (.expect (.inl rfl))
  | reserved word => exact Alike.same (.reserved word)
  | symbol op => exact Alike.same (.symbol op)
  | operator => exact Alike.same .operator
  | identifier => exact Alike.same .identifier
  | natural => exact .natural
  | failWith complaint expected => exact .failWith complaint expected
  | attempt _ body => exact .attempt body
  | choice _ each => exact .oneOf (List.forall₂_same.2 each)
  | optional _ a body => exact .optional body rfl
  | many _ body => exact body.many.sameList
  | many1 _ body => exact body.many1.sameList
  | sepBy1 _ _ body separator => exact (body.sepBy1 separator).sameList
  | define name names => exact .define name names
  | declareFixities entries => exact .declareFixities entries
  | declareType name type =>
      exact (declareType_alike name (.refl type)).same
  | application head start =>
      exact (application_selfAlike head start).same
  | rule rule => exact rule_selfAlike rule

-- ========================================================= scripts

namespace Script

mutual

/-- Does the script never ask for the report of a failure? -/
def isBlind : Script ρ → Bool
  | .report _ => false
  | .attempt p | .optional p _ | .many p | .many1 p => p.isBlind
  | .choice ps | .seq ps => allBlind ps
  | .sepBy1 p separator => p.isBlind && separator.isBlind
  | _ => true

/-- Are all the scripts blind? -/
def allBlind : List (Script ρ) → Bool
  | [] => true
  | p :: ps => p.isBlind && allBlind ps

end

theorem inTurn_built {ps : List (Parser (Value ρ))}
    (h : ∀ p ∈ ps, Built p) : Built (inTurn ps) := by
  induction ps with
  | nil => exact .pure []
  | cons p ps ih =>
      have rest := ih fun q hq => h q (List.mem_cons_of_mem p hq)
      exact .bind (h p List.mem_cons_self) fun value =>
        .bind rest fun values => .pure (value :: values)

mutual

/-- The parser of a blind script is a program. -/
theorem built (p : Script ρ) (h : p.isBlind = true) :
    Built p.parser := by
  cases p with
  | peek offset => exact (Built.peek offset).map _
  | advance => exact Built.advance.map _
  | atEnd => exact Built.atEnd.map _
  | eof => exact Built.eof.map _
  | expect kind => exact (Built.expect kind).map _
  | reserved word => exact (Built.reserved word).map _
  | symbol op => exact (Built.symbol op).map _
  | operator => exact Built.operator.map _
  | identifier => exact Built.identifier.map _
  | natural => exact Built.natural.map _
  | fail expected message => exact .failWith _ expected
  | attempt p => exact .attempt (built p h)
  | choice ps => exact .choice (allBuilt ps h)
  | optional p default => exact .optional (built p h) _
  | many p => exact (built p h).many.map _
  | many1 p => exact (built p h).many1.map _
  | sepBy1 p separator =>
      have both : p.isBlind = true ∧ separator.isBlind = true := by
        simpa [isBlind] using h
      exact ((built p both.1).sepBy1 (built separator both.2)).map _
  | seq ps => exact (inTurn_built (allBuilt ps h)).map _
  | literal value => exact .pure _
  | define name names => exact (Built.define name names).map _
  | declareFixities entries => exact (Built.declareFixities entries).map _
  | declareType name type => exact (Built.declareType name type).map _
  | application head start => exact (Built.application head start).map _
  | report e => cases h
  | rule rule => exact .rule rule

/-- The same of a list of scripts. -/
theorem allBuilt (ps : List (Script ρ)) (h : allBlind ps = true) :
    ∀ q ∈ parsers ps, Built q := by
  cases ps with
  | nil =>
      intro q hq
      cases hq
  | cons p ps =>
      have both : p.isBlind = true ∧ allBlind ps = true := by
        simpa [allBlind] using h
      intro q hq
      rw [parsers] at hq
      rcases List.mem_cons.1 hq with rfl | hq
      · exact built p both.1
      · exact allBuilt ps both.2 q hq

end

end Script

end DepLang

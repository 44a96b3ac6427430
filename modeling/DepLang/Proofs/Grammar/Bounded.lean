/-
How far runs go. A run that starts on one of the tokens stays on them:
however it is put together, it ends on a token that is no further back
(`Alike.stays`), since only a token that is not the end is passed. The
rules never end in a defect either (`rule_terminates`).

Every declaration of a module takes a token. So a module is the same
read by a loop that asks for no progress, but is cut off after as many
rounds as there are tokens (`program_eq_moduleItems`).
-/
import DepLang.Proofs.Grammar.Framed
import DepLang.Proofs.Script.Built

namespace DepLang

open DepLang.Parser DepLang.Grammar

-- =========================================================== tokens

theorem Input.length_of_ofTokens? {tokens : List Token} {origin : Origin}
    {language : Language} {inp : Input}
    (h : ofTokens? tokens origin language = some inp) :
    tokens.length = inp.tokens.size + 1 := by
  unfold ofTokens? at h
  split at h
  next endSpelling endSpan last =>
      cases h
      have some_token : tokens ≠ [] := by
        rintro rfl
        cases last
      have := List.length_pos_iff.2 some_token
      rw [List.size_toArray, List.length_dropLast]
      omega
  · cases h

-- ============================================================= runs

/-- Sequences that start the same, and go on the same from where that
ends, run the same. -/
theorem Parser.bind_congr_at {α β : Type} {inp : Input} {s : State}
    {p p' : Parser α} {f f' : α → Parser β} (first : p inp s = p' inp s)
    (next : ∀ a t, p inp s = .ok a t → f a inp t = f' a inp t) :
    (p >>= f) inp s = (p' >>= f') inp s := by
  rw [bind_apply, bind_apply, ← first]
  cases run : p inp s with
  | ok a t => exact next a t run
  | error | defect => rfl

/-- The run from a state ends in a value or in a failure, and among so
many tokens, on one no further back. -/
structure Parser.Terminates {α : Type} (inp : Input) (tokens : Nat) (s : State)
    (p : Parser α) : Prop where
  sound : ∀ d t, p inp s ≠ .defect d t
  forth : s.cursor ≤ (p inp s).state.cursor
  within : (p inp s).state.cursor < tokens

variable {α : Type} {inp : Input} {s : State}

/-- Outcomes that match end in related states. -/
theorem Outcome.Matches.state {R : Likeness α}
    {blame : Failure → Failure → Prop} {rel : State → State → Prop}
    {a a' : Outcome α} (h : Outcome.Matches R blame rel a a') :
    rel a.state a'.state := by
  cases h with
  | ok _ state => exact state
  | error _ state => exact state
  | defect _ state => exact state

/-- A run stays on the tokens and goes no further back. -/
theorem Parser.Alike.stays {p : Parser α} {R : Likeness α}
    (alike : Alike True expr expr true true R p p)
    (inside : s.cursor ≤ inp.tokens.size) :
    s.cursor ≤ (p inp s).state.cursor
      ∧ (p inp s).state.cursor ≤ inp.tokens.size := by
  have nested := expr_simulates (σ := Parser.Simulation.withinSize inp)
    (fun same => by rw [same.1]) (inp.remaining s + 1)
  have matched := alike.simulates expr_steady expr_steady nested s s
    ⟨rfl, inside⟩ ⟨Nat.le_succ _, fun _ => Nat.lt_succ_self _⟩
  have steady := (alike.steady expr_steady expr_steady).1
  exact ⟨(steady inp s).cursor_le, matched.state.2⟩

theorem Parser.Alike.terminates {p : Parser α} {R : Likeness α}
    (alike : Alike True expr expr true true R p p) (sound : Sound inp p)
    (inside : s.cursor ≤ inp.tokens.size) :
    p.Terminates inp (inp.tokens.size + 1) s := by
  obtain ⟨forth, within⟩ := alike.stays inside
  exact ⟨sound s, forth, Nat.lt_succ_of_le within⟩

namespace Grammar

-- ============================================================ rules

theorem applicationOf_sound (head : Term) (start : Nat) :
    Sound inp (applicationOf expr head start) := by
  have inside : Inside expr True false (applicationOf expr head start) :=
    applicationOf_inside head
  exact inside.sound (expr_sound inp)

/-- A head that is still to be read is an atom. -/
theorem application_sound (head : Option (Term × Nat)) :
    Sound inp (application expr head) := by
  cases head with
  | some head => exact applicationOf_sound head.1 head.2
  | none =>
      have head : Inside expr True false (atom expr) := atom_inside
      exact (sound_ask _).bind fun start =>
        (head.sound (expr_sound inp)).bind fun fn =>
          applicationOf_sound fn start

theorem rule_sound {ρ : Type} (rule : Rule) :
    Sound inp (rule.parser : Parser (Value ρ)) := by
  have made {α β : Type} {p : Parser α} (f : α → β) (h : Sound inp p) :
      Sound inp (f <$> p) :=
    h.bind fun a => sound_pure (f a)
  have inside {α β : Type} {p : Parser α} (f : α → β)
      (h : Inside expr True false p) : Sound inp (f <$> p) :=
    made f (h.sound (expr_sound inp))
  cases rule with
  | expr => exact made _ (expr_sound inp)
  | operand => exact inside _ operand_inside
  | atom => exact inside _ atom_inside
  | patternAtom => exact inside _ patternAtom_inside
  | application => exact made _ (application_sound none)
  | ascription => exact inside _ ascription_inside
  | lambda => exact inside _ lambda_inside
  | piType => exact inside _ piType_inside
  | name => exact inside _ name_inside
  | namedArgument => exact inside _ namedArgument_inside
  | signature => exact inside _ signature_inside
  | constructorByArguments => exact inside _ constructorByArguments_inside
  | associativity => exact inside _ associativity_inside
  | functionClause => exact inside _ functionClause_inside
  | operatorClause => exact inside _ operatorClause_inside
  | clause =>
      exact inside _ (choice_inside functionClause_inside
        operatorClause_inside)
  | item => exact made _ item_sound
  | declaration => exact inside _ declaration_inside
  | fixityDeclaration => exact inside _ fixityDeclaration_inside
  | signatureDeclaration => exact inside _ signatureDeclaration_inside
  | dataBySignatures => exact inside _ dataBySignatures_inside
  | dataByArguments => exact inside _ dataByArguments_inside
  | dataDeclaration => exact inside _ dataDeclaration_inside
  | clauseDeclaration => exact inside _ clauseDeclaration_inside

/-- Every rule ends on a token, in a value or in a failure. -/
theorem rule_terminates {ρ : Type} (rule : Rule)
    (inside : s.cursor ≤ inp.tokens.size) :
    (rule.parser : Parser (Value ρ)).Terminates inp (inp.tokens.size + 1) s :=
  (rule_selfAlike rule).terminates (rule_sound rule) inside

theorem application_terminates (head : Option (Term × Nat))
    (inside : s.cursor ≤ inp.tokens.size) :
    (application expr head).Terminates inp (inp.tokens.size + 1) s := by
  have sound : Sound inp (application expr head) := application_sound head
  cases head with
  | none => exact application_alike.terminates sound inside
  | some head =>
      have alike : TermAlike True expr expr true
          (application expr (some head)) (application expr (some head)) :=
        applicationGiven_alike (.refl head.1) fun _ => rfl
      exact alike.terminates sound inside

theorem moduleItems_terminates (inside : s.cursor ≤ inp.tokens.size) :
    moduleItems.Terminates inp (inp.tokens.size + 1) s :=
  moduleItems_alike.terminates moduleItems_sound inside

-- ========================================================= modules

/-- Declarations up to the end of the input, in no more than so many
rounds. That a round makes progress is not asked. -/
def programRounds : Nat → Parser (List Decl)
  | 0 => broken .nestedTooDeep
  | rounds + 1 => do
    if ← atEnd then pure []
    else
      let d ← item
      let ds ← programRounds rounds
      pure (d :: ds)

/-- A module, read in no more than so many rounds. -/
def program (rounds : Nat) : Parser (List Decl) := do
  let first ← item
  let rest ← programRounds rounds
  pure (first :: rest)

theorem programRounds_apply (rounds : Nat) (inp : Input) (s : State) :
    programRounds (rounds + 1) inp s
      = if (inp.tokenAt s.cursor).kind = .eof then .ok [] s
        else (item >>= fun d => (d :: ·) <$> programRounds rounds) inp s := by
  show (if ((inp.tokenAt s.cursor).kind == TokenKind.eof) = true
    then pure [] else item >>= fun d => (d :: ·) <$> programRounds rounds
      : Parser (List Decl)) inp s = _
  simp only [beq_iff_eq]
  split <;> rfl

/-- There are no more rounds than tokens. -/
theorem programRounds_eq_loop {rounds : Nat}
    (enough : inp.remaining s < rounds) :
    programRounds rounds inp s = loop item? inp s := by
  induction rounds generalizing s with
  | zero => exact absurd enough (Nat.not_lt_zero _)
  | succ rounds ih =>
      rw [programRounds_apply]
      split
      next ended =>
          unfold loop
          rw [loopFrom_apply, item?_apply, if_pos ended]
      next more =>
          rw [loop_item?_eq more]
          refine bind_congr_at rfl fun d t run => ?_
          have less := remaining_lt_of_item run
          exact bind_congr_at (ih (by omega)) fun _ _ _ => rfl

/-- A module is read in no more rounds than there are tokens. -/
theorem program_eq_moduleItems {rounds : Nat}
    (enough : inp.remaining s < rounds) :
    program rounds inp s = moduleItems inp s := by
  refine bind_congr_at rfl fun d t run => ?_
  have less := remaining_lt_of_item run
  exact bind_congr_at (programRounds_eq_loop (by omega)) fun _ _ _ => rfl

end Grammar

end DepLang

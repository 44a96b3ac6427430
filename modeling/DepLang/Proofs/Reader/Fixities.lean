/-
What reading takes from a fixity table: for each operator that occurs in
the text, the fixity that it counts with, and nothing else. Two
registries that know the same implicit arguments, and whose tables count
these operators alike, give the same reading, be it a term or a module
or the failure to find one, with all its spans and expectations.

The two runs go side by side with equal cursors and failures. Their
tables may have different levels, which expressions do not notice
(`FixityTable.chains_levels_eq`), and a fixity declaration that both
meet keeps the tables in step (`FixityTable.fixityOf_add_congr`).
-/
import DepLang.Proofs.Grammar.AlikeDecl
import DepLang.Proofs.Grammar.Nesting
import DepLang.Proofs.Operators.Exchange
import DepLang.Proofs.Reader.Failed

namespace DepLang

open DepLang.Parser

-- ============================================================ states

/-- States at one cursor with the same furthest failure, whose
registries read the input alike. -/
structure State.ReadsLike (inp : Input) (t s : State) : Prop where
  cursor : t.cursor = s.cursor
  furthest : t.furthest = s.furthest
  implicits : t.registry.implicitsOf? = s.registry.implicitsOf?
  sorted : t.registry.fixities.Sorted
  sorted' : s.registry.fixities.Sorted
  alike : FixityTable.CountAlike inp t.registry.fixities
    s.registry.fixities

namespace State.ReadsLike

variable {inp : Input} {t s : State}

theorem past (h : t.ReadsLike inp s) :
    (past inp t).ReadsLike inp (past inp s) := by
  unfold Parser.past
  rw [h.cursor]
  split
  · exact h
  · exact { h with cursor := rfl }

theorem addFixities (h : t.ReadsLike inp s) (entries : List FixityEntry) :
    (declareFixities entries inp t).state.ReadsLike inp
      (declareFixities entries inp s).state where
  cursor := h.cursor
  furthest := h.furthest
  implicits := h.implicits
  sorted := FixityTable.sorted_add entries _
  sorted' := FixityTable.sorted_add entries _
  alike := fun i op token =>
    FixityTable.fixityOf_add_congr (h.alike i op token) entries

theorem define (h : t.ReadsLike inp s) (name : Name) (names : List Name) :
    (define name names inp t).state.ReadsLike inp
      (Parser.define name names inp s).state where
  cursor := h.cursor
  furthest := h.furthest
  implicits := by
    funext x
    show (t.registry.define name names).implicitsOf? x
      = (s.registry.define name names).implicitsOf? x
    rw [Registry.implicitsOf?_define, Registry.implicitsOf?_define,
      h.implicits]
  sorted := h.sorted
  sorted' := h.sorted'
  alike := h.alike

/-- Going back to states that read alike, with the failures met since. -/
theorem rewind {t' s' : State} (h : t.ReadsLike inp s)
    (h' : t'.ReadsLike inp s') (later : t'.Follows t)
    (later' : s'.Follows s) :
    (rewind t t').ReadsLike inp (Parser.rewind s s') where
  cursor := h.cursor
  furthest := h'.furthest
  implicits := by
    rw [registry_rewind later, registry_rewind later', h.implicits]
  sorted := by
    rw [registry_rewind later]
    exact h.sorted
  sorted' := by
    rw [registry_rewind later']
    exact h.sorted'
  alike := by
    rw [registry_rewind later, registry_rewind later']
    exact h.alike

end State.ReadsLike

/-- Nothing else of the registries makes a difference. -/
def Parser.Simulation.byFixities (inp : Input) :
    Simulation True inp inp :=
  Congruence.simulation {
    rel := State.ReadsLike inp
    cursor := fun h => h.cursor
    implicits := fun h => h.implicits
    past := fun h => h.past
    record := fun h e =>
      { h with
        furthest := congrArg (fun best => some (Failure.further best e))
          h.furthest }
    declareFixities := fun h => h.addFixities
    define := fun h => h.define
    rewind := fun h h' later later' => h.rewind h' later later' }

-- ========================================================== readings

namespace Input

variable {inp : Input}

/-- An operator of the input is one of the tokens that it was made
of. -/
theorem mem_of_operator {tokens : List Token} {origin : Origin}
    {lang : Language} (h : ofTokens? tokens origin lang = some inp)
    {i : Nat} {op : String}
    (token : (inp.tokenAt i).lexeme = .operator op) :
    inp.tokenAt i ∈ tokens := by
  unfold ofTokens? at h
  split at h
  · cases h
    unfold tokenAt at token ⊢
    simp only [List.getElem?_toArray] at token ⊢
    cases found : tokens.dropLast[i]? with
    | none =>
        rw [found] at token
        cases token
    | some t =>
        exact List.dropLast_subset tokens (List.mem_of_getElem? found)
  · cases h

end Input

namespace Grammar

variable {inp : Input}

/-- Expressions run alike from states that read alike. -/
theorem expr_simulates_byFixities (n : Nat) :
    (Simulation.byFixities inp).Simulates n true (Term.likeness True)
      expr expr := by
  refine expr_simulates_of_levels (fun {s s'} looks t => ?_) n
  have looks : s.ReadsLike inp s' := looks
  exact FixityTable.chains_levels_eq (chains_steady expr_steady)
    looks.sorted looks.sorted' looks.alike t

theorem wholeExpr_alike {exact : Prop} :
    TermAlike exact expr expr true wholeExpr wholeExpr :=
  .bind .nested fun _ _ t => .bind .eof fun _ _ _ => .pure t

end Grammar

namespace Reading

variable {α : Type} {R : Likeness α} {inp : Input} {p : Parser α}

/-- Outcomes that match are the same reading, if like values are the
same. -/
theorem outcome_eq_of_matches (equal : ∀ a a', R a a' → a = a')
    {run run' : Outcome α}
    (h : (Simulation.byFixities inp).Matches R run run') :
    (ofOutcome run).outcome = (ofOutcome run').outcome := by
  cases h with
  | ok value state => exact congrArg Except.ok (equal _ _ value)
  | @error e e' s s' failure state =>
      have same : e = e' := failure
      have looks : s.ReadsLike inp s' := state
      show Except.error (Stop.failure (s.report e))
        = .error (.failure (s'.report e'))
      rw [State.report, looks.furthest, same]
      rfl
  | defect d state => rfl

/-- Readings of one text from registries whose tables count the
operators of the text alike. -/
theorem outcome_ofText_eq (equal : ∀ a a', R a a' → a = a')
    (alike : Alike True Grammar.expr Grammar.expr true true R p p)
    {lang : Language} {filename text : String} {r r' : Registry}
    (implicits : r.implicitsOf? = r'.implicitsOf?)
    (sorted : r.fixities.Sorted) (sorted' : r'.fixities.Sorted)
    (count : ∀ tokens, Lexer.tokenize lang text filename = .ok tokens →
      ∀ t ∈ tokens, ∀ op, t.lexeme = .operator op →
        r.fixities.fixityOf op = r'.fixities.fixityOf op) :
    (ofText p lang filename text r).outcome
      = (ofText p lang filename text r').outcome := by
  unfold ofText
  cases scans : Lexer.tokenize lang text filename with
  | error e => rfl
  | ok tokens =>
      simp only
      cases made : Input.ofTokens? tokens ⟨filename, some text⟩ lang with
      | none => rfl
      | some inp =>
          have start : State.ReadsLike inp { registry := r }
              { registry := r' } :=
            { cursor := rfl
              furthest := rfl
              implicits
              sorted
              sorted'
              alike := fun i op token =>
                count tokens scans _ (Input.mem_of_operator made token)
                  op token }
          refine outcome_eq_of_matches equal (alike.simulates
            Grammar.expr_steady Grammar.expr_steady
            (Grammar.expr_simulates_byFixities (inp.tokens.size + 1))
            _ _ start ?_)
          exact ⟨Nat.le_succ _, fun _ => Nat.lt_succ_self _⟩

end Reading

/-- Reading depends on the fixities that the operators of the text count
with, and on nothing else in the tables: the term found, or the failure
reported, is the same, and so are the declarations of a module. -/
theorem readings_eq_of_fixityOf (lang : Language)
    (filename text : String) (r r' : Registry)
    (batches batches' : List (List FixityEntry))
    (declared : r.fixities = FixityTable.declared batches)
    (declared' : r'.fixities = FixityTable.declared batches')
    (implicits : ∀ x, r.implicitsOf? x = r'.implicitsOf? x)
    (count : ∀ tokens, Lexer.tokenize lang text filename = .ok tokens →
      ∀ t ∈ tokens, ∀ op, t.lexeme = .operator op →
        r.fixities.fixityOf op = r'.fixities.fixityOf op) :
    (readTerm lang filename text r).outcome
        = (readTerm lang filename text r').outcome
      ∧ (readModule lang filename text r).outcome
        = (readModule lang filename text r').outcome := by
  have implicits := funext implicits
  have sorted : r.fixities.Sorted :=
    declared ▸ FixityTable.sorted_declared batches
  have sorted' : r'.fixities.Sorted :=
    declared' ▸ FixityTable.sorted_declared batches'
  constructor
  · exact Reading.outcome_ofText_eq (R := Term.likeness True)
      (fun _ _ agree => agree.eq) Grammar.wholeExpr_alike implicits
      sorted sorted' count
  · have items : Alike True Grammar.expr Grammar.expr true true
        (.list (.upTo True Decl.erase)) (attempt Grammar.moduleItems)
        (attempt Grammar.moduleItems) := .attempt Grammar.moduleItems_alike
    have equal : ∀ ds ds' : List Decl,
        Likeness.list (.upTo True Decl.erase) ds ds' → ds = ds' := by
      intro ds ds' agree
      have agree : List.Forall₂ (Agree True Decl.erase) ds ds' := agree
      exact Likeness.eq_of_same (agree.imp fun _ _ same => same.eq)
    unfold readModule
    rw [Reading.outcome_grouped, Reading.outcome_grouped,
      Reading.outcome_ofText_eq equal items implicits sorted sorted' count]

/-- A table with an operator that does not occur and a second, looser
entry for one that does, and a table without them; the implicit
arguments are listed in another order. -/
theorem readings_eq_of_fixityOf_levels :
    let batches : List (List FixityEntry) :=
      [[⟨⟨.left, 6⟩, "+"⟩, ⟨⟨.neither, 3⟩, "+"⟩], [⟨⟨.right, 9⟩, "#"⟩]]
    let r : Registry :=
      { fixities := .declared batches
        implicits := [(.ofText "f", [.ofText "a"]), (.ofText "g", [])] }
    let r' : Registry :=
      { fixities := .declared [[⟨⟨.left, 6⟩, "+"⟩]]
        implicits := [(.ofText "g", []), (.ofText "f", [.ofText "a"])] }
    let text := "infix 5 *; x = f y + g z; x = y + z * y + z;"
    r.fixities.levels.length = 5 ∧ r'.fixities.levels.length = 3
      ∧ (readTerm .standard "m" text r).outcome
        = (readTerm .standard "m" text r').outcome
      ∧ (readModule .standard "m" text r).outcome
        = (readModule .standard "m" text r').outcome
      ∧ ¬(readModule .standard "m" text r').Fails := by
  intro batches r r' text
  have implicits : ∀ x, r.implicitsOf? x = r'.implicitsOf? x := by
    intro x
    show List.lookup x [(Name.ofText "f", [Name.ofText "a"]),
        (Name.ofText "g", [])]
      = List.lookup x [(Name.ofText "g", []),
        (Name.ofText "f", [Name.ofText "a"])]
    by_cases f : x = Name.ofText "f"
    · subst f
      rfl
    · simp [List.lookup_cons, beq_false_of_ne f]
  have count : ∀ tokens,
      Lexer.tokenize .standard text "m" = .ok tokens →
      ∀ t ∈ tokens, ∀ op, t.lexeme = .operator op →
        r.fixities.fixityOf op = r'.fixities.fixityOf op := by
    have checked : ∀ t ∈ (Lexer.tokenize .standard text "m").toOption.getD [],
        t.kind = .operator →
          r.fixities.fixityOf t.text = r'.fixities.fixityOf t.text := by
      decide +kernel
    intro tokens scans t ht op token
    rw [scans] at checked
    have alike := checked t ht (by rw [Token.kind, token]; rfl)
    rwa [Token.text, token] at alike
  refine ⟨by decide +kernel, by decide +kernel, ?_⟩
  obtain ⟨terms, modules⟩ := readings_eq_of_fixityOf .standard "m" text r r'
    batches _ rfl rfl implicits count
  refine ⟨terms, modules, ?_⟩
  decide +kernel

end DepLang

/-
Layout never changes meaning. Two texts with the same lexemes in the
same order, whatever blanks, comments and line breaks stand between
them, are read alike, from one registry: to the same term or module up
to spans, or with a failure at the same token, with the same complaint
and the same expectations. Either way they leave the same registry
(`Reading.Relaid`).

The readings go side by side, token by token. Spans are looked at in two
places: where terms are given theirs, which does not count, and where
failures are merged, which does. There it only matters which of two
tokens starts first, and that is told by their order in the text, since
tokens start one behind the other.
-/
import DepLang.Proofs.Decl.Groups
import DepLang.Proofs.Reader.Fixities
import DepLang.Proofs.Reader.Whole

namespace DepLang

open DepLang.Parser

-- ========================================================= failures

/-- Failures at the same token of two texts, which say the same. -/
structure Failure.Relaid (tokens tokens' : List Token)
    (e e' : Failure) : Prop where
  token : ∃ i : Nat, (tokens[i]?).map Token.span = some e.span
    ∧ (tokens'[i]?).map Token.span = some e'.span
  complaint : e.complaint = e'.complaint
  expected : e.expected = e'.expected

theorem Failure.Relaid.merge {tokens tokens' : List Token}
    (ordered : tokens.Pairwise (·.span.start < ·.span.start))
    (ordered' : tokens'.Pairwise (·.span.start < ·.span.start))
    {e e' f f' : Failure} (he : e.Relaid tokens tokens' e')
    (hf : f.Relaid tokens tokens' f') :
    (e.merge f).Relaid tokens tokens' (e'.merge f') := by
  obtain ⟨i, here, here'⟩ := he.token
  obtain ⟨j, there, there'⟩ := hf.token
  rcases Nat.lt_trichotomy i j with lt | rfl | gt
  · rw [merge_of_lt ((Lexer.start_lt_iff ordered here there).2 lt),
      merge_of_lt ((Lexer.start_lt_iff ordered' here' there').2 lt)]
    exact hf
  · have same : e.span = f.span := Option.some.inj (here.symm.trans there)
    have same' : e'.span = f'.span :=
      Option.some.inj (here'.symm.trans there')
    rw [merge_of_eq (by rw [same]), merge_of_eq (by rw [same'])]
    refine ⟨⟨i, here, here'⟩, he.complaint, ?_⟩
    simp only [he.expected, hf.expected]
  · rw [merge_of_gt ((Lexer.start_lt_iff ordered there here).2 gt),
      merge_of_gt ((Lexer.start_lt_iff ordered' there' here').2 gt)]
    exact he

-- =========================================================== inputs

/-- Inputs with the same lexemes, each a text's tokens in its own
layout. -/
structure Input.Relaid (inp inp' : Input)
    (tokens tokens' : List Token) : Prop where
  language : inp.language = inp'.language
  size : inp.tokens.size = inp'.tokens.size
  lexeme : ∀ i, (inp.tokenAt i).lexeme = (inp'.tokenAt i).lexeme
  place : ∀ i, ∃ j : Nat, tokens[j]? = some (inp.tokenAt i)
    ∧ tokens'[j]? = some (inp'.tokenAt i)
  ordered : tokens.Pairwise (·.span.start < ·.span.start)
  ordered' : tokens'.Pairwise (·.span.start < ·.span.start)

/-- States at one token, with one registry, and with furthest failures
that were met at the same token. -/
structure State.Relaid (tokens tokens' : List Token) (s s' : State) :
    Prop where
  cursor : s.cursor = s'.cursor
  registry : s.registry = s'.registry
  furthest : Option.Rel (Failure.Relaid tokens tokens') s.furthest
    s'.furthest

/-- Runs over two layouts of the same lexemes. -/
def Parser.Simulation.layout {inp inp' : Input}
    {tokens tokens' : List Token}
    (relaid : inp.Relaid inp' tokens tokens') :
    Simulation False inp inp' where
  rel := State.Relaid tokens tokens'
  blame := Failure.Relaid tokens tokens'
  language := relaid.language
  token := by
    intro s s' h k
    refine ⟨?_, False.elim⟩
    rw [h.cursor, relaid.lexeme]
  lastStop := fun _ => False.elim
  implicits := fun h => by rw [h.registry]
  past := by
    intro s s' h
    have kind : (inp.tokenAt s.cursor).kind
        = (inp'.tokenAt s'.cursor).kind := by
      rw [Token.kind, Token.kind, h.cursor, relaid.lexeme]
    unfold Parser.past
    rw [kind]
    split
    · exact h
    · exact ⟨congrArg (· + 1) h.cursor, h.registry, h.furthest⟩
  failure := by
    intro s s' h complaint expected
    obtain ⟨j, here, here'⟩ := relaid.place s.cursor
    refine ⟨⟨j, ?_, ?_⟩, ?_, rfl⟩
    · rw [here]
      rfl
    · rw [here', h.cursor]
      rfl
    · simp only [failureAt, h.cursor, relaid.lexeme]
  record := fun h same =>
    ⟨h.cursor, h.registry, State.record_rel
      (fun he hf => he.merge relaid.ordered relaid.ordered' hf) h.furthest
      same⟩
  merge := fun he hf => he.merge relaid.ordered relaid.ordered' hf
  declareFixities := fun h entries =>
    ⟨h.cursor, congrArg (·.addFixities entries) h.registry, h.furthest⟩
  define := fun h name names =>
    ⟨h.cursor, congrArg (·.define name names) h.registry, h.furthest⟩
  rewind := by
    intro s s' t t' h h' _ _
    refine ⟨h.cursor, ?_, h'.furthest⟩
    show t.registry.restore s.registry.snapshot
      = t'.registry.restore s'.registry.snapshot
    rw [h.registry, h'.registry]
  progress := by
    intro s s' t t' h h' _ _
    unfold Input.remaining
    rw [h.cursor, h'.cursor, relaid.size]

-- ======================================================== readings

namespace Reading

variable {α β : Type} {lang : Language} {filename filename' : String}
  {text text' : String} {r : Registry}

/-- Readings of two layouts that come to the same: they find the same,
up to what `forget` drops, or report the same at the same token, and
they leave the same registry. -/
structure Relaid (forget : α → β) (tokens tokens' : List Token)
    (reading reading' : Reading α) : Prop where
  registry : reading.registry = reading'.registry
  outcome :
    (∃ a a', reading.outcome = .ok a ∧ reading'.outcome = .ok a'
      ∧ forget a = forget a')
    ∨ ∃ e e', reading.report? = some e ∧ reading'.report? = some e'
      ∧ e.Relaid tokens tokens' e'

/-- Texts with the same lexemes are inputs with the same lexemes. -/
theorem relaid_inputOf {items items' : List Token} {span span' : Span}
    (scans : Lexer.tokenize lang text filename
      = .ok (items ++ [⟨.eof "", span⟩]))
    (scans' : Lexer.tokenize lang text' filename'
      = .ok (items' ++ [⟨.eof "", span'⟩]))
    (lexemes : items.map Token.lexeme = items'.map Token.lexeme) :
    (inputOf items ⟨.eof "", span⟩ lang filename text).Relaid
      (inputOf items' ⟨.eof "", span'⟩ lang filename' text')
      (items ++ [⟨.eof "", span⟩]) (items' ++ [⟨.eof "", span'⟩]) := by
  have length : items.length = items'.length := by
    simpa using congrArg List.length lexemes
  refine ⟨rfl, ?_, fun i => ?_, fun i => ?_,
    Lexer.pairwise_tokenize scans, Lexer.pairwise_tokenize scans'⟩
  · show items.toArray.size = items'.toArray.size
    rw [List.size_toArray, List.size_toArray, length]
  · rw [Input.tokenAt_ofItems, Input.tokenAt_ofItems]
    have same := congrArg (·[i]?) lexemes
    simp only [List.getElem?_map] at same
    cases here : items[i]? with
    | none =>
        rw [here] at same
        rw [Option.map_eq_none_iff.1 same.symm]
        rfl
    | some t =>
        rw [here] at same
        obtain ⟨t', there, equal⟩ := Option.map_eq_some_iff.1 same.symm
        rw [there]
        exact equal.symm
  · refine ⟨min i items.length, Input.getElem?_tokens rfl i, ?_⟩
    rw [length]
    exact Input.getElem?_tokens rfl i

/-- What a rule built alike with itself reads off two layouts comes to
the same. -/
theorem relaid_ofText {q : Parser α} {R : Likeness α} {forget : α → β}
    (equal : ∀ a a', R a a' → forget a = forget a')
    (alike : Alike False Grammar.expr Grammar.expr true true R q q)
    (sound : ∀ inp, Sound inp q) {tokens tokens' : List Token}
    (scans : Lexer.tokenize lang text filename = .ok tokens)
    (scans' : Lexer.tokenize lang text' filename' = .ok tokens')
    (lexemes : tokens.map Token.lexeme = tokens'.map Token.lexeme) :
    (ofText q lang filename text r).Relaid forget tokens tokens'
      (ofText q lang filename' text' r) := by
  obtain ⟨items, span, rfl⟩ := Lexer.tokenize_ends scans
  obtain ⟨items', span', rfl⟩ := Lexer.tokenize_ends scans'
  have relaid := relaid_inputOf scans scans' <| by
    simpa [List.map_append] using lexemes
  rw [ofText_eq scans rfl, ofText_eq scans' rfl]
  have start : State.Relaid (items ++ [⟨.eof "", span⟩])
      (items' ++ [⟨.eof "", span'⟩]) { registry := r } { registry := r } :=
    ⟨rfl, rfl, .none⟩
  have fixities : ∀ {s s' : State},
      (Simulation.layout relaid).rel s s' →
      s.registry.fixities = s'.registry.fixities := fun h => by
    rw [State.Relaid.registry h]
  have both := alike.simulates Grammar.expr_steady Grammar.expr_steady
    (Grammar.expr_simulates fixities (items.length + 1)) _ _ start
    ⟨Nat.le_succ _, fun _ => Nat.lt_succ_self _⟩
  have whole := sound (inputOf items ⟨.eof "", span⟩ lang filename text)
    { registry := r }
  generalize q (inputOf items ⟨.eof "", span⟩ lang filename text)
    { registry := r } = run at both whole
  generalize q (inputOf items' ⟨.eof "", span'⟩ lang filename' text')
    { registry := r } = run' at both
  cases both with
  | ok value state =>
      exact ⟨state.registry, .inl ⟨_, _, rfl, rfl, equal _ _ value⟩⟩
  | error failure state =>
      refine ⟨state.registry, .inr ⟨_, _, rfl, rfl, ?_⟩⟩
      exact State.report_rel
        (fun he hf => he.merge relaid.ordered relaid.ordered' hf)
        state.furthest failure
  | @defect s s' d state => exact absurd rfl (whole d s)

/-- Clauses are grouped by names, which are no matter of layout. -/
theorem relaid_grouped {tokens tokens' : List Token}
    {reading reading' : Reading (List Decl)}
    (h : reading.Relaid (List.map Decl.erase) tokens tokens' reading') :
    (reading.grouped filename).Relaid (List.map Decl.erase) tokens tokens'
      (reading'.grouped filename') := by
  refine ⟨h.registry, h.outcome.imp ?_ ?_⟩
  · rintro ⟨ds, ds', found, found', same⟩
    refine ⟨Decl.group ds, Decl.group ds', ?_, ?_, ?_⟩
    · rw [outcome_grouped, found]
      rfl
    · rw [outcome_grouped, found']
      rfl
    · have commutes : ∀ ds : List Decl,
          (Decl.group ds).map Decl.erase = Decl.group (ds.map Decl.erase) :=
        fun ds => (Decl.group_mapTerms Term.erase ds).symm
      rw [commutes, commutes, same]
  · rintro ⟨e, e', failed, failed', same⟩
    exact ⟨e, e', report?_grouped.trans failed,
      report?_grouped.trans failed', same⟩

end Reading

/-- Layout never changes meaning. Texts with the same lexemes in the
same order are read alike, as terms and as modules, whatever their
tokens' spans: both are read, to the same up to spans, or both fail, at
the same token and with the same complaint and expectations; and they
leave the same registry. -/
theorem readings_relaid (lang : Language)
    (filename filename' text text' : String) (r : Registry)
    (tokens tokens' : List Token)
    (scans : Lexer.tokenize lang text filename = .ok tokens)
    (scans' : Lexer.tokenize lang text' filename' = .ok tokens')
    (lexemes : tokens.map Token.lexeme = tokens'.map Token.lexeme) :
    (readTerm lang filename text r).Relaid Term.erase tokens tokens'
        (readTerm lang filename' text' r)
      ∧ (readModule lang filename text r).Relaid (List.map Decl.erase)
        tokens tokens' (readModule lang filename' text' r) := by
  constructor
  · exact Reading.relaid_ofText (R := Term.likeness False)
      (fun _ _ agree => agree.1) Grammar.wholeExpr_alike
      (fun _ => Grammar.wholeExpr_sound) scans scans' lexemes
  · have items : Alike False Grammar.expr Grammar.expr true true
        (.list (.upTo False Decl.erase)) (attempt Grammar.moduleItems)
        (attempt Grammar.moduleItems) := .attempt Grammar.moduleItems_alike
    have equal : ∀ ds ds' : List Decl,
        Likeness.list (.upTo False Decl.erase) ds ds' →
        ds.map Decl.erase = ds'.map Decl.erase := by
      intro ds ds' agree
      have agree : List.Forall₂ (Agree False Decl.erase) ds ds' := agree
      rw [← List.forall₂_eq_eq_eq, List.forall₂_map_left_iff,
        List.forall₂_map_right_iff]
      exact agree.imp fun _ _ same => same.1
    exact Reading.relaid_grouped <| Reading.relaid_ofText equal items
      (fun _ => Grammar.moduleItems_sound.attempt) scans scans' lexemes

/-- A module with a comment and line breaks of its own. -/
theorem readings_relaid_comment :
    let text := "infixl 6 +; f x = x + x;"
    let text' := "infixl 6 + ; -- sums\nf x\n  = x+x;"
    ∃ tokens tokens', Lexer.tokenize .standard text "m" = .ok tokens
      ∧ Lexer.tokenize .standard text' "n" = .ok tokens'
      ∧ tokens ≠ tokens'
      ∧ (readModule .standard "m" text {}).Relaid (List.map Decl.erase)
        tokens tokens' (readModule .standard "n" text' {})
      ∧ ¬(readModule .standard "m" text {}).Fails := by
  intro text text'
  obtain ⟨lexemes, spans, accepted⟩ :
      (Lexer.tokenize .standard text "m").toOption.map
          (List.map Token.lexeme)
        = (Lexer.tokenize .standard text' "n").toOption.map
          (List.map Token.lexeme)
      ∧ (Lexer.tokenize .standard text "m").toOption
        ≠ (Lexer.tokenize .standard text' "n").toOption
      ∧ ¬(readModule .standard "m" text {}).Fails := by
    decide +kernel
  cases scans : Lexer.tokenize .standard text "m" with
  | error e =>
      cases scans' : Lexer.tokenize .standard text' "n" with
      | error e' =>
          rw [scans, scans'] at spans
          exact absurd rfl spans
      | ok tokens' =>
          rw [scans, scans'] at lexemes
          cases lexemes
  | ok tokens =>
      cases scans' : Lexer.tokenize .standard text' "n" with
      | error e' =>
          rw [scans, scans'] at lexemes
          cases lexemes
      | ok tokens' =>
          rw [scans, scans'] at lexemes spans
          refine ⟨tokens, tokens', rfl, rfl, fun same => spans ?_, ?_, ?_⟩
          · rw [same]
          · exact (readings_relaid .standard "m" "n" text text' {} tokens
              tokens' scans scans' (Option.some.inj lexemes)).2
          · exact accepted

end DepLang

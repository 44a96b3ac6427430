/-
The two ways to write a data type agree. A text that gives a data type
by its parameters and its constructors' arguments is a module exactly if
the text that gives it by its kind and its constructors' types is; then
both are one data type, the same up to spans and the machine's names,
and leave the same registry (`readModule_dataForms`).

What the lexemes of both write is one declaration, under one condition
(`Grammar.Writes`), and declarations of one outline do the same, so the
order in which names are closed and recorded, and which of them clash,
needs no word here: it is the order of the declaration itself.
-/
import DepLang.Proofs.Grammar.DataForms
import DepLang.Proofs.Grammar.Outlined
import DepLang.Proofs.Reader.Context
import DepLang.Proofs.Reader.Reprint

namespace DepLang

open DepLang.Grammar DepLang.Lexer DepLang.Parser DepLang.Reading

/-- The text has the lexemes, and then it ends. -/
def HasLexemes (filename text : String) (ls : List Lexeme) : Prop :=
  (tokenize .standard text filename).map (·.map Token.lexeme)
    = .ok (ls ++ [.eof ""])

instance (filename text : String) (ls : List Lexeme) :
    Decidable (HasLexemes filename text ls) :=
  inferInstanceAs (Decidable (_ = _))

/-- Some text with the lexemes is an atom, all of it. -/
def IsAtom (r : Registry) (ls : List Lexeme) : Prop :=
  ∃ filename text, HasLexemes filename text ls
    ∧ ∃ t, (ofText (alone (atom expr)) .standard filename text r).outcome
      = .ok t

variable {filename text : String} {r : Registry} {ls : List Lexeme}

/-- They stand in the text's input, from its start to its end. -/
theorem HasLexemes.stands (h : HasLexemes filename text ls) :
    ∃ items span,
      tokenize .standard text filename = .ok (items ++ [⟨.eof "", span⟩])
      ∧ Stands (inputOf items ⟨.eof "", span⟩ .standard filename text) 0 ls
        items.length
      ∧ ((inputOf items ⟨.eof "", span⟩ .standard filename text).tokenAt
        items.length).kind = .eof := by
  unfold HasLexemes at h
  cases scans : tokenize .standard text filename with
  | error e =>
      rw [scans] at h
      cases h
  | ok tokens =>
      obtain ⟨items, span, rfl⟩ := tokenize_ends scans
      rw [scans] at h
      have same := Except.ok.inj h
      dsimp only at same
      rw [List.map_append] at same
      obtain ⟨same, -⟩ := List.append_inj' same rfl
      obtain ⟨stands, last⟩ := stands_inputOf items span filename text
      rw [same] at stands
      refine ⟨items, span, rfl, stands, ?_⟩
      rw [Token.kind, last]
      rfl

/-- What is read as a module are declarations of an input where the
lexemes stand. -/
theorem itemsForm_of_hasLexemes (has : HasLexemes filename text ls)
    {decls : List Decl}
    (read : (readModule .standard filename text r).outcome = .ok decls) :
    ∃ (inp : Input) (ds : List Decl) (last : Registry) (m j : Nat),
      inp.language = .standard ∧ Stands inp 0 ls m ∧ m ≤ j
      ∧ ItemsForm inp r 0 j ds last ∧ ds ≠ [] ∧ decls = Decl.group ds := by
  obtain ⟨items, span, scans, stands, -⟩ := has.stands
  obtain ⟨items', span', ds, t, scans', run, grouped, -⟩ :=
    items_of_readModule read
  obtain ⟨rfl, same⟩ := List.append_inj'
    (Except.ok.inj (scans.symm.trans scans')) rfl
  cases same
  obtain ⟨form, some_decl⟩ := itemsForm_of_moduleItems ⟨rfl, rfl⟩ run
  have le := Input.length_le_of_eof (Lexer.kind_of_mem_tokenize scans)
    form.ended
  exact ⟨_, ds, _, _, t.cursor, rfl, stands, le, form, some_decl, grouped⟩

theorem IsAtom.atomOf (free : ∀ e ∈ r.fixities,
      Language.standard.isReservedOperator e.symbol = false)
    (h : IsAtom r ls) : ∃ t, AtomOf r.fixities ls t := by
  obtain ⟨filename, text, has, t, read⟩ := h
  obtain ⟨items, span, scans, stands, -⟩ := has.stands
  have atom := reads_of_alone scans atom_runsAlike plain_atom read
  have size : (inputOf items ⟨.eof "", span⟩ .standard filename
      text).tokens.size = items.length := by
    simp [Input.ofItems]
  rw [size] at atom
  exact ⟨t, atomOf_of_reads rfl free stands atom⟩

section
variable {condition : Prop} {type : DataType}
  (h : Writes r.fixities ls condition type)
  (has : HasLexemes filename text ls)
include h has

/-- What is written is read, enacted and completed. -/
theorem Grammar.Writes.readModule_of (met : condition) :
    ∃ raw : DataType, (Decl.data raw).Proper
      ∧ (Decl.data raw).outline = (Decl.data type).outline
      ∧ (readModule .standard filename text r).outcome
        = .ok [(r.enact (.data raw)).1.mapTerms
          (r.enact (.data raw)).2.supply]
      ∧ (readModule .standard filename text r).registry
        = (r.enact (.data raw)).2 := by
  obtain ⟨items, span, scans, stands, behind⟩ := has.stands
  obtain ⟨raw, k, same, semicolon, proper, outline, form⟩ :=
    h.reads rfl rfl stands met
  rw [same] at behind
  have one : ItemsForm _ r 0 _ _ _ := .cons form semicolon (.nil behind)
  obtain ⟨u, ⟨-, registry⟩, run⟩ :=
    one.leads rfl (List.cons_ne_nil _ _) { registry := r } ⟨rfl, rfl⟩
  obtain ⟨found, left⟩ := readModule_of_ok scans rfl run
  exact ⟨raw, proper, outline, found, left.trans registry⟩

/-- A module is read only if the condition holds. -/
theorem Grammar.Writes.of_readModule {decls : List Decl}
    (read : (readModule .standard filename text r).outcome = .ok decls) :
    condition := by
  obtain ⟨inp, ds, last, m, j, standard, stands, -, form, some_decl, -⟩ :=
    itemsForm_of_hasLexemes has read
  cases form with
  | nil => exact absurd rfl some_decl
  | cons first semicolon => exact h.only standard rfl stands first semicolon

end

/-- The two ways to write a data type agree, under operators none of
which is reserved. The text that gives it by its arguments is accepted
exactly if the text that gives it by signatures is, and both are unless
an operator of the language's own is declared. Both give one data type,
the same up to spans and the names that the machine gives to binders,
and leave the same registry. -/
theorem readModule_dataForms (filename filename' text text' : String)
    (r : Registry) (free : ∀ e ∈ r.fixities,
      Language.standard.isReservedOperator e.symbol = false)
    (d : DataText) (atoms : ∀ c ∈ d.constructors, ∀ a ∈ c.2, IsAtom r a)
    (plain : HasLexemes filename text d.byArguments)
    (indexed : HasLexemes filename' text' d.bySignatures) :
    let byArguments := readModule .standard filename text r
    let bySignatures := readModule .standard filename' text' r
    ((∃ ds, byArguments.outcome = .ok ds)
        ↔ ∃ ds, bySignatures.outcome = .ok ds)
    ∧ (d.Declarable → ∃ ds, byArguments.outcome = .ok ds)
    ∧ ∀ ds, byArguments.outcome = .ok ds →
      ∃ x y : DataType, ds = [.data x]
        ∧ bySignatures.outcome = .ok [.data y]
        ∧ (Decl.data y).outline = (Decl.data x).outline
        ∧ bySignatures.registry = byArguments.registry := by
  intro byArguments bySignatures
  have found : ∀ a, ∃ t, (∃ c ∈ d.constructors, a ∈ c.2) →
      AtomOf r.fixities a t := by
    intro a
    by_cases there : ∃ c ∈ d.constructors, a ∈ c.2
    · obtain ⟨c, hc, ha⟩ := there
      obtain ⟨t, atom⟩ := (atoms c hc a ha).atomOf free
      exact ⟨t, fun _ => atom⟩
    · exact ⟨.hole none, fun h => absurd h there⟩
  obtain ⟨term, found⟩ := Classical.skolem.1 found
  have each : ∀ c ∈ d.constructors, ∀ a ∈ c.2,
      AtomOf r.fixities a (term a) :=
    fun c hc a ha => found a ⟨c, hc, ha⟩
  have first := writes_byArguments each
  have second := writes_bySignatures free each
  refine ⟨⟨fun ⟨ds, read⟩ => ?_, fun ⟨ds, read⟩ => ?_⟩,
    fun declarable => ?_, fun ds read => ?_⟩
  · obtain ⟨_, -, -, read', -⟩ :=
      second.readModule_of indexed (first.of_readModule plain read)
    exact ⟨_, read'⟩
  · obtain ⟨_, -, -, read', -⟩ :=
      first.readModule_of plain (second.of_readModule indexed read)
    exact ⟨_, read'⟩
  · obtain ⟨_, -, -, read, -⟩ := first.readModule_of plain declarable
    exact ⟨_, read⟩
  · have declarable := first.of_readModule plain read
    obtain ⟨raw, proper, outline, found, left⟩ :=
      first.readModule_of plain declarable
    obtain ⟨raw', proper', outline', found', left'⟩ :=
      second.readModule_of indexed declarable
    obtain ⟨registries, outlines⟩ := r.enact_of_outline proper' proper
      (outline'.trans outline.symm)
    rw [registries] at found' left'
    cases read.symm.trans found
    exact ⟨_, _, rfl, found', outlines _, left'.trans left.symm⟩

/-- A type of pairs with a constructor that is an operator, where a name
is recorded as defined already. -/
theorem readModule_dataForms_pair :
    let r : Registry :=
      { fixities := [⟨⟨.right, 5⟩, "&"⟩]
        implicits := [(.ofText "x", [.ofText "n"])] }
    let text := "data Pair a b = pair a (b -> a) | (&) c x;"
    let text' := "data Pair : Set -> Set -> Set where "
      ++ "pair : a -> (b -> a) -> Pair a b | (&) : c -> x -> Pair a b;"
    ∃ x y : DataType,
      (readModule .standard "m" text r).outcome = .ok [.data x]
      ∧ (readModule .standard "m" text' r).outcome = .ok [.data y]
      ∧ (Decl.data y).outline = (Decl.data x).outline
      ∧ (readModule .standard "m" text' r).registry
        = (readModule .standard "m" text r).registry := by
  intro r text text'
  let d : DataText :=
    { target := .word "Pair"
      params := ["a", "b"]
      first := (.word "pair", [[.ident "a"], [.ofMark .lparen, .ident "b",
        .operator "->", .ident "a", .ofMark .rparen]])
      others := [(.operator "&", [[.ident "c"], [.ident "x"]])] }
  have atom (text : String) (ls : List Lexeme)
      (has : HasLexemes "m" text ls)
      (read : ((ofText (alone (atom expr)) .standard "m" text
        r).outcome.toOption.any fun _ => true) = true) : IsAtom r ls := by
    obtain ⟨t, found, -⟩ := found_of_checked _ (fun _ => True) read
    exact ⟨"m", text, has, t, found⟩
  have atoms : ∀ c ∈ d.constructors, ∀ a ∈ c.2, IsAtom r a := by
    simp only [d, DataText.constructors, List.forall_mem_cons,
      List.not_mem_nil, false_implies, implies_true, and_true]
    exact ⟨⟨atom "a" _ (by decide +kernel) (by decide +kernel),
      atom "(b -> a)" _ (by decide +kernel) (by decide +kernel)⟩,
      atom "c" _ (by decide +kernel) (by decide +kernel),
      atom "x" _ (by decide +kernel) (by decide +kernel)⟩
  obtain ⟨-, accepted, agree⟩ := readModule_dataForms "m" "m" text text' r
    (by decide +kernel) d atoms (by decide +kernel) (by decide +kernel)
  obtain ⟨ds, read⟩ := accepted (by decide +kernel)
  obtain ⟨x, y, rfl, read', outlines, registries⟩ := agree ds read
  exact ⟨x, y, read, read', outlines, registries⟩

end DepLang

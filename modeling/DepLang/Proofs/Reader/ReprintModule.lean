/-
Printed modules read back. What is printed of the declarations of a
module, each with its semicolon, is read to declarations of the same
outlines, from the same registry and to the same registry, as long as
the declarations are settled (`readModule_print`).

A declaration that is read is a written one enacted; completed and up to
its outline it is canonical, and where its lexemes stand a declaration
is read that is written so; and what was enacted and completed is enacted
to the same again. That is one step (`DeclForm.reprints`). The step keeps
what it needs of the registry, that its operators are free, so it can be
taken for one declaration after another.

That declarations must be settled is the printer's doing. It prints the
left side of a clause as it prints any term, while the grammar reads
operands of a defined operator as atoms (`readModule_print_bare`).
-/
import DepLang.Proofs.Grammar.DeclSettled
import DepLang.Proofs.Printer.DeclRoundtrip
import DepLang.Proofs.Reader.Reprint
import DepLang.Proofs.Reader.Whole

namespace DepLang

open DepLang.Grammar DepLang.Parser

-- ========================================================== outlines

/-- An outline has no spans. -/
theorem Decl.erase_outline (d : Decl) : d.outline.erase = d.outline := by
  have same : Term.erase ∘ Term.outline = Term.outline :=
    funext Term.erase_outline
  rw [erase, outline, mapTerms_mapTerms, same]

theorem printSignature_outline (x : Name) (t : Term) :
    printSignature x t.outline = printSignature x t := by
  rw [printSignature, printSignature, Term.print_outline]

theorem Clause.print_outline (c : Clause) :
    (c.mapTerms Term.outline).print = c.print := by
  rw [print, print, mapTerms, Term.print_outline, Term.print_outline]

/-- The text of a declaration is that of its outline. -/
theorem Decl.print_outline (d : Decl) : d.outline.print = d.print := by
  cases d with
  | fixity => rfl
  | signature x t => exact printSignature_outline x t
  | data d =>
      simp [outline, mapTerms, DataType.mapTerms, print, DataType.print,
        printSignature_outline, Function.comp_def]
  | clauses x group =>
      simp [outline, mapTerms, print, Clause.print_outline,
        Function.comp_def]

/-- The text of a module is that of its outlines. -/
theorem Decl.printModule_outline (ds : List Decl) :
    printModule (ds.map outline) = printModule ds := by
  simp [printModule, print_outline, Function.comp_def]

theorem Decl.group_outline (ds : List Decl) :
    group (ds.map outline) = (group ds).map outline :=
  group_mapTerms Term.outline ds

theorem Decl.Settled.boundOnce {table : FixityTable} {d : Decl}
    (h : d.Settled table) : ∀ a ∈ d.types, a.2.BoundOnce := by
  cases d with
  | fixity | clauses => exact fun a ha => by cases ha
  | signature x t => exact List.forall_mem_singleton.2 h.2.2
  | data d =>
      exact List.forall_mem_cons.2 ⟨h.1.2.2, fun a ha => (h.2 a ha).2.2⟩

-- ============================================================= steps

namespace Grammar

variable {inp : Input} {r r' : Registry} {i j : Nat} {d : Decl}

/-- A declaration that was read and completed is canonical, up to its
outline, once it is settled, and read again where its lexemes stand,
with the same effect. -/
theorem DeclForm.reprints (spelled : inp.Spelled)
    (free : ∀ e ∈ r.fixities, IsFreeOperator e.symbol)
    (h : DeclForm inp r i j d r')
    (settled : (d.mapTerms r'.supply).Settled r.fixities) :
    (d.mapTerms r'.supply).outline.Canonical r.fixities
      ∧ ∀ inp' i' j', inp'.language = .standard →
        Stands inp' i' (d.mapTerms r'.supply).outline.lexemes j' →
        ∃ d' k, j' = k + 1 ∧ (inp'.tokenAt k).kind = .mark .semicolon
          ∧ DeclForm inp' r i' k d' r'
          ∧ (d'.mapTerms r'.supply).outline
            = (d.mapTerms r'.supply).outline := by
  obtain ⟨raw, written, enacted⟩ := written_of_declForm spelled h
  obtain ⟨rfl, rfl⟩ := Prod.mk.inj enacted
  have canonical := written.canonical free settled
  refine ⟨canonical, fun inp' i' j' standard stands => ?_⟩
  obtain ⟨again, k, rfl, semicolon, same, form⟩ :=
    canonical.rereads ⟨standard, free⟩ stands
  rw [Decl.erase_outline] at same
  obtain ⟨behind, outlines⟩ :=
    Registry.enact_again written settled.boundOnce same
  exact ⟨_, k, rfl, semicolon, behind ▸ form, outlines⟩

/-- A declaration adds its operators to those in front of it, and they
are free ones. -/
theorem DeclForm.fixities_read (spelled : inp.Spelled)
    (free : ∀ e ∈ r.fixities, IsFreeOperator e.symbol)
    (h : DeclForm inp r i j d r') :
    (∀ e ∈ r'.fixities, IsFreeOperator e.symbol)
      ∧ r'.fixities = r.fixities.after (d.mapTerms r'.supply) := by
  obtain ⟨raw, written, enacted⟩ := written_of_declForm spelled h
  obtain ⟨rfl, rfl⟩ := Prod.mk.inj enacted
  rw [FixityTable.after_mapTerms]
  exact ⟨Registry.free_enact free written, Registry.fixities_enact raw⟩

/-- The same for declarations up to the end of the input. -/
theorem ItemsForm.reprints (spelled : inp.Spelled) {ds : List Decl}
    (h : ItemsForm inp r i j ds r')
    (free : ∀ e ∈ r.fixities, IsFreeOperator e.symbol)
    (settled : Decl.AllSettled r.fixities ds) :
    (∀ d ∈ ds.map Decl.outline, ∃ table : FixityTable,
        (∀ e ∈ table, IsFreeOperator e.symbol) ∧ d.Canonical table)
      ∧ ∀ inp' i' j', inp'.language = .standard →
        Stands inp' i' ((ds.map Decl.outline).flatMap Decl.lexemes) j' →
        (inp'.tokenAt j').kind = .eof →
        ∃ ds', ItemsForm inp' r i' j' ds' r'
          ∧ ds'.map Decl.outline = ds.map Decl.outline := by
  induction h with
  | nil =>
      refine ⟨by simp, fun inp' i' j' _ stands ended => ?_⟩
      obtain rfl : i' = j' := stands
      exact ⟨[], .nil ended, rfl⟩
  | cons first _ _ ih =>
      obtain ⟨now, later⟩ := settled
      obtain ⟨free', fixities⟩ := first.fixities_read spelled free
      rw [← fixities] at later
      obtain ⟨canonical, rereads⟩ :=
        first.reprints spelled free now
      obtain ⟨others, more⟩ := ih free' later
      refine ⟨List.forall_mem_cons.2 ⟨⟨_, free, canonical⟩, others⟩,
        fun inp' i' j' standard stands ended => ?_⟩
      rw [List.map_cons, List.flatMap_cons] at stands
      obtain ⟨k, here, rest⟩ := stands_append.1 stands
      obtain ⟨d', l, rfl, semicolon, form, outline⟩ :=
        rereads inp' i' k standard here
      obtain ⟨ds', items, outlines⟩ := more inp' _ j' standard rest ended
      exact ⟨_, .cons form semicolon items,
        List.cons_eq_cons.2 ⟨outline, outlines⟩⟩

end Grammar

/-- What is printed of a module that was read is read again, from the same
registry and to the same registry, and gives the same declarations up to
spans and the names that the machine gives to binders, if they are
settled. -/
theorem readModule_print (filename filename' text : String)
    (r : Registry) (free : ∀ e ∈ r.fixities, IsFreeOperator e.symbol)
    (decls : List Decl)
    (read : (readModule .standard filename text r).outcome = .ok decls)
    (settled : Decl.AllSettled r.fixities decls) :
    ∃ decls', (readModule .standard filename' (Decl.printModule decls)
          r).outcome = .ok decls'
      ∧ decls'.map Decl.outline = decls.map Decl.outline
      ∧ (readModule .standard filename' (Decl.printModule decls) r).registry
        = (readModule .standard filename text r).registry := by
  obtain ⟨items, span, ds, t, scans, run, rfl, registry⟩ :=
    Reading.items_of_readModule read
  obtain ⟨form, some_decl⟩ :=
    itemsForm_of_moduleItems ⟨rfl, rfl⟩ run
  obtain ⟨canonical, rereads⟩ := form.reprints
    (Reading.spelled_inputOf scans) free
    ((Decl.allSettled_group ds _).1 settled)
  have lexes := lexes_printModule canonical
  rw [Decl.group_outline, Decl.printModule_outline] at lexes
  obtain ⟨items', span', scans', stands, last⟩ :=
    Reading.stands_of_lexes lexes filename'
  obtain ⟨ds', form', outlines⟩ :=
    rereads _ _ _ rfl stands (congrArg Lexeme.kind last)
  have some_decl' : ds' ≠ [] := by
    rintro rfl
    exact some_decl (List.map_eq_nil_iff.1 outlines.symm)
  obtain ⟨t', ⟨-, registry'⟩, run'⟩ := form'.leads rfl some_decl'
    { registry := r } ⟨rfl, rfl⟩
  obtain ⟨again, final⟩ := Reading.readModule_of_ok scans' rfl run'
  refine ⟨Decl.group ds', again, ?_, ?_⟩
  · rw [← Decl.group_outline, ← Decl.group_outline, outlines]
  · rw [final, registry', registry]

/-- A module with an operator and its clause, a data type with a
parameter, an argument that the text does not give and a hidden one. -/
theorem readModule_print_mixed :
    let text := "infixl 6 +; data Maybe a = Some a; x + y = x; "
      ++ "or (Some x) .y = (x) + y;"
    let printed := "infixl 6 +;data Maybe : Set -> Set where "
      ++ "Some : \x7ba : _\x7d -> a -> Maybe a;x + y = x;"
      ++ "or (Some \x7ba = _\x7d x) .y = x + y;"
    ∃ ds ds', (readModule .standard "m" text {}).outcome = .ok ds
      ∧ Decl.printModule ds = printed
      ∧ (readModule .standard "n" printed {}).outcome = .ok ds'
      ∧ ds'.map Decl.outline = ds.map Decl.outline := by
  intro text printed
  obtain ⟨ds, read, prints, settled⟩ := Reading.found_of_checked
    (readModule .standard "m" text {})
    (fun ds => Decl.printModule ds = printed ∧ Decl.AllSettled [] ds)
    (by decide +kernel)
  obtain ⟨ds', again, same, -⟩ := readModule_print "m" "n" text {}
    (by decide) ds read settled
  exact ⟨ds, ds', read, prints, prints ▸ again, same⟩

/-- An operand of a defined operator is printed without the parentheses
that it needs as an application, and then the clause is not read. A name
bound at the front of a type, which its own type refers to, is bound
twice in what is printed, and then a call site is given two arguments for
it. -/
theorem readModule_print_bare :
    (∃ ds, (readModule .standard "m" "infix 6 +; (f a) + b = c;"
          {}).outcome = .ok ds
        ∧ ds.map Decl.print = ["infix 6 +", "f a + b = c"]
        ∧ (readModule .standard "m" (Decl.printModule ds) {}).Fails)
      ∧ ∃ ds ds', (readModule .standard "m"
            "f : \x7ba : a\x7d -> Set; x = f y;" {}).outcome = .ok ds
        ∧ (readModule .standard "m" (Decl.printModule ds) {}).outcome
          = .ok ds'
        ∧ ds'.map Decl.outline ≠ ds.map Decl.outline := by
  constructor
  · exact Reading.found_of_checked
      (readModule .standard "m" "infix 6 +; (f a) + b = c;" {})
      (fun ds => ds.map Decl.print = ["infix 6 +", "f a + b = c"]
        ∧ (readModule .standard "m" (Decl.printModule ds) {}).Fails)
      (by decide +kernel)
  · obtain ⟨ds, read, again⟩ := Reading.found_of_checked
      (readModule .standard "m" "f : \x7ba : a\x7d -> Set; x = f y;" {})
      (fun ds => ((readModule .standard "m" (Decl.printModule ds)
        {}).outcome.toOption.any fun ds' =>
          Decl.printModule ds' ≠ Decl.printModule ds) = true)
      (by decide +kernel)
    obtain ⟨ds', again, differ⟩ := Reading.found_of_checked
      (readModule .standard "m" (Decl.printModule ds) {})
      (fun ds' => Decl.printModule ds' ≠ Decl.printModule ds) again
    refine ⟨ds, ds', read, again, fun same => differ ?_⟩
    rw [← Decl.printModule_outline ds', same, Decl.printModule_outline]

end DepLang

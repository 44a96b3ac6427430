/-
The registry that a module leaves is the one it started from, with what
its declarations say and nothing else. The fixity table has an entry
more for every operator of a fixity declaration; the names that are
defined are those that were, and the types, data types and constructors
of the module; a name that is declared more than once counts by its
last type, and is recorded with the implicit arguments that are bound at
its front.

That is `Grammar.moduleItems_records` read off the declarations that are
returned: grouping clauses moves no declaration that registers
anything.
-/
import DepLang.Proofs.Grammar.Records
import DepLang.Proofs.Reader.Whole

namespace DepLang

open DepLang.Parser

namespace Reading

/-- A module that is read adds to the registry what its declarations
say. -/
theorem grows_readModule {lang : Language} {filename text : String}
    {r : Registry} {decls : List Decl}
    (h : (readModule lang filename text r).outcome = .ok decls) :
    r.Grows (readModule lang filename text r).registry
      (decls.flatMap Decl.entries) (decls.flatMap Decl.types) := by
  obtain ⟨items, span, ds, t, -, run, rfl, registry⟩ :=
    items_of_readModule h
  rw [Decl.flatMap_entries_group, Decl.flatMap_types_group, registry]
  exact Grammar.moduleItems_records _ _ ds t run

end Reading

/-- What a module that is read leaves in the registry, and what it does
not touch. -/
theorem readModule_registry_of_ok (lang : Language)
    (filename text : String) (r : Registry) (decls : List Decl)
    (h : (readModule lang filename text r).outcome = .ok decls) :
    let final := (readModule lang filename text r).registry
    let types := decls.flatMap Decl.types
    final.fixities.Perm (decls.flatMap Decl.entries ++ r.fixities)
      ∧ (∀ x, final.defines x
        ↔ r.defines x ∨ x ∈ types.map Prod.fst)
      ∧ (∀ x, x ∉ types.map Prod.fst →
        final.implicitsOf? x = r.implicitsOf? x)
      ∧ ∀ x type, types.reverse.lookup x = some type →
        ∃ names, final.implicitsOf? x = some names
          ∧ ∀ y, y ∈ names ↔ y ∈ type.leadingImplicits := by
  intro final types
  have grown : r.Grows final (decls.flatMap Decl.entries) types :=
    Reading.grows_readModule h
  exact ⟨grown.perm_fixities, grown.defines_iff,
    fun _ other => grown.implicitsOf?_other other,
    fun _ _ last => grown.implicitsOf?_last last⟩

/-- A module that types one name twice, the first time over an entry that
was there, gives an operator a second fixity, and declares a data type by
the form that is tried last. -/
theorem readModule_registry_of_ok_overwritten :
    let r : Registry :=
      { fixities := [⟨⟨.left, 6⟩, "+"⟩]
        implicits :=
          [(.ofText "f", [.ofText "a"]), (.ofText "h", [.ofText "b"])] }
    let reading := readModule .standard "m"
      ("infixr 4 +, *; f : \x7ba : Set\x7d -> a -> b;"
        ++ "data Opt t = some t | none; f : Opt c; h \x7bb\x7d x = f;") r
    (∃ decls, reading.outcome = .ok decls ∧ decls.length = 5)
      ∧ reading.registry.fixities.Perm
        [⟨⟨.right, 4⟩, "+"⟩, ⟨⟨.right, 4⟩, "*"⟩, ⟨⟨.left, 6⟩, "+"⟩]
      ∧ (reading.registry.defines (.ofText "some")
        ∧ ¬reading.registry.defines (.ofText "x"))
      ∧ reading.registry.implicitsOf? (.ofText "h") = some [.ofText "b"]
      ∧ ∃ names, reading.registry.implicitsOf? (.ofText "f") = some names
        ∧ ∀ y, y ∈ names ↔ y = .ofText "c" := by
  intro r reading
  have facts : (reading.outcome.toOption.map fun decls =>
      let types := decls.flatMap Decl.types
      (decls.length, decls.flatMap Decl.entries, types.map Prod.fst,
        (types.reverse.lookup (.ofText "f")).map Term.leadingImplicits))
      = some (5, [⟨⟨.right, 4⟩, "+"⟩, ⟨⟨.right, 4⟩, "*"⟩],
        [.ofText "f", .ofText "Opt", .ofText "some", .ofText "none",
          .ofText "f"], some [.ofText "c"]) := by
    decide +kernel
  cases found : reading.outcome with
  | error stop =>
      rw [found] at facts
      cases facts
  | ok decls =>
      rw [found] at facts
      obtain ⟨length, entries, names, last⟩ :
          _ = _ ∧ _ = _ ∧ _ = _ ∧ _ = _ := by
        simpa only [Except.toOption, Option.map_some, Option.some.injEq,
          Prod.mk.injEq] using facts
      obtain ⟨fixities, defined, kept, typed⟩ :=
        readModule_registry_of_ok .standard "m" _ r decls found
      obtain ⟨type, declared, leading⟩ := Option.map_eq_some_iff.1 last
      obtain ⟨recorded, stands, same⟩ := typed _ type declared
      refine ⟨⟨decls, rfl, length⟩, ?_, ⟨?_, ?_⟩, ?_, recorded, stands, ?_⟩
      · rw [entries] at fixities
        exact fixities
      · exact (defined _).2 (.inr (by rw [names]; decide))
      · rw [defined, names]
        decide
      · exact kept _ (by rw [names]; decide)
      · intro y
        rw [same, leading, List.mem_singleton]

end DepLang

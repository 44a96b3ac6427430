/-
Reading two modules joined at a newline is reading one after the other.
If the first can be read, the whole can be read exactly if the second
can, from the registry that the first leaves. The whole then leaves the
registry that the second leaves, and its declarations are those of both,
up to spans; a definition whose clauses lie on both sides comes back in
one group, so the declarations are compared clause by clause. If the
second fails, so does the whole, and it leaves the registry that was
there before the first.

Three facts make it: the lexer takes the texts apart at the newline
(`Lexer.tokenize_join`), the items of the first are read over the whole
as over the first alone (`Grammar.moduleItems_joined`), and those of the
second are read where they stand as they are from the start
(`Simulation.shift`).
-/
import DepLang.Proofs.Decl.Groups
import DepLang.Proofs.Grammar.Joined
import DepLang.Proofs.Lexer.Joined
import DepLang.Proofs.Reader.Whole

namespace DepLang

open DepLang.Parser

-- ==================================================== declarations

namespace Decl

theorem map_erase_split (d : Decl) :
    d.split.map erase = d.erase.split := by
  cases d with
  | clauses name group =>
      show (group.map fun c => Decl.clauses c.head [c]).map erase
        = (group.map (Clause.mapTerms Term.erase)).map
          fun c => .clauses c.head [c]
      rw [List.map_map, List.map_map]
      rfl
  | _ => rfl

/-- Declarations that agree up to spans are split alike. -/
theorem map_erase_ungroup {ds ds' : List Decl}
    (h : List.Forall₂ (Agree False erase) ds ds') :
    (ungroup ds).map erase = (ungroup ds').map erase := by
  induction h with
  | nil => rfl
  | @cons d d' ds ds' same _ ih =>
      show ((d.split ++ ungroup ds).map erase)
        = (d'.split ++ ungroup ds').map erase
      rw [List.map_append, List.map_append, ih, map_erase_split,
        map_erase_split, same.1]

theorem ungroup_append (ds ds' : List Decl) :
    ungroup (ds ++ ds') = ungroup ds ++ ungroup ds' :=
  List.flatMap_append

end Decl

-- ========================================================== inputs

namespace Input

variable {items more : List Token} {ending : Token} {origin : Origin}
  {language : Language}

/-- An input with more items at the end starts with the input without
them. -/
theorem starts_ofItems {ending' : Token} {origin' : Origin}
    (kinds : ∀ t ∈ items, t.kind ≠ .eof) :
    (ofItems items ending origin language).Starts
      (ofItems (items ++ more) ending' origin' language) := by
  have size : (ofItems items ending origin language).tokens.size
      = items.length := by simp [ofItems]
  refine ⟨rfl, fun i inside => ?_, fun i inside => ?_⟩
  · rw [size] at inside
    rw [tokenAt_ofItems, tokenAt_ofItems, List.getElem?_append_left inside,
      List.getElem?_eq_getElem inside]
    rfl
  · rw [size] at inside
    rw [tokenAt_ofItems, List.getElem?_eq_getElem inside]
    exact kinds _ (List.getElem_mem inside)

/-- What stands after the first items is, up to spans, the input that is
made of it. -/
theorem standsAt_ofItems {items' : List Token} {ending' : Token}
    {origin' : Origin}
    (lexemes : items'.map Token.lexeme = more.map Token.lexeme)
    (endings : ending'.lexeme = ending.lexeme) :
    (ofItems more ending origin language).StandsAt
      (ofItems (items ++ items') ending' origin' language) items.length := by
  refine ⟨rfl, ?_, fun i => ?_⟩
  · have same := congrArg List.length lexemes
    rw [List.length_map, List.length_map] at same
    simp [ofItems, same]
  · have same : (items'[i]?).map Token.lexeme
        = (more[i]?).map Token.lexeme := by
      rw [← List.getElem?_map, ← List.getElem?_map, lexemes]
    rw [tokenAt_ofItems, tokenAt_ofItems,
      List.getElem?_append_right (Nat.le_add_right _ _),
      Nat.add_sub_cancel_left]
    cases here : items'[i]? with
    | none =>
        cases there : more[i]? with
        | none => simp [Token.text, endings]
        | some t => simp [here, there] at same
    | some t' =>
        cases there : more[i]? with
        | none => simp [here, there] at same
        | some t =>
            simp only [here, there, Option.map_some, Option.some.injEq]
              at same
            exact same.symm

end Input

-- ======================================================== readings

namespace Reading

variable {filename text₁ text₂ : String} {r : Registry}

/-- A text joined to a module either stops with the second of them, and
leaves the registry alone, or declares what both do, one after the
other. -/
theorem readModule_join_cases {decls₁ : List Decl}
    (read : (readModule .standard filename text₁ r).outcome = .ok decls₁)
    (some : ∀ ending,
      Lexer.tokenize .standard text₂ filename ≠ .ok [ending]) :
    let first := readModule .standard filename text₁ r
    let second := readModule .standard filename text₂ first.registry
    let whole :=
      readModule .standard filename (text₁ ++ "\n" ++ text₂) r
    ((∃ stop, second.outcome = .error stop)
        ∧ (∃ stop, whole.outcome = .error stop)
        ∧ (second.Fails → whole.Fails) ∧ whole.registry = r)
      ∨ ∃ decls₂ decls, second.outcome = .ok decls₂
        ∧ whole.outcome = .ok decls
        ∧ whole.registry = second.registry
        ∧ (Decl.ungroup decls).map Decl.erase
          = (Decl.ungroup decls₁ ++ Decl.ungroup decls₂).map Decl.erase := by
  intro first second whole
  obtain ⟨items₁, span₁, ds₁, t, scans₁, run₁, rfl, registry₁⟩ :=
    items_of_readModule read
  rcases Lexer.tokenize_join scans₁ text₂ with
    ⟨flaw, pos, pos', origin, origin', here, there⟩ |
    ⟨items₂, items₂', span₂, span, scans₂, scans, lexemes⟩
  · obtain ⟨stopped, -⟩ := readModule_of_flaw (r := first.registry) here
    obtain ⟨stopped', kept⟩ := readModule_of_flaw (r := r) there
    refine .inl ⟨⟨_, stopped⟩, ⟨_, stopped'⟩, ?_, kept⟩
    rintro ⟨e, fails⟩
    -- the flaw is the same, so it is a failure in both places or in none
    cases flaw with
    | complaint c => exact ⟨_, stopped'⟩
    | defect d => cases stopped.symm.trans fails
  have starts : (inputOf items₁ ⟨.eof "", span₁⟩ .standard filename
      text₁).Starts (inputOf (items₁ ++ items₂') ⟨.eof "", span⟩ .standard
        filename (text₁ ++ "\n" ++ text₂)) :=
    Input.starts_ofItems (Lexer.kind_of_mem_tokenize scans₁)
  have stands : (inputOf items₂ ⟨.eof "", span₂⟩ .standard filename
      text₂).StandsAt (inputOf (items₁ ++ items₂') ⟨.eof "", span⟩ .standard
        filename (text₁ ++ "\n" ++ text₂)) items₁.length :=
    Input.standsAt_ofItems lexemes rfl
  have more : ((inputOf items₂ ⟨.eof "", span₂⟩ .standard filename
      text₂).tokenAt 0).kind ≠ .eof := by
    cases items₂ with
    | nil => exact absurd scans₂ (some _)
    | cons token _ =>
        exact Lexer.kind_of_mem_tokenize scans₂ token List.mem_cons_self
  obtain ⟨rest, comes, goes⟩ :=
    Grammar.moduleItems_append starts stands more run₁
  rw [← registry₁] at comes
  cases run₂ : Grammar.moduleItems (inputOf items₂ ⟨.eof "", span₂⟩
      .standard filename text₂) { registry := first.registry } with
  | ok ds₂ u =>
      rw [run₂] at comes
      cases comes with
      | ok alike level =>
      obtain ⟨read₂, registry₂⟩ := readModule_of_ok scans₂ rfl run₂
      obtain ⟨read', registry'⟩ := readModule_of_ok scans rfl goes
      refine .inr ⟨_, _, read₂, read', ?_, ?_⟩
      · exact registry'.trans (level.2.symm.trans registry₂.symm)
      · rw [Decl.ungroup_group, Decl.ungroup_group, Decl.ungroup_group,
          Decl.ungroup_append, List.map_append, List.map_append,
          Decl.map_erase_ungroup alike]
  | error e u =>
      rw [run₂] at comes
      cases comes
      obtain ⟨e, stopped⟩ := readModule_of_error scans₂ rfl run₂
      have fails := readModule_of_error scans rfl goes
      have kept := registry_of_fails fails
      obtain ⟨e', stopped'⟩ := fails
      exact .inl ⟨⟨_, stopped⟩, ⟨_, stopped'⟩, fun _ => ⟨_, stopped'⟩, kept⟩
  | defect d u => exact absurd run₂ (Grammar.moduleItems_sound _ d u)

end Reading

/-- A module, a newline and a text with a token in it are read as the
module and then, from the registry that it leaves, the text: with the
same outcome, up to the grouping of clauses and spans, and the same
registry, unless the text is not read; then nothing of the module is left
either. -/
theorem readModule_join (filename text₁ text₂ : String) (r : Registry)
    (decls₁ : List Decl)
    (read : (readModule .standard filename text₁ r).outcome = .ok decls₁)
    (some : ∀ ending,
      Lexer.tokenize .standard text₂ filename ≠ .ok [ending]) :
    let first := readModule .standard filename text₁ r
    let second := readModule .standard filename text₂ first.registry
    let whole :=
      readModule .standard filename (text₁ ++ "\n" ++ text₂) r
    ((∃ decls, whole.outcome = .ok decls)
        ↔ ∃ decls₂, second.outcome = .ok decls₂)
      ∧ (∀ decls₂, second.outcome = .ok decls₂ →
        ∃ decls, whole.outcome = .ok decls
          ∧ whole.registry = second.registry
          ∧ (Decl.ungroup decls).map Decl.erase
            = (Decl.ungroup decls₁ ++ Decl.ungroup decls₂).map Decl.erase)
      ∧ (second.Fails → whole.Fails ∧ whole.registry = r)
      ∧ (∀ stop, second.outcome = .error stop → whole.registry = r) := by
  intro first second whole
  rcases Reading.readModule_join_cases read some with
    ⟨⟨stop, stopped⟩, ⟨stop', stopped'⟩, blamed, kept⟩
    | ⟨decls₂, decls, found, found', registry, same⟩
  · refine ⟨⟨?_, ?_⟩, fun _ found => ?_,
      fun fails => ⟨blamed fails, kept⟩, fun _ _ => kept⟩
    · rintro ⟨decls, found⟩
      cases found.symm.trans stopped'
    · rintro ⟨decls, found⟩
      cases found.symm.trans stopped
    · cases found.symm.trans stopped
  · refine ⟨⟨fun _ => ⟨decls₂, found⟩, fun _ => ⟨decls, found'⟩⟩,
      fun other also => ?_, ?_, fun stop stopped => ?_⟩
    · cases found.symm.trans also
      exact ⟨decls, found', registry, same⟩
    · rintro ⟨e, stopped⟩
      cases found.symm.trans stopped
    · cases found.symm.trans stopped

/-- A module that ends in a comment, and a text that goes on with clauses
of its last definition, under its operator: four single clauses and a
fixity declaration come back as three declarations. -/
theorem readModule_join_clauses :
    let r : Registry := {}
    let text₁ := "infixl 6 +; id x = x; f zero = zero; -- and so on"
    let text₂ := "f (suc n) = f n + n; f x = id x;"
    let first := readModule .standard "m" text₁ r
    let second := readModule .standard "m" text₂ first.registry
    let whole := readModule .standard "m" (text₁ ++ "\n" ++ text₂) r
    ∃ decls₁ decls₂ decls, first.outcome = .ok decls₁
      ∧ second.outcome = .ok decls₂ ∧ whole.outcome = .ok decls
      ∧ (decls₁.length, decls₂.length, decls.length) = (3, 1, 3)
      ∧ whole.registry = second.registry
      ∧ (Decl.ungroup decls).map Decl.erase
        = (Decl.ungroup decls₁ ++ Decl.ungroup decls₂).map Decl.erase := by
  intro r text₁ text₂ first second whole
  obtain ⟨length₁, length₂, length, tokens⟩ :
      first.outcome.toOption.map List.length = some 3
        ∧ second.outcome.toOption.map List.length = some 1
        ∧ whole.outcome.toOption.map List.length = some 3
        ∧ (Lexer.tokenize .standard text₂ "m").toOption.map List.length
          = some 18 := by
    decide +kernel
  cases found₁ : first.outcome with
  | error stop =>
      rw [found₁] at length₁
      cases length₁
  | ok decls₁ =>
      cases found₂ : second.outcome with
      | error stop =>
          rw [found₂] at length₂
          cases length₂
      | ok decls₂ =>
          have more : ∀ ending,
              Lexer.tokenize .standard text₂ "m" ≠ .ok [ending] := by
            intro ending only
            rw [only] at tokens
            cases tokens
          obtain ⟨-, both, -⟩ :=
            readModule_join "m" text₁ text₂ r decls₁ found₁ more
          obtain ⟨decls, found, registry, same⟩ := both decls₂ found₂
          rw [found₁] at length₁
          rw [found₂] at length₂
          have found : whole.outcome = .ok decls := found
          rw [found] at length
          refine ⟨decls₁, decls₂, decls, rfl, rfl, found, ?_, registry, same⟩
          rw [Option.some.inj length₁, Option.some.inj length₂,
            Option.some.inj length]

end DepLang

/-
What becomes of parameters in a module. A data type may stand anywhere in
a module that is read, given by its parameters and its constructors'
arguments. It is found again in its place, with an arrow in its kind for
each parameter, and its constructors' types leave just those of the
lowercase parameters free whose names were taken when the type was closed
(`readModule_parameters`): by what the reading started with, by a
declaration before it in the module, by the data type itself or by a
constructor before that one. So under a name that nothing has taken a
parameter is always bound, and under one that something has it is not a
parameter but what was declared (`readModule_parameters_taken`).

The place is told by the text alone. Semicolons separate declarations
(`ItemsForm.behind`), so as many are in front of this one as semicolons,
clauses of one definition counted one by one.
-/
import DepLang.Proofs.Grammar.Parameters
import DepLang.Proofs.Grammar.Separated
import DepLang.Proofs.Reader.DataForms

namespace DepLang

open DepLang.Grammar DepLang.Parser DepLang.Reading

/-- A data type with parameters, anywhere in a module that is read, has
an arrow in its kind for each parameter. A parameter that starts with a
lowercase letter is free in the type of a constructor exactly if it was
defined by then: when the reading began, by an earlier declaration of a
type or of a data type, as the name of this one or of one of its
constructors before. All others are bound. -/
theorem readModule_parameters (filename text : String) (r : Registry)
    (decls : List Decl)
    (read : (readModule .standard filename text r).outcome = .ok decls)
    (before after : List Lexeme) (target : Label) (params : List String)
    (begins : ∀ l ∈ before.getLast?, l.isSemicolon = true)
    (spelled : HasLexemes filename text
      (before ++ (dataHead target params ++ after))) :
    ∃ earlier later constructors,
      decls = earlier ++ .data ⟨target.name,
          Term.arrows argumentBinder
            (List.replicate params.length (.set none)) (.set none),
          constructors⟩ :: later
      ∧ (Decl.ungroup earlier).length = before.countP Lexeme.isSemicolon
      ∧ ∀ front c back, constructors = front ++ c :: back →
        ∀ p ∈ params, (Name.ofText p).isImplicitable = true →
          (Name.ofText p ∈ c.2.freeNames
            ↔ r.defines (.ofText p) = true
              ∨ .ofText p ∈ (earlier.flatMap Decl.types).map Prod.fst
              ∨ .ofText p = target.name
              ∨ .ofText p ∈ front.map Prod.fst) := by
  obtain ⟨inp, ds, last, n, j, standard, stands, inside, form, -, rfl⟩ :=
    itemsForm_of_hasLexemes spelled read
  obtain ⟨m, piece, stands⟩ := stands_append.1 stands
  obtain ⟨k, head, rest⟩ := stands_append.1 stands
  have word : (inp.tokenAt m).lexeme = .reserved "data" := head.1
  have le := Nat.le_trans head.le rest.le
  obtain ⟨front, back, r₁, rfl, count, grown, goes⟩ :=
    form.behind standard piece (Nat.le_trans le inside) begins
  cases goes with
  | nil ended =>
      rw [Token.kind, word] at ended
      cases ended
  | @cons _ r₂ _ _ _ _ d ds first semicolon more =>
      obtain ⟨constructors, made, free⟩ :=
        first.parameters standard head r₂
      refine ⟨Decl.group front, Decl.group ds, constructors, ?_, ?_, ?_⟩
      · rw [made, Decl.group_around rfl]
      · rw [Decl.ungroup_group, count]
      · intro others c rest split p hp starts
        rw [free others c rest split p hp starts, grown.defines_iff,
          Decl.flatMap_types_group, or_assoc]

/-- A constructor that is called like a parameter, which is bound in its
type and free in the type of the next; the name of the other parameter
is declared before. -/
theorem readModule_parameters_mixed :
    let a := Name.ofText "a"
    let b := Name.ofText "b"
    ∃ first c₁ c₂,
      (readModule .standard "m" "a : Set; data T a b = b a | C b;"
          {}).outcome
        = .ok [first, .data ⟨.ofText "T",
          .pi .explicit argumentBinder (.set none)
            (.pi .explicit argumentBinder (.set none) (.set none) none)
            none, [c₁, c₂]⟩]
      ∧ (a ∈ c₁.2.freeNames ∧ b ∉ c₁.2.freeNames)
      ∧ a ∈ c₂.2.freeNames ∧ b ∈ c₂.2.freeNames := by
  intro a b
  obtain ⟨decls, read, names⟩ := found_of_checked
    (readModule .standard "m" "a : Set; data T a b = b a | C b;" {})
    (fun decls => decls.map (fun d => d.types.map Prod.fst)
      = [[a], [.ofText "T", b, .ofText "C"]])
    (by decide +kernel)
  obtain ⟨earlier, later, constructors, rfl, -, free⟩ :=
    readModule_parameters "m" _ {} decls read
      [.ident "a", .operator ":", .reserved "Set", .ofMark .semicolon]
      [.ident "b", .ident "a", .operator "|", .ident "C", .ident "b",
        .ofMark .semicolon]
      (.word "T") ["a", "b"] (by decide) (by decide +kernel)
  -- one declaration stands in front, and none behind
  obtain _ | ⟨first, _ | ⟨second, others⟩⟩ := earlier
  · have heads : Name.ofText "T" = a :=
      (List.cons.inj (List.cons.inj names).1).1
    exact absurd heads (by decide)
  · obtain ⟨front, rest⟩ := List.cons.inj names
    obtain ⟨own, behind⟩ := List.cons.inj rest
    obtain ⟨c₁, _, rfl, called, two⟩ :=
      List.map_eq_cons_iff.1 (List.cons.inj own).2
    obtain ⟨c₂, _, rfl, -, three⟩ := List.map_eq_cons_iff.1 two
    obtain rfl := List.map_eq_nil_iff.1 behind
    obtain rfl := List.map_eq_nil_iff.1 three
    have earlier : ([first].flatMap Decl.types).map Prod.fst = [a] := by
      rw [List.flatMap_singleton]
      exact front
    rw [earlier] at free
    have one := free [] c₁ [c₂] rfl
    have two := free [c₁] c₂ [] rfl
    rw [List.map_singleton, called] at two
    refine ⟨first, c₁, c₂, read, ⟨?_, ?_⟩, ?_, ?_⟩
    · rw [one "a" (by decide) (by decide)]
      decide
    · rw [one "b" (by decide) (by decide)]
      decide
    · rw [two "a" (by decide) (by decide)]
      decide
    · rw [two "b" (by decide) (by decide)]
      decide
  · have lengths := congrArg List.length names
    simp at lengths

/-- A parameter under the name of what was declared before is not bound
but refers to it. -/
theorem readModule_parameters_taken :
    let a := Name.ofText "a"
    ∃ first kind type,
      (readModule .standard "m" "a : Set; data T a = C a;" {}).outcome
        = .ok [first, .data ⟨.ofText "T", kind, [(.ofText "C", type)]⟩]
      ∧ a.isImplicitable = true ∧ a ∈ type.freeNames := by
  intro a
  obtain ⟨decls, read, found⟩ := found_of_checked
    (readModule .standard "m" "a : Set; data T a = C a;" {})
    (fun decls => decls.map (fun d => d.types.map
        fun a => (a.1, a.2.freeNames))
      = [[(a, [])], [(.ofText "T", []),
        (.ofText "C", [a, .ofText "T"])]])
    (by decide +kernel)
  obtain ⟨first, _, rfl, -, rest⟩ := List.map_eq_cons_iff.1 found
  obtain ⟨second, _, rfl, types, behind⟩ := List.map_eq_cons_iff.1 rest
  obtain rfl := List.map_eq_nil_iff.1 behind
  cases second with
  | data data =>
      obtain ⟨x, kind, constructors⟩ := data
      obtain ⟨own, each⟩ := List.cons.inj types
      obtain ⟨⟨y, type⟩, _, rfl, made, others⟩ := List.map_eq_cons_iff.1 each
      obtain rfl := List.map_eq_nil_iff.1 others
      obtain ⟨rfl, -⟩ := Prod.ext_iff.1 own
      obtain ⟨rfl, free⟩ := Prod.ext_iff.1 made
      have free : type.freeNames = [a, .ofText "T"] := free
      refine ⟨first, kind, type, read, by decide, ?_⟩
      rw [free]
      exact List.mem_cons_self
  | signature => simp [Decl.types] at types
  | fixity | clauses => simp [Decl.types] at types

end DepLang

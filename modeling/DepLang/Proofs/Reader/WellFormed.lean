/-
What a module that is read looks like, in every language and under every
registry. There is at least one declaration; clauses come in groups of a
name of the user's, each group whole, each clause an equation for an
application of that name; and the terms are proper
(`readModule_wellFormed`).

What is read is proper rule by rule (`Grammar.proper_of_declForm`) and
stays so when it is completed. What grouping adds is of declarations
only: a run of single clauses becomes one group, and two groups that
meet have different names, or they would have been one run.

Since proper terms refer to names of the user's, a binder that the
machine made up binds nothing: whichever name it has, no reference in
its scope is captured by it.
-/
import DepLang.Proofs.Grammar.Proper
import DepLang.Proofs.Reader.Whole

namespace DepLang

open DepLang.Parser

-- ======================================================= references

namespace Term

/-- The term refers to nothing by a name of the machine's, and no binder
of the machine's is referred to from its scope. -/
structure Uncaptured (t : Term) : Prop where
  refers : t.RefersToUser
  binds : ∀ u ∈ t.subterms, ∀ p index tag type body σ,
    u = .pi p (.machine index tag) type body σ →
      .machine index tag ∉ body.occurrences

variable {t u : Term}

/-- Nothing is captured in a term each of whose parts is proper, or an
application, or hidden. -/
theorem uncaptured_of_parts
    (parts : ∀ u ∈ t.subterms, u.Proper
      ∨ (∃ fn named args σ, u = .app fn named args σ)
      ∨ ∃ body σ, u = .hidden body σ) : t.Uncaptured := by
  constructor
  · rintro u member index tag σ rfl
    rcases parts _ member with proper | ⟨_, _, _, _, same⟩ | ⟨_, _, same⟩
    · cases proper
    · cases same
    · cases same
  · rintro u member p index tag type body σ rfl occurs
    rcases parts _ member with proper | ⟨_, _, _, _, same⟩ | ⟨_, _, same⟩
    · cases proper with
      | pi domain inner =>
          obtain ⟨segments, same⟩ := inner.user_of_mem occurs
          cases same
    · cases same
    · cases same

theorem Proper.uncaptured (h : t.Proper) : t.Uncaptured :=
  uncaptured_of_parts fun _ member => .inl (h.of_mem_subterms member)

end Term

-- ==================================================== declarations

/-- The terms that a declaration holds. -/
def Decl.terms : Decl → List Term
  | .fixity _ _ => []
  | .signature _ type => [type]
  | .data type => type.kind :: type.constructors.map Prod.snd
  | .clauses _ group => group.flatMap fun c => [c.lhs, c.rhs]

/-- What a declaration of a module looks like. The clauses of a group are
for one name, which is the user's and the group's. -/
inductive Decl.WellFormed : Decl → Prop
  | fixity {fix : Fixity} {symbols : List String} :
      WellFormed (.fixity fix symbols)
  | signature {x : Name} {t : Term} (type : t.Proper) :
      WellFormed (.signature x t)
  | data {x : Name} {t : Term} {constructors : List (Name × Term)}
      (kind : t.Proper) (each : ∀ c ∈ constructors, c.2.Proper) :
      WellFormed (.data ⟨x, t, constructors⟩)
  | clauses {segments : List String} {cs : List Clause}
      (some_clause : cs ≠ [])
      (each : ∀ c ∈ cs, c.head = .user segments ∧ c.Proper) :
      WellFormed (.clauses (.user segments) cs)

/-- The left-hand side of a clause captures nothing either, though it may
lack arguments, or have some hidden. -/
theorem Clause.Proper.uncaptured {c : Clause} (h : c.Proper) :
    c.lhs.Uncaptured ∧ c.rhs.Uncaptured := by
  cases h with
  | @intro segments named args rhs σ τ values each body =>
      refine ⟨Term.uncaptured_of_parts fun u member => ?_,
        body.uncaptured⟩
      dsimp only at member
      rw [Term.subterms, Term.subtermsNamed_eq_flatMap,
        Term.subtermsAll_eq_flatMap] at member
      rcases List.mem_cons.1 member with rfl | member
      · exact .inr (.inl ⟨_, _, _, _, rfl⟩)
      · simp only [List.mem_append, List.mem_flatMap] at member
        rcases member with (head | ⟨a, ha, inValue⟩) | ⟨a, ha, inArg⟩
        · rw [List.mem_singleton.1 head]
          exact .inl .ref
        · exact .inl ((values a ha).of_mem_subterms inValue)
        · cases each a ha with
          | shown h => exact .inl (h.of_mem_subterms inArg)
          | hidden h =>
              rcases List.mem_cons.1 inArg with rfl | inside
              · exact .inr (.inr ⟨_, _, rfl⟩)
              · exact .inl (h.of_mem_subterms inside)

theorem Decl.WellFormed.uncaptured {d : Decl} (h : d.WellFormed) :
    ∀ t ∈ d.terms, t.Uncaptured := by
  cases h with
  | fixity => exact fun t ht => by cases ht
  | signature type => exact List.forall_mem_singleton.2 type.uncaptured
  | data kind each =>
      refine List.forall_mem_cons.2 ⟨kind.uncaptured, ?_⟩
      exact List.forall_mem_map.2 fun c hc => (each c hc).uncaptured
  | clauses _ each =>
      intro t ht
      obtain ⟨c, hc, side⟩ := List.mem_flatMap.1 ht
      obtain ⟨left, right⟩ := (each c hc).2.uncaptured
      rcases List.mem_cons.1 side with rfl | side
      · exact left
      · rw [List.mem_singleton.1 side]
        exact right

/-- Proper declarations are well-formed once their clauses are grouped. -/
theorem Decl.wellFormed_of_mem_group {ds : List Decl}
    (proper : ∀ d ∈ ds, d.Proper) : ∀ d ∈ group ds, d.WellFormed := by
  intro d hd
  rcases of_mem_group hd with ⟨there, other⟩ | ⟨c, cs, rfl, each⟩
  · cases proper d there with
    | fixity => exact .fixity
    | signature type => exact .signature type
    | data kind each => exact .data kind each
    | clause h => cases other
  · have each' : ∀ c' ∈ c :: cs, c'.head = c.head ∧ c'.Proper := by
      intro c' hc
      obtain ⟨head, name, there⟩ := each c' hc
      cases proper _ there with
      | clause h => exact ⟨head, h⟩
    have user : ∃ segments, c.head = .user segments := by
      cases (each' c List.mem_cons_self).2
      exact ⟨_, rfl⟩
    obtain ⟨segments, same⟩ := user
    rw [same] at each' ⊢
    exact .clauses (List.cons_ne_nil _ _) each'

theorem Decl.single?_of_proper {d : Decl} (h : d.Proper) :
    ∀ x cs, d = .clauses x cs → d.single?.isSome := by
  rintro x cs rfl
  cases h
  rfl

/-- Every module that is read is well-formed. It has a declaration; its
clauses are in groups of one name of the user's each, never two of one
name in a row; only in a clause's arguments is anything hidden and only
its left-hand side may lack arguments; and nothing refers to a name that
the machine made up. -/
theorem readModule_wellFormed {lang : Language} {filename text : String}
    {r : Registry} {decls : List Decl}
    (h : (readModule lang filename text r).outcome = .ok decls) :
    decls ≠ [] ∧ (∀ d ∈ decls, d.WellFormed) ∧ decls.IsChain Decl.Apart
      ∧ ∀ d ∈ decls, ∀ t ∈ d.terms, t.Uncaptured := by
  obtain ⟨items, span, ds, t, -, run, rfl, -⟩ := Reading.items_of_readModule h
  obtain ⟨form, some_decl⟩ :=
    Grammar.itemsForm_of_moduleItems ⟨rfl, rfl⟩ run
  have wellFormed := Decl.wellFormed_of_mem_group form.proper
  refine ⟨Decl.group_ne_nil some_decl, wellFormed, ?_, ?_⟩
  · exact Decl.isChain_group fun d hd => Decl.single?_of_proper
      (form.proper d hd)
  · exact fun d hd => (wellFormed d hd).uncaptured

/-- Two clauses of one name, a hidden argument, an arrow of the machine's
and a constant's clause, which applies its name to nothing. -/
theorem readModule_wellFormed_hidden :
    ∃ decls,
      (readModule .standard "m"
        "f : a -> b; f .(g a) x = x; f y = y; c = f c;" {}).outcome
          = .ok decls
        ∧ decls.map (fun d => d.terms.length) = [1, 4, 2]
        ∧ (∀ d ∈ decls, d.WellFormed) ∧ decls.IsChain Decl.Apart := by
  have facts : ((readModule .standard "m"
      "f : a -> b; f .(g a) x = x; f y = y; c = f c;"
        {}).outcome.toOption.map fun decls =>
          decls.map fun d => d.terms.length) = some [1, 4, 2] := by
    decide +kernel
  cases found : (readModule .standard "m"
      "f : a -> b; f .(g a) x = x; f y = y; c = f c;" {}).outcome with
  | error stop =>
      rw [found] at facts
      cases facts
  | ok decls =>
      rw [found] at facts
      obtain ⟨-, wellFormed, apart, -⟩ := readModule_wellFormed found
      exact ⟨decls, rfl, Option.some.inj facts, wellFormed, apart⟩

end DepLang

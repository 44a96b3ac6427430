/-
What completing a term touches, and what it depends on. It touches the
arguments given by name and nothing else, so that a term and its
completion are the same once these are gone, spans and all; and what it
gave once it does not give again (`supply_idempotent`).

It depends on the definitions of the names that the term leaves free,
and on no others (`supply_eq_of_freeNames`). Completion and the scan for
free names walk the term apart from each other, one with the names that
are bound so far, the other taking a binder's name out of what its scope
leaves free. The invariant that joins them is stated under any binders:
a name that occurs free and is not among these is one of which both
registries say the same (`SameFree`). It goes down into every part of a
term, and into the scope of a binder it goes with the binder's name.
-/
import DepLang.Proofs.Implicit.Stable

namespace DepLang

-- ================================================= without arguments

namespace Term

mutual

/-- The term without the arguments that are given by name, anywhere in
it. -/
def withoutNamed : Term → Term
  | .ref name span => .ref name span
  | .hole span => .hole span
  | .set span => .set span
  | .quote body span => .quote body.withoutNamed span
  | .hidden body span => .hidden body.withoutNamed span
  | .app fn _ args span =>
    .app fn.withoutNamed [] (withoutNamedAll args) span
  | .lam binder type body span =>
    .lam binder type.withoutNamed body.withoutNamed span
  | .pi plicity binder type body span =>
    .pi plicity binder type.withoutNamed body.withoutNamed span

/-- Positional arguments without what is given by name in them. -/
def withoutNamedAll : List Term → List Term
  | [] => []
  | t :: ts => t.withoutNamed :: withoutNamedAll ts

end

end Term

open Term

namespace Registry

section
variable (r : Registry)

mutual

/-- Completion changes arguments by name only. -/
theorem withoutNamed_supplyUnder (bound : List Name) (t : Term) :
    (r.supplyUnder bound t).withoutNamed = t.withoutNamed := by
  cases t with
  | ref | hole | set => simp only [supplyUnder]
  | quote t | hidden t =>
      simp only [supplyUnder, withoutNamed, withoutNamed_supplyUnder bound t]
  | app fn xs ts =>
      simp only [supplyUnder]
      -- a head that is a definition stays as it is
      cases definitionHead? bound fn with
      | some x =>
          simp only [withoutNamed, withoutNamedAll_supplyAll bound ts]
      | none =>
          simp only [withoutNamed, withoutNamed_supplyUnder bound fn,
            withoutNamedAll_supplyAll bound ts]
  | lam x t b | pi p x t b =>
      simp only [supplyUnder, withoutNamed, withoutNamed_supplyUnder bound t,
        withoutNamed_supplyUnder (x :: bound) b]

/-- The same of positional arguments. -/
theorem withoutNamedAll_supplyAll (bound : List Name) (ts : List Term) :
    withoutNamedAll (r.supplyAll bound ts) = withoutNamedAll ts := by
  cases ts with
  | nil => simp only [supplyAll]
  | cons t ts =>
      simp only [supplyAll, withoutNamedAll, withoutNamed_supplyUnder bound t,
        withoutNamedAll_supplyAll bound ts]

end

/-- Completing a term a second time changes nothing, and the first time
it changes nothing but the arguments that are given by name: without
these the term and its completion are one, with the same spans. -/
theorem supply_idempotent (t : Term) :
    r.supply (r.supply t) = r.supply t
      ∧ (r.supply t).withoutNamed = t.withoutNamed :=
  ⟨r.supply_supply t, r.withoutNamed_supplyUnder [] t⟩

end

-- ====================================================== free names

/-- The registries say the same of every name in the list that is not
bound. -/
def SameFree (r r' : Registry) (bound names : List Name) : Prop :=
  ∀ x ∈ names, x ∉ bound → r.implicitsOf x = r'.implicitsOf x

section
variable {r r' : Registry} {bound names names' : List Name}

theorem SameFree.left (h : SameFree r r' bound (names ++ names')) :
    SameFree r r' bound names :=
  fun x hx => h x (List.mem_append_left _ hx)

theorem SameFree.right (h : SameFree r r' bound (names ++ names')) :
    SameFree r r' bound names' :=
  fun x hx => h x (List.mem_append_right _ hx)

/-- What a binder's scope leaves free, the binder apart, is all that has
to agree in the scope: its own name is bound there. -/
theorem SameFree.scope {binder : Name}
    (h : SameFree r r' bound (names.filter (· ≠ binder))) :
    SameFree r r' (binder :: bound) names := by
  intro x hx unbound
  rw [List.mem_cons, not_or] at unbound
  apply h x _ unbound.2
  exact List.mem_filter.2 ⟨hx, decide_eq_true unbound.1⟩

/-- Arguments are completed alike for a name of which both registries say
the same. -/
theorem completeFor_eq {x : Name} (same : r.implicitsOf x = r'.implicitsOf x)
    (given : List (Name × Term)) :
    r.completeFor x given = r'.completeFor x given := by
  unfold completeFor
  rw [same]

/-- A head that counts as a definition is free. -/
theorem mem_occurrences_of_definitionHead? {x : Name} {fn : Term}
    (h : definitionHead? bound fn = some x) :
    x ∈ fn.occurrences ∧ x ∉ bound := by
  cases fn with
  | ref y σ =>
      by_cases there : y ∈ bound
      · simp [definitionHead?, there] at h
      · obtain rfl : y = x := by simpa [definitionHead?, there] using h
        exact ⟨by simp [occurrences], there⟩
  | _ => cases h

mutual

/-- Registries that say the same of what a term leaves free complete it
alike, whatever is bound around it. -/
theorem supplyUnder_eq_of_sameFree (bound : List Name) (t : Term)
    (same : SameFree r r' bound t.occurrences) :
    r.supplyUnder bound t = r'.supplyUnder bound t := by
  cases t with
  | ref | hole | set => simp only [supplyUnder]
  | quote t | hidden t =>
      rw [occurrences] at same
      simp only [supplyUnder, supplyUnder_eq_of_sameFree bound t same]
  | app fn xs ts =>
      rw [occurrences] at same
      have inHead := same.left.left
      have inNamed := supplyNamed_eq_of_sameFree bound xs same.left.right
      have inArgs := supplyAll_eq_of_sameFree bound ts same.right
      simp only [supplyUnder, inNamed, inArgs]
      cases head : definitionHead? bound fn with
      | some x =>
          obtain ⟨free, unbound⟩ := mem_occurrences_of_definitionHead? head
          simp only [completeFor_eq (inHead x free unbound)]
      | none =>
          simp only [supplyUnder_eq_of_sameFree bound fn inHead]
  | lam x t b | pi p x t b =>
      rw [occurrences] at same
      have inType := supplyUnder_eq_of_sameFree bound t same.left
      have inScope :=
        supplyUnder_eq_of_sameFree (x :: bound) b same.right.scope
      simp only [supplyUnder, inType, inScope]

/-- The same of positional arguments. -/
theorem supplyAll_eq_of_sameFree (bound : List Name) (ts : List Term)
    (same : SameFree r r' bound (occurrencesAll ts)) :
    r.supplyAll bound ts = r'.supplyAll bound ts := by
  cases ts with
  | nil => simp only [supplyAll]
  | cons t ts =>
      rw [occurrencesAll] at same
      simp only [supplyAll, supplyUnder_eq_of_sameFree bound t same.left,
        supplyAll_eq_of_sameFree bound ts same.right]

/-- The same of named arguments. -/
theorem supplyNamed_eq_of_sameFree (bound : List Name)
    (ts : List (Name × Term))
    (same : SameFree r r' bound (occurrencesNamed ts)) :
    r.supplyNamed bound ts = r'.supplyNamed bound ts := by
  match ts with
  | [] => simp only [supplyNamed]
  | (x, t) :: ts =>
      rw [occurrencesNamed] at same
      simp only [supplyNamed, supplyUnder_eq_of_sameFree bound t same.left,
        supplyNamed_eq_of_sameFree bound ts same.right]

end

/-- The free names are those that occur free. -/
theorem sameFree_occurrences {t : Term}
    (h : SameFree r r' bound t.freeNames) :
    SameFree r r' bound t.occurrences :=
  fun x hx => h x (t.mem_freeNames.2 hx)

end

/-- Two registries that say the same of the free names of a term complete
it alike. So they do under binders, as completion meets the parts of a
term, and there they may differ on every name that is bound: no part of a
binder's scope is completed by what is defined under the binder's
name. -/
theorem supply_eq_of_freeNames (r r' : Registry) (t : Term) :
    ((∀ x ∈ t.freeNames, r.implicitsOf x = r'.implicitsOf x) →
        r.supply t = r'.supply t)
      ∧ ∀ bound, (∀ x ∈ t.freeNames, x ∉ bound →
          r.implicitsOf x = r'.implicitsOf x) →
        r.supplyUnder bound t = r'.supplyUnder bound t := by
  have under (bound : List Name)
      (same : ∀ x ∈ t.freeNames, x ∉ bound →
        r.implicitsOf x = r'.implicitsOf x) :
      r.supplyUnder bound t = r'.supplyUnder bound t :=
    supplyUnder_eq_of_sameFree bound t (sameFree_occurrences same)
  exact ⟨fun same => under [] fun x hx _ => same x hx, under⟩

/-- A variable under the name of a definition: that only one registry has
the definition makes no difference, neither to the whole term nor to the
application of the variable, which stands in the type of a binder within
the variable's scope. -/
theorem supply_eq_of_freeNames_shadowed :
    let f := Name.ofText "f"
    let g := Name.ofText "g"
    let call : Term := .app (.ref f none) [] [.ref g none] none
    let t : Term := .app (.ref g none) []
      [.lam f (.set none) (.pi .explicit g call (.set none) none) none] none
    let r' : Registry := Registry.define {} g [.ofText "a"]
    let r : Registry := r'.define f [.ofText "b"]
    (r.implicitsOf f ≠ r'.implicitsOf f ∧ t.freeNames = [g])
      ∧ r.supply t = r'.supply t
      ∧ r.supplyUnder [f] call = r'.supplyUnder [f] call := by
  intro f g call t r' r
  have free : t.freeNames = [g] := by decide +kernel
  have same : r.implicitsOf g = r'.implicitsOf g := by decide +kernel
  refine ⟨⟨by decide +kernel, free⟩, ?_, ?_⟩
  · apply (supply_eq_of_freeNames r r' t).1
    rw [free]
    exact List.forall_mem_singleton.2 same
  · apply (supply_eq_of_freeNames r r' call).2 [f]
    have names : call.freeNames = [f, g] := by decide +kernel
    rw [names]
    simp [same]

end Registry

end DepLang

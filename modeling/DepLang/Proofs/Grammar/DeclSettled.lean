/-
The declarations that are told by their text. A declaration that is read
is a canonical one, up to its outline, but for what can be written and
is not printed as it was. Its terms must be settled, as any term must
be, and name arguments by words. A name that a type binds at its front,
with its own type left open, must not be bound there again, or the second
binding is recorded once more when the type is read again. And of the
arguments of clauses, a hidden one must not be a quotation, and an
operand of a defined operator must be neither hidden nor print as an
application (`Decl.Written.canonical`).
-/
import DepLang.Proofs.Grammar.Enacted
import DepLang.Proofs.Printer.DeclCanonical

namespace DepLang

open DepLang.Grammar

-- ======================================================== conditions

namespace Term

/-- Does the term hide a quotation? -/
def hidesQuote : Term → Bool
  | .hidden body _ => body.isQuote
  | _ => false

/-- Is the term hidden? -/
def isHidden : Term → Bool
  | .hidden _ _ => true
  | _ => false

/-- The left side of a clause prints so that it can be read. -/
def SettledLeft (table : FixityTable) : Term → Prop
  | .app fn named args _ =>
    (∀ a ∈ named, a.2.Settled table)
      ∧ (∀ a ∈ args, a.Settled table ∧ a.hidesQuote = false)
      ∧ ((infixOperator? fn named args).isSome →
        ∀ a ∈ args, a.isHidden = false ∧ a.precedence ≠ .application)
  | _ => True

/-- The type prints so that it can be read, and closing what is read
records nothing more. -/
def SettledType (table : FixityTable) (t : Term) : Prop :=
  t.Settled table ∧ t.Legible ∧ t.BoundOnce

end Term

/-- Both sides of the clause print so that they can be read. -/
def Clause.Settled (table : FixityTable) (c : Clause) : Prop :=
  (c.lhs.SettledLeft table ∧ c.lhs.Legible)
    ∧ c.rhs.Settled table ∧ c.rhs.Legible

/-- The declaration prints so that it can be read. -/
def Decl.Settled (table : FixityTable) : Decl → Prop
  | .fixity _ _ => True
  | .signature _ t => t.SettledType table
  | .data ⟨_, t, constructors⟩ =>
    t.SettledType table ∧ ∀ a ∈ constructors, a.2.SettledType table
  | .clauses _ group => ∀ c ∈ group, c.Settled table

/-- The declarations print so that they can be read one after another,
each under the operators declared before it. -/
def Decl.AllSettled (table : FixityTable) : List Decl → Prop
  | [] => True
  | d :: ds => d.Settled table ∧ AllSettled (table.after d) ds

namespace Term

instance (table : FixityTable) : DecidablePred (Settled table) :=
  fun t => inferInstanceAs (Decidable (∀ u ∈ t.subterms, _ ∧ _))

instance (table : FixityTable) : DecidablePred (SettledLeft table)
  | .app _ _ _ _ => inferInstanceAs (Decidable (_ ∧ _ ∧ (_ → _)))
  | .ref _ _ | .hole _ | .set _ | .quote _ _ | .hidden _ _
  | .lam _ _ _ _ | .pi _ _ _ _ _ => isTrue trivial

instance decidableBoundOnce : DecidablePred BoundOnce
  | .pi .implicit _ (.hole _) body _ =>
    let := decidableBoundOnce body
    inferInstanceAs (Decidable (_ ∉ _ ∧ _))
  | .pi .implicit _ (.ref _ _) body _ | .pi .implicit _ (.set _) body _
  | .pi .implicit _ (.quote _ _) body _
  | .pi .implicit _ (.hidden _ _) body _
  | .pi .implicit _ (.app _ _ _ _) body _
  | .pi .implicit _ (.lam _ _ _ _) body _
  | .pi .implicit _ (.pi _ _ _ _ _) body _ => decidableBoundOnce body
  | .pi .explicit _ _ _ _ | .ref _ _ | .hole _ | .set _ | .quote _ _
  | .hidden _ _ | .app _ _ _ _ | .lam _ _ _ _ => isTrue trivial

instance (table : FixityTable) : DecidablePred (SettledType table) :=
  fun _ => inferInstanceAs (Decidable (_ ∧ _ ∧ _))

end Term

instance (table : FixityTable) : DecidablePred (Clause.Settled table) :=
  fun _ => inferInstanceAs (Decidable (_ ∧ _))

instance (table : FixityTable) : DecidablePred (Decl.Settled table)
  | .fixity _ _ => isTrue trivial
  | .signature _ t => inferInstanceAs (Decidable (t.SettledType table))
  | .data ⟨_, _, _⟩ => inferInstanceAs (Decidable (_ ∧ _))
  | .clauses _ group =>
    inferInstanceAs (Decidable (∀ c ∈ group, c.Settled table))

instance Decl.decidableAllSettled :
    ∀ table : FixityTable, DecidablePred (Decl.AllSettled table)
  | _, [] => isTrue trivial
  | table, d :: ds =>
    let := decidableAllSettled (table.after d) ds
    inferInstanceAs (Decidable (_ ∧ _))

namespace Decl

theorem allSettled_clauses_append {table : FixityTable} {ds : List Decl}
    (group : List Clause) :
    AllSettled table ((group.map fun c => .clauses c.head [c]) ++ ds)
      ↔ (∀ c ∈ group, c.Settled table) ∧ AllSettled table ds := by
  induction group with
  | nil => simp
  | cons c group ih =>
      show (∀ c' ∈ [c], c'.Settled table) ∧ AllSettled table
        ((group.map fun c => .clauses c.head [c]) ++ ds) ↔ _
      rw [ih, List.forall_mem_singleton, List.forall_mem_cons, and_assoc]

/-- Whether declarations are settled does not depend on how their clauses
are grouped. -/
theorem allSettled_ungroup (decls : List Decl) :
    ∀ table : FixityTable,
      AllSettled table (ungroup decls) ↔ AllSettled table decls := by
  induction decls with
  | nil => exact fun table => Iff.rfl
  | cons d ds ih =>
      intro table
      cases d with
      | clauses x group =>
          exact (allSettled_clauses_append group).trans
            (and_congr_right fun _ => ih table)
      | _ => exact and_congr_right fun _ => ih _

theorem allSettled_group (decls : List Decl) (table : FixityTable) :
    AllSettled table (group decls) ↔ AllSettled table decls := by
  rw [← allSettled_ungroup, ungroup_group, allSettled_ungroup]

end Decl

-- ========================================================= canonical

theorem Term.isOperator_of_infixOperator? {fn : Term}
    {named : List (Name × Term)} {args : List Term} {op : Name}
    (h : infixOperator? fn named args = some op) :
    op.isOperator = true := by
  unfold infixOperator? at h
  split at h
  · split at h
    next operator =>
      cases h
      exact operator
    next => cases h
  · cases h

section
variable {table : FixityTable} {r : Registry}

/-- Completing keeps written arguments, hidden or not. -/
theorem Term.MayHide.supply {t : Term}
    (h : t.MayHide (Term.Written table)) :
    (r.supply t).MayHide (Term.Written table) := by
  cases h with
  | shown h => exact .shown (h.supplyUnder [])
  | hidden h =>
      rw [Registry.supply, Registry.supplyUnder]
      exact .hidden (h.supplyUnder [])

/-- Completing keeps written clauses. -/
theorem Clause.Written.supply {c : Clause} (h : c.Written table) :
    (c.mapTerms r.supply).Written table := by
  cases h with
  | @intro x named args rhs target values each body =>
      have given := Term.written_supplyNamed (r := r)
        fun a ha => (values a ha).supplyUnder []
      have lhs : r.supply (.app (.ref x none) named args none)
          = .app (.ref x none) (r.completeFor x (r.supplyNamed [] named))
            (r.supplyAll [] args) none := by
        simp [Registry.supply, Registry.supplyUnder,
          Registry.definitionHead?]
      rw [Clause.mapTerms, lhs]
      refine .intro target (Term.written_completeFor given) ?_
        (body.supplyUnder [])
      rw [Registry.supplyAll_eq_map]
      exact List.forall_mem_map.2 fun t ht => (each t ht).supply

variable (free : ∀ e ∈ table, IsFreeOperator e.symbol)
include free

/-- An argument of a settled clause has a canonical outline. -/
theorem Term.MayHide.canonical {t : Term}
    (h : t.MayHide (Term.Written table)) (legible : t.Legible)
    (settled : t.Settled table) (apart : t.hidesQuote = false) :
    t.outline.CanonicalArgument table := by
  cases h with
  | shown h => exact .shown (h.canonical free legible settled)
  | @hidden body σ h =>
      simp only [Term.Settled, Term.Legible, Term.subterms,
        List.forall_mem_cons] at settled legible
      have same : body.outline.isQuote = body.isQuote := by
        cases body <;> rfl
      exact .hidden (h.canonical free legible.2 settled.2)
        (same.trans apart)

/-- A settled written clause has a canonical outline. -/
theorem Clause.Written.canonical {c : Clause} (h : c.Written table)
    (settled : c.Settled table) :
    (c.mapTerms Term.outline).Canonical table := by
  cases h with
  | @intro x named args rhs target values each body =>
      obtain ⟨⟨⟨inNamed, inArgs, operands⟩, left⟩, inRhs, right⟩ :=
        settled
      simp only [Term.Legible, Term.subterms,
        Term.subtermsNamed_eq_flatMap, Term.subtermsAll_eq_flatMap,
        List.forall_mem_cons, List.forall_mem_append,
        List.forall_mem_flatMap] at left
      obtain ⟨⟨words, -⟩, ⟨-, legibleNamed⟩, legibleArgs⟩ := left
      have rhs := body.canonical free right inRhs
      rw [Clause.mapTerms, Term.outline, Term.outline]
      cases shown : Term.infixOperator? (.ref x none) named args with
      | none =>
          rw [← Term.infixOperator?_outline] at shown
          refine .function target shown ?_ ?_ ?_ rhs
          · rw [Term.outlineNamed_eq_map]
            exact List.forall_mem_map.2 words
          · rw [Term.outlineNamed_eq_map]
            exact List.forall_mem_map.2 fun a ha =>
              (values a ha).canonical free (legibleNamed a ha)
                (inNamed a ha)
          · rw [Term.outlineAll_eq_map]
            exact List.forall_mem_map.2 fun t ht =>
              (each t ht).canonical free (legibleArgs t ht)
                (inArgs t ht).1 (inArgs t ht).2
      | some op =>
          have bare := operands (by rw [shown]; rfl)
          have operator := Term.isOperator_of_infixOperator? shown
          obtain ⟨head, y, z, same, rfl, rfl⟩ :=
            Term.eq_of_infixOperator? shown
          cases same
          obtain ⟨text, rfl, word | freeOp⟩ := target
          · rw [word.isOperator] at operator
            cases operator
          · have operand (t : Term) (ht : t ∈ [y, z]) :
                t.outline.Canonical table
                  ∧ t.outline.precedence ≠ .application := by
              obtain ⟨seen, apart⟩ := bare t ht
              refine ⟨?_, t.precedence_outline ▸ apart⟩
              cases each t ht with
              | shown h =>
                  exact h.canonical free (legibleArgs t ht)
                    (inArgs t ht).1
              | hidden => cases seen
            obtain ⟨left, right⟩ : _ ∧ _ :=
              ⟨operand y (by simp), operand z (by simp)⟩
            exact .operator freeOp left.1 right.1 ⟨left.2, right.2⟩ rhs

/-- A completed closed type is canonical, up to its outline, once it is
settled. -/
theorem canonical_of_closed {t : Term} (h : t.Written table)
    (settled : (r.supply t).SettledType table) :
    (r.supply t).outline.Canonical table :=
  (h.supplyUnder []).canonical free settled.2.1 settled.1

end

theorem Registry.written_declareTyped {table : FixityTable}
    (free : ∀ e ∈ table, IsFreeOperator e.symbol)
    {types : List (Name × Term)}
    (each : ∀ a ∈ types, IsTarget a.1 ∧ a.2.Written table) :
    ∀ r : Registry, ∀ a ∈ (r.declareTyped types).1,
      IsTarget a.1 ∧ a.2.Written table := by
  induction types with
  | nil => exact fun r a ha => by cases ha
  | cons a types ih =>
      obtain ⟨⟨target, written⟩, others⟩ := List.forall_mem_cons.1 each
      exact fun r => List.forall_mem_cons.2
        ⟨⟨target, r.written_generalise free written⟩, ih others _⟩

/-- A declaration that was written, enacted and completed is canonical,
up to its outline, once it is settled. -/
theorem Decl.Written.canonical {r : Registry}
    (free : ∀ e ∈ r.fixities, IsFreeOperator e.symbol)
    {raw : Decl} (h : raw.Written r.fixities)
    (settled : ((r.enact raw).1.mapTerms (r.enact raw).2.supply).Settled
      r.fixities) :
    ((r.enact raw).1.mapTerms (r.enact raw).2.supply).outline.Canonical
      r.fixities := by
  cases h with
  | fixity short some_symbol symbols =>
      exact .fixity short some_symbol symbols
  | signature target type =>
      exact .signature target (canonical_of_closed free
        (Registry.written_generalise free type) settled)
  | @data x t constructors target kind some_constructor each =>
      obtain ⟨inKind, inConstructors⟩ := settled
      refine .data target (canonical_of_closed free
        (Registry.written_generalise free kind) inKind) ?_ ?_
      · obtain ⟨a, others, rfl⟩ :=
          List.exists_cons_of_ne_nil some_constructor
        exact List.cons_ne_nil _ _
      · refine List.forall_mem_map.2 <| List.forall_mem_map.2
          fun a ha => ?_
        obtain ⟨named, written⟩ :=
          Registry.written_declareTyped free each _ a ha
        exact ⟨named, canonical_of_closed free written <|
          inConstructors _ <| List.mem_map_of_mem ha⟩
  | clause h =>
      have clause := h.supply.canonical free
        (List.forall_mem_singleton.1 settled)
      exact .clause clause

end DepLang

/-
What is declared, up to outlines. Which name the machine gives a binder
has no effect: the free names of a proper term are those of its outline,
in the same order, so both are closed over the same names, record the
same for the defined name, and are completed alike. Hence two
declarations of one outline, whichever way they were put together, leave
the same registry and are enacted and completed to the same outline
(`Registry.enact_of_outline`).
-/
import DepLang.Proofs.Reader.WellFormed

namespace DepLang

open DepLang.Grammar DepLang.Term

-- ============================================================ terms

namespace Term

variable {t u : Term}

theorem occurrencesAll_eq_flatMap (ts : List Term) :
    occurrencesAll ts = ts.flatMap occurrences := by
  induction ts with
  | nil => rfl
  | cons t ts ih => rw [occurrencesAll, List.flatMap_cons, ih]

theorem occurrencesNamed_eq_flatMap (ts : List (Name × Term)) :
    occurrencesNamed ts = ts.flatMap fun a => a.2.occurrences := by
  induction ts with
  | nil => rfl
  | cons a ts ih => rw [occurrencesNamed, List.flatMap_cons, ih]

theorem span_outline (t : Term) : t.outline.span = none := by
  cases t <;> rfl

/-- The outline of a proper term refers to the same names, in the same
order. -/
theorem Proper.occurrences_outline (h : t.Proper) :
    t.outline.occurrences = t.occurrences := by
  induction h with
  | ref | hole | set => rfl
  | quote _ inner => rw [outline, occurrences, occurrences, inner]
  | app _ _ _ _ head values each =>
      rw [outline, occurrences, occurrences, head, outlineNamed_eq_map,
        outlineAll_eq_map, occurrencesNamed_eq_flatMap,
        occurrencesNamed_eq_flatMap, occurrencesAll_eq_flatMap,
        occurrencesAll_eq_flatMap, List.flatMap_map, List.flatMap_map]
      congr 1
      · exact congrArg _ (List.flatMap_congr fun a ha => values a ha)
      · exact List.flatMap_congr fun a ha => each a ha
  | lam _ _ domain inner =>
      rw [outline, occurrences, occurrences, domain, inner]
  | @pi p x _ body _ _ scope domain inner =>
      rw [outline, occurrences, occurrences, domain, inner]
      congr 1
      refine List.filter_congr fun y hy => ?_
      -- a user's name is no binder of the machine's, whichever that is
      obtain ⟨segments, rfl⟩ := scope.user_of_mem hy
      cases p <;> cases x <;> simp [outlineBinder, arrowBinder]

theorem outline_bindImplicits (names : List Name) (t : Term) :
    (t.bindImplicits names).outline = t.outline.bindImplicits names := by
  unfold bindImplicits
  rw [span_outline]
  induction names with
  | nil => rfl
  | cons x names ih =>
      rw [List.foldr_cons, List.foldr_cons, outline, ih]
      rfl

end Term

-- ==================================================== declarations

/-- What is done to a declaration's terms depends on these only. -/
theorem Decl.mapTerms_congr {f g : Term → Term} {d : Decl}
    (same : ∀ t ∈ d.terms, f t = g t) : d.mapTerms f = d.mapTerms g := by
  cases d with
  | fixity => rfl
  | signature x t =>
      rw [mapTerms, mapTerms, same t List.mem_cons_self]
  | data type =>
      obtain ⟨kind, each⟩ := List.forall_mem_cons.1 same
      rw [List.forall_mem_map] at each
      rw [mapTerms, mapTerms, DataType.mapTerms, DataType.mapTerms, kind]
      congr 2
      exact List.map_congr_left fun c hc => Prod.ext rfl (each c hc)
  | clauses x group =>
      rw [mapTerms, mapTerms]
      congr 1
      refine List.map_congr_left fun c hc => ?_
      have side (t : Term) (ht : t ∈ [c.lhs, c.rhs]) : f t = g t :=
        same t (List.mem_flatMap.2 ⟨c, hc, ht⟩)
      rw [Clause.mapTerms, Clause.mapTerms, side _ (by simp),
        side _ (by simp)]

/-- A proper declaration refers to names of the user's only, even where
its clause hides an argument. -/
theorem Decl.Proper.refersToUser {d : Decl} (h : d.Proper) :
    ∀ t ∈ d.terms, t.RefersToUser := by
  cases h with
  | fixity => exact fun t ht => by cases ht
  | signature type => exact List.forall_mem_singleton.2 type.refersToUser
  | data kind each =>
      refine List.forall_mem_cons.2 ⟨kind.refersToUser, ?_⟩
      exact List.forall_mem_map.2 fun c hc => (each c hc).refersToUser
  | clause h =>
      obtain ⟨left, right⟩ := h.uncaptured
      simpa [terms] using ⟨left.refers, right.refers⟩

-- ======================================================= registries

namespace Registry

variable {t : Term} (r : Registry)

/-- Closing a proper type and taking its outline, in either order. -/
theorem generalise_outline (h : t.Proper) :
    r.generalise t.outline
      = ((r.generalise t).1.outline, (r.generalise t).2) := by
  have new : r.newImplicits t.outline = r.newImplicits t := by
    rw [newImplicits, newImplicits, freeNames_eq, freeNames_eq,
      h.occurrences_outline]
  rw [generalise, generalise, new, leadingImplicits_outline,
    outline_bindImplicits]

theorem declare_outline (x : Name) (h : t.Proper) :
    r.declare x t.outline = r.declare x t := by
  rw [declare, declare, r.generalise_outline h]

theorem declareTyped_outline {types : List (Name × Term)}
    (each : ∀ a ∈ types, a.2.Proper) :
    ∀ r : Registry,
      r.declareTyped (types.map fun (x, t) => (x, t.outline))
        = ((r.declareTyped types).1.map fun (x, t) => (x, t.outline),
          (r.declareTyped types).2) := by
  induction types with
  | nil => exact fun r => rfl
  | cons a types ih =>
      intro r
      obtain ⟨x, t⟩ := a
      obtain ⟨type, others⟩ := List.forall_mem_cons.1 each
      rw [List.map_cons, declareTyped, r.declare_outline x type,
        r.generalise_outline type, ih others, declareTyped]
      rfl

/-- Enacting a proper declaration and taking its outline, in either
order. -/
theorem enact_outline {d : Decl} (h : d.Proper) :
    r.enact d.outline = ((r.enact d).1.outline, (r.enact d).2) := by
  cases h with
  | fixity => rfl
  | @signature x t type =>
      simp only [Decl.outline, Decl.mapTerms, enact,
        r.generalise_outline type, r.declare_outline x type]
  | @data x t constructors kind each =>
      simp only [Decl.outline, Decl.mapTerms, DataType.mapTerms, enact,
        r.generalise_outline kind, r.declare_outline x kind,
        declareTyped_outline each]
  | clause => rfl

/-- Completing a declaration and taking its outline, in either order. -/
theorem outline_mapTerms_supply {d : Decl}
    (user : ∀ t ∈ d.terms, t.RefersToUser) :
    (d.mapTerms r.supply).outline = d.outline.mapTerms r.supply := by
  have same (t : Term) (h : t.RefersToUser) :
      (r.supply t).outline = r.supply t.outline :=
    r.outline_supplyUnder (fun _ => Iff.rfl) t h
  unfold Decl.outline
  rw [Decl.mapTerms_mapTerms, Decl.mapTerms_mapTerms]
  exact Decl.mapTerms_congr fun t ht => same t (user t ht)

theorem enact_proper {d : Decl} (h : d.Proper) :
    (r.enact d).1.Proper := by
  cases h with
  | fixity => exact .fixity
  | signature type => exact .signature (type.generalise r)
  | data kind each =>
      exact .data (kind.generalise r) (proper_declareTyped each _)
  | clause h => exact .clause h

/-- Proper declarations of one outline do the same, and are the same up
to their outlines. -/
theorem enact_of_outline {d d' : Decl} (h : d.Proper) (h' : d'.Proper)
    (same : d.outline = d'.outline) :
    (r.enact d).2 = (r.enact d').2
      ∧ ∀ last : Registry, ((r.enact d).1.mapTerms last.supply).outline
        = ((r.enact d').1.mapTerms last.supply).outline := by
  have both : ((r.enact d).1.outline, (r.enact d).2)
      = ((r.enact d').1.outline, (r.enact d').2) := by
    rw [← r.enact_outline h, ← r.enact_outline h', same]
  obtain ⟨outlines, registries⟩ := Prod.mk.inj both
  refine ⟨registries, fun last => ?_⟩
  rw [last.outline_mapTerms_supply (r.enact_proper h).refersToUser,
    last.outline_mapTerms_supply (r.enact_proper h').refersToUser, outlines]

end Registry

end DepLang

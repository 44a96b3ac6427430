/-
The parts of a term by where they stand. A path leads into a term step by
step, and to the part at its end belong the names that are bound there.
Every part of a term is at the end of a path (`mem_subterms_iff_partAt?`).

An argument that is given by name is told by its name and by how many
arguments of this name stand behind it, not by its place among all of
them: so it is found again where other names have come between.
-/
import DepLang.Proofs.Term.Spans

namespace DepLang.Term

-- =================================================== named arguments

/-- The values given under a name, the last one first. -/
def valuesOf (x : Name) (given : List (Name × Term)) : List Term :=
  given.reverse.filterMap fun a => if a.1 = x then some a.2 else none

section
variable {x : Name} {given : List (Name × Term)}

theorem valuesOf_append (more : List (Name × Term)) :
    valuesOf x (given ++ more) = valuesOf x more ++ valuesOf x given := by
  simp [valuesOf]

theorem mem_valuesOf {t : Term} :
    t ∈ valuesOf x given ↔ (x, t) ∈ given := by
  simp only [valuesOf, List.mem_filterMap, List.mem_reverse,
    Option.ite_none_right_eq_some, Option.some.injEq]
  constructor
  · rintro ⟨a, ha, rfl, rfl⟩
    exact ha
  · intro h
    exact ⟨_, h, rfl, rfl⟩

/-- The last value given under a name is what a look-up from behind
finds. -/
theorem head?_valuesOf :
    (valuesOf x given).head? = given.reverse.lookup x := by
  unfold valuesOf
  induction given.reverse with
  | nil => rfl
  | cons a rest ih =>
      rw [List.filterMap_cons, List.lookup_cons]
      by_cases same : a.1 = x
      · simp [same]
      · have other : (x == a.1) = false := by simpa using Ne.symm same
        rw [if_neg same, other]
        exact ih

theorem valuesOf_map (f : Term → Term) :
    valuesOf x (given.map (Prod.map id f)) = (valuesOf x given).map f := by
  unfold valuesOf
  rw [← List.map_reverse, List.filterMap_map, List.map_filterMap]
  apply List.filterMap_congr
  intro a _
  by_cases same : a.1 = x <;> simp [same]

/-- One value for each of a list of names. -/
theorem valuesOf_map_pair (v : Name → Term) (names : List Name) :
    valuesOf x (names.map fun y => (y, v y))
      = List.replicate (names.count x) (v x) := by
  induction names with
  | nil => rfl
  | cons y names ih =>
      have first : (y :: names).map (fun y => (y, v y))
          = [(y, v y)] ++ names.map fun y => (y, v y) := rfl
      rw [first, valuesOf_append, ih, List.count_cons]
      by_cases same : y = x
      · subst same
        simp [valuesOf, List.replicate_succ']
      · simp [valuesOf, same]

theorem valuesOf_filter (p : Name → Bool) :
    valuesOf x (given.filter fun a => p a.1)
      = if p x then valuesOf x given else [] := by
  unfold valuesOf
  rw [← List.filter_reverse, List.filterMap_filter]
  by_cases kept : p x
  · rw [if_pos kept]
    apply List.filterMap_congr
    intro a _
    by_cases same : a.1 = x <;> simp [same, kept]
  · rw [if_neg kept, List.filterMap_eq_nil_iff]
    intro a _
    by_cases same : a.1 = x <;> simp [same, kept]

end

-- ============================================================ paths

/-- A step from a term to one of its parts. -/
inductive Step where
  | head
  | named (name : Name) (behind : Nat)
  | arg (index : Nat)
  | type
  | body
  deriving DecidableEq

/-- The part that a step leads to, and the names that are bound there and
not around the term. -/
def part? : Term → Step → Option (List Name × Term)
  | .app fn _ _ _, .head => some ([], fn)
  | .app _ named _ _, .named x behind =>
    (valuesOf x named)[behind]?.map fun t => ([], t)
  | .app _ _ args _, .arg i => args[i]?.map fun t => ([], t)
  | .lam _ type _ _, .type | .pi _ _ type _ _, .type => some ([], type)
  | .lam x _ body _, .body | .pi _ x _ body _, .body => some ([x], body)
  | .quote body _, .body | .hidden body _, .body => some ([], body)
  | _, _ => none

/-- The part at the end of a path and all names that are bound there, the
innermost first, if some are bound around the term already. -/
def partAt? (bound : List Name) (t : Term) :
    List Step → Option (List Name × Term)
  | [] => some (bound, t)
  | step :: path =>
    match t.part? step with
    | some (binders, u) => partAt? (binders ++ bound) u path
    | none => none

variable {t u c : Term} {bound : List Name} {path : List Step}

theorem partAt?_cons {step : Step} {binders : List Name}
    (h : t.part? step = some (binders, c)) :
    partAt? bound t (step :: path) = partAt? (binders ++ bound) c path := by
  rw [partAt?, h]

/-- A step leads to a term right under a node. -/
theorem mem_children_of_part? {step : Step} {binders : List Name}
    (h : t.part? step = some (binders, c)) : c ∈ t.children := by
  cases t with
  | app fn named args σ =>
      cases step with
      | head =>
          cases h
          exact List.mem_cons_self
      | named x behind =>
          obtain ⟨v, found, same⟩ := Option.map_eq_some_iff.1 h
          cases same
          have given := mem_valuesOf.1 (List.mem_of_getElem? found)
          refine List.mem_cons_of_mem _ (List.mem_append_left _ ?_)
          exact List.mem_map.2 ⟨_, given, rfl⟩
      | arg i =>
          obtain ⟨v, found, same⟩ := Option.map_eq_some_iff.1 h
          cases same
          refine List.mem_cons_of_mem _ (List.mem_append_right _ ?_)
          exact List.mem_of_getElem? found
      | type | body => cases h
  | quote body σ | hidden body σ | lam x type body σ
  | pi p x type body σ =>
      cases step <;> cases h <;> simp [children]
  | ref | hole | set => cases step <;> cases h

/-- A term right under a node is a step away. -/
theorem exists_part?_of_mem_children (h : c ∈ t.children) :
    ∃ step binders, t.part? step = some (binders, c) := by
  cases t with
  | app fn named args σ =>
      rcases List.mem_cons.1 h with rfl | h
      · exact ⟨.head, [], rfl⟩
      rcases List.mem_append.1 h with h | h
      · obtain ⟨⟨x, v⟩, given, rfl⟩ := List.mem_map.1 h
        obtain ⟨i, found⟩ := List.mem_iff_getElem?.1 (mem_valuesOf.2 given)
        exact ⟨.named x i, [], by rw [part?, found]; rfl⟩
      · obtain ⟨i, found⟩ := List.mem_iff_getElem?.1 h
        exact ⟨.arg i, [], by rw [part?, found]; rfl⟩
  | quote body σ | hidden body σ =>
      cases List.mem_singleton.1 h
      exact ⟨.body, [], rfl⟩
  | lam x type body σ | pi p x type body σ =>
      rcases List.mem_cons.1 h with rfl | h
      · exact ⟨.type, [], rfl⟩
      · cases List.mem_singleton.1 h
        exact ⟨.body, [x], rfl⟩
  | ref | hole | set => cases h

theorem sizeOf_lt_of_mem_children (h : c ∈ t.children) :
    sizeOf c < sizeOf t := by
  cases t with
  | app fn named args σ =>
      simp only [app.sizeOf_spec]
      rcases List.mem_cons.1 h with rfl | h
      · omega
      rcases List.mem_append.1 h with h | h
      · obtain ⟨⟨x, v⟩, given, rfl⟩ := List.mem_map.1 h
        have less := List.sizeOf_lt_of_mem given
        simp only [Prod.mk.sizeOf_spec] at less
        dsimp only
        omega
      · have less := List.sizeOf_lt_of_mem h
        omega
  | quote body σ | hidden body σ =>
      cases List.mem_singleton.1 h
      simp only [quote.sizeOf_spec, hidden.sizeOf_spec]
      omega
  | lam x type body σ | pi p x type body σ =>
      simp only [lam.sizeOf_spec, pi.sizeOf_spec]
      rcases List.mem_cons.1 h with rfl | h
      · omega
      · cases List.mem_singleton.1 h
        omega
  | ref | hole | set => cases h

theorem mem_subterms_of_partAt? {bound' : List Name}
    (h : partAt? bound t path = some (bound', u)) : u ∈ t.subterms := by
  induction path generalizing bound t with
  | nil =>
      cases h
      exact mem_subterms_iff.2 (.inl rfl)
  | cons step path ih =>
      rw [partAt?] at h
      split at h
      next binders c found =>
        have under := mem_children_of_part? found
        exact mem_subterms_iff.2 (.inr ⟨c, under, ih h⟩)
      next => cases h

theorem exists_partAt?_of_mem_subterms (bound : List Name) (t : Term)
    (h : u ∈ t.subterms) :
    ∃ path bound', partAt? bound t path = some (bound', u) := by
  rcases mem_subterms_iff.1 h with rfl | ⟨c, under, inside⟩
  · exact ⟨[], bound, rfl⟩
  · obtain ⟨step, binders, found⟩ := exists_part?_of_mem_children under
    have smaller := sizeOf_lt_of_mem_children under
    obtain ⟨path, bound', ends⟩ :=
      exists_partAt?_of_mem_subterms (binders ++ bound) c inside
    exact ⟨step :: path, bound', by rw [partAt?_cons found, ends]⟩
termination_by sizeOf t

/-- The parts of a term are the terms at the ends of paths. -/
theorem mem_subterms_iff_partAt? (bound : List Name) :
    u ∈ t.subterms
      ↔ ∃ path bound', partAt? bound t path = some (bound', u) :=
  ⟨exists_partAt?_of_mem_subterms bound t,
    fun ⟨_, _, found⟩ => mem_subterms_of_partAt? found⟩

end DepLang.Term

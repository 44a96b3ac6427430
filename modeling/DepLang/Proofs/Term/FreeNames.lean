/-
The search for free names finds what occurs free. The walk carries the
names bound around it down and the names found so far along; a free
occurrence is told part by part, with neither. They meet under any
binders: a part adds the names that it leaves free and that are not
bound around it, in reading order, each at its first occurrence
(`search_eq`). From nothing bound and nothing found the walk ends with
the free occurrences, repetitions dropped (`freeNames_eq`).

What is left of a list without its repetitions stands in the order of
first occurrence (`pairwise_eraseDups`), and dropping repetitions
commutes with dropping names.
-/
import DepLang.Term.FreeNames
import Mathlib.Data.List.Basic

namespace DepLang

-- ====================================================== repetitions

section
variable {α : Type} [DecidableEq α]

/-- Repetitions of what is dropped are dropped with it. -/
theorem filter_eraseDups (p : α → Bool) (xs : List α) :
    xs.eraseDups.filter p = (xs.filter p).eraseDups := by
  match xs with
  | [] => rfl
  | x :: xs =>
      have rest := filter_eraseDups p (xs.filter fun y => !y == x)
      have swap : (xs.filter fun y => !y == x).filter p
          = (xs.filter p).filter fun y => !y == x := by
        rw [List.filter_filter, List.filter_filter]
        simp only [Bool.and_comm]
      rw [List.eraseDups_cons]
      by_cases kept : p x
      · rw [List.filter_cons_of_pos kept, List.filter_cons_of_pos kept,
          List.eraseDups_cons, rest, swap]
      · -- no other member that is kept is the one that is dropped
        have others : (xs.filter p).filter (fun y => !y == x)
            = xs.filter p := by
          refine List.filter_eq_self.2 fun y hy => ?_
          have different : y ≠ x := by
            rintro rfl
            exact kept (List.mem_filter.1 hy).2
          simpa using different
        rw [List.filter_cons_of_neg kept, List.filter_cons_of_neg kept,
          rest, swap, others]
termination_by xs.length
decreasing_by
  have shorter := List.length_filter_le (fun y => !y == x) xs
  rw [List.length_cons]
  omega

/-- Members that a list keeps come in the order in which they first came
before. -/
theorem idxOf_lt_of_filter {p : α → Bool} {x y : α} {xs : List α}
    (hx : p x) (hy : p y)
    (h : (xs.filter p).idxOf x < (xs.filter p).idxOf y) :
    xs.idxOf x < xs.idxOf y := by
  induction xs with
  | nil => simp at h
  | cons z xs ih =>
      by_cases first : z = x
      · subst first
        have other : z ≠ y := by
          rintro rfl
          exact Nat.lt_irrefl _ h
        rw [List.idxOf_cons_self, List.idxOf_cons_ne _ other]
        exact Nat.succ_pos _
      · by_cases second : z = y
        · subst second
          rw [List.filter_cons_of_pos hy, List.idxOf_cons_self] at h
          cases h
        · rw [List.idxOf_cons_ne _ first, List.idxOf_cons_ne _ second]
          apply Nat.succ_lt_succ
          apply ih
          by_cases kept : p z
          · rw [List.filter_cons_of_pos kept, List.idxOf_cons_ne _ first,
              List.idxOf_cons_ne _ second] at h
            exact Nat.lt_of_succ_lt_succ h
          · rwa [List.filter_cons_of_neg kept] at h

/-- Without its repetitions a list stands in the order of first
occurrence. -/
theorem pairwise_eraseDups (xs : List α) :
    xs.eraseDups.Pairwise fun x y => xs.idxOf x < xs.idxOf y := by
  match xs with
  | [] => exact .nil
  | x :: xs =>
      have ne_of_mem {y : α}
          (h : y ∈ (xs.filter fun y => !y == x).eraseDups) : y ≠ x := by
        have kept := (List.mem_filter.1 (List.mem_eraseDups.1 h)).2
        simpa using kept
      have rest := pairwise_eraseDups (xs.filter fun y => !y == x)
      rw [List.eraseDups_cons]
      refine List.pairwise_cons.2 ⟨fun y hy => ?_, ?_⟩
      · rw [List.idxOf_cons_self, List.idxOf_cons_ne _ (ne_of_mem hy).symm]
        exact Nat.succ_pos _
      · refine rest.imp_of_mem fun {y z} hy hz lt => ?_
        have ne_y := ne_of_mem hy
        have ne_z := ne_of_mem hz
        rw [List.idxOf_cons_ne _ ne_y.symm, List.idxOf_cons_ne _ ne_z.symm]
        apply Nat.succ_lt_succ
        exact idxOf_lt_of_filter (by simpa using ne_y) (by simpa using ne_z)
          lt
termination_by xs.length
decreasing_by
  have shorter := List.length_filter_le (fun y => !y == x) xs
  rw [List.length_cons]
  omega

end

-- =========================================================== search

namespace Term

/-- Names noted one after another are added in order, each once. -/
theorem foldl_note (names : List Name) :
    ∀ found, names.foldl note found
      = found ++ (names.filter (· ∉ found)).eraseDups := by
  induction names with
  | nil => simp
  | cons x names ih =>
      intro found
      rw [List.foldl_cons, ih]
      by_cases known : x ∈ found
      · have same : note found x = found := if_pos known
        rw [same, List.filter_cons_of_neg (by simpa using known)]
      · have more : note found x = found ++ [x] := if_neg known
        have left : (names.filter fun y => decide (y ∉ found)).filter
              (fun y => !y == x)
            = names.filter fun y => decide (y ∉ found ++ [x]) := by
          rw [List.filter_filter]
          apply List.filter_congr
          intro y _
          by_cases same : y = x <;> simp [same]
        rw [more, List.filter_cons_of_pos (by simpa using known),
          List.eraseDups_cons, left, List.append_assoc]
        rfl

/-- Names that a binder or what is around it binds. -/
theorem filter_scope (bound names : List Name) (binder : Name) :
    (names.filter (· ≠ binder)).filter (· ∉ bound)
      = names.filter (· ∉ binder :: bound) := by
  rw [List.filter_filter]
  apply List.filter_congr
  intro y _
  by_cases same : y = binder <;> simp [same]

mutual

/-- The search notes what occurs free and is not bound around the term,
in reading order. -/
theorem search_eq (bound found : List Name) (t : Term) :
    t.search bound found
      = (t.occurrences.filter (· ∉ bound)).foldl note found := by
  cases t with
  | hole | set => rfl
  | ref x =>
      rw [search, occurrences]
      by_cases known : x ∈ bound <;> simp [known]
  | quote t | hidden t =>
      rw [search, occurrences, search_eq bound found t]
  | app fn xs ts =>
      simp only [search, occurrences, List.filter_append,
        List.foldl_append]
      rw [search_eq bound found fn, searchNamed_eq bound _ xs,
        searchAll_eq bound _ ts]
  | lam x t b | pi p x t b =>
      simp only [search, occurrences, List.filter_append,
        List.foldl_append, filter_scope]
      rw [search_eq bound found t, search_eq (x :: bound) _ b]

/-- The same of positional arguments. -/
theorem searchAll_eq (bound found : List Name) (ts : List Term) :
    searchAll bound found ts
      = ((occurrencesAll ts).filter (· ∉ bound)).foldl note found := by
  cases ts with
  | nil => rfl
  | cons t ts =>
      rw [searchAll, occurrencesAll, List.filter_append, List.foldl_append,
        search_eq bound found t, searchAll_eq bound _ ts]

/-- The same of named arguments. -/
theorem searchNamed_eq (bound found : List Name)
    (ts : List (Name × Term)) :
    searchNamed bound found ts
      = ((occurrencesNamed ts).filter (· ∉ bound)).foldl note found := by
  match ts with
  | [] => rfl
  | (x, t) :: ts =>
      rw [searchNamed, occurrencesNamed, List.filter_append,
        List.foldl_append, search_eq bound found t,
        searchNamed_eq bound _ ts]

end

variable (t : Term)

/-- The free names are those that occur free, without repetitions. -/
theorem freeNames_eq : t.freeNames = t.occurrences.eraseDups := by
  rw [freeNames, search_eq, foldl_note]
  simp

theorem mem_freeNames {x : Name} : x ∈ t.freeNames ↔ x ∈ t.occurrences := by
  rw [freeNames_eq, List.mem_eraseDups]

/-- They stand in the order of first occurrence. -/
theorem pairwise_freeNames :
    t.freeNames.Pairwise fun x y =>
      t.occurrences.idxOf x < t.occurrences.idxOf y := by
  rw [freeNames_eq]
  exact pairwise_eraseDups _

end Term

end DepLang

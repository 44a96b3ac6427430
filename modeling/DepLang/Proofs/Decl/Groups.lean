/-
What grouping clauses keeps. A run of joining declarations is either one
declaration that is no single clause, which stays as it is, or consists
of single clauses, which become one group. So whatever is read off
declarations one by one, and off clause groups clause by clause, is the
same before and after grouping (`flatMap_group`).

Splitting every group back into single clauses is one such reading: it
undoes the grouping. Terms are not looked at, so that grouping commutes
with any change to them (`group_mapTerms`).
-/
import DepLang.Decl.Groups
import Mathlib.Data.List.SplitBy

namespace DepLang.Decl

/-- A declaration with its clauses one by one, each a group of its
own, named by its head. -/
def split : Decl → List Decl
  | .clauses _ group => group.map fun c => .clauses c.head [c]
  | d => [d]

/-- Declarations with every clause group split into single clauses. -/
def ungroup (decls : List Decl) : List Decl := decls.flatMap split

variable {β : Type}

-- ============================================================ runs

theorem single?_eq_some_iff {d : Decl} {c : Clause} :
    d.single? = some c ↔ ∃ name, d = .clauses name [c] := by
  constructor
  · intro h
    unfold single? at h
    split at h
    next name c' =>
        cases h
        exact ⟨name, rfl⟩
    next => cases h
  · rintro ⟨name, rfl⟩
    rfl

/-- A declaration that joins another is a single clause, and so is the
other. -/
theorem single?_of_joins {d e : Decl} (h : d.joins e = true) :
    d.single?.isSome ∧ e.single?.isSome := by
  unfold joins at h
  split at h
  next first second => simp [first, second]
  next => cases h

/-- A run that starts with a single clause consists of single clauses of
one head. -/
theorem heads_of_chain {d : Decl} {run : List Decl} {c : Clause}
    (chain : (d :: run).IsChain fun x y => x.joins y = true)
    (h : d.single? = some c) :
    ∀ e ∈ d :: run, ∃ c' ∈ e.single?, c'.head = c.head := by
  induction run generalizing d c with
  | nil => exact List.forall_mem_singleton.2 ⟨c, h, rfl⟩
  | cons e run ih =>
      rw [List.isChain_cons_cons] at chain
      obtain ⟨joined, chain⟩ := chain
      refine List.forall_mem_cons.2 ⟨⟨c, h, rfl⟩, ?_⟩
      obtain ⟨c', next⟩ := Option.isSome_iff_exists.1
        (single?_of_joins joined).2
      have same : c.head = c'.head := by
        simpa [joins, h, next] using joined
      rw [same]
      exact ih chain next

/-- What a run becomes: itself, if it is one declaration that is no
single clause, or the group of its clauses. -/
inductive Grouped : List Decl → Decl → Prop
  | alone {d : Decl} (other : d.single? = none) : Grouped [d] d
  | clauses {run : List Decl} {c : Clause} {cs : List Clause}
      (singles : run.filterMap single? = c :: cs)
      (each : ∀ e ∈ run, ∃ c' ∈ e.single?, c'.head = c.head) :
      Grouped run (.clauses c.head (c :: cs))

/-- A run becomes one declaration. -/
theorem grouped_ofRun {run : List Decl} (some_decl : run ≠ [])
    (chain : run.IsChain fun x y => x.joins y = true) :
    ∃ d, ofRun run = [d] ∧ Grouped run d := by
  obtain ⟨d, rest, rfl⟩ := List.exists_cons_of_ne_nil some_decl
  cases alone : d.single? with
  | some c =>
      have singles : (d :: rest).filterMap single?
          = c :: rest.filterMap single? := List.filterMap_cons_some alone
      refine ⟨.clauses c.head (c :: rest.filterMap single?), ?_,
        .clauses singles (heads_of_chain chain alone)⟩
      unfold ofRun
      rw [singles]
  | none =>
      -- nothing joins it, so it is the whole run
      obtain rfl : rest = [] := by
        cases rest with
        | nil => rfl
        | cons e rest =>
            rw [List.isChain_cons_cons] at chain
            have both := (single?_of_joins chain.1).1
            simp [alone] at both
      refine ⟨d, ?_, .alone alone⟩
      unfold ofRun
      rw [List.filterMap_cons_none alone]
      rfl

/-- What is read off single clauses is read off them as clauses. -/
theorem flatMap_eq_of_single {f : Decl → List β} {g : Clause → List β}
    (clausewise : ∀ name c cs,
      f (.clauses name (c :: cs)) = (c :: cs).flatMap g)
    {run : List Decl} (h : ∀ d ∈ run, d.single?.isSome) :
    run.flatMap f = (run.filterMap single?).flatMap g := by
  induction run with
  | nil => rfl
  | cons d run ih =>
      have rest := ih fun e he => h e (List.mem_cons_of_mem d he)
      obtain ⟨c, single⟩ := Option.isSome_iff_exists.1
        (h d List.mem_cons_self)
      obtain ⟨name, rfl⟩ := single?_eq_some_iff.1 single
      rw [List.flatMap_cons, rest, clausewise]
      simp [single?]

/-- Merging a run changes nothing of what is read off it. -/
theorem flatMap_ofRun {f : Decl → List β} {g : Clause → List β}
    (clausewise : ∀ name c cs,
      f (.clauses name (c :: cs)) = (c :: cs).flatMap g)
    {run : List Decl} (some_decl : run ≠ [])
    (chain : run.IsChain fun x y => x.joins y = true) :
    (ofRun run).flatMap f = run.flatMap f := by
  obtain ⟨d, made, grouped⟩ := grouped_ofRun some_decl chain
  rw [made]
  cases grouped with
  | alone => rfl
  | clauses singles each =>
      rw [List.flatMap_singleton, clausewise, ← singles]
      refine (flatMap_eq_of_single clausewise fun e he => ?_).symm
      obtain ⟨c, single, -⟩ := each e he
      exact Option.isSome_iff_exists.2 ⟨c, single⟩

-- ======================================================== grouping

/-- A maximal run of joining declarations. -/
theorem of_mem_splitBy {decls run : List Decl}
    (h : run ∈ decls.splitBy joins) :
    run ≠ [] ∧ (run.IsChain fun x y => x.joins y = true)
      ∧ ∀ e ∈ run, e ∈ decls := by
  refine ⟨List.ne_nil_of_mem_splitBy h, List.isChain_of_mem_splitBy h, ?_⟩
  intro e he
  rw [← List.flatten_splitBy joins decls]
  exact List.mem_flatten.2 ⟨run, h, he⟩

/-- What is read off declarations, and off groups clause by clause, is
the same before and after grouping, whatever is read off groups that hold
no clause. -/
theorem flatMap_group {f : Decl → List β} {g : Clause → List β}
    (clausewise : ∀ name c cs,
      f (.clauses name (c :: cs)) = (c :: cs).flatMap g)
    (decls : List Decl) : (group decls).flatMap f = decls.flatMap f := by
  have runs : ∀ run ∈ decls.splitBy joins,
      (ofRun run).flatMap f = run.flatMap f := by
    intro run hr
    obtain ⟨some_decl, chain, -⟩ := of_mem_splitBy hr
    exact flatMap_ofRun clausewise some_decl chain
  calc (group decls).flatMap f
      = (decls.splitBy joins).flatMap fun run => (ofRun run).flatMap f :=
        List.flatMap_assoc
    _ = (decls.splitBy joins).flatMap fun run => run.flatMap f :=
        List.flatMap_congr runs
    _ = (decls.splitBy joins).flatten.flatMap f := by
        rw [List.flatten_eq_flatMap, List.flatMap_assoc]
        rfl
    _ = decls.flatMap f := by rw [List.flatten_splitBy]

/-- Each run becomes one declaration of the result. -/
theorem grouped_group (decls : List Decl) :
    List.Forall₂ Grouped (decls.splitBy joins) (group decls) := by
  have runs : ∀ run ∈ decls.splitBy joins,
      ∃ d, ofRun run = [d] ∧ Grouped run d := by
    intro run hr
    obtain ⟨some_decl, chain, -⟩ := of_mem_splitBy hr
    exact grouped_ofRun some_decl chain
  unfold group
  generalize decls.splitBy joins = rs at runs
  induction rs with
  | nil => exact .nil
  | cons run rs ih =>
      obtain ⟨⟨d, made, grouped⟩, others⟩ := List.forall_mem_cons.1 runs
      rw [List.flatMap_cons, made]
      exact .cons grouped (ih others)

theorem group_ne_nil {decls : List Decl} (h : decls ≠ []) :
    group decls ≠ [] := by
  intro none
  have grouped := grouped_group decls
  rw [none, List.forall₂_nil_right_iff, List.splitBy_eq_nil] at grouped
  exact h grouped

/-- What a group is made of: a declaration as it was, or single clauses
that were next to each other, all of one head. -/
theorem of_mem_group {decls : List Decl} {d : Decl}
    (h : d ∈ group decls) :
    d ∈ decls ∧ d.single? = none ∨ ∃ c cs, d = .clauses c.head (c :: cs)
      ∧ ∀ c' ∈ c :: cs, c'.head = c.head
        ∧ ∃ name, .clauses name [c'] ∈ decls := by
  obtain ⟨run, member, made⟩ := List.mem_flatMap.1 h
  obtain ⟨some_decl, chain, inside⟩ := of_mem_splitBy member
  obtain ⟨d', same, grouped⟩ := grouped_ofRun some_decl chain
  rw [same] at made
  obtain rfl := List.mem_singleton.1 made
  cases grouped with
  | alone other => exact .inl ⟨inside d List.mem_cons_self, other⟩
  | @clauses _ c cs singles each =>
      refine .inr ⟨c, cs, rfl, fun c' hc => ?_⟩
      rw [← singles] at hc
      obtain ⟨e, he, alone⟩ := List.mem_filterMap.1 hc
      obtain ⟨c'', single, head⟩ := each e he
      obtain rfl := Option.some.inj (alone.symm.trans single)
      refine ⟨head, ?_⟩
      unfold single? at alone
      split at alone
      next name _ =>
          cases alone
          exact ⟨name, inside _ he⟩
      next => cases alone

/-- Neighbours of the result are related as what two runs become that
follow one another and do not join. -/
theorem isChain_group_of {S : Decl → Decl → Prop} {decls : List Decl}
    (h : ∀ m n d e, (∀ f ∈ m ++ n, f ∈ decls) → Grouped m d →
      Grouped n e →
      (∃ hm hn, joins (m.getLast hm) (n.head hn) = false) → S d e) :
    (group decls).IsChain S := by
  have runs : ∀ run ∈ decls.splitBy joins, ∀ e ∈ run, e ∈ decls :=
    fun run hr => (of_mem_splitBy hr).2.2
  have ends := List.isChain_getLast_head_splitBy joins decls
  have grouped := grouped_group decls
  generalize decls.splitBy joins = rs at runs ends grouped
  generalize group decls = ds at grouped
  induction grouped with
  | nil => exact .nil
  | @cons m d rs ds before others ih =>
      obtain ⟨here, there⟩ := List.forall_mem_cons.1 runs
      cases others with
      | nil => exact .singleton d
      | @cons n e rs ds behind others =>
          rw [List.isChain_cons_cons] at ends
          have next := there n List.mem_cons_self
          refine .cons_cons ?_ (ih there ends.2)
          refine h m n d e (fun f hf => ?_) before behind ends.1
          exact (List.mem_append.1 hf).elim (here f) (next f)

/-- Two declarations that are not clause groups of one name. -/
def Apart (d e : Decl) : Prop :=
  ∀ x cs y cs', d = .clauses x cs → e = .clauses y cs' → x ≠ y

/-- Runs that do not join become declarations that are apart, if no group
was made before. -/
theorem apart_of_grouped {m n : List Decl} {d e : Decl}
    (before : Grouped m d) (behind : Grouped n e)
    (ungrouped : ∀ f ∈ m ++ n, ∀ x cs, f = .clauses x cs →
      f.single?.isSome)
    (ends : ∃ hm hn, joins (m.getLast hm) (n.head hn) = false) :
    d.Apart e := by
  rintro x cs y cs' rfl rfl same
  obtain ⟨some_m, some_n, stops⟩ := ends
  cases before with
  | alone other =>
      have single := ungrouped _ (by simp) x cs rfl
      simp [other] at single
  | clauses _ each =>
      cases behind with
      | alone other =>
          have single := ungrouped _ (by simp) y cs' rfl
          simp [other] at single
      | clauses _ each' =>
          obtain ⟨c, last, head⟩ := each _ (List.getLast_mem some_m)
          obtain ⟨c', first, head'⟩ := each' _ (List.head_mem some_n)
          rw [joins, Option.mem_def.1 last, Option.mem_def.1 first] at stops
          simp [head, head', same] at stops

/-- Grouping leaves no two groups of one name next to each other. -/
theorem isChain_group {decls : List Decl}
    (ungrouped : ∀ d ∈ decls, ∀ x cs, d = .clauses x cs →
      d.single?.isSome) : (group decls).IsChain Apart :=
  isChain_group_of fun _ _ _ _ inside before behind =>
    apart_of_grouped before behind fun f hf => ungrouped f (inside f hf)

/-- Splitting groups undoes the grouping. -/
theorem ungroup_group (decls : List Decl) :
    ungroup (group decls) = ungroup decls :=
  flatMap_group (g := fun c => [.clauses c.head [c]])
    (fun _ _ _ => List.map_eq_flatMap) decls

/-- Declarations are grouped apart where they do not join. -/
theorem group_append {before after : List Decl}
    (apart : ∀ d ∈ before.getLast?, ∀ e ∈ after.head?,
      d.joins e = false) :
    group (before ++ after) = group before ++ group after := by
  unfold group
  rw [List.splitBy_append apart, List.flatMap_append]

/-- Declarations that all join are grouped as one run. -/
theorem group_run {run : List Decl} (some_decl : run ≠ [])
    (chain : run.IsChain fun x y => x.joins y = true) :
    group run = ofRun run := by
  unfold group
  rw [List.splitBy_of_isChain some_decl chain, List.flatMap_singleton]

/-- A declaration that is no single clause parts what stands before it
from what stands behind it. -/
theorem group_around {d : Decl} (other : d.single? = none)
    (before after : List Decl) :
    group (before ++ d :: after) = group before ++ d :: group after := by
  have apart (e : Decl) : e.joins d = false ∧ d.joins e = false := by
    unfold joins
    rw [other]
    cases e.single? <;> simp
  have own : group [d] = [d] := by
    rw [group_run (List.cons_ne_nil d []) (.singleton d), ofRun,
      List.filterMap_cons_none other]
    rfl
  have behind : group ([d] ++ after) = [d] ++ group after := by
    rw [group_append (by simp [apart]), own]
  rw [group_append (by simp [apart])]
  exact congrArg (group before ++ ·) behind

-- ================================================== mapping terms

/-- Splitting a list where neighbours do not belong together commutes
with a map that keeps which ones do. -/
theorem splitByLoop_map {α : Type} {f : α → β} {r : α → α → Bool}
    {q : β → β → Bool} (same : ∀ a b, q (f a) (f b) = r a b)
    (as : List α) :
    ∀ (a : α) (run : List α) (runs : List (List α)),
      List.splitBy.loop q (as.map f) (f a) (run.map f)
          (runs.map (List.map f))
        = (List.splitBy.loop r as a run runs).map (List.map f) := by
  induction as with
  | nil =>
      intro a run runs
      simp [List.splitBy.loop]
  | cons b as ih =>
      intro a run runs
      simp only [List.map_cons, List.splitBy.loop, same]
      cases r a b with
      | true => exact ih b (a :: run) runs
      | false => simpa using ih b [] ((a :: run).reverse :: runs)

theorem splitBy_map {α : Type} {f : α → β} {r : α → α → Bool}
    {q : β → β → Bool} (same : ∀ a b, q (f a) (f b) = r a b)
    (as : List α) :
    (as.map f).splitBy q = (as.splitBy r).map (List.map f) := by
  cases as with
  | nil => rfl
  | cons a as => exact splitByLoop_map same as a [] []

section
variable (f : Term → Term)

theorem single?_mapTerms (d : Decl) :
    (d.mapTerms f).single? = d.single?.map (Clause.mapTerms f) := by
  cases d with
  | clauses name group => rcases group with _ | ⟨c, _ | _⟩ <;> rfl
  | _ => rfl

/-- Whether declarations belong together is told by names. -/
theorem joins_mapTerms (d e : Decl) :
    (d.mapTerms f).joins (e.mapTerms f) = d.joins e := by
  unfold joins
  rw [single?_mapTerms, single?_mapTerms]
  cases d.single? <;> cases e.single? <;> rfl

theorem ofRun_mapTerms (run : List Decl) :
    ofRun (run.map (mapTerms f)) = (ofRun run).map (mapTerms f) := by
  have singles : (run.map (mapTerms f)).filterMap single?
      = (run.filterMap single?).map (Clause.mapTerms f) := by
    rw [List.filterMap_map, List.map_filterMap]
    exact List.filterMap_congr fun d _ => single?_mapTerms f d
  unfold ofRun
  rw [singles]
  cases run.filterMap single? <;> rfl

/-- Grouping commutes with any change to the terms. -/
theorem group_mapTerms (decls : List Decl) :
    group (decls.map (mapTerms f)) = (group decls).map (mapTerms f) := by
  unfold group
  rw [splitBy_map (joins_mapTerms f), List.flatMap_map, List.map_flatMap]
  exact List.flatMap_congr fun run _ => ofRun_mapTerms f run

end

end DepLang.Decl

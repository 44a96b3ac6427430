/-
Which groups grouping makes. A maximal run of single clauses with one
head becomes a group, named by this head and made of these clauses, and
every other declaration stays where it is; what stands before such a
run, and what stands behind it, is grouped as if it stood alone
(`IsRun.group_eq`). Read backwards, every declaration of the result is
one of these, in its place (`parts_of_group`).

So taken to pieces, clause by clause, the result is what it was made of,
and grouping it again finds nothing left to merge.
-/
import DepLang.Proofs.Decl.Groups

namespace DepLang.Decl

-- ========================================================== pieces

/-- What declarations are made of: clauses, and whatever holds none. -/
inductive Piece where
  | clause (clause : Clause)
  | other (decl : Decl)

/-- The pieces of a declaration: the clauses of a group one by one, or
the declaration itself, if there are none in it. -/
def pieces : Decl → List Piece
  | .clauses _ (c :: cs) => (c :: cs).map .clause
  | d => [.other d]

/-- Grouping loses, adds and moves no piece. -/
theorem flatMap_pieces_group (decls : List Decl) :
    (group decls).flatMap pieces = decls.flatMap pieces :=
  flatMap_group (g := fun c => [.clause c])
    (fun _ _ _ => List.map_eq_flatMap) decls

-- ============================================================ runs

/-- Two declarations join if they are single clauses of one head. -/
theorem joins_iff {d e : Decl} :
    d.joins e = true
      ↔ ∃ c ∈ d.single?, ∃ c' ∈ e.single?, c.head = c'.head := by
  unfold joins
  cases d.single? <;> cases e.single? <;> simp

/-- A maximal run and its clauses, between what stands before and behind
it: single clauses of one head, with no other one next to them. -/
structure IsRun (before run after : List Decl) (head : Name)
    (cs : List Clause) : Prop where
  some_decl : run ≠ []
  each : ∀ d ∈ run, ∃ c ∈ d.single?, c.head = head
  clauses : run.filterMap single? = cs
  starts : ∀ d ∈ before.getLast?, ∀ c ∈ d.single?, c.head ≠ head
  ends : ∀ d ∈ after.head?, ∀ c ∈ d.single?, c.head ≠ head

namespace IsRun

variable {before run after : List Decl} {head : Name} {cs : List Clause}
  (h : IsRun before run after head cs)
include h

theorem chain : run.IsChain fun d e => d.joins e = true := by
  refine (List.pairwise_of_forall_mem_list fun d hd e he => ?_).isChain
  obtain ⟨c, first, head_c⟩ := h.each d hd
  obtain ⟨c', second, head_c'⟩ := h.each e he
  exact joins_iff.2 ⟨c, first, c', second, head_c.trans head_c'.symm⟩

/-- The run becomes the group of its clauses, named by their head. -/
theorem ofRun_eq : ofRun run = [.clauses head cs] := by
  obtain ⟨d, others, rfl⟩ := List.exists_cons_of_ne_nil h.some_decl
  obtain ⟨c, first, rfl⟩ := h.each d List.mem_cons_self
  rw [← h.clauses, ofRun, List.filterMap_cons_some first]

theorem starts_apart : ∀ d ∈ before.getLast?, ∀ e ∈ run.head?,
    d.joins e = false := by
  intro d hd e he
  obtain ⟨c, second, head_c⟩ := h.each e (List.mem_of_mem_head? he)
  refine Bool.eq_false_iff.2 fun joined => ?_
  obtain ⟨c', first, c'', second', same⟩ := joins_iff.1 joined
  obtain rfl := Option.mem_unique second second'
  exact h.starts d hd c' first (same.trans head_c)

theorem ends_apart : ∀ d ∈ run.getLast?, ∀ e ∈ after.head?,
    d.joins e = false := by
  intro d hd e he
  obtain ⟨c, first, head_c⟩ := h.each d (List.mem_of_mem_getLast? hd)
  refine Bool.eq_false_iff.2 fun joined => ?_
  obtain ⟨c'', first', c', second, same⟩ := joins_iff.1 joined
  obtain rfl := Option.mem_unique first first'
  exact h.ends e he c' second (same.symm.trans head_c)

/-- A maximal run becomes a group, and what stands around it is grouped
on its own. -/
theorem group_eq : group (before ++ run ++ after)
    = group before ++ .clauses head cs :: group after := by
  have ends : ∀ d ∈ (before ++ run).getLast?, ∀ e ∈ after.head?,
      d.joins e = false := by
    rw [List.getLast?_append_of_ne_nil before h.some_decl]
    exact h.ends_apart
  rw [group_append ends, group_append h.starts_apart,
    group_run h.some_decl h.chain, h.ofRun_eq, List.append_assoc]
  rfl

end IsRun

-- ======================================================== grouping

/-- What a run becomes is told by what it is. -/
theorem Grouped.ofRun_eq {run : List Decl} {d : Decl} (h : Grouped run d) :
    ofRun run = [d] := by
  cases h with
  | alone other =>
      rw [ofRun, List.filterMap_cons_none other]
      rfl
  | clauses singles => rw [ofRun, singles]

theorem flatMap_ofRun_of_grouped {runs : List (List Decl)}
    {ds : List Decl} (h : List.Forall₂ Grouped runs ds) :
    runs.flatMap ofRun = ds := by
  induction h with
  | nil => rfl
  | cons first _ ih => rw [List.flatMap_cons, first.ofRun_eq, ih]; rfl

theorem getLast?_flatten_of_ne {α : Type} {as : List (List α)}
    (some_each : [] ∉ as) :
    as.flatten.getLast? = as.getLast?.bind List.getLast? := by
  rcases List.eq_nil_or_concat' as with rfl | ⟨init, last, rfl⟩
  · rfl
  · have some_last : last ≠ [] := fun none => some_each (by simp [none])
    rw [List.flatten_concat, List.getLast?_append_of_ne_nil _ some_last]
    simp

theorem head?_flatten_of_ne {α : Type} {as : List (List α)}
    (some_each : [] ∉ as) :
    as.flatten.head? = as.head?.bind List.head? := by
  cases as with
  | nil => rfl
  | cons first rest =>
      have some_first : first ≠ [] := fun none => some_each (by simp [none])
      rw [List.flatten_cons, List.head?_append_of_ne_nil _ some_first]
      rfl

/-- Runs that do not join are what their declarations are grouped by. -/
theorem group_flatten {runs : List (List Decl)} {ds : List Decl}
    (some_each : [] ∉ runs)
    (chains : ∀ run ∈ runs, run.IsChain fun d e => d.joins e = true)
    (ends : runs.IsChain fun m n =>
      ∃ hm hn, joins (m.getLast hm) (n.head hn) = false)
    (grouped : List.Forall₂ Grouped runs ds) : group runs.flatten = ds := by
  rw [group, List.splitBy_flatten some_each chains ends,
    flatMap_ofRun_of_grouped grouped]

/-- Every declaration of the result is one that was there, no single
clause, or what a maximal run became; and what stands before and behind it
is what stood there, grouped on its own. -/
theorem parts_of_group {decls front back : List Decl} {d : Decl}
    (h : group decls = front ++ d :: back) :
    ∃ before run after, decls = before ++ run ++ after
      ∧ group before = front ∧ group after = back
      ∧ (run = [d] ∧ d.single? = none
        ∨ ∃ head cs, d = .clauses head cs
          ∧ IsRun before run after head cs) := by
  have grouped := grouped_group decls
  rw [h] at grouped
  obtain ⟨flat, some_each, chains, ends⟩ :=
    List.splitBy_eq_iff.1 (rfl : decls.splitBy joins = decls.splitBy joins)
  generalize decls.splitBy joins = runs at grouped flat some_each chains ends
  have first := List.forall₂_take_append _ _ _ grouped
  have rest := List.forall₂_drop_append _ _ _ grouped
  obtain ⟨run, others, made, last, cut⟩ := List.forall₂_cons_right_iff.1 rest
  have split := (List.take_append_drop front.length runs).symm
  generalize runs.take front.length = ms at first split
  rw [cut] at split
  subst split
  obtain ⟨none_before, none_behind⟩ :
      [] ∉ ms ∧ [] ∉ run :: others := by
    simpa [not_or] using some_each
  obtain ⟨ends_before, ends_behind, starts⟩ := List.isChain_append.1 ends
  have chains_before := fun m hm => chains m (List.mem_append_left _ hm)
  have chains_behind := fun m hm =>
    chains m (List.mem_append_right _ (List.mem_cons_of_mem run hm))
  have none_behind := fun none => none_behind (List.mem_cons_of_mem run none)
  refine ⟨ms.flatten, run, others.flatten, by simp [flat],
    group_flatten none_before chains_before ends_before first,
    group_flatten none_behind chains_behind ends_behind.tail last, ?_⟩
  cases made with
  | alone other => exact .inl ⟨rfl, other⟩
  | @clauses _ c cs singles each =>
      refine .inr ⟨c.head, c :: cs, rfl, ?_⟩
      constructor
      · rintro rfl
        cases singles
      · exact each
      · exact singles
      · intro e he c₁ first same
        rw [getLast?_flatten_of_ne none_before] at he
        obtain ⟨m, hm, he⟩ := Option.mem_bind_iff.1 he
        obtain ⟨some_m, some_run, apart⟩ := starts m hm run rfl
        rw [List.getLast_of_mem_getLast? he] at apart
        obtain ⟨c₂, second, head₂⟩ := each _ (List.head_mem some_run)
        have joined := joins_iff.2
          ⟨c₁, first, c₂, second, same.trans head₂.symm⟩
        simp [apart] at joined
      · intro e he c₁ first same
        rw [head?_flatten_of_ne none_behind] at he
        obtain ⟨n, hn, he⟩ := Option.mem_bind_iff.1 he
        obtain ⟨some_run, some_n, apart⟩ :=
          (List.isChain_cons.1 ends_behind).1 n hn
        rw [List.head_of_mem_head? he] at apart
        obtain ⟨c₂, second, head₂⟩ := each _ (List.getLast_mem some_run)
        have joined := joins_iff.2
          ⟨c₂, second, c₁, first, head₂.trans same.symm⟩
        simp [apart] at joined

/-- A clause of a group stood alone before it was grouped, if no groups
were made before, and whatever holds no clause stands before the one just
as it stood before the other. -/
theorem clause_of_group {ds earlier later : List Decl} {name : Name}
    {front back : List Clause} {c : Clause}
    (alone : ∀ d ∈ ds, ∀ x cs, d = .clauses x cs → d.single?.isSome)
    (place : group ds
      = earlier ++ .clauses name (front ++ c :: back) :: later) :
    ∃ before d after, ds = before ++ d :: after ∧ c ∈ d.single?
      ∧ ∀ {β : Type} (f : Decl → List β),
        (∀ x cs, f (.clauses x cs) = []) →
        before.flatMap f = earlier.flatMap f := by
  obtain ⟨before, run, after, rfl, rfl, -, kept | merged⟩ :=
    parts_of_group place
  · obtain ⟨rfl, other⟩ := kept
    have single := alone (.clauses name (front ++ c :: back)) (by simp)
      _ _ rfl
    simp [other] at single
  · obtain ⟨head, cs, same, isRun⟩ := merged
    cases same
    obtain ⟨first, rest, rfl, -, rest_clauses⟩ :=
      List.filterMap_eq_append_iff.1 isRun.clauses
    obtain ⟨more, d, others, rfl, -, single, -⟩ :=
      List.filterMap_eq_cons_iff.1 rest_clauses
    refine ⟨before ++ (first ++ more), d, others ++ after, by simp,
      single, ?_⟩
    intro β f none
    have each : ∀ e ∈ first ++ more, e.single?.isSome := by
      intro e he
      have member : e ∈ first ++ (more ++ d :: others) := by
        rw [← List.append_assoc]
        exact List.mem_append_left _ he
      obtain ⟨c', single', -⟩ := isRun.each e member
      exact Option.isSome_iff_exists.2 ⟨c', single'⟩
    have clauses : (first ++ more).flatMap f = [] := by
      rw [flatMap_eq_of_single (g := fun _ => []) (by simp [none]) each]
      simp
    rw [List.flatMap_append, clauses, List.append_nil]
    exact (flatMap_group (g := fun _ => []) (by simp [none]) before).symm

/-- A run that becomes a single clause consists of clauses of its head. -/
theorem Grouped.heads {run : List Decl} {d : Decl} {c : Clause}
    (h : Grouped run d) (single : c ∈ d.single?) :
    ∀ e ∈ run, ∃ c' ∈ e.single?, c'.head = c.head := by
  cases h with
  | alone other => simp [other] at single
  | @clauses _ c' cs singles each =>
      cases cs with
      | nil =>
          cases single
          exact each
      | cons => cases single

/-- Neighbours of the result do not join. -/
theorem isChain_group_apart (decls : List Decl) :
    (group decls).IsChain fun d e => d.joins e = false := by
  refine isChain_group_of fun m n d e _ before behind ends => ?_
  obtain ⟨some_m, some_n, apart⟩ := ends
  refine Bool.eq_false_iff.2 fun joined => ?_
  obtain ⟨c, first, c', second, same⟩ := joins_iff.1 joined
  obtain ⟨c₁, last, head₁⟩ := before.heads first _ (List.getLast_mem some_m)
  obtain ⟨c₂, start, head₂⟩ := behind.heads second _ (List.head_mem some_n)
  have heads : c₁.head = c₂.head := head₁.trans (same.trans head₂.symm)
  have joined := joins_iff.2 ⟨c₁, last, c₂, start, heads⟩
  simp [apart] at joined

/-- A single clause of the result is named by its head. -/
theorem eq_of_mem_group {decls : List Decl} {d : Decl} {c : Clause}
    (h : d ∈ group decls) (single : c ∈ d.single?) :
    d = .clauses c.head [c] := by
  rcases of_mem_group h with ⟨-, other⟩ | ⟨c', cs, rfl, -⟩
  · simp [other] at single
  · cases cs with
    | nil =>
        cases single
        rfl
    | cons => cases single

/-- Grouping what is grouped changes nothing. -/
theorem group_group (decls : List Decl) :
    group (group decls) = group decls := by
  have each : ∀ d ∈ group decls, Grouped [d] d := by
    intro d hd
    cases alone : d.single? with
    | none => exact .alone alone
    | some c =>
        rw [eq_of_mem_group hd alone]
        exact .clauses rfl (by simp [single?])
  have runs : ((group decls).map fun d => [d]).flatten = group decls := by
    rw [← List.flatMap_def, List.flatMap_singleton']
  have grouped : group ((group decls).map fun d => [d]).flatten
      = group decls := by
    refine group_flatten (by simp) (by simp) ?_ ?_
    · rw [List.isChain_map]
      refine (isChain_group_apart decls).imp fun d e apart => ?_
      exact ⟨List.cons_ne_nil d [], List.cons_ne_nil e [], apart⟩
    · rw [List.forall₂_map_left_iff, List.forall₂_same]
      exact each
  rwa [runs] at grouped

/-- Grouping keeps every piece in its place and merges all there is to
merge. What is no single clause stays as it is. A maximal run of single
clauses with one head becomes one group of just these clauses, named by
the head; and there is nothing else in the result. Grouping it again
changes nothing. -/
theorem group_maximally (decls : List Decl) :
    (group decls).flatMap pieces = decls.flatMap pieces
      ∧ (∀ before d after, decls = before ++ d :: after →
        d.single? = none → group decls = group before ++ d :: group after)
      ∧ (∀ before run after head cs, decls = before ++ run ++ after →
        IsRun before run after head cs →
        group decls = group before ++ .clauses head cs :: group after)
      ∧ (∀ front d back, group decls = front ++ d :: back →
        ∃ before run after, decls = before ++ run ++ after
          ∧ group before = front ∧ group after = back
          ∧ (run = [d] ∧ d.single? = none
            ∨ ∃ head cs, d = .clauses head cs
              ∧ IsRun before run after head cs))
      ∧ group (group decls) = group decls := by
  refine ⟨flatMap_pieces_group decls, ?_, ?_, fun _ _ _ => parts_of_group,
    group_group decls⟩
  · rintro before d after rfl other
    exact group_around other before after
  · rintro before run after head cs rfl isRun
    exact isRun.group_eq

/-- Two clauses of one head make a group; a group without clauses parts
them from a third one, and a group that was made before does not take in
the clauses of its head that stand around it. -/
theorem group_maximally_mixed :
    let f := Name.ofText "f"
    let g := Name.ofText "g"
    let clause (x : Name) (rhs : Term) : Clause := ⟨x, .ref x none, rhs⟩
    let single (c : Clause) : Decl := .clauses ungrouped [c]
    let f₁ := clause f (.hole none)
    let f₂ := clause f (.set none)
    let g₁ := clause g (.ref f none)
    let made : Decl := .clauses g [g₁, g₁]
    let after := [.clauses f [], single f₁, single g₁, made, single g₁]
    IsRun [] [single f₁, single f₂] after f [f₁, f₂]
      ∧ group ([] ++ [single f₁, single f₂] ++ after)
        = [.clauses f [f₁, f₂], .clauses f [], .clauses f [f₁],
          .clauses g [g₁], made, .clauses g [g₁]] := by
  intro f g clause single f₁ f₂ g₁ made after
  have isRun : IsRun [] [single f₁, single f₂] after f [f₁, f₂] :=
    { some_decl := List.cons_ne_nil _ _
      each := by simp [single, single?, f₁, f₂, clause]
      clauses := rfl
      starts := by simp
      ends := by simp [after, single?] }
  refine ⟨isRun, ?_⟩
  obtain ⟨-, -, merged, -⟩ :=
    group_maximally ([] ++ [single f₁, single f₂] ++ after)
  exact merged [] _ after f _ rfl isRun

end DepLang.Decl

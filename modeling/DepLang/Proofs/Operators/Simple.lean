/-
Expressions with few operators. An operand with no operator after it is
an expression of every level. Two operands with one operator between
them make an expression of every list of levels that has the operator,
whichever level it is and to whichever side it groups. And operands with
arrows between them are joined from the right.

None of this depends on how the table is sorted.
-/
import DepLang.Proofs.Operators.Climbing

namespace DepLang

open DepLang.Grammar DepLang.Parser

-- ============================================================= rows

namespace Row

/-- Two operands can be joined by any operator. -/
theorem join_pair (side : String → Assoc) (op : String) (x y : Term) :
    join side x [(op, y)] = some (combine op x y) := by
  rw [join]
  split
  · rfl
  · split
    · rfl
    · rfl

theorem groupOver_single (levels : List Level) (x : Term) :
    groupOver levels ⟨x, []⟩ = some x := by
  induction levels with
  | nil => rfl
  | cons level tighter ih =>
      rw [groupOver]
      simp only [cut_nil, ih, Option.bind_some, List.map_nil, collect]
      exact join_nil _ x

theorem groupOver_pair {levels : List Level} {op : String}
    (known : levels.any (·.has op) = true) (x y : Term) :
    groupOver levels ⟨x, [(op, y)]⟩ = some (combine op x y) := by
  induction levels with
  | nil => cases known
  | cons level tighter ih =>
      rw [groupOver]
      by_cases later : tighter.any (·.has op) = true
      · rw [cut_kept (by rw [later]; rfl), cut_nil]
        simp only [ih later, Option.bind_some, List.map_nil, collect]
        exact join_nil _ _
      · rw [cut_picked (by simpa using later), cut_nil]
        simp only [groupOver_single, Option.bind_some, List.map_cons,
          List.map_nil, collect, Option.map_some]
        exact join_pair _ op x y

end Row

-- =========================================================== levels

namespace FixityTable

variable {table : FixityTable} {level : Level}

/-- What a level below the arrow makes of a lexeme. -/
theorem of_operator?_tighter (member : level ∈ table.tighter)
    {l : Lexeme} {o : Operator} (found : level.operator? l = some o) :
    l = .operator o.symbol ∧ o.form = .application
      ∧ (o.symbol = "=" ∨ ∃ e ∈ table, e.symbol = o.symbol) := by
  cases l with
  | operator op =>
      rcases List.mem_cons.1 member with rfl | member
      · by_cases equality : op = "="
        · subst equality
          cases found
          exact ⟨rfl, rfl, .inl rfl⟩
        · rw [Level.operator?, Level.equality,
            List.find?_cons_of_neg (by simpa using Ne.symm equality)] at found
          cases found
      · obtain ⟨run, hrun, rfl⟩ :=
          List.mem_map.1 (List.mem_reverse.1 member)
        rw [Level.operator?_ofEntries] at found
        split at found
        · cases found
        next some_entry =>
          cases found
          obtain ⟨e, he⟩ := List.exists_mem_of_ne_nil _ some_entry
          obtain ⟨inRun, named⟩ := List.mem_filter.1 he
          exact ⟨rfl, rfl, .inr ⟨e, (mem_iff_runs e).2 ⟨run, hrun, inRun⟩,
            of_decide_eq_true named⟩⟩
  | _ => cases found

/-- What a level of a table makes of a lexeme: the arrow makes a function
type, and whatever else it offers is applied. -/
theorem of_operator?_levels (member : level ∈ table.levels.reverse)
    {l : Lexeme} {o : Operator} (found : level.operator? l = some o) :
    l = .operator o.symbol
      ∧ (o.form = .arrow ∧ o.symbol = "->"
        ∨ o.form = .application
          ∧ (o.symbol = "=" ∨ ∃ e ∈ table, e.symbol = o.symbol)) := by
  rw [reverse_levels] at member
  rcases List.mem_cons.1 member with rfl | member
  · cases l with
    | operator symbol =>
        by_cases arrow : symbol = "->"
        · subst arrow
          cases found
          exact ⟨rfl, .inl ⟨rfl, rfl⟩⟩
        · rw [Level.operator?, Level.arrow,
            List.find?_cons_of_neg (by simpa using Ne.symm arrow)] at found
          cases found
    | _ => cases found
  · obtain ⟨token, form, known⟩ := of_operator?_tighter member found
    exact ⟨token, .inr ⟨form, known⟩⟩

/-- In a table without reserved operators, equality is the only one of
them that is found below the arrow. -/
theorem operator?_none_of_reserved
    (free : ∀ e ∈ table,
      Language.standard.isReservedOperator e.symbol = false)
    {l : Lexeme}
    (reserved : ∀ op, l = .operator op →
      Language.standard.isReservedOperator op = true ∧ op ≠ "=") :
    ∀ level ∈ table.tighter, level.operator? l = none := by
  intro level member
  cases found : level.operator? l with
  | none => rfl
  | some o =>
      obtain ⟨same, -, known⟩ := of_operator?_tighter member found
      obtain ⟨kept, other⟩ := reserved o.symbol same
      obtain equality | ⟨e, he, named⟩ := known
      · exact absurd equality other
      · have free := free e he
        rw [named, kept] at free
        cases free

/-- Equality and the declared operators are found below the arrow. -/
theorem any_has_tighter {op : String}
    (known : op = "=" ∨ ∃ e ∈ table, e.symbol = op) :
    table.tighter.any (·.has op) = true := by
  rw [List.any_eq_true]
  obtain rfl | ⟨e, he, rfl⟩ := known
  · exact ⟨Level.equality, List.mem_cons_self, rfl⟩
  · obtain ⟨run, hrun, inRun⟩ := (mem_iff_runs e).1 he
    refine ⟨Level.ofEntries run, List.mem_cons_of_mem _
      (List.mem_reverse.2 (List.mem_map_of_mem hrun)), ?_⟩
    have some_entry : run.filter (·.symbol = e.symbol) ≠ [] :=
      List.ne_nil_of_mem (List.mem_filter.2 ⟨inRun, by simp⟩)
    rw [Level.has, Level.operator?_ofEntries, if_neg some_entry]
    rfl

/-- Below the arrow, operators are applied to their operands. -/
theorem faithful_tighter (noArrow : ∀ e ∈ table, e.symbol ≠ "->") :
    ∀ level ∈ table.tighter, level.Faithful := by
  intro level member op has x y
  obtain ⟨same, form, known⟩ :=
    of_operator?_tighter member (Level.operator?_of_has has)
  have same : op = (level.named op).symbol := Lexeme.operator.inj same
  rw [← same] at known
  have other : op ≠ "->" := by
    obtain rfl | ⟨e, he, rfl⟩ := known
    · decide
    · exact noArrow e he
  rw [Operator.build, form, Row.combine, if_neg other, ← same]

end FixityTable

theorem Level.faithful_arrow : Level.arrow.Faithful := by
  intro op has x y
  by_cases arrow : op = "->"
  · subst arrow
    rfl
  · rw [Level.has, Level.operator?, Level.arrow,
      List.find?_cons_of_neg (by simpa using Ne.symm arrow)] at has
    cases has

-- ========================================================== chains

namespace Grammar

variable {inp : Input} {r : Registry} {p : Parser Term}
  {levels : List Level} {i j k : Nat}

/-- An operand alone, where no operator of the levels follows. -/
theorem reads_chains_alone {x : Term} (h : Reads inp r p i j x)
    (stops : ∀ level ∈ levels,
      level.operator? (inp.tokenAt j).lexeme = none) :
    Reads inp r (chains p levels) i j x := by
  induction levels with
  | nil => exact h
  | cons level tighter ih =>
      have idle : Reads inp r (peekOperator level) j j none := by
        rw [← stops level List.mem_cons_self]
        exact reads_look fun t => level.operator? t.lexeme
      have rest := ih fun l hl => stops l (List.mem_cons_of_mem level hl)
      exact rest.bind (idle.bind (reads_pure x))

/-- Two operands with an operator of the levels between them. -/
theorem advances_pair (faithful : ∀ level ∈ levels, level.Faithful)
    {op : String} (known : levels.any (·.has op) = true) {x y : Term}
    (left : Advances inp r p i j (some x))
    (token : (inp.tokenAt j).lexeme = .operator op)
    (right : Advances inp r p (j + 1) k (some y))
    (stops : ∀ level ∈ levels,
      level.operator? (inp.tokenAt k).lexeme = none) :
    Advances inp r (chains p levels) i k (some (Row.combine op x y)) := by
  have laid : (⟨x, [(op, y)]⟩ : Row).LaidOut inp
      (fun i j x => Advances inp r p i j (some x)) i k :=
    ⟨j, left, .cons token right .nil⟩
  have only : ∀ o ∈ (⟨x, [(op, y)]⟩ : Row).operators,
      levels.any (·.has o) = true := by
    intro o ho
    rw [List.mem_singleton.1 ho]
    exact known
  have yields := chains_yields faithful laid only stops
  rw [Row.groupOver_pair known] at yields
  exact ⟨laid.lt fun h => h.1, yields⟩

-- ========================================================== arrows

/-- Operands with arrows between them, and the function type they
make. -/
inductive Arrows (inp : Input) (r : Registry) (p : Parser Term) :
    Nat → Nat → Term → Prop
  | last {i j : Nat} {x : Term} (h : Advances inp r p i j (some x)) :
      Arrows inp r p i j x
  | cons {i j k : Nat} {x y : Term}
      (first : Advances inp r p i j (some x))
      (token : (inp.tokenAt j).lexeme = .operator "->")
      (more : Arrows inp r p (j + 1) k y) :
      Arrows inp r p i k (Row.combine "->" x y)

/-- The operands of a chain of arrows, one by one. -/
theorem Arrows.operands {t : Term} (h : Arrows inp r p i k t) :
    ∃ j x, ∃ ys : List Term, Advances inp r p i j (some x)
      ∧ Follow inp (Advances inp r p) j
        (ys.map fun y => ("->", some y)) k
      ∧ t = Row.foldRight x (ys.map fun y => ("->", y)) := by
  induction h with
  | last h => exact ⟨_, _, [], h, .nil, rfl⟩
  | cons first token _ ih =>
      obtain ⟨j, y, ys, next, rest, rfl⟩ := ih
      exact ⟨_, _, y :: ys, first, .cons token next rest, rfl⟩

theorem collect_arrows (ys : List Term) :
    Row.collect (ys.map fun y => ("->", some y))
      = some (ys.map fun y => ("->", y)) := by
  induction ys with
  | nil => rfl
  | cons y ys ih => rw [List.map_cons, Row.collect, ih]; rfl

/-- Arrows join from the right. -/
theorem join_arrows (x : Term) (ys : List Term) :
    Row.join (fun op => (Level.arrow.named op).assoc) x
        (ys.map fun y => ("->", y))
      = some (Row.foldRight x (ys.map fun y => ("->", y))) := by
  have right : (Level.arrow.named "->").assoc = .right := rfl
  cases ys with
  | nil => exact Row.join_nil _ x
  | cons y ys =>
      unfold Row.join
      rw [if_neg, if_pos]
      · intro c hc
        obtain ⟨_, -, rfl⟩ := List.mem_map.1 hc
        exact right
      · intro all
        have left : (Level.arrow.named "->").assoc = .left :=
          all _ List.mem_cons_self
        rw [right] at left
        cases left

theorem Arrows.advances {t : Term} (h : Arrows inp r p i k t)
    (stops : Level.arrow.operator? (inp.tokenAt k).lexeme = none) :
    Advances inp r (chain Level.arrow p) i k (some t) := by
  obtain ⟨j, x, ys, first, rest, rfl⟩ := h.operands
  have has : ∀ op ∈ (ys.map fun y => ("->", some y)).map Prod.fst,
      Level.arrow.has op = true := by
    intro op hop
    obtain ⟨c, hc, rfl⟩ := List.mem_map.1 hop
    obtain ⟨_, -, rfl⟩ := List.mem_map.1 hc
    rfl
  have yields := chain_yields first rest has Level.faithful_arrow stops
  simp only [collect_arrows, Option.bind_some, join_arrows] at yields
  refine ⟨Nat.lt_of_lt_of_le first.1 (rest.le fun h => h.1), yields⟩

end Grammar

end DepLang

/-
The order of a fixity table, and what its levels keep of it. The table
stands by precedence and then by operator (`InOrder`), which every
declaration keeps. Its levels are those of its precedences, the highest
first, each with all entries of its precedence, side by side
(`levels_eq`, `perm_levelAt`).

The order of the table leaves open how entries stand that differ in
their side only, and there the newest comes first. No level shows it,
since it tells the sides apart: two tables with the same entries, each
as often, have the same levels (`levels_eq_of_perm`).
-/
import DepLang.Proofs.Operators.Levels

namespace DepLang

-- =========================================================== entries

namespace FixityEntry

variable {x y z : FixityEntry}

theorem le_iff : x.le y = true ↔ x.fixity.prec < y.fixity.prec
    ∨ x.fixity.prec = y.fixity.prec ∧ x.symbol ≤ y.symbol := by
  simp [le]

theorem le_trans (first : x.le y = true) (second : y.le z = true) :
    x.le z = true := by
  rw [le_iff] at *
  rcases first with less | ⟨same, symbols⟩
  · exact .inl (by omega)
  · rcases second with less | ⟨same', symbols'⟩
    · exact .inl (by omega)
    · exact .inr ⟨same.trans same', String.le_trans symbols symbols'⟩

theorem le_of_not_le (h : ¬x.le y = true) : y.le x = true := by
  rw [le_iff] at *
  rcases Nat.lt_trichotomy x.fixity.prec y.fixity.prec with lt | eq | gt
  · exact absurd (.inl lt) h
  · refine .inr ⟨eq.symm, ?_⟩
    exact (String.le_total x.symbol y.symbol).resolve_left
      fun le => h (.inr ⟨eq, le⟩)
  · exact .inl gt

/-- Entries that stand before each other are one, if they have one
side. -/
theorem eq_of_le (first : x.le y = true) (second : y.le x = true)
    (side : x.fixity.assoc = y.fixity.assoc) : x = y := by
  obtain ⟨⟨assoc, prec⟩, symbol⟩ := x
  obtain ⟨⟨assoc', prec'⟩, symbol'⟩ := y
  rw [le_iff] at first second
  dsimp only at first second side
  obtain rfl : prec = prec' := by omega
  obtain rfl : symbol = symbol' :=
    String.le_antisymm (first.resolve_left (by omega)).2
      (second.resolve_left (by omega)).2
  rw [side]

end FixityEntry

namespace FixityTable

variable {table table' : FixityTable}

-- ============================================================ order

/-- The table stands by precedence, and then by operator. -/
def InOrder (table : FixityTable) : Prop :=
  table.Pairwise fun x y => x.le y = true

theorem InOrder.sorted (h : table.InOrder) : table.Sorted := by
  refine List.Pairwise.imp (fun {x y} le => ?_) h
  rcases FixityEntry.le_iff.1 le with less | ⟨same, -⟩ <;> omega

/-- Declaring operators puts the table in order. -/
theorem inOrder_add (entries : List FixityEntry) (table : FixityTable) :
    InOrder (add entries table) :=
  pairwise_sort id FixityEntry.le_of_not_le FixityEntry.le_trans _

end FixityTable

-- ======================================================== one level

/-- The place of a side within a level. -/
def Assoc.turn : Assoc → Nat
  | .right => 0
  | .left => 1
  | .neither => 2

namespace Level

variable (entries : List FixityEntry)

/-- A level has all the entries that it is made of. -/
theorem perm_ofEntries : (ofEntries entries).Perm (entries.map declared) := by
  induction entries with
  | nil => exact .refl _
  | cons e entries ih =>
      refine .trans ?_ (ih.cons (declared e))
      unfold ofEntries
      cases side : e.fixity.assoc with
      | right => simp [side]
      | left =>
          simp only [side, List.filter_cons, reduceCtorEq, decide_false,
            decide_true, Bool.false_eq_true, if_false, if_true,
            List.map_cons, List.append_assoc, List.cons_append]
          exact List.perm_middle
      | neither =>
          simp only [side, List.filter_cons, reduceCtorEq, decide_false,
            decide_true, Bool.false_eq_true, if_false, if_true,
            List.map_cons]
          exact List.perm_middle

theorem pairwise_ofEntries :
    (ofEntries entries).Pairwise fun x y => x.assoc.turn ≤ y.assoc.turn := by
  have turn (side : Assoc) : ∀ op ∈ (entries.filter
      (·.fixity.assoc = side)).map declared, op.assoc.turn = side.turn := by
    intro op hop
    obtain ⟨e, he, rfl⟩ := List.mem_map.1 hop
    have sided := (List.mem_filter.1 he).2
    rw [decide_eq_true_eq] at sided
    exact congrArg Assoc.turn sided
  have alike (side : Assoc) : ((entries.filter
      (·.fixity.assoc = side)).map declared).Pairwise
        fun x y => x.assoc.turn ≤ y.assoc.turn :=
    List.pairwise_of_forall_mem_list fun x hx y hy =>
      Nat.le_of_eq ((turn side x hx).trans (turn side y hy).symm)
  refine List.pairwise_append.2 ⟨List.pairwise_append.2
    ⟨alike .right, alike .left, fun x hx y _ => ?_⟩, alike .neither,
    fun x hx y hy => ?_⟩
  · rw [turn .right x hx]
    exact Nat.zero_le _
  · rw [turn .neither y hy]
    cases x.assoc <;> decide

end Level

-- ======================================================= all levels

namespace FixityTable

variable {table table' : FixityTable}

/-- The level of the entries of a precedence, the last one first. -/
def levelAt (table : FixityTable) (prec : Nat) : Level :=
  Level.ofEntries (table.reverse.filter (·.fixity.prec = prec))

/-- The precedences of a table, the highest first. -/
def precs (table : FixityTable) : List Nat := table.runs.map runPrec

/-- A run has the entries of its precedence, as they stand. -/
theorem run_eq_filter (sorted : table.Sorted) {run : List FixityEntry}
    (h : run ∈ table.runs) :
    table.reverse.filter (·.fixity.prec = runPrec run) = run := by
  obtain ⟨entries, -, descending⟩ := runs_spec sorted
  have own : ∀ other ∈ table.runs, ∀ e ∈ other,
      e.fixity.prec = runPrec other :=
    fun other ho e he => ((entries other ho e).1 he).2
  obtain ⟨above, below, split⟩ := List.append_of_mem h
  rw [split] at descending own
  obtain ⟨-, after, before⟩ := List.pairwise_append.1 descending
  have none_of {runs : List (List FixityEntry)}
      (differ : ∀ other ∈ runs, runPrec other ≠ runPrec run)
      (within : ∀ other ∈ runs, other ∈ above ++ run :: below) :
      runs.flatten.filter (·.fixity.prec = runPrec run) = [] := by
    refine List.filter_eq_nil_iff.2 fun e he => ?_
    obtain ⟨other, ho, he⟩ := List.mem_flatten.1 he
    rw [decide_eq_true_eq, own other (within other ho) e he]
    exact differ other ho
  rw [← flatten_runs, split, List.flatten_append, List.flatten_cons,
    List.filter_append, List.filter_append,
    none_of (fun other ho =>
        Nat.ne_of_gt (before other ho run List.mem_cons_self))
      fun _ ho => List.mem_append_left _ ho,
    none_of (fun other ho =>
        Nat.ne_of_lt ((List.pairwise_cons.1 after).1 other ho))
      fun _ ho => List.mem_append_right _ (List.mem_cons_of_mem _ ho),
    List.nil_append, List.append_nil]
  refine List.filter_eq_self.2 fun e he => ?_
  exact decide_eq_true
    (own run (List.mem_append_right _ List.mem_cons_self) e he)

/-- The levels are those of the precedences, each with its entries. -/
theorem levels_eq (sorted : table.Sorted) :
    table.levels
      = table.precs.map table.levelAt ++ [Level.equality, Level.arrow] := by
  show table.runs.map Level.ofEntries ++ _ = _
  rw [precs, List.map_map]
  refine congrArg (· ++ _) (List.map_congr_left fun run hrun => ?_)
  exact congrArg Level.ofEntries (run_eq_filter sorted hrun).symm

theorem mem_precs (sorted : table.Sorted) {prec : Nat} :
    prec ∈ table.precs ↔ ∃ e ∈ table, e.fixity.prec = prec := by
  obtain ⟨entries, covered, -⟩ := runs_spec sorted
  rw [precs, List.mem_map]
  constructor
  · rintro ⟨run, hrun, rfl⟩
    obtain ⟨e, he⟩ := List.exists_mem_of_ne_nil run
      (ne_of_mem_of_not_mem hrun (List.nil_notMem_splitBy _ _))
    exact ⟨e, (entries run hrun e).1 he⟩
  · rintro ⟨e, he, rfl⟩
    exact covered e he

theorem pairwise_precs (sorted : table.Sorted) :
    table.precs.Pairwise (· > ·) :=
  List.pairwise_map.2 (runs_spec sorted).2.2

/-- A level has all entries of its precedence. -/
theorem perm_levelAt (prec : Nat) : (table.levelAt prec).Perm
    ((table.filter (·.fixity.prec = prec)).map Level.declared) := by
  refine (Level.perm_ofEntries _).trans (.map _ ?_)
  exact (List.reverse_perm table).filter _

/-- In a level the entries of one side stand in the order of the
table, which is one order for all tables with these entries. -/
theorem levelAt_eq_of_perm (h : table.InOrder) (h' : table'.InOrder)
    (perm : table.Perm table') (prec : Nat) :
    table.levelAt prec = table'.levelAt prec := by
  have sided (side : Assoc) : table.filter (·.fixity.assoc = side)
      = table'.filter (·.fixity.assoc = side) := by
    refine (perm.filter _).eq_of_pairwise ?_ (h.filter _) (h'.filter _)
    intro x y hx hy first second
    have hx := (List.mem_filter.1 hx).2
    have hy := (List.mem_filter.1 hy).2
    rw [decide_eq_true_eq] at hx hy
    exact FixityEntry.eq_of_le first second (hx.trans hy.symm)
  have both (side : Assoc) :
      (table.reverse.filter (·.fixity.prec = prec)).filter
          (·.fixity.assoc = side)
        = (table'.reverse.filter (·.fixity.prec = prec)).filter
          (·.fixity.assoc = side) := by
    rw [List.filter_comm, List.filter_reverse, sided, ← List.filter_reverse,
      List.filter_comm]
  unfold levelAt Level.ofEntries
  simp only [both]

/-- Two tables with the same entries have the same levels. -/
theorem levels_eq_of_perm (h : table.InOrder) (h' : table'.InOrder)
    (perm : table.Perm table') : table.levels = table'.levels := by
  have same : table.precs = table'.precs := by
    have members : ∀ prec, prec ∈ table.precs ↔ prec ∈ table'.precs := by
      intro prec
      rw [mem_precs h.sorted, mem_precs h'.sorted]
      simp only [perm.mem_iff]
    have once {precs : List Nat} (falling : precs.Pairwise (· > ·)) :
        precs.Nodup := falling.imp fun greater => Nat.ne_of_gt greater
    refine ((List.perm_ext_iff_of_nodup (once (pairwise_precs h.sorted))
      (once (pairwise_precs h'.sorted))).2 members).eq_of_pairwise ?_
      (pairwise_precs h.sorted) (pairwise_precs h'.sorted)
    exact fun x y _ _ gt lt => absurd lt (Nat.lt_asymm gt)
  rw [levels_eq h.sorted, levels_eq h'.sorted, same]
  refine congrArg (· ++ _) (List.map_congr_left fun prec _ => ?_)
  exact levelAt_eq_of_perm h h' perm prec

end FixityTable

end DepLang

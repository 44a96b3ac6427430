/-
Climbing the levels is cutting at the loosest operators. Grouping over a
table's levels looks for each operator at the tightest level that has
it; the reference looks for the loosest rank in the row. They meet
because the levels come in the order of ranks: as long as no operator of
the row has the rank of the loosest level, that level passes the row on
whole (`groupOver_cons_of_not_rank`), and when some have, theirs is the
row's loosest rank (`groupOver_cons_of_rank`).
-/
import DepLang.Proofs.Operators.Levels

namespace DepLang

namespace FixityTable

variable {table : FixityTable} {op : String}

-- ========================================================== highest

/-- The highest precedence of a declared operator is the greatest one of
its entries. -/
theorem max?_eq_highest (declared : ∃ e ∈ table, e.symbol = op) :
    ((table.filter (·.symbol = op)).map (·.fixity.prec)).max?
      = some (table.highest op) := by
  obtain ⟨e, he, named⟩ := declared
  unfold highest
  cases most : ((table.filter (·.symbol = op)).map
      (·.fixity.prec)).max? with
  | none =>
      rw [List.max?_eq_none_iff, List.map_eq_nil_iff,
        List.filter_eq_nil_iff] at most
      exact absurd (decide_eq_true named) (most e he)
  | some k => rfl

/-- No entry of an operator is above its highest precedence. -/
theorem le_highest {e : FixityEntry} (he : e ∈ table)
    (named : e.symbol = op) : e.fixity.prec ≤ table.highest op := by
  have greatest := max?_eq_highest ⟨e, he, named⟩
  exact (List.max?_eq_some_iff.1 greatest).2 _
    (List.mem_map.2 ⟨e, List.mem_filter.2 ⟨he, decide_eq_true named⟩, rfl⟩)

/-- A declared operator has entries at its highest precedence. -/
theorem entriesAt_highest (declared : ∃ e ∈ table, e.symbol = op) :
    table.entriesAt op (table.highest op) ≠ [] := by
  obtain ⟨top, htop, same⟩ :=
    List.mem_map.1 (List.max?_mem (max?_eq_highest declared))
  obtain ⟨member, named⟩ := List.mem_filter.1 htop
  refine List.ne_nil_of_mem (a := top) (List.mem_filter.2 ⟨member, ?_⟩)
  simpa [same] using named

-- ============================================================ ranks

/-- The table leaves equality and the arrow alone. -/
def Plain (table : FixityTable) : Prop :=
  ∀ e ∈ table, e.symbol ≠ "=" ∧ e.symbol ≠ "->"

/-- The operator is one of the table, equality or the arrow. -/
def Offers (table : FixityTable) (op : String) : Prop :=
  op = "=" ∨ op = "->" ∨ ∃ e ∈ table, e.symbol = op

/-- At its rank an operator is what the reference takes it for. -/
theorem operatorAt_rank (plain : table.Plain) (offers : table.Offers op) :
    ∃ form, table.operatorAt (table.rank op) op
      = some ⟨op, table.side op, form⟩ := by
  rcases offers with rfl | rfl | declared
  · exact ⟨.application, rfl⟩
  · exact ⟨.arrow, rfl⟩
  · obtain ⟨e, he, rfl⟩ := declared
    obtain ⟨noEquality, noArrow⟩ := plain e he
    refine ⟨.application, ?_⟩
    rw [rank, side, if_neg noArrow, if_neg noEquality, if_neg noArrow,
      if_neg noEquality, operatorAt,
      if_neg (entriesAt_highest ⟨e, he, rfl⟩)]

/-- Above its rank an operator is unknown. -/
theorem le_rank (plain : table.Plain) {key : Nat}
    (known : table.operatorAt key op ≠ none) : key ≤ table.rank op := by
  unfold operatorAt at known
  unfold rank
  split at known
  · exact Nat.zero_le _
  · have equality : op = "=" := by
      by_contra h
      rw [if_neg h] at known
      exact known rfl
    subst equality
    exact Nat.le_refl _
  next prec =>
    have some_entry : table.entriesAt op prec ≠ [] := by
      intro none
      rw [if_pos none] at known
      exact known rfl
    obtain ⟨e, he⟩ := List.exists_mem_of_ne_nil _ some_entry
    obtain ⟨member, rfl, rfl⟩ : e ∈ table ∧ e.symbol = op
        ∧ e.fixity.prec = prec := by
      simpa [entriesAt] using he
    obtain ⟨noEquality, noArrow⟩ := plain e member
    rw [if_neg noArrow, if_neg noEquality]
    exact Nat.add_le_add_right (le_highest member rfl) 2

end FixityTable

-- ========================================================= grouping

namespace Row

open FixityTable

variable {table : FixityTable}

/-- Joining looks at the sides of the row's own operators only. -/
theorem join_congr {side side' : String → Assoc} {x : Term}
    {ts : List (String × Term)}
    (same : ∀ op ∈ ts.map Prod.fst, side op = side' op) :
    join side x ts = join side' x ts := by
  have like (a : Assoc) : (∀ c ∈ ts, side c.1 = a)
      ↔ ∀ c ∈ ts, side' c.1 = a :=
    forall₂_congr fun c hc => by
      rw [same c.1 (List.mem_map_of_mem hc)]
  unfold join
  simp only [like]

theorem join_nil (side : String → Assoc) (x : Term) :
    join side x [] = some x :=
  rfl

/-- Some of the levels has the operator if it is known at some of their
keys. -/
theorem any_has_iff {keys : List Nat} {levels : List Level} {op : String}
    (h : List.Forall₂ (fun key level => ∀ op,
      level.operator? (.operator op) = table.operatorAt key op) keys levels) :
    levels.any (·.has op) = true
      ↔ ∃ key ∈ keys, table.operatorAt key op ≠ none := by
  induction h with
  | nil => simp
  | cons here _ ih =>
      rw [List.any_cons, Bool.or_eq_true, ih, List.exists_mem_cons_iff,
        Level.has, here, Option.isSome_iff_ne_none]

/-- The loosest of the given keys that a row's operators have is the
row's loosest rank. -/
theorem loosest_eq {key : Nat} {row : Row}
    (least : ∀ op ∈ row.operators, key ≤ table.rank op)
    (some_here : ∃ op ∈ row.operators, table.rank op = key) :
    row.loosest table = key := by
  obtain ⟨op, hop, rfl⟩ := some_here
  have full : row.rest ≠ [] := by
    intro none
    rw [operators, none] at hop
    cases hop
  obtain ⟨low, hlow, rank⟩ := exists_rank_eq_loosest table full
  exact Nat.le_antisymm (loosest_le hop) (rank ▸ least low hlow)

section
variable {key : Nat} {keys : List Nat} {level : Level} {levels : List Level}
  {row : Row}

/-- If the tighter levels stand at keys above this one, the operators that
none of them has are those of its rank. -/
theorem not_any_has_eq (plain : table.Plain)
    (tighter : List.Forall₂ (fun key level => ∀ op,
      level.operator? (.operator op) = table.operatorAt key op) keys levels)
    (above : ∀ k ∈ keys, key < k) {op : String} (offers : table.Offers op)
    (rank : table.rank op ∈ key :: keys) :
    (!levels.any (·.has op)) = decide (table.rank op = key) := by
  rw [Bool.eq_iff_iff, Bool.not_eq_true', Bool.eq_false_iff,
    decide_eq_true_eq, Ne, any_has_iff tighter]
  constructor
  · intro unknown
    refine (List.mem_cons.1 rank).resolve_right fun h => ?_
    obtain ⟨form, known⟩ := operatorAt_rank plain offers
    exact unknown ⟨_, h, by rw [known]; exact Option.some_ne_none _⟩
  · rintro rfl ⟨k, hk, known⟩
    exact absurd (le_rank plain known) (Nat.not_le_of_lt (above k hk))

/-- A level groups the operators of its rank to their sides. -/
theorem assoc_named (plain : table.Plain)
    (here : ∀ op, level.operator? (.operator op) = table.operatorAt key op)
    {op : String} (offers : table.Offers op)
    (rank : table.rank op = key) :
    (level.named op).assoc = table.side op := by
  obtain ⟨form, known⟩ := operatorAt_rank plain offers
  rw [rank, ← here] at known
  rw [Level.named, known, Option.getD_some]

variable (cuts : ∀ op ∈ row.operators,
  (!levels.any (·.has op)) = decide (table.rank op = key))
include cuts

/-- A level groups a row as the table does, if its rank is the row's
loosest and the tighter levels do so with the pieces. -/
theorem groupOver_cons_of_rank (plain : table.Plain)
    (here : ∀ op, level.operator? (.operator op) = table.operatorAt key op)
    (offers : ∀ op ∈ row.operators, table.Offers op)
    (least : ∀ op ∈ row.operators, key ≤ table.rank op)
    (some_here : ∃ op ∈ row.operators, table.rank op = key)
    (inside : ∀ piece : Row, (∀ op ∈ piece.operators,
      op ∈ row.operators ∧ table.rank op ≠ key) →
      piece.groupOver levels = piece.group table) :
    row.groupOver (level :: levels) = row.group table := by
  have full : row.rest ≠ [] := by
    obtain ⟨op, hop, -⟩ := some_here
    intro none
    rw [operators, none] at hop
    cases hop
  have pieces : row.pieces table
      = cut (fun op => decide (table.rank op = key)) row.first row.rest := by
    rw [Row.pieces, loosest_eq least some_here]
  rw [group_split table full, pieces]
  simp only [groupOver]
  rw [cut_congr cuts]
  have members := mem_operators_cut
    (fun op => decide (table.rank op = key)) row.first row.rest
  have kept := kept_of_mem_cut
    (fun op => decide (table.rank op = key)) row.first row.rest
  have picked := picked_of_mem_cut
    (fun op => decide (table.rank op = key)) row.first row.rest
  generalize cut (fun op => decide (table.rank op = key)) row.first
    row.rest = pieces at members kept picked ⊢
  have first : pieces.1.groupOver levels = pieces.1.group table :=
    inside pieces.1 fun op hop =>
      ⟨(members op).2 (.inl hop), of_decide_eq_false (kept.1 op hop)⟩
  have others : (pieces.2.map fun c => (c.1, c.2.groupOver levels))
      = pieces.2.map fun c => (c.1, c.2.group table) :=
    List.map_congr_left fun c hc => by
      rw [inside c.2 fun op hop => ⟨(members op).2 (.inr ⟨c, hc, .inr hop⟩),
        of_decide_eq_false (kept.2 c hc op hop)⟩]
  rw [first, others]
  congr 1
  funext t
  cases all : collect (pieces.2.map fun c => (c.1, c.2.group table)) with
  | none => rfl
  | some ts =>
      show join (fun op => (level.named op).assoc) t ts
        = join table.side t ts
      refine join_congr fun op hop => ?_
      rw [operators_of_collect all, List.map_map] at hop
      obtain ⟨c, hc, rfl⟩ := List.mem_map.1 hop
      have offered := offers c.1 ((members c.1).2 (.inr ⟨c, hc, .inl rfl⟩))
      exact assoc_named plain here offered (of_decide_eq_true (picked c hc))

/-- A level whose rank no operator of the row has passes the row on. -/
theorem groupOver_cons_of_not_rank
    (none_here : ∀ op ∈ row.operators, table.rank op ≠ key) :
    row.groupOver (level :: levels) = row.groupOver levels := by
  have whole : cut (fun op => decide (table.rank op = key)) row.first
      row.rest = (row, []) :=
    cut_none fun op hop => decide_eq_false (none_here op hop)
  simp only [groupOver]
  rw [cut_congr cuts, whole]
  simp [collect, join_nil]

end

/-- Grouping over ranked levels is grouping at the loosest rank. -/
theorem groupOver_eq_group (plain : table.Plain) {keys : List Nat}
    {levels : List Level} (ranked : Ranked table keys levels) :
    ∀ {row : Row}, (∀ op ∈ row.operators, table.Offers op) →
      (∀ op ∈ row.operators, table.rank op ∈ keys) →
      row.groupOver levels = row.group table := by
  obtain ⟨operators, increasing⟩ := ranked
  induction operators with
  | nil =>
      intro row _ ranks
      have single : row.rest = [] := by
        cases h : row.rest with
        | nil => rfl
        | cons c rest =>
            have := ranks c.1 (by simp [Row.operators, h])
            cases this
      obtain ⟨x, rest⟩ := row
      cases single
      rw [group_single, groupOver, if_pos rfl]
  | @cons key level keys levels here tighter ih =>
      intro row offers ranks
      obtain ⟨above, increasing⟩ := List.pairwise_cons.1 increasing
      have cuts : ∀ op ∈ row.operators,
          (!levels.any (·.has op)) = decide (table.rank op = key) :=
        fun op hop => not_any_has_eq plain tighter above (offers op hop)
          (ranks op hop)
      by_cases some_here : ∃ op ∈ row.operators, table.rank op = key
      · have least : ∀ op ∈ row.operators, key ≤ table.rank op := by
          intro op hop
          rcases List.mem_cons.1 (ranks op hop) with h | h
          · exact Nat.le_of_eq h.symm
          · exact Nat.le_of_lt (above _ h)
        refine groupOver_cons_of_rank cuts plain here offers least some_here
          fun piece part => ?_
        refine ih increasing (fun op hop => offers op (part op hop).1) ?_
        exact fun op hop => (List.mem_cons.1 (ranks op (part op hop).1))
          |>.resolve_left (part op hop).2
      · have none_here : ∀ op ∈ row.operators, table.rank op ≠ key :=
          fun op hop h => some_here ⟨op, hop, h⟩
        rw [groupOver_cons_of_not_rank cuts none_here]
        refine ih increasing offers fun op hop => ?_
        exact (List.mem_cons.1 (ranks op hop)).resolve_left
          (none_here op hop)

end Row

end DepLang

/-
How operators group, said without a parser. An expression is first a
row of operands with an operator before each but the first. The row is
cut at all its loosest operators; the pieces are grouped in the same
way, and the operators that cut it must all group to the left, or all to
the right, or be a single one that groups to neither.

An operator counts by its highest precedence only, and there as grouping
to the right if any entry says so, else to the left if any says that.
Equality is looser than every declared operator, and the function arrow
looser still.
-/
import DepLang.Grammar.Operators

namespace DepLang

-- ============================================================ ranks

namespace FixityTable

variable (table : FixityTable)

/-- The entries of an operator at one precedence. -/
def entriesAt (op : String) (prec : Nat) : List FixityEntry :=
  table.filter fun e => e.symbol = op ∧ e.fixity.prec = prec

/-- The highest precedence that the operator is declared with. -/
def highest (op : String) : Nat :=
  ((table.filter (·.symbol = op)).map (·.fixity.prec)).max?.getD 0

/-- The side that entries of one operator and precedence agree on. -/
def sideOf (entries : List FixityEntry) : Assoc :=
  if entries.any (·.fixity.assoc = .right) then .right
  else if entries.any (·.fixity.assoc = .left) then .left
  else .neither

/-- How tightly the operator binds. -/
def rank (op : String) : Nat :=
  if op = "->" then 0
  else if op = "=" then 1
  else table.highest op + 2

/-- The side to which the operator groups. -/
def side (op : String) : Assoc :=
  if op = "->" then .right
  else if op = "=" then .left
  else sideOf (table.entriesAt op (table.highest op))

end FixityTable

-- ============================================================= rows

/-- Operands, with an operator before each but the first. -/
structure Row where
  first : Term
  rest : List (String × Term)
  deriving Inhabited

namespace Row

/-- The operators of a row, in order. -/
def operators (row : Row) : List String := row.rest.map Prod.fst

/-- Cuts the row that starts with the operand `x` at the operators that
are picked: the first piece, and the others with the operators before
them. -/
def cut (picked : String → Bool) (x : Term) :
    List (String × Term) → Row × List (String × Row)
  | [] => (⟨x, []⟩, [])
  | (op, y) :: rest =>
    let (piece, others) := cut picked y rest
    if picked op then (⟨x, []⟩, (op, piece) :: others)
    else (⟨x, (op, y) :: piece.rest⟩, others)

/-- The term that an operator stands for. -/
def combine (op : String) (x y : Term) : Term :=
  if op = "->" then
    .pi .explicit (.machine 0 "X") x y (joinSpans x y)
  else .app (.ref (.ofText op) none) [] [x, y] (joinSpans x y)

/-- Operands joined from the left. -/
def foldLeft (x : Term) (rest : List (String × Term)) : Term :=
  rest.foldl (fun t (op, y) => combine op t y) x

/-- Operands joined from the right. -/
def foldRight (x : Term) : List (String × Term) → Term
  | [] => x
  | (op, y) :: rest => combine op x (foldRight y rest)

/-- Operands joined by operators of one rank, if these agree on a side
or there is only one. -/
def join (side : String → Assoc) (x : Term)
    (rest : List (String × Term)) : Option Term :=
  if ∀ c ∈ rest, side c.1 = .left then some (foldLeft x rest)
  else if ∀ c ∈ rest, side c.1 = .right then some (foldRight x rest)
  else
    match rest with
    | [(op, y)] => some (combine op x y)
    | _ => none

/-- The rank of the row's loosest operator. -/
def loosest (table : FixityTable) (row : Row) : Nat :=
  (row.operators.map table.rank).min?.getD 0

-- ============================================================= cuts

variable {picked : String → Bool}

theorem cut_nil (x : Term) : cut picked x [] = (⟨x, []⟩, []) := rfl

theorem cut_picked {op : String} (h : picked op = true) (x y : Term)
    (rest : List (String × Term)) :
    cut picked x ((op, y) :: rest)
      = (⟨x, []⟩, (op, (cut picked y rest).1) :: (cut picked y rest).2) := by
  simp only [cut, if_pos h]

theorem cut_kept {op : String} (h : picked op = false) (x y : Term)
    (rest : List (String × Term)) :
    cut picked x ((op, y) :: rest)
      = (⟨x, (op, y) :: (cut picked y rest).1.rest⟩,
        (cut picked y rest).2) := by
  simp [cut, h]

/-- The first piece of a cut row starts as the row does. -/
theorem first_cut (x : Term) (rest : List (String × Term)) :
    (cut picked x rest).1.first = x := by
  cases rest with
  | nil => rfl
  | cons c rest =>
      obtain ⟨op, y⟩ := c
      cases h : picked op with
      | true => rw [cut_picked h]
      | false => rw [cut_kept h]

/-- The operators of a row are those of its pieces and those it was cut
at. -/
theorem operators_cut (picked : String → Bool) (x : Term)
    (rest : List (String × Term)) :
    rest.map Prod.fst = (cut picked x rest).1.operators
      ++ (cut picked x rest).2.flatMap fun c => c.1 :: c.2.operators := by
  induction rest generalizing x with
  | nil => rfl
  | cons c rest ih =>
      obtain ⟨op, y⟩ := c
      cases h : picked op with
      | true =>
          rw [cut_picked h, List.map_cons, ih y]
          rfl
      | false =>
          rw [cut_kept h, List.map_cons, ih y]
          rfl

/-- Each operator of a row is in a piece or between two. -/
theorem mem_operators_cut (picked : String → Bool) (x : Term)
    (rest : List (String × Term)) (op : String) :
    op ∈ rest.map Prod.fst ↔ op ∈ (cut picked x rest).1.operators
      ∨ ∃ c ∈ (cut picked x rest).2, op = c.1 ∨ op ∈ c.2.operators := by
  rw [operators_cut picked x rest, List.mem_append,
    List.mem_flatMap]
  simp only [List.mem_cons]

/-- A row is cut at picked operators only. -/
theorem picked_of_mem_cut (picked : String → Bool) (x : Term)
    (rest : List (String × Term)) :
    ∀ c ∈ (cut picked x rest).2, picked c.1 = true := by
  induction rest generalizing x with
  | nil =>
      intro c hc
      cases hc
  | cons c rest ih =>
      obtain ⟨op, y⟩ := c
      cases h : picked op with
      | true =>
          rw [cut_picked h]
          intro d hd
          rcases List.mem_cons.1 hd with rfl | hd
          · exact h
          · exact ih y d hd
      | false =>
          rw [cut_kept h]
          exact ih y

/-- A row is cut at all picked operators. -/
theorem kept_of_mem_cut (picked : String → Bool) (x : Term)
    (rest : List (String × Term)) :
    (∀ op ∈ (cut picked x rest).1.operators, picked op = false)
      ∧ ∀ c ∈ (cut picked x rest).2, ∀ op ∈ c.2.operators,
        picked op = false := by
  induction rest generalizing x with
  | nil => simp [cut_nil, operators]
  | cons c rest ih =>
      obtain ⟨op, y⟩ := c
      obtain ⟨first, others⟩ := ih y
      cases h : picked op with
      | true =>
          rw [cut_picked h]
          refine ⟨by simp [operators], fun d hd => ?_⟩
          rcases List.mem_cons.1 hd with rfl | hd
          · exact first
          · exact others d hd
      | false =>
          rw [cut_kept h]
          refine ⟨fun o ho => ?_, others⟩
          rcases List.mem_cons.1 ho with rfl | ho
          · exact h
          · exact first o ho

/-- Where no operator is picked, the row stays whole. -/
theorem cut_none {x : Term} {rest : List (String × Term)}
    (h : ∀ op ∈ rest.map Prod.fst, picked op = false) :
    cut picked x rest = (⟨x, rest⟩, []) := by
  induction rest generalizing x with
  | nil => rfl
  | cons c rest ih =>
      obtain ⟨op, y⟩ := c
      rw [cut_kept (h op List.mem_cons_self),
        ih fun o ho => h o (List.mem_cons_of_mem _ ho)]

/-- What is picked matters only for the operators of the row. -/
theorem cut_congr {picked' : String → Bool} {x : Term}
    {rest : List (String × Term)}
    (h : ∀ op ∈ rest.map Prod.fst, picked op = picked' op) :
    cut picked x rest = cut picked' x rest := by
  induction rest generalizing x with
  | nil => rfl
  | cons c rest ih =>
      obtain ⟨op, y⟩ := c
      have same := h op List.mem_cons_self
      have later := ih (x := y) fun o ho => h o (List.mem_cons_of_mem _ ho)
      rw [cut, cut, same, later]

/-- Pieces between cuts are shorter than the row. -/
theorem length_cut_lt {x : Term} {rest : List (String × Term)}
    (h : ∃ op ∈ rest.map Prod.fst, picked op = true) :
    (cut picked x rest).1.rest.length < rest.length
      ∧ ∀ c ∈ (cut picked x rest).2, c.2.rest.length < rest.length := by
  have split := operators_cut picked x rest
  have total := congrArg List.length split
  rw [List.length_map, List.length_append] at total
  have member : ∀ c ∈ (cut picked x rest).2, c.2.rest.length
      < ((cut picked x rest).2.flatMap fun c =>
          c.1 :: c.2.operators).length := by
    intro c hc
    have part : (c.1 :: c.2.operators).length
        ≤ ((cut picked x rest).2.flatMap fun c =>
            c.1 :: c.2.operators).length :=
      (List.sublist_flatten_of_mem
        (List.mem_map_of_mem
          (f := fun c : String × Row => c.1 :: c.2.operators)
          hc)).length_le
    rw [List.length_cons, operators, List.length_map] at part
    exact part
  rw [operators, List.length_map] at total
  constructor
  · obtain ⟨op, hop, yes⟩ := h
    rw [split, List.mem_append] at hop
    rcases hop with hop | hop
    · rw [(kept_of_mem_cut picked x rest).1 op hop] at yes
      cases yes
    · obtain ⟨c, hc, -⟩ := List.mem_flatMap.1 hop
      have := member c hc
      omega
  · intro c hc
    have := member c hc
    omega

-- ========================================================= grouping

/-- Some operator of a row is the loosest. -/
theorem exists_rank_eq_loosest (table : FixityTable) {row : Row}
    (h : row.rest ≠ []) :
    ∃ op ∈ row.operators, table.rank op = row.loosest table := by
  unfold loosest
  cases least : (row.operators.map table.rank).min? with
  | none =>
      rw [List.min?_eq_none_iff] at least
      simp [operators] at least
      exact absurd least h
  | some k => exact List.mem_map.1 (List.min?_mem least)

/-- No operator of a row is looser than the loosest. -/
theorem loosest_le {table : FixityTable} {row : Row} {op : String}
    (h : op ∈ row.operators) : row.loosest table ≤ table.rank op := by
  have ranked := List.mem_map_of_mem (f := table.rank) h
  unfold loosest
  cases least : (row.operators.map table.rank).min? with
  | none =>
      rw [List.min?_eq_none_iff] at least
      rw [least] at ranked
      cases ranked
  | some k => exact (List.min?_eq_some_iff.1 least).2 _ ranked

/-- The row's pieces, cut at its loosest operators. -/
def pieces (table : FixityTable) (row : Row) : Row × List (String × Row) :=
  cut (fun op => table.rank op = row.loosest table) row.first row.rest

theorem length_pieces_lt {table : FixityTable} {row : Row}
    (h : row.rest ≠ []) :
    (row.pieces table).1.rest.length < row.rest.length
      ∧ ∀ c ∈ (row.pieces table).2,
        c.2.rest.length < row.rest.length := by
  refine length_cut_lt ?_
  obtain ⟨op, hop, rank⟩ := exists_rank_eq_loosest table h
  exact ⟨op, hop, decide_eq_true rank⟩

/-- All the terms with their operators, if none is missing. -/
def collect : List (String × Option Term) → Option (List (String × Term))
  | [] => some []
  | (op, found) :: rest =>
    found.bind fun t => (collect rest).map ((op, t) :: ·)

/-- What is collected has the operators of what it is collected
from. -/
theorem operators_of_collect {found : List (String × Option Term)} :
    ∀ {ts : List (String × Term)}, collect found = some ts →
      ts.map Prod.fst = found.map Prod.fst := by
  induction found with
  | nil =>
      intro ts h
      cases h
      rfl
  | cons c found ih =>
      obtain ⟨op, t⟩ := c
      intro ts h
      rw [collect] at h
      obtain ⟨u, -, h⟩ := Option.bind_eq_some_iff.1 h
      obtain ⟨us, all, rfl⟩ := Option.map_eq_some_iff.1 h
      rw [List.map_cons, List.map_cons, ih all]

/-- The row grouped by its operators, if they can be. -/
def group (table : FixityTable) (row : Row) : Option Term :=
  if row.rest = [] then some row.first
  else
    let others := (row.pieces table).2.attach.map fun ⟨(op, piece), _⟩ =>
      (op, group table piece)
    (group table (row.pieces table).1).bind fun t =>
      (collect others).bind (join table.side t)
termination_by row.rest.length
decreasing_by
  · exact (length_pieces_lt ‹_›).2 _ ‹_›
  · exact (length_pieces_lt ‹_›).1

theorem group_single (table : FixityTable) (x : Term) :
    group table ⟨x, []⟩ = some x := by
  rw [group]
  rfl

/-- A row with operators is cut, and its pieces are grouped and
joined. -/
theorem group_split (table : FixityTable) {row : Row}
    (h : row.rest ≠ []) :
    group table row =
      (group table (row.pieces table).1).bind fun t =>
        (collect ((row.pieces table).2.map fun c =>
          (c.1, group table c.2))).bind (join table.side t) := by
  rw [group, if_neg h]
  rw [← List.attach_map_val (l := (row.pieces table).2)
    (f := fun c => (c.1, group table c.2))]

end Row

end DepLang

/-
The levels of a fixity table. The table is sorted by precedence, so its
runs of equal precedence are the precedences, each with all its entries;
with equality and the arrow below them the levels are those of the keys
0, 1 and `p + 2` for every precedence `p` in use, in strictly increasing
order (`levels_ranked`). What the level of a key makes of a symbol is
said by `operatorAt` from the table alone.
-/
import Mathlib.Data.List.SplitBy
import DepLang.Proofs.Operators.Chains

namespace DepLang

-- ========================================================== sorting

namespace FixityTable

/-- The table stands by ascending precedence. -/
def Sorted (table : FixityTable) : Prop :=
  table.Pairwise fun x y => x.fixity.prec ≤ y.fixity.prec

theorem mem_insert {x e : FixityEntry} {table : FixityTable} :
    e ∈ insert x table ↔ e = x ∨ e ∈ table :=
  (perm_insert x table).mem_iff.trans List.mem_cons

section
variable {R : FixityEntry → FixityEntry → Prop}
  (of_le : ∀ {x y : FixityEntry}, x.le y = true → R x y)
  (of_not_le : ∀ {x y : FixityEntry}, ¬x.le y = true → R y x)
  (trans : ∀ {x y z : FixityEntry}, R x y → R y z → R x z)
include of_le of_not_le trans

/-- An entry goes where the order of entries says. What follows from that
order holds between the entries of a table as before. -/
theorem pairwise_insert {table : FixityTable} (h : table.Pairwise R)
    (x : FixityEntry) : (insert x table).Pairwise R := by
  induction table with
  | nil => exact List.pairwise_singleton _ _
  | cons y rest ih =>
      obtain ⟨first, later⟩ := List.pairwise_cons.1 h
      rw [FixityTable.insert]
      split
      next before =>
        refine List.pairwise_cons.2 ⟨fun e he => ?_, h⟩
        rcases List.mem_cons.1 he with rfl | he
        · exact of_le before
        · exact trans (of_le before) (first e he)
      next after =>
        refine List.pairwise_cons.2 ⟨fun e he => ?_, ih later⟩
        rcases mem_insert.1 he with rfl | he
        · exact of_not_le after
        · exact first e he

theorem pairwise_sort (entries : List FixityEntry) :
    (sort entries).Pairwise R := by
  induction entries with
  | nil => exact .nil
  | cons e entries ih => exact pairwise_insert of_le of_not_le trans ih e

end

/-- Declaring operators sorts the table. -/
theorem sorted_add (entries : List FixityEntry) (table : FixityTable) :
    Sorted (add entries table) := by
  refine pairwise_sort (R := fun x y => x.fixity.prec ≤ y.fixity.prec)
    (fun before => ?_) (fun after => ?_) Nat.le_trans _
  · simp only [FixityEntry.le, Bool.or_eq_true, decide_eq_true_eq,
      Bool.and_eq_true, beq_iff_eq] at before
    omega
  · simp only [FixityEntry.le, Bool.or_eq_true, decide_eq_true_eq,
      not_or] at after
    omega

/-- A table of declared operators: what declarations make of the empty
one. -/
def declared (batches : List (List FixityEntry)) : FixityTable :=
  batches.foldl (fun table entries => table.add entries) []

theorem sorted_declared (batches : List (List FixityEntry)) :
    (declared batches).Sorted := by
  have all : ∀ table : FixityTable, table.Sorted →
      Sorted (batches.foldl (fun table entries => table.add entries)
        table) := by
    induction batches with
    | nil => exact fun _ h => h
    | cons entries batches ih =>
        exact fun table _ => ih _ (sorted_add entries table)
  exact all [] .nil

end FixityTable

-- ====================================================== one level

namespace Level

/-- An entry's operator is found if some entry has the side and the
symbol. -/
theorem find?_declared (entries : List FixityEntry) (side : Assoc)
    (op : String) :
    ((entries.filter (·.fixity.assoc = side)).map declared).find?
        (·.symbol = op)
      = if (entries.filter (·.symbol = op)).any (·.fixity.assoc = side) then
          some ⟨op, side, .application⟩
        else none := by
  induction entries with
  | nil => rfl
  | cons e entries ih =>
      by_cases sided : e.fixity.assoc = side
      · rw [List.filter_cons_of_pos (by simpa using sided), List.map_cons]
        by_cases named : e.symbol = op
        · rw [List.find?_cons_of_pos (by simp [declared, named]),
            List.filter_cons_of_pos (by simpa using named), List.any_cons]
          simp [declared, sided, named]
        · rw [List.find?_cons_of_neg (by simp [declared, named]),
            List.filter_cons_of_neg (by simpa using named), ih]
      · rw [List.filter_cons_of_neg (by simpa using sided), ih]
        by_cases named : e.symbol = op
        · rw [List.filter_cons_of_pos (by simpa using named),
            List.any_cons, decide_eq_false sided, Bool.false_or]
        · rw [List.filter_cons_of_neg (by simpa using named)]

/-- The operator that a level makes of its entries for a symbol. -/
theorem operator?_ofEntries (entries : List FixityEntry) (op : String) :
    (ofEntries entries).operator? (.operator op)
      = if entries.filter (·.symbol = op) = [] then none
        else some ⟨op, FixityTable.sideOf
          (entries.filter (·.symbol = op)), .application⟩ := by
  rw [operator?, ofEntries, List.find?_append, List.find?_append,
    find?_declared, find?_declared, find?_declared]
  generalize entries.filter (·.symbol = op) = named
  unfold FixityTable.sideOf
  by_cases right : named.any (·.fixity.assoc = .right) = true
  · have some_entry : named ≠ [] := by
      rintro rfl
      cases right
    simp [right, some_entry]
  · by_cases left : named.any (·.fixity.assoc = .left) = true
    · have some_entry : named ≠ [] := by
        rintro rfl
        cases left
      simp [right, left, some_entry]
    · cases named with
      | nil => rfl
      | cons e named =>
          have neither : e.fixity.assoc = .neither := by
            cases h : e.fixity.assoc <;> simp [h] at right left ⊢
          simp [right, left, neither]

end Level

-- ======================================================= all levels

namespace FixityTable

variable (table : FixityTable)

/-- What the level of a key makes of a symbol. Equality and the arrow
have keys of their own; a precedence has the key two above it. -/
def operatorAt (key : Nat) (op : String) : Option Operator :=
  match key with
  | 0 => if op = "->" then some ⟨op, .right, .arrow⟩ else none
  | 1 => if op = "=" then some ⟨op, .left, .application⟩ else none
  | prec + 2 =>
    if table.entriesAt op prec = [] then none
    else some ⟨op, sideOf (table.entriesAt op prec), .application⟩

variable {table}

/-- Entries agree on a side in any order. -/
theorem sideOf_congr {xs ys : List FixityEntry}
    (same : ∀ e, e ∈ xs ↔ e ∈ ys) : sideOf xs = sideOf ys := by
  have any (a : Assoc) : xs.any (·.fixity.assoc = a)
      = ys.any (·.fixity.assoc = a) := by
    rw [Bool.eq_iff_iff, List.any_eq_true, List.any_eq_true]
    simp only [same]
  unfold sideOf
  rw [any, any]

/-- Entries in a row of equal precedence are all of one. -/
theorem prec_eq_of_isChain {run : List FixityEntry}
    (h : run.IsChain fun x y => x.fixity.prec == y.fixity.prec) :
    ∀ x ∈ run, ∀ y ∈ run, x.fixity.prec = y.fixity.prec := by
  let same (x y : FixityEntry) : Prop := x.fixity.prec = y.fixity.prec
  have : Trans same same same := ⟨Eq.trans⟩
  have : Std.Symm same := ⟨fun _ _ => Eq.symm⟩
  have pairwise : run.Pairwise same :=
    (h.imp fun _ _ equal => beq_iff_eq.1 equal).pairwise
  have all := pairwise.forall_of_forall (R := same) fun _ _ => rfl
  exact fun x hx y hy => all hx hy

/-- A sorted list falls into runs of equal precedence, each below the
one before. -/
theorem pairwise_runs : ∀ {runs : List (List FixityEntry)},
    [] ∉ runs →
    (∀ run ∈ runs, run.IsChain fun x y => x.fixity.prec == y.fixity.prec) →
    (runs.IsChain fun a b => ∃ ha hb,
      ((a.getLast ha).fixity.prec == (b.head hb).fixity.prec) = false) →
    (runs.flatten.Pairwise fun x y => y.fixity.prec ≤ x.fixity.prec) →
    (∀ run ∈ runs, ∀ x ∈ run, ∀ y ∈ run, x.fixity.prec = y.fixity.prec)
      ∧ runs.Pairwise fun a b =>
        ∀ x ∈ a, ∀ y ∈ b, y.fixity.prec < x.fixity.prec := by
  intro runs
  induction runs with
  | nil => exact fun _ _ _ _ => ⟨List.forall_mem_nil _, .nil⟩
  | cons run runs ih =>
      intro full chains ends sorted
      obtain ⟨_, sorted_rest, below⟩ := List.pairwise_append.1 sorted
      obtain ⟨equal, strict⟩ := ih
        (fun h => full (List.mem_cons_of_mem _ h))
        (fun a ha => chains a (List.mem_cons_of_mem _ ha))
        ends.tail sorted_rest
      have constant := prec_eq_of_isChain (chains run List.mem_cons_self)
      refine ⟨?_, List.pairwise_cons.2 ⟨?_, strict⟩⟩
      · intro a ha
        rcases List.mem_cons.1 ha with rfl | ha
        · exact constant
        · exact equal a ha
      · intro b hb x hx y hy
        cases runs with
        | nil => cases hb
        | cons next runs =>
            obtain ⟨hrun, hnext, differ⟩ := (List.isChain_cons_cons.1 ends).1
            have last := List.getLast_mem hrun
            have first := List.head_mem hnext
            have le := below _ last _
              (List.mem_flatten_of_mem List.mem_cons_self first)
            have ne := beq_eq_false_iff_ne.1 differ
            have like_last := constant x hx _ last
            have le_first : y.fixity.prec ≤ (next.head hnext).fixity.prec := by
              rcases List.mem_cons.1 hb with rfl | hb
              · exact Nat.le_of_eq (equal b List.mem_cons_self y hy _ first)
              · exact Nat.le_of_lt
                  ((List.pairwise_cons.1 strict).1 b hb _ first y hy)
            omega

/-- The levels of keys, loosest first: each makes of a symbol what the
table says of its key. -/
structure Ranked (table : FixityTable) (keys : List Nat)
    (levels : List Level) : Prop where
  operators : List.Forall₂ (fun key level => ∀ op,
    level.operator? (.operator op) = table.operatorAt key op) keys levels
  increasing : keys.Pairwise (· < ·)

/-- The precedence of a run. -/
def runPrec (run : List FixityEntry) : Nat :=
  (run.head?.map (·.fixity.prec)).getD 0

theorem runPrec_eq {run : List FixityEntry}
    (equal : ∀ x ∈ run, ∀ y ∈ run, x.fixity.prec = y.fixity.prec)
    {e : FixityEntry} (he : e ∈ run) : runPrec run = e.fixity.prec := by
  cases run with
  | nil => cases he
  | cons first rest => exact equal first List.mem_cons_self e he

/-- The runs of equal precedence, tightest first. -/
def runs (table : FixityTable) : List (List FixityEntry) :=
  table.reverse.splitBy fun x y => x.fixity.prec == y.fixity.prec

theorem flatten_runs : table.runs.flatten = table.reverse :=
  List.flatten_splitBy _ _

/-- The runs have the entries of the table. -/
theorem mem_iff_runs (e : FixityEntry) :
    e ∈ table ↔ ∃ run ∈ table.runs, e ∈ run := by
  rw [← List.mem_reverse, ← flatten_runs, List.mem_flatten]

/-- The levels of a table below the arrow, loosest first. -/
def tighter (table : FixityTable) : List Level :=
  Level.equality :: (table.runs.map Level.ofEntries).reverse

theorem reverse_levels :
    table.levels.reverse = Level.arrow :: table.tighter := by
  show (table.runs.map Level.ofEntries
    ++ [Level.equality, Level.arrow]).reverse = _
  rw [List.reverse_append]
  rfl

/-- The runs of a sorted table are its precedences, each with all its
entries. -/
theorem runs_spec (sorted : table.Sorted) :
    (∀ run ∈ table.runs, ∀ e,
        e ∈ run ↔ e ∈ table ∧ e.fixity.prec = runPrec run)
      ∧ (∀ e ∈ table, ∃ run ∈ table.runs, runPrec run = e.fixity.prec)
      ∧ table.runs.Pairwise fun a b => runPrec b < runPrec a := by
  have flat : table.runs.flatten = table.reverse := flatten_runs
  have full : [] ∉ table.runs := List.nil_notMem_splitBy _ _
  obtain ⟨equal, strict⟩ := pairwise_runs full
    (fun run hr => List.isChain_of_mem_splitBy hr)
    (List.isChain_getLast_head_splitBy
      (fun x y : FixityEntry => x.fixity.prec == y.fixity.prec) _)
    (flat ▸ List.pairwise_reverse.2 sorted)
  have descending : table.runs.Pairwise fun a b => runPrec b < runPrec a := by
    refine strict.imp_of_mem fun {a b} ha hb less => ?_
    obtain ⟨x, hx⟩ := List.exists_mem_of_ne_nil a (ne_of_mem_of_not_mem ha full)
    obtain ⟨y, hy⟩ := List.exists_mem_of_ne_nil b (ne_of_mem_of_not_mem hb full)
    rw [runPrec_eq (equal a ha) hx, runPrec_eq (equal b hb) hy]
    exact less x hx y hy
  refine ⟨fun run hrun e => ⟨fun he => ?_, ?_⟩, fun e he => ?_, descending⟩
  · exact ⟨(mem_iff_runs e).2 ⟨run, hrun, he⟩,
      (runPrec_eq (equal run hrun) he).symm⟩
  · rintro ⟨he, prec⟩
    obtain ⟨other, hother, he⟩ := (mem_iff_runs e).1 he
    have same := (runPrec_eq (equal other hother) he).trans prec
    have : Std.Symm fun a b : List FixityEntry => runPrec a ≠ runPrec b :=
      ⟨fun _ _ => Ne.symm⟩
    by_contra absent
    have differ := (descending.imp fun less => Nat.ne_of_gt less).forall
      (R := fun a b => runPrec a ≠ runPrec b) hother hrun
      (fun h => absent (h ▸ he))
    exact differ same
  · obtain ⟨run, hrun, member⟩ := (mem_iff_runs e).1 he
    exact ⟨run, hrun, runPrec_eq (equal run hrun) member⟩

/-- A run's level is that of its precedence. -/
theorem operator?_run {run : List FixityEntry}
    (entries : ∀ e, e ∈ run ↔ e ∈ table ∧ e.fixity.prec = runPrec run)
    (op : String) :
    (Level.ofEntries run).operator? (.operator op)
      = table.operatorAt (runPrec run + 2) op := by
  have same : ∀ e, e ∈ run.filter (·.symbol = op)
      ↔ e ∈ table.entriesAt op (runPrec run) := by
    intro e
    simp only [entriesAt, List.mem_filter, entries, decide_eq_true_eq,
      and_assoc]
    exact and_congr_right fun _ => And.comm
  have empty : run.filter (·.symbol = op) = []
      ↔ table.entriesAt op (runPrec run) = [] := by
    rw [List.eq_nil_iff_forall_not_mem, List.eq_nil_iff_forall_not_mem]
    simp only [same]
  rw [Level.operator?_ofEntries, operatorAt, sideOf_congr same]
  by_cases none : table.entriesAt op (runPrec run) = []
  · rw [if_pos none, if_pos (empty.2 none)]
  · rw [if_neg none, if_neg fun h => none (empty.1 h)]

/-- The levels of a sorted table are ranked, and every symbol has its
keys among theirs. -/
theorem levels_ranked (sorted : table.Sorted) :
    ∃ keys, Ranked table keys table.levels.reverse
      ∧ ∀ key op, table.operatorAt key op ≠ none → key ∈ keys := by
  obtain ⟨entries, covered, descending⟩ := runs_spec sorted
  refine ⟨0 :: 1 :: (table.runs.map fun run => runPrec run + 2).reverse,
    ⟨?_, ?_⟩, ?_⟩
  · rw [reverse_levels, tighter]
    refine .cons (fun op => ?_) (.cons (fun op => ?_) ?_)
    · by_cases arrow : op = "->"
      · subst arrow
        rfl
      · simp [Level.operator?, Level.arrow, operatorAt, arrow, Ne.symm arrow]
    · by_cases equality : op = "="
      · subst equality
        rfl
      · simp [Level.operator?, Level.equality, operatorAt, equality,
          Ne.symm equality]
    · rw [List.forall₂_reverse_iff, List.forall₂_map_left_iff,
        List.forall₂_map_right_iff, List.forall₂_same]
      exact fun run hrun => operator?_run (entries run hrun)
  · refine List.pairwise_cons.2 ⟨?_, List.pairwise_cons.2 ⟨?_, ?_⟩⟩
    · intro key hkey
      rcases List.mem_cons.1 hkey with rfl | hkey
      · exact Nat.zero_lt_one
      · obtain ⟨run, -, rfl⟩ := List.mem_map.1 (List.mem_reverse.1 hkey)
        exact Nat.succ_pos _
    · intro key hkey
      obtain ⟨run, -, rfl⟩ := List.mem_map.1 (List.mem_reverse.1 hkey)
      exact Nat.succ_lt_succ (Nat.succ_pos _)
    · rw [List.pairwise_reverse, List.pairwise_map]
      exact descending.imp fun less => Nat.add_lt_add_right less 2
  · intro key op present
    match key with
    | 0 => exact List.mem_cons_self
    | 1 => exact List.mem_cons_of_mem _ List.mem_cons_self
    | prec + 2 =>
        have some_entry : table.entriesAt op prec ≠ [] := by
          intro none
          rw [operatorAt, if_pos none] at present
          exact present rfl
        obtain ⟨e, he⟩ := List.exists_mem_of_ne_nil _ some_entry
        obtain ⟨member, -, rfl⟩ : e ∈ table ∧ e.symbol = op
            ∧ e.fixity.prec = prec := by
          simpa [entriesAt] using he
        obtain ⟨run, hrun, prec⟩ := covered e member
        rw [← prec]
        exact List.mem_cons_of_mem _ <| List.mem_cons_of_mem _ <|
          List.mem_reverse.2 (List.mem_map.2 ⟨run, hrun, rfl⟩)

end FixityTable

end DepLang

/-
The fixity that counts. A table may hold many entries for one operator;
all that parsing takes from them is the highest precedence and the side
preferred there. An entry for the operator changes it as its old value
says, and one for another operator does not (`fixityOf_insert_self`,
`fixityOf_insert_other`), so tables that count an operator alike go on
doing so under every later declaration.

On the keys of levels it says: above the highest key that knows the
operator, tables that count it alike do not know it, and at that key
they make the same of it (`operatorAt_eq`). Below, they may differ.
-/
import DepLang.Proofs.Operators.Climbing

namespace DepLang

/-- Of two sides that one operator was declared with, the one that
counts. -/
def Assoc.prefer : Assoc → Assoc → Assoc
  | .right, _ | _, .right => .right
  | .left, _ | _, .left => .left
  | .neither, .neither => .neither

/-- What becomes of the fixity that counted, if any, when an operator is
declared once more. -/
def Fixity.over (new : Fixity) : Option Fixity → Fixity
  | none => new
  | some old =>
    if old.prec < new.prec then new
    else if new.prec < old.prec then old
    else ⟨new.assoc.prefer old.assoc, old.prec⟩

namespace FixityTable

variable {table table' : FixityTable} {op : String}

-- ========================================================== counting

/-- The fixity that an operator counts with, if it is declared: its
highest precedence, and the side preferred there. -/
def fixityOf (table : FixityTable) (op : String) : Option Fixity :=
  if table.filter (·.symbol = op) = [] then none
  else some ⟨sideOf (table.entriesAt op (table.highest op)),
    table.highest op⟩

theorem fixityOf_eq_none :
    table.fixityOf op = none ↔ ∀ e ∈ table, e.symbol ≠ op := by
  simp [fixityOf, List.filter_eq_nil_iff]

theorem mem_entriesAt {prec : Nat} {e : FixityEntry} :
    e ∈ table.entriesAt op prec
      ↔ e ∈ table ∧ e.symbol = op ∧ e.fixity.prec = prec := by
  simp [entriesAt]

/-- An operator counts with the precedence that some entry has and none
is above, and with the side of its entries there. -/
theorem fixityOf_eq_some {prec : Nat}
    (here : table.entriesAt op prec ≠ [])
    (above : ∀ e ∈ table, e.symbol = op → e.fixity.prec ≤ prec) :
    table.fixityOf op = some ⟨sideOf (table.entriesAt op prec), prec⟩ := by
  obtain ⟨e, he⟩ := List.exists_mem_of_ne_nil _ here
  obtain ⟨member, named, at_prec⟩ := mem_entriesAt.1 he
  have declared : table.filter (·.symbol = op) ≠ [] :=
    List.ne_nil_of_mem (List.mem_filter.2 ⟨member, decide_eq_true named⟩)
  obtain ⟨top, htop⟩ :=
    List.exists_mem_of_ne_nil _ (entriesAt_highest ⟨e, member, named⟩)
  obtain ⟨member', named', at_top⟩ := mem_entriesAt.1 htop
  have le := le_highest member named
  have ge := above top member' named'
  have same : table.highest op = prec := by omega
  rw [fixityOf, if_neg declared, same]

theorem fixityOf_spec {f : Fixity} (h : table.fixityOf op = some f) :
    table.entriesAt op f.prec ≠ []
      ∧ (∀ e ∈ table, e.symbol = op → e.fixity.prec ≤ f.prec)
      ∧ f.assoc = sideOf (table.entriesAt op f.prec) := by
  unfold fixityOf at h
  split at h
  · cases h
  next declared =>
    obtain ⟨e, he⟩ := List.exists_mem_of_ne_nil _ declared
    obtain ⟨member, named⟩ : e ∈ table ∧ e.symbol = op := by
      simpa using he
    cases h
    exact ⟨entriesAt_highest ⟨e, member, named⟩,
      fun _ => le_highest, rfl⟩

-- ====================================================== declarations

/-- One more entry is one more side to choose from. -/
theorem sideOf_cons (e : FixityEntry) (entries : List FixityEntry) :
    sideOf (e :: entries) = e.fixity.assoc.prefer (sideOf entries) := by
  obtain ⟨⟨side, prec⟩, symbol⟩ := e
  unfold sideOf
  simp only [List.any_cons]
  by_cases right : entries.any (·.fixity.assoc = .right) = true
  · cases side <;> simp [right, Assoc.prefer]
  by_cases left : entries.any (·.fixity.assoc = .left) = true
  · cases side <;> simp [right, left, Assoc.prefer]
  · cases side <;> simp [right, left, Assoc.prefer]

theorem sideOf_single (e : FixityEntry) : sideOf [e] = e.fixity.assoc := by
  rw [sideOf_cons]
  cases e.fixity.assoc <;> rfl

/-- The entries of an operator after one more declaration. -/
theorem mem_entriesAt_insert {x e : FixityEntry} {prec : Nat} :
    e ∈ (insert x table).entriesAt op prec
      ↔ (e = x ∧ x.symbol = op ∧ x.fixity.prec = prec)
        ∨ e ∈ table.entriesAt op prec := by
  simp only [mem_entriesAt, mem_insert, or_and_right]
  refine or_congr_left (and_congr_right ?_)
  rintro rfl
  rfl

/-- Entries of one operator or precedence say nothing of another. -/
theorem entriesAt_insert_other {x : FixityEntry} {prec : Nat}
    (other : x.symbol = op → x.fixity.prec ≠ prec) :
    ∀ e, e ∈ (insert x table).entriesAt op prec
      ↔ e ∈ table.entriesAt op prec := by
  intro e
  rw [mem_entriesAt_insert, or_iff_right]
  rintro ⟨-, named, same⟩
  exact other named same

section
variable {x : FixityEntry} {f : Fixity}

/-- Declaring another operator, or one below what counts, changes
nothing. -/
theorem fixityOf_insert_below (counted : table.fixityOf op = some f)
    (below : x.symbol = op → x.fixity.prec < f.prec) :
    (insert x table).fixityOf op = some f := by
  obtain ⟨here, above, side⟩ := fixityOf_spec counted
  have same : ∀ e, e ∈ (insert x table).entriesAt op f.prec
      ↔ e ∈ table.entriesAt op f.prec :=
    entriesAt_insert_other fun named => Nat.ne_of_lt (below named)
  obtain ⟨e, he⟩ := List.exists_mem_of_ne_nil _ here
  rw [fixityOf_eq_some (List.ne_nil_of_mem ((same e).2 he)),
    sideOf_congr same, ← side]
  intro e he named
  rcases mem_insert.1 he with rfl | he
  · exact Nat.le_of_lt (below named)
  · exact above e he named

/-- Declaring an operator above its older entries leaves these without
effect. -/
theorem fixityOf_insert_above (named : x.symbol = op)
    (above : ∀ e ∈ table, e.symbol = op → e.fixity.prec < x.fixity.prec) :
    (insert x table).fixityOf op = some x.fixity := by
  have only : ∀ e, e ∈ (insert x table).entriesAt op x.fixity.prec
      ↔ e ∈ [x] := by
    intro e
    rw [mem_entriesAt_insert, List.mem_singleton]
    refine ⟨fun h => h.elim And.left fun he => ?_,
      fun h => .inl ⟨h, named, rfl⟩⟩
    obtain ⟨member, named', same⟩ := mem_entriesAt.1 he
    have := above e member named'
    omega
  have here := (only x).2 (List.mem_singleton_self x)
  rw [fixityOf_eq_some (List.ne_nil_of_mem here), sideOf_congr only,
    sideOf_single]
  intro e he named'
  rcases mem_insert.1 he with rfl | he
  · exact Nat.le_refl _
  · exact Nat.le_of_lt (above e he named')

/-- Declaring an operator as high as it counts adds a side to prefer. -/
theorem fixityOf_insert_level (named : x.symbol = op)
    (counted : table.fixityOf op = some f)
    (level : x.fixity.prec = f.prec) :
    (insert x table).fixityOf op
      = some ⟨x.fixity.assoc.prefer f.assoc, f.prec⟩ := by
  obtain ⟨-, above, side⟩ := fixityOf_spec counted
  have both : ∀ e, e ∈ (insert x table).entriesAt op f.prec
      ↔ e ∈ x :: table.entriesAt op f.prec := by
    intro e
    rw [mem_entriesAt_insert, List.mem_cons]
    simp [named, level]
  have here := (both x).2 List.mem_cons_self
  rw [fixityOf_eq_some (List.ne_nil_of_mem here), sideOf_congr both,
    sideOf_cons, ← side]
  intro e he named'
  rcases mem_insert.1 he with rfl | he
  · exact Nat.le_of_eq level
  · exact above e he named'

/-- Declaring another operator changes nothing. -/
theorem fixityOf_insert_other (other : x.symbol ≠ op) :
    (insert x table).fixityOf op = table.fixityOf op := by
  cases counted : table.fixityOf op with
  | none =>
      refine fixityOf_eq_none.2 fun e he => ?_
      rcases mem_insert.1 he with rfl | he
      · exact other
      · exact fixityOf_eq_none.1 counted e he
  | some f =>
      exact fixityOf_insert_below counted fun named => absurd named other

/-- Declaring an operator makes its fixity count over the one that
counted before. -/
theorem fixityOf_insert_self (named : x.symbol = op) :
    (insert x table).fixityOf op
      = some (x.fixity.over (table.fixityOf op)) := by
  cases counted : table.fixityOf op with
  | none =>
      have absent := fixityOf_eq_none.1 counted
      exact fixityOf_insert_above named fun e he named' =>
        absurd named' (absent e he)
  | some f =>
      obtain ⟨-, most, -⟩ := fixityOf_spec counted
      rw [Fixity.over]
      split
      next above =>
        exact fixityOf_insert_above named fun e he named' =>
          Nat.lt_of_le_of_lt (most e he named') above
      next notAbove =>
        split
        next below =>
          exact fixityOf_insert_below counted fun _ => below
        next notBelow =>
          exact fixityOf_insert_level named counted (by omega)

end

/-- In what order entries stand makes no difference to what counts. -/
theorem fixityOf_sort (entries : List FixityEntry) :
    (sort entries).fixityOf op = fixityOf entries op := by
  have members {e : FixityEntry} : e ∈ sort entries ↔ e ∈ entries :=
    (perm_sort entries).mem_iff
  cases counted : fixityOf entries op with
  | none =>
      exact fixityOf_eq_none.2 fun e he =>
        fixityOf_eq_none.1 counted e (members.1 he)
  | some f =>
      obtain ⟨here, above, side⟩ := fixityOf_spec counted
      have same : ∀ e, e ∈ (sort entries).entriesAt op f.prec
          ↔ e ∈ entriesAt entries op f.prec := fun e => by
        rw [mem_entriesAt, mem_entriesAt, members]
      obtain ⟨e, he⟩ := List.exists_mem_of_ne_nil _ here
      rw [fixityOf_eq_some (List.ne_nil_of_mem ((same e).2 he))
        fun e he => above e (members.1 he), sideOf_congr same, ← side]

/-- Tables that count an operator alike do so after the same
declarations. -/
theorem fixityOf_add_congr (same : table.fixityOf op = table'.fixityOf op)
    (entries : List FixityEntry) :
    (add entries table).fixityOf op = (add entries table').fixityOf op := by
  induction entries with
  | nil =>
      show (sort table).fixityOf op = (sort table').fixityOf op
      rw [fixityOf_sort, fixityOf_sort, same]
  | cons x entries ih =>
      show (insert x (add entries table)).fixityOf op
        = (insert x (add entries table')).fixityOf op
      by_cases named : x.symbol = op
      · rw [fixityOf_insert_self named, fixityOf_insert_self named, ih]
      · rw [fixityOf_insert_other named, fixityOf_insert_other named, ih]

-- ============================================================= keys

/-- A key that knows the operator by an entry is not above its
precedence. -/
theorem operatorAt_prec {prec : Nat} :
    table.operatorAt (prec + 2) op ≠ none
      ↔ table.entriesAt op prec ≠ [] := by
  rw [operatorAt]
  split <;> simp_all

/-- Tables that count an operator alike make the same of it at every key
above which neither knows it. -/
theorem operatorAt_eq (same : table.fixityOf op = table'.fixityOf op)
    {key : Nat}
    (top : ∀ k, key < k → table.operatorAt k op = none)
    (top' : ∀ k, key < k → table'.operatorAt k op = none) :
    table.operatorAt key op = table'.operatorAt key op := by
  match key with
  | 0 => rfl
  | 1 => rfl
  | prec + 2 =>
      -- an entry at the key is the highest, in either table
      have highest {t : FixityTable}
          (top : ∀ k, prec + 2 < k → t.operatorAt k op = none)
          (known : t.entriesAt op prec ≠ []) :
          t.fixityOf op = some ⟨sideOf (t.entriesAt op prec), prec⟩ := by
        refine fixityOf_eq_some known fun e he named => ?_
        by_contra above
        have entry : t.entriesAt op e.fixity.prec ≠ [] :=
          List.ne_nil_of_mem (mem_entriesAt.2 ⟨he, named, rfl⟩)
        exact operatorAt_prec.2 entry (top _ (by omega))
      by_cases known : table.entriesAt op prec = []
      · by_cases known' : table'.entriesAt op prec = []
        · rw [operatorAt, operatorAt, if_pos known, if_pos known']
        · rw [highest top' known'] at same
          exact absurd known (fixityOf_spec same).1
      · have counted := highest top known
        rw [counted] at same
        obtain ⟨known', -, side⟩ := fixityOf_spec same.symm
        have side : sideOf (table.entriesAt op prec)
            = sideOf (table'.entriesAt op prec) := side
        rw [operatorAt, operatorAt, if_neg known, if_neg known', side]

end FixityTable

end DepLang

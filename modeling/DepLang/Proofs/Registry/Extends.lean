/-
Registries grown by declarations. A registry extends another if it was
reached from it by declarations alone, some of which may have been
taken back: its journal is at least as high, and going back to the
older one's snapshot gives the older registry again, entry by entry.

The journal makes this compose. An entry is the inverse of the
definition that left it (`revert_put`), undoing `m + n` definitions is
undoing `m` and then `n` (`undo_add`), and so a snapshot taken in
between changes nothing about where an older one leads
(`restore_restore`).
-/
import DepLang.Registry

namespace DepLang

-- ========================================================= entries

namespace ImplicitTable

/-- Entering a name changes what is found under it, and nothing else. -/
theorem lookup_put (table : ImplicitTable) (name : Name)
    (names : List Name) (x : Name) :
    (table.put name names).lookup x
      = if x = name then some names else table.lookup x := by
  induction table with
  | nil =>
      rw [put, List.lookup_cons]
      by_cases h : x = name
      · rw [beq_iff_eq.2 h, if_pos h]
      · rw [beq_false_of_ne h, if_neg h]
  | cons entry rest ih =>
      obtain ⟨key, value⟩ := entry
      rw [put]
      by_cases same : key = name
      · rw [if_pos same, List.lookup_cons, List.lookup_cons, same]
        by_cases h : x = name
        · rw [beq_iff_eq.2 h, if_pos h]
        · rw [beq_false_of_ne h, if_neg h]
      · rw [if_neg same, List.lookup_cons, List.lookup_cons, ih]
        by_cases h : x = key
        · have other : x ≠ name := h ▸ same
          rw [beq_iff_eq.2 h, if_neg other, if_neg other]
        · rw [beq_false_of_ne h]

/-- Dropping a name that has just been entered for the first time. -/
theorem remove_put {name : Name} {names : List Name} :
    ∀ {table : ImplicitTable}, table.lookup name = none →
      (table.put name names).remove name = table := by
  intro table
  induction table with
  | nil =>
      intro _
      simp [put, remove]
  | cons entry rest ih =>
      obtain ⟨key, value⟩ := entry
      intro absent
      by_cases same : key = name
      · subst same
        simp at absent
      · have absent' : rest.lookup name = none := by
          rw [List.lookup_cons, beq_false_of_ne (Ne.symm same)] at absent
          exact absent
        have kept := ih absent'
        unfold remove at kept ⊢
        rw [put, if_neg same, List.filter_cons, if_pos (by simpa using same),
          kept]

/-- Giving a name the entry back that has just been overwritten. -/
theorem put_put {name : Name} {names old : List Name} :
    ∀ {table : ImplicitTable}, table.lookup name = some old →
      (table.put name names).put name old = table := by
  intro table
  induction table with
  | nil =>
      intro present
      cases present
  | cons entry rest ih =>
      obtain ⟨key, value⟩ := entry
      intro present
      by_cases same : key = name
      · subst same
        have : value = old := by simpa using present
        subst this
        simp [put]
      · have present' : rest.lookup name = some old := by
          rw [List.lookup_cons, beq_false_of_ne (Ne.symm same)] at present
          exact present
        rw [put, if_neg same, put, if_neg same, ih present']

/-- What a definition overwrote is its inverse. -/
theorem revert_put (table : ImplicitTable) (name : Name)
    (names : List Name) :
    (table.put name names).revert name (table.lookup name) = table := by
  unfold revert
  cases previous : table.lookup name with
  | none => exact remove_put previous
  | some old => exact put_put previous

end ImplicitTable

namespace Registry

/-- Recording a definition changes the entry of its name only. -/
theorem implicitsOf?_define (r : Registry) (name : Name)
    (names : List Name) (x : Name) :
    (r.define name names).implicitsOf? x
      = if x = name then some names else r.implicitsOf? x :=
  r.implicits.lookup_put name names x

-- ========================================================== undoing

/-- Undoing in two goes. -/
theorem undo_add (m n : Nat) :
    ∀ r : Registry, r.undo (m + n) = (r.undo m).undo n := by
  induction m with
  | zero =>
      intro r
      rw [Nat.zero_add, undo]
  | succ m ih =>
      intro r
      rw [Nat.succ_add]
      cases entries : r.journal with
      | nil =>
          have stuck : ∀ k, r.undo k = r := by
            intro k
            cases k <;> simp [undo, entries]
          rw [stuck, stuck, stuck]
      | cons entry older =>
          simp only [undo, entries]
          exact ih _

/-- Undoing reads no fixities and changes none. -/
theorem undo_fixities (n : Nat) (table : FixityTable) :
    ∀ r : Registry,
      { r with fixities := table }.undo n
        = { r.undo n with fixities := table } := by
  induction n with
  | zero =>
      intro r
      rfl
  | succ n ih =>
      intro r
      cases entries : r.journal with
      | nil => simp only [undo, entries]
      | cons entry older =>
          simp only [undo, entries]
          exact ih
            { r with
              implicits := r.implicits.revert entry.name entry.previous
              journal := older }

/-- Every definition undone takes one entry off the journal. -/
theorem length_journal_undo (n : Nat) :
    ∀ r : Registry, (r.undo n).journal.length = r.journal.length - n := by
  induction n with
  | zero =>
      intro r
      rfl
  | succ n ih =>
      intro r
      cases entries : r.journal with
      | nil => simp [undo, entries]
      | cons entry older =>
          simp only [undo, entries, List.length_cons]
          rw [ih]
          simp

/-- Going back to a lower snapshot: stopping at a higher one on the way
makes no difference. -/
theorem restore_restore (r : Registry) (high low : Snapshot)
    (h : low.height ≤ high.height) :
    (r.restore high).restore low = r.restore low := by
  have steps :
      r.journal.length - high.height
          + (r.journal.length - (r.journal.length - high.height) - low.height)
        = r.journal.length - low.height := by omega
  unfold restore
  simp only [undo_fixities, length_journal_undo]
  rw [← undo_add, steps]

-- ======================================================== extension

/-- A registry reached from another by declarations: what it has grown
by can be undone. -/
structure Extends (t r : Registry) : Prop where
  height_le : r.journal.length ≤ t.journal.length
  restore_eq : t.restore r.snapshot = r

theorem Extends.refl (r : Registry) : r.Extends r where
  height_le := Nat.le_refl _
  restore_eq := restore_snapshot r

theorem Extends.trans {t r q : Registry} (newer : t.Extends r)
    (older : r.Extends q) : t.Extends q where
  height_le := Nat.le_trans older.height_le newer.height_le
  restore_eq := by
    rw [← restore_restore t r.snapshot q.snapshot older.height_le,
      newer.restore_eq, older.restore_eq]

/-- Declaring operators extends a registry. -/
theorem extends_addFixities (r : Registry) (entries : List FixityEntry) :
    (r.addFixities entries).Extends r where
  height_le := Nat.le_refl _
  restore_eq := by simp [restore, snapshot, addFixities, undo]

/-- Recording a definition extends a registry. -/
theorem extends_define (r : Registry) (name : Name)
    (names : List Name) : (r.define name names).Extends r where
  height_le := by simp [define]
  restore_eq := by
    have one : (r.define name names).journal.length - r.journal.length = 1 := by
      simp [define]
    unfold restore snapshot
    rw [one]
    simp only [undo, define, implicitsOf?, ImplicitTable.revert_put]

end Registry

end DepLang

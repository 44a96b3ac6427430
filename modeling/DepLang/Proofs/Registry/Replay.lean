/-
Definitions recorded one after another. What is found under a name is
what the last of them recorded for it, or what was there before; the
journal has grown by one entry each, and undoing as many definitions as
were recorded last gives the registry without them, entry by entry.
Fixities are not touched by any of it.

So a registry that was reached by declaring is told by three things: the
registry it started from, the definitions that stand, and the present
fixities (`Registry.replay`). Each declaration, and going back to any
snapshot that is not below the start, leads from one such registry to
another.
-/
import DepLang.Proofs.Registry.Extends

namespace DepLang

/-- Sets the entries of names, in order. -/
def ImplicitTable.putAll (definitions : List (Name × List Name))
    (table : ImplicitTable) : ImplicitTable :=
  definitions.foldl (fun table (name, names) => table.put name names) table

namespace Registry

variable (r : Registry)

/-- Records definitions in order. -/
def defineAll (r : Registry) (definitions : List (Name × List Name)) :
    Registry :=
  definitions.foldl (fun r (name, names) => r.define name names) r

theorem defineAll_cons (d : Name × List Name)
    (ds : List (Name × List Name)) :
    r.defineAll (d :: ds) = (r.define d.1 d.2).defineAll ds := rfl

theorem defineAll_append (ds es : List (Name × List Name)) :
    r.defineAll (ds ++ es) = (r.defineAll ds).defineAll es :=
  List.foldl_append

-- ======================================================== fixities

/-- Definitions neither read nor change the fixities. -/
theorem defineAll_withFixities (table : FixityTable)
    (ds : List (Name × List Name)) :
    { r with fixities := table }.defineAll ds
      = { r.defineAll ds with fixities := table } := by
  induction ds generalizing r with
  | nil => rfl
  | cons d ds ih => exact ih (r.define d.1 d.2)

-- ======================================================= what is found

/-- The last definition of a name counts. -/
theorem implicitsOf?_defineAll (ds : List (Name × List Name)) (x : Name) :
    (r.defineAll ds).implicitsOf? x
      = (ds.reverse.lookup x).or (r.implicitsOf? x) := by
  induction ds generalizing r with
  | nil => rfl
  | cons d ds ih =>
      obtain ⟨name, names⟩ := d
      rw [defineAll_cons, ih, implicitsOf?_define, List.reverse_cons,
        List.lookup_append]
      cases ds.reverse.lookup x with
      | some found => rfl
      | none =>
          rw [List.lookup_cons]
          by_cases h : x = name
          · rw [if_pos h, beq_iff_eq.2 h]
            rfl
          · rw [if_neg h, beq_false_of_ne h]
            rfl

theorem implicits_defineAll (ds : List (Name × List Name)) :
    (r.defineAll ds).implicits = r.implicits.putAll ds := by
  induction ds generalizing r with
  | nil => rfl
  | cons d ds ih => exact ih (r.define d.1 d.2)

-- =========================================================== undoing

theorem length_journal_defineAll (ds : List (Name × List Name)) :
    (r.defineAll ds).journal.length = r.journal.length + ds.length := by
  induction ds generalizing r with
  | nil => rfl
  | cons d ds ih =>
      rw [defineAll_cons, ih, List.length_cons]
      simp only [define, List.length_cons]
      omega

/-- Undoing a definition gives the registry before it. -/
theorem undo_define (name : Name) (names : List Name) :
    (r.define name names).undo 1 = r := by
  simp only [undo, define, implicitsOf?, ImplicitTable.revert_put]

/-- Undoing as many definitions as were recorded last. -/
theorem undo_defineAll (ds : List (Name × List Name)) :
    (r.defineAll ds).undo ds.length = r := by
  induction ds generalizing r with
  | nil => rfl
  | cons d ds ih =>
      rw [defineAll_cons, List.length_cons, undo_add, ih, undo_define]

/-- Undoing some of them leaves the older ones. -/
theorem undo_defineAll_take {ds : List (Name × List Name)} {n : Nat}
    (h : n ≤ ds.length) :
    (r.defineAll ds).undo n = r.defineAll (ds.take (ds.length - n)) := by
  have newer : (ds.drop (ds.length - n)).length = n := by
    rw [List.length_drop]
    omega
  calc (r.defineAll ds).undo n
      = ((r.defineAll (ds.take (ds.length - n))).defineAll
          (ds.drop (ds.length - n))).undo n := by
        rw [← defineAll_append, List.take_append_drop]
    _ = r.defineAll (ds.take (ds.length - n)) := by
        have undone := (r.defineAll (ds.take (ds.length - n))).undo_defineAll
          (ds.drop (ds.length - n))
        rwa [newer] at undone

-- ========================================================= replaying

/-- The registry with definitions recorded, in order, and with another
fixity table. -/
def replay (r : Registry) (definitions : List (Name × List Name))
    (table : FixityTable) : Registry :=
  { r.defineAll definitions with fixities := table }

section
variable (ds es : List (Name × List Name)) (table table' : FixityTable)

@[simp] theorem fixities_replay : (r.replay ds table).fixities = table := rfl

theorem implicits_replay :
    (r.replay ds table).implicits = r.implicits.putAll ds :=
  r.implicits_defineAll ds

theorem length_journal_replay :
    (r.replay ds table).journal.length = r.journal.length + ds.length :=
  r.length_journal_defineAll ds

theorem implicitsOf?_replay (x : Name) :
    (r.replay ds table).implicitsOf? x
      = (ds.reverse.lookup x).or (r.implicitsOf? x) :=
  r.implicitsOf?_defineAll ds x

theorem replay_nil : r.replay [] r.fixities = r := rfl

theorem replay_replay :
    (r.replay ds table).replay es table' = r.replay (ds ++ es) table' := by
  unfold replay
  rw [defineAll_withFixities, defineAll_append]

theorem define_replay (name : Name) (names : List Name) :
    (r.replay ds table).define name names
      = r.replay (ds ++ [(name, names)]) table := by
  unfold replay
  rw [defineAll_append]
  rfl

/-- Undoing definitions of a replay, as far as it goes. -/
theorem undo_replay {n : Nat} (h : n ≤ ds.length) :
    (r.replay ds table).undo n
      = r.replay (ds.take (ds.length - n)) table := by
  unfold replay
  rw [undo_fixities, undo_defineAll_take r h]

/-- Going back to a snapshot that is not below the start of the replay
keeps the definitions under its height. -/
theorem restore_replay {snap : Snapshot}
    (h : r.journal.length ≤ snap.height) :
    (r.replay ds table).restore snap
      = r.replay (ds.take (snap.height - r.journal.length))
        snap.fixities := by
  have kept : ds.take (ds.length
        - (r.journal.length + ds.length - snap.height))
      = ds.take (snap.height - r.journal.length) := by
    by_cases high : r.journal.length + ds.length ≤ snap.height
    · rw [List.take_of_length_le (by omega), List.take_of_length_le (by omega)]
    · congr 1
      omega
  unfold restore
  rw [length_journal_replay, undo_replay r ds table (by omega), kept]
  rfl

end

end Registry

end DepLang

/-
What declarations add to a registry: fixity entries, and definitions
that record the implicit arguments of types. Growing is told by both,
the entries in no order, since the table keeps its own, and the
definitions in theirs, since the last one of a name counts. Two steps of
growth are one (`Grows.trans`), so what a module adds is what its
declarations add one after another.
-/
import DepLang.Implicit.Generalise
import DepLang.Proofs.Registry.Replay
import Mathlib.Data.List.Forall2

namespace DepLang

-- ==================================================== recorded types

/-- A definition that records, for a name with its type, the implicit
arguments bound at the front of the type. -/
def RecordsType (d : Name × List Name) (typed : Name × Term) : Prop :=
  d.1 = typed.1 ∧ ∀ x, x ∈ d.2 ↔ x ∈ typed.2.leadingImplicits

namespace Term

/-- Names bound in front of a type are its first implicit arguments. -/
theorem leadingImplicits_bindImplicits (names : List Name) (type : Term) :
    (type.bindImplicits names).leadingImplicits
      = names ++ type.leadingImplicits := by
  induction names with
  | nil => rfl
  | cons x names ih => exact congrArg (x :: ·) ih

end Term

/-- What closing a type lists are the implicit arguments of the closed
type. -/
theorem Registry.mem_generalise (r : Registry) (type : Term) (x : Name) :
    x ∈ (r.generalise type).2
      ↔ x ∈ (r.generalise type).1.leadingImplicits := by
  show x ∈ r.newImplicits type
        ++ type.leadingImplicits.filter (· ∉ r.newImplicits type)
      ↔ x ∈ (type.bindImplicits (r.newImplicits type)).leadingImplicits
  rw [Term.leadingImplicits_bindImplicits]
  by_cases h : x ∈ r.newImplicits type <;> simp [h]

-- ========================================================== growth

/-- A registry that has grown out of another by fixity entries and by
definitions for names with their types. -/
def Registry.Grows (r t : Registry) (entries : List FixityEntry)
    (types : List (Name × Term)) : Prop :=
  ∃ table ds, table.Perm (entries ++ r.fixities)
    ∧ List.Forall₂ RecordsType ds types ∧ t = r.replay ds table

namespace Registry

variable {q r t : Registry} {entries entries' : List FixityEntry}
  {types types' : List (Name × Term)}

theorem Grows.of_eq (h : t = r) : r.Grows t [] [] :=
  ⟨r.fixities, [], .refl _, .nil, h⟩

theorem Grows.trans (older : q.Grows r entries types)
    (newer : r.Grows t entries' types') :
    q.Grows t (entries ++ entries') (types ++ types') := by
  obtain ⟨table, ds, perm, records, rfl⟩ := older
  obtain ⟨table', ds', perm', records', rfl⟩ := newer
  refine ⟨table', ds ++ ds', ?_, List.rel_append records records', ?_⟩
  · have swap : (entries' ++ (entries ++ q.fixities)).Perm
        (entries ++ entries' ++ q.fixities) := by
      rw [← List.append_assoc]
      exact List.perm_append_comm.append_right q.fixities
    exact perm'.trans ((perm.append_left entries').trans swap)
  · rw [replay_replay]

/-- Declaring operators. -/
theorem grows_addFixities (r : Registry) (entries : List FixityEntry) :
    r.Grows (r.addFixities entries) entries [] :=
  ⟨_, [], FixityTable.perm_add entries r.fixities, .nil, rfl⟩

/-- Recording the implicit arguments of a type. -/
theorem grows_define (r : Registry) {name : Name} {names : List Name}
    {type : Term} (h : ∀ x, x ∈ names ↔ x ∈ type.leadingImplicits) :
    r.Grows (r.define name names) [] [(name, type)] :=
  ⟨r.fixities, [(name, names)], .refl _, .cons ⟨rfl, h⟩ .nil, rfl⟩

/-- Of the types only the names and the leading implicit arguments
count. -/
theorem Grows.congr (h : r.Grows t entries types) {f : Term → Term}
    (kept : ∀ type, (f type).leadingImplicits = type.leadingImplicits) :
    r.Grows t entries (types.map fun (name, type) => (name, f type)) := by
  obtain ⟨table, ds, perm, records, rfl⟩ := h
  refine ⟨table, ds, perm, ?_, rfl⟩
  rw [List.forall₂_map_right_iff]
  refine records.imp fun d typed recorded => ⟨recorded.1, fun x => ?_⟩
  rw [kept]
  exact recorded.2 x

-- ======================================================= what is found

/-- The definition found under a name is the one for its last type. -/
theorem lookup_records {ds : List (Name × List Name)}
    (h : List.Forall₂ RecordsType ds types) (x : Name) :
    Option.Rel (fun names type => ∀ y, y ∈ names ↔ y ∈ type.leadingImplicits)
      (ds.lookup x) (types.lookup x) := by
  induction h with
  | nil => exact .none
  | @cons d typed ds types recorded _ ih =>
      obtain ⟨name, names⟩ := d
      obtain ⟨name', type⟩ := typed
      obtain ⟨rfl, same⟩ : name = name' ∧ _ := recorded
      rw [List.lookup_cons, List.lookup_cons]
      cases x == name with
      | true => exact .some same
      | false => exact ih

/-- A name is found, in whatever order, if it is listed. -/
theorem lookup_reverse_eq_none (x : Name) :
    types.reverse.lookup x = none ↔ x ∉ types.map Prod.fst := by
  rw [List.lookup_eq_none_iff, List.mem_map]
  constructor
  · rintro absent ⟨typed, ht, rfl⟩
    simpa using absent typed (List.mem_reverse.2 ht)
  · intro absent typed ht
    have other : x ≠ typed.1 := fun same =>
      absent ⟨typed, List.mem_reverse.1 ht, same.symm⟩
    simpa using other

/-- Under a declared name stands what its last type gives; everything
else is as it was. -/
theorem Grows.implicitsOf? (h : r.Grows t entries types) (x : Name) :
    match types.reverse.lookup x with
    | none => t.implicitsOf? x = r.implicitsOf? x
    | some type => ∃ names, t.implicitsOf? x = some names
        ∧ ∀ y, y ∈ names ↔ y ∈ type.leadingImplicits := by
  obtain ⟨table, ds, -, records, rfl⟩ := h
  rw [implicitsOf?_replay]
  have last := lookup_records (List.forall₂_reverse_iff.2 records) x
  generalize ds.reverse.lookup x = recorded at last
  generalize types.reverse.lookup x = declared at last
  cases last with
  | none => rfl
  | some same => exact ⟨_, rfl, same⟩

theorem Grows.implicitsOf?_other (h : r.Grows t entries types) {x : Name}
    (other : x ∉ types.map Prod.fst) :
    t.implicitsOf? x = r.implicitsOf? x := by
  have found := h.implicitsOf? x
  rwa [(lookup_reverse_eq_none x).2 other] at found

theorem Grows.implicitsOf?_last (h : r.Grows t entries types) {x : Name}
    {type : Term} (last : types.reverse.lookup x = some type) :
    ∃ names, t.implicitsOf? x = some names
      ∧ ∀ y, y ∈ names ↔ y ∈ type.leadingImplicits := by
  have found := h.implicitsOf? x
  rwa [last] at found

/-- The implicit arguments of a name are those in front of its last type,
or what they were. -/
theorem Grows.implicitsOf (h : r.Grows t entries types) (x : Name) :
    match types.reverse.lookup x with
    | none => t.implicitsOf x = r.implicitsOf x
    | some type =>
      ∀ y, y ∈ t.implicitsOf x ↔ y ∈ type.leadingImplicits := by
  have found := h.implicitsOf? x
  unfold Registry.implicitsOf
  split at found
  next => rw [found]
  next =>
    obtain ⟨names, recorded, same⟩ := found
    rw [recorded]
    exact same

/-- What is defined is what was, and what has been given a type. -/
theorem Grows.defines_iff (h : r.Grows t entries types) (x : Name) :
    t.defines x ↔ r.defines x ∨ x ∈ types.map Prod.fst := by
  unfold defines
  cases last : types.reverse.lookup x with
  | none =>
      have other := (lookup_reverse_eq_none x).1 last
      rw [h.implicitsOf?_other other]
      simp only [other, or_false]
  | some type =>
      obtain ⟨names, found, -⟩ := h.implicitsOf?_last last
      have listed : x ∈ types.map Prod.fst := by
        by_contra other
        rw [(lookup_reverse_eq_none x).2 other] at last
        cases last
      simp only [found, Option.isSome_some, listed, or_true]

theorem Grows.perm_fixities (h : r.Grows t entries types) :
    t.fixities.Perm (entries ++ r.fixities) := by
  obtain ⟨table, ds, perm, -, rfl⟩ := h
  exact perm

end Registry

end DepLang

/-
The registry: what a program has declared so far. It holds the fixity
table and, for every defined name, the names of its implicit arguments.

The registry can go back. A snapshot remembers the fixity table and how
many definitions had been recorded; every definition leaves in a
journal what it overwrote, and restoring undoes the journal, newest
entry first, down to the snapshot's height. A snapshot may outlive the
state it was taken in: restoring one that is higher than the journal
undoes nothing.
-/
import DepLang.Fixity
import DepLang.Name

namespace DepLang

/-- The implicit arguments of each defined name. -/
abbrev ImplicitTable := List (Name × List Name)

namespace ImplicitTable

/-- Sets the entry of a name, in its old place if it has one. -/
def put (name : Name) (names : List Name) :
    ImplicitTable → ImplicitTable
  | [] => [(name, names)]
  | (key, value) :: rest =>
    if key = name then (name, names) :: rest
    else (key, value) :: put name names rest

/-- Drops the entry of a name. -/
def remove (name : Name) (table : ImplicitTable) : ImplicitTable :=
  table.filter fun (key, _) => key ≠ name

/-- Gives a name the entry it had before, or none. -/
def revert (name : Name) (previous : Option (List Name))
    (table : ImplicitTable) : ImplicitTable :=
  match previous with
  | none => table.remove name
  | some names => table.put name names

end ImplicitTable

/-- One recorded definition: the name, and the entry it overwrote. -/
structure Overwrite where
  name : Name
  previous : Option (List Name)
  deriving DecidableEq, Inhabited

/-- The fixities and implicit arguments declared so far, and the
journal of definitions, newest first. -/
structure Registry where
  fixities : FixityTable := []
  implicits : ImplicitTable := []
  journal : List Overwrite := []
  deriving Inhabited

/-- A state to go back to. -/
structure Snapshot where
  fixities : FixityTable
  height : Nat
  deriving DecidableEq, Inhabited

namespace Registry

-- ========================================================= queries

/-- The recorded implicit arguments of a name, if it is defined. -/
def implicitsOf? (r : Registry) (name : Name) : Option (List Name) :=
  r.implicits.lookup name

/-- The implicit arguments of a name; an unknown one has none. -/
def implicitsOf (r : Registry) (name : Name) : List Name :=
  (r.implicitsOf? name).getD []

/-- Is the name defined? -/
def defines (r : Registry) (name : Name) : Bool :=
  (r.implicitsOf? name).isSome

/-- The definitions in the order of their names. -/
def definitions (r : Registry) : ImplicitTable :=
  r.implicits.mergeSort fun x y => (compare x.1 y.1).isLE

-- ==================================================== declarations

/-- Declares operators. -/
def addFixities (r : Registry) (entries : List FixityEntry) :
    Registry :=
  { r with fixities := r.fixities.add entries }

/-- Records a definition's implicit arguments. -/
def define (r : Registry) (name : Name) (names : List Name) :
    Registry :=
  { r with
    implicits := r.implicits.put name names
    journal := ⟨name, r.implicitsOf? name⟩ :: r.journal }

-- ==================================================== going back

/-- The present state, to go back to. -/
def snapshot (r : Registry) : Snapshot := ⟨r.fixities, r.journal.length⟩

/-- Undoes the given number of definitions. -/
def undo (r : Registry) : Nat → Registry
  | 0 => r
  | n + 1 =>
    match r.journal with
    | [] => r
    | entry :: older =>
      { r with
        implicits := r.implicits.revert entry.name entry.previous
        journal := older }.undo n

/-- Goes back to a snapshot: its fixities, and no definition above its
height. -/
def restore (r : Registry) (snap : Snapshot) : Registry :=
  { r.undo (r.journal.length - snap.height) with
    fixities := snap.fixities }

/-- Going back to where one is changes nothing. -/
@[simp] theorem restore_snapshot (r : Registry) :
    r.restore r.snapshot = r := by
  simp [restore, snapshot, undo]

end Registry

end DepLang

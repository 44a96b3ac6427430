/-
The free names of a term, in reading order. A binder's type stands
outside its scope and its body inside; every other part of a term
belongs to the scope of the whole.

They are found in one walk through the term, which carries along the
names that are bound where it stands and those that it has found. Where
they occur is said part by part (`occurrences`).
-/
import DepLang.Term

namespace DepLang.Term

-- ==================================================== occurrences

mutual

/-- Free occurrences of names, left to right, with repetitions. -/
def occurrences : Term → List Name
  | .ref name _ => [name]
  | .hole _ => []
  | .set _ => []
  | .quote body _ => body.occurrences
  | .hidden body _ => body.occurrences
  | .app fn implicits args _ =>
    fn.occurrences ++ occurrencesNamed implicits ++ occurrencesAll args
  | .lam binder type body _ =>
    type.occurrences ++ body.occurrences.filter (· ≠ binder)
  | .pi _ binder type body _ =>
    type.occurrences ++ body.occurrences.filter (· ≠ binder)

/-- Free occurrences in positional arguments. -/
def occurrencesAll : List Term → List Name
  | [] => []
  | t :: ts => t.occurrences ++ occurrencesAll ts

/-- Free occurrences in the values of named arguments. -/
def occurrencesNamed : List (Name × Term) → List Name
  | [] => []
  | (_, t) :: ts => t.occurrences ++ occurrencesNamed ts

end

-- ========================================================== search

/-- Adds a name to those found so far, unless it is one of them. -/
def note (found : List Name) (name : Name) : List Name :=
  if name ∈ found then found else found ++ [name]

mutual

/-- Adds the free names of a term to those found so far, given the names
that are bound around it. -/
def search (bound found : List Name) : Term → List Name
  | .ref name _ => if name ∈ bound then found else note found name
  | .hole _ => found
  | .set _ => found
  | .quote body _ => body.search bound found
  | .hidden body _ => body.search bound found
  | .app fn implicits args _ =>
    let found := fn.search bound found
    let found := searchNamed bound found implicits
    searchAll bound found args
  | .lam binder type body _ =>
    let found := type.search bound found
    body.search (binder :: bound) found
  | .pi _ binder type body _ =>
    let found := type.search bound found
    body.search (binder :: bound) found

/-- Adds the free names of positional arguments. -/
def searchAll (bound found : List Name) : List Term → List Name
  | [] => found
  | t :: ts => searchAll bound (t.search bound found) ts

/-- Adds the free names of the values of named arguments. -/
def searchNamed (bound found : List Name) :
    List (Name × Term) → List Name
  | [] => found
  | (_, t) :: ts => searchNamed bound (t.search bound found) ts

end

/-- The free names, each once, in order of first occurrence. -/
def freeNames (t : Term) : List Name := t.search [] []

end DepLang.Term

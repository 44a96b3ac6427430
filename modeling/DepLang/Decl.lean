/-
Declarations of a module: fixities, type signatures, data types with
their constructors, and groups of pattern clauses.
-/
import DepLang.Fixity
import DepLang.Term

namespace DepLang

/-- One clause of a definition by pattern matching. -/
structure Clause where
  head : Name
  lhs : Term
  rhs : Term
  deriving Inhabited

/-- A data type with its kind and its constructors' types. -/
structure DataType where
  name : Name
  kind : Term
  constructors : List (Name × Term)
  deriving Inhabited

/-- A declaration. -/
inductive Decl where
  | fixity (fixity : Fixity) (symbols : List String)
  | signature (name : Name) (type : Term)
  | data (type : DataType)
  | clauses (name : Name) (clauses : List Clause)
  deriving Inhabited

/-- The name of a clause group that has not been given its own yet. -/
def Decl.ungrouped : Name := .machine 0 "_"

-- =========================================== the terms they hold

/-- Both sides of a clause, changed alike. -/
def Clause.mapTerms (f : Term → Term) (c : Clause) : Clause :=
  { c with lhs := f c.lhs, rhs := f c.rhs }

/-- The kind and every constructor's type, changed alike. -/
def DataType.mapTerms (f : Term → Term) (d : DataType) : DataType :=
  { d with
    kind := f d.kind
    constructors := d.constructors.map fun (name, t) => (name, f t) }

/-- Every term a declaration holds, changed alike. -/
def Decl.mapTerms (f : Term → Term) : Decl → Decl
  | .fixity fix symbols => .fixity fix symbols
  | .signature name type => .signature name (f type)
  | .data type => .data (type.mapTerms f)
  | .clauses name group => .clauses name (group.map (·.mapTerms f))

end DepLang

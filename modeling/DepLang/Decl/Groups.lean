/-
Grouping clauses into definitions. Clauses are read one at a time, each
a group of its own; a definition is a run of adjacent single clauses
with one head. A clause that any other declaration separates from its
fellows starts a new group, and groups that are already made stay as
they are.
-/
import DepLang.Decl

namespace DepLang.Decl

/-- The clause of a group that holds exactly one. -/
def single? : Decl → Option Clause
  | .clauses _ [clause] => some clause
  | _ => none

/-- Do two adjacent declarations belong to one definition: single
clauses with the same head? -/
def joins (d e : Decl) : Bool :=
  match d.single?, e.single? with
  | some c, some c' => c.head == c'.head
  | _, _ => false

/-- A run of joining declarations as one: single clauses form a group
named by their head, anything else stays as it is. -/
def ofRun (run : List Decl) : List Decl :=
  match run.filterMap single? with
  | [] => run
  | first :: others => [.clauses first.head (first :: others)]

/-- Merges every maximal run of adjacent single clauses with one head. -/
def group (decls : List Decl) : List Decl :=
  (decls.splitBy joins).flatMap ofRun

end DepLang.Decl

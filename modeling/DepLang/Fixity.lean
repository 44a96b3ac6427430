/-
Fixities: how tightly a user's operator binds, and to which side. The
fixity table lists every declaration ever made, by ascending
precedence and then by operator. Declarations that contradict each
other are not rejected; the table keeps them all, and those of one
precedence and operator stand newest first.

Precedences are natural numbers, as the grammar yields them. Negative
ones, which a caller could put into a table by hand, are left out.
-/

namespace DepLang

/-- The side to which a chain of one operator groups. -/
inductive Assoc where
  | left
  | right
  | neither
  deriving DecidableEq, Inhabited

namespace Assoc

/-- The word that declares an operator of this associativity. -/
def keyword : Assoc → String
  | .left => "infixl"
  | .right => "infixr"
  | .neither => "infix"

/-- The associativity as an adjective, for messages. -/
def adjective : Assoc → String
  | .left => "left"
  | .right => "right"
  | .neither => "non"

end Assoc

/-- A fixity: associativity and precedence, higher binding tighter. -/
structure Fixity where
  assoc : Assoc
  prec : Nat
  deriving DecidableEq, Inhabited

/-- A fixity as it is declared, such as `infixl 6` for addition. -/
def Fixity.toString (f : Fixity) : String :=
  f.assoc.keyword ++ " " ++ f.prec.repr

instance : ToString Fixity := ⟨Fixity.toString⟩

/-- One row of the fixity table: an operator and its fixity. -/
structure FixityEntry where
  fixity : Fixity
  symbol : String
  deriving DecidableEq, Inhabited

/-- The order of the table: by precedence, then by operator. -/
def FixityEntry.le (x y : FixityEntry) : Bool :=
  x.fixity.prec < y.fixity.prec
    || (x.fixity.prec == y.fixity.prec && decide (x.symbol ≤ y.symbol))

/-- The fixity table, in the order of `FixityEntry.le`. -/
abbrev FixityTable := List FixityEntry

namespace FixityTable

/-- Puts an entry in its place, before its equals. -/
def insert (x : FixityEntry) : FixityTable → FixityTable
  | [] => [x]
  | y :: rest => if x.le y then x :: y :: rest else y :: insert x rest

/-- The entries in the order of the table. Those of one rank keep their
own order. -/
def sort (entries : List FixityEntry) : FixityTable :=
  entries.foldr insert []

/-- Adds declarations. They come before older entries of their rank, and
the whole table is put in order. -/
def add (entries : List FixityEntry) (table : FixityTable) :
    FixityTable :=
  sort (entries ++ table)

/-- Inserting an entry puts it somewhere in the table. -/
theorem perm_insert (x : FixityEntry) (table : FixityTable) :
    (insert x table).Perm (x :: table) := by
  induction table with
  | nil => exact .refl _
  | cons y rest ih =>
      rw [insert]
      split
      · exact .refl _
      · exact (ih.cons y).trans (.swap x y rest)

theorem perm_sort (entries : List FixityEntry) :
    (sort entries).Perm entries := by
  induction entries with
  | nil => exact .refl _
  | cons x entries ih => exact (perm_insert x _).trans (ih.cons x)

theorem perm_add (entries : List FixityEntry) (table : FixityTable) :
    (add entries table).Perm (entries ++ table) :=
  perm_sort (entries ++ table)

end FixityTable

end DepLang

/-
Printing declarations, each in the form in which a module declares it,
without the closing semicolon. A data declaration always prints in its
indexed form, since that is what both forms of it mean.
-/
import DepLang.Decl
import DepLang.Term.Printer

namespace DepLang

/-- A name with its type. -/
def printSignature (name : Name) (type : Term) : String :=
  name.print ++ " : " ++ type.print

/-- A clause as an equation. -/
def Clause.print (c : Clause) : String :=
  c.lhs.print ++ " = " ++ c.rhs.print

/-- A data type with its constructors. -/
def DataType.print (d : DataType) : String :=
  "data " ++ printSignature d.name d.kind ++ " where "
    ++ " | ".intercalate
      (d.constructors.map fun (name, type) => printSignature name type)

/-- The text of a declaration. -/
def Decl.print : Decl → String
  | .fixity fix symbols => fix.toString ++ " " ++ ", ".intercalate symbols
  | .signature name type => printSignature name type
  | .data type => type.print
  | .clauses _ group => "; ".intercalate (group.map Clause.print)

instance : ToString Decl := ⟨Decl.print⟩

end DepLang

/-
Names. A name is written by the user, as one or more segments joined by
dots, or made by the machine for a binder that the user left unnamed.
The two kinds never meet, even where their texts agree: no reference
that a user writes can be captured by a machine's binder.
-/
import DepLang.Text.Alphanumeric

namespace DepLang

/-- A name the user wrote, or a numbered name of the machine's own. -/
inductive Name where
  | user (segments : List String)
  | machine (index : Nat) (tag : String)
  deriving DecidableEq, Inhabited

namespace Name

/-- The name of one segment that the given text spells. -/
def ofText (text : String) : Name := .user [text]

/-- The text of a name: segments joined by dots, or tag and number. -/
def toString : Name → String
  | .user segments => ".".intercalate segments
  | .machine index tag => tag ++ index.repr

instance : ToString Name := ⟨Name.toString⟩

/-- Does the name spell an operator: a single segment that starts with
neither a letter, a digit nor an underscore? -/
def isOperator : Name → Bool
  | .user [text] =>
    match text.toList with
    | [] => false
    | c :: _ => !(Text.isAlphanumeric c || c == '_')
  | _ => false

-- ===================================================== name order

/-- User names come first, by segments; then machine names, by number
and tag. -/
def compare : Name → Name → Ordering
  | .user xs, .user ys => List.compareLex Ord.compare xs ys
  | .user _, .machine _ _ => .lt
  | .machine _ _, .user _ => .gt
  | .machine i s, .machine j t =>
    (Ord.compare i j).then (Ord.compare s t)

instance : Ord Name := ⟨Name.compare⟩

end Name

end DepLang

/-
Sets of code points, written as runs. The character classes of this
folder are properties of the Unicode standard; each is a table of the
code points above ASCII that have the property, and ASCII is decided
before the table is looked at, since nearly all text is ASCII.
-/

namespace DepLang.Text

/-- A set of code points as a list of runs `(first, last, step)`: the
points `first`, `first + step`, … up to `last`. -/
abbrev CodePoints := List (Nat × Nat × Nat)

/-- Membership: some run passes through the code point. -/
def CodePoints.contains (runs : CodePoints) (n : Nat) : Bool :=
  runs.any fun (first, last, step) =>
    first ≤ n && n ≤ last && (n - first) % step == 0

end DepLang.Text

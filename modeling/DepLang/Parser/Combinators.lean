/-
Alternatives and repetition. An attempt that fails takes back all it
did: the cursor and the registry are what they were before, and only
the furthest failure and the events show that it was made. Every
combinator that tries something goes through `attempt`.
-/
import DepLang.Parser.Basic

namespace DepLang.Parser

variable {α β : Type}

-- ==================================================== alternatives

/-- The state in which a failed attempt leaves off: cursor and registry
go back to where the attempt began. -/
def rewind (start failed : State) : State :=
  { failed with
    cursor := start.cursor
    registry := failed.registry.restore start.registry.snapshot }

/-- Runs a parser, and takes back what it did if it fails. -/
def attempt (p : Parser α) : Parser α := fun inp s =>
  match p inp s with
  | .error e t => .error e (rewind s t)
  | outcome => outcome

/-- Tries alternatives in order, after one that failed. If all fail, so
does the whole, with their failures merged. -/
def choiceAfter (failed : Failure) : List (Parser α) → Parser α
  | [] => fun _ s => .error failed s
  | p :: ps => fun inp s =>
    match attempt p inp s with
    | .error e t => choiceAfter (failed.merge e) ps inp t
    | outcome => outcome

/-- The first alternative that succeeds. -/
def choice : List (Parser α) → Parser α
  | [] => broken .emptyChoice
  | p :: ps => fun inp s =>
    match attempt p inp s with
    | .error e t => choiceAfter e ps inp t
    | outcome => outcome

/-- Runs a parser if it succeeds; otherwise the value is the given
one. -/
def optional (p : Parser α) (default : α) : Parser α := fun inp s =>
  match attempt p inp s with
  | .error _ t => .ok default t
  | outcome => outcome

-- ====================================================== repetition

/-- Collects values from a state on until there are no more. A value
that cost no token is the last one. -/
def loopFrom (next : Parser (Option α)) (inp : Input) (s : State) :
    Outcome (List α) :=
  match next inp s with
  | .ok none t => .ok [] t
  | .ok (some a) t =>
    if inp.remaining t < inp.remaining s then
      match loopFrom next inp t with
      | .ok as u => .ok (a :: as) u
      | outcome => outcome
    else .ok [a] t
  | .error e t => .error e t
  | .defect d t => .defect d t
termination_by inp.remaining s

/-- Collects values until there are no more. -/
def loop (next : Parser (Option α)) : Parser (List α) := loopFrom next

/-- As many runs of a parser as succeed. -/
def many (p : Parser α) : Parser (List α) :=
  loop (optional (some <$> p) none)

/-- One run of a parser, and as many more as succeed. -/
def many1 (p : Parser α) : Parser (List α) := do
  let first ← p
  let rest ← many p
  pure (first :: rest)

/-- Runs of a parser with separators between them. A separator that no
item follows is left unread. -/
def sepBy1 (p : Parser α) (separator : Parser β) : Parser (List α) := do
  let first ← p
  let rest ← many do
    let _ ← separator
    p
  pure (first :: rest)

end DepLang.Parser

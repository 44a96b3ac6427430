/-
Reading whole texts: a term, a module, a file. A reading starts from a
registry and leaves one behind; if it fails it leaves the one it
started from. What it met on the way is listed as events: the start of
a module, each declaration as it took effect, abandoned ones included,
and the end of a module that was read to its end.
-/
import DepLang.Decl.Groups
import DepLang.Grammar.Decl
import DepLang.Lexer
import DepLang.Text.Source

namespace DepLang

/-- What a reading found, the registry it leaves, and the events it met
on the way, oldest first. -/
structure Reading (α : Type) where
  outcome : Except Stop α
  registry : Registry
  events : List Event := []

namespace Reading

variable {α : Type}

/-- What a parser's end says of the text. A failure is reported
together with the furthest one. -/
def ofOutcome : Outcome α → Reading α
  | .ok a s => ending (.ok a) s
  | .error e s => ending (.error (.failure (s.report e))) s
  | .defect d s => ending (.error (.defect d)) s
where
  ending (outcome : Except Stop α) (s : State) : Reading α :=
    { outcome
      registry := s.registry
      events := s.events.reverse }

/-- A parser run over a text. -/
def ofText (p : Parser α) (lang : Language) (filename text : String)
    (r : Registry) : Reading α :=
  match Lexer.tokenize lang text filename with
  | .error stop => { outcome := .error stop, registry := r }
  | .ok tokens =>
    match Input.ofTokens? tokens ⟨filename, some text⟩ lang with
    | none =>
      { outcome := .error (.defect .unendedTokens), registry := r }
    | some inp => ofOutcome (p inp { registry := r })

end Reading

-- =========================================================== terms

/-- The term that a text spells, under the operators of a registry. -/
def readTerm (lang : Language) (filename text : String) (r : Registry) :
    Reading Term :=
  Reading.ofText Grammar.wholeExpr lang filename text r

-- ========================================================= modules

/-- A module that was read, with its clauses grouped, and its reading
marked as begun and, if there is a module, as done. -/
def Reading.grouped (filename : String) (reading : Reading (List Decl)) :
    Reading (List Decl) :=
  let groups := reading.outcome.map Decl.group
  let done :=
    match groups with
    | .ok decls => [.finished filename decls.length]
    | .error _ => []
  { reading with
    outcome := groups
    events := .started filename :: reading.events ++ done }

/-- The module that a text spells. All its declarations count, or, if
it fails anywhere, none. -/
def readModule (lang : Language) (filename text : String)
    (r : Registry) : Reading (List Decl) :=
  (Reading.ofText (Parser.attempt Grammar.moduleItems) lang filename text
    r).grouped filename

-- =========================================================== files

/-- Why a file could not be read as a module at all. -/
inductive FileProblem where
  | missing
  | notText
  deriving DecidableEq

/-- The module in a file with the given content, if there is one, in
the standard language. -/
def readContent (filename : String) (content : Option ByteArray)
    (r : Registry) : Except FileProblem (Reading (List Decl)) :=
  match content with
  | none => .error .missing
  | some bytes =>
    match Text.decodeSource? bytes with
    | none => .error .notText
    | some text => .ok (readModule .standard filename text r)

-- ========================================================== events

/-- The list of names as events show it: each in quotes. -/
def quotedNames (names : List Name) : String :=
  "[" ++ ", ".intercalate (names.map fun n => Text.quoted n.toString)
    ++ "]"

/-- An event in words. -/
def Event.message : Event → String
  | .started filename => "parse.start file=" ++ filename
  | .fixity entry =>
    "parse.fixity op=" ++ entry.symbol ++ " assoc="
      ++ entry.fixity.assoc.keyword ++ " prec=" ++ entry.fixity.prec.repr
  | .implicits name names =>
    "parse.implicits name=" ++ name.toString ++ " implicits="
      ++ quotedNames names
  | .finished filename decls =>
    "parse.done file=" ++ filename ++ " decls=" ++ decls.repr

end DepLang

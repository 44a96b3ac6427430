/-
Parsers over a token list. The tokens never change and are read by
index; what a parser changes is its state: the cursor, the registry of
declarations, and two records that no attempt takes back. One is the
furthest failure met, merged with those met at the same place before it,
abandoned alternatives included; the other lists every declaration made.
Nothing a parser decides depends on either.

A parser ends in a value, in a failure, which an alternative may still
make good, or in a defect, which is an error in the parser itself and
passes through everything.
-/
import DepLang.Diagnostic
import DepLang.Language
import DepLang.Registry

namespace DepLang

-- =========================================================== input

/-- What is parsed. The end of the input is a token of its own, with a
spelling and a span, found at every index from the number of tokens
on. -/
structure Input where
  tokens : Array Token
  endSpelling : String
  endSpan : Span
  origin : Origin
  language : Language
  deriving Inhabited

namespace Input

/-- The token at an index. -/
def tokenAt (inp : Input) (index : Nat) : Token :=
  inp.tokens[index]?.getD ⟨.eof inp.endSpelling, inp.endSpan⟩

/-- The input with the given tokens, of which the last must be the end
of the input. -/
def ofTokens? (tokens : List Token) (origin : Origin)
    (language : Language) : Option Input :=
  match tokens.getLast? with
  | some ⟨.eof endSpelling, endSpan⟩ =>
    some
      { tokens := tokens.dropLast.toArray
        endSpelling
        endSpan
        origin
        language }
  | _ => none

end Input

-- =========================================================== state

/-- A declaration as it is made, or a module as it is read. -/
inductive Event where
  | started (filename : String)
  | fixity (entry : FixityEntry)
  | implicits (name : Name) (names : List Name)
  | finished (filename : String) (decls : Nat)
  deriving DecidableEq

/-- The changing part of a parse. The events are listed newest first. -/
structure State where
  cursor : Nat := 0
  registry : Registry := {}
  furthest : Option Failure := none
  events : List Event := []
  deriving Inhabited

/-- The state after a failure was met. -/
def State.record (s : State) (e : Failure) : State :=
  { s with furthest := some (.further s.furthest e) }

/-- A failure as the whole parse reports it: together with the furthest
one met. -/
def State.report (s : State) (e : Failure) : Failure :=
  (s.furthest.map e.merge).getD e

/-- The number of tokens from the cursor to the end of the input. -/
def Input.remaining (inp : Input) (s : State) : Nat :=
  inp.tokens.size - s.cursor

-- ========================================================= parsers

/-- How a parser ends, and the state it leaves. -/
inductive Outcome (α : Type) where
  | ok (value : α) (state : State)
  | error (failure : Failure) (state : State)
  | defect (defect : Defect) (state : State)

/-- A parser reads the input from a state. -/
def Parser (α : Type) := Input → State → Outcome α

namespace Parser

variable {α β : Type}

/-- Succeeds without reading anything. -/
def succeed (a : α) : Parser α := fun _ s => .ok a s

/-- Runs one parser, then the one that its value calls for. -/
def andThen (p : Parser α) (f : α → Parser β) : Parser β := fun inp s =>
  match p inp s with
  | .ok a t => f a inp t
  | .error e t => .error e t
  | .defect d t => .defect d t

instance : Monad Parser where
  pure := succeed
  bind := andThen

/-- Running two parsers in sequence: only a value calls for the
second. -/
theorem bind_apply (p : Parser α) (f : α → Parser β) (inp : Input)
    (s : State) :
    (p >>= f) inp s =
      match p inp s with
      | .ok a t => f a inp t
      | .error e t => .error e t
      | .defect d t => .defect d t :=
  rfl

/-- Changing a parser's value changes nothing else. -/
theorem map_apply (f : α → β) (p : Parser α) (inp : Input) (s : State) :
    (f <$> p) inp s =
      match p inp s with
      | .ok a t => .ok (f a) t
      | .error e t => .error e t
      | .defect d t => .defect d t :=
  rfl

instance : LawfulMonad Parser :=
  LawfulMonad.mk'
    Parser
    (fun p => by
      funext inp s
      rw [map_apply]
      cases p inp s <;> rfl)
    (fun _ _ => rfl)
    (fun p f g => by
      funext inp s
      simp only [bind_apply]
      cases p inp s <;> rfl)

/-- Stops with a defect. -/
def broken (d : Defect) : Parser α := fun _ s => .defect d s

/-- The part of the input that the given function reads off. -/
def ask (f : Input → State → α) : Parser α := fun inp s =>
  .ok (f inp s) s

/-- Changes the state. -/
def update (f : State → State) : Parser Unit := fun _ s => .ok () (f s)

-- ====================================================== primitives

/-- The token at some distance from the cursor. -/
def peek (offset : Nat) : Parser Token :=
  ask fun inp s => inp.tokenAt (s.cursor + offset)

/-- The state after the token at the cursor; the end of the input is
never passed. -/
def past (inp : Input) (s : State) : State :=
  if (inp.tokenAt s.cursor).kind = .eof then s
  else { s with cursor := s.cursor + 1 }

/-- Reads the token at the cursor, whatever it is. -/
def advance : Parser Token := fun inp s =>
  .ok (inp.tokenAt s.cursor) (past inp s)

/-- Is the token at the cursor the end of the input? -/
def atEnd : Parser Bool :=
  ask fun inp s => (inp.tokenAt s.cursor).kind == .eof

/-- A failure at the cursor, with a complaint about the token there
unless another one is given. -/
def failureAt (inp : Input) (s : State) (complaint : Option Complaint)
    (expected : List String) : Failure :=
  let token := inp.tokenAt s.cursor
  { complaint := complaint.getD (.unexpected token.lexeme)
    span := token.span
    expected
    origin := inp.origin }

/-- Fails at the cursor, and records it. -/
def failWith (complaint : Option Complaint) (expected : List String) :
    Parser α := fun inp s =>
  let failure := failureAt inp s complaint expected
  .error failure (s.record failure)

/-- Fails at the token at the cursor, for want of what was expected. -/
def fail (expected : List String) : Parser α := failWith none expected

/-- Reads the token at the cursor if there is something to read off
it. -/
def accept (read : Language → Token → Option α) (expected : String) :
    Parser α := fun inp s =>
  match read inp.language (inp.tokenAt s.cursor) with
  | some a => .ok a (past inp s)
  | none => fail [expected] inp s

/-- A token that passes a test. -/
def acceptIf (test : Language → Lexeme → Bool) (expected : String) :
    Parser Token :=
  accept (fun lang t => if test lang t.lexeme then some t else none)
    expected

/-- A token of the given kind. -/
def expect (kind : TokenKind) : Parser Token :=
  acceptIf (fun _ lexeme => lexeme.kind == kind) kind.phrase

/-- The given mark. -/
def mark (m : Mark) : Parser Token := expect (.mark m)

/-- The given reserved word. -/
def reserved (word : String) : Parser Token :=
  acceptIf (fun _ lexeme => lexeme == .reserved word)
    ("\"" ++ word ++ "\"")

/-- The given operator, reserved or not. -/
def symbol (op : String) : Parser Token :=
  acceptIf (fun _ lexeme => lexeme == .operator op)
    ("\"" ++ op ++ "\"")

/-- Is the lexeme an operator that the language does not reserve? -/
def isFreeOperator (lang : Language) : Lexeme → Bool
  | .operator op => !lang.isReservedOperator op
  | _ => false

/-- An operator that the language does not reserve. -/
def operator : Parser Token :=
  acceptIf isFreeOperator TokenKind.operator.phrase

/-- An identifier. -/
def identifier : Parser Token := expect .ident

/-- The value of a number. -/
def natural : Parser Nat :=
  accept
    (fun _ t =>
      match t.lexeme with
      | .natural value => some value
      | _ => none)
    TokenKind.natural.phrase

/-- The end of the input. -/
def eof : Parser Unit := do
  if ← atEnd then pure () else fail [TokenKind.eof.phrase]

-- ==================================================== declarations

/-- Declares operators; they count from here on. -/
def declareFixities (entries : List FixityEntry) : Parser Unit :=
  update fun s =>
    { s with
      registry := s.registry.addFixities entries
      events := (entries.map Event.fixity).reverse ++ s.events }

/-- Records a definition's implicit arguments; one without any is
recorded silently. -/
def define (name : Name) (names : List Name) : Parser Unit :=
  update fun s =>
    { s with
      registry := s.registry.define name names
      events :=
        if names.isEmpty then s.events
        else .implicits name names :: s.events }

end Parser

end DepLang

/-
How parsers are put together. `Alike` relates two parsers that are
built in the same way from the primitives and the combinators, over
values that agree. It is the syntax of the grammar seen from inside:
each rule is shown to be built this way once, and a property that every
way of building keeps is then one induction.

The two parsers may differ in what stands for a nested expression, and,
unless spans count, in the spans of the terms they are given. Reading a
parser as alike to itself gives the properties of one run; two
different nested expressions or two texts give the relational ones.

Two switches say how far a parser has got: whether a token has been
read before it starts, and whether one has been read once it succeeds.
A nested expression may only be entered after a token, which is what
bounds the nesting of expressions by the length of the input.
-/
import DepLang.Proofs.Implicit.Agree
import DepLang.Parser.Combinators

namespace DepLang.Parser

variable {α β : Type}

/-- Where the last token that was read ends. -/
def lastStop : Parser Nat :=
  ask fun inp s => (inp.tokenAt (s.cursor - 1)).span.stop

/-- Parsers built alike from nested expressions `e` and `e'`, with
values in relation. The switches tell whether a token has been read
before the parser and after it. -/
inductive Alike (exact : Prop) (e e' : Parser Term) :
    {α : Type} → Bool → Bool → Likeness α → Parser α → Parser α → Prop
  | pure {α : Type} {b : Bool} {R : Likeness α} {a a' : α}
      (value : R a a') :
      Alike exact e e' b b R (pure a) (pure a')
  | bind {α β : Type} {b c d : Bool} {R : Likeness α}
      {S : Likeness β} {p p' : Parser α} {f f' : α → Parser β}
      (first : Alike exact e e' b c R p p')
      (next : ∀ a a', R a a' → Alike exact e e' c d S (f a) (f' a')) :
      Alike exact e e' b d S (p >>= f) (p' >>= f')
  | weaken {α : Type} {b c b' c' : Bool} {R S : Likeness α}
      {p p' : Parser α}
      (of : Alike exact e e' b c R p p')
      (before : b = true → b' = true) (after : c' = true → c = true)
      (value : ∀ a a', R a a' → S a a') :
      Alike exact e e' b' c' S p p'
  | nested : Alike exact e e' true true (Term.likeness exact) e e'
  | broken {α : Type} {b c : Bool} {R : Likeness α} (d : Defect) :
      Alike exact e e' b c R (broken d) (broken d)
  | peek {b : Bool} (offset : Nat) :
      Alike exact e e' b b (.upTo exact Token.lexeme)
        (peek offset) (peek offset)
  | lastStop {b : Bool} :
      Alike exact e e' b b (.offset exact) lastStop lastStop
  | consult {α : Type} {b : Bool} {R : Likeness α}
      (f f' : Registry → α)
      (value : ∀ r r', r.implicitsOf? = r'.implicitsOf? →
        R (f r) (f' r')) :
      Alike exact e e' b b R
        (ask fun _ s => f s.registry) (ask fun _ s => f' s.registry)
  | advance {b : Bool} :
      Alike exact e e' b b (.upTo exact Token.lexeme) advance advance
  | accept {α : Type} {b c : Bool} {R : Likeness α}
      {read : Language → Token → Option α} {expected : String}
      (value : ∀ lang t t', Agree exact Token.lexeme t t' →
        Option.Rel R (read lang t) (read lang t'))
      (reads : c = b ∨
        ∀ lang t, t.kind = .eof → read lang t = none) :
      Alike exact e e' b c R (accept read expected) (accept read expected)
  | failWith {α : Type} {b c : Bool} {R : Likeness α}
      (complaint : Option Complaint) (expected : List String) :
      Alike exact e e' b c R
        (failWith complaint expected) (failWith complaint expected)
  | declareFixities {b : Bool} (entries : List FixityEntry) :
      Alike exact e e' b b .same
        (declareFixities entries) (declareFixities entries)
  | define {b : Bool} (name : Name) (names : List Name) :
      Alike exact e e' b b .same (define name names) (define name names)
  | attempt {α : Type} {b c : Bool} {R : Likeness α}
      {p p' : Parser α} (body : Alike exact e e' b c R p p') :
      Alike exact e e' b c R (attempt p) (attempt p')
  | choice {α : Type} {b c : Bool} {R : Likeness α}
      {ps ps' : List (Parser α)} (length : ps.length = ps'.length)
      (each : ∀ q ∈ ps.zip ps', Alike exact e e' b c R q.1 q.2) :
      Alike exact e e' b c R (choice ps) (choice ps')
  | optional {α : Type} {b c : Bool} {R : Likeness α}
      {p p' : Parser α} {a a' : α}
      (body : Alike exact e e' b c R p p') (value : R a a') :
      Alike exact e e' b b R (optional p a) (optional p' a')
  | loop {α : Type} {b c : Bool} {R : Likeness α}
      {p p' : Parser (Option α)}
      (body : Alike exact e e' b c R.option p p') :
      Alike exact e e' b b R.list (loop p) (loop p')

namespace Alike

variable {exact : Prop} {e e' : Parser Term} {b c d : Bool}

-- ===================================================== consequences

/-- A token read before the parser started is read after it. -/
theorem late {R : Likeness α} {p p' : Parser α}
    (h : Alike exact e e' b true R p p') :
    Alike exact e e' true true R p p' :=
  .weaken h (fun _ => rfl) id fun _ _ => id

/-- That a token has been read need not be told. -/
theorem untold {R : Likeness α} {p p' : Parser α}
    (h : Alike exact e e' b true R p p') : Alike exact e e' b b R p p' :=
  .weaken h id (fun _ => rfl) fun _ _ => id

theorem map {R : Likeness α} {S : Likeness β} {p p' : Parser α}
    {f f' : α → β} (h : Alike exact e e' b c R p p')
    (value : ∀ a a', R a a' → S (f a) (f' a')) :
    Alike exact e e' b c S (f <$> p) (f' <$> p') :=
  .bind h fun a a' ha => .pure (value a a' ha)

theorem fail {R : Likeness α} (expected : List String) :
    Alike exact e e' b c R (Parser.fail expected) (Parser.fail expected) :=
  .failWith none expected

/-- A choice of alternatives that are alike one by one. -/
theorem oneOf {R : Likeness α} {ps ps' : List (Parser α)}
    (h : List.Forall₂ (Alike exact e e' b c R) ps ps') :
    Alike exact e e' b c R (Parser.choice ps) (Parser.choice ps') :=
  .choice h.length_eq fun _ hq => List.forall₂_zip h hq

-- ==================================================== reading tokens

/-- A function of the lexeme at the cursor. -/
theorem look {R : Likeness α} {f : Token → α}
    (value : ∀ t t', Agree exact Token.lexeme t t' → R (f t) (f t')) :
    Alike exact e e' b b R
      (ask fun inp s => f (inp.tokenAt s.cursor))
      (ask fun inp s => f (inp.tokenAt s.cursor)) :=
  .bind (.peek 0) fun t t' ht => .pure (value t t' ht)

theorem atEnd :
    Alike exact e e' b b .same Parser.atEnd Parser.atEnd := by
  refine look (f := fun t => t.kind == .eof) fun t t' ht => ?_
  show (t.lexeme.kind == _) = (t'.lexeme.kind == _)
  rw [ht.1]

theorem eof :
    Alike exact e e' b b .same Parser.eof Parser.eof := by
  refine .bind atEnd fun ended _ same => ?_
  subst same
  cases ended with
  | true => exact .pure rfl
  | false => exact .fail _

/-- A token that passes a test of its lexeme. The end of the input
counts as read only if it passes. -/
theorem acceptIf {test : Language → Lexeme → Bool} {expected : String}
    (reads : c = b ∨ ∀ lang l, l.kind = .eof → test lang l = false) :
    Alike exact e e' b c (.upTo exact Token.lexeme)
      (acceptIf test expected) (acceptIf test expected) := by
  refine .accept (fun lang t t' ht => ?_) (reads.imp_right ?_)
  · rw [ht.1]
    cases test lang t'.lexeme with
    | true => exact .some ht
    | false => exact .none
  · intro ended lang t ht
    rw [ended lang t.lexeme ht]
    rfl

theorem expect {kind : TokenKind} (reads : c = b ∨ kind ≠ .eof) :
    Alike exact e e' b c (.upTo exact Token.lexeme)
      (expect kind) (expect kind) :=
  acceptIf <| reads.imp_right fun other _ l hl => by
    rw [hl]
    exact beq_false_of_ne (Ne.symm other)

theorem mark (m : Mark) :
    Alike exact e e' b true (.upTo exact Token.lexeme)
      (mark m) (mark m) :=
  expect (.inr (by simp))

theorem identifier :
    Alike exact e e' b true (.upTo exact Token.lexeme)
      identifier identifier :=
  expect (.inr (by simp))

theorem reserved (word : String) :
    Alike exact e e' b true (.upTo exact Token.lexeme)
      (reserved word) (reserved word) :=
  acceptIf <| .inr fun _ l hl => by cases l <;> simp_all [Lexeme.kind]

theorem symbol (op : String) :
    Alike exact e e' b true (.upTo exact Token.lexeme)
      (symbol op) (symbol op) :=
  acceptIf <| .inr fun _ l hl => by cases l <;> simp_all [Lexeme.kind]

theorem operator :
    Alike exact e e' b true (.upTo exact Token.lexeme)
      operator operator :=
  acceptIf <| .inr fun _ l hl => by
    cases l <;> simp_all [Lexeme.kind, isFreeOperator]

theorem natural :
    Alike exact e e' b true .same natural natural := by
  refine .accept (fun _ t t' ht => ?_) (.inr fun _ t ht => ?_)
  · rw [ht.1]
    cases t'.lexeme with
    | natural => exact .some rfl
    | _ => exact .none
  · have kind : t.lexeme.kind = .eof := ht
    cases h : t.lexeme <;> simp_all [Lexeme.kind]

-- ======================================================= repetition

theorem many {R : Likeness α} {p p' : Parser α}
    (h : Alike exact e e' b c R p p') :
    Alike exact e e' b b R.list (many p) (many p') :=
  .loop (.optional (h.map fun _ _ ha => .some ha) .none)

theorem many1 {R : Likeness α} {p p' : Parser α}
    (h : Alike exact e e' b true R p p') :
    Alike exact e e' b true R.list (many1 p) (many1 p') :=
  .bind h fun _ _ first => .bind h.late.many fun _ _ rest =>
    .pure (.cons first rest)

theorem sepBy1 {R : Likeness α} {S : Likeness β}
    {p p' : Parser α} {q q' : Parser β}
    (h : Alike exact e e' b true R p p')
    (separator : Alike exact e e' true true S q q') :
    Alike exact e e' b true R.list
      (sepBy1 p q) (sepBy1 p' q') :=
  .bind h fun _ _ first =>
    .bind (many (.bind separator fun _ _ _ => h.late)) fun _ _ rest =>
      .pure (.cons first rest)

end Alike

end DepLang.Parser

/-
Declarations whose text says all there is to them, and what that text
lexes to. A canonical declaration defines words and free operators, its
terms are canonical, and so are the arguments of its clauses, which may
be hidden. Two things about clauses are printed as nothing else is: what
is hidden is no quotation, whose mark would run together with the dot,
and neither operand of a defined operator prints as an application, as
these stand without parentheses.

A group of clauses prints as its clauses one after another, each with
its semicolon, so that the lexemes of a module do not depend on how its
clauses are grouped (`lexes_printModule`).
-/
import DepLang.Decl.Printer
import DepLang.Proofs.Decl.Groups
import DepLang.Proofs.Grammar.Canonical

namespace DepLang

open DepLang.Grammar DepLang.Lexer

-- ========================================================= canonical

namespace Term

/-- Is the term a quotation? -/
def isQuote : Term → Bool
  | .quote _ _ => true
  | _ => false

/-- The arguments of clauses that are told by their text. -/
inductive CanonicalArgument (table : FixityTable) : Term → Prop
  | shown {t : Term} (h : t.Canonical table) : CanonicalArgument table t
  | hidden {t : Term} {σ : Option Span} (h : t.Canonical table)
      (apart : t.isQuote = false) : CanonicalArgument table (.hidden t σ)

end Term

/-- The clauses that are told by their text: a name in front of its
arguments, or an operator between two. -/
inductive Clause.Canonical (table : FixityTable) : Clause → Prop
  | function {x : Name} {named : List (Name × Term)} {args : List Term}
      {rhs : Term} (target : IsTarget x)
      (shown : Term.infixOperator? (.ref x none) named args = none)
      (names : ∀ a ∈ named, IsWord a.1)
      (values : ∀ a ∈ named, a.2.Canonical table)
      (each : ∀ a ∈ args, a.CanonicalArgument table)
      (body : rhs.Canonical table) :
      Canonical table ⟨x, .app (.ref x none) named args none, rhs⟩
  | operator {op : String} {x y rhs : Term} (free : IsFreeOperator op)
      (left : x.Canonical table) (right : y.Canonical table)
      (apart : x.precedence ≠ .application ∧ y.precedence ≠ .application)
      (body : rhs.Canonical table) :
      Canonical table
        ⟨.ofText op, .app (.ref (.ofText op) none) [] [x, y] none, rhs⟩

/-- The declarations that are told by their text, their clauses alone. -/
inductive Decl.Canonical (table : FixityTable) : Decl → Prop
  | fixity {fix : Fixity} {symbols : List String}
      (short : fix.prec.repr.length ≤ Text.digitLimit)
      (some_symbol : symbols ≠ [])
      (free : ∀ symbol ∈ symbols, IsFreeOperator symbol) :
      Canonical table (.fixity fix symbols)
  | signature {x : Name} {t : Term} (target : IsTarget x)
      (type : t.Canonical table) : Canonical table (.signature x t)
  | data {x : Name} {t : Term} {constructors : List (Name × Term)}
      (target : IsTarget x) (kind : t.Canonical table)
      (some_constructor : constructors ≠ [])
      (each : ∀ a ∈ constructors, IsTarget a.1 ∧ a.2.Canonical table) :
      Canonical table (.data ⟨x, t, constructors⟩)
  | clause {c : Clause} (h : c.Canonical table) :
      Canonical table (.clauses ungrouped [c])

-- =========================================================== lexemes

/-- The lexemes of a name with its type. -/
def signatureLexemes (x : Name) (t : Term) : List Lexeme :=
  Term.nameLexemes x ++ .operator ":" :: t.lexemes

/-- The lexemes of a clause. -/
def Clause.lexemes (c : Clause) : List Lexeme :=
  c.lhs.lexemes ++ .operator "=" :: c.rhs.lexemes

/-- The lexemes of a declaration with its semicolon, or of a group of
clauses with one for each. -/
def Decl.lexemes : Decl → List Lexeme
  | .fixity fix symbols =>
    .reserved fix.assoc.keyword :: .natural fix.prec
      :: ([Lexeme.ofMark .comma].intercalate
        (symbols.map fun op => [.operator op])
      ++ [.ofMark .semicolon])
  | .signature x t => signatureLexemes x t ++ [.ofMark .semicolon]
  | .data ⟨x, t, constructors⟩ =>
    .reserved "data" :: (signatureLexemes x t ++ .reserved "where"
      :: ([Lexeme.operator "|"].intercalate
        (constructors.map fun (y, u) => signatureLexemes y u)
      ++ [.ofMark .semicolon]))
  | .clauses _ group =>
    group.flatMap fun c => c.lexemes ++ [.ofMark .semicolon]

/-- Grouping clauses leaves the lexemes. -/
theorem Decl.flatMap_lexemes_group (decls : List Decl) :
    (group decls).flatMap lexemes = decls.flatMap lexemes :=
  flatMap_group (fun _ _ _ => rfl) decls

-- ============================================================= texts

/-- The text of declarations in a module, each with its semicolon. -/
def Decl.printModule (decls : List Decl) : String :=
  String.join (decls.map fun d => d.print ++ ";")

section
variable {table : FixityTable}

theorem Grammar.IsTarget.prints {x : Name} (h : IsTarget x) :
    Term.Prints x.print (Term.nameLexemes x) := by
  obtain ⟨text, rfl, word | operator⟩ := h
  · exact Term.prints_word word
  · exact Term.prints_freeOperator operator

namespace Term

/-- What can follow a dot: nothing that goes on with an operator. -/
def Undotted (text : String) : Prop :=
  ∀ rest, ∀ d ∈ (text.toList ++ rest).head?,
    Language.standard.isOperatorLetter d = false ∧ d ≠ '['

theorem undotted_cons {text : String} {c : Char} {cs : List Char}
    (chars : text.toList = c :: cs)
    (apart : Language.standard.isOperatorLetter c = false ∧ c ≠ '[') :
    Undotted text := by
  intro rest d hd
  rw [chars] at hd
  cases hd
  exact apart

theorem undotted_parens (text : String) :
    Undotted ("(" ++ text ++ ")") := by
  intro rest d hd
  have chars : ("(" ++ text ++ ")").toList ++ rest
      = '(' :: (text.toList ++ [')'] ++ rest) := by simp
  rw [chars] at hd
  cases hd
  decide

/-- An atom that is no quotation can follow a dot. -/
theorem Canonical.undotted {t : Term} (h : t.Canonical table)
    (apart : t.isQuote = false) :
    Undotted (enclose .atom t t.print) := by
  by_cases loose : t.precedence.rank < Precedence.atom.rank
  · rw [enclose, if_pos loose]
    exact undotted_parens _
  · rw [enclose, if_neg loose]
    cases h with
    | word name =>
        intro rest d hd
        rw [print, Name.print, name.isOperator] at hd
        exact (name.plain_of_head rest hd).2
    | operator name =>
        rw [print, Name.print, isOperator_of_lone name.1]
        exact undotted_parens _
    | hole =>
        have chars : "_".toList = ['_'] := by decide
        exact undotted_cons chars (by decide)
    | set =>
        have chars : "Set".toList = ['S', 'e', 't'] := by decide
        exact undotted_cons chars (by decide)
    | quote => cases apart
    | lam | pi | arrow =>
        exact absurd (Nat.succ_pos 2) loose
    | joined | app =>
        refine absurd ?_ loose
        rw [precedence]
        split <;> decide

theorem Canonical.prints_hidden {t : Term} {σ : Option Span}
    (free : ∀ e ∈ table, IsFreeOperator e.symbol) (h : t.Canonical table)
    (apart : t.isQuote = false) :
    Prints (hidden t σ).print (hidden t σ).lexemes := by
  intro rest tail ends more
  have inner := (h.prints free).enclosed .atom t rest tail ends more
  have dot : Lone "." (.operator ".") := lone_of_reserved (by decide)
  have all := inner.operator dot (h.undotted apart rest)
  simpa [print, lexemes] using all

theorem CanonicalArgument.prints {t : Term}
    (free : ∀ e ∈ table, IsFreeOperator e.symbol)
    (h : t.CanonicalArgument table) : Prints t.print t.lexemes := by
  cases h with
  | shown h => exact h.prints free
  | hidden h apart => exact h.prints_hidden free apart

end Term

/-- The text of a canonical clause lexes to its lexemes. -/
theorem Clause.Canonical.prints {c : Clause}
    (free : ∀ e ∈ table, IsFreeOperator e.symbol)
    (h : c.Canonical table) : Term.Prints c.print c.lexemes := by
  have equals : Lone "=" (.operator "=") := lone_of_reserved (by decide)
  have spaced : " " ++ "=" ++ " " = " = " := by decide
  cases h with
  | @function x named args rhs target shown names values each body =>
      have lhs : Term.Prints (Term.app (.ref x none) named args none).print
          (Term.app (.ref x none) named args none).lexemes := by
        rw [Term.print, Term.lexemes, shown]
        have head := target.prints.enclosed .application (.ref x none)
        refine Term.prints_blanks (.cons head ?_) (List.cons_ne_nil _ _)
        exact List.rel_append
          (Term.prints_printNamed names fun a ha =>
            (values a ha).prints free)
          (Term.prints_printAll fun a ha => (each a ha).prints free)
      rw [Clause.print, ← spaced]
      exact lhs.between "=" equals (body.prints free)
  | @operator op x y rhs free_op left right apart body =>
      have lhs : Term.Prints
          (Term.app (.ref (.ofText op) none) [] [x, y] none).print
          (Term.app (.ref (.ofText op) none) [] [x, y] none).lexemes := by
        rw [Term.print, Term.lexemes, Term.infixOperator?,
          isOperator_of_lone free_op.1]
        simp only [if_true, Name.toString_ofText]
        exact Term.prints_joined free_op.1
          (.cons ((left.prints free).enclosed .application x)
            (.cons ((right.prints free).enclosed .application y) .nil))
          (by simp [Term.printAll])
      rw [Clause.print, ← spaced]
      exact lhs.between "=" equals (body.prints free)

theorem prints_signature {x : Name} {t : Term}
    (free : ∀ e ∈ table, IsFreeOperator e.symbol) (target : IsTarget x)
    (type : t.Canonical table) :
    Term.Prints (printSignature x t) (signatureLexemes x t) := by
  have spaced : " " ++ ":" ++ " " = " : " := by decide
  rw [printSignature, ← spaced]
  exact target.prints.between ":" (lone_of_reserved (by decide))
    (type.prints free)

-- ===================================================== declarations

/-- A text with a semicolon behind it may be followed by anything. -/
theorem Term.Prints.opens {text : String} {ls : List Lexeme}
    (h : Term.Prints text ls) :
    Opens (text ++ ";") (ls ++ [.ofMark .semicolon]) := by
  intro rest tail more
  have closing := more.mark (c := ';') (m := .semicolon) (by decide)
  simpa using h _ _ (ends_cons (by simp)) closing

/-- Operators with commas between them. -/
theorem prints_commas {symbols : List String} (some_symbol : symbols ≠ [])
    (free : ∀ symbol ∈ symbols, IsFreeOperator symbol) :
    Term.Prints (", ".intercalate symbols)
      ([Lexeme.ofMark .comma].intercalate
        (symbols.map fun op => [.operator op])) := by
  induction symbols with
  | nil => exact absurd rfl some_symbol
  | cons op symbols ih =>
      obtain ⟨⟨lone, -⟩, others⟩ := List.forall_mem_cons.1 free
      cases symbols with
      | nil => simpa using Term.prints_operator lone
      | cons op' symbols =>
          intro rest tail ends more
          have later := (ih (by simp) others rest tail ends more).blank
          have comma := later.mark (c := ',') (m := .comma) (by decide)
          have all := comma.operator lone (Ends.stops (ends_cons (by simp)))
          simpa [String.intercalate_cons_cons, List.intercalate_cons_cons]
            using all

theorem prints_fixity {fix : Fixity} {symbols : List String}
    (short : fix.prec.repr.length ≤ Text.digitLimit)
    (some_symbol : symbols ≠ [])
    (free : ∀ symbol ∈ symbols, IsFreeOperator symbol) :
    Term.Prints (Decl.fixity fix symbols).print
      (.reserved fix.assoc.keyword :: .natural fix.prec
        :: [Lexeme.ofMark .comma].intercalate
          (symbols.map fun op => [.operator op])) := by
  have reserved : fix.assoc.keyword ∈ Language.standard.reservedWords := by
    cases fix.assoc <;> decide
  intro rest tail ends more
  have list := prints_commas some_symbol free rest tail ends more
  have number := list.blank.natural fix.prec short (by
    intro d hd
    cases hd
    decide)
  have word := Term.prints_reserved reserved _ _ (ends_cons (by simp))
    number.blank
  simpa [Decl.print, Fixity.toString, ToString.toString] using word

theorem prints_data {x : Name} {t : Term}
    {constructors : List (Name × Term)}
    (free : ∀ e ∈ table, IsFreeOperator e.symbol) (target : IsTarget x)
    (kind : t.Canonical table) (some_constructor : constructors ≠ [])
    (each : ∀ a ∈ constructors, IsTarget a.1 ∧ a.2.Canonical table) :
    Term.Prints (DataType.print ⟨x, t, constructors⟩)
      (.reserved "data" :: (signatureLexemes x t ++ .reserved "where"
        :: [Lexeme.operator "|"].intercalate
          (constructors.map fun (y, u) => signatureLexemes y u))) := by
  have bars : " " ++ "|" ++ " " = " | " := by decide
  have listed : List.Forall₂ Term.Prints
      (constructors.map fun (y, u) => printSignature y u)
      (constructors.map fun (y, u) => signatureLexemes y u) := by
    rw [List.forall₂_map_left_iff, List.forall₂_map_right_iff,
      List.forall₂_same]
    exact fun a ha => prints_signature free (each a ha).1 (each a ha).2
  have bar : Lexer.Lone "|" (.operator "|") :=
    Lexer.lone_of_reserved (by decide)
  have list := Term.prints_joined bar listed
    (by simpa using some_constructor)
  rw [bars] at list
  have reserved_data : "data" ∈ Language.standard.reservedWords := by
    decide
  have reserved_where : "where" ∈ Language.standard.reservedWords := by
    decide
  intro rest tail ends more
  have begun := Term.prints_reserved reserved_where _ _
    (ends_cons (by simp)) (list rest tail ends more).blank
  have signed := prints_signature free target kind _ _
    (ends_cons (by simp)) begun.blank
  have all := Term.prints_reserved reserved_data _ _ (ends_cons (by simp))
    signed.blank
  simpa [DataType.print] using all

/-- Clauses with semicolons between them and a last one behind. -/
theorem opens_clauses {c : Clause} {cs : List Clause}
    (each : ∀ c' ∈ c :: cs, Term.Prints c'.print c'.lexemes) :
    Opens ("; ".intercalate ((c :: cs).map Clause.print) ++ ";")
      ((c :: cs).flatMap fun c' => c'.lexemes ++ [.ofMark .semicolon]) := by
  induction cs generalizing c with
  | nil => simpa using (each c List.mem_cons_self).opens
  | cons c' cs ih =>
      obtain ⟨first, others⟩ := List.forall_mem_cons.1 each
      intro rest tail more
      have later := (ih others rest tail more).blank
      have closing := later.mark (c := ';') (m := .semicolon) (by decide)
      have all := first _ _ (ends_cons (by simp)) closing
      simpa [String.intercalate_cons_cons] using all

/-- The text of a canonical declaration with its semicolon. -/
theorem Decl.Canonical.opens {d : Decl}
    (free : ∀ e ∈ table, IsFreeOperator e.symbol)
    (h : d.Canonical table) : Opens (d.print ++ ";") d.lexemes := by
  cases h with
  | fixity short some_symbol symbols =>
      simpa [lexemes] using (prints_fixity short some_symbol symbols).opens
  | signature target type =>
      exact (prints_signature free target type).opens
  | data target kind some_constructor each =>
      simpa [lexemes, print] using
        (prints_data free target kind some_constructor each).opens
  | clause h =>
      exact opens_clauses (List.forall_mem_singleton.2 (h.prints free))

end

-- =========================================================== modules

theorem opens_join {α : Type} {text : α → String}
    {ls : α → List Lexeme} {as : List α}
    (each : ∀ a ∈ as, Opens (text a) (ls a)) :
    Opens (String.join (as.map text)) (as.flatMap ls) := by
  induction as with
  | nil => exact fun rest tail h => by simpa using h
  | cons a as ih =>
      obtain ⟨first, others⟩ := List.forall_mem_cons.1 each
      intro rest tail h
      have all := first _ _ (ih others rest tail h)
      simpa [String.join_cons] using all

/-- The text of a module lexes to the lexemes of its declarations, before
and after their clauses are grouped. -/
theorem lexes_printModule {decls : List Decl}
    (each : ∀ d ∈ decls, ∃ table : FixityTable,
      (∀ e ∈ table, IsFreeOperator e.symbol) ∧ d.Canonical table) :
    Lexes (Decl.printModule (Decl.group decls)).toList
      (decls.flatMap Decl.lexemes) := by
  have opens : ∀ d ∈ Decl.group decls, Opens (d.print ++ ";") d.lexemes := by
    intro d hd
    rcases Decl.of_mem_group hd with ⟨there, -⟩ | ⟨c, cs, rfl, single⟩
    · obtain ⟨table, free, canonical⟩ := each d there
      exact canonical.opens free
    · refine opens_clauses fun c' hc => ?_
      obtain ⟨-, name, there⟩ := single c' hc
      obtain ⟨table, free, canonical⟩ := each _ there
      cases canonical with
      | clause h => exact h.prints free
  have all := opens_join opens [] [] .nil
  rw [Decl.flatMap_lexemes_group, List.append_nil, List.append_nil] at all
  exact all

end DepLang

/-
The terms whose text says all there is to them, and what that text lexes
to. A canonical term names everything by words and free operators of the
standard language, its operators in infix form are known to the fixity
table, and its applications have an argument to show and a head that is
no application of the same kind.

The lexemes of a term are computed as its text is, place by place. That
the text lexes to them is shown for every text that can follow: what the
printer writes after a word or an operator always ends it.
-/
import DepLang.Fixity
import DepLang.Grammar.Operators
import DepLang.Proofs.Lexer.Lexes
import DepLang.Term.Printer
import Mathlib.Data.List.Forall2

namespace DepLang

open DepLang.Lexer

-- ============================================================ names

/-- The text is an identifier, and no reserved word. -/
def IsIdentifier (text : String) : Prop := Lone text (.ident text)

/-- The text is an operator that is not reserved. -/
def IsFreeOperator (text : String) : Prop :=
  Lone text (.operator text)
    ∧ Language.standard.isReservedOperator text = false

instance (text : String) : Decidable (IsIdentifier text) :=
  inferInstanceAs (Decidable (Lone _ _))

instance (text : String) : Decidable (IsFreeOperator text) :=
  inferInstanceAs (Decidable (_ ∧ _))

/-- A name of one segment is its text. -/
theorem Name.toString_ofText (text : String) :
    (Name.ofText text).toString = text := by
  show ".".intercalate [text] = text
  rw [String.intercalate_singleton]

theorem IsIdentifier.isOperator {text : String} (h : IsIdentifier text) :
    (Name.ofText text).isOperator = false := by
  obtain ⟨c, rest, chars, starts, -⟩ := Lone.ident h
  have checked := forall_ascii
    (p := fun c => !Rules.startClass.contains c
      || Text.isAlphanumeric c)
    (by decide) c
    (lt_of_identLetter (identLetter_of_identStart starts))
  simp only [starts, Bool.not_true, Bool.false_or] at checked
  simp only [Name.isOperator, Name.ofText, chars, checked]
  rfl

theorem isOperator_of_lone {text : String}
    (h : Lone text (.operator text)) :
    (Name.ofText text).isOperator = true := by
  obtain ⟨some_char, letters, -⟩ := h.operator
  cases chars : text.toList with
  | nil => exact absurd chars some_char
  | cons c rest =>
      have checked : ∀ d ∈ Language.standard.operatorLetters.toList,
          (Text.isAlphanumeric d || d == '_') = false :=
        forall_of_all (by decide)
      rw [chars] at letters
      have letter := checked c
        (List.contains_iff_mem.1 (letters c List.mem_cons_self))
      simp only [Name.isOperator, Name.ofText, chars, letter]
      rfl

namespace Term

-- ======================================================== the terms

/-- The terms that are told by their text, under a fixity table. -/
inductive Canonical (table : FixityTable) : Term → Prop
  | word {text : String} {span : Option Span} (name : IsIdentifier text) :
      Canonical table (.ref (.ofText text) span)
  | operator {text : String} {span : Option Span}
      (name : IsFreeOperator text) :
      Canonical table (.ref (.ofText text) span)
  | hole {span : Option Span} : Canonical table (.hole span)
  | set {span : Option Span} : Canonical table (.set span)
  | quote {body : Term} {span : Option Span}
      (inner : Canonical table body) : Canonical table (.quote body span)
  | lam {text : String} {type body : Term} {span : Option Span}
      (name : IsIdentifier text) (domain : Canonical table type)
      (inner : Canonical table body) :
      Canonical table (.lam (.ofText text) type body span)
  | pi {plicity : Plicity} {text : String} {type body : Term}
      {span : Option Span} (name : IsIdentifier text)
      (domain : Canonical table type) (inner : Canonical table body) :
      Canonical table (.pi plicity (.ofText text) type body span)
  | arrow {type body : Term} {span : Option Span}
      (domain : Canonical table type) (inner : Canonical table body) :
      Canonical table (.pi .explicit arrowBinder type body span)
  | joined {symbol : String} {x y : Term} {head span : Option Span}
      (known : symbol = "=" ∨ ∃ e ∈ table, e.symbol = symbol)
      (left : Canonical table x) (right : Canonical table y) :
      Canonical table (.app (.ref (.ofText symbol) head) [] [x, y] span)
  | app {fn : Term} {implicits : List (Name × Term)} {args : List Term}
      {span : Option Span}
      (shown : infixOperator? fn implicits args = none)
      (apart : fn.precedence ≠ .application) (some_arg : args ≠ [])
      (names : ∀ a ∈ implicits, ∃ text, a.1 = .ofText text
        ∧ IsIdentifier text)
      (head : Canonical table fn)
      (values : ∀ a ∈ implicits, Canonical table a.2)
      (each : ∀ a ∈ args, Canonical table a) :
      Canonical table (.app fn implicits args span)

-- ========================================================== lexemes

/-- The lexemes of a term in a place that asks for at least the given
precedence. -/
def enclosed (least : Precedence) (t : Term) (ls : List Lexeme) :
    List Lexeme :=
  if t.precedence.rank < least.rank then
    .ofMark .lparen :: ls ++ [.ofMark .rparen]
  else ls

/-- The lexemes of a name where a term can stand. -/
def nameLexemes (name : Name) : List Lexeme :=
  if name.isOperator then
    [.ofMark .lparen, .operator name.toString, .ofMark .rparen]
  else [.ident name.toString]

/-- The lexemes that bind the variable of a function type. -/
def domainLexemes (plicity : Plicity) (binder : Name) (type : Term)
    (ls : List Lexeme) : List Lexeme :=
  match plicity, binder with
  | .explicit, .machine _ _ => enclosed .operator type ls
  | .explicit, _ =>
    [.ofMark .lparen, .ident binder.toString, .operator ":"] ++ ls
      ++ [.ofMark .rparen]
  | .implicit, _ =>
    [.ofMark .lbrace, .ident binder.toString, .operator ":"] ++ ls
      ++ [.ofMark .rbrace]

/-- The lexemes of the type of a lambda's variable. -/
def ascriptionLexemes (type : Term) (ls : List Lexeme) : List Lexeme :=
  match type with
  | .hole _ => []
  | _ => .operator ":" :: ls

mutual

/-- The lexemes of a term's text. -/
def lexemes : Term → List Lexeme
  | .ref name _ => nameLexemes name
  | .hole _ => [.ofMark .hole]
  | .set _ => [.reserved "Set"]
  | .quote body _ =>
    .ofMark .quote :: body.lexemes ++ [.ofMark .rbracket]
  | .hidden body _ => .operator "." :: enclosed .atom body body.lexemes
  | .app fn implicits args _ =>
    match infixOperator? fn implicits args with
    | some name =>
      [.operator name.toString].intercalate
        (lexemesAll .application args)
    | none =>
      (enclosed .application fn fn.lexemes
        :: (lexemesNamed implicits ++ lexemesAll .atom args)).flatten
  | .lam binder type body _ =>
    [.operator "\\", .ident binder.toString]
      ++ ascriptionLexemes type type.lexemes
      ++ .operator "=>" :: body.lexemes
  | .pi plicity binder type body _ =>
    domainLexemes plicity binder type type.lexemes
      ++ .operator "->" :: body.lexemes

/-- The lexemes of arguments in places of the given precedence. -/
def lexemesAll (least : Precedence) : List Term → List (List Lexeme)
  | [] => []
  | t :: ts => enclosed least t t.lexemes :: lexemesAll least ts

/-- The lexemes of arguments given by name. -/
def lexemesNamed : List (Name × Term) → List (List Lexeme)
  | [] => []
  | (name, t) :: ts =>
    ([.ofMark .lbrace, .ident name.toString, .operator "="] ++ t.lexemes
      ++ [.ofMark .rbrace]) :: lexemesNamed ts

end

-- =========================================================== places

/-- In front of any text that ends it, the text lexes to the lexemes. -/
def Prints (text : String) (ls : List Lexeme) : Prop :=
  ∀ rest tail, Ends rest → Lexes rest tail →
    Lexes (text.toList ++ rest) (ls ++ tail)

section
variable {text : String} {ls : List Lexeme}

theorem prints_ident (name : IsIdentifier text) :
    Prints text [.ident text] :=
  fun _ _ ends h => h.ident name ends

/-- An operator between two blanks. -/
theorem lexes_spaced {rest : List Char} {tail : List Lexeme}
    (symbol : String) (op : Lone symbol (.operator symbol))
    (h : Lexes rest tail) :
    Lexes (' ' :: (symbol.toList ++ ' ' :: rest))
      (.operator symbol :: tail) :=
  .blank (.operator op (Ends.stops (ends_cons (by simp))) h.blank)

theorem prints_operator (op : Lone text (.operator text)) :
    Prints text [.operator text] :=
  fun _ _ ends h => h.operator op ends.stops

theorem Prints.parens (h : Prints text ls) :
    Prints ("(" ++ text ++ ")")
      (.ofMark .lparen :: ls ++ [.ofMark .rparen]) := by
  intro rest tail ends more
  have closing := h _ _ (ends_cons (by simp))
    (more.mark (c := ')') (m := .rparen) (by decide))
  have opening := closing.mark (c := '(') (m := .lparen) (by decide)
  simpa using opening

theorem Prints.enclosed (h : Prints text ls) (least : Precedence)
    (t : Term) : Prints (enclose least t text) (enclosed least t ls) := by
  unfold enclose Term.enclosed
  by_cases loose : t.precedence.rank < least.rank
  · rw [if_pos loose, if_pos loose]
    exact h.parens
  · rw [if_neg loose, if_neg loose]
    exact h

/-- Texts with blanks between them. -/
theorem prints_blanks {texts : List String} {lss : List (List Lexeme)}
    (h : List.Forall₂ Prints texts lss) (some_text : texts ≠ []) :
    Prints (" ".intercalate texts) lss.flatten := by
  induction h with
  | nil => exact absurd rfl some_text
  | @cons text ls texts lss first more ih =>
      cases texts with
      | nil =>
          cases more
          rw [String.intercalate_singleton, List.flatten_singleton]
          exact first
      | cons text' texts =>
          intro rest tail ends after
          have later := ih (by simp) rest tail ends after
          have all := first _ _ (ends_cons (by simp)) later.blank
          simpa [String.intercalate_cons_cons] using all

theorem Prints.quote (h : Prints text ls) :
    Prints ("![" ++ text ++ "]")
      (.ofMark .quote :: ls ++ [.ofMark .rbracket]) := by
  intro rest tail ends more
  have closing := h _ _ (ends_cons (by simp))
    (more.mark (c := ']') (m := .rbracket) (by decide))
  simpa using closing.quote

/-- A name, an operator and a text. -/
theorem Prints.named {name : String} (h : Prints text ls)
    (word : IsIdentifier name) (symbol : String)
    (op : Lone symbol (.operator symbol)) :
    Prints (name ++ (" " ++ symbol ++ " ") ++ text)
      ([.ident name, .operator symbol] ++ ls) := by
  intro rest tail ends more
  have value := lexes_spaced symbol op (h rest tail ends more)
  have all := value.ident word (ends_cons (by simp))
  simpa using all

/-- The same between braces. -/
theorem Prints.braced {name : String} (h : Prints text ls)
    (word : IsIdentifier name) (symbol : String)
    (op : Lone symbol (.operator symbol)) :
    Prints ("\x7b" ++ (name ++ (" " ++ symbol ++ " ") ++ text) ++ "\x7d")
      ([.ofMark .lbrace, .ident name, .operator symbol] ++ ls
        ++ [.ofMark .rbrace]) := by
  intro rest tail ends more
  have closing := h.named word symbol op _ _ (ends_cons (by simp))
    (more.mark (c := '\x7d') (m := .rbrace) (by decide))
  rw [String.toList_append, String.toList_append, List.append_assoc,
    List.append_assoc] at closing
  have opening := closing.lbrace word
  simpa using opening

/-- The binding of a function type's variable. -/
theorem Prints.domain (h : Prints text ls) (plicity : Plicity)
    {name : String} (word : IsIdentifier name) (type : Term) :
    Prints (printDomain plicity (.ofText name) type text)
      (domainLexemes plicity (.ofText name) type ls) := by
  cases plicity with
  | explicit =>
      have parens := (h.named word ":" (lone_of_reserved (by decide))).parens
      rw [printDomain, domainLexemes, Name.toString_ofText]
      · simpa [String.append_assoc] using parens
      · exact fun _ _ machine => by cases machine
      · exact fun _ _ machine => by cases machine
  | implicit =>
      rw [printDomain, domainLexemes, Name.toString_ofText]
      simpa [String.append_assoc] using
        h.braced word ":" (lone_of_reserved (by decide))

/-- Two texts with an operator between them. -/
theorem Prints.between {text' : String} {ls' : List Lexeme}
    (left : Prints text' ls') (symbol : String)
    (op : Lone symbol (.operator symbol)) (h : Prints text ls) :
    Prints (text' ++ (" " ++ symbol ++ " ") ++ text)
      (ls' ++ .operator symbol :: ls) := by
  intro rest tail ends more
  have inner := lexes_spaced symbol op (h rest tail ends more)
  simpa using left _ _ (ends_cons (by simp)) inner

theorem Prints.pi {domain : String} {ds : List Lexeme}
    (type : Prints domain ds) (h : Prints text ls) :
    Prints (domain ++ " -> " ++ text) (ds ++ .operator "->" :: ls) := by
  have spaced : " " ++ "->" ++ " " = " -> " := by decide
  rw [← spaced]
  exact type.between "->" (lone_of_reserved (by decide)) h

theorem Prints.lam {name domain : String} {ds : List Lexeme} {type : Term}
    (word : IsIdentifier name) (domains : Prints domain ds)
    (h : Prints text ls) :
    Prints ("\\" ++ name ++ printAscription type domain ++ " => " ++ text)
      ([.operator "\\", .ident name] ++ ascriptionLexemes type ds
        ++ .operator "=>" :: ls) := by
  intro rest tail ends more
  have inner := lexes_spaced "=>" (lone_of_reserved (by decide))
    (h rest tail ends more)
  have bound : Lexes
      (name.toList ++ ((printAscription type domain).toList
        ++ (' ' :: ("=>".toList ++ ' ' :: (text.toList ++ rest)))))
      (.ident name :: (ascriptionLexemes type ds
        ++ .operator "=>" :: (ls ++ tail))) := by
    unfold printAscription ascriptionLexemes
    split
    · exact inner.ident word (ends_cons (by simp))
    · have typed := lexes_spaced ":" (lone_of_reserved (by decide))
        (domains _ _ (ends_cons (by simp)) inner)
      simpa using typed.ident word (ends_cons (by simp))
  simpa using bound.backslash word

/-- A reserved word is a word. -/
theorem prints_reserved {word : String}
    (reserved : word ∈ Language.standard.reservedWords) :
    Prints word [.reserved word] := by
  have words : ∀ w ∈ Language.standard.reservedWords,
      (w.toList.head?.any Rules.startClass.contains
        && w.toList.tail.all Rules.letterClass.contains)
        = true := by
    decide
  have spelled := words word reserved
  rw [Bool.and_eq_true, List.all_eq_true] at spelled
  intro rest tail ends h
  cases chars : word.toList with
  | nil => simp [chars] at spelled
  | cons c cs =>
      rw [chars] at spelled
      have lexes := h.word chars (by simpa using spelled.1) spelled.2 ends
      have kept : Language.standard.isReservedWord word = true :=
        List.contains_iff_mem.2 reserved
      rw [kept, chars] at lexes
      exact lexes

/-- Texts with an operator between them. -/
theorem prints_joined {symbol : String} {texts : List String}
    {lss : List (List Lexeme)} (op : Lone symbol (.operator symbol))
    (h : List.Forall₂ Prints texts lss) (some_text : texts ≠ []) :
    Prints ((" " ++ symbol ++ " ").intercalate texts)
      ([Lexeme.operator symbol].intercalate lss) := by
  induction h with
  | nil => exact absurd rfl some_text
  | @cons text ls texts lss first more ih =>
      cases more with
      | nil =>
          rw [String.intercalate_singleton, List.intercalate_singleton]
          exact first
      | cons second others =>
          intro rest tail ends after
          have later := ih (by simp) rest tail ends after
          have all := first _ _ (ends_cons (by simp))
            (lexes_spaced symbol op later)
          simpa [String.intercalate_cons_cons, List.intercalate_cons_cons]
            using all

end

-- ============================================================= text

/-- Arguments that print, each in its place. -/
theorem prints_printAll {least : Precedence} {ts : List Term}
    (h : ∀ t ∈ ts, Prints t.print t.lexemes) :
    List.Forall₂ Prints (printAll least ts) (lexemesAll least ts) := by
  induction ts with
  | nil => exact .nil
  | cons t ts ih =>
      refine .cons ((h t List.mem_cons_self).enclosed least t) (ih ?_)
      exact fun u hu => h u (List.mem_cons_of_mem t hu)

theorem prints_printNamed {implicits : List (Name × Term)}
    (names : ∀ a ∈ implicits, ∃ text, a.1 = .ofText text
      ∧ IsIdentifier text)
    (h : ∀ a ∈ implicits, Prints a.2.print a.2.lexemes) :
    List.Forall₂ Prints (printNamed implicits)
      (lexemesNamed implicits) := by
  induction implicits with
  | nil => exact .nil
  | cons a implicits ih =>
      obtain ⟨name, t⟩ := a
      obtain ⟨text, rfl, word⟩ := names _ List.mem_cons_self
      refine .cons ?_ (ih
        (fun u hu => names u (List.mem_cons_of_mem _ hu))
        (fun u hu => h u (List.mem_cons_of_mem _ hu)))
      have value := (h _ List.mem_cons_self).braced word "="
        (lone_of_reserved (by decide))
      rw [Name.toString_ofText]
      simpa [String.append_assoc] using value

theorem prints_word {text : String} (word : IsIdentifier text) :
    Prints (Name.ofText text).print (nameLexemes (.ofText text)) := by
  rw [Name.print, nameLexemes, word.isOperator, Name.toString_ofText]
  exact prints_ident word

theorem prints_freeOperator {text : String} (op : IsFreeOperator text) :
    Prints (Name.ofText text).print (nameLexemes (.ofText text)) := by
  rw [Name.print, nameLexemes, isOperator_of_lone op.1,
    Name.toString_ofText]
  exact (prints_operator op.1).parens

/-- The text of a canonical term lexes to the term's lexemes. -/
theorem Canonical.prints {table : FixityTable}
    (free : ∀ e ∈ table, IsFreeOperator e.symbol) {t : Term}
    (h : t.Canonical table) : Prints t.print t.lexemes := by
  induction h with
  | word name => exact prints_word name
  | operator name => exact prints_freeOperator name
  | hole =>
      intro rest tail _ more
      have mark := more.mark (c := '_') (m := .hole) (by decide)
      simpa [print, lexemes] using mark
  | set =>
      have reserved : "Set" ∈ Language.standard.reservedWords := by
        decide
      exact prints_reserved reserved
  | quote _ ih => exact ih.quote
  | lam name _ _ domain inner =>
      rw [print, lexemes, Name.toString_ofText]
      exact .lam name domain inner
  | pi name _ _ domain inner =>
      rw [print, lexemes]
      exact (domain.domain _ name _).pi inner
  | arrow _ _ domain inner =>
      rw [print, lexemes]
      exact (domain.enclosed .operator _).pi inner
  | @joined symbol x y head span known _ _ left right =>
      have op : Lone symbol (.operator symbol) := by
        obtain rfl | ⟨e, member, rfl⟩ := known
        · exact lone_of_reserved (by decide)
        · exact (free e member).1
      rw [print, lexemes, infixOperator?, isOperator_of_lone op]
      simp only [if_true, Name.toString_ofText]
      exact prints_joined op (.cons (left.enclosed .application x)
        (.cons (right.enclosed .application y) .nil)) (by simp [printAll])
  | @app fn implicits args span shown apart some_arg names _ _ _ head
      values each =>
      rw [print, lexemes, shown]
      refine prints_blanks (.cons (head.enclosed .application fn) ?_)
        (List.cons_ne_nil _ _)
      exact List.rel_append (prints_printNamed names values)
        (prints_printAll each)

end Term

end DepLang

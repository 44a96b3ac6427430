/-
An expression means the same by itself and inside a module. A text that
spells a term spells it behind a name and an equals sign too, up to a
semicolon on the next line, and the clause that is read there has the
term on its right, completed; behind a name and a colon it spells a
signature with the term as its type, closed and completed. A text that
spells no term makes no module there either. Parentheses around it
change nothing, and a quotation quotes the term.

The text is put in a frame each time (`frames_of_tokenize`): its lexemes
stand between some in front and a mark, for the newline keeps the mark
out of a comment at the end of the text. What is read in the frame is
what is read alone (`Input.Frames.carries`), and a module of one
declaration, of which the first two tokens say what it is, leaves
nothing else to be read (`DeclForm.announces`).
-/
import DepLang.Proofs.Grammar.Framed
import DepLang.Proofs.Implicit.Agree
import DepLang.Proofs.Lexer.Joined
import DepLang.Proofs.Printer.Canonical

namespace DepLang

open DepLang.Grammar DepLang.Parser

-- =========================================================== texts

namespace Lexer

theorem opens_parens : Opens "(" [.ofMark .lparen] :=
  fun _ _ h => h.mark (by decide)

theorem opens_quotation : Opens "![" [.ofMark .quote] :=
  fun _ _ h => h.quote

/-- A word and an operator, with blanks behind both. -/
theorem opens_announcement {name op : String} (word : IsIdentifier name)
    (symbol : Lone op (.operator op)) :
    Opens (name ++ (" " ++ op ++ " ")) [.ident name, .operator op] := by
  intro rest tail h
  have spaced := Term.lexes_spaced op symbol h
  have all := spaced.ident word (ends_cons (by simp))
  simpa using all

end Lexer

open DepLang.Lexer

-- ==================================================== declarations

namespace Grammar

variable {inp : Input} {r r' : Registry} {i j k : Nat} {t : Term}
  {x : String} {d : Decl}

/-- What an expression behind a name can be announced as. -/
inductive Announcement where
  | clause
  | signature

namespace Announcement

/-- The operator that announces it. -/
def operator : Announcement → String
  | .clause => "="
  | .signature => ":"

/-- What is declared, a clause without arguments or a signature, and the
registry behind it. -/
def declares (r : Registry) (x : Name) (t : Term) :
    Announcement → Decl × Registry
  | .clause =>
    (.clauses Decl.ungrouped [⟨x, .app (.ref x none) [] [] none, t⟩], r)
  | .signature => (.signature x (r.generalise t).1, r.declare x t)

theorem ne_dot (a : Announcement) : a.operator ≠ "." := by
  cases a <;> decide

theorem reserved (a : Announcement) :
    Language.standard.isReservedOperator a.operator = true := by
  cases a <;> decide

theorem lone (a : Announcement) :
    Lone a.operator (.operator a.operator) :=
  lone_of_reserved a.reserved

end Announcement

variable {a : Announcement}

theorem declForm_of_announced (head : (inp.tokenAt i).lexeme = .ident x)
    (token : (inp.tokenAt (i + 1)).lexeme = .operator a.operator)
    (h : Reads inp r expr (i + 1 + 1) j t) :
    DeclForm inp r i j (a.declares r (.ofText x) t).1
      (a.declares r (.ofText x) t).2 := by
  have named : NameForm inp i (i + 1) (.ofText x) := .word head rfl
  have body : Reads inp r (announced a.operator) (i + 1) j t :=
    (reads_symbol token).bind h
  cases a with
  | clause =>
      obtain ⟨noNamed, noArgument⟩ :=
        reads_no_arguments (r := r) token (by decide)
      exact .clause (.function named noNamed noArgument body)
  | signature => exact .signature (.intro named body)

/-- A declaration that starts with a word and an announcement is what
the expression behind them declares. -/
theorem DeclForm.announces (standard : inp.language = .standard)
    (head : (inp.tokenAt i).lexeme = .ident x)
    (token : (inp.tokenAt (i + 1)).lexeme = .operator a.operator)
    (h : DeclForm inp r i j d r') :
    ∃ t, Reads inp r expr (i + 1 + 1) j t
      ∧ (d, r') = a.declares r (.ofText x) t := by
  have word : ∀ w, (inp.tokenAt i).lexeme ≠ .reserved w := by
    simp [head]
  have name_word {k : Nat} {y : Name} (named : NameForm inp i k y) :
      y = .ofText x ∧ k = i + 1 := by
    cases named with
    | word token' stop =>
        rw [head] at token'
        cases token'
        exact ⟨rfl, stop⟩
    | operator opening =>
        rw [Token.kind, head] at opening
        cases opening
  have body {op : String} {t : Term}
      (h : Reads inp r (announced op) (i + 1) j t) :
      a.operator = op ∧ Reads inp r expr (i + 1 + 1) j t := by
    obtain ⟨token', inner⟩ := reads_announced_cases h
    rw [token] at token'
    exact ⟨Lexeme.operator.inj token', inner⟩
  cases h with
  | fixity w | dataBySignatures w | dataByArguments w =>
      exact absurd w (word _)
  | signature h =>
      cases h with
      | intro named ascribed =>
          obtain ⟨rfl, rfl⟩ := name_word named
          obtain ⟨same, inner⟩ := body ascribed
          cases a with
          | clause => exact absurd same (by decide)
          | signature => exact ⟨_, inner, rfl⟩
  | clause h =>
      cases h with
      | function named names rest rhs =>
          obtain ⟨rfl, rfl⟩ := name_word named
          obtain ⟨noNamed, noArgument⟩ :=
            reads_no_arguments (r := r) token a.ne_dot
          obtain ⟨rfl, rfl⟩ := names.unique noNamed
          obtain ⟨rfl, rfl⟩ := rest.unique noArgument
          obtain ⟨same, inner⟩ := body rhs
          cases a with
          | clause => exact ⟨_, inner, rfl⟩
          | signature => exact absurd same (by decide)
      | operator first token' free =>
          obtain ⟨-, rfl⟩ := first.unique (reads_atom_ident head)
          rw [token] at token'
          rw [standard, ← Lexeme.operator.inj token', a.reserved] at free
          cases free

/-- A rule and nothing after it. -/
def alone (p : Parser Term) : Parser Term := do
  let t ← p
  eof
  pure t

theorem eof_ok {s u : State} (run : eof inp s = .ok () u) :
    (inp.tokenAt s.cursor).kind = .eof := by
  obtain ⟨ended, v, asked, run⟩ := bind_ok run
  cases asked
  by_contra other
  rw [if_neg (by simpa using other)] at run
  cases run

/-- A module with one semicolon is one declaration. -/
theorem ItemsForm.single {ds : List Decl} (h : ItemsForm inp r i j ds r')
    (some : ds ≠ [])
    (only : ∀ l, (inp.tokenAt l).kind = .mark .semicolon → l = k) :
    ∃ d, DeclForm inp r i k d r' ∧ ds = [d.mapTerms r'.supply] := by
  cases h with
  | nil => exact absurd rfl some
  | cons first semicolon more =>
      obtain rfl := only _ semicolon
      cases more with
      | nil => exact ⟨_, first, rfl⟩
      | cons second semicolon' =>
          have le := second.le
          have same := only _ semicolon'
          omega

end Grammar

namespace Reading

variable {filename text : String} {r : Registry} {items : List Token}
  {ending : Token} {t : Term}

/-- The lexemes of a text between others, the last of them a mark on a
line of its own. -/
theorem frames_of_tokenize {before : String} {front : List Lexeme}
    (scans : tokenize .standard text filename = .ok (items ++ [ending]))
    (opens : Opens before front) (behind : String) (c : Char) (m : Mark)
    (close : behind.toList = ['\n', c]) (single : (c, m) ∈ singleMarks) :
    let whole := before ++ text ++ behind
    ∃ items' span,
      tokenize .standard whole filename = .ok (items' ++ [⟨.eof "", span⟩])
      ∧ (inputOf items' ⟨.eof "", span⟩ .standard filename whole).Frames
          (inputOf items ending .standard filename text) front m := by
  intro whole
  have mark : Lexes [c] [.ofMark m] := Lexes.nil.mark single
  have lexes : Lexes whole.toList
      (front ++ (items.map Token.lexeme ++ [.ofMark m])) := by
    have all := opens _ _ ((lexes_of_tokenize scans).join mark)
    rw [← close] at all
    simpa [whole] using all
  obtain ⟨items', span, scans', same⟩ := tokenize_of_lexes lexes filename
  refine ⟨items', span, scans', rfl, ?_⟩
  simpa [Input.lexemes, Input.ofItems] using same

-- =========================================================== terms

variable (scans : tokenize .standard text filename = .ok (items ++ [ending]))
include scans

theorem ended_of_tokenize : ending.kind = .eof := by
  obtain ⟨items', span, split⟩ := tokenize_ends scans
  obtain ⟨-, last⟩ := List.append_inj' split rfl
  cases last
  rfl

/-- A text that a rule reads and that ends there is read up to its
end. -/
theorem reads_of_alone {p : Parser Term} (runs : RunsAlike p)
    (plain : Plain p)
    (read : (ofText (alone p) .standard filename text r).outcome = .ok t) :
    Reads (inputOf items ending .standard filename text) r p 0
      (inputOf items ending .standard filename text).tokens.size t := by
  have ended := ended_of_tokenize scans
  rw [ofText_eq scans ended] at read
  cases run : alone p (inputOf items ending .standard filename text)
      { registry := r } with
  | ok t' u =>
      rw [run] at read
      cases read
      obtain ⟨t', k, v, found, ⟨rfl, -⟩, run⟩ := plain.step ⟨rfl, rfl⟩ run
      obtain ⟨_, w, last, run⟩ := bind_ok run
      cases run
      have le := runs.le_size found (Nat.zero_le _)
      have all := Input.length_le_of_eof (kind_of_mem_tokenize scans)
        (eof_ok last)
      have size : (inputOf items ending .standard filename text).tokens.size
          = items.length := by simp [Input.ofItems]
      rw [size] at le ⊢
      rwa [Nat.le_antisymm le all] at found
  | error | defect =>
      rw [run] at read
      cases read

/-- A text that spells a term is an expression up to its end. -/
theorem reads_of_readTerm
    (read : (readTerm .standard filename text r).outcome = .ok t) :
    Reads (inputOf items ending .standard filename text) r expr 0
      (inputOf items ending .standard filename text).tokens.size t :=
  reads_of_alone scans expr_runsAlike plain_expr read

theorem readTerm_of_reads
    (h : Reads (inputOf items ending .standard filename text) r expr 0
      (inputOf items ending .standard filename text).tokens.size t) :
    (readTerm .standard filename text r).outcome = .ok t := by
  refine outcome_of_reads scans (ended_of_tokenize scans)
    (reads_wholeExpr h ?_)
  rw [Input.tokenAt_of_size_le (Nat.le_refl _)]
  rfl

section
variable (free : ∀ e ∈ r.fixities,
  Language.standard.isReservedOperator e.symbol = false)
include free

/-- A text that is an atom up to its end spells it. -/
theorem readTerm_of_atom
    (h : Reads (inputOf items ending .standard filename text) r
      (atom expr) 0
      (inputOf items ending .standard filename text).tokens.size t) :
    (readTerm .standard filename text r).outcome = .ok t := by
  have stops : Stops r.fixities .binder
      ((inputOf items ending .standard filename text).tokenAt
        (inputOf items ending .standard filename text).tokens.size).lexeme := by
    rw [Input.tokenAt_of_size_le (Nat.le_refl _)]
    exact stops_of_closing free rfl
  have atom : Takes (inputOf items ending .standard filename text) r .atom
      0 _ t := ⟨lt_of_reads_atom h, h⟩
  exact readTerm_of_reads scans
    ((atom.loosen (by decide) stops).reads_expr stops).2

/-- Parentheses change nothing. -/
theorem readTerm_parens
    (read : (readTerm .standard filename text r).outcome = .ok t) :
    ∃ u, (readTerm .standard filename ("(" ++ text ++ "\n)") r).outcome
        = .ok u ∧ u.erase = t.erase := by
  obtain ⟨items', span, scans', frames⟩ :=
    frames_of_tokenize scans opens_parens "\n)" ')' .rparen rfl (by decide)
  obtain ⟨u, agree, found⟩ :=
    frames.carries rfl free rfl (reads_of_readTerm scans read)
  have lambda : Language.standard.isReservedOperator "\\" = true := by
    decide
  have atom := reads_atom_parens
    (kind_of_mark (frames.ahead (i := 0) rfl))
    (not_free_of_reads found lambda) found frames.kind_behind
  rw [← frames.size] at atom
  exact ⟨u, readTerm_of_atom scans' free atom, agree⟩

/-- A quotation quotes the term. -/
theorem readTerm_quotation
    (read : (readTerm .standard filename text r).outcome = .ok t) :
    ∃ u, (readTerm .standard filename ("![" ++ text ++ "\n]") r).outcome
        = .ok u ∧ u.erase = (Term.quote t none).erase := by
  obtain ⟨items', span, scans', frames⟩ :=
    frames_of_tokenize scans opens_quotation "\n]" ']' .rbracket rfl
      (by decide)
  obtain ⟨u, agree, found⟩ :=
    frames.carries rfl free rfl (reads_of_readTerm scans read)
  have atom := reads_atom_quote
    (kind_of_mark (frames.ahead (i := 0) rfl)) found frames.kind_behind
  rw [← frames.size] at atom
  refine ⟨_, readTerm_of_atom scans' free atom, ?_⟩
  rw [Term.erase, agree, Term.erase]

end

-- ========================================================= modules

section
variable {name : String} (word : IsIdentifier name) (a : Announcement)
include word

/-- The text between a word with an announcement and a semicolon. -/
theorem frames_of_announcement :
    let whole := name ++ (" " ++ a.operator ++ " ") ++ text ++ "\n;"
    ∃ items' span,
      tokenize .standard whole filename = .ok (items' ++ [⟨.eof "", span⟩])
      ∧ (inputOf items' ⟨.eof "", span⟩ .standard filename whole).Frames
          (inputOf items ending .standard filename text)
          [.ident name, .operator a.operator] .semicolon :=
  frames_of_tokenize scans (opens_announcement word a.lone) "\n;" ';'
    .semicolon rfl (by decide)

variable (free : ∀ e ∈ r.fixities,
  Language.standard.isReservedOperator e.symbol = false)
include free

/-- A term makes a module of one declaration. -/
theorem readModule_of_readTerm
    (read : (readTerm .standard filename text r).outcome = .ok t) :
    ∃ u : Term, u.erase = t.erase
      ∧ (readModule .standard filename
          (name ++ (" " ++ a.operator ++ " ") ++ text ++ "\n;") r).outcome
        = .ok (Decl.group [(a.declares r (.ofText name) u).1.mapTerms
            (a.declares r (.ofText name) u).2.supply]) := by
  obtain ⟨items', span, scans', frames⟩ :=
    frames_of_announcement scans word a
  obtain ⟨u, agree, found⟩ :=
    frames.carries rfl free rfl (reads_of_readTerm scans read)
  have form := declForm_of_announced (frames.ahead (i := 0) rfl)
    (frames.ahead (i := 1) rfl) found
  have one : ItemsForm _ r 0 _ _ _ :=
    .cons form frames.kind_behind (.nil frames.ended)
  obtain ⟨v, -, run⟩ :=
    one.leads rfl (List.cons_ne_nil _ _) { registry := r } ⟨rfl, rfl⟩
  exact ⟨u, agree, (readModule_of_ok scans' rfl run).1⟩

/-- Only a term makes a module there. -/
theorem readTerm_of_readModule
    (noSemicolon : ∀ token ∈ items, token.kind ≠ .mark .semicolon)
    {decls : List Decl}
    (read : (readModule .standard filename
      (name ++ (" " ++ a.operator ++ " ") ++ text ++ "\n;") r).outcome
        = .ok decls) :
    ∃ t, (readTerm .standard filename text r).outcome = .ok t := by
  obtain ⟨items', span, scans', frames⟩ :=
    frames_of_announcement scans word a
  obtain ⟨items'', span', ds, v, scans'', run, -, -⟩ :=
    items_of_readModule read
  obtain ⟨rfl, last⟩ := List.append_inj'
    (Except.ok.inj (scans'.symm.trans scans'')) rfl
  cases last
  obtain ⟨form, some⟩ := itemsForm_of_moduleItems ⟨rfl, rfl⟩ run
  have framed (i : Nat)
      (inside : i < (inputOf items ending .standard filename
        text).tokens.size) :
      ((inputOf items ending .standard filename text).tokenAt i).kind
        ≠ .mark .semicolon := by
    rw [Input.tokenAt_ofItems, List.getElem?_eq_getElem
      (by simpa [Input.ofItems] using inside)]
    exact noSemicolon _ (List.getElem_mem _)
  obtain ⟨d, declared, -⟩ := form.single some fun l semicolon =>
    frames.only_behind semicolon (by simp) (by simp [Lexeme.kind]) framed
  obtain ⟨t, found, -⟩ := declared.announces rfl
    (frames.ahead (i := 0) rfl) (frames.ahead (i := 1) rfl)
  obtain ⟨u, -, alone⟩ := frames.carries_back rfl free found
  exact ⟨u, readTerm_of_reads scans alone⟩

end

end Reading

/-- An expression means the same by itself and inside a module. Under
operators none of which is reserved, a text without semicolons spells a
term exactly if, behind a name and up to a semicolon on the next line,
it is the right-hand side of a clause, and exactly if it is the type of
a signature there. The clause has the term completed on its right, and
the signature has it closed and then completed by what is declared with
it. In parentheses the text spells the term, and in a quotation the
term quoted. -/
theorem readTerm_in_context (filename text name : String) (r : Registry)
    (free : ∀ e ∈ r.fixities,
      Language.standard.isReservedOperator e.symbol = false)
    (word : IsIdentifier name) (items : List Token) (ending : Token)
    (scans : tokenize .standard text filename = .ok (items ++ [ending]))
    (noSemicolon : ∀ token ∈ items, token.kind ≠ .mark .semicolon) :
    let alone := (readTerm .standard filename text r).outcome
    let clause := (readModule .standard filename
      (name ++ " = " ++ text ++ "\n;") r).outcome
    let signature := (readModule .standard filename
      (name ++ " : " ++ text ++ "\n;") r).outcome
    let x := Name.ofText name
    ((∃ t, alone = .ok t) ↔ ∃ decls, clause = .ok decls)
    ∧ ((∃ t, alone = .ok t) ↔ ∃ decls, signature = .ok decls)
    ∧ ∀ t, alone = .ok t →
      (∃ c : Clause, clause = .ok [.clauses x [c]] ∧ c.head = x
        ∧ c.rhs.erase = (r.supply t).erase)
      ∧ (∃ type, signature = .ok [.signature x type]
        ∧ type.erase = ((r.define x (r.generalise t).2).supply
            (r.generalise t).1).erase)
      ∧ (∃ u, (readTerm .standard filename ("(" ++ text ++ "\n)") r).outcome
          = .ok u ∧ u.erase = t.erase)
      ∧ ∃ u, (readTerm .standard filename ("![" ++ text ++ "\n]") r).outcome
          = .ok u ∧ u.erase = (Term.quote t none).erase := by
  intro alone clause signature x
  have clause_of (t : Term) (read : alone = .ok t) :
      ∃ c : Clause, clause = .ok [.clauses x [c]] ∧ c.head = x
        ∧ c.rhs.erase = (r.supply t).erase := by
    obtain ⟨u, agree, found⟩ :=
      Reading.readModule_of_readTerm scans word .clause free read
    refine ⟨_, found, rfl, ?_⟩
    show (r.supply u).erase = (r.supply t).erase
    rw [Registry.erase_supply, agree, Registry.erase_supply]
  have signature_of (t : Term) (read : alone = .ok t) :
      ∃ type, signature = .ok [.signature x type]
        ∧ type.erase = ((r.define x (r.generalise t).2).supply
            (r.generalise t).1).erase := by
    obtain ⟨u, agree, found⟩ :=
      Reading.readModule_of_readTerm scans word .signature free read
    have agreeing : Term.Agrees False u t := ⟨agree, False.elim⟩
    have closed : (r.generalise u).1.erase = (r.generalise t).1.erase
        ∧ (r.generalise u).2 = (r.generalise t).2 :=
      Prod.mk.inj (Registry.generalise_agrees rfl agreeing).1
    refine ⟨_, found, ?_⟩
    show ((r.define x (r.generalise u).2).supply (r.generalise u).1).erase
      = _
    rw [closed.2, Registry.erase_supply, closed.1, Registry.erase_supply]
  refine ⟨⟨fun ⟨t, read⟩ => ?_, fun ⟨decls, read⟩ => ?_⟩,
    ⟨fun ⟨t, read⟩ => ?_, fun ⟨decls, read⟩ => ?_⟩, fun t read => ?_⟩
  · obtain ⟨c, found, -⟩ := clause_of t read
    exact ⟨_, found⟩
  · exact Reading.readTerm_of_readModule scans word .clause free
      noSemicolon read
  · obtain ⟨type, found, -⟩ := signature_of t read
    exact ⟨_, found⟩
  · exact Reading.readTerm_of_readModule scans word .signature free
      noSemicolon read
  · exact ⟨clause_of t read, signature_of t read,
      Reading.readTerm_parens scans free read,
      Reading.readTerm_quotation scans free read⟩

/-- A sum that ends in a comment, with an argument left out that a
definition is known to have: a term, a clause and a signature. -/
theorem readTerm_in_context_comment :
    let r : Registry :=
      { fixities := [⟨⟨.left, 6⟩, "+"⟩]
        implicits := [(.ofText "g", [.ofText "n"])] }
    let text := "a + g b -- sum"
    let x := Name.ofText "x"
    ∃ t c type, (readTerm .standard "m" text r).outcome = .ok t
      ∧ (readModule .standard "m" ("x" ++ " = " ++ text ++ "\n;") r).outcome
        = .ok [.clauses x [c]]
      ∧ c.rhs.erase = (r.supply t).erase
      ∧ (readModule .standard "m" ("x" ++ " : " ++ text ++ "\n;") r).outcome
        = .ok [.signature x type]
      ∧ type.erase = ((r.define x (r.generalise t).2).supply
          (r.generalise t).1).erase := by
  intro r text x
  let items : List Token :=
    [⟨.ident "a", ⟨0, 1⟩⟩, ⟨.operator "+", ⟨2, 3⟩⟩, ⟨.ident "g", ⟨4, 5⟩⟩,
      ⟨.ident "b", ⟨6, 7⟩⟩]
  have scans : tokenize .standard text "m"
      = .ok (items ++ [⟨.eof "", ⟨14, 14⟩⟩]) := by
    decide +kernel
  have same := readTerm_in_context "m" text "x" r (by decide)
    (by decide +kernel) items _ scans (by decide)
  have accepted : (readTerm .standard "m" text r).outcome.toBool = true := by
    decide +kernel
  cases alone : (readTerm .standard "m" text r).outcome with
  | error stop =>
      rw [alone] at accepted
      cases accepted
  | ok t =>
      obtain ⟨⟨c, clause, -, rhs⟩, ⟨type, signature, closed⟩, -, -⟩ :=
        same.2.2 t alone
      exact ⟨t, c, type, rfl, clause, rhs, signature, closed⟩

end DepLang

/-
The rules of expressions, read backwards: for each rule, what it has read
if it has read anything. Together with the lemmas that say what is read
off which lexemes, this is the grammar as a relation between places of
the input, and proofs about what is read need to look no further.

An expression's own nested expressions start behind its start and end no
later than it does, which is all that an induction on expressions needs
(`reads_expr_induction`). Most properties need no more than what they say
of an operand and of an operation (`reads_operand_induction`), whatever
the levels are and however chains are joined.
-/
import DepLang.Proofs.Grammar.Plain
import DepLang.Proofs.Operators.Exchange
import DepLang.Proofs.Reader.Whole

namespace DepLang.Grammar

open DepLang.Parser

variable {inp : Input} {r : Registry} {i j : Nat} {t : Term}

-- =========================================================== basics

theorem plain_here : Plain here := by
  have alike : Alike True expr expr true true (.upTo True fun _ => ())
      here here := here_alike
  exact ⟨alike.same, quiet_of_stays here_inside⟩

theorem plain_located (start : Nat) (f : Option Span → Term) :
    Plain (located start f) := by
  refine plain_of (Alike.same (located_alike (fun _ => rfl) ?_))
    (located_inside f)
  intro σ τ same
  rw [same trivial]
  exact .refl _

theorem reads_here_cases {start : Nat} (h : Reads inp r here i j start) :
    start = (inp.tokenAt i).span.start ∧ j = i :=
  h.unique reads_here

theorem reads_located_cases {start : Nat} {f : Option Span → Term}
    (h : Reads inp r (located start f) i j t) :
    t = f (some (spanTo inp start i)) ∧ j = i :=
  h.unique (reads_located start f)

theorem plain_identName : Plain identName :=
  ⟨identName_alike, quiet_of_stays identName_inside⟩

theorem reads_identName_cases {x : Name} (h : Reads inp r identName i j x) :
    ∃ text, (inp.tokenAt i).lexeme = .ident text ∧ x = .ofText text
      ∧ j = i + 1 := by
  by_cases word : (inp.tokenAt i).kind = .ident
  · obtain ⟨text, token⟩ := ident_of_kind word
    obtain ⟨rfl, rfl⟩ := h.unique (reads_identName token)
    exact ⟨text, token, rfl, rfl⟩
  · exact absurd (refuses_identName word) h.not_refuses

/-- What a name is written with. -/
inductive NameForm (inp : Input) (i j : Nat) : Name → Prop
  | word {text : String} (token : (inp.tokenAt i).lexeme = .ident text)
      (stop : j = i + 1) : NameForm inp i j (.ofText text)
  | operator {op : String}
      (opening : (inp.tokenAt i).kind = .mark .lparen)
      (token : (inp.tokenAt (i + 1)).lexeme = .operator op)
      (free : inp.language.isReservedOperator op = false)
      (closing : (inp.tokenAt (i + 1 + 1)).kind = .mark .rparen)
      (stop : j = i + 1 + 1 + 1) : NameForm inp i j (.ofText op)

theorem NameForm.lt {x : Name} (h : NameForm inp i j x) : i < j := by
  cases h with
  | word _ stop => omega
  | operator _ _ _ _ stop => omega

theorem plain_name : Plain name :=
  ⟨name_alike, quiet_of_stays name_inside⟩

theorem reads_name_cases {x : Name} (h : Reads inp r name i j x) :
    NameForm inp i j x := by
  have plain : ∀ p ∈ nameAlternatives, Plain p :=
    List.forall_iff_forall_mem.1 ⟨plain_identName,
      operatorName_alike, quiet_of_stays operatorName_inside⟩
  obtain ⟨p, hp, h⟩ := reads_choice_cases plain h
  rcases List.mem_cons.1 hp with rfl | hp
  · obtain ⟨text, token, rfl, stop⟩ := reads_identName_cases h
    exact .word token stop
  · cases List.mem_singleton.1 hp
    obtain ⟨s, t, start, stop, run⟩ := h.run
    obtain ⟨_, _, s₁, opening, at₁, run⟩ := (plain_mark _).step start run
    obtain ⟨op, _, s₂, operator, at₂, run⟩ := plain_operator.step at₁ run
    obtain ⟨_, _, s₃, closing, at₃, run⟩ := (plain_mark _).step at₂ run
    obtain ⟨opens, rfl⟩ := reads_mark_cases opening
    obtain ⟨⟨text, token, same, free⟩, rfl⟩ := reads_operator_cases operator
    obtain ⟨closes, rfl⟩ := reads_mark_cases closing
    obtain ⟨rfl, rfl⟩ := reads_pure_cases at₃ stop run
    rw [same]
    exact .operator opens token free closes rfl

-- ============================================================ atoms

theorem plain_expr : Plain expr := ⟨Alike.nested.same, expr_quiet⟩

theorem plain_atom : Plain (atom expr) :=
  plain_of atom_alike.same atom_inside

/-- Rules of terms read something. -/
theorem lt_of_reads_atom (h : Reads inp r (atom expr) i j t) : i < j :=
  (h.lt atom_alike).1

/-- What an atom is written with. -/
inductive AtomForm (inp : Input) (r : Registry) (i j : Nat) (t : Term) :
    Prop
  | name {x : Name} (named : NameForm inp i j x)
      (shape : t.erase = .ref x none)
  | hole (token : (inp.tokenAt i).kind = .mark .hole) (stop : j = i + 1)
      (shape : t.erase = .hole none)
  | set (token : (inp.tokenAt i).lexeme = .reserved "Set")
      (stop : j = i + 1) (shape : t.erase = .set none)
  | quote {body : Term} {k : Nat}
      (opening : (inp.tokenAt i).kind = .mark .quote)
      (inner : Reads inp r expr (i + 1) k body)
      (closing : (inp.tokenAt k).kind = .mark .rbracket)
      (stop : j = k + 1) (shape : t.erase = .quote body.erase none)
  | parens {k : Nat} (opening : (inp.tokenAt i).kind = .mark .lparen)
      (inner : Reads inp r expr (i + 1) k t)
      (closing : (inp.tokenAt k).kind = .mark .rparen) (stop : j = k + 1)

/-- Asking where the next token starts reads nothing. -/
theorem reads_after_here {α : Type} {f : Nat → Parser α} {a : α}
    (plain : ∀ start, Plain (f start))
    (h : Reads inp r (here >>= f) i j a) :
    Reads inp r (f (inp.tokenAt i).span.start) i j a := by
  obtain ⟨s, t, start, ⟨rfl, -⟩, run⟩ := h.run
  obtain ⟨k, _, s₀, head, at₀, run⟩ := plain_here.step start run
  obtain ⟨rfl, rfl⟩ := reads_here_cases head
  exact ((plain _).reads_at at₀ run).1

theorem plain_choice {α : Type} {ps : List (Parser α)}
    (h : ∀ p ∈ ps, Plain p) : Plain (choice ps) where
  alike := .oneOf (List.forall₂_same.2 fun p hp => (h p hp).alike)
  quiet := by
    intro inp s a t run
    obtain ⟨p, hp, s', -, registry, found⟩ :=
      choice_ok (fun p hp => (h p hp).alike.steady) run
    exact ((h p hp).quiet _ _ _ _ found).trans registry

theorem plain_atomAlternatives (start : Nat) :
    ∀ p ∈ atomAlternatives expr start, Plain p := by
  have same : True → start = start := fun _ => rfl
  exact List.forall_iff_forall_mem.1
    ⟨plain_of (quotation_alike same).same quotation_inside,
      plain_of (reference_alike same).same reference_inside,
      plain_of (hole_alike same).same hole_inside,
      plain_of parenthesized_alike.same parenthesized_inside,
      plain_of (setType_alike same).same setType_inside⟩

theorem reads_atom_cases (h : Reads inp r (atom expr) i j t) :
    AtomForm inp r i j t := by
  have h := reads_after_here
    (fun start => plain_choice (plain_atomAlternatives start)) h
  obtain ⟨p, hp, h⟩ := reads_choice_cases (plain_atomAlternatives _) h
  obtain ⟨s, u, start, stop, run⟩ := h.run
  simp only [atomAlternatives, List.mem_cons, List.not_mem_nil, or_false]
    at hp
  rcases hp with rfl | rfl | rfl | rfl | rfl
  · obtain ⟨_, _, s₁, opening, at₁, run⟩ := (plain_mark _).step start run
    obtain ⟨body, k, s₂, inner, at₂, run⟩ := plain_expr.step at₁ run
    obtain ⟨_, _, s₃, closing, at₃, run⟩ := (plain_mark _).step at₂ run
    obtain ⟨last, -⟩ := (plain_located _ _).reads_at at₃ run
    obtain ⟨opens, rfl⟩ := reads_mark_cases opening
    obtain ⟨closes, rfl⟩ := reads_mark_cases closing
    obtain ⟨rfl, there⟩ := reads_located_cases last
    exact .quote opens inner closes (stop.1.symm.trans there) rfl
  · obtain ⟨x, k, s₁, named, at₁, run⟩ := plain_name.step start run
    obtain ⟨last, -⟩ := (plain_located _ _).reads_at at₁ run
    obtain ⟨rfl, there⟩ := reads_located_cases last
    obtain rfl := stop.1.symm.trans there
    exact .name (reads_name_cases named) rfl
  · obtain ⟨_, _, s₁, read, at₁, run⟩ := (plain_mark _).step start run
    obtain ⟨last, -⟩ := (plain_located _ _).reads_at at₁ run
    obtain ⟨token, rfl⟩ := reads_mark_cases read
    obtain ⟨rfl, there⟩ := reads_located_cases last
    exact .hole token (stop.1.symm.trans there) rfl
  · obtain ⟨_, _, s₁, opening, at₁, run⟩ := (plain_mark _).step start run
    obtain ⟨body, k, s₂, inner, at₂, run⟩ := plain_expr.step at₁ run
    obtain ⟨_, _, s₃, closing, at₃, run⟩ := (plain_mark _).step at₂ run
    obtain ⟨opens, rfl⟩ := reads_mark_cases opening
    obtain ⟨closes, rfl⟩ := reads_mark_cases closing
    obtain ⟨rfl, there⟩ := reads_pure_cases at₃ stop run
    exact .parens opens inner closes there
  · obtain ⟨_, _, s₁, read, at₁, run⟩ := (plain_reserved _).step start run
    obtain ⟨last, -⟩ := (plain_located _ _).reads_at at₁ run
    obtain ⟨token, rfl⟩ := reads_reserved_cases read
    obtain ⟨rfl, there⟩ := reads_located_cases last
    exact .set token (stop.1.symm.trans there) rfl

-- ==================================================== applications

/-- An expression after an operator that announces it: an ascription, a
value, or the right-hand side of a clause. -/
abbrev announced (op : String) : Parser Term := do
  let _ ← symbol op
  expr

theorem plain_announced (op : String) : Plain (announced op) :=
  (plain_symbol op).bind fun _ => plain_expr

theorem reads_announced_cases {op : String}
    (h : Reads inp r (announced op) i j t) :
    (inp.tokenAt i).lexeme = .operator op
      ∧ Reads inp r expr (i + 1) j t := by
  obtain ⟨_, k, opening, inner⟩ :=
    reads_bind_cases (plain_symbol op) (fun _ => plain_expr) h
  obtain ⟨token, rfl⟩ := reads_symbol_cases opening
  exact ⟨token, inner⟩

/-- What an argument given by name is written with. -/
inductive NamedForm (inp : Input) (r : Registry) (i j : Nat) :
    Name × Term → Prop
  | itself {text : String} {t : Term}
      (opening : (inp.tokenAt i).kind = .mark .lbrace)
      (target : (inp.tokenAt (i + 1)).lexeme = .ident text)
      (closing : (inp.tokenAt (i + 1 + 1)).kind = .mark .rbrace)
      (stop : j = i + 1 + 1 + 1)
      (shape : t.erase = .ref (.ofText text) none) :
      NamedForm inp r i j (.ofText text, t)
  | value {text : String} {t : Term} {k : Nat}
      (opening : (inp.tokenAt i).kind = .mark .lbrace)
      (target : (inp.tokenAt (i + 1)).lexeme = .ident text)
      (equals : (inp.tokenAt (i + 1 + 1)).lexeme = .operator "=")
      (inner : Reads inp r expr (i + 1 + 1 + 1) k t)
      (closing : (inp.tokenAt k).kind = .mark .rbrace)
      (stop : j = k + 1) : NamedForm inp r i j (.ofText text, t)

theorem NamedForm.opens {x : Name × Term} (h : NamedForm inp r i j x) :
    (inp.tokenAt i).kind = .mark .lbrace := by
  cases h with
  | itself opening | value opening => exact opening

theorem plain_namedArgument : Plain (namedArgument expr) :=
  plain_of namedArgument_alike.same namedArgument_inside

theorem reads_namedArgument_cases {x : Name × Term}
    (h : Reads inp r (namedArgument expr) i j x) :
    NamedForm inp r i j x := by
  obtain ⟨s, u, start, stop, run⟩ := h.run
  obtain ⟨_, _, s₁, opening, at₁, run⟩ := (plain_mark _).step start run
  obtain ⟨first, _, s₂, head, at₂, run⟩ := plain_here.step at₁ run
  obtain ⟨target, _, s₃, named, at₃, run⟩ := plain_identName.step at₂ run
  obtain ⟨itself, _, s₄, alone, at₄, run⟩ :=
    (plain_located _ _).step at₃ run
  obtain ⟨value, k, s₅, given, at₅, run⟩ :=
    ((plain_announced "=").optional itself).step at₄ run
  obtain ⟨_, _, s₆, closing, at₆, run⟩ := (plain_mark _).step at₅ run
  obtain ⟨opens, rfl⟩ := reads_mark_cases opening
  obtain ⟨-, rfl⟩ := reads_here_cases head
  obtain ⟨text, token, rfl, rfl⟩ := reads_identName_cases named
  obtain ⟨same, rfl⟩ := reads_located_cases alone
  obtain ⟨closes, rfl⟩ := reads_mark_cases closing
  obtain ⟨rfl, there⟩ := reads_pure_cases at₆ stop run
  rcases reads_optional_cases (plain_announced "=") given with
    present | ⟨rfl, rfl⟩
  · obtain ⟨equals, inner⟩ := reads_announced_cases present
    exact .value opens token equals inner closes there
  · exact .itself opens token closes there (by rw [same]; rfl)

-- ======================================================== operands

/-- What a function type that names its argument is written with. -/
structure BinderForm (inp : Input) (r : Registry)
    (opening closing : Mark) (i j : Nat) (text : String)
    (type body : Term) : Prop where
  opens : (inp.tokenAt i).kind = .mark opening
  target : (inp.tokenAt (i + 1)).lexeme = .ident text
  colon : (inp.tokenAt (i + 1 + 1)).lexeme = .operator ":"
  rest : ∃ k, Reads inp r expr (i + 1 + 1 + 1) k type
    ∧ (inp.tokenAt k).kind = .mark closing
    ∧ (inp.tokenAt (k + 1)).lexeme = .operator "->"
    ∧ Reads inp r expr (k + 1 + 1) j body

theorem plain_piBetween {opening closing : Mark} {plicity : Plicity}
    (left : opening ≠ .semicolon) (right : closing ≠ .semicolon)
    (start : Nat) :
    Plain (piBetween expr opening closing plicity start) :=
  plain_of (piBetween_alike fun _ => rfl).same
    (piBetween_inside left right)

theorem reads_piBetween_cases {opening closing : Mark} {plicity : Plicity}
    {start : Nat}
    (h : Reads inp r (piBetween expr opening closing plicity start) i j t) :
    ∃ text type body, BinderForm inp r opening closing i j text type body
      ∧ t.erase = .pi plicity (.ofText text) type.erase body.erase none := by
  obtain ⟨s, u, start, stop, run⟩ := h.run
  obtain ⟨_, _, s₁, opening, at₁, run⟩ := (plain_mark _).step start run
  obtain ⟨target, _, s₂, named, at₂, run⟩ := plain_identName.step at₁ run
  obtain ⟨type, k, s₃, ascribed, at₃, run⟩ :=
    (plain_announced ":").step at₂ run
  obtain ⟨_, _, s₄, closing, at₄, run⟩ := (plain_mark _).step at₃ run
  obtain ⟨_, _, s₅, arrow, at₅, run⟩ := (plain_symbol _).step at₄ run
  obtain ⟨body, l, s₆, inner, at₆, run⟩ := plain_expr.step at₅ run
  obtain ⟨last, -⟩ := (plain_located _ _).reads_at at₆ run
  obtain ⟨opens, rfl⟩ := reads_mark_cases opening
  obtain ⟨text, token, rfl, rfl⟩ := reads_identName_cases named
  obtain ⟨colon, domain⟩ := reads_announced_cases ascribed
  obtain ⟨closes, rfl⟩ := reads_mark_cases closing
  obtain ⟨maps, rfl⟩ := reads_symbol_cases arrow
  obtain ⟨rfl, there⟩ := reads_located_cases last
  obtain rfl := stop.1.symm.trans there
  exact ⟨text, type, body,
    ⟨opens, token, colon, k, domain, closes, maps, inner⟩, rfl⟩

/-- What an operand is written with. -/
inductive OperandForm (inp : Input) (r : Registry) (i j : Nat) (t : Term) :
    Prop
  | atom (h : Reads inp r (atom expr) i j t)
  | app {k l : Nat} {fn : Term} {named : List (Name × Term)}
      {args : List Term} (head : Reads inp r (Grammar.atom expr) i k fn)
      (names : Reads inp r (many (namedArgument expr)) k l named)
      (rest : Reads inp r (many1 (Grammar.atom expr)) l j args)
      (shape : t.erase = .app fn.erase (Term.eraseNamed named)
        (Term.eraseAll args) none)
  | lambda {text : String} {k : Nat} {type body : Term}
      (opening : (inp.tokenAt i).lexeme = .operator "\\")
      (target : (inp.tokenAt (i + 1)).lexeme = .ident text)
      (domain : Reads inp r ((announced ":").optional (.hole none))
        (i + 1 + 1) k type)
      (maps : (inp.tokenAt k).lexeme = .operator "=>")
      (inner : Reads inp r expr (k + 1) j body)
      (shape : t.erase
        = .lam (.ofText text) type.erase body.erase none)
  | explicit {text : String} {type body : Term}
      (binder : BinderForm inp r .lparen .rparen i j text type body)
      (shape : t.erase
        = .pi .explicit (.ofText text) type.erase body.erase none)
  | implicit {text : String} {type body : Term}
      (binder : BinderForm inp r .lbrace .rbrace i j text type body)
      (shape : t.erase
        = .pi .implicit (.ofText text) type.erase body.erase none)

theorem plain_applicationOf (head : Term) (start : Nat) :
    Plain (applicationOf expr head start) :=
  plain_of (applicationOf_alike (.refl head) fun _ => rfl).same
    (applicationOf_inside head)

/-- What an application or an atom alone is read to, spans and all. -/
theorem reads_applicationOrAtom_whole
    (h : Reads inp r (applicationOrAtom expr) i j t) :
    Reads inp r (atom expr) i j t ∨ ∃ k l fn named args,
      Reads inp r (atom expr) i k fn
        ∧ Reads inp r (many (namedArgument expr)) k l named
        ∧ Reads inp r (many1 (atom expr)) l j args
        ∧ t = .app fn named args
          (some (spanTo inp (inp.tokenAt i).span.start j)) := by
  obtain ⟨s, u, start, stop, run⟩ := h.run
  obtain ⟨first, _, s₀, head, at₀, run⟩ := plain_here.step start run
  obtain ⟨fn, k, s₁, atom, at₁, run⟩ := plain_atom.step at₀ run
  obtain ⟨rfl, back⟩ := reads_here_cases head
  obtain rfl := back.symm
  have plain := plain_applicationOf fn (inp.tokenAt i).span.start
  obtain ⟨rest, -⟩ := (plain.optional fn).reads_at at₁ run
  rw [stop.1] at rest
  rcases reads_optional_cases plain rest with h | ⟨rfl, rfl⟩
  · obtain ⟨s, u, start, stop, run⟩ := h.run
    obtain ⟨named, l, s₂, names, at₂, run⟩ :=
      plain_namedArgument.many.step start run
    obtain ⟨args, m, s₃, args_read, at₃, run⟩ :=
      plain_atom.many1.step at₂ run
    obtain ⟨last, -⟩ := (plain_located _ _).reads_at at₃ run
    obtain ⟨rfl, there⟩ := reads_located_cases last
    obtain rfl := stop.1.symm.trans there
    exact .inr ⟨k, l, fn, named, args, atom, names, args_read, rfl⟩
  · exact .inl atom

theorem reads_applicationOrAtom_cases
    (h : Reads inp r (applicationOrAtom expr) i j t) :
    OperandForm inp r i j t := by
  rcases reads_applicationOrAtom_whole h with
    atom | ⟨k, l, fn, named, args, atom, names, rest, rfl⟩
  · exact .atom atom
  · exact .app atom names rest rfl

/-- What a lambda is read to, spans and all. -/
theorem reads_lambda_whole (h : Reads inp r (lambda expr) i j t) :
    ∃ text k type body, (inp.tokenAt i).lexeme = .operator "\\"
      ∧ (inp.tokenAt (i + 1)).lexeme = .ident text
      ∧ Reads inp r ((announced ":").optional (.hole none)) (i + 1 + 1) k
        type
      ∧ (inp.tokenAt k).lexeme = .operator "=>"
      ∧ Reads inp r expr (k + 1) j body
      ∧ t = .lam (.ofText text) type body
        (some (spanTo inp (inp.tokenAt i).span.start j)) := by
  obtain ⟨s, u, start, stop, run⟩ := h.run
  obtain ⟨first, _, s₀, head, at₀, run⟩ := plain_here.step start run
  obtain ⟨_, _, s₁, opening, at₁, run⟩ := (plain_symbol _).step at₀ run
  obtain ⟨target, _, s₂, named, at₂, run⟩ := plain_identName.step at₁ run
  obtain ⟨type, k, s₃, domain, at₃, run⟩ :=
    ((plain_announced ":").optional _).step at₂ run
  obtain ⟨_, _, s₄, arrow, at₄, run⟩ := (plain_symbol _).step at₃ run
  obtain ⟨body, l, s₅, inner, at₅, run⟩ := plain_expr.step at₄ run
  obtain ⟨last, -⟩ := (plain_located _ _).reads_at at₅ run
  obtain ⟨rfl, back⟩ := reads_here_cases head
  obtain rfl := back.symm
  obtain ⟨opens, rfl⟩ := reads_symbol_cases opening
  obtain ⟨text, token, rfl, rfl⟩ := reads_identName_cases named
  obtain ⟨maps, rfl⟩ := reads_symbol_cases arrow
  obtain ⟨rfl, there⟩ := reads_located_cases last
  obtain rfl := stop.1.symm.trans there
  exact ⟨text, k, type, body, opens, token, domain, maps, inner, rfl⟩

theorem reads_lambda_cases (h : Reads inp r (lambda expr) i j t) :
    OperandForm inp r i j t := by
  obtain ⟨text, k, type, body, opens, token, domain, maps, inner, rfl⟩ :=
    reads_lambda_whole h
  exact .lambda opens token domain maps inner rfl

theorem plain_piAlternatives (start : Nat) :
    ∀ p ∈ piAlternatives expr start, Plain p :=
  List.forall_iff_forall_mem.1
    ⟨plain_piBetween (by decide) (by decide) start,
      plain_piBetween (by decide) (by decide) start⟩

/-- A function type that names its argument is read between one of the
two kinds of brackets. -/
theorem reads_piType_alternatives (h : Reads inp r (piType expr) i j t) :
    Reads inp r (piBetween expr .lparen .rparen .explicit
        (inp.tokenAt i).span.start) i j t
      ∨ Reads inp r (piBetween expr .lbrace .rbrace .implicit
        (inp.tokenAt i).span.start) i j t := by
  have h := reads_after_here
    (fun start => plain_choice (plain_piAlternatives start)) h
  obtain ⟨p, hp, h⟩ := reads_choice_cases (plain_piAlternatives _) h
  rcases List.mem_cons.1 hp with rfl | hp
  · exact .inl h
  · cases List.mem_singleton.1 hp
    exact .inr h

theorem reads_piType_cases (h : Reads inp r (piType expr) i j t) :
    OperandForm inp r i j t := by
  rcases reads_piType_alternatives h with h | h
  · obtain ⟨text, type, body, binder, shape⟩ := reads_piBetween_cases h
    exact .explicit binder shape
  · obtain ⟨text, type, body, binder, shape⟩ := reads_piBetween_cases h
    exact .implicit binder shape

theorem plain_operandAlternatives :
    ∀ p ∈ operandAlternatives expr, Plain p :=
  List.forall_iff_forall_mem.1
    ⟨plain_of applicationOrAtom_alike.same applicationOrAtom_inside,
      plain_of lambda_alike.same lambda_inside,
      plain_of piType_alike.same piType_inside⟩

theorem reads_operand_alternatives
    (h : Reads inp r (operand expr) i j t) :
    Reads inp r (applicationOrAtom expr) i j t
      ∨ Reads inp r (lambda expr) i j t
      ∨ Reads inp r (piType expr) i j t := by
  obtain ⟨p, hp, h⟩ := reads_choice_cases plain_operandAlternatives h
  simp only [operandAlternatives, List.mem_cons, List.not_mem_nil, or_false]
    at hp
  rcases hp with rfl | rfl | rfl
  · exact .inl h
  · exact .inr (.inl h)
  · exact .inr (.inr h)

theorem reads_operand_cases (h : Reads inp r (operand expr) i j t) :
    OperandForm inp r i j t := by
  rcases reads_operand_alternatives h with h | h | h
  · exact reads_applicationOrAtom_cases h
  · exact reads_lambda_cases h
  · exact reads_piType_cases h

-- ========================================================== chains

section
variable {level : Level} {P : Nat → Nat → Term → Prop}

/-- The operators that a chain has gone on with, each with its operand,
up to where the level offers no more. -/
inductive Links (inp : Input) (level : Level) (assoc : Assoc)
    (P : Nat → Nat → Term → Prop) : Nat → Nat → List (Operator × Term) → Prop
  | nil {i : Nat} (idle : level.operator? (inp.tokenAt i).lexeme = none) :
      Links inp level assoc P i i []
  | cons {i j k : Nat} {op : Operator} {y : Term}
      {rest : List (Operator × Term)}
      (token : level.operator? (inp.tokenAt i).lexeme = some op)
      (goes : continues assoc op = true) (operand : P (i + 1) k y)
      (more : Links inp level assoc P k j rest) :
      Links inp level assoc P i j ((op, y) :: rest)

/-- What a chain is written with: an operand alone, or operands with
operators between them, of which the first sets the side. -/
inductive ChainForm (inp : Input) (level : Level)
    (P : Nat → Nat → Term → Prop) (i j : Nat) (t : Term) : Prop
  | single (operand : P i j t)
      (idle : level.operator? (inp.tokenAt j).lexeme = none)
  | many {k l : Nat} {op : Operator} {x y : Term}
      {rest : List (Operator × Term)} (first : P i k x)
      (token : level.operator? (inp.tokenAt k).lexeme = some op)
      (second : P (k + 1) l y) (more : Links inp level op.assoc P l j rest)
      (shape : t = joinChain op.assoc x ((op, y) :: rest))

/-- Only operators are offered. -/
theorem operator_of_offered {op : Operator}
    (h : level.operator? (inp.tokenAt i).lexeme = some op) :
    (inp.tokenAt i).kind = .operator := by
  unfold Level.operator? at h
  split at h
  next symbol token =>
    rw [Token.kind, token]
    rfl
  · cases h

/-- An operator that is offered is passed. -/
theorem at_past_offered {s : State} (start : At i r s) {op : Operator}
    (token : offered level inp s = some op) :
    level.operator? (inp.tokenAt i).lexeme = some op
      ∧ At (i + 1) r (past inp s) := by
  unfold offered at token
  rw [start.1] at token
  refine ⟨token, at_past start ?_⟩
  rw [operator_of_offered token]
  simp

variable {p : Parser Term}

theorem links_of_loop (plain : Plain p) {assoc : Assoc}
    {rest : List (Operator × Term)} {s u : State} (start : At i r s)
    (run : loop (chainStep level assoc p) inp s = .ok rest u) :
    Links inp level assoc (Reads inp r p) i u.cursor rest := by
  replace run := rounds_of_loop run
  induction run generalizing i with
  | none step =>
      rw [chainStep_apply] at step
      split at step
      next none =>
        cases step
        obtain ⟨rfl, -⟩ := start
        exact .nil none
      · split at step
        · split at step <;> cases step
        · cases step
  | last step stuck =>
      exact absurd (remaining_lt_of_chainStep plain.alike.steady step) stuck
  | more step _ _ ih =>
      rw [chainStep_apply] at step
      split at step
      · cases step
      next op found =>
        obtain ⟨token, after⟩ := at_past_offered start found
        split at step
        next goes =>
          split at step
          next y v' operand =>
            cases step
            obtain ⟨reads, at_v⟩ := plain.reads_at after operand
            exact .cons token goes reads (ih at_v)
          · cases step
          · cases step
        · cases step

theorem reads_chain_cases (plain : Plain p)
    (h : Reads inp r (chain level p) i j t) :
    ChainForm inp level (Reads inp r p) i j t := by
  obtain ⟨s, u, start, ⟨rfl, -⟩, run⟩ := h.run
  rw [chain_apply] at run
  split at run
  next x v first =>
    obtain ⟨first, at_v⟩ := plain.reads_at start first
    split at run
    next none =>
      cases run
      exact .single first none
    next op found =>
      obtain ⟨token, after⟩ := at_past_offered at_v found
      split at run
      next y w second =>
        obtain ⟨second, at_w⟩ := plain.reads_at after second
        split at run
        next rest z looped =>
          cases run
          exact .many first token second (links_of_loop plain at_w looped)
            rfl
        · cases run
        · cases run
      · cases run
      · cases run
  · cases run
  · cases run

theorem Links.le (bounds : ∀ k l y, P k l y → k ≤ l) {assoc : Assoc}
    {rest : List (Operator × Term)} (h : Links inp level assoc P i j rest) :
    i ≤ j := by
  induction h with
  | nil => exact Nat.le_refl _
  | cons _ _ operand _ ih =>
      have := bounds _ _ _ operand
      omega

theorem reads_loop_of_links (bounds : ∀ k l y, Reads inp r p k l y → k ≤ l)
    {assoc : Assoc} {rest : List (Operator × Term)}
    (h : Links inp level assoc (Reads inp r p) i j rest) :
    Reads inp r (loop (chainStep level assoc p)) i j rest := by
  induction h with
  | @nil i idle =>
      exact reads_loop_nil ((reads_peekOperator idle).bind (reads_pure none))
  | @cons i j k op y rest token goes operand _ ih =>
      have inside : (inp.tokenAt i).kind ≠ .eof := by
        simp [operator_of_offered token]
      have := bounds _ _ _ operand
      refine reads_loop_cons inside (by omega) ?_ ih
      refine (reads_peekOperator token).bind ?_
      simp only [goes, if_true]
      exact (reads_advance inside).bind (operand.bind (reads_pure _))

/-- What has the form of a chain is read as one. -/
theorem ChainForm.reads (bounds : ∀ k l y, Reads inp r p k l y → k ≤ l)
    (h : ChainForm inp level (Reads inp r p) i j t) :
    Reads inp r (chain level p) i j t := by
  cases h with
  | single operand idle =>
      exact operand.bind ((reads_peekOperator idle).bind (reads_pure t))
  | @many k l op x y rest first token second more shape =>
      have inside : (inp.tokenAt k).kind ≠ .eof := by
        simp [operator_of_offered token]
      rw [shape]
      refine first.bind ((reads_peekOperator token).bind ?_)
      exact (reads_advance inside).bind <| second.bind <|
        (reads_loop_of_links bounds more).bind (reads_pure _)

/-- What holds of two operands holds of the operation that the level's
operator between them makes. -/
def JoinKeeps (inp : Input) (level : Level) (Q : Nat → Nat → Term → Prop) :
    Prop :=
  ∀ i k j op x y, i < k → k + 1 < j →
    level.operator? (inp.tokenAt k).lexeme = some op →
    Q i k x → Q (k + 1) j y → Q i j (op.build x y)

variable {Q : Nat → Nat → Term → Prop}

section
variable {k : Nat} {assoc : Assoc} {rest : List (Operator × Term)}
  (bounds : ∀ k l y, P k l y → k < l) (each : ∀ k l y, P k l y → Q k l y)
  (joins : JoinKeeps inp level Q)
include bounds each joins

/-- Operands joined from the left: what is joined so far grows. -/
theorem Links.joinedLeft (h : Links inp level assoc P k j rest) (lt : i < k)
    (first : Q i k t) : Q i j (joinLeft t rest) := by
  induction h generalizing t with
  | nil => exact first
  | @cons k j l op y rest token goes operand more ih =>
      have less := bounds _ _ _ operand
      exact ih (by omega) <|
        joins i k l op t y lt less token first (each _ _ _ operand)

/-- Operands joined from the right: each goes in front of what is joined
behind it. -/
theorem Links.joinedRight (h : Links inp level assoc P k j rest)
    (lt : i < k) (first : Q i k t) : Q i j (joinRight t rest) := by
  induction h generalizing i t with
  | nil => exact first
  | @cons k j l op y rest token goes operand more ih =>
      have less := bounds _ _ _ operand
      have le := more.le fun k l y h => Nat.le_of_lt (bounds k l y h)
      have behind := ih less (each _ _ _ operand)
      exact joins i k j op t (joinRight y rest) lt (by omega) token first
        behind

/-- The operator that sets the side joins its two operands, or goes in
front of what its second operand begins. -/
theorem ChainForm.joined (h : ChainForm inp level P i j t) : Q i j t := by
  cases h with
  | single operand => exact each i j t operand
  | @many k l op x y rest first token second more shape =>
      have less := bounds _ _ _ first
      have less' := bounds _ _ _ second
      have le := more.le fun k l y h => Nat.le_of_lt (bounds k l y h)
      have first := each i k x first
      have second := each (k + 1) l y second
      rw [shape, joinChain.eq_def]
      cases op.assoc with
      | right =>
          have behind := more.joinedRight bounds each joins less' second
          exact joins i k j op x _ less (by omega) token first behind
      | left | neither =>
          have joined := joins i k l op x y less less' token first second
          show Q i j (joinLeft (op.build x y) rest)
          exact more.joinedLeft bounds each joins (by omega) joined

end

end

theorem plain_chains (levels : List Level) :
    Plain (chains (operand expr) levels) :=
  plain_of (chains_alike levels operand_alike).same
    (chains_inside levels operand_inside)

/-- No expression of the levels ends before an operator of one. -/
theorem idle_of_reads_chains {levels : List Level}
    (h : Reads inp r (chains (operand expr) levels) i j t) :
    ∀ level ∈ levels, level.operator? (inp.tokenAt j).lexeme = none := by
  obtain ⟨s, u, -, ⟨rfl, -⟩, run⟩ := h.run
  exact chains_ok (fun levels => (plain_chains levels).alike.steady) run

/-- What holds of operands and of the operations that the levels make of
them holds of all that is read at the levels. -/
theorem reads_chains_induction {Q : Nat → Nat → Term → Prop}
    {levels : List Level}
    (each : ∀ i j t, Reads inp r (operand expr) i j t → Q i j t)
    (joins : ∀ level ∈ levels, JoinKeeps inp level Q)
    (h : Reads inp r (chains (operand expr) levels) i j t) : Q i j t := by
  induction levels generalizing i j t with
  | nil => exact each i j t h
  | cons level tighter ih =>
      rw [List.forall_mem_cons] at joins
      have chain := reads_chain_cases (plain_chains tighter) h
      exact chain.joined
        (fun _ _ _ h => (h.lt (chains_alike tighter operand_alike)).1)
        (fun _ _ _ => ih joins.2) joins.1

-- ===================================================== expressions

theorem chains_of_reads_expr (h : Reads inp r expr i j t) :
    Reads inp r (chains (operand expr) r.fixities.levels.reverse) i j t := by
  intro s start
  obtain ⟨u, stop, run⟩ := h s start
  rw [expr_eq_exprOver] at run
  unfold exprOver at run
  rw [start.2] at run
  exact ⟨u, stop, run⟩

/-- Expressions read something. -/
theorem lt_of_reads_expr (h : Reads inp r expr i j t) : i < j :=
  ((chains_of_reads_expr h).lt (chains_alike _ operand_alike)).1

/-- What holds of an expression if it holds of all expressions that
start behind its start and end no later holds of all expressions. -/
theorem reads_expr_induction {Q : Nat → Nat → Term → Prop}
    (step : ∀ i j t,
      (∀ i' j' t', i < i' → j' ≤ j → Reads inp r expr i' j' t' →
        Q i' j' t') →
      Reads inp r expr i j t → Q i j t)
    (h : Reads inp r expr i j t) : Q i j t := by
  induction n : j - i using Nat.strong_induction_on generalizing i j t with
  | _ n ih =>
      refine step i j t (fun i' j' t' later sooner inner => ?_) h
      have less := lt_of_reads_expr inner
      exact ih (j' - i') (by omega) inner rfl

/-- What holds of an operand if it holds of the expressions inside, and
of the operations that are made of operands, holds of all expressions. -/
theorem reads_operand_induction {Q : Nat → Nat → Term → Prop}
    (operand : ∀ i j t,
      (∀ i' j' t', i < i' → j' ≤ j → Reads inp r expr i' j' t' →
        Q i' j' t') →
      Reads inp r (operand expr) i j t → Q i j t)
    (joins : ∀ level ∈ r.fixities.levels.reverse, JoinKeeps inp level Q)
    (h : Reads inp r expr i j t) : Q i j t := by
  refine reads_expr_induction (fun i j t nested h => ?_) h
  -- the operands of this expression lie between its own ends, where the
  -- hypothesis on nested expressions reaches
  refine reads_chains_induction
    (Q := fun k l y => i ≤ k → l ≤ j → Q k l y) ?_ ?_
    (chains_of_reads_expr h) (Nat.le_refl i) (Nat.le_refl j)
  · intro k l y read from_i to_j
    refine operand k l y (fun i' j' t' later sooner => ?_) read
    exact nested i' j' t' (by omega) (by omega)
  · intro level member a k b op x y less less' token first second from_i to_j
    exact joins level member a k b op x y less less' token
      (first from_i (by omega)) (second (by omega) to_j)

end DepLang.Grammar

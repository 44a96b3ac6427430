/-
Every choice of the grammar is decided by what can be seen. Of any two
alternatives one refuses to start, and a few tokens tell which. Most
often it is the first token. Where two alternatives share a beginning,
what they share is read to the same place by both, and the token there
decides: after a name, a colon makes a signature and an equals sign, an
argument or an argument by name makes a clause; a clause whose name is
followed by a free operator is one with that operator between its
arguments.

Two pairs share parentheses. A free operator right after an opening one
makes a name, since no expression starts with it. An identifier and a
colon after it make a function type, since the identifier alone would be
the whole expression in parentheses: no level has a colon for an
operator, as long as no reserved operator is in the table.

So no two alternatives succeed from one state, and their order makes no
difference (`alternatives_unordered`).
-/
import DepLang.Proofs.Grammar.Forms
import DepLang.Proofs.Grammar.Unordered
import DepLang.Proofs.Operators.Simple

namespace DepLang

open DepLang.Parser

-- ======================================================= apartness

namespace Parser

variable {α : Type} {inp : Input} {r : Registry} {i : Nat}
  {p q : Parser α}

/-- One of the two parsers refuses to start at the cursor. -/
def Apart (inp : Input) (r : Registry) (i : Nat) (p q : Parser α) :
    Prop :=
  Refuses inp r p i ∨ Refuses inp r q i

/-- Parsers that are told apart by a condition. -/
theorem apart_of (told : Prop) (left : ¬told → Refuses inp r p i)
    (right : told → Refuses inp r q i) : Apart inp r i p q := by
  by_cases h : told
  · exact .inr (right h)
  · exact .inl (left h)

theorem Refuses.not_succeeds {s : State}
    (h : Refuses inp s.registry p s.cursor) : ¬Succeeds inp s p := by
  rintro ⟨a, t, run⟩
  obtain ⟨e, u, -, fails⟩ := h s ⟨rfl, rfl⟩
  rw [run] at fails
  cases fails

theorem exclusive_of_apart {ps : List (Parser α)} {s : State}
    (h : ps.Pairwise (Apart inp s.registry s.cursor)) :
    Exclusive inp s ps := by
  refine h.imp fun apart both => ?_
  rcases apart with refuses | refuses
  · exact refuses.not_succeeds both.1
  · exact refuses.not_succeeds both.2

end Parser

namespace Grammar

variable {inp : Input} {r : Registry} {e : Parser Term} {i j : Nat}

-- =================================================== first lexemes

/-- The parser only starts at a lexeme of the given sort. -/
def Starts {α : Type} (inp : Input) (r : Registry) (i : Nat)
    (sort : Lexeme → Prop) (p : Parser α) : Prop :=
  ¬sort (inp.tokenAt i).lexeme → Refuses inp r p i

section
variable {α β : Type} {p : Parser α} {q : Parser β}
  {sort sort' : Lexeme → Prop}

theorem Starts.bind {f : α → Parser β} (h : Starts inp r i sort p) :
    Starts inp r i sort (p >>= f) :=
  fun other => (h other).bind

/-- Asking where the next token starts reads nothing. -/
theorem Starts.after_here {f : Nat → Parser β}
    (h : ∀ start, Starts inp r i sort (f start)) :
    Starts inp r i sort (here >>= f) :=
  fun other => reads_here.bind_refuses (h _ other)

theorem Starts.mono (h : Starts inp r i sort p)
    (more : ∀ l, sort l → sort' l) : Starts inp r i sort' p :=
  fun other => h fun fits => other (more _ fits)

/-- Two alternatives start where the choice of them starts. -/
theorem Starts.either {p p' : Parser α} (h : Starts inp r i sort p)
    (h' : Starts inp r i sort p') :
    Starts inp r i sort (choice [p, p']) := by
  intro other
  apply refuses_choice
  intro q hq
  rcases List.mem_cons.1 hq with rfl | hq
  · exact h other
  · rw [List.mem_singleton.1 hq]
    exact h' other

/-- Lexemes of different sorts tell parsers apart. -/
theorem Starts.apart {p q : Parser α} (hp : Starts inp r i sort p)
    (hq : Starts inp r i sort' q) (differ : ∀ l, sort l → ¬sort' l) :
    Apart inp r i p q :=
  apart_of (sort (inp.tokenAt i).lexeme) hp fun told => hq (differ _ told)

end

theorem starts_expect (kind : TokenKind) :
    Starts inp r i (fun l => l.kind = kind) (expect kind) :=
  refuses_expect

theorem starts_symbol (op : String) :
    Starts inp r i (fun l => l = .operator op) (symbol op) :=
  refuses_symbol

theorem starts_reserved (word : String) :
    Starts inp r i (fun l => l = .reserved word) (reserved word) :=
  refuses_reserved

theorem starts_atom :
    Starts inp r i (fun l => startsAtom l = true) (atom e) :=
  fun other => refuses_atom (Bool.eq_false_iff.2 other)

theorem starts_name :
    Starts inp r i (fun l => l.kind = .ident ∨ l.kind = .mark .lparen)
      name :=
  fun other => refuses_name (fun h => other (.inl h))
    fun h => other (.inr h)

/-- What starts a name starts an atom. -/
theorem starts_name_atom :
    Starts inp r i (fun l => startsAtom l = true) name := by
  apply starts_name.mono
  rintro l (word | opening)
  · exact startsAtom_of_kind (by simp) word
  · exact startsAtom_of_kind (by simp) opening

-- ============================================== shared beginnings

/-- A name is an identifier or a free operator in parentheses, and then
an atom that ends where the name does; anything else refuses. -/
theorem name_cases (inp : Input) (r : Registry) (e : Parser Term)
    (i : Nat) :
    (∃ j x t, Reads inp r name i j x ∧ Reads inp r (atom e) i j t)
      ∨ Refuses inp r name i := by
  by_cases word : (inp.tokenAt i).kind = .ident
  · obtain ⟨text, token⟩ := ident_of_kind word
    exact .inl ⟨i + 1, _, _, (reads_identName token).choice,
      reads_atom_ident token⟩
  by_cases opening : (inp.tokenAt i).kind = .mark .lparen
  · by_cases named : ∃ op, (inp.tokenAt (i + 1)).lexeme = .operator op
        ∧ inp.language.isReservedOperator op = false
    · obtain ⟨op, token, free⟩ := named
      by_cases closing : (inp.tokenAt (i + 1 + 1)).kind = .mark .rparen
      · exact .inl ⟨i + 1 + 1 + 1, _, _,
          reads_name_operator opening token free closing,
          reads_atom_operator opening token free closing⟩
      · have unclosed : Refuses inp r operatorName i :=
          (reads_mark opening).bind_refuses <|
            (reads_operator token free).bind_refuses
              (refuses_expect closing).bind
        exact .inr ((starts_expect .ident).bind.either
          (fun _ => unclosed) word)
    · have unnamed : Refuses inp r operatorName i := by
        refine (reads_mark opening).bind_refuses (refuses_operator ?_).bind
        cases l : (inp.tokenAt (i + 1)).lexeme with
        | operator op =>
            cases kept : inp.language.isReservedOperator op with
            | true => rw [isFreeOperator, kept]; rfl
            | false => exact absurd ⟨op, l, kept⟩ named
        | _ => rfl
      exact .inr ((starts_expect .ident).bind.either
        (fun _ => unnamed) word)
  · exact .inr (refuses_name word opening)

-- ============================================================ atoms

/-- No expression starts with a free operator. -/
theorem refuses_expr_free (standard : inp.language = .standard)
    (token : isFreeOperator inp.language (inp.tokenAt i).lexeme = true) :
    Refuses inp r expr i := by
  cases l : (inp.tokenAt i).lexeme with
  | operator op =>
      refine refuses_expr (refuses_chains (refuses_operand l ?_))
      rintro rfl
      rw [l, standard] at token
      exact absurd token (by decide)
  | _ =>
      rw [l] at token
      cases token

/-- A name in parentheses and an expression in parentheses. -/
theorem reference_apart_parenthesized
    (standard : inp.language = .standard) (start : Nat) :
    Apart inp r i (reference start) (parenthesized expr) := by
  by_cases opening : (inp.tokenAt i).kind = .mark .lparen
  · cases next : isFreeOperator inp.language (inp.tokenAt (i + 1)).lexeme with
    | true =>
        exact .inr ((reads_mark opening).bind_refuses
          (refuses_expr_free standard next).bind)
    | false => exact .inl (refuses_reference opening next start)
  · exact .inr (refuses_expect opening).bind

theorem atomAlternatives_apart (standard : inp.language = .standard)
    (start : Nat) :
    (atomAlternatives expr start).Pairwise (Apart inp r i) := by
  have quotation : Starts inp r i (fun l => l.kind = .mark .quote)
      (quotation expr start) := (starts_expect _).bind
  have reference : Starts inp r i
      (fun l => l.kind = .ident ∨ l.kind = .mark .lparen)
      (reference start) := starts_name.bind
  have hole : Starts inp r i (fun l => l.kind = .mark .hole)
      (hole start) := (starts_expect _).bind
  have parenthesized : Starts inp r i (fun l => l.kind = .mark .lparen)
      (parenthesized expr) := (starts_expect _).bind
  have setType : Starts inp r i (fun l => l.kind = .reserved)
      (setType start) := (starts_reserved "Set").bind.mono (by rintro _ rfl; rfl)
  simp only [atomAlternatives, List.pairwise_cons, List.forall_mem_cons,
    List.not_mem_nil, false_imp_iff, implies_true, List.Pairwise.nil,
    and_true]
  refine ⟨⟨?_, ?_, ?_, ?_⟩, ⟨?_, ?_, ?_⟩, ⟨?_, ?_⟩, ?_⟩
  · exact quotation.apart reference (by rintro l h (h' | h') <;> simp_all)
  · exact quotation.apart hole (by rintro l h h'; simp_all)
  · exact quotation.apart parenthesized (by rintro l h h'; simp_all)
  · exact quotation.apart setType (by rintro l h h'; simp_all)
  · exact reference.apart hole (by rintro l (h | h) h' <;> simp_all)
  · exact reference_apart_parenthesized standard start
  · exact reference.apart setType (by rintro l (h | h) h' <;> simp_all)
  · exact hole.apart parenthesized (by rintro l h h'; simp_all)
  · exact hole.apart setType (by rintro l h h'; simp_all)
  · exact parenthesized.apart setType (by rintro l h h'; simp_all)

/-- No atom starts with a dot. -/
theorem patternAlternatives_apart (start : Nat) :
    (patternAlternatives expr start).Pairwise (Apart inp r i) := by
  have hidden : Starts inp r i (fun l => l = .operator ".")
      (hidden expr start) := (starts_symbol ".").bind
  have differ : Apart inp r i (atom expr) (Grammar.hidden expr start) :=
    starts_atom.apart hidden (by rintro l atom rfl; cases atom)
  exact List.pairwise_pair.2 differ

theorem nameAlternatives_apart :
    nameAlternatives.Pairwise (Apart inp r i) := by
  have word : Starts inp r i (fun l => l.kind = .ident) identName :=
    (starts_expect _).bind
  have operator : Starts inp r i (fun l => l.kind = .mark .lparen)
      operatorName := (starts_expect _).bind
  exact List.pairwise_pair.2 (word.apart operator (by rintro l h h'; simp_all))

-- ======================================================== operands

theorem starts_piBetween {opening closing : Mark} {plicity : Plicity}
    (start : Nat) :
    Starts inp r i (fun l => l.kind = .mark opening)
      (piBetween e opening closing plicity start) :=
  (starts_expect _).bind

theorem piAlternatives_apart (start : Nat) :
    (piAlternatives expr start).Pairwise (Apart inp r i) :=
  List.pairwise_pair.2 ((starts_piBetween start).apart (starts_piBetween start)
    (by rintro l h h'; simp_all))

/-- An identifier before a colon is an expression. -/
theorem reads_expr_before_colon {word : String}
    (free : ∀ entry ∈ r.fixities,
      Language.standard.isReservedOperator entry.symbol = false)
    (token : (inp.tokenAt i).lexeme = .ident word)
    (colon : (inp.tokenAt (i + 1)).lexeme = .operator ":") :
    ∃ t, Reads inp r expr i (i + 1) t := by
  have operand := reads_operand_of_atom (r := r) (e := expr)
    (reads_atom_ident token) (by rw [colon]; rfl)
  refine ⟨_, reads_expr (reads_chains_alone operand fun level member => ?_)⟩
  rw [colon]
  rw [FixityTable.reverse_levels] at member
  rcases List.mem_cons.1 member with rfl | member
  · rfl
  · refine FixityTable.operator?_none_of_reserved free ?_ level member
    rintro op colon
    cases colon
    decide

/-- A binder in parentheses and an atom. -/
theorem atom_apart_piExplicit (start : Nat)
    (free : ∀ entry ∈ r.fixities,
      Language.standard.isReservedOperator entry.symbol = false) :
    Apart inp r i (atom expr)
      (piBetween expr .lparen .rparen .explicit start) := by
  by_cases opening : (inp.tokenAt i).kind = .mark .lparen
  · by_cases word : (inp.tokenAt (i + 1)).kind = .ident
    · obtain ⟨text, target⟩ := ident_of_kind word
      by_cases colon : (inp.tokenAt (i + 1 + 1)).lexeme = .operator ":"
      · obtain ⟨t, alone⟩ := reads_expr_before_colon free target colon
        refine .inl (refuses_atom_open opening ?_ alone ?_)
        · rw [target]
          rfl
        · rw [Token.kind, colon]
          simp [Lexeme.kind]
      · exact .inr ((reads_mark opening).bind_refuses
          ((reads_identName target).bind_refuses
            (refuses_symbol colon).bind.bind))
    · exact .inr ((reads_mark opening).bind_refuses
        (refuses_identName word).bind)
  · exact .inr (starts_piBetween start opening)

theorem applicationOrAtom_apart_piType
    (free : ∀ entry ∈ r.fixities,
      Language.standard.isReservedOperator entry.symbol = false) :
    Apart inp r i (applicationOrAtom expr) (piType expr) := by
  by_cases brace : (inp.tokenAt i).kind = .mark .lbrace
  · exact .inl (refuses_applicationOrAtom (refuses_atom
      (startsAtom_of_mark brace)))
  · rcases atom_apart_piExplicit (inp.tokenAt i).span.start free with
      noAtom | noBinder
    · exact .inl (refuses_applicationOrAtom noAtom)
    · refine .inr (reads_here.bind_refuses (refuses_choice fun p hp => ?_))
      rcases List.mem_cons.1 hp with rfl | hp
      · exact noBinder
      · rw [List.mem_singleton.1 hp]
        exact refuses_piBetween brace

theorem operandAlternatives_apart
    (free : ∀ entry ∈ r.fixities,
      Language.standard.isReservedOperator entry.symbol = false) :
    (operandAlternatives expr).Pairwise (Apart inp r i) := by
  have application : Starts inp r i (fun l => startsAtom l = true)
      (applicationOrAtom expr) := .after_here fun _ => starts_atom.bind
  have lambda : Starts inp r i (fun l => l = .operator "\\")
      (lambda expr) := .after_here fun _ => (starts_symbol "\\").bind
  have piType : Starts inp r i
      (fun l => l.kind = .mark .lparen ∨ l.kind = .mark .lbrace)
      (piType expr) :=
    .after_here fun start =>
      .either ((starts_piBetween start).mono fun _ => .inl)
        ((starts_piBetween start).mono fun _ => .inr)
  simp only [operandAlternatives, List.pairwise_cons, List.forall_mem_cons,
    List.not_mem_nil, false_imp_iff, implies_true, List.Pairwise.nil,
    and_true]
  refine ⟨⟨?_, ?_⟩, ?_⟩
  · exact application.apart lambda (by rintro l atom rfl; cases atom)
  · exact applicationOrAtom_apart_piType free
  · exact lambda.apart piType (by rintro l rfl (h | h) <;> cases h)

-- ==================================================== declarations

/-- An argument of a clause starts as an atom does or with a dot. -/
theorem refuses_patternAtom
    (noAtom : startsAtom (inp.tokenAt i).lexeme = false)
    (noDot : (inp.tokenAt i).lexeme ≠ .operator ".") :
    Refuses inp r (patternAtom expr) i := by
  have starts : Starts inp r i (fun l => l = .operator ".")
      (hidden expr (inp.tokenAt i).span.start) :=
    (starts_symbol ".").bind
  refine reads_here.bind_refuses (refuses_choice fun p hp => ?_)
  rcases List.mem_cons.1 hp with rfl | hp
  · exact refuses_atom noAtom
  · rw [List.mem_singleton.1 hp]
    exact starts noDot

/-- No argument of a clause starts with an operator but the dot of a
hidden one. -/
theorem reads_no_arguments {op : String}
    (token : (inp.tokenAt i).lexeme = .operator op) (noDot : op ≠ ".") :
    Reads inp r (many (namedArgument expr)) i i []
      ∧ Reads inp r (many (patternAtom expr)) i i [] := by
  have noNamed : Refuses inp r (namedArgument expr) i := by
    apply refuses_namedArgument
    rw [Token.kind, token]
    simp [Lexeme.kind]
  have noArgument : Refuses inp r (patternAtom expr) i := by
    refine refuses_patternAtom ?_ ?_
    · rw [token]
      rfl
    · rw [token]
      exact fun h => noDot (Lexeme.operator.inj h)
  exact ⟨reads_many_nil noNamed, reads_many_nil noArgument⟩

/-- What follows a name in a clause is no operator but the dot of a
hidden argument and the equals sign. -/
theorem refuses_functionClause {x : Name} {op : String}
    (named : Reads inp r name i j x)
    (token : (inp.tokenAt j).lexeme = .operator op) (noDot : op ≠ ".")
    (noEquals : op ≠ "=") : Refuses inp r functionClause i := by
  have other : (inp.tokenAt j).lexeme ≠ .operator "=" := by
    rw [token]
    exact fun h => noEquals (Lexeme.operator.inj h)
  obtain ⟨noNamed, noArgument⟩ := reads_no_arguments (r := r) token noDot
  exact named.bind_refuses <| noNamed.bind_refuses <|
    noArgument.bind_refuses (refuses_symbol other).bind.bind

theorem refuses_operatorClause {t : Term}
    (left : Reads inp r (atom expr) i j t)
    (token : isFreeOperator inp.language (inp.tokenAt j).lexeme = false) :
    Refuses inp r operatorClause i :=
  left.bind_refuses (refuses_operator token).bind

theorem starts_clause :
    Starts inp r i (fun l => startsAtom l = true) clause :=
  .either starts_name_atom.bind starts_atom.bind

/-- A name with arguments and atoms around an operator. -/
theorem clauseAlternatives_apart (standard : inp.language = .standard) :
    clauseAlternatives.Pairwise (Apart inp r i) := by
  refine List.pairwise_pair.2 ?_
  rcases name_cases inp r expr i with ⟨j, x, t, named, atom⟩ | unnamed
  · cases l : (inp.tokenAt j).lexeme with
    | operator op =>
        cases kept : inp.language.isReservedOperator op with
        | true =>
            refine .inr (refuses_operatorClause atom ?_)
            rw [l, isFreeOperator, kept]
            rfl
        | false =>
            rw [standard] at kept
            refine .inl (refuses_functionClause named l ?_ ?_)
            · rintro rfl
              exact absurd kept (by decide)
            · rintro rfl
              exact absurd kept (by decide)
    | _ =>
        refine .inr (refuses_operatorClause atom ?_)
        rw [l]
        rfl
  · exact .inl unnamed.bind

/-- A signature and a clause; both may start with a name. -/
theorem signature_apart_clause (standard : inp.language = .standard) :
    Apart inp r i signatureDeclaration clauseDeclaration := by
  rcases name_cases inp r expr i with ⟨j, x, t, named, atom⟩ | unnamed
  · by_cases colon : (inp.tokenAt j).lexeme = .operator ":"
    · refine .inr (Refuses.bind (refuses_choice fun p hp => ?_))
      rcases List.mem_cons.1 hp with rfl | hp
      · exact refuses_functionClause named colon (by decide) (by decide)
      · rw [List.mem_singleton.1 hp]
        refine refuses_operatorClause atom ?_
        rw [colon, standard]
        decide
    · exact .inl (named.bind_refuses (refuses_symbol colon).bind.bind).bind
  · exact .inl unnamed.bind.bind

/-- Constructors by their types and by their arguments: the kind of the
data type is given by a colon or by parameters. -/
theorem dataAlternatives_apart :
    dataAlternatives.Pairwise (Apart inp r i) := by
  refine List.pairwise_pair.2 ?_
  by_cases data : (inp.tokenAt i).lexeme = .reserved "data"
  · rcases name_cases inp r expr (i + 1) with ⟨j, x, -, named, -⟩ | unnamed
    · by_cases colon : (inp.tokenAt j).lexeme = .operator ":"
      · have noParameter : Refuses inp r identName j := by
          apply refuses_identName
          rw [Token.kind, colon]
          simp [Lexeme.kind]
        have noEquals : (inp.tokenAt j).lexeme ≠ .operator "=" := by
          rw [colon]
          simp
        exact .inr ((reads_reserved data).bind_refuses <|
          named.bind_refuses <| (reads_many_nil noParameter).bind_refuses
            (refuses_symbol noEquals).bind)
      · exact .inl ((reads_reserved data).bind_refuses
          (named.bind_refuses (refuses_symbol colon).bind.bind))
    · exact .inl ((reads_reserved data).bind_refuses unnamed.bind)
  · exact .inl (refuses_reserved data).bind

theorem starts_dataDeclaration :
    Starts inp r i (fun l => l = .reserved "data") dataDeclaration :=
  .either (starts_reserved "data").bind (starts_reserved "data").bind

theorem starts_fixityDeclaration :
    Starts inp r i (fun l => associativity? l ≠ none)
      fixityDeclaration := by
  intro other
  have absent : associativity? (inp.tokenAt i).lexeme = none :=
    Classical.not_not.1 other
  have look : Reads inp r (ask fun inp s =>
      associativity? (inp.tokenAt s.cursor).lexeme) i i none := by
    rw [← absent]
    exact reads_look fun t => associativity? t.lexeme
  exact (look.bind_refuses (refuses_failWith none _)).bind

theorem declarationAlternatives_apart
    (standard : inp.language = .standard) :
    declarationAlternatives.Pairwise (Apart inp r i) := by
  have fixity : Starts inp r i (fun l => associativity? l ≠ none)
      fixityDeclaration := starts_fixityDeclaration
  have signature : Starts inp r i (fun l => startsAtom l = true)
      signatureDeclaration := starts_name_atom.bind.bind
  have data : Starts inp r i (fun l => l = .reserved "data")
      dataDeclaration := starts_dataDeclaration
  have clause : Starts inp r i (fun l => startsAtom l = true)
      clauseDeclaration := starts_clause.bind
  have noAtom : ∀ l, associativity? l ≠ none → ¬startsAtom l = true := by
    intro l assoc atom
    cases l with
    | reserved word =>
        obtain rfl : word = "Set" := by simpa [startsAtom] using atom
        exact assoc (by decide)
    | _ => exact assoc rfl
  simp only [declarationAlternatives, List.pairwise_cons,
    List.forall_mem_cons, List.not_mem_nil, false_imp_iff, implies_true,
    List.Pairwise.nil, and_true]
  refine ⟨⟨?_, ?_, ?_⟩, ⟨?_, ?_⟩, ?_⟩
  · exact fixity.apart signature noAtom
  · refine fixity.apart data ?_
    rintro _ assoc rfl
    exact assoc (by decide)
  · exact fixity.apart clause noAtom
  · exact signature.apart data (by rintro l atom rfl; cases atom)
  · exact signature_apart_clause standard
  · exact data.apart clause (by rintro l rfl atom; cases atom)

-- =========================================================== order

theorem atomAlternatives_regular (start : Nat) :
    ∀ p ∈ atomAlternatives expr start, Regular p := by
  have same : True → start = start := fun _ => rfl
  exact List.forall_iff_forall_mem.1
    ⟨⟨(quotation_alike same).same, quotation_inside⟩,
      ⟨(reference_alike same).same, reference_inside⟩,
      ⟨(hole_alike same).same, hole_inside⟩,
      ⟨parenthesized_alike.same, parenthesized_inside⟩,
      ⟨(setType_alike same).same, setType_inside⟩⟩

theorem patternAlternatives_regular (start : Nat) :
    ∀ p ∈ patternAlternatives expr start, Regular p :=
  List.forall_iff_forall_mem.1
    ⟨⟨atom_alike.same, atom_inside⟩,
      ⟨(hidden_alike fun _ => rfl).same, hidden_inside⟩⟩

theorem nameAlternatives_regular : ∀ p ∈ nameAlternatives, Regular p :=
  List.forall_iff_forall_mem.1
    ⟨⟨identName_alike, identName_inside⟩,
      ⟨operatorName_alike, operatorName_inside⟩⟩

theorem piAlternatives_regular (start : Nat) :
    ∀ p ∈ piAlternatives expr start, Regular p :=
  List.forall_iff_forall_mem.1
    ⟨⟨(piBetween_alike fun _ => rfl).same,
        piBetween_inside (by decide) (by decide)⟩,
      ⟨(piBetween_alike fun _ => rfl).same,
        piBetween_inside (by decide) (by decide)⟩⟩

theorem operandAlternatives_regular :
    ∀ p ∈ operandAlternatives expr, Regular p :=
  List.forall_iff_forall_mem.1
    ⟨⟨applicationOrAtom_alike.same, applicationOrAtom_inside⟩,
      ⟨lambda_alike.same, lambda_inside⟩,
      ⟨piType_alike.same, piType_inside⟩⟩

theorem clauseAlternatives_regular :
    ∀ p ∈ clauseAlternatives, Regular p :=
  List.forall_iff_forall_mem.1
    ⟨⟨functionClause_alike.same, functionClause_inside⟩,
      ⟨operatorClause_alike.same, operatorClause_inside⟩⟩

theorem dataAlternatives_regular : ∀ p ∈ dataAlternatives, Regular p :=
  List.forall_iff_forall_mem.1
    ⟨⟨dataBySignatures_alike.same, dataBySignatures_inside⟩,
      ⟨dataByArguments_alike.same, dataByArguments_inside⟩⟩

theorem declarationAlternatives_regular :
    ∀ p ∈ declarationAlternatives, Regular p :=
  List.forall_iff_forall_mem.1
    ⟨⟨fixityDeclaration_alike.same, fixityDeclaration_inside⟩,
      ⟨signatureDeclaration_alike.same, signatureDeclaration_inside⟩,
      ⟨dataDeclaration_alike.same, dataDeclaration_inside⟩,
      ⟨clauseDeclaration_alike.same, clauseDeclaration_inside⟩⟩

/-- In every choice of the grammar, wherever it is entered, at most one
alternative succeeds, and the order in which they are tried makes no
difference to what is found and read and declared. This takes the
reserved operators of the language, and a fixity table without any of
them. -/
theorem alternatives_unordered (inp : Input) (s : State) (start : Nat)
    (standard : inp.language = .standard)
    (free : ∀ entry ∈ s.registry.fixities,
      Language.standard.isReservedOperator entry.symbol = false) :
    Unordered inp s declarationAlternatives
      ∧ Unordered inp s dataAlternatives
      ∧ Unordered inp s clauseAlternatives
      ∧ Unordered inp s (operandAlternatives expr)
      ∧ Unordered inp s (atomAlternatives expr start)
      ∧ Unordered inp s (patternAlternatives expr start)
      ∧ Unordered inp s nameAlternatives
      ∧ Unordered inp s (piAlternatives expr start) := by
  have unordered {α : Type} {ps : List (Parser α)}
      (regular : ∀ p ∈ ps, Regular p) (some : ps ≠ [])
      (apart : ps.Pairwise (Apart inp s.registry s.cursor)) :
      Unordered inp s ps :=
    unordered_of_exclusive regular some (exclusive_of_apart apart)
  refine ⟨?_, ?_, ?_, ?_, ?_, ?_, ?_, ?_⟩
  · exact unordered declarationAlternatives_regular (List.cons_ne_nil _ _)
      (declarationAlternatives_apart standard)
  · exact unordered dataAlternatives_regular (List.cons_ne_nil _ _)
      dataAlternatives_apart
  · exact unordered clauseAlternatives_regular (List.cons_ne_nil _ _)
      (clauseAlternatives_apart standard)
  · exact unordered operandAlternatives_regular (List.cons_ne_nil _ _)
      (operandAlternatives_apart free)
  · exact unordered (atomAlternatives_regular start) (List.cons_ne_nil _ _)
      (atomAlternatives_apart standard start)
  · exact unordered (patternAlternatives_regular start) (List.cons_ne_nil _ _)
      (patternAlternatives_apart start)
  · exact unordered nameAlternatives_regular (List.cons_ne_nil _ _)
      nameAlternatives_apart
  · exact unordered (piAlternatives_regular start) (List.cons_ne_nil _ _)
      (piAlternatives_apart start)

/-- Before a function type with a named argument, which starts like an
expression in parentheses, and with an operator declared: no order of
the operands makes a difference, and a function type is found. -/
theorem alternatives_unordered_binder :
    let tokens := (Lexer.tokenize .standard "(x : a) -> b + x" "m").toOption
    let inp : Input :=
      { tokens := (tokens.getD []).dropLast.toArray
        endSpelling := ""
        endSpan := ⟨16, 16⟩
        origin := ⟨"m", none⟩
        language := .standard }
    let s : State := { registry := { fixities := [⟨⟨.left, 6⟩, "+"⟩] } }
    (∃ a t, operand expr inp s = .ok a t)
      ∧ Unordered inp s (operandAlternatives expr) := by
  intro tokens inp s
  have found : (Reading.ofOutcome (operand expr inp s)).outcome.toBool
      = true := by
    decide +kernel
  constructor
  · cases run : operand expr inp s with
    | ok a t => exact ⟨a, t, rfl⟩
    | error | defect =>
        rw [run] at found
        cases found
  · exact (alternatives_unordered inp s 0 rfl (by decide)).2.2.2.1

end Grammar

end DepLang

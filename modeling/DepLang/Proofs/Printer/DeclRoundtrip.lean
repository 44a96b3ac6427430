/-
Printed declarations read back. Where the lexemes of a canonical
declaration stand, with its semicolon, a declaration is read that is
written the same, up to spans (`Decl.Canonical.rereads`): its terms are
read where they stand, each followed by a lexeme that closes it.
-/
import DepLang.Proofs.Grammar.DeclForms
import DepLang.Proofs.Grammar.Enacted
import DepLang.Proofs.Printer.DeclCanonical
import DepLang.Proofs.Printer.Roundtrip

namespace DepLang

open DepLang.Grammar DepLang.Lexer DepLang.Parser DepLang.Term

variable {inp : Input} {r : Registry} {i j k : Nat}

-- ======================================================== signatures

theorem nameForm_of_stands (ordinary : Ordinary inp r) {x : Name}
    (target : IsTarget x) (stands : Stands inp i (nameLexemes x) j) :
    NameForm inp i j x := by
  obtain ⟨text, rfl, word | operator⟩ := target
  · rw [nameLexemes, word.isOperator, Name.toString_ofText] at stands
    obtain ⟨token, rfl⟩ := stands
    exact .word token rfl
  · rw [nameLexemes, isOperator_of_lone operator.1,
      Name.toString_ofText] at stands
    obtain ⟨opening, token, closing, rfl⟩ := stands
    exact .operator (kind_of_mark opening) token
      (ordinary.language ▸ operator.2) (kind_of_mark closing) rfl

/-- A term behind an operator is read, up to what closes it. -/
theorem announced_of_stands (ordinary : Ordinary inp r) {op : String}
    {t : Term} (h : t.Canonical r.fixities)
    (stands : Stands inp i (.operator op :: t.lexemes) j)
    (closing : isClosing (inp.tokenAt j).lexeme = true) :
    ∃ u : Term, u.erase = t.erase ∧ Reads inp r (announced op) i j u := by
  obtain ⟨token, inner⟩ := stands
  obtain ⟨u, same, -, reads⟩ := (h.rereads ordinary).expr inner
    (ordinary.stops_at rfl closing)
  exact ⟨u, same, (reads_symbol token).bind reads⟩

theorem signatureForm_of_stands (ordinary : Ordinary inp r) {x : Name}
    {t : Term} (target : IsTarget x) (h : t.Canonical r.fixities)
    (stands : Stands inp i (signatureLexemes x t) j)
    (closing : isClosing (inp.tokenAt j).lexeme = true) :
    ∃ u : Term, u.erase = t.erase
      ∧ SignatureForm inp r i j (x, (r.generalise u).1)
        (r.declare x u) := by
  obtain ⟨k, named, typed⟩ := stands_append.1 stands
  obtain ⟨u, same, reads⟩ :=
    announced_of_stands ordinary h typed closing
  exact ⟨u, same, .intro (nameForm_of_stands ordinary target named) reads⟩

/-- What follows a constructor is the next bar, or what closes the last
one. -/
theorem closing_of_bars {α : Type} {text : α → List Lexeme} {xs : List α}
    (stands : Stands inp i (xs.flatMap fun x => .operator "|" :: text x) j)
    (closing : isClosing (inp.tokenAt j).lexeme = true) :
    isClosing (inp.tokenAt i).lexeme = true := by
  cases xs with
  | nil =>
      obtain rfl : i = j := stands
      exact closing
  | cons => rw [stands.1]; rfl

/-- Signatures behind bars, each read under what the ones before it
declare. -/
theorem signaturesForm_of_stands (ordinary : Ordinary inp r)
    {typed : List (Name × Term)}
    (each : ∀ a ∈ typed, IsTarget a.1 ∧ a.2.Canonical r.fixities)
    (stands : Stands inp i (typed.flatMap fun a =>
      .operator "|" :: signatureLexemes a.1 a.2) j)
    (closing : isClosing (inp.tokenAt j).lexeme = true) :
    ∃ types : List (Name × Term),
      (types.map fun (x, t) => (x, t.erase))
        = typed.map (fun (x, t) => (x, t.erase))
      ∧ SignaturesForm inp r i j (r.declareTyped types).1
        (r.declareTyped types).2 := by
  induction typed generalizing r i with
  | nil =>
      obtain rfl : i = j := stands
      exact ⟨[], rfl, .nil⟩
  | cons a typed ih =>
      obtain ⟨x, t⟩ := a
      obtain ⟨⟨target, canonical⟩, others⟩ := List.forall_mem_cons.1 each
      obtain ⟨bar, stands⟩ := stands
      obtain ⟨k, first, rest⟩ := stands_append.1 stands
      obtain ⟨u, same, signed⟩ := signatureForm_of_stands ordinary target
        canonical first (closing_of_bars rest closing)
      obtain ⟨types, sames, more⟩ := ih (r := r.declare x u)
        ⟨ordinary.language, ordinary.free⟩ others rest
      exact ⟨(x, u) :: types, List.cons_eq_cons.2
        ⟨Prod.ext rfl same, sames⟩, .cons bar signed more⟩

-- =========================================================== clauses

/-- Where an argument of a clause is read there is no end and no
argument by name. -/
theorem kind_of_reads_patternAtom {t : Term}
    (h : Reads inp r (patternAtom expr) i j t) :
    (inp.tokenAt i).kind ≠ .eof ∧ (inp.tokenAt i).kind ≠ .mark .lbrace := by
  cases reads_patternAtom_cases h with
  | atom h => exact kind_of_startsAtom (startsAtom_of_reads h)
  | hidden dot =>
      rw [Token.kind, dot]
      simp [Lexeme.kind]

/-- An argument of a clause is read where it stands. -/
theorem reads_patternAtom_of_stands (ordinary : Ordinary inp r) {t : Term}
    (h : t.CanonicalArgument r.fixities)
    (stands : Stands inp i (enclosed .atom t t.lexemes) j) :
    ∃ u : Term, u.erase = t.erase ∧ i < j ∧ (inp.tokenAt i).kind ≠ .eof
      ∧ Reads inp r (patternAtom expr) i j u := by
  cases h with
  | shown h =>
      obtain ⟨u, same, less, inside, reads⟩ :=
        reads_atom_of_rereads ordinary (h.rereads ordinary) stands
      exact ⟨u, same, less, inside, reads_here.bind reads.choice⟩
  | @hidden body _ h =>
      obtain ⟨dot, inner⟩ : (inp.tokenAt i).lexeme = .operator "."
          ∧ Stands inp (i + 1) (enclosed .atom body body.lexemes) j :=
        stands
      obtain ⟨u, same, less, -, reads⟩ :=
        reads_atom_of_rereads ordinary (h.rereads ordinary) inner
      have noAtom : Refuses inp r (atom expr) i := by
        apply refuses_atom
        rw [dot]
        rfl
      have read : Reads inp r
          (hidden expr (inp.tokenAt i).span.start) i j _ :=
        (reads_symbol dot).bind (reads.bind (reads_located _ _))
      refine ⟨_, ?_, by omega, ?_,
        reads_here.bind (Refuses.choice noAtom read.choice)⟩
      · rw [erase, erase, same]
      · rw [Token.kind, dot]
        simp [Lexeme.kind]

/-- The arguments in front of an equals sign are read where they stand,
and no argument by name is. -/
theorem reads_arguments_of_stands (ordinary : Ordinary inp r)
    {args : List Term} (each : ∀ t ∈ args, t.CanonicalArgument r.fixities)
    (stands : Stands inp i (lexemesAll .atom args).flatten j)
    (equals : (inp.tokenAt j).lexeme = .operator "=") :
    ∃ us, eraseAll us = eraseAll args
      ∧ Reads inp r (many (patternAtom expr)) i j us
      ∧ (inp.tokenAt i).kind ≠ .mark .lbrace := by
  have noArgument : Refuses inp r (patternAtom expr) j := by
    refine refuses_patternAtom ?_ ?_
    · rw [equals]
      rfl
    · rw [equals]
      simp
  obtain ⟨us, same, arguments⟩ := reads_arguments
    (fun t ht _ _ => reads_patternAtom_of_stands ordinary (each t ht))
    stands noArgument
  refine ⟨us, same, arguments, ?_⟩
  cases args with
  | nil =>
      obtain rfl : i = j := stands
      rw [Token.kind, equals]
      simp [Lexeme.kind]
  | cons t ts =>
      rw [lexemesAll, List.flatten_cons] at stands
      obtain ⟨n, first, -⟩ := stands_append.1 stands
      obtain ⟨u, -, -, -, read⟩ := reads_patternAtom_of_stands ordinary
        (each t List.mem_cons_self) first
      exact (kind_of_reads_patternAtom read).2

theorem clauseForm_of_stands (ordinary : Ordinary inp r) {c : Clause}
    (h : c.Canonical r.fixities) (stands : Stands inp i c.lexemes j)
    (closing : isClosing (inp.tokenAt j).lexeme = true) :
    ∃ c', c'.erase = c.erase ∧ ClauseForm inp r i j c' := by
  obtain ⟨m, left, right⟩ := stands_append.1 stands
  have equals : (inp.tokenAt m).lexeme = .operator "=" := right.1
  cases h with
  | @function x named args rhs target shown names values each body =>
      obtain ⟨rhs', sameRhs, reads⟩ :=
        announced_of_stands ordinary body right closing
      rw [Term.lexemes, shown] at left
      simp only [List.flatten_cons, List.flatten_append] at left
      obtain ⟨k, first, left⟩ := stands_append.1 left
      obtain ⟨l, second, third⟩ := stands_append.1 left
      obtain ⟨us, sames, arguments, noBrace⟩ :=
        reads_arguments_of_stands ordinary each third equals
      obtain ⟨xs, sameNamed, namedReads⟩ := reads_named ordinary names
        (fun a ha => (values a ha).rereads ordinary) second noBrace
      refine ⟨⟨x, .app (.ref x none) xs us none, rhs'⟩, ?_,
        .function (nameForm_of_stands ordinary target first) namedReads
          arguments reads⟩
      rw [Clause.erase, Clause.erase, Clause.mapTerms, Clause.mapTerms]
      simp only [erase, sameNamed, sames, sameRhs]
  | @operator op x y rhs free left' right' apart body =>
      obtain ⟨rhs', sameRhs, reads⟩ :=
        announced_of_stands ordinary body right closing
      have shown : infixOperator? (.ref (.ofText op) none) [] [x, y]
          = some (.ofText op) := by
        rw [infixOperator?, isOperator_of_lone free.1]
        rfl
      rw [Term.lexemes, shown] at left
      simp only [lexemesAll, enclosed_of_apart apart.1,
        enclosed_of_apart apart.2, Name.toString_ofText,
        List.intercalate_cons_cons, List.intercalate_singleton,
        List.append_assoc] at left
      obtain ⟨k, first, token, second⟩ := stands_append.1 left
      obtain ⟨x', sameLeft, -, -, readsLeft⟩ :=
        reads_atom_of_rereads ordinary (left'.rereads ordinary) first
      obtain ⟨y', sameRight, -, -, readsRight⟩ :=
        reads_atom_of_rereads ordinary (right'.rereads ordinary) second
      refine ⟨_, ?_, .operator readsLeft token
        (ordinary.language ▸ free.2) readsRight reads⟩
      rw [Clause.erase, Clause.erase, Clause.mapTerms, Clause.mapTerms]
      simp only [erase, eraseAll, sameLeft, sameRight, sameRhs]

-- ====================================================== declarations

/-- Operators with commas between them. -/
theorem listed_of_stands (ordinary : Ordinary inp r)
    {symbols : List String} (some_symbol : symbols ≠ [])
    (free : ∀ symbol ∈ symbols, IsFreeOperator symbol)
    (stands : Stands inp i ([Lexeme.ofMark .comma].intercalate
      (symbols.map fun op => [.operator op])) j) :
    Listed inp i j symbols := by
  induction symbols generalizing i with
  | nil => exact absurd rfl some_symbol
  | cons op symbols ih =>
      obtain ⟨first, others⟩ := List.forall_mem_cons.1 free
      have reserved : inp.language.isReservedOperator op = false :=
        ordinary.language ▸ first.2
      cases symbols with
      | nil =>
          obtain ⟨token, rfl⟩ : (inp.tokenAt i).lexeme = .operator op
              ∧ i + 1 = j := by
            simpa [Stands] using stands
          exact .last token reserved
      | cons op' symbols =>
          obtain ⟨token, comma, rest⟩ :
              (inp.tokenAt i).lexeme = .operator op
                ∧ (inp.tokenAt (i + 1)).lexeme = .ofMark .comma
                ∧ Stands inp (i + 1 + 1) _ j := stands
          exact .more token reserved (kind_of_mark comma)
            (ih (by simp) others rest)

theorem intercalate_cons_eq_flatMap {α : Type} (separator first : List α)
    (others : List (List α)) :
    separator.intercalate (first :: others)
      = first ++ others.flatMap (separator ++ ·) := by
  induction others generalizing first with
  | nil => simp
  | cons second others ih =>
      rw [List.intercalate_cons_cons, ih, List.flatMap_cons,
        List.append_assoc, List.append_assoc]

/-- Where its lexemes stand, with the semicolon, a canonical declaration
is read, and does what the same declaration does, up to spans. -/
theorem Decl.Canonical.rereads (ordinary : Ordinary inp r) {d : Decl}
    (h : d.Canonical r.fixities) (stands : Stands inp i d.lexemes j) :
    ∃ raw : Decl, ∃ k, j = k + 1
      ∧ (inp.tokenAt k).kind = .mark .semicolon
      ∧ raw.erase = d.erase
      ∧ DeclForm inp r i k (r.enact raw).1 (r.enact raw).2 := by
  -- a declaration ends at its semicolon
  have ends {ls : List Lexeme} {i : Nat}
      (stands : Stands inp i (ls ++ [.ofMark .semicolon]) j) :
      ∃ k, j = k + 1 ∧ (inp.tokenAt k).kind = .mark .semicolon
        ∧ isClosing (inp.tokenAt k).lexeme = true ∧ Stands inp i ls k := by
    obtain ⟨k, before, semicolon, rfl⟩ := stands_append.1 stands
    exact ⟨k, rfl, kind_of_mark semicolon, by rw [semicolon]; rfl, before⟩
  cases h with
  | @fixity fix symbols _ some_symbol free =>
      obtain ⟨word, prec, rest⟩ := stands
      obtain ⟨k, same, semicolon, -, listed⟩ := ends rest
      exact ⟨.fixity fix symbols, k, same, semicolon, rfl,
        .fixity word prec
          (listed_of_stands ordinary some_symbol free listed)⟩
  | @signature x t target type =>
      obtain ⟨k, same, semicolon, closing, signed⟩ := ends stands
      obtain ⟨u, sameType, signature⟩ :=
        signatureForm_of_stands ordinary target type signed closing
      exact ⟨.signature x u, k, same, semicolon,
        congrArg (Decl.signature x) sameType, .signature signature⟩
  | @data x t constructors target kind some_constructor each =>
      obtain ⟨word, rest⟩ := stands
      obtain ⟨l, heading, begins, rest⟩ := stands_append.1 rest
      obtain ⟨k, same, semicolon, closing, listed⟩ := ends rest
      obtain ⟨⟨y, u⟩, others, rfl⟩ :=
        List.exists_cons_of_ne_nil some_constructor
      obtain ⟨m, named, ascribed⟩ := stands_append.1 heading
      obtain ⟨t', sameKind, reads⟩ := announced_of_stands ordinary kind
        ascribed (by rw [begins]; decide)
      have behind : Ordinary inp (r.declare x t') :=
        ⟨ordinary.language, ordinary.free⟩
      rw [List.map_cons, intercalate_cons_eq_flatMap, List.flatMap_map]
        at listed
      obtain ⟨n, first, rest⟩ := stands_append.1 listed
      obtain ⟨⟨target', type⟩, each⟩ := List.forall_mem_cons.1 each
      obtain ⟨u', sameType, signature⟩ := signatureForm_of_stands behind
        target' type first (closing_of_bars rest closing)
      obtain ⟨types, sameTypes, signatures⟩ := signaturesForm_of_stands
        (r := (r.declare x t').declare y u')
        ⟨ordinary.language, ordinary.free⟩ each rest closing
      refine ⟨.data ⟨x, t', (y, u') :: types⟩, k, same, semicolon, ?_,
        .dataBySignatures word (nameForm_of_stands ordinary target named)
          reads begins signature signatures⟩
      exact congrArg₂ (fun t cs => Decl.data ⟨x, t, cs⟩) sameKind
        (List.cons_eq_cons.2 ⟨Prod.ext rfl sameType, sameTypes⟩)
  | @clause c canonical =>
      have stands : Stands inp i (c.lexemes ++ [.ofMark .semicolon]) j := by
        simpa [lexemes] using stands
      obtain ⟨k, same, semicolon, closing, clause⟩ := ends stands
      obtain ⟨c', sameClause, form⟩ :=
        clauseForm_of_stands ordinary canonical clause closing
      exact ⟨.clauses ungrouped [c'], k, same, semicolon,
        congrArg (fun c => Decl.clauses ungrouped [c]) sameClause,
        .clause form⟩

end DepLang

/-
The rules of declarations, read backwards: what each of them has read,
and what it has left in the registry. Here a run is followed state by
state, for a declaration takes effect before it is complete: the second
constructor of a data type is read under the first one's type. So the
forms carry a registry for every place where it changes.

A module is its declarations one after another, each with its semicolon
(`itemsForm_of_moduleItems`). With the rules of expressions this is the
whole grammar as a relation between places of the input.
-/
import DepLang.Proofs.Grammar.Cases
import DepLang.Proofs.Grammar.Joined

namespace DepLang

open DepLang.Parser

namespace Registry

/-- The registry once a name is declared with its type. -/
def declare (r : Registry) (target : Name) (type : Term) : Registry :=
  r.define target (r.generalise type).2

/-- The constructors of a data type with their types closed, one after
another, and the registry behind them. -/
def declareAll (result : Term) :
    Registry → List (Name × List Term) → List (Name × Term) × Registry
  | r, [] => ([], r)
  | r, (target, args) :: rest =>
    let type := Term.arrows Grammar.argumentBinder args result
    let (typed, last) := declareAll result (r.declare target type) rest
    ((target, (r.generalise type).1) :: typed, last)

@[simp] theorem fixities_declareAll (result : Term)
    (constructors : List (Name × List Term)) :
    ∀ r : Registry,
      (r.declareAll result constructors).2.fixities = r.fixities := by
  induction constructors with
  | nil => exact fun _ => rfl
  | cons c rest ih => exact fun r => ih _

end Registry

namespace Grammar

variable {inp : Input} {r r' : Registry} {i j : Nat} {t : Term}

-- ======================================================== fixities

theorem plain_natural : Plain natural :=
  plain_of (Alike.weaken Alike.natural id id fun _ _ => id) .natural

theorem reads_natural_cases {value : Nat}
    (h : Reads inp r natural i j value) :
    (inp.tokenAt i).lexeme = .natural value ∧ j = i + 1 := by
  obtain ⟨s, u, ⟨rfl, -⟩, ⟨rfl, -⟩, run⟩ := h.run
  unfold natural accept at run
  split at run
  next found =>
    cases run
    dsimp only at found
    split at found
    next token =>
      cases found
      refine ⟨token, ?_⟩
      rw [past, if_neg (by simp [Token.kind, token, Lexeme.kind])]
    · cases found
  · cases run

theorem plain_associativity : Plain associativity :=
  plain_of associativity_alike associativity_inside

theorem reads_associativity_cases {assoc : Assoc}
    (h : Reads inp r associativity i j assoc) :
    (inp.tokenAt i).lexeme = .reserved assoc.keyword ∧ j = i + 1 := by
  obtain ⟨s, u, ⟨rfl, -⟩, ⟨rfl, -⟩, run⟩ := h.run
  obtain ⟨found, v, asked, run⟩ := bind_ok run
  cases asked
  dsimp only at run
  cases l : (inp.tokenAt s.cursor).lexeme with
  | reserved word =>
      cases word_is : associativity? (.reserved word) with
      | none =>
          rw [l, word_is] at run
          cases run
      | some found =>
          rw [l, word_is] at run
          cases run
          have keyword := List.find?_some word_is
          refine ⟨by rw [of_decide_eq_true keyword], ?_⟩
          rw [past, if_neg (by simp [Token.kind, l, Lexeme.kind])]
  | _ =>
      rw [l] at run
      cases run

theorem plain_operatorSymbol : Plain operatorSymbol :=
  plain_operator.bind fun _ => plain_pure _

theorem reads_operatorSymbol_cases {op : String}
    (h : Reads inp r operatorSymbol i j op) :
    (inp.tokenAt i).lexeme = .operator op
      ∧ inp.language.isReservedOperator op = false ∧ j = i + 1 := by
  obtain ⟨s, u, start, stop, run⟩ := h.run
  obtain ⟨_, _, v, read, at_v, run⟩ := plain_operator.step start run
  obtain ⟨⟨text, token, same, free⟩, rfl⟩ := reads_operator_cases read
  obtain ⟨rfl, rfl⟩ := reads_pure_cases at_v stop run
  rw [same]
  exact ⟨token, free, rfl⟩

/-- Free operators with commas between them. -/
inductive Listed (inp : Input) : Nat → Nat → List String → Prop
  | last {i : Nat} {op : String}
      (token : (inp.tokenAt i).lexeme = .operator op)
      (free : inp.language.isReservedOperator op = false) :
      Listed inp i (i + 1) [op]
  | more {i j : Nat} {op : String} {ops : List String}
      (token : (inp.tokenAt i).lexeme = .operator op)
      (free : inp.language.isReservedOperator op = false)
      (comma : (inp.tokenAt (i + 1)).kind = .mark .comma)
      (rest : Listed inp (i + 1 + 1) j ops) : Listed inp i j (op :: ops)

theorem Listed.lt {ops : List String} (h : Listed inp i j ops) :
    i < j := by
  induction h with
  | last => omega
  | more _ _ _ _ ih => omega

theorem reads_operators_cases {ops : List String}
    (h : Reads inp r (sepBy1 operatorSymbol (mark .comma)) i j ops) :
    Listed inp i j ops := by
  obtain ⟨op, k, rest, rfl, first, more⟩ :=
    reads_sepBy1_cases plain_operatorSymbol (plain_mark _) h
  obtain ⟨token, free, rfl⟩ := reads_operatorSymbol_cases first
  have plain := (plain_mark .comma).bind fun _ => plain_operatorSymbol
  have alike : Alike True expr expr false true .same
      (mark .comma >>= fun _ => operatorSymbol)
      (mark .comma >>= fun _ => operatorSymbol) :=
    .bind (.mark _) fun _ _ _ => operatorSymbol_alike
  clear h first
  replace more := readsAll_of_many plain alike more
  generalize start : i + 1 = k at more
  induction more generalizing i op with
  | nil =>
      subst start
      exact .last token free
  | cons next _ more ih =>
      subst start
      obtain ⟨_, _, between, read⟩ := reads_bind_cases (plain_mark _)
        (fun _ => plain_operatorSymbol) next
      obtain ⟨comma, rfl⟩ := reads_mark_cases between
      obtain ⟨token', free', passed⟩ := reads_operatorSymbol_cases read
      exact .more token free comma (ih _ token' free' passed.symm)

-- ========================================================= clauses

/-- What an argument of a pattern is written with. -/
inductive PatternForm (inp : Input) (r : Registry) (i j : Nat)
    (t : Term) : Prop
  | atom (h : Reads inp r (atom expr) i j t)
  | hidden {body : Term}
      (dot : (inp.tokenAt i).lexeme = .operator ".")
      (inner : Reads inp r (Grammar.atom expr) (i + 1) j body)
      (shape : t.erase = .hidden body.erase none)

theorem plain_patternAtom : Plain (patternAtom expr) :=
  plain_of patternAtom_alike.same patternAtom_inside

theorem reads_patternAtom_cases
    (h : Reads inp r (patternAtom expr) i j t) :
    PatternForm inp r i j t := by
  have plain (start : Nat) :
      ∀ p ∈ patternAlternatives expr start, Plain p :=
    List.forall_iff_forall_mem.1 ⟨plain_atom,
      plain_of (hidden_alike fun _ => rfl).same hidden_inside⟩
  have h := reads_after_here (fun start => plain_choice (plain start)) h
  obtain ⟨p, hp, h⟩ := reads_choice_cases (plain _) h
  rcases List.mem_cons.1 hp with rfl | hp
  · exact .atom h
  · cases List.mem_singleton.1 hp
    obtain ⟨s, u, start, stop, run⟩ := h.run
    obtain ⟨_, _, s₁, opening, at₁, run⟩ := (plain_symbol _).step start run
    obtain ⟨body, k, s₂, inner, at₂, run⟩ := plain_atom.step at₁ run
    obtain ⟨last, -⟩ := (plain_located _ _).reads_at at₂ run
    obtain ⟨dot, rfl⟩ := reads_symbol_cases opening
    obtain ⟨rfl, there⟩ := reads_located_cases last
    obtain rfl := stop.1.symm.trans there
    exact .hidden dot inner rfl

/-- What a clause is written with. -/
inductive ClauseForm (inp : Input) (r : Registry) (i j : Nat) :
    Clause → Prop
  | function {k l m : Nat} {target : Name} {named : List (Name × Term)}
      {args : List Term} {rhs : Term} (head : NameForm inp i k target)
      (names : Reads inp r (many (namedArgument expr)) k l named)
      (rest : Reads inp r (many (patternAtom expr)) l m args)
      (body : Reads inp r (announced "=") m j rhs) :
      ClauseForm inp r i j
        ⟨target, .app (.ref target none) named args none, rhs⟩
  | operator {k l : Nat} {op : String} {left right rhs : Term}
      (first : Reads inp r (atom expr) i k left)
      (token : (inp.tokenAt k).lexeme = .operator op)
      (free : inp.language.isReservedOperator op = false)
      (second : Reads inp r (atom expr) (k + 1) l right)
      (body : Reads inp r (announced "=") l j rhs) :
      ClauseForm inp r i j
        ⟨.ofText op,
          .app (.ref (.ofText op) none) [] [left, right] none, rhs⟩

theorem ClauseForm.le {c : Clause} (h : ClauseForm inp r i j c) :
    i ≤ j := by
  cases h with
  | function head names rest body =>
      have := head.lt
      have := plain_namedArgument.many.le names
      have := plain_patternAtom.many.le rest
      have := (plain_announced "=").le body
      omega
  | operator first _ _ second body =>
      have := plain_atom.le first
      have := plain_atom.le second
      have := (plain_announced "=").le body
      omega

theorem plain_functionClause : Plain functionClause :=
  plain_of functionClause_alike.same functionClause_inside

theorem plain_operatorClause : Plain operatorClause :=
  plain_of operatorClause_alike.same operatorClause_inside

theorem reads_clause_cases {c : Clause} (h : Reads inp r clause i j c) :
    ClauseForm inp r i j c := by
  have plain : ∀ p ∈ clauseAlternatives, Plain p :=
    List.forall_iff_forall_mem.1
      ⟨plain_functionClause, plain_operatorClause⟩
  obtain ⟨p, hp, h⟩ := reads_choice_cases plain h
  obtain ⟨s, u, start, stop, run⟩ := h.run
  rcases List.mem_cons.1 hp with rfl | hp
  · obtain ⟨target, k, s₁, head, at₁, run⟩ := plain_name.step start run
    obtain ⟨named, l, s₂, names, at₂, run⟩ :=
      plain_namedArgument.many.step at₁ run
    obtain ⟨args, m, s₃, rest, at₃, run⟩ :=
      plain_patternAtom.many.step at₂ run
    obtain ⟨rhs, n, s₄, body, at₄, run⟩ :=
      (plain_announced "=").step at₃ run
    obtain ⟨rfl, rfl⟩ := reads_pure_cases at₄ stop run
    exact .function (reads_name_cases head) names rest body
  · cases List.mem_singleton.1 hp
    obtain ⟨left, k, s₁, first, at₁, run⟩ := plain_atom.step start run
    obtain ⟨_, _, s₂, op, at₂, run⟩ := plain_operator.step at₁ run
    obtain ⟨right, l, s₃, second, at₃, run⟩ := plain_atom.step at₂ run
    obtain ⟨rhs, n, s₄, body, at₄, run⟩ :=
      (plain_announced "=").step at₃ run
    obtain ⟨⟨text, token, same, free⟩, rfl⟩ := reads_operator_cases op
    obtain ⟨rfl, rfl⟩ := reads_pure_cases at₄ stop run
    rw [same]
    exact .operator first token free second body

-- ====================================================== signatures

theorem declareType_ok {target : Name} {type closed : Term} {s u : State}
    (start : At i r s)
    (run : declareType target type inp s = .ok closed u) :
    closed = (r.generalise type).1 ∧ At i (r.declare target type) u := by
  obtain ⟨rfl, rfl⟩ := start
  cases run
  exact ⟨rfl, rfl, rfl⟩

/-- What a signature is written with, and what it declares. -/
inductive SignatureForm (inp : Input) (r : Registry) (i j : Nat) :
    Name × Term → Registry → Prop
  | intro {k : Nat} {target : Name} {type : Term}
      (named : NameForm inp i k target)
      (ascribed : Reads inp r (announced ":") k j type) :
      SignatureForm inp r i j (target, (r.generalise type).1)
        (r.declare target type)

theorem SignatureForm.le {typed : Name × Term}
    (h : SignatureForm inp r i j typed r') : i ≤ j := by
  cases h with
  | intro named ascribed =>
      have := named.lt
      have := (plain_announced ":").le ascribed
      omega

theorem SignatureForm.fixities {typed : Name × Term}
    (h : SignatureForm inp r i j typed r') : r'.fixities = r.fixities := by
  cases h
  rfl

theorem signatureForm_of_signature {typed : Name × Term} {s u : State}
    (start : At i r s) (run : signature inp s = .ok typed u) :
    SignatureForm inp r i u.cursor typed u.registry := by
  obtain ⟨target, k, s₁, named, at₁, run⟩ := plain_name.step start run
  obtain ⟨type, l, s₂, ascribed, at₂, run⟩ :=
    (plain_announced ":").step at₁ run
  obtain ⟨closed, s₃, declared, run⟩ := bind_ok run
  obtain ⟨rfl, at₃⟩ := declareType_ok at₂ declared
  cases run
  rw [at₃.1, at₃.2]
  exact .intro (reads_name_cases named) ascribed

/-- More signatures, each behind a bar. -/
inductive SignaturesForm (inp : Input) :
    Registry → Nat → Nat → List (Name × Term) → Registry → Prop
  | nil {r : Registry} {i : Nat} : SignaturesForm inp r i i [] r
  | cons {r r' r'' : Registry} {i j k : Nat} {typed : Name × Term}
      {rest : List (Name × Term)}
      (bar : (inp.tokenAt i).lexeme = .operator "|")
      (first : SignatureForm inp r (i + 1) k typed r')
      (more : SignaturesForm inp r' k j rest r'') :
      SignaturesForm inp r i j (typed :: rest) r''

theorem SignaturesForm.le {typed : List (Name × Term)}
    (h : SignaturesForm inp r i j typed r') : i ≤ j := by
  induction h with
  | nil => exact Nat.le_refl _
  | cons _ first _ ih =>
      have := first.le
      omega

theorem SignaturesForm.fixities {typed : List (Name × Term)}
    (h : SignaturesForm inp r i j typed r') :
    r'.fixities = r.fixities := by
  induction h with
  | nil => rfl
  | cons _ first _ ih => exact ih.trans first.fixities

theorem signaturesForm_of_many {typed : List (Name × Term)} {s u : State}
    (start : At i r s)
    (run : many (symbol "|" >>= fun _ => signature) inp s = .ok typed u) :
    SignaturesForm inp r i u.cursor typed u.registry := by
  have alike : Alike True expr expr false true
      (.upTo True Term.eraseBinding) (symbol "|" >>= fun _ => signature)
      (symbol "|" >>= fun _ => signature) :=
    .bind (.symbol _) fun _ _ _ => signature_alike
  induction typed generalizing i r s with
  | nil =>
      rcases many_ok alike run with
        ⟨-, cursor, registry⟩ | ⟨_, _, _, more, -⟩
      · rw [cursor, registry, start.1, start.2]
        exact .nil
      · cases more
  | cons first rest ih =>
      rcases many_ok alike run with ⟨none, -⟩ | ⟨_, v, _, same, one, more⟩
      · cases none
      · cases same
        obtain ⟨_, _, w, between, at_w, one⟩ :=
          (plain_symbol "|").step start one
        obtain ⟨bar, rfl⟩ := reads_symbol_cases between
        exact .cons bar (signatureForm_of_signature at_w one)
          (ih ⟨rfl, rfl⟩ more)

-- ====================================================== data types

/-- The type of the constructors' results. -/
def dataResult (target : Name) (params : List Name) : Term :=
  Term.applied (.ref target none) (params.map (Term.ref · none))

/-- The kind of a data type whose parameters are types. -/
def dataKind (params : List Name) : Term :=
  Term.arrows argumentBinder (params.map fun _ => .set none) (.set none)

theorem declareConstructors_ok {result : Term}
    {constructors : List (Name × List Term)} {typed : List (Name × Term)}
    {s u : State} (start : At i r s)
    (run : declareConstructors result constructors inp s = .ok typed u) :
    typed = (r.declareAll result constructors).1
      ∧ At i (r.declareAll result constructors).2 u := by
  induction constructors generalizing r s typed with
  | nil =>
      cases run
      exact ⟨rfl, start⟩
  | cons c rest ih =>
      obtain ⟨closed, v, declared, run⟩ := bind_ok run
      obtain ⟨others, w, more, run⟩ := bind_ok run
      cases run
      obtain ⟨rfl, at_v⟩ := declareType_ok start declared
      obtain ⟨rfl, at_w⟩ := ih at_v more
      exact ⟨rfl, at_w⟩

theorem plain_constructorByArguments : Plain constructorByArguments :=
  plain_name.bind fun _ => plain_atom.many.bind fun _ => plain_pure _

/-- What a constructor by its arguments is written with. -/
inductive ConstructorForm (inp : Input) (r : Registry) (i j : Nat) :
    Name × List Term → Prop
  | intro {k : Nat} {target : Name} {args : List Term}
      (named : NameForm inp i k target)
      (atoms : Reads inp r (many (atom expr)) k j args) :
      ConstructorForm inp r i j (target, args)

theorem reads_constructorByArguments_cases {c : Name × List Term}
    (h : Reads inp r constructorByArguments i j c) :
    ConstructorForm inp r i j c := by
  obtain ⟨target, k, named, h⟩ := reads_bind_cases plain_name
    (fun _ => plain_atom.many.bind fun _ => plain_pure _) h
  obtain ⟨args, l, atoms, last⟩ :=
    reads_bind_cases plain_atom.many (fun _ => plain_pure _) h
  obtain ⟨rfl, rfl⟩ := last.unique (reads_pure _)
  exact .intro (reads_name_cases named) atoms

/-- More constructors by their arguments, each behind a bar. -/
inductive ConstructorsForm (inp : Input) (r : Registry) :
    Nat → Nat → List (Name × List Term) → Prop
  | nil {i : Nat} : ConstructorsForm inp r i i []
  | cons {i j k : Nat} {c : Name × List Term}
      {rest : List (Name × List Term)}
      (bar : (inp.tokenAt i).lexeme = .operator "|")
      (first : ConstructorForm inp r (i + 1) k c)
      (more : ConstructorsForm inp r k j rest) :
      ConstructorsForm inp r i j (c :: rest)

theorem constructorsForm_of_many {cs : List (Name × List Term)}
    (h : Reads inp r (many (symbol "|" >>= fun _ => constructorByArguments))
      i j cs) : ConstructorsForm inp r i j cs := by
  have plain := (plain_symbol "|").bind fun _ => plain_constructorByArguments
  have alike : Alike True expr expr false true (.upTo True eraseArgs)
      (symbol "|" >>= fun _ => constructorByArguments)
      (symbol "|" >>= fun _ => constructorByArguments) :=
    .bind (.symbol _) fun _ _ _ => constructorByArguments_alike
  replace h := readsAll_of_many plain alike h
  induction h with
  | nil => exact .nil
  | cons next _ _ ih =>
      obtain ⟨_, _, between, read⟩ := reads_bind_cases (plain_symbol "|")
        (fun _ => plain_constructorByArguments) next
      obtain ⟨bar, rfl⟩ := reads_symbol_cases between
      exact .cons bar (reads_constructorByArguments_cases read) ih

/-- Constructors by their arguments, with bars between them. -/
theorem reads_constructors_cases {cs : List (Name × List Term)}
    (h : Reads inp r (sepBy1 constructorByArguments (symbol "|")) i j cs) :
    ∃ c k rest, cs = c :: rest ∧ ConstructorForm inp r i k c
      ∧ ConstructorsForm inp r k j rest := by
  obtain ⟨c, k, rest, rfl, first, more⟩ :=
    reads_sepBy1_cases plain_constructorByArguments (plain_symbol _) h
  exact ⟨c, k, rest, rfl, reads_constructorByArguments_cases first,
    constructorsForm_of_many more⟩

-- ==================================================== declarations

/-- What a declaration is written with, without its semicolon, and the
registry it leaves. -/
inductive DeclForm (inp : Input) (r : Registry) (i j : Nat) :
    Decl → Registry → Prop
  | fixity {fix : Fixity} {symbols : List String}
      (word : (inp.tokenAt i).lexeme = .reserved fix.assoc.keyword)
      (prec : (inp.tokenAt (i + 1)).lexeme = .natural fix.prec)
      (listed : Listed inp (i + 1 + 1) j symbols) :
      DeclForm inp r i j (.fixity fix symbols)
        (r.addFixities (symbols.map fun op => ⟨fix, op⟩))
  | signature {target : Name} {closed : Term} {r' : Registry}
      (h : SignatureForm inp r i j (target, closed) r') :
      DeclForm inp r i j (.signature target closed) r'
  | dataBySignatures {k l m : Nat} {target : Name} {kind : Term}
      {typed : Name × Term} {rest : List (Name × Term)}
      {r' r'' : Registry}
      (word : (inp.tokenAt i).lexeme = .reserved "data")
      (named : NameForm inp (i + 1) k target)
      (ascribed : Reads inp r (announced ":") k l kind)
      (begins : (inp.tokenAt l).lexeme = .reserved "where")
      (first : SignatureForm inp (r.declare target kind) (l + 1) m typed r')
      (more : SignaturesForm inp r' m j rest r'') :
      DeclForm inp r i j
        (.data ⟨target, (r.generalise kind).1, typed :: rest⟩) r''
  | dataByArguments {k l : Nat} {target : Name} {params : List Name}
      {constructors : List (Name × List Term)}
      {typed : List (Name × Term)} {r' : Registry}
      (word : (inp.tokenAt i).lexeme = .reserved "data")
      (named : NameForm inp (i + 1) k target)
      (parameters : Reads inp r (many identName) k l params)
      (equals : (inp.tokenAt l).lexeme = .operator "=")
      (listed : Reads inp r (sepBy1 constructorByArguments (symbol "|"))
        (l + 1) j constructors)
      (declared : (r.declare target (dataKind params)).declareAll
        (dataResult target params) constructors = (typed, r')) :
      DeclForm inp r i j
        (.data ⟨target, (r.generalise (dataKind params)).1, typed⟩) r'
  | clause {c : Clause} (h : ClauseForm inp r i j c) :
      DeclForm inp r i j (.clauses Decl.ungrouped [c]) r

theorem DeclForm.le {d : Decl} (h : DeclForm inp r i j d r') : i ≤ j := by
  cases h with
  | fixity _ _ listed =>
      have := listed.lt
      omega
  | signature h => exact h.le
  | dataBySignatures _ named ascribed _ first more =>
      have := named.lt
      have := (plain_announced ":").le ascribed
      have := first.le
      have := more.le
      omega
  | dataByArguments _ named parameters _ listed =>
      have := named.lt
      have := plain_identName.many.le parameters
      have := (plain_constructorByArguments.sepBy1 (plain_symbol "|")).le
        listed
      omega
  | clause h => exact h.le

section
variable {d : Decl} {s u : State} (start : At i r s)
include start

theorem declForm_of_fixityDeclaration
    (run : fixityDeclaration inp s = .ok d u) :
    DeclForm inp r i u.cursor d u.registry := by
  obtain ⟨assoc, _, s₁, opening, at₁, run⟩ :=
    plain_associativity.step start run
  obtain ⟨prec, _, s₂, number, at₂, run⟩ := plain_natural.step at₁ run
  obtain ⟨symbols, k, s₃, listed, at₃, run⟩ :=
    (plain_operatorSymbol.sepBy1 (plain_mark _)).step at₂ run
  obtain ⟨word, rfl⟩ := reads_associativity_cases opening
  obtain ⟨value, rfl⟩ := reads_natural_cases number
  cases run
  obtain ⟨rfl, rfl⟩ := at₃
  exact .fixity word value (reads_operators_cases listed)

theorem declForm_of_signatureDeclaration
    (run : signatureDeclaration inp s = .ok d u) :
    DeclForm inp r i u.cursor d u.registry := by
  obtain ⟨⟨target, closed⟩, v, signed, run⟩ := bind_ok run
  cases run
  exact .signature (signatureForm_of_signature start signed)

theorem declForm_of_dataBySignatures
    (run : dataBySignatures inp s = .ok d u) :
    DeclForm inp r i u.cursor d u.registry := by
  obtain ⟨_, _, s₁, opening, at₁, run⟩ := (plain_reserved _).step start run
  obtain ⟨target, k, s₂, named, at₂, run⟩ := plain_name.step at₁ run
  obtain ⟨kind, l, s₃, ascribed, at₃, run⟩ :=
    (plain_announced ":").step at₂ run
  obtain ⟨_, _, s₄, middle, at₄, run⟩ := (plain_reserved _).step at₃ run
  obtain ⟨closed, s₅, declared, run⟩ := bind_ok run
  obtain ⟨constructors, s₆, signed, run⟩ := bind_ok run
  cases run
  obtain ⟨typed, s₇, first, signed⟩ := bind_ok signed
  obtain ⟨rest, s₈, more, signed⟩ := bind_ok signed
  cases signed
  obtain ⟨word, rfl⟩ := reads_reserved_cases opening
  obtain ⟨begins, rfl⟩ := reads_reserved_cases middle
  obtain ⟨rfl, at₅⟩ := declareType_ok at₄ declared
  exact .dataBySignatures word (reads_name_cases named) ascribed begins
    (signatureForm_of_signature at₅ first)
    (signaturesForm_of_many ⟨rfl, rfl⟩ more)

theorem declForm_of_dataByArguments
    (run : dataByArguments inp s = .ok d u) :
    DeclForm inp r i u.cursor d u.registry := by
  obtain ⟨_, _, s₁, opening, at₁, run⟩ := (plain_reserved _).step start run
  obtain ⟨target, k, s₂, named, at₂, run⟩ := plain_name.step at₁ run
  obtain ⟨params, l, s₃, parameters, at₃, run⟩ :=
    plain_identName.many.step at₂ run
  obtain ⟨_, _, s₄, middle, at₄, run⟩ := (plain_symbol _).step at₃ run
  obtain ⟨constructors, m, s₅, listed, at₅, run⟩ :=
    (plain_constructorByArguments.sepBy1 (plain_symbol _)).step at₄ run
  obtain ⟨closed, s₆, declared, run⟩ := bind_ok run
  obtain ⟨typed, s₇, signed, run⟩ := bind_ok run
  cases run
  obtain ⟨word, rfl⟩ := reads_reserved_cases opening
  obtain ⟨equals, rfl⟩ := reads_symbol_cases middle
  obtain ⟨rfl, at₆⟩ := declareType_ok at₅ declared
  obtain ⟨rfl, at₇⟩ := declareConstructors_ok at₆ signed
  rw [at₇.1, at₇.2]
  exact .dataByArguments word (reads_name_cases named) parameters equals
    listed rfl

theorem declForm_of_clauseDeclaration
    (run : clauseDeclaration inp s = .ok d u) :
    DeclForm inp r i u.cursor d u.registry := by
  have plain : Plain clause := plain_choice <|
    List.forall_iff_forall_mem.1
      ⟨plain_functionClause, plain_operatorClause⟩
  obtain ⟨c, k, s₁, read, ⟨rfl, rfl⟩, run⟩ := plain.step start run
  cases run
  exact .clause (reads_clause_cases read)

/-- A declaration has one of its forms. -/
theorem declForm_of_declaration (run : declaration inp s = .ok d u) :
    DeclForm inp r i u.cursor d u.registry := by
  have steady : ∀ p ∈ declarationAlternatives, Steady p :=
    List.forall_iff_forall_mem.1
      ⟨steady_of_stays fixityDeclaration_inside,
        steady_of_stays signatureDeclaration_inside,
        steady_of_stays dataDeclaration_inside,
        steady_of_stays clauseDeclaration_inside⟩
  have steady_data : ∀ p ∈ dataAlternatives, Steady p :=
    List.forall_iff_forall_mem.1
      ⟨steady_of_stays dataBySignatures_inside,
        steady_of_stays dataByArguments_inside⟩
  obtain ⟨p, hp, s', cursor, registry, run⟩ := choice_ok steady run
  have start : At i r s' :=
    ⟨cursor.trans start.1, registry.trans start.2⟩
  simp only [declarationAlternatives, List.mem_cons, List.not_mem_nil,
    or_false] at hp
  rcases hp with rfl | rfl | rfl | rfl
  · exact declForm_of_fixityDeclaration start run
  · exact declForm_of_signatureDeclaration start run
  · obtain ⟨q, hq, s'', cursor, registry, run⟩ := choice_ok steady_data run
    have start : At i r s'' :=
      ⟨cursor.trans start.1, registry.trans start.2⟩
    rcases List.mem_cons.1 hq with rfl | hq
    · exact declForm_of_dataBySignatures start run
    · cases List.mem_singleton.1 hq
      exact declForm_of_dataByArguments start run
  · exact declForm_of_clauseDeclaration start run

end

-- ========================================================= modules

/-- Declarations up to the end of the input, each with its semicolon and
completed by what is declared behind it. -/
inductive ItemsForm (inp : Input) :
    Registry → Nat → Nat → List Decl → Registry → Prop
  | nil {r : Registry} {i : Nat}
      (ended : (inp.tokenAt i).kind = .eof) : ItemsForm inp r i i [] r
  | cons {r r' r'' : Registry} {i j k : Nat} {d : Decl} {ds : List Decl}
      (first : DeclForm inp r i k d r')
      (semicolon : (inp.tokenAt k).kind = .mark .semicolon)
      (more : ItemsForm inp r' (k + 1) j ds r'') :
      ItemsForm inp r i j (d.mapTerms r'.supply :: ds) r''

theorem ItemsForm.ended {ds : List Decl} (h : ItemsForm inp r i j ds r') :
    (inp.tokenAt j).kind = .eof := by
  induction h with
  | nil ended => exact ended
  | cons _ _ _ ih => exact ih

theorem declForm_of_item {d : Decl} {s u : State} (start : At i r s)
    (run : item inp s = .ok d u) :
    ∃ k d', DeclForm inp r i k d' u.registry
      ∧ (inp.tokenAt k).kind = .mark .semicolon ∧ u.cursor = k + 1
      ∧ d = d'.mapTerms u.registry.supply := by
  obtain ⟨d', v, declared, run⟩ := bind_ok run
  obtain ⟨_, w, ended, run⟩ := bind_ok run
  cases run
  obtain ⟨semicolon, rfl⟩ := mark_ok ended
  have registry := registry_past inp v
  refine ⟨v.cursor, d', ?_, semicolon, ?_, rfl⟩
  · rw [registry]
    exact declForm_of_declaration start declared
  · rw [past, if_neg (by simp [semicolon])]

theorem itemsForm_of_loop {ds : List Decl} {s u : State}
    (start : At i r s) (run : loop item? inp s = .ok ds u) :
    ItemsForm inp r i u.cursor ds u.registry := by
  replace run := rounds_of_loop run
  induction run generalizing i r with
  | none step =>
      obtain ⟨ended, rfl⟩ := item?_ok_none step
      obtain ⟨rfl, rfl⟩ := start
      exact .nil ended
  | last step stuck =>
      exact absurd (remaining_lt_of_item (item?_ok_some step).2) stuck
  | more step _ _ ih =>
      obtain ⟨k, d', form, semicolon, cursor, rfl⟩ :=
        declForm_of_item start (item?_ok_some step).2
      exact .cons form semicolon (ih ⟨cursor, rfl⟩)

/-- A module is its declarations one after another. -/
theorem itemsForm_of_moduleItems {ds : List Decl} {s u : State}
    (start : At i r s) (run : moduleItems inp s = .ok ds u) :
    ItemsForm inp r i u.cursor ds u.registry ∧ ds ≠ [] := by
  obtain ⟨d, v, first, run⟩ := bind_ok run
  obtain ⟨rest, w, more, run⟩ := bind_ok run
  cases run
  obtain ⟨k, d', form, semicolon, cursor, rfl⟩ := declForm_of_item start first
  exact ⟨.cons form semicolon (itemsForm_of_loop ⟨cursor, rfl⟩ more),
    List.cons_ne_nil _ _⟩

end Grammar

end DepLang

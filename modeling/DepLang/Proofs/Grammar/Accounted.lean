/-
Every free operator of a module has a reason to stand where it does. It
stands alone in parentheses, it is listed in a fixity declaration, an
infix clause defines it, or it is known there: by the table that the
module is read under, or by a fixity declaration that is complete before
it. What is declared later counts for nothing.

The table in force changes with the declarations, so what a step keeps
is that every operator in it is known at the place reached
(`ItemsForm.accounted`).
-/
import DepLang.Proofs.Grammar.DeclCases
import DepLang.Proofs.Grammar.Vouched
import DepLang.Proofs.Registry.Grows

namespace DepLang

open DepLang.Grammar DepLang.Parser

-- ========================================================== places

namespace Input

/-- A declaration can start here: in front, or behind a semicolon. -/
def Begins (inp : Input) (i : Nat) : Prop :=
  i = 0 ∨ ∃ k, k + 1 = i ∧ (inp.tokenAt k).kind = .mark .semicolon

/-- A fixity declaration, up to its semicolon. -/
structure FixityAt (inp : Input) (i j : Nat) (fix : Fixity)
    (symbols : List String) : Prop where
  begins : inp.Begins i
  word : (inp.tokenAt i).lexeme = .reserved fix.assoc.keyword
  prec : (inp.tokenAt (i + 1)).lexeme = .natural fix.prec
  listed : Listed inp (i + 1 + 1) j symbols
  semicolon : (inp.tokenAt j).kind = .mark .semicolon

/-- The operator is in the table from the start, or a fixity declaration
for it ends before the place. -/
def Known (inp : Input) (table : FixityTable) (k : Nat) (op : String) :
    Prop :=
  (∃ e ∈ table, e.symbol = op)
    ∨ ∃ i j fix symbols, inp.FixityAt i j fix symbols ∧ j < k
      ∧ op ∈ symbols

/-- An infix clause, up to its semicolon, with the operator it defines
at `k` between two atoms. They are read with known operators only. -/
structure InfixClauseAt (inp : Input) (table : FixityTable) (i k : Nat) :
    Prop where
  begins : inp.Begins i
  sides : ∃ r l m left right rhs,
    (∀ e ∈ r.fixities, inp.Known table i e.symbol)
    ∧ Reads inp r (atom expr) i k left
    ∧ Reads inp r (atom expr) (k + 1) l right
    ∧ Reads inp r definiens l m rhs
    ∧ (inp.tokenAt m).kind = .mark .semicolon

/-- The reasons for an operator to stand at a place. -/
inductive Accounted (inp : Input) (table : FixityTable) (k : Nat)
    (op : String) : Prop
  | enclosed (h : inp.Enclosed k)
  | listed {i j : Nat} {fix : Fixity} {symbols : List String}
      (h : inp.FixityAt i j fix symbols) (after : i < k) (before : k < j)
  | defined {i : Nat} (h : inp.InfixClauseAt table i k)
  | known (h : inp.Known table k op)

variable {inp : Input} {table : FixityTable} {i j k : Nat} {op : String}

/-- What is known stays known. -/
theorem Known.later (h : inp.Known table i op) (le : i ≤ k) :
    inp.Known table k op := by
  rcases h with known | ⟨i', j', fix, symbols, declared, before, member⟩
  · exact .inl known
  · exact .inr ⟨i', j', fix, symbols, declared, by omega, member⟩

/-- Where the operators in force are known, what they vouch for is
accounted for. -/
theorem Vouched.accounted {current : FixityTable}
    (h : inp.Vouched current i j)
    (known : ∀ e ∈ current, inp.Known table i e.symbol)
    (from_i : i ≤ k) (to_j : k < j)
    (token : (inp.tokenAt k).lexeme = .operator op)
    (free : inp.language.isReservedOperator op = false) :
    inp.Accounted table k op := by
  rcases h k op from_i to_j token free with ⟨e, he, rfl⟩ | enclosed
  · exact .known ((known e he).later from_i)
  · exact .enclosed enclosed

end Input

namespace Grammar

open Input

variable {inp : Input} {r r' : Registry} {i j : Nat} {t : Term}

-- =========================================================== rules

theorem vouched_word {word : String}
    (token : (inp.tokenAt i).lexeme = .reserved word)
    {table : FixityTable} : inp.Vouched table i (i + 1) :=
  vouched_of_kind (by simp [Token.kind, token, Lexeme.kind])

theorem vouched_parameters {params : List Name}
    (h : Reads inp r (many identName) i j params) :
    inp.Vouched r.fixities i j := by
  refine vouched_many plain_identName identName_alike h
    fun k l x _ _ read => ?_
  obtain ⟨text, token, -, rfl⟩ := reads_identName_cases read
  exact vouched_ident token

section
variable (standard : inp.language = .standard)
include standard

theorem nested_vouched : Nested inp r i j :=
  fun _ _ _ _ _ read => vouched_expr standard read

theorem vouched_patternAtom (h : Reads inp r (patternAtom expr) i j t) :
    inp.Vouched r.fixities i j := by
  cases reads_patternAtom_cases h with
  | atom h => exact vouched_atom (nested_vouched standard) h
  | hidden dot inner =>
      exact (vouched_reserved standard dot).append
        (vouched_atom (nested_vouched standard) inner)

theorem vouched_patternAtoms {args : List Term}
    (h : Reads inp r (many (patternAtom expr)) i j args) :
    inp.Vouched r.fixities i j :=
  vouched_many plain_patternAtom patternAtom_alike h
    fun _ _ _ _ _ => vouched_patternAtom standard

theorem SignatureForm.vouched {typed : Name × Term}
    (h : SignatureForm inp r i j typed r') :
    inp.Vouched r.fixities i j := by
  cases h with
  | intro named ascribed =>
      exact (named.vouched _).append <|
        vouched_announced standard (by decide)
          (nested_vouched standard) ascribed

theorem SignaturesForm.vouched {typed : List (Name × Term)}
    (h : SignaturesForm inp r i j typed r') :
    inp.Vouched r.fixities i j := by
  induction h with
  | nil => exact vouched_nil
  | cons bar first more ih =>
      rw [first.fixities] at ih
      exact (vouched_reserved standard bar).append <|
        (first.vouched standard).append ih

theorem ConstructorForm.vouched {c : Name × List Term}
    (h : ConstructorForm inp r i j c) : inp.Vouched r.fixities i j := by
  cases h with
  | intro named atoms =>
      exact (named.vouched _).append
        (vouched_atoms (nested_vouched standard) atoms)

theorem ConstructorsForm.vouched {cs : List (Name × List Term)}
    (h : ConstructorsForm inp r i j cs) : inp.Vouched r.fixities i j := by
  induction h with
  | nil => exact vouched_nil
  | cons bar first more ih =>
      exact (vouched_reserved standard bar).append <|
        (first.vouched standard).append ih

theorem vouched_constructors {cs : List (Name × List Term)}
    (h : Reads inp r (sepBy1 constructorByArguments (symbol "|")) i j cs) :
    inp.Vouched r.fixities i j := by
  obtain ⟨c, k, rest, -, first, more⟩ := reads_constructors_cases h
  exact (first.vouched standard).append (more.vouched standard)

end

-- ==================================================== declarations

section
variable {table : FixityTable} {d : Decl} {k : Nat} {op : String}

/-- What is in force behind a declaration is known there. -/
theorem DeclForm.known (h : DeclForm inp r i j d r') (begins : inp.Begins i)
    (semicolon : (inp.tokenAt j).kind = .mark .semicolon)
    (known : ∀ e ∈ r.fixities, inp.Known table i e.symbol) :
    ∀ e ∈ r'.fixities, inp.Known table (j + 1) e.symbol := by
  have le := h.le
  have kept : ∀ e ∈ r.fixities, inp.Known table (j + 1) e.symbol :=
    fun e he => (known e he).later (by omega)
  cases h with
  | @fixity fix symbols word prec listed =>
      intro e he
      have he := (FixityTable.perm_add _ r.fixities).mem_iff.1 he
      rcases List.mem_append.1 he with new | old
      · obtain ⟨symbol, member, rfl⟩ := List.mem_map.1 new
        exact .inr ⟨i, j, fix, symbols,
          ⟨begins, word, prec, listed, semicolon⟩, by omega, member⟩
      · exact kept e old
  | signature h => rwa [h.fixities]
  | dataBySignatures _ _ _ _ first more =>
      rwa [more.fixities, first.fixities]
  | dataByArguments _ _ _ _ _ declared =>
      rwa [← congrArg (·.2.fixities) declared,
        Registry.fixities_declareAll]
  | clause h => exact kept

/-- A declaration accounts for its operators. -/
theorem DeclForm.accounted (standard : inp.language = .standard)
    (h : DeclForm inp r i j d r') (begins : inp.Begins i)
    (semicolon : (inp.tokenAt j).kind = .mark .semicolon)
    (known : ∀ e ∈ r.fixities, inp.Known table i e.symbol)
    (from_i : i ≤ k) (to_j : k < j)
    (token : (inp.tokenAt k).lexeme = .operator op)
    (free : inp.language.isReservedOperator op = false) :
    inp.Accounted table k op := by
  have vouched (h : inp.Vouched r.fixities i j) :
      inp.Accounted table k op :=
    h.accounted known from_i to_j token free
  cases h with
  | fixity word prec listed =>
      refine .listed ⟨begins, word, prec, listed, semicolon⟩ ?_ to_j
      refine Nat.lt_of_le_of_ne from_i fun same => ?_
      subst same
      rw [token] at word
      cases word
  | signature h => exact vouched (h.vouched standard)
  | dataBySignatures word named ascribed begins first more =>
      have typed := first.vouched standard
      have others := more.vouched standard
      rw [first.fixities] at others
      refine vouched ?_
      exact (vouched_word word).append <| (named.vouched _).append <|
        (vouched_announced standard (by decide)
          (nested_vouched standard) ascribed).append <|
        (vouched_word begins).append <| typed.append others
  | dataByArguments word named parameters equals listed =>
      refine vouched ?_
      exact (vouched_word word).append <| (named.vouched _).append <|
        (vouched_parameters parameters).append <|
        (vouched_reserved standard equals).append <|
        vouched_constructors standard listed
  | clause h =>
      cases h with
      | function head names rest body =>
          refine vouched ?_
          exact (head.vouched _).append <|
            (vouched_namedArguments standard (nested_vouched standard)
              names).append <|
            (vouched_patternAtoms standard rest).append <|
            vouched_announced standard (by decide)
              (nested_vouched standard) body
      | @operator m l op' left right rhs first infix_token free' second body =>
          rcases Nat.lt_trichotomy k m with before | rfl | behind
          · have left_vouched := vouched_atom (nested_vouched standard) first
            exact left_vouched.accounted known from_i before token free
          · exact .defined ⟨begins, r, l, j, left, right, rhs, known, first,
              second, body, semicolon⟩
          · have start := plain_atom.le first
            have rest_vouched :=
              (vouched_atom (nested_vouched standard) second).append
                (vouched_announced standard (by decide)
                  (nested_vouched standard) body)
            refine rest_vouched.accounted (fun e he => ?_) behind to_j token
              free
            exact (known e he).later (by omega)

end

-- ========================================================= modules

/-- A module accounts for the operators up to its end. -/
theorem ItemsForm.accounted (standard : inp.language = .standard)
    {table : FixityTable} {ds : List Decl} (h : ItemsForm inp r i j ds r')
    (begins : inp.Begins i)
    (known : ∀ e ∈ r.fixities, inp.Known table i e.symbol)
    {k : Nat} {op : String} (from_i : i ≤ k) (to_j : k < j)
    (token : (inp.tokenAt k).lexeme = .operator op)
    (free : inp.language.isReservedOperator op = false) :
    inp.Accounted table k op := by
  induction h with
  | nil => omega
  | @cons r r' r'' i j l d ds first semicolon more ih =>
      rcases Nat.lt_trichotomy k l with inside | rfl | behind
      · exact first.accounted standard begins semicolon known from_i inside
          token free
      · rw [Token.kind, token] at semicolon
        cases semicolon
      · exact ih (.inr ⟨l, rfl, semicolon⟩)
          (first.known begins semicolon known) behind to_j

end Grammar

end DepLang

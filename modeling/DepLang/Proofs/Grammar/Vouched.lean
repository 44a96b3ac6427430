/-
Free operators in expressions. Every free operator among the tokens of
an expression is in the fixity table, or stands alone in parentheses:
nothing else that an expression is written with is an operator but the
reserved ones. This follows the cases of what is read, rule by rule; the
tokens of a sequence are vouched for piece by piece.
-/
import DepLang.Proofs.Grammar.Cases
import DepLang.Proofs.Operators.Simple

namespace DepLang

open DepLang.Parser

-- ========================================================== tokens

/-- The token stands alone in parentheses. -/
structure Input.Enclosed (inp : Input) (k : Nat) : Prop where
  opening : ∃ i, i + 1 = k ∧ (inp.tokenAt i).kind = .mark .lparen
  closing : (inp.tokenAt (k + 1)).kind = .mark .rparen

/-- Every free operator between two places is in the table or stands
alone in parentheses. -/
def Input.Vouched (inp : Input) (table : FixityTable) (i j : Nat) : Prop :=
  ∀ k op, i ≤ k → k < j → (inp.tokenAt k).lexeme = .operator op →
    inp.language.isReservedOperator op = false →
    (∃ e ∈ table, e.symbol = op) ∨ inp.Enclosed k

namespace Input

variable {inp : Input} {table : FixityTable} {i j k : Nat}

theorem vouched_nil : inp.Vouched table i i :=
  fun k op from_i to_i => by omega

theorem Vouched.append (h : inp.Vouched table i j)
    (h' : inp.Vouched table j k) : inp.Vouched table i k := by
  intro l op from_i to_k token free
  by_cases before : l < j
  · exact h l op from_i before token free
  · exact h' l op (by omega) to_k token free

/-- A single token, if it is vouched for. -/
theorem vouched_single
    (h : ∀ op, (inp.tokenAt i).lexeme = .operator op →
      inp.language.isReservedOperator op = false →
      (∃ e ∈ table, e.symbol = op) ∨ inp.Enclosed i) :
    inp.Vouched table i (i + 1) := by
  intro k op from_i to_i token free
  obtain rfl : k = i := by omega
  exact h op token free

/-- A token that is no operator. -/
theorem vouched_of_kind (other : (inp.tokenAt i).kind ≠ .operator) :
    inp.Vouched table i (i + 1) :=
  vouched_single fun op token => by
    rw [Token.kind, token] at other
    exact absurd rfl other

theorem vouched_mark {m : Mark} (token : (inp.tokenAt i).kind = .mark m) :
    inp.Vouched table i (i + 1) :=
  vouched_of_kind (by simp [token])

theorem vouched_ident {text : String}
    (token : (inp.tokenAt i).lexeme = .ident text) :
    inp.Vouched table i (i + 1) :=
  vouched_of_kind (by simp [Token.kind, token, Lexeme.kind])

/-- A reserved operator of the language. -/
theorem vouched_reserved (standard : inp.language = .standard) {op : String}
    (token : (inp.tokenAt i).lexeme = .operator op)
    (reserved : Language.standard.isReservedOperator op = true
      := by decide) :
    inp.Vouched table i (i + 1) :=
  vouched_single fun op' token' free => by
    rw [token] at token'
    cases token'
    rw [standard, reserved] at free
    cases free

end Input

namespace Grammar

open Input

variable {inp : Input} {r : Registry} {i j : Nat} {t : Term}

-- =========================================================== rules

theorem NameForm.vouched {x : Name} (h : NameForm inp i j x)
    (table : FixityTable) : inp.Vouched table i j := by
  cases h with
  | word token stop =>
      rw [stop]
      exact vouched_ident token
  | operator opening token free closing stop =>
      have enclosed : inp.Enclosed (i + 1) := ⟨⟨i, rfl, opening⟩, closing⟩
      rw [stop]
      exact (vouched_mark opening).append <|
        (vouched_single fun _ _ _ => .inr enclosed).append
          (vouched_mark closing)

/-- Expressions that start behind a place and end no later than another
are vouched for. -/
def Nested (inp : Input) (r : Registry) (i j : Nat) : Prop :=
  ∀ i' j' t', i < i' → j' ≤ j → Reads inp r expr i' j' t' →
    inp.Vouched r.fixities i' j'

theorem Nested.mono {i' j' : Nat} (h : Nested inp r i j) (le : i ≤ i')
    (le' : j' ≤ j) : Nested inp r i' j' :=
  fun k l t later sooner => h k l t (by omega) (by omega)

theorem vouched_atom (nested : Nested inp r i j)
    (h : Reads inp r (atom expr) i j t) : inp.Vouched r.fixities i j := by
  cases reads_atom_cases h with
  | name named => exact named.vouched _
  | hole token stop =>
      rw [stop]
      exact vouched_mark token
  | set token stop =>
      rw [stop]
      exact vouched_of_kind (by simp [Token.kind, token, Lexeme.kind])
  | quote opening inner closing stop | parens opening inner closing stop =>
      subst stop
      exact (vouched_mark opening).append <|
        (nested _ _ _ (by omega) (by omega) inner).append
          (vouched_mark closing)

/-- What is read over and over is vouched for if each piece is. -/
theorem vouched_many {α : Type} {p : Parser α} {R : Likeness α}
    (plain : Plain p) (alike : Alike True expr expr false true R p p)
    {table : FixityTable} {as : List α}
    (h : Reads inp r (many p) i j as)
    (each : ∀ k l a, i ≤ k → l ≤ j → Reads inp r p k l a →
      inp.Vouched table k l) : inp.Vouched table i j := by
  replace h := readsAll_of_many plain alike h
  induction h with
  | nil => exact vouched_nil
  | cons first less more ih =>
      exact (each _ _ _ (Nat.le_refl _) more.le first).append
        (ih fun k' l' a' from_k to_j => each k' l' a' (by omega) to_j)

theorem vouched_atoms {args : List Term} (nested : Nested inp r i j)
    (h : Reads inp r (many (atom expr)) i j args) :
    inp.Vouched r.fixities i j :=
  vouched_many plain_atom atom_alike h fun _ _ _ from_i to_j read =>
    vouched_atom (nested.mono from_i to_j) read

section
variable (standard : inp.language = .standard)
include standard

theorem vouched_namedArgument {x : Name × Term} (nested : Nested inp r i j)
    (h : Reads inp r (namedArgument expr) i j x) :
    inp.Vouched r.fixities i j := by
  cases reads_namedArgument_cases h with
  | itself opening target closing stop =>
      rw [stop]
      exact (vouched_mark opening).append <|
        (vouched_ident target).append (vouched_mark closing)
  | value opening target equals inner closing stop =>
      subst stop
      exact (vouched_mark opening).append <| (vouched_ident target).append <|
        (vouched_reserved standard equals).append <|
        (nested _ _ _ (by omega) (by omega) inner).append
          (vouched_mark closing)

theorem vouched_namedArguments {named : List (Name × Term)}
    (nested : Nested inp r i j)
    (h : Reads inp r (many (namedArgument expr)) i j named) :
    inp.Vouched r.fixities i j :=
  vouched_many plain_namedArgument namedArgument_alike h
    fun _ _ _ from_i to_j read =>
      vouched_namedArgument standard (nested.mono from_i to_j) read

theorem BinderForm.vouched {opening closing : Mark} {text : String}
    {type body : Term} (nested : Nested inp r i j)
    (h : BinderForm inp r opening closing i j text type body) :
    inp.Vouched r.fixities i j := by
  obtain ⟨k, domain, closes, maps, inner⟩ := h.rest
  have less := lt_of_reads_expr domain
  have less' := lt_of_reads_expr inner
  exact (vouched_mark h.opens).append <| (vouched_ident h.target).append <|
    (vouched_reserved standard h.colon).append <|
    (nested _ _ _ (by omega) (by omega) domain).append <|
    (vouched_mark closes).append <|
    (vouched_reserved standard maps).append
      (nested _ _ _ (by omega) (by omega) inner)

/-- An announced expression, vouched for with what announces it. -/
theorem vouched_announced {op : String}
    (reserved : Language.standard.isReservedOperator op = true)
    (nested : Nested inp r i j) (h : Reads inp r (announced op) i j t) :
    inp.Vouched r.fixities i j := by
  obtain ⟨token, inner⟩ := reads_announced_cases h
  exact (vouched_reserved standard token reserved).append
    (nested _ _ _ (by omega) (by omega) inner)

theorem vouched_operand (nested : Nested inp r i j)
    (h : Reads inp r (operand expr) i j t) :
    inp.Vouched r.fixities i j := by
  cases reads_operand_cases h with
  | atom h => exact vouched_atom nested h
  | @app k l _ _ _ head names rest =>
      obtain ⟨a, m, as, -, first, more⟩ := reads_many1_cases plain_atom rest
      have := plain_atom.le head
      have := plain_namedArgument.many.le names
      have := plain_atom.le first
      have := plain_atom.many.le more
      exact (vouched_atom (nested.mono (by omega) (by omega)) head).append <|
        (vouched_namedArguments standard
          (nested.mono (by omega) (by omega)) names).append <|
        (vouched_atom (nested.mono (by omega) (by omega)) first).append
          (vouched_atoms (nested.mono (by omega) (by omega)) more)
  | @lambda _ k _ _ opening target domain maps inner =>
      have := lt_of_reads_expr inner
      have type : inp.Vouched r.fixities (i + 1 + 1) k := by
        rcases reads_optional_cases (plain_announced ":") domain with
          given | ⟨-, rfl⟩
        · exact vouched_announced standard (by decide)
            (nested.mono (by omega) (by omega)) given
        · exact vouched_nil
      have := ((plain_announced ":").optional _).le domain
      exact (vouched_reserved standard opening).append <|
        (vouched_ident target).append <| type.append <|
        (vouched_reserved standard maps).append
          (nested _ _ _ (by omega) (by omega) inner)
  | explicit binder => exact binder.vouched standard nested
  | implicit binder => exact binder.vouched standard nested

end

-- ========================================================== chains

/-- Whatever the level offers is vouched for. -/
def OffersVouched (inp : Input) (table : FixityTable) (level : Level) :
    Prop :=
  ∀ k op, level.operator? (inp.tokenAt k).lexeme = some op →
    inp.Vouched table k (k + 1)

/-- The levels of a table offer what is in the table, equality and the
arrow. -/
theorem offersVouched (standard : inp.language = .standard)
    (table : FixityTable) :
    ∀ level ∈ table.levels.reverse, OffersVouched inp table level := by
  intro level member k op offered
  obtain ⟨token, ⟨-, arrow⟩ | ⟨-, equality | known⟩⟩ :=
    FixityTable.of_operator?_levels member offered
  · exact vouched_reserved standard (token.trans (by rw [arrow]))
  · exact vouched_reserved standard (token.trans (by rw [equality]))
  · refine vouched_single fun symbol token' free => .inl ?_
    rw [token] at token'
    cases token'
    exact known

/-- The free operators of an expression are in the fixity table, or stand
alone in parentheses. -/
theorem vouched_expr (standard : inp.language = .standard)
    (h : Reads inp r expr i j t) : inp.Vouched r.fixities i j := by
  refine reads_operand_induction
    (Q := fun i j _ => inp.Vouched r.fixities i j)
    (fun _ _ _ nested operand => vouched_operand standard nested operand)
    ?_ h
  intro level member _ k _ op _ _ _ _ token first second
  have between := offersVouched standard r.fixities level member k op token
  exact first.append (between.append second)

end Grammar

end DepLang

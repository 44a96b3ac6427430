/-
What the forms of expressions read, one by one: the atoms, applications,
lambdas and function types. Each reads from the lexemes that its form
asks for what its parts read between them, because every alternative
before it refuses: most do at the first token. A function type that
names its argument starts like an expression in parentheses and is told
apart by the colon after the name.
-/
import DepLang.Proofs.Reader.Whole

namespace DepLang.Grammar

open DepLang.Parser

variable {inp : Input} {r : Registry} {e : Parser Term} {i j k l : Nat}

-- =========================================================== tokens

theorem kind_of_mark {m : Mark}
    (token : (inp.tokenAt i).lexeme = .ofMark m) :
    (inp.tokenAt i).kind = .mark m := by
  rw [Token.kind, token]
  rfl

theorem reads_operator {op : String}
    (token : (inp.tokenAt i).lexeme = .operator op)
    (free : inp.language.isReservedOperator op = false) :
    Reads inp r operator i (i + 1) (inp.tokenAt i) :=
  reads_acceptIf token (by simp [Lexeme.kind]) (by simp [isFreeOperator, free])

theorem refuses_operator
    (token : isFreeOperator inp.language (inp.tokenAt i).lexeme = false) :
    Refuses inp r operator i :=
  refuses_acceptIf rfl token

-- ============================================================ atoms

/-- An operator's name in parentheses. -/
theorem reads_name_operator {op : String}
    (opening : (inp.tokenAt i).kind = .mark .lparen)
    (token : (inp.tokenAt (i + 1)).lexeme = .operator op)
    (free : inp.language.isReservedOperator op = false)
    (closing : (inp.tokenAt (i + 1 + 1)).kind = .mark .rparen) :
    Reads inp r name i (i + 1 + 1 + 1) (.ofText op) := by
  have text : (inp.tokenAt (i + 1)).text = op := by
    rw [Token.text, token]
    rfl
  refine Refuses.choice (refuses_identName (by simp [opening])) ?_
  rw [← text]
  exact Reads.choice <| (reads_mark opening).bind <|
    (reads_operator token free).bind <|
    (reads_mark closing).bind (reads_pure _)

/-- An operator's name in parentheses is an atom. -/
theorem reads_atom_operator {op : String}
    (opening : (inp.tokenAt i).kind = .mark .lparen)
    (token : (inp.tokenAt (i + 1)).lexeme = .operator op)
    (free : inp.language.isReservedOperator op = false)
    (closing : (inp.tokenAt (i + 1 + 1)).kind = .mark .rparen) :
    Reads inp r (atom e) i (i + 1 + 1 + 1) (.ref (.ofText op)
      (some (spanTo inp (inp.tokenAt i).span.start (i + 1 + 1 + 1)))) := by
  have named : Reads inp r name i (i + 1 + 1 + 1) (.ofText op) :=
    reads_name_operator opening token free closing
  refine reads_here.bind (Refuses.choice ?_ ?_)
  · exact (refuses_expect (by simp [opening])).bind
  · exact Reads.choice (named.bind (reads_located _ _))

theorem reads_atom_hole
    (token : (inp.tokenAt i).kind = .mark .hole) :
    Reads inp r (atom e) i (i + 1) (.hole
      (some (spanTo inp (inp.tokenAt i).span.start (i + 1)))) := by
  refine reads_here.bind (Refuses.choice ?_ ?_)
  · exact (refuses_expect (by simp [token])).bind
  refine Refuses.choice ?_ ?_
  · exact (refuses_name (by simp [token]) (by simp [token])).bind
  exact Reads.choice ((reads_mark token).bind (reads_located _ _))

theorem reads_atom_set
    (token : (inp.tokenAt i).lexeme = .reserved "Set") :
    Reads inp r (atom e) i (i + 1) (.set
      (some (spanTo inp (inp.tokenAt i).span.start (i + 1)))) := by
  have kind : (inp.tokenAt i).kind = .reserved := by
    rw [Token.kind, token]
    rfl
  refine reads_here.bind (Refuses.choice ?_ ?_)
  · exact (refuses_expect (by simp [kind])).bind
  refine Refuses.choice ?_ ?_
  · exact (refuses_name (by simp [kind]) (by simp [kind])).bind
  refine Refuses.choice ?_ ?_
  · exact (refuses_expect (by simp [kind])).bind
  refine Refuses.choice ?_ ?_
  · exact (refuses_expect (by simp [kind])).bind
  exact Reads.choice ((reads_reserved token).bind (reads_located _ _))

theorem reads_atom_quote {t : Term}
    (opening : (inp.tokenAt i).kind = .mark .quote)
    (inner : Reads inp r e (i + 1) j t)
    (closing : (inp.tokenAt j).kind = .mark .rbracket) :
    Reads inp r (atom e) i (j + 1) (.quote t
      (some (spanTo inp (inp.tokenAt i).span.start (j + 1)))) :=
  reads_here.bind <| Reads.choice <|
    (reads_mark opening).bind <| inner.bind <|
    (reads_mark closing).bind (reads_located _ _)

/-- A parenthesis that no free operator follows does not start a
name. -/
theorem refuses_reference
    (opening : (inp.tokenAt i).kind = .mark .lparen)
    (next : isFreeOperator inp.language (inp.tokenAt (i + 1)).lexeme
      = false) (start : Nat) :
    Refuses inp r (reference start) i := by
  refine Refuses.bind (refuses_choice fun p hp => ?_)
  rcases List.mem_cons.1 hp with rfl | hp
  · exact refuses_identName (by simp [opening])
  · rw [List.mem_singleton.1 hp]
    exact (reads_mark opening).bind_refuses (refuses_operator next).bind

theorem reads_atom_parens {t : Term}
    (opening : (inp.tokenAt i).kind = .mark .lparen)
    (next : isFreeOperator inp.language (inp.tokenAt (i + 1)).lexeme
      = false)
    (inner : Reads inp r e (i + 1) j t)
    (closing : (inp.tokenAt j).kind = .mark .rparen) :
    Reads inp r (atom e) i (j + 1) t := by
  refine reads_here.bind (Refuses.choice ?_ ?_)
  · exact (refuses_expect (by simp [opening])).bind
  refine Refuses.choice (refuses_reference opening next _) ?_
  refine Refuses.choice ?_ ?_
  · exact (refuses_expect (by simp [opening])).bind
  exact Reads.choice <| (reads_mark opening).bind <| inner.bind <|
    (reads_mark closing).bind (reads_pure t)

/-- Parentheses that do not close after an expression are no atom. -/
theorem refuses_atom_open {t : Term}
    (opening : (inp.tokenAt i).kind = .mark .lparen)
    (next : isFreeOperator inp.language (inp.tokenAt (i + 1)).lexeme
      = false)
    (inner : Reads inp r e (i + 1) j t)
    (unclosed : (inp.tokenAt j).kind ≠ .mark .rparen) :
    Refuses inp r (atom e) i := by
  refine reads_here.bind_refuses (refuses_choice fun p hp => ?_)
  simp only [List.mem_cons, List.not_mem_nil, or_false] at hp
  rcases hp with rfl | rfl | rfl | rfl | rfl
  · exact (refuses_expect (by simp [opening])).bind
  · exact refuses_reference opening next _
  · exact (refuses_expect (by simp [opening])).bind
  · exact (reads_mark opening).bind_refuses
      (inner.bind_refuses (refuses_expect unclosed).bind)
  · exact (refuses_reserved (ne_reserved_of_mark opening)).bind

-- ==================================================== applications

/-- An argument given by name, with its value. -/
theorem reads_namedArgument {word : String} {t : Term}
    (opening : (inp.tokenAt i).kind = .mark .lbrace)
    (target : (inp.tokenAt (i + 1)).lexeme = .ident word)
    (equals : (inp.tokenAt (i + 1 + 1)).lexeme = .operator "=")
    (inner : Reads inp r e (i + 1 + 1 + 1) j t)
    (closing : (inp.tokenAt j).kind = .mark .rbrace) :
    Reads inp r (namedArgument e) i (j + 1) (.ofText word, t) :=
  (reads_mark opening).bind <| reads_here.bind <|
    (reads_identName target).bind <| (reads_located _ _).bind <|
    (Reads.optional ((reads_symbol equals).bind inner) _).bind <|
    (reads_mark closing).bind (reads_pure _)

/-- A name in braces stands for itself. -/
theorem reads_namedArgument_itself {word : String}
    (opening : (inp.tokenAt i).kind = .mark .lbrace)
    (target : (inp.tokenAt (i + 1)).lexeme = .ident word)
    (closing : (inp.tokenAt (i + 1 + 1)).kind = .mark .rbrace) :
    Reads inp r (namedArgument e) i (i + 1 + 1 + 1) (.ofText word,
      .ref (.ofText word) (some (spanTo inp
        (inp.tokenAt (i + 1)).span.start (i + 1 + 1)))) :=
  (reads_mark opening).bind <| reads_here.bind <|
    (reads_identName target).bind <| (reads_located _ _).bind <|
    (Refuses.optional (refuses_symbol (ne_operator_of_mark closing)).bind
      _).bind <|
    (reads_mark closing).bind (reads_pure _)

/-- A head and its arguments. -/
theorem reads_application {fn : Term} {named : List (Name × Term)}
    {args : List Term} (head : Reads inp r (atom e) i j fn)
    (names : Reads inp r (many (namedArgument e)) j k named)
    (rest : Reads inp r (many1 (atom e)) k l args) :
    Reads inp r (operand e) i l (.app fn named args
      (some (spanTo inp (inp.tokenAt i).span.start l))) :=
  Reads.choice <| reads_here.bind <| head.bind <|
    Reads.optional (names.bind (rest.bind (reads_located _ _))) _

-- ========================================================= binders

theorem refuses_applicationOrAtom (h : Refuses inp r (atom e) i) :
    Refuses inp r (applicationOrAtom e) i :=
  reads_here.bind_refuses h.bind

theorem refuses_lambda
    (token : (inp.tokenAt i).lexeme ≠ .operator "\\") :
    Refuses inp r (lambda e) i :=
  reads_here.bind_refuses (refuses_symbol token).bind

theorem refuses_piBetween {opening closing : Mark} {plicity : Plicity}
    {start : Nat} (token : (inp.tokenAt i).kind ≠ .mark opening) :
    Refuses inp r (piBetween e opening closing plicity start) i :=
  (refuses_expect token).bind

/-- The type of a lambda's variable, or none. -/
theorem reads_ascription {t : Term}
    (colon : (inp.tokenAt i).lexeme = .operator ":")
    (inner : Reads inp r e (i + 1) j t) :
    Reads inp r ((ascription e).optional (.hole none)) i j t :=
  Reads.optional ((reads_symbol colon).bind inner) _

theorem reads_no_ascription
    (token : (inp.tokenAt i).lexeme ≠ .operator ":") :
    Reads inp r ((ascription e).optional (.hole none)) i i
      (.hole none) :=
  Refuses.optional (refuses_symbol token).bind _

theorem reads_lambda {word : String} {type body : Term}
    (opening : (inp.tokenAt i).lexeme = .operator "\\")
    (target : (inp.tokenAt (i + 1)).lexeme = .ident word)
    (domain : Reads inp r ((ascription e).optional (.hole none))
      (i + 1 + 1) j type)
    (maps : (inp.tokenAt j).lexeme = .operator "=>")
    (inner : Reads inp r e (j + 1) k body) :
    Reads inp r (operand e) i k (.lam (.ofText word) type body
      (some (spanTo inp (inp.tokenAt i).span.start k))) := by
  have noAtom : startsAtom (inp.tokenAt i).lexeme = false := by
    rw [opening]
    rfl
  refine Refuses.choice (refuses_applicationOrAtom (refuses_atom noAtom)) ?_
  exact Reads.choice <| reads_here.bind <| (reads_symbol opening).bind <|
    (reads_identName target).bind <| domain.bind <|
    (reads_symbol maps).bind <| inner.bind (reads_located _ _)

/-- What stands between the brackets of a named argument's type, and
what follows them. -/
theorem reads_piBetween {opening closing : Mark} {plicity : Plicity}
    {start : Nat} {word : String} {type body : Term}
    (opens : (inp.tokenAt i).kind = .mark opening)
    (target : (inp.tokenAt (i + 1)).lexeme = .ident word)
    (colon : (inp.tokenAt (i + 1 + 1)).lexeme = .operator ":")
    (domain : Reads inp r e (i + 1 + 1 + 1) j type)
    (closes : (inp.tokenAt j).kind = .mark closing)
    (maps : (inp.tokenAt (j + 1)).lexeme = .operator "->")
    (inner : Reads inp r e (j + 1 + 1) k body) :
    Reads inp r (piBetween e opening closing plicity start) i k
      (.pi plicity (.ofText word) type body
        (some (spanTo inp start k))) :=
  (reads_mark opens).bind <|
    (reads_identName target).bind <|
    ((reads_symbol colon).bind domain).bind <|
    (reads_mark closes).bind <|
    (reads_symbol maps).bind <| inner.bind (reads_located _ _)

/-- A function type whose argument is named in parentheses; before the
colon, the name alone would be an expression. -/
theorem reads_pi_explicit {word : String} {type body name : Term}
    (opens : (inp.tokenAt i).kind = .mark .lparen)
    (target : (inp.tokenAt (i + 1)).lexeme = .ident word)
    (colon : (inp.tokenAt (i + 1 + 1)).lexeme = .operator ":")
    (alone : Reads inp r e (i + 1) (i + 1 + 1) name)
    (domain : Reads inp r e (i + 1 + 1 + 1) j type)
    (closes : (inp.tokenAt j).kind = .mark .rparen)
    (maps : (inp.tokenAt (j + 1)).lexeme = .operator "->")
    (inner : Reads inp r e (j + 1 + 1) k body) :
    Reads inp r (operand e) i k (.pi .explicit (.ofText word) type body
      (some (spanTo inp (inp.tokenAt i).span.start k))) := by
  have noLambda : (inp.tokenAt i).lexeme ≠ .operator "\\" :=
    ne_operator_of_mark opens
  have noAtom : Refuses inp r (atom e) i := by
    refine refuses_atom_open opens ?_ alone ?_
    · rw [target]
      rfl
    · rw [Token.kind, colon]
      exact fun h => by cases h
  refine Refuses.choice (refuses_applicationOrAtom noAtom) ?_
  refine Refuses.choice (refuses_lambda noLambda) ?_
  exact Reads.choice <| reads_here.bind <| Reads.choice <|
    reads_piBetween opens target colon domain closes maps inner

/-- A function type whose argument is named in braces. -/
theorem reads_pi_implicit {word : String} {type body : Term}
    (opens : (inp.tokenAt i).kind = .mark .lbrace)
    (target : (inp.tokenAt (i + 1)).lexeme = .ident word)
    (colon : (inp.tokenAt (i + 1 + 1)).lexeme = .operator ":")
    (domain : Reads inp r e (i + 1 + 1 + 1) j type)
    (closes : (inp.tokenAt j).kind = .mark .rbrace)
    (maps : (inp.tokenAt (j + 1)).lexeme = .operator "->")
    (inner : Reads inp r e (j + 1 + 1) k body) :
    Reads inp r (operand e) i k (.pi .implicit (.ofText word) type body
      (some (spanTo inp (inp.tokenAt i).span.start k))) := by
  have noAtom : startsAtom (inp.tokenAt i).lexeme = false := by
    rw [startsAtom_of_mark opens]
    rfl
  have noLambda : (inp.tokenAt i).lexeme ≠ .operator "\\" :=
    ne_operator_of_mark opens
  refine Refuses.choice (refuses_applicationOrAtom (refuses_atom noAtom)) ?_
  refine Refuses.choice (refuses_lambda noLambda) ?_
  refine Reads.choice <| reads_here.bind <| Refuses.choice ?_ <|
    Reads.choice <|
    reads_piBetween opens target colon domain closes maps inner
  exact refuses_piBetween (by simp [opens])

-- ======================================================== operands

/-- No expression starts with an operator other than a lambda's. -/
theorem refuses_operand {op : String}
    (token : (inp.tokenAt i).lexeme = .operator op) (other : op ≠ "\\") :
    Refuses inp r (operand e) i := by
  have noMark (m : Mark) : (inp.tokenAt i).kind ≠ .mark m := by
    rw [Token.kind, token]
    exact fun h => by cases h
  refine refuses_choice fun p hp => ?_
  simp only [List.mem_cons, List.not_mem_nil, or_false] at hp
  rcases hp with rfl | rfl | rfl
  · refine refuses_applicationOrAtom (refuses_atom ?_)
    rw [token]
    rfl
  · refine refuses_lambda ?_
    rw [token]
    exact fun h => other (Lexeme.operator.inj h)
  · refine reads_here.bind_refuses (refuses_choice fun p hp => ?_)
    rcases List.mem_cons.1 hp with rfl | hp
    · exact refuses_piBetween (noMark _)
    · rw [List.mem_singleton.1 hp]
      exact refuses_piBetween (noMark _)

theorem refuses_chains {levels : List Level}
    (h : Refuses inp r (operand e) i) :
    Refuses inp r (chains (operand e) levels) i := by
  induction levels with
  | nil => exact h
  | cons level tighter ih => exact ih.bind

/-- What an expression can be read from does not start with a free
operator. -/
theorem not_free_of_reads {t : Term} (h : Reads inp r expr i j t)
    (reserved : inp.language.isReservedOperator "\\" = true) :
    isFreeOperator inp.language (inp.tokenAt i).lexeme = false := by
  cases token : (inp.tokenAt i).lexeme with
  | operator op =>
      by_cases lambda : op = "\\"
      · rw [lambda, isFreeOperator, reserved]
        rfl
      · have refuses : Refuses inp r expr i :=
          refuses_expr (refuses_chains (refuses_operand token lambda))
        exact absurd refuses h.not_refuses
  | _ => rfl

end DepLang.Grammar

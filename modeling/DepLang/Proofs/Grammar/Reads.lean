/-
What the rules of expressions read, rule by rule, from the lexemes that
stand in the tokens: names, atoms and operands, and where they refuse.
An operand that is a single atom ends where neither another atom nor an
argument by name can start.
-/
import DepLang.Proofs.Grammar.Nesting
import DepLang.Proofs.Parser.Reads

namespace DepLang.Grammar

open DepLang.Parser

variable {inp : Input} {r : Registry} {e : Parser Term} {i j k : Nat}

-- =========================================================== tokens

theorem reads_expect {kind : TokenKind}
    (token : (inp.tokenAt i).kind = kind) (inside : kind ≠ .eof) :
    Reads inp r (expect kind) i (i + 1) (inp.tokenAt i) := by
  subst token
  exact reads_acceptIf rfl inside (beq_self_eq_true _)

theorem refuses_expect {kind : TokenKind}
    (token : (inp.tokenAt i).kind ≠ kind) :
    Refuses inp r (expect kind) i :=
  refuses_acceptIf rfl (beq_false_of_ne token)

theorem reads_mark {m : Mark} (token : (inp.tokenAt i).kind = .mark m) :
    Reads inp r (mark m) i (i + 1) (inp.tokenAt i) :=
  reads_expect token (by simp)

theorem reads_symbol {op : String}
    (token : (inp.tokenAt i).lexeme = .operator op) :
    Reads inp r (symbol op) i (i + 1) (inp.tokenAt i) :=
  reads_acceptIf token (by simp [Lexeme.kind]) (beq_self_eq_true _)

theorem refuses_symbol {op : String}
    (token : (inp.tokenAt i).lexeme ≠ .operator op) :
    Refuses inp r (symbol op) i :=
  refuses_acceptIf rfl (beq_false_of_ne token)

theorem reads_reserved {word : String}
    (token : (inp.tokenAt i).lexeme = .reserved word) :
    Reads inp r (reserved word) i (i + 1) (inp.tokenAt i) :=
  reads_acceptIf token (by simp [Lexeme.kind]) (beq_self_eq_true _)

theorem refuses_reserved {word : String}
    (token : (inp.tokenAt i).lexeme ≠ .reserved word) :
    Refuses inp r (reserved word) i :=
  refuses_acceptIf rfl (beq_false_of_ne token)

theorem reads_eof (token : (inp.tokenAt i).kind = .eof) :
    Reads inp r eof i i () := by
  have ended : Reads inp r atEnd i i ((inp.tokenAt i).kind == .eof) :=
    reads_look fun t => t.kind == .eof
  rw [token] at ended
  exact ended.bind (reads_pure ())

/-- A mark is no reserved word. -/
theorem ne_reserved_of_mark {m : Mark} {word : String}
    (token : (inp.tokenAt i).kind = .mark m) :
    (inp.tokenAt i).lexeme ≠ .reserved word := by
  intro other
  rw [Token.kind, other] at token
  cases token

/-- A mark is no operator. -/
theorem ne_operator_of_mark {m : Mark} {op : String}
    (token : (inp.tokenAt i).kind = .mark m) :
    (inp.tokenAt i).lexeme ≠ .operator op := by
  intro other
  rw [Token.kind, other] at token
  cases token

-- ============================================================ spans

/-- The span of what was read from a start up to a cursor. -/
def spanTo (inp : Input) (start j : Nat) : Span :=
  ⟨start, max (inp.tokenAt (j - 1)).span.stop start⟩

theorem reads_here :
    Reads inp r here i i (inp.tokenAt i).span.start :=
  reads_look fun t => t.span.start

theorem reads_located (start : Nat) (f : Option Span → Term) :
    Reads inp r (located start f) j j (f (some (spanTo inp start j))) := by
  refine Reads.bind (a := spanTo inp start j) (fun s h => ⟨s, h, ?_⟩)
    (reads_pure _)
  rw [← h.1]
  rfl

-- ============================================================ names

theorem reads_identName {word : String}
    (token : (inp.tokenAt i).lexeme = .ident word) :
    Reads inp r identName i (i + 1) (.ofText word) := by
  have kind : (inp.tokenAt i).kind = .ident := by rw [Token.kind, token]; rfl
  have text : (inp.tokenAt i).text = word := by rw [Token.text, token]; rfl
  rw [← text]
  exact (reads_expect kind (by simp)).bind (reads_pure _)

theorem ident_of_kind (h : (inp.tokenAt i).kind = .ident) :
    ∃ text, (inp.tokenAt i).lexeme = .ident text := by
  cases l : (inp.tokenAt i).lexeme with
  | ident text => exact ⟨text, rfl⟩
  | _ =>
      rw [Token.kind, l] at h
      cases h

theorem refuses_identName (token : (inp.tokenAt i).kind ≠ .ident) :
    Refuses inp r identName i :=
  (refuses_expect token).bind

theorem refuses_operatorName
    (token : (inp.tokenAt i).kind ≠ .mark .lparen) :
    Refuses inp r operatorName i :=
  (refuses_expect token).bind

theorem refuses_name (word : (inp.tokenAt i).kind ≠ .ident)
    (token : (inp.tokenAt i).kind ≠ .mark .lparen) :
    Refuses inp r name i := by
  refine refuses_choice fun p hp => ?_
  rcases List.mem_cons.1 hp with rfl | hp
  · exact refuses_identName word
  · rw [List.mem_singleton.1 hp]
    exact refuses_operatorName token

-- ============================================================ atoms

/-- Can an atom start with the lexeme? -/
def startsAtom : Lexeme → Bool
  | .ident _ => true
  | .reserved word => word == "Set"
  | .mark m _ => m == .quote || m == .hole || m == .lparen
  | .natural _ | .operator _ | .eof _ => false

theorem startsAtom_of_kind {l : Lexeme} {kind : TokenKind}
    (starting : kind ∈ [TokenKind.ident, .mark .quote, .mark .hole,
      .mark .lparen]) (h : l.kind = kind) : startsAtom l = true := by
  subst h
  cases l <;> simp_all [Lexeme.kind, startsAtom, or_assoc]

/-- Where an atom can start there is no end and no argument by name. -/
theorem kind_of_startsAtom {l : Lexeme} (h : startsAtom l = true) :
    l.kind ≠ .eof ∧ l.kind ≠ .mark .lbrace := by
  cases l with
  | mark m _ =>
      refine ⟨by simp [Lexeme.kind], fun same => ?_⟩
      cases same
      cases h
  | _ => simp_all [Lexeme.kind, startsAtom]

/-- The marks that an atom can start with. -/
theorem startsAtom_of_mark {m : Mark}
    (token : (inp.tokenAt i).kind = .mark m) :
    startsAtom (inp.tokenAt i).lexeme
      = (m == .quote || m == .hole || m == .lparen) := by
  cases l : (inp.tokenAt i).lexeme <;>
    simp_all [Token.kind, Lexeme.kind, startsAtom]

theorem refuses_atom (token : startsAtom (inp.tokenAt i).lexeme = false) :
    Refuses inp r (atom e) i := by
  have kinds : ∀ kind ∈ [TokenKind.ident, .mark .quote, .mark .hole,
      .mark .lparen], (inp.tokenAt i).kind ≠ kind := by
    intro kind starting same
    rw [startsAtom_of_kind starting same] at token
    cases token
  have word : (inp.tokenAt i).lexeme ≠ .reserved "Set" := by
    intro same
    rw [same] at token
    cases token
  refine reads_here.bind_refuses (refuses_choice fun p hp => ?_)
  simp only [List.mem_cons, List.not_mem_nil, or_false] at hp
  rcases hp with rfl | rfl | rfl | rfl | rfl
  · exact (refuses_expect (kinds _ (by simp))).bind
  · exact (refuses_name (kinds _ (by simp)) (kinds _ (by simp))).bind
  · exact (refuses_expect (kinds _ (by simp))).bind
  · exact (refuses_expect (kinds _ (by simp))).bind
  · exact (refuses_reserved word).bind

/-- Where an atom is read, an atom can start. -/
theorem startsAtom_of_reads {t : Term} (h : Reads inp r (atom e) i j t) :
    startsAtom (inp.tokenAt i).lexeme = true := by
  by_contra none
  exact h.not_refuses (refuses_atom (Bool.eq_false_iff.2 none))

/-- An identifier is an atom. -/
theorem reads_atom_ident {word : String}
    (token : (inp.tokenAt i).lexeme = .ident word) :
    Reads inp r (atom e) i (i + 1) (.ref (.ofText word)
      (some (spanTo inp (inp.tokenAt i).span.start (i + 1)))) := by
  have noQuote : (inp.tokenAt i).kind ≠ .mark .quote := by
    rw [Token.kind, token]
    simp [Lexeme.kind]
  refine reads_here.bind (Refuses.choice (refuses_expect noQuote).bind ?_)
  exact Reads.choice ((reads_identName token).choice.bind
    (reads_located _ _))

-- ========================================================= operands

/-- Can nothing be added to an atom that the lexeme follows? -/
def endsAtom (l : Lexeme) : Bool :=
  !startsAtom l && l.kind != .mark .lbrace

theorem endsAtom_iff {l : Lexeme} :
    endsAtom l = true ↔ startsAtom l = false ∧ l.kind ≠ .mark .lbrace := by
  simp [endsAtom]

theorem refuses_namedArgument
    (token : (inp.tokenAt i).kind ≠ .mark .lbrace) :
    Refuses inp r (namedArgument e) i :=
  (refuses_expect token).bind

/-- An atom alone is an operand, where it ends. -/
theorem reads_operand_of_atom {t : Term} (h : Reads inp r (atom e) i j t)
    (ends : endsAtom (inp.tokenAt j).lexeme = true) :
    Reads inp r (operand e) i j t := by
  obtain ⟨noAtom, noName⟩ := endsAtom_iff.1 ends
  have bare : Refuses inp r
      (application e (some (t, (inp.tokenAt i).span.start))) j :=
    (reads_many_nil (refuses_namedArgument noName)).bind_refuses
      (Refuses.bind (refuses_atom noAtom).bind)
  exact Reads.choice (reads_here.bind (h.bind (bare.optional t)))

end DepLang.Grammar

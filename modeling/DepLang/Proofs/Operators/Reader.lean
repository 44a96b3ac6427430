/-
Terms with operators, as texts. A text that spells identifiers with
operators between them reads as the row of these identifiers is grouped,
and fails exactly where it cannot be grouped.
-/
import DepLang.Proofs.Operators.Climbing
import DepLang.Proofs.Reader.Whole
import Mathlib.Data.List.Permutation

namespace DepLang

open DepLang.Grammar DepLang.Parser

-- ============================================================ levels

namespace FixityTable

variable {table : FixityTable}

/-- The operators of a level make what their symbols stand for. -/
theorem build_operatorAt (plain : table.Plain) {key : Nat} {symbol : String}
    {op : Operator} (h : table.operatorAt key symbol = some op)
    (x y : Term) : op.build x y = Row.combine symbol x y := by
  unfold operatorAt at h
  split at h
  · by_cases arrow : symbol = "->"
    · subst arrow
      cases h
      rfl
    · rw [if_neg arrow] at h
      cases h
  · by_cases equality : symbol = "="
    · subst equality
      cases h
      rfl
    · rw [if_neg equality] at h
      cases h
  next prec =>
    by_cases none : table.entriesAt symbol prec = []
    · rw [if_pos none] at h
      cases h
    · rw [if_neg none] at h
      cases h
      obtain ⟨e, he⟩ := List.exists_mem_of_ne_nil _ none
      obtain ⟨member, rfl, -⟩ : e ∈ table ∧ e.symbol = symbol
          ∧ e.fixity.prec = prec := by
        simpa [entriesAt] using he
      rw [Row.combine, if_neg (plain e member).2]
      rfl

theorem faithful_of_ranked (plain : table.Plain) {keys : List Nat}
    {levels : List Level} (ranked : Ranked table keys levels) :
    ∀ level ∈ levels, level.Faithful := by
  obtain ⟨operators, -⟩ := ranked
  induction operators with
  | nil => exact List.forall_mem_nil _
  | @cons key level keys levels here _ ih =>
      refine List.forall_mem_cons.2 ⟨fun op has x y => ?_, ih⟩
      have found := Level.operator?_of_has has
      rw [here] at found
      exact build_operatorAt plain found x y

end FixityTable

-- ============================================================ tokens

/-- The reference that an identifier spells. -/
def Token.reference (t : Token) : Term :=
  .ref (.ofText t.text)
    (some ⟨t.span.start, max t.span.stop t.span.start⟩)

/-- The row that identifiers spell with operators between them. -/
def Row.ofTokens (first : Token) (rest : List (Token × Token)) : Row :=
  ⟨first.reference, rest.map fun c => (c.1.text, c.2.reference)⟩

/-- The tokens after the first identifier. -/
def tailTokens (rest : List (Token × Token)) : List Token :=
  rest.flatMap fun c => [c.1, c.2]

/-- Each operator is one that the table offers, and each operand an
identifier. -/
def Spells (table : FixityTable) (rest : List (Token × Token)) : Prop :=
  ∀ c ∈ rest, (∃ op, c.1.lexeme = .operator op ∧ table.Offers op)
    ∧ c.2.kind = .ident

namespace Grammar

variable {inp : Input} {items : List Token} {r : Registry}
  {table : FixityTable}

theorem reads_operand_ident {i : Nat} {t : Token}
    (token : inp.tokenAt i = t) (word : t.kind = .ident)
    (ends : endsAtom (inp.tokenAt (i + 1)).lexeme = true) :
    Reads inp r (operand expr) i (i + 1) t.reference := by
  subst token
  cases token : (inp.tokenAt i).lexeme with
  | ident text =>
      have same : (inp.tokenAt i).reference = .ref (.ofText text)
          (some (spanTo inp (inp.tokenAt i).span.start (i + 1))) := by
        rw [Token.reference, Token.text, token]
        rfl
      rw [same]
      exact reads_operand_of_atom (reads_atom_ident token) ends
  | _ => simp [Token.kind, token, Lexeme.kind] at word

/-- What follows an identifier of the row ends it. -/
theorem endsAtom_tail (holds : inp.Holds items)
    {rest : List (Token × Token)} (before : List Token)
    (h : items = before ++ tailTokens rest) (spells : Spells table rest) :
    endsAtom (inp.tokenAt before.length).lexeme = true := by
  cases rest with
  | nil =>
      have whole : items = before := by simpa [tailTokens] using h
      rw [← whole, holds.tokenAt_length]
      rfl
  | cons c rest =>
      obtain ⟨⟨op, token, -⟩, -⟩ := spells c List.mem_cons_self
      rw [holds.tokenAt (h.trans (by rw [tailTokens]; rfl)), token]
      rfl

/-- The tokens of a row lay it out. -/
theorem follow_tail (holds : inp.Holds items) :
    ∀ {rest : List (Token × Token)} (before : List Token),
      items = before ++ tailTokens rest → Spells table rest →
      Follow inp
        (fun i j x => Advances inp r (operand expr) i j (some x))
        before.length (rest.map fun c => (c.1.text, c.2.reference))
        items.length := by
  intro rest
  induction rest with
  | nil =>
      intro before h _
      have whole : items = before := by simpa [tailTokens] using h
      rw [whole]
      exact .nil
  | cons c rest ih =>
      intro before h spells
      obtain ⟨o, y⟩ := c
      obtain ⟨⟨op, token, -⟩, word⟩ := spells (o, y) List.mem_cons_self
      have later : Spells table rest :=
        fun c hc => spells c (List.mem_cons_of_mem _ hc)
      have after : items = (before ++ [o, y]) ++ tailTokens rest := by
        rw [h]
        simp [tailTokens]
      have second : items = (before ++ [o]) ++ y :: tailTokens rest := by
        rw [after]
        simp
      have operator := holds.tokenAt (h.trans (by rw [tailTokens]; rfl))
      have operand := holds.tokenAt second
      have ends := endsAtom_tail holds (before ++ [o, y]) after later
      have rest := ih (before ++ [o, y]) after later
      simp only [List.length_append, List.length_cons, List.length_nil]
        at operand ends rest
      have text : o.text = op := by rw [Token.text, token]; rfl
      refine .cons ?_ ⟨Nat.lt_succ_self _, ?_⟩ rest
      · rw [operator, token, text]
      · exact reads_operand_ident operand word ends

/-- The expression over a row's tokens reads as the row is grouped. -/
theorem expr_yields (holds : inp.Holds items) {first : Token}
    {rest : List (Token × Token)} (h : items = first :: tailTokens rest)
    (sorted : r.fixities.Sorted) (plain : r.fixities.Plain)
    (word : first.kind = .ident) (spells : Spells r.fixities rest) :
    Yields inp r expr 0 items.length
      ((Row.ofTokens first rest).group r.fixities) := by
  obtain ⟨keys, ranked, complete⟩ := FixityTable.levels_ranked sorted
  have offers : ∀ op ∈ (Row.ofTokens first rest).operators,
      r.fixities.Offers op := by
    intro op hop
    rw [Row.operators, Row.ofTokens, List.map_map] at hop
    obtain ⟨c, hc, rfl⟩ := List.mem_map.1 hop
    obtain ⟨⟨op, token, offer⟩, -⟩ := spells c hc
    show r.fixities.Offers c.1.text
    rw [Token.text, token]
    exact offer
  have known : ∀ op ∈ (Row.ofTokens first rest).operators,
      r.fixities.operatorAt (r.fixities.rank op) op ≠ none := by
    intro op hop
    obtain ⟨form, known⟩ := FixityTable.operatorAt_rank plain (offers op hop)
    rw [known]
    exact Option.some_ne_none _
  have start : inp.tokenAt 0 = first :=
    holds.tokenAt (h.trans (List.nil_append _).symm)
  have laid : (Row.ofTokens first rest).LaidOut inp
      (fun i j x => Advances inp r (operand expr) i j (some x))
      0 items.length :=
    ⟨1, ⟨Nat.zero_lt_one, reads_operand_ident start word
        (endsAtom_tail holds [first] h spells)⟩,
      follow_tail holds [first] h spells⟩
  have yields := chains_yields
    (FixityTable.faithful_of_ranked plain ranked) laid
    (fun op hop => (Row.any_has_iff ranked.operators).2
      ⟨_, complete _ op (known op hop), known op hop⟩)
    (fun level _ => by rw [holds.tokenAt_length]; rfl)
  rw [Row.groupOver_eq_group plain ranked offers
    fun op hop => complete _ op (known op hop)] at yields
  cases grouped : (Row.ofTokens first rest).group r.fixities with
  | none =>
      rw [grouped] at yields
      exact refuses_expr yields
  | some t =>
      rw [grouped] at yields
      exact reads_expr yields

end Grammar

/-- Reading a text of identifiers with operators between them: it
succeeds with the term that the row of identifiers is grouped to, and
fails if the row cannot be grouped. The operators may have been declared
in any way that leaves equality and the arrow alone. -/
theorem readTerm_iff_group (lang : Language) (filename text : String)
    (r : Registry) (batches : List (List FixityEntry))
    (declared : r.fixities = FixityTable.declared batches)
    (plain : r.fixities.Plain) (first : Token)
    (rest : List (Token × Token)) (ending : Token)
    (scans : Lexer.tokenize lang text filename
      = .ok (first :: tailTokens rest ++ [ending]))
    (ended : ending.kind = .eof) (word : first.kind = .ident)
    (spells : Spells r.fixities rest) :
    (∀ t, (readTerm lang filename text r).outcome = .ok t
        ↔ (Row.ofTokens first rest).group r.fixities = some t)
      ∧ ((readTerm lang filename text r).Fails
        ↔ (Row.ofTokens first rest).group r.fixities = none) := by
  have sorted : r.fixities.Sorted :=
    declared ▸ FixityTable.sorted_declared batches
  have holds : (Reading.inputOf (first :: tailTokens rest) ending lang
      filename text).Holds (first :: tailTokens rest) := rfl
  have yields := Grammar.expr_yields holds rfl sorted plain word spells
  cases grouped : (Row.ofTokens first rest).group r.fixities with
  | none =>
      rw [grouped] at yields
      have fails : (readTerm lang filename text r).Fails :=
        Reading.fails_of_refuses scans ended (Refuses.bind yields)
      obtain ⟨e, he⟩ := fails
      refine ⟨fun t => ⟨fun h => ?_, fun h => by cases h⟩,
        ⟨fun _ => rfl, fun _ => ⟨e, he⟩⟩⟩
      rw [he] at h
      cases h
  | some t =>
      rw [grouped] at yields
      have found : (readTerm lang filename text r).outcome = .ok t := by
        refine Reading.outcome_of_reads scans ended
          (Grammar.reads_wholeExpr yields ?_)
        rw [Token.kind, holds.tokenAt_length]
        rfl
      refine ⟨fun u => ⟨fun h => ?_, fun h => ?_⟩, ⟨?_, fun h => by cases h⟩⟩
      · rw [found] at h
        cases h
        rfl
      · cases h
        exact found
      · rintro ⟨e, he⟩
        rw [found] at he
        cases he

/-- An operator declared twice counts at its higher precedence, and two
that do not associate cannot stand in a row. -/
theorem readTerm_iff_group_twice :
    let batches : List (List FixityEntry) :=
      [[⟨⟨.left, 6⟩, "+"⟩, ⟨⟨.right, 7⟩, "*"⟩],
        [⟨⟨.left, 3⟩, "*"⟩, ⟨⟨.neither, 4⟩, "<"⟩]]
    let r : Registry := { fixities := .declared batches }
    (readTerm .standard "m" "a + b * c" r).outcome
        = .ok (.app (.ref (.ofText "+") none) []
          [.ref (.ofText "a") (some ⟨0, 1⟩),
            .app (.ref (.ofText "*") none) []
              [.ref (.ofText "b") (some ⟨4, 5⟩),
                .ref (.ofText "c") (some ⟨8, 9⟩)] (some ⟨4, 9⟩)]
          (some ⟨0, 9⟩))
      ∧ (readTerm .standard "m" "a < b < c" r).Fails := by
  intro batches r
  have plain : r.fixities.Plain := by
    unfold FixityTable.Plain
    decide
  have offers : ∀ op ∈ ["+", "*", "<"], r.fixities.Offers op := by
    unfold FixityTable.Offers
    decide
  constructor
  · refine ((readTerm_iff_group .standard "m" "a + b * c" r _ rfl plain
      ⟨.ident "a", ⟨0, 1⟩⟩
      [(⟨.operator "+", ⟨2, 3⟩⟩, ⟨.ident "b", ⟨4, 5⟩⟩),
        (⟨.operator "*", ⟨6, 7⟩⟩, ⟨.ident "c", ⟨8, 9⟩⟩)]
      ⟨.eof "", ⟨9, 9⟩⟩ (by decide +kernel) rfl rfl ?_).1 _).2 (by cbv)
    refine List.forall_mem_cons.2 ⟨⟨⟨_, rfl, offers _ (by simp)⟩, rfl⟩, ?_⟩
    exact List.forall_mem_singleton.2 ⟨⟨_, rfl, offers _ (by simp)⟩, rfl⟩
  · refine (readTerm_iff_group .standard "m" "a < b < c" r _ rfl plain
      ⟨.ident "a", ⟨0, 1⟩⟩
      [(⟨.operator "<", ⟨2, 3⟩⟩, ⟨.ident "b", ⟨4, 5⟩⟩),
        (⟨.operator "<", ⟨6, 7⟩⟩, ⟨.ident "c", ⟨8, 9⟩⟩)]
      ⟨.eof "", ⟨9, 9⟩⟩ (by decide +kernel) rfl rfl ?_).2.2 (by cbv)
    refine List.forall_mem_cons.2 ⟨⟨⟨_, rfl, offers _ (by simp)⟩, rfl⟩, ?_⟩
    exact List.forall_mem_singleton.2 ⟨⟨_, rfl, offers _ (by simp)⟩, rfl⟩

end DepLang

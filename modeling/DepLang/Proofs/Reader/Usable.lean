/-
Which operators a module may use. A module that is read accounts for
every free operator of its text: by the parentheses around it, by the
declaration that lists or defines it, or by a fixity that was declared
before. So a module that uses an operator between its operands and
declares its fixity only later is not read.

The reasons are in terms of the text's own tokens, and of no run: what
abandoned alternatives declared on the way is no reason.
-/
import DepLang.Proofs.Grammar.Accounted
import DepLang.Proofs.Reader.Joined

namespace DepLang

open DepLang.Grammar DepLang.Parser

namespace Reading

variable {filename text : String} {r : Registry} {items : List Token}
  {ending : Token}

/-- A module that is read has a reason for each of its free
operators. -/
theorem accounted_of_readModule
    (scans : Lexer.tokenize .standard text filename
      = .ok (items ++ [ending])) {decls : List Decl}
    (read : (readModule .standard filename text r).outcome = .ok decls)
    {k : Nat} {token : Token} {op : String} (place : items[k]? = some token)
    (spelled : token.lexeme = .operator op)
    (free : Language.standard.isReservedOperator op = false) :
    (inputOf items ending .standard filename text).Accounted r.fixities k
      op := by
  obtain ⟨items', span, ds, t, scans', run, -, -⟩ := items_of_readModule read
  obtain ⟨rfl, same⟩ := List.append_inj'
    (Except.ok.inj (scans.symm.trans scans')) rfl
  cases same
  have start : At 0 r { registry := r } := ⟨rfl, rfl⟩
  obtain ⟨form, -⟩ := itemsForm_of_moduleItems start run
  have tokenAt {l : Nat} {token : Token} (place : items[l]? = some token) :
      (inputOf items ⟨.eof "", span⟩ .standard filename text).tokenAt l
        = token := by
    rw [Input.tokenAt_ofItems, place]
    rfl
  -- the module ends behind all items, none of which is an end
  have inside : k < t.cursor := by
    have le := Input.length_le_of_eof (Lexer.kind_of_mem_tokenize scans)
      form.ended
    have := (List.getElem?_eq_some_iff.1 place).1
    omega
  refine form.accounted rfl (.inl rfl) (fun e he => .inl ⟨e, he, rfl⟩)
    (Nat.zero_le k) inside ?_ free
  rw [tokenAt place]
  exact spelled

end Reading

/-- Behind names and operators only, an operator stands alone in
parentheses, or behind the left operand of an infix clause, or is in the
table. -/
theorem Input.Accounted.cases_of_first {inp : Input} {table : FixityTable}
    {k : Nat} {op : String} (h : inp.Accounted table k op)
    (first : ∀ i < k, (inp.tokenAt i).kind = .ident
      ∨ (inp.tokenAt i).kind = .operator) :
    inp.Enclosed k ∨ (∃ r left, Reads inp r (atom expr) 0 k left)
      ∨ ∃ e ∈ table, e.symbol = op := by
  have unmarked : ∀ i < k, ∀ m, (inp.tokenAt i).kind ≠ .mark m := by
    intro i less m marked
    rcases first i less with kind | kind <;> simp [kind] at marked
  cases h with
  | enclosed h => exact .inl h
  | @listed i j fix symbols h less =>
      have kind := congrArg Lexeme.kind h.word
      rcases first i less with word | op
      · exact absurd (word.symm.trans kind) (by simp [Lexeme.kind])
      · exact absurd (op.symm.trans kind) (by simp [Lexeme.kind])
  | @defined i h =>
      obtain ⟨r, -, -, left, -, -, -, read, -⟩ := h.sides
      have less := lt_of_reads_atom read
      rcases h.begins with rfl | ⟨k, rfl, semicolon⟩
      · exact .inr (.inl ⟨r, left, read⟩)
      · exact absurd semicolon (unmarked k (by omega) _)
  | known h =>
      rcases h with known | ⟨i, j, fix, symbols, declared, less, -⟩
      · exact .inr (.inr known)
      · exact absurd declared.semicolon (unmarked j less _)

/-- An operator can be used only once its fixity is declared. In a module
that is read there is a reason for every free operator, and a module
where there is none for some is not read. -/
theorem readModule_operators_accounted (filename text : String)
    (r : Registry) (items : List Token) (ending : Token)
    (scans : Lexer.tokenize .standard text filename
      = .ok (items ++ [ending])) :
    let inp := Reading.inputOf items ending .standard filename text
    (∀ decls, (readModule .standard filename text r).outcome = .ok decls →
      ∀ (k : Nat) (token : Token) (op : String), items[k]? = some token →
        token.lexeme = .operator op →
        Language.standard.isReservedOperator op = false →
        inp.Accounted r.fixities k op)
    ∧ ∀ (k : Nat) (token : Token) (op : String), items[k]? = some token →
        token.lexeme = .operator op →
        Language.standard.isReservedOperator op = false →
        ¬inp.Accounted r.fixities k op →
        (readModule .standard filename text r).Fails := by
  intro inp
  refine ⟨fun decls read k token op place spelled free =>
    Reading.accounted_of_readModule scans read place spelled free,
    fun k token op place spelled free unaccounted => ?_⟩
  rcases Reading.readModule_ok_or_fails r scans with
    ⟨decls, read⟩ | fails
  · have accounted :=
      Reading.accounted_of_readModule scans read place spelled free
    exact absurd accounted unaccounted
  · exact fails

/-- An operator that is listed, defined, enclosed and used, all after its
declaration, and one that is used first and declared afterwards. -/
theorem readModule_operators_accounted_late :
    let text := "infix 6 +; a + b = (+) + b;"
    let late := "y = a + b; infix 6 +;"
    (∃ decls, (readModule .standard "m" text {}).outcome = .ok decls)
      ∧ (∃ items ending,
        Lexer.tokenize .standard text "m" = .ok (items ++ [ending])
        ∧ ∀ k ∈ [2, 5, 9, 11],
          (Reading.inputOf items ending .standard "m" text).Accounted []
            k "+")
      ∧ (readModule .standard "m" late {}).Fails := by
  intro text late
  let items : List Token :=
    [⟨.reserved "infix", ⟨0, 5⟩⟩, ⟨.natural 6, ⟨6, 7⟩⟩,
      ⟨.operator "+", ⟨8, 9⟩⟩, ⟨.ofMark .semicolon, ⟨9, 10⟩⟩,
      ⟨.ident "a", ⟨11, 12⟩⟩, ⟨.operator "+", ⟨13, 14⟩⟩,
      ⟨.ident "b", ⟨15, 16⟩⟩, ⟨.operator "=", ⟨17, 18⟩⟩,
      ⟨.ofMark .lparen, ⟨19, 20⟩⟩, ⟨.operator "+", ⟨20, 21⟩⟩,
      ⟨.ofMark .rparen, ⟨21, 22⟩⟩, ⟨.operator "+", ⟨23, 24⟩⟩,
      ⟨.ident "b", ⟨25, 26⟩⟩, ⟨.ofMark .semicolon, ⟨26, 27⟩⟩]
  let items' : List Token :=
    [⟨.ident "y", ⟨0, 1⟩⟩, ⟨.operator "=", ⟨2, 3⟩⟩, ⟨.ident "a", ⟨4, 5⟩⟩,
      ⟨.operator "+", ⟨6, 7⟩⟩, ⟨.ident "b", ⟨8, 9⟩⟩,
      ⟨.ofMark .semicolon, ⟨9, 10⟩⟩, ⟨.reserved "infix", ⟨11, 16⟩⟩,
      ⟨.natural 6, ⟨17, 18⟩⟩, ⟨.operator "+", ⟨19, 20⟩⟩,
      ⟨.ofMark .semicolon, ⟨20, 21⟩⟩]
  have scans : Lexer.tokenize .standard text "m"
      = .ok (items ++ [⟨.eof "", ⟨27, 27⟩⟩]) := by
    decide +kernel
  have scans' : Lexer.tokenize .standard late "m"
      = .ok (items' ++ [⟨.eof "", ⟨21, 21⟩⟩]) := by
    decide +kernel
  have accepted : ¬(readModule .standard "m" text {}).Fails := by
    decide +kernel
  obtain ⟨decls, read⟩ :=
    (Reading.readModule_ok_or_fails {} scans).resolve_right accepted
  refine ⟨⟨decls, read⟩, ⟨items, _, scans, fun k listed => ?_⟩, ?_⟩
  · have spells : ∀ k ∈ [2, 5, 9, 11],
        items[k]?.map Token.lexeme = some (.operator "+") := by
      decide
    obtain ⟨token, place, spelled⟩ :=
      Option.map_eq_some_iff.1 (spells k listed)
    exact (readModule_operators_accounted "m" text {} items _ scans).1
      decls read k token "+" place spelled (by decide +kernel)
  · refine (readModule_operators_accounted "m" late {} items' _ scans').2
      3 ⟨.operator "+", ⟨6, 7⟩⟩ "+" rfl rfl (by decide +kernel) ?_
    let inp := Reading.inputOf items' ⟨.eof "", ⟨21, 21⟩⟩ .standard "m" late
    have before : ∀ i < 3, (inp.tokenAt i).kind = .ident
        ∨ (inp.tokenAt i).kind = .operator := by
      decide +kernel
    have first : (inp.tokenAt 0).lexeme = .ident "y" := rfl
    have behind : (inp.tokenAt 4).kind = .ident := rfl
    intro accounted
    rcases accounted.cases_of_first before with
      enclosed | ⟨r, left, read⟩ | ⟨e, none, -⟩
    · exact absurd (behind.symm.trans enclosed.closing) (by simp)
    · -- the name alone is an atom already, and ends before the equals sign
      obtain ⟨-, there⟩ := read.unique (reads_atom_ident first)
      cases there
    · cases none

end DepLang

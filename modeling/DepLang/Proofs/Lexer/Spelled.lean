/-
Tokens are spelled as they say. A word or an operator that a text of the
standard language scans to is read as far as its letters go, so that it
reads the same when it stands alone (`lone_of_mem_tokenize`). What is
known of texts that lex to a single word or operator thus holds of every
identifier and every operator that is ever read.
-/
import DepLang.Proofs.Lexer.Lexes

namespace DepLang.Lexer

-- ========================================================= alone

section
variable {c : Char} {cs : List Char} {text : String} {l : Lexeme}

/-- A text that is one piece scans to the one lexeme. -/
theorem lone_of_pieceAt (chars : text.toList = c :: cs)
    (piece : pieceAt .standard c cs = .lexeme l (cs.length + 1)) :
    Lone text l := by
  have length : text.length = cs.length + 1 := by
    rw [← String.length_toList, chars, List.length_cons]
  refine tokenize_standard_iff.2 ?_
  rw [chars, scan, piece, length]
  simp [scan]

/-- An identifier that is found is one by itself. -/
theorem lone_of_ident {rest : List Char} {word : String} {width : Nat}
    (h : Found c rest (.lexeme (.ident word) width)) :
    Lone word (.ident word) := by
  cases h with
  | ident starts run free =>
      refine lone_of_pieceAt run ?_
      have letters : ∀ d ∈ rest.takeWhile
          Rules.letterClass.contains,
          Rules.letterClass.contains d = true :=
        fun d hd => List.mem_takeWhile_imp hd
      have ended : ∀ d ∈ ([] : List Char).head?,
          Rules.letterClass.contains d = false :=
        fun d hd => by cases hd
      have piece := pieceAt_word starts letters ended
      rw [List.append_nil, ← run, String.ofList_toList, free] at piece
      exact piece

/-- An operator that is found is one by itself. -/
theorem lone_of_operator {rest : List Char} {symbol : String}
    {width : Nat}
    (h : Found c rest (.lexeme (.operator symbol) width)) :
    Lone symbol (.operator symbol) := by
  cases h with
  | operator run live letters =>
      obtain ⟨d, ds, chars⟩ := List.exists_cons_of_ne_nil letters
      rw [chars] at run
      have letters : ∀ d' ∈ d :: ds,
          Language.standard.isOperatorLetter d' = true := by
        rw [run]
        exact fun d' hd => List.mem_takeWhile_imp hd
      have live' : ¬['-', '-'] <+: d :: ds := fun comment => by
        rw [run] at comment
        exact live (comment.trans (List.takeWhile_prefix _))
      refine lone_of_pieceAt chars ?_
      have ended : ∀ d' ∈ ([] : List Char).head?,
          Language.standard.isOperatorLetter d' = false ∧ d' ≠ '[' :=
        fun d' hd => by cases hd
      have piece := pieceAt_operator letters live' ended
      rw [List.append_nil, ← chars, String.ofList_toList] at piece
      exact piece

end

-- ============================================================ scans

section
variable {tokens : List Token}

/-- Every token of a scan but its end was found somewhere in the
text. -/
theorem found_of_mem_scan {pos : Nat} {cs : List Char}
    (h : scan .standard pos cs = .ok tokens) :
    ∀ t ∈ tokens, t.lexeme = .eof ""
      ∨ ∃ c rest width, Found c rest (.lexeme t.lexeme width) := by
  replace h := scans_of_ok h
  induction h with
  | ends => exact List.forall_mem_singleton.2 (.inl rfl)
  | gap _ _ ih => exact ih
  | @lexeme _ width c rest l _ piece _ ih =>
      refine List.forall_mem_cons.2 ⟨.inr ⟨c, rest, width, ?_⟩, ih⟩
      show Found c rest (.lexeme l width)
      rw [← piece]
      exact found_pieceAt

/-- Every token of a text but its end was found somewhere in it. -/
theorem found_of_mem_tokenize {text filename : String}
    (h : tokenize .standard text filename = .ok tokens) {t : Token}
    (member : t ∈ tokens) (inside : t.kind ≠ .eof) :
    ∃ c rest width, Found c rest (.lexeme t.lexeme width) := by
  refine (found_of_mem_scan (tokenize_standard_iff.1 h) t member).resolve_left
    fun ended => inside ?_
  rw [Token.kind, ended]
  rfl

/-- The identifiers and operators of a text are such by themselves. -/
theorem lone_of_mem_tokenize {text filename : String}
    (h : tokenize .standard text filename = .ok tokens) {t : Token}
    (member : t ∈ tokens) :
    (∀ word, t.lexeme = .ident word → Lone word (.ident word))
      ∧ ∀ symbol, t.lexeme = .operator symbol →
        Lone symbol (.operator symbol) := by
  have found := found_of_mem_tokenize h member
  rw [Token.kind] at found
  constructor
  · intro word same
    rw [same] at found
    obtain ⟨c, rest, width, found⟩ := found (by simp [Lexeme.kind])
    exact lone_of_ident found
  · intro symbol same
    rw [same] at found
    obtain ⟨c, rest, width, found⟩ := found (by simp [Lexeme.kind])
    exact lone_of_operator found

/-- The numbers of a text have no more digits than can be written. -/
theorem short_of_mem_tokenize {text filename : String}
    (h : tokenize .standard text filename = .ok tokens) {t : Token}
    (member : t ∈ tokens) {n : Nat} (same : t.lexeme = .natural n) :
    n.repr.length ≤ Text.digitLimit := by
  have found := found_of_mem_tokenize h member
  rw [Token.kind, same] at found
  obtain ⟨c, rest, width, found⟩ := found (by simp [Lexeme.kind])
  cases found with
  | natural short => exact short

end

end DepLang.Lexer

/-
Tokens in order. In every language a lexeme takes up at least one
character, so each token of a text starts behind the one before it, and
the end of the input behind them all (`pairwise_tokenize`). A place in
the text therefore tells which token stands there.

No piece takes up more than there is (`within_pieceAt`), so the tokens
and the end that stands behind them are all in the text (`scan_places`),
and each one stops before the next one starts (`ordered_scan`).
-/
import DepLang.Proofs.Lexer.Lexes

namespace DepLang.Lexer

/-- A piece that is not a lexeme without any characters. -/
def Piece.Solid : Piece → Prop
  | .lexeme _ width => 0 < width
  | .gap _ | .flaw _ => True

section
variable {lang : Language} {rules : Rules} {c : Char}
  {rest : List Char} {p : Piece}

-- ========================================================= scanners

theorem solid_blank? (h : blank? (c :: rest) = some p) : p.Solid := by
  simp only [blank?, Option.ite_none_right_eq_some, Option.some.injEq] at h
  rw [← h.2]
  trivial

theorem solid_lineComment? (h : lineComment? lang (c :: rest) = some p) :
    p.Solid := by
  simp only [lineComment?, Option.ite_none_right_eq_some,
    Option.some.injEq] at h
  rw [← h.2]
  trivial

theorem solid_blockComment? (h : blockComment? lang (c :: rest) = some p) :
    p.Solid := by
  simp only [blockComment?] at h
  split at h
  · split at h <;> cases h <;> trivial
  · cases h

theorem solid_newlines? (h : newlines? (c :: rest) = some p) :
    p.Solid := by
  unfold newlines? at h
  split at h <;> cases h
  trivial

theorem solid_quote? (h : quote? (c :: rest) = some p) : p.Solid := by
  unfold quote? at h
  split at h <;> cases h
  exact Nat.two_pos

theorem solid_natural? (h : natural? (c :: rest) = some p) : p.Solid := by
  unfold natural? at h
  split at h <;> cases h
  next some_run =>
    unfold number
    split
    · exact List.length_pos_iff.2 some_run
    · trivial

theorem solid_word? (h : word? rules (c :: rest) = some p) : p.Solid := by
  obtain ⟨width, found, rfl⟩ := Option.map_eq_some_iff.1 h
  obtain ⟨word, rest, -, rfl, some_letter, -⟩ := Rules.word_of_width? found
  exact List.length_pos_iff.2 some_letter

theorem solid_hole? (h : hole? (c :: rest) = some p) : p.Solid := by
  unfold hole? at h
  split at h <;> cases h
  exact Nat.one_pos

theorem solid_operator? (h : operator? lang (c :: rest) = some p) :
    p.Solid := by
  unfold operator? at h
  split at h <;> cases h
  next some_run => exact List.length_pos_iff.2 some_run

theorem solid_mark? (h : mark? (c :: rest) = some p) : p.Solid := by
  unfold mark? at h
  split at h <;> cases h
  all_goals exact Nat.one_pos

/-- Whatever scanner accepts a text, no lexeme comes from nothing. -/
theorem solid_pieceAt : (pieceAt rules c rest).Solid := by
  have scanned := scanned_pieceAt rules c rest
  generalize pieceAt rules c rest = p at scanned ⊢
  cases scanned with
  | blank h => exact solid_blank? h
  | lineComment h => exact solid_lineComment? h
  | blockComment h => exact solid_blockComment? h
  | newlines h => exact solid_newlines? h
  | quote live h => exact solid_quote? h
  | natural live h => exact solid_natural? h
  | word live h => exact solid_word? h
  | hole live h => exact solid_hole? h
  | operator live h => exact solid_operator? h
  | mark live h => exact solid_mark? h
  | stray => trivial

-- ========================================================== widths

/-- A piece of no more than the given number of characters. -/
def Piece.Within (n : Nat) : Piece → Prop
  | .lexeme _ width | .gap width => width ≤ n
  | .flaw _ => True

/-- A block comment is no longer than the text. -/
theorem commentWidth_le {opening closing text : List Char} {nested : Bool}
    {depth width : Nat}
    (h : commentWidth opening closing nested depth text = some width) :
    width ≤ text.length := by
  fun_induction commentWidth opening closing nested depth text
    generalizing width with
  | case1 =>
      cases h
      exact Nat.zero_le _
  | case2 => cases h
  | case3 depth c rest closes ih =>
      obtain ⟨w, found, rfl⟩ := Option.map_eq_some_iff.1 h
      have le := ih found
      have short := (List.isPrefixOf_iff_prefix.1 closes).length_le
      rw [List.length_drop] at le
      omega
  | case4 depth c rest unclosed opens ih =>
      obtain ⟨w, found, rfl⟩ := Option.map_eq_some_iff.1 h
      have le := ih found
      have short :=
        (List.isPrefixOf_iff_prefix.1 (Bool.and_eq_true_iff.1 opens).2).length_le
      rw [List.length_drop] at le
      rw [List.length_cons] at short ⊢
      omega
  | case5 depth c rest unclosed unopened ih =>
      obtain ⟨w, found, rfl⟩ := Option.map_eq_some_iff.1 h
      have le := ih found
      rw [List.length_cons]
      omega

theorem within_lineComment? (h : lineComment? lang (c :: rest) = some p) :
    p.Within (c :: rest).length := by
  simp only [lineComment?, Option.ite_none_right_eq_some,
    Option.some.injEq] at h
  obtain ⟨opens, rfl⟩ := h
  have short := (List.isPrefixOf_iff_prefix.1 opens).length_le
  have body := (List.takeWhile_sublist (l := (c :: rest).drop
    lang.lineComment.toList.length) fun d => decide (d ≠ '\n')).length_le
  rw [List.length_drop] at body
  show _ + _ ≤ (c :: rest).length
  omega

theorem within_blockComment? (h : blockComment? lang (c :: rest) = some p) :
    p.Within (c :: rest).length := by
  simp only [blockComment?] at h
  split at h
  next opens =>
    have short := (List.isPrefixOf_iff_prefix.1 opens).length_le
    split at h <;> cases h
    next width found =>
      have body := commentWidth_le found
      rw [List.length_drop] at body
      show _ + width ≤ (c :: rest).length
      omega
    next => trivial
  · cases h

/-- Whatever scanner accepts a text, it takes no more than the text. -/
theorem within_pieceAt :
    (pieceAt rules c rest).Within (c :: rest).length := by
  have scanned := scanned_pieceAt rules c rest
  generalize pieceAt rules c rest = p at scanned ⊢
  cases scanned with
  | blank h =>
      simp only [blank?, Option.ite_none_right_eq_some,
        Option.some.injEq] at h
      rw [← h.2]
      exact Nat.succ_pos _
  | lineComment h => exact within_lineComment? h
  | blockComment h => exact within_blockComment? h
  | newlines h =>
      unfold newlines? at h
      split at h <;> cases h
      exact (List.takeWhile_sublist _).length_le
  | quote live h =>
      unfold quote? at h
      split at h <;> cases h
      next more same =>
        rw [same]
        exact Nat.le_add_left 2 _
  | natural live h =>
      unfold natural? at h
      split at h <;> cases h
      unfold number
      split
      · exact (List.takeWhile_sublist _).length_le
      · trivial
  | word live h =>
      obtain ⟨width, found, rfl⟩ := Option.map_eq_some_iff.1 h
      obtain ⟨word, behind, split, rfl, -⟩ := Rules.word_of_width? found
      rw [split, List.length_append]
      exact Nat.le_add_right _ _
  | hole live h =>
      unfold hole? at h
      split at h <;> cases h
      exact Nat.succ_pos _
  | operator live h =>
      unfold operator? at h
      split at h <;> cases h
      exact (List.takeWhile_sublist _).length_le
  | mark live h =>
      unfold mark? at h
      split at h <;> cases h
      all_goals exact Nat.succ_pos _
  | stray => trivial

end

-- ============================================================ scans

section
variable {lang : Language} {rules : Rules} {tokens : List Token}

/-- The tokens of a scan start one behind the other. -/
theorem pairwise_scan {pos : Nat} {cs : List Char}
    (h : scan rules pos cs = .ok tokens) :
    tokens.Pairwise (·.span.start < ·.span.start) := by
  replace h := scans_of_ok h
  induction h with
  | ends => exact List.pairwise_singleton _ _
  | gap _ _ ih => exact ih
  | @lexeme _ _ c rest _ _ piece behind ih =>
      have solid : (pieceAt rules c rest).Solid := solid_pieceAt
      rw [piece] at solid
      refine List.pairwise_cons.2 ⟨fun t ht => ?_, ih⟩
      exact Nat.lt_of_lt_of_le (Nat.lt_add_of_pos_right solid)
        (behind.le_start t ht)

/-- Each token of a scan stops before the next one starts. -/
theorem ordered_scan {pos : Nat} {cs : List Char}
    (h : scan rules pos cs = .ok tokens) :
    tokens.Pairwise fun t u => t.span.stop ≤ u.span.start := by
  replace h := scans_of_ok h
  induction h with
  | ends => exact List.pairwise_singleton _ _
  | gap _ _ ih => exact ih
  | lexeme _ behind ih => exact List.pairwise_cons.2 ⟨behind.le_start, ih⟩

/-- Behind tokens with some characters, a scan ends in the text with one
that has none. -/
theorem scan_places {pos : Nat} {cs : List Char}
    (h : scan rules pos cs = .ok tokens) :
    ∃ items stop, tokens = items ++ [⟨.eof "", ⟨stop, stop⟩⟩]
      ∧ stop ≤ pos + cs.length
      ∧ ∀ t ∈ items, t.span.start < t.span.stop := by
  replace h := scans_of_ok h
  induction h with
  | ends => exact ⟨[], _, rfl, Nat.le_refl _, by simp⟩
  | @gap _ width c rest _ piece _ ih =>
      have within : (pieceAt rules c rest).Within (c :: rest).length :=
        within_pieceAt
      rw [piece] at within
      have short : width ≤ rest.length + 1 := within
      obtain ⟨items, stop, rfl, le, each⟩ := ih
      refine ⟨items, stop, rfl, ?_, each⟩
      rw [List.length_drop] at le
      rw [List.length_cons]
      omega
  | @lexeme _ width c rest _ _ piece _ ih =>
      have within : (pieceAt rules c rest).Within (c :: rest).length :=
        within_pieceAt
      have solid : (pieceAt rules c rest).Solid := solid_pieceAt
      rw [piece] at within solid
      have short : width ≤ rest.length + 1 := within
      obtain ⟨items, stop, rfl, le, each⟩ := ih
      refine ⟨_ :: items, stop, rfl, ?_, List.forall_mem_cons.2 ⟨?_, each⟩⟩
      · rw [List.length_drop] at le
        rw [List.length_cons]
        omega
      · exact Nat.lt_add_of_pos_right solid

theorem pairwise_tokenize {text filename : String}
    (h : tokenize lang text filename = .ok tokens) :
    tokens.Pairwise (·.span.start < ·.span.start) := by
  obtain ⟨rules, -, scans⟩ := scan_of_tokenize h
  exact pairwise_scan scans

/-- Of two tokens, the one that starts first stands first. -/
theorem start_lt_iff
    (ordered : tokens.Pairwise (·.span.start < ·.span.start))
    {i j : Nat} {σ τ : Span} (here : (tokens[i]?).map Token.span = some σ)
    (there : (tokens[j]?).map Token.span = some τ) :
    σ.start < τ.start ↔ i < j := by
  obtain ⟨t, ht, rfl⟩ := Option.map_eq_some_iff.1 here
  obtain ⟨u, hu, rfl⟩ := Option.map_eq_some_iff.1 there
  obtain ⟨hi, rfl⟩ := List.getElem?_eq_some_iff.1 ht
  obtain ⟨hj, rfl⟩ := List.getElem?_eq_some_iff.1 hu
  have later := List.pairwise_iff_getElem.1 ordered
  constructor
  · intro lt
    rcases Nat.lt_trichotomy i j with h | rfl | h
    · exact h
    · exact absurd lt (Nat.lt_irrefl _)
    · exact absurd lt (Nat.lt_asymm (later j i hj hi h))
  · exact later i j hi hj

end

end DepLang.Lexer

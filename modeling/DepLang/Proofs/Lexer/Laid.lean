/-
A list of lexemes may be written down in many ways: a number by any
digits that denote it, and behind each lexeme any gap that starts with a
whitespace character (`Laid`). In the standard language the lexer reads
each of them back as the same lexemes, each one where it was put, unless
a number is too long to be converted; then it stops at the first of
these (`tokenize_layout`).

A whitespace character stops whatever stands in front of it. So the
piece at a lexeme's first character is the lexeme, whatever follows the
whitespace (`pieceAt_spelled`); the gap behind it is passed over; and
the induction is on the list.
-/
import DepLang.Proofs.Lexer.Tiles

namespace DepLang.Lexer

-- ============================================================ layout

/-- A lexeme as it is written down, with the gap behind it. An operator
that starts like a line comment cannot be written down. -/
structure Laid where
  lexeme : Lexeme
  word : List Char
  gap : List Char
  spells : Spells .standard lexeme word
  live : ¬Language.standard.lineComment.toList <+: word
  apart : ∃ d ∈ gap.head?, isWhitespace d = true
  spaced : Gap .standard False gap

/-- A number with no more digits than are converted, or no number. -/
def Laid.Fits (x : Laid) : Prop :=
  x.lexeme.kind = .natural → x.word.length ≤ Text.digitLimit

/-- The text that the lexemes are written down as. -/
def layout (items : List Laid) : List Char :=
  items.flatMap fun x => x.word ++ x.gap

/-- The lexemes where the text has them, if it starts at the offset. -/
def placed : Nat → List Laid → List Token
  | _, [] => []
  | pos, x :: items =>
    ⟨x.lexeme, ⟨pos, pos + x.word.length⟩⟩
      :: placed (pos + x.word.length + x.gap.length) items

-- ============================================================ pieces

section
variable {l : Lexeme} {word : List Char}

/-- Whitespace goes on with no lexeme and opens no comment. -/
theorem of_whitespace {d : Char} (white : isWhitespace d = true) :
    Rules.letterClass.contains d = false
      ∧ Text.isDigit d = false
      ∧ Language.standard.isOperatorLetter d = false
      ∧ d ≠ '[' ∧ d ≠ '-' := by
  have each : ∀ d ∈ [' ', '\t', '\r', '\x0c', '\n'],
      Rules.letterClass.contains d = false
        ∧ Text.isDigit d = false
        ∧ Language.standard.isOperatorLetter d = false
        ∧ d ≠ '[' ∧ d ≠ '-' :=
    forall_of_all (by decide)
  refine each d ?_
  simpa only [isWhitespace, isBlank, Bool.or_eq_true, beq_iff_eq,
    List.mem_cons, List.not_mem_nil, or_false, or_assoc] using white

/-- A mark is read where whitespace follows. -/
theorem pieceAt_marked (m : Mark) {d : Char}
    (white : isWhitespace d = true) (rest : List Char) :
    ∃ c cs, m.spelling.toList = c :: cs
      ∧ pieceAt .standard c (cs ++ d :: rest)
        = .lexeme (.ofMark m) (cs.length + 1) := by
  cases m with
  | quote => exact ⟨_, _, rfl, pieceAt_quote⟩
  | lbrace => exact ⟨_, _, rfl, pieceAt_lbrace (of_whitespace white).2.2.2.2⟩
  | lbracket =>
      exact ⟨_, _, rfl, pieceAt_mark (by decide)
        (by decide) (by decide) rfl⟩
  | hole => exact ⟨_, _, rfl, pieceAt_single (by decide)⟩
  | lparen => exact ⟨_, _, rfl, pieceAt_single (by decide)⟩
  | rparen => exact ⟨_, _, rfl, pieceAt_single (by decide)⟩
  | rbrace => exact ⟨_, _, rfl, pieceAt_single (by decide)⟩
  | rbracket => exact ⟨_, _, rfl, pieceAt_single (by decide)⟩
  | comma => exact ⟨_, _, rfl, pieceAt_single (by decide)⟩
  | semicolon => exact ⟨_, _, rfl, pieceAt_single (by decide)⟩

/-- A lexeme is read as it is written where whitespace follows, if it
fits. -/
theorem pieceAt_spelled (spells : Spells .standard l word)
    (live : ¬Language.standard.lineComment.toList <+: word)
    (fits : l.kind = .natural → word.length ≤ Text.digitLimit) {d : Char}
    (white : isWhitespace d = true) (rest : List Char) :
    ∃ c cs, word = c :: cs ∧ pieceAt .standard c (cs ++ d :: rest)
      = .lexeme l (cs.length + 1) := by
  obtain ⟨noLetter, noDigit, noOperator, noBracket, -⟩ := of_whitespace white
  have next {p : Char → Prop} (h : p d) : ∀ e ∈ (d :: rest).head?, p e := by
    rintro e ⟨rfl⟩
    exact h
  cases spells with
  | ident _ isWord free =>
      obtain ⟨c, cs, rfl, starts, letters⟩ := Rules.isWord_standard.1 isWord
      have piece := pieceAt_word starts letters (next noLetter)
      rw [free] at piece
      exact ⟨c, cs, rfl, piece⟩
  | reserved _ isWord kept =>
      obtain ⟨c, cs, rfl, starts, letters⟩ := Rules.isWord_standard.1 isWord
      have piece := pieceAt_word starts letters (next noLetter)
      rw [kept] at piece
      exact ⟨c, cs, rfl, piece⟩
  | natural some_digit digits =>
      obtain ⟨c, cs, rfl⟩ := List.exists_cons_of_ne_nil some_digit
      exact ⟨c, cs, rfl, pieceAt_natural digits (fits rfl) (next noDigit)⟩
  | operator some_letter letters =>
      obtain ⟨c, cs, rfl⟩ := List.exists_cons_of_ne_nil some_letter
      rw [marks_standard.1] at live
      exact ⟨c, cs, rfl,
        pieceAt_operator letters live (next ⟨noOperator, noBracket⟩)⟩
  | mark m => exact pieceAt_marked m white rest

/-- A number that is too long is a flaw where whitespace follows. -/
theorem pieceAt_overlong (spells : Spells .standard l word)
    (number : l.kind = .natural) (long : ¬word.length ≤ Text.digitLimit)
    {d : Char} (white : isWhitespace d = true) (rest : List Char) :
    ∃ c cs, word = c :: cs ∧ pieceAt .standard c (cs ++ d :: rest)
      = .flaw (.defect (.overlongNumber word.length)) := by
  have stops : ∀ e ∈ (d :: rest).head?, Text.isDigit e = false := by
    rintro e ⟨rfl⟩
    exact (of_whitespace white).2.1
  cases spells with
  | natural some_digit digits =>
      obtain ⟨c, cs, rfl⟩ := List.exists_cons_of_ne_nil some_digit
      refine ⟨c, cs, rfl, ?_⟩
      rw [pieceAt_digits digits stops, Lexer.number, if_neg long]
  | _ => cases number

end

-- ============================================================ scans

/-- A lexeme and its gap are one token of the scan. -/
theorem scan_laid {x : Laid} (fits : x.Fits) (pos : Nat)
    (rest : List Char) :
    scan .standard pos (x.word ++ x.gap ++ rest)
      = (scan .standard (pos + x.word.length + x.gap.length) rest).map
        (⟨x.lexeme, ⟨pos, pos + x.word.length⟩⟩ :: ·) := by
  obtain ⟨d, first, white⟩ := x.apart
  obtain ⟨gap, split⟩ := List.head?_eq_some_iff.1 first
  obtain ⟨c, cs, spelled, piece⟩ :=
    pieceAt_spelled x.spells x.live fits white (gap ++ rest)
  rw [← List.cons_append, ← split] at piece
  rw [List.append_assoc, spelled, List.cons_append, scan_lexeme piece,
    Nat.add_sub_cancel, List.drop_left, scan_gap x.spaced, List.length_cons]

/-- What follows some lexemes that fit comes behind their tokens. -/
theorem scan_layout_append {items : List Laid} (fit : ∀ x ∈ items, x.Fits)
    (pos : Nat) (rest : List Char) :
    scan .standard pos (layout items ++ rest)
      = (scan .standard (pos + (layout items).length) rest).map
        (placed pos items ++ ·) := by
  induction items generalizing pos with
  | nil =>
      show scan .standard pos rest = (scan .standard pos rest).map id
      cases scan .standard pos rest <;> rfl
  | cons x items ih =>
      obtain ⟨fits, others⟩ := List.forall_mem_cons.1 fit
      have split : layout (x :: items) = x.word ++ x.gap ++ layout items :=
        List.flatMap_cons
      rw [split, List.append_assoc, scan_laid fits, ih others]
      simp only [List.length_append, ← Nat.add_assoc]
      cases scan .standard (pos + x.word.length + x.gap.length
        + (layout items).length) rest <;> rfl

theorem scan_layout {items : List Laid} (fit : ∀ x ∈ items, x.Fits)
    (pos : Nat) :
    scan .standard pos (layout items)
      = .ok (placed pos items
        ++ [⟨.eof "", ⟨pos + (layout items).length,
          pos + (layout items).length⟩⟩]) := by
  have whole := scan_layout_append fit pos []
  rwa [List.append_nil, scan] at whole

/-- A number that does not fit stops the scan. -/
theorem scan_overlong {x : Laid} (long : ¬x.Fits) (pos : Nat)
    (rest : List Char) :
    scan .standard pos (x.word ++ x.gap ++ rest)
      = .error (.defect (.overlongNumber x.word.length), pos) := by
  obtain ⟨number, long⟩ := Classical.not_imp.1 long
  obtain ⟨d, first, white⟩ := x.apart
  obtain ⟨gap, split⟩ := List.head?_eq_some_iff.1 first
  obtain ⟨c, cs, spelled, piece⟩ :=
    pieceAt_overlong x.spells number long white (gap ++ rest)
  rw [← List.cons_append, ← split] at piece
  rw [List.append_assoc]
  generalize x.word.length = digits at piece ⊢
  rw [spelled, List.cons_append, scan, piece]

theorem scan_layout_overlong {before : List Laid} {x : Laid}
    (fit : ∀ y ∈ before, y.Fits) (long : ¬x.Fits) (pos : Nat)
    (after : List Laid) :
    ∃ place, scan .standard pos (layout (before ++ x :: after))
      = .error (.defect (.overlongNumber x.word.length), place) := by
  have split : layout (before ++ x :: after)
      = layout before ++ (x.word ++ x.gap ++ layout after) := by
    rw [layout, List.flatMap_append, List.flatMap_cons]
    rfl
  rw [split, scan_layout_append fit, scan_overlong long]
  exact ⟨_, rfl⟩

/-- However the lexemes are written down, the lexer reads them back, each
one where it was put, and then the end of the text, unless a number is
too long: the first such number is what stops it. -/
theorem tokenize_layout {lead : List Char}
    (spaced : Gap .standard False lead) (items : List Laid)
    (filename : String) :
    ((∀ x ∈ items, x.Fits) →
      tokenize .standard (String.ofList (lead ++ layout items)) filename
        = .ok (placed lead.length items
          ++ [⟨.eof "", ⟨(lead ++ layout items).length,
            (lead ++ layout items).length⟩⟩]))
    ∧ ∀ before x after, items = before ++ x :: after →
      (∀ y ∈ before, y.Fits) → ¬x.Fits →
      tokenize .standard (String.ofList (lead ++ layout items)) filename
        = .error (.defect (.overlongNumber x.word.length)) := by
  constructor
  · intro fit
    rw [tokenize_standard_iff, String.toList_ofList, scan_gap spaced,
      scan_layout fit, Nat.zero_add, List.length_append]
  · rintro before x after rfl fit long
    obtain ⟨place, stopped⟩ :=
      scan_layout_overlong fit long (0 + lead.length) after
    rw [tokenize_toLanguage .standard, String.toList_ofList,
      scan_gap spaced, stopped]
    rfl

/-- As many ones, and a newline. -/
def ones (n : Nat) (some_digit : n ≠ 0) : Laid where
  lexeme := .natural (Text.numeralValue (List.replicate n '1'))
  word := List.replicate n '1'
  gap := ['\n']
  spells := .natural (by simpa using some_digit) fun d hd => by
    rw [List.eq_of_mem_replicate hd]
    decide
  live := fun comment => by
    have dash := List.eq_of_mem_replicate
      (comment.subset (List.mem_cons_self (l := ['-'])))
    cases dash
  apart := ⟨'\n', rfl, rfl⟩
  spaced := .space rfl .nil

theorem length_word_ones (n : Nat) (some_digit : n ≠ 0) :
    (ones n some_digit).word.length = n :=
  List.length_replicate

theorem not_fits_ones {n : Nat} (some_digit : n ≠ 0)
    (long : Text.digitLimit < n) : ¬(ones n some_digit).Fits := fun fits => by
  have short := fits rfl
  rw [length_word_ones] at short
  exact Nat.not_le_of_lt long short

/-- A number with zeros in front and an empty comment behind it, under a
comment of its own; and behind it a number that is one digit too
long. -/
theorem tokenize_layout_zeros :
    tokenize .standard "--a\n007 \x7b--\x7d" ""
        = .ok [⟨.natural 7, ⟨4, 7⟩⟩, ⟨.eof "", ⟨12, 12⟩⟩]
      ∧ tokenize .standard
        (String.ofList ("--a\n007 \x7b--\x7d".toList
          ++ (List.replicate 4301 '1' ++ ['\n']))) ""
        = .error (.defect (.overlongNumber 4301)) := by
  have newline : Gap .standard False ['\n'] := .space rfl .nil
  have plain : '\n' ∉ ['a'] := by decide
  have lead : Gap .standard False "--a\n".toList :=
    .line plain (.inl rfl) newline
  have written : Spells .standard
      (.natural (Text.numeralValue "007".toList)) "007".toList :=
    .natural (by decide) (forall_of_all (by decide))
  let zeros : Laid :=
    { lexeme := .natural 7
      word := "007".toList
      gap := " \x7b--\x7d".toList
      spells := written
      live := by decide
      apart := ⟨' ', rfl, rfl⟩
      spaced := .space rfl (.block .close .nil) }
  have short : zeros.Fits := fun _ => by
    show "007".toList.length ≤ Text.digitLimit
    decide
  constructor
  · have text : "--a\n007 \x7b--\x7d"
        = String.ofList ("--a\n".toList
          ++ ("007".toList ++ " \x7b--\x7d".toList ++ [])) := by
      decide
    rw [text]
    exact (tokenize_layout lead [zeros] "").1
      (List.forall_mem_singleton.2 short)
  · have text (n : Nat) (some_digit : n ≠ 0) :
        "--a\n".toList ++ layout [zeros, ones n some_digit]
          = "--a\n007 \x7b--\x7d".toList
            ++ (List.replicate n '1' ++ ['\n']) := by
      simp [layout, zeros, ones]
    have stopped := (tokenize_layout lead [zeros, ones 4301 (by decide)]
      "").2 [zeros] _ [] rfl (List.forall_mem_singleton.2 short)
      (not_fits_ones _ (by decide))
    rwa [text, length_word_ones] at stopped

/-- So a text that is one long number, which spells its value, is not
lexed. -/
theorem tokenize_layout_overlong :
    Spells .standard (.natural (Text.numeralValue (List.replicate 4301 '1')))
        (List.replicate 4301 '1')
      ∧ tokenize .standard
        (String.ofList (List.replicate 4301 '1' ++ ['\n'])) ""
        = .error (.defect (.overlongNumber 4301)) := by
  have some_digit : 4301 ≠ 0 := by decide
  have long : ¬(ones 4301 some_digit).Fits :=
    not_fits_ones some_digit (by decide)
  refine ⟨(ones 4301 some_digit).spells, ?_⟩
  have stopped := scan_overlong long 0 []
  rw [length_word_ones, List.append_nil] at stopped
  rw [tokenize_toLanguage .standard, String.toList_ofList]
  exact congrArg (Except.mapError _) stopped

end DepLang.Lexer

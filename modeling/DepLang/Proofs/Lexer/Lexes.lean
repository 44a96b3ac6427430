/-
What a text lexes to in the standard language, piece by piece. A word or
an operator is read to its end wherever a character follows that could
not have made it longer, and the marks and blanks are read one by one.
So the lexemes of a text can be told from those of its parts, as long as
no two parts run together.

A word or an operator is given by what the lexer makes of it alone. That
alone it is read to its end says what its characters are, and with that
it is read the same way in front of any text that ends it.

Of the tokens that a scan finds, facts are proved along the scan
(`Scans`): gaps, lexemes, and the end of the input.
-/
import DepLang.Lexer
import DepLang.Proofs.Language.Words
import Mathlib.Data.Nat.Digits.Defs

namespace DepLang.Lexer

-- ======================================================= characters

/-- What holds of the characters of a list, checked one by one. -/
theorem forall_of_all {p : Char → Prop} [DecidablePred p] {cs : List Char}
    (h : (cs.all fun d => p d) = true) : ∀ d ∈ cs, p d :=
  fun d hd => of_decide_eq_true (List.all_eq_true.1 h d hd)

/-- What holds of all ASCII characters, checked one by one. -/
theorem forall_ascii {p : Char → Bool}
    (h : ((List.range 128).all fun n => p (Char.ofNat n)) = true) :
    ∀ c : Char, c.toNat < 128 → p c = true := by
  intro c small
  have checked := List.all_eq_true.1 h c.toNat (List.mem_range.2 small)
  rwa [Char.ofNat_toNat] at checked

/-- Is a piece that starts with the character neither a gap nor a
quotation mark nor a number? -/
def isPlain (c : Char) : Bool :=
  !(isBlank c || c == '-' || c == '\x7b' || c == '\n' || c == '!'
    || Text.isDigit c)

theorem lt_of_identLetter {c : Char}
    (h : Rules.letterClass.contains c = true) : c.toNat < 128 := by
  simp only [CharClass.contains, Rules.letterClass, CharClass.Member.char,
    CharClass.Member.contains, List.any_cons, List.any_nil, Bool.or_false,
    Bool.or_eq_true, Bool.and_eq_true, decide_eq_true_eq, Char.le_def,
    UInt32.le_iff_toNat_le, Bool.bne_false] at h
  have bound : ∀ {d : Char}, d.toNat < 128 → c.val.toNat ≤ d.val.toNat →
      c.toNat < 128 := by
    intro d small le
    have : c.toNat ≤ d.toNat := le
    omega
  rcases h with h | h | h | h | h <;> exact bound (by decide) h.2

theorem identLetter_of_identStart {c : Char}
    (h : Rules.startClass.contains c = true) :
    Rules.letterClass.contains c = true := by
  simp only [CharClass.contains, Rules.startClass, Rules.letterClass,
    List.any_cons, List.any_nil, Bool.or_false, Bool.or_eq_true,
    Bool.bne_false] at h ⊢
  rcases h with h | h
  · exact .inl h
  · exact .inr (.inl h)

/-- A letter that starts a word starts nothing else. -/
theorem plain_of_identStart {c : Char}
    (h : Rules.startClass.contains c = true) :
    isPlain c = true ∧ Language.standard.isOperatorLetter c = false
      ∧ c ≠ '[' := by
  have checked := forall_ascii
    (p := fun c => !Rules.startClass.contains c
      || (isPlain c && !Language.standard.isOperatorLetter c && c != '['))
    (by decide) c (lt_of_identLetter (identLetter_of_identStart h))
  rw [h] at checked
  simpa [and_assoc] using checked

/-- What an operator letter cannot start or be. -/
theorem of_operatorLetter {c : Char}
    (h : Language.standard.isOperatorLetter c = true) :
    isBlank c = false ∧ c ≠ '\x7b' ∧ c ≠ '\n' ∧ Text.isDigit c = false
      ∧ Rules.startClass.contains c = false ∧ c ≠ '_'
      ∧ c ≠ '[' := by
  have letters : ∀ d ∈ Language.standard.operatorLetters.toList,
      isBlank d = false ∧ d ≠ '\x7b' ∧ d ≠ '\n' ∧ Text.isDigit d = false
        ∧ Rules.startClass.contains d = false ∧ d ≠ '_'
        ∧ d ≠ '[' :=
    forall_of_all (by decide)
  exact letters c (List.contains_iff_mem.1 h)

/-- What a digit cannot start. -/
theorem of_digit {c : Char} (h : Text.isDigit c = true) :
    isBlank c = false ∧ c ≠ '-' ∧ c ≠ '\x7b' ∧ c ≠ '\n' ∧ c ≠ '!' := by
  have other (d : Char) (no_digit : Text.isDigit d = false) : c ≠ d := by
    rintro rfl
    rw [no_digit] at h
    cases h
  refine ⟨?_, other _ (by decide), other _ (by decide),
    other _ (by decide), other _ (by decide)⟩
  simp only [isBlank, Bool.or_eq_false_iff, beq_eq_false_iff_ne]
  exact ⟨⟨⟨other _ (by decide), other _ (by decide)⟩,
    other _ (by decide)⟩, other _ (by decide)⟩

theorem marks_standard :
    Language.standard.lineComment.toList = ['-', '-']
      ∧ Language.standard.blockOpen.toList = ['\x7b', '-'] := by
  decide

-- ========================================================= scanners

/-- A word of the standard language is a run of letters. -/
theorem word?_standard (c : Char) (rest : List Char) :
    word? .standard (c :: rest)
      = if Rules.startClass.contains c then
          let run := c :: rest.takeWhile Rules.letterClass.contains
          let word := String.ofList run
          some (.lexeme
            (if Language.standard.isReservedWord word then .reserved word
              else .ident word)
            run.length)
        else none := by
  rw [word?, Rules.width?_standard]
  split
  next =>
    have whole := List.takeWhile_prefix Rules.letterClass.contains (l := rest)
    rw [Option.map_some, List.length_cons, List.take_succ_cons,
      ← List.prefix_iff_eq_take.1 whole]
    rfl
  next => rfl

/-- A run of digits denotes a number of as many digits, or fewer. -/
theorem numeralValue_lt (digits : List Char) :
    Text.numeralValue digits < 10 ^ digits.length := by
  have digit_lt (c : Char) : (Text.digitValue? c).getD 0 < 10 := by
    cases found : Text.digitValue? c with
    | none => decide
    | some n => exact Text.digitValue?_lt found
  -- the digits go on from a number that is already there
  have onward (start : Nat) :
      digits.foldl (fun n c => 10 * n + (Text.digitValue? c).getD 0) start
        < (start + 1) * 10 ^ digits.length := by
    induction digits generalizing start with
    | nil => simp
    | cons c digits ih =>
        have lt := ih (10 * start + (Text.digitValue? c).getD 0)
        have le : 10 * start + (Text.digitValue? c).getD 0 + 1
            ≤ (start + 1) * 10 := by
          have := digit_lt c
          omega
        rw [List.length_cons, Nat.pow_succ', ← Nat.mul_assoc]
        exact Nat.lt_of_lt_of_le lt (Nat.mul_le_mul_right _ le)
  have whole := onward 0
  rwa [Nat.zero_add, Nat.one_mul] at whole

/-- The value of a number has no more digits than were written. -/
theorem length_repr_numeralValue {run : List Char} (some_digit : run ≠ []) :
    (Text.numeralValue run).repr.length ≤ run.length :=
  Nat.repr_length _ _ (List.length_pos_iff.2 some_digit)
    (numeralValue_lt run)

/-- No line comment starts with the text and no newline. -/
def Live (lang : Language) (text : List Char) : Prop :=
  lineComment? lang text = none ∧ newlines? text = none

/-- Which scanner a piece comes from. A lexeme is only looked for where
the text is live. -/
inductive Scanned (rules : Rules) (c : Char) (rest : List Char) :
    Piece → Prop
  | blank {p : Piece} (h : blank? (c :: rest) = some p) :
      Scanned rules c rest p
  | lineComment {p : Piece}
      (h : lineComment? rules.toLanguage (c :: rest) = some p) :
      Scanned rules c rest p
  | blockComment {p : Piece}
      (h : blockComment? rules.toLanguage (c :: rest) = some p) :
      Scanned rules c rest p
  | newlines {p : Piece} (h : newlines? (c :: rest) = some p) :
      Scanned rules c rest p
  | quote {p : Piece} (live : Live rules.toLanguage (c :: rest))
      (h : quote? (c :: rest) = some p) : Scanned rules c rest p
  | natural {p : Piece} (live : Live rules.toLanguage (c :: rest))
      (h : natural? (c :: rest) = some p) : Scanned rules c rest p
  | word {p : Piece} (live : Live rules.toLanguage (c :: rest))
      (h : word? rules (c :: rest) = some p) : Scanned rules c rest p
  | hole {p : Piece} (live : Live rules.toLanguage (c :: rest))
      (h : hole? (c :: rest) = some p) : Scanned rules c rest p
  | operator {p : Piece} (live : Live rules.toLanguage (c :: rest))
      (h : operator? rules.toLanguage (c :: rest) = some p) :
      Scanned rules c rest p
  | mark {p : Piece} (live : Live rules.toLanguage (c :: rest))
      (h : mark? (c :: rest) = some p) : Scanned rules c rest p
  | stray : Scanned rules c rest 
      (.flaw (.complaint (.strayCharacter c)))

/-- A piece comes from the first scanner that accepts the text. -/
theorem scanned_pieceAt (rules : Rules) (c : Char)
    (rest : List Char) : Scanned rules c rest (pieceAt rules c rest) := by
  have either := Option.getD_eq_iff.1 (Eq.refl (pieceAt rules c rest))
  simp only [Option.orElse_eq_orElse, Option.orElse_eq_or,
    Option.or_eq_some_iff] at either
  obtain (h | ⟨-, h | ⟨noLine, h | ⟨-, h | ⟨noNewline, h | ⟨-, h | ⟨-,
    h | ⟨-, h | ⟨-, h | ⟨-, h⟩⟩⟩⟩⟩⟩⟩⟩⟩) | ⟨-, h⟩ := either
  · exact .blank h
  · exact .lineComment h
  · exact .blockComment h
  · exact .newlines h
  · exact .quote ⟨noLine, noNewline⟩ h
  · exact .natural ⟨noLine, noNewline⟩ h
  · exact .word ⟨noLine, noNewline⟩ h
  · exact .hole ⟨noLine, noNewline⟩ h
  · exact .operator ⟨noLine, noNewline⟩ h
  · exact .mark ⟨noLine, noNewline⟩ h
  · rw [← h]
    exact .stray

/-- What the head of a text can be: a gap, a lexeme or a flaw. Words and
operators are as long as they can be, and no operator starts where a
line comment does. -/
inductive Found (c : Char) (rest : List Char) : Piece → Prop
  | gap {width : Nat} : Found c rest (.gap (width + 1))
  | flaw {flaw : Flaw} : Found c rest (.flaw flaw)
  | mark {m : Mark} {width : Nat} :
      Found c rest (.lexeme (.mark m m.spelling) width)
  | natural {value width : Nat}
      (short : value.repr.length ≤ Text.digitLimit) :
      Found c rest (.lexeme (.natural value) width)
  | reserved {word : String} {width : Nat} :
      Found c rest (.lexeme (.reserved word) width)
  | ident {word : String} {width : Nat}
      (starts : Rules.startClass.contains c = true)
      (run : word.toList
        = c :: rest.takeWhile Rules.letterClass.contains)
      (free : Language.standard.isReservedWord word = false) :
      Found c rest (.lexeme (.ident word) width)
  | operator {symbol : String} {width : Nat}
      (run : symbol.toList
        = (c :: rest).takeWhile Language.standard.isOperatorLetter)
      (live : ¬['-', '-'] <+: c :: rest) (letters : symbol.toList ≠ []) :
      Found c rest (.lexeme (.operator symbol) width)

section
variable {c : Char} {rest : List Char} {p : Piece}

theorem found_blank? (h : blank? (c :: rest) = some p) :
    Found c rest p := by
  unfold blank? at h
  simp only [Option.ite_none_right_eq_some, Option.some.injEq] at h
  rw [← h.2]
  exact .gap

theorem found_lineComment?
    (h : lineComment? .standard (c :: rest) = some p) :
    Found c rest p := by
  simp only [lineComment?, marks_standard] at h
  split at h
  · cases h
    rw [List.length_cons, Nat.add_right_comm]
    exact .gap
  · cases h

theorem found_blockComment?
    (h : blockComment? .standard (c :: rest) = some p) :
    Found c rest p := by
  simp only [blockComment?, marks_standard] at h
  split at h
  · split at h <;> cases h
    · rw [List.length_cons, Nat.add_right_comm]
      exact .gap
    · exact .flaw
  · cases h

theorem found_newlines? (h : newlines? (c :: rest) = some p) :
    Found c rest p := by
  unfold newlines? at h
  split at h
  · cases h
  next some_run =>
    obtain ⟨d, run, hrun⟩ := List.exists_cons_of_ne_nil some_run
    rw [hrun] at h
    cases h
    exact .gap

theorem found_quote? (h : quote? (c :: rest) = some p) :
    Found c rest p := by
  unfold quote? at h
  split at h <;> cases h
  exact .mark

theorem found_natural? (h : natural? (c :: rest) = some p) :
    Found c rest p := by
  unfold natural? at h
  split at h <;> cases h
  next some_digit =>
    have shorter := length_repr_numeralValue some_digit
    unfold number
    split
    next short => exact .natural (Nat.le_trans shorter short)
    next => exact .flaw

theorem found_word? (h : word? .standard (c :: rest) = some p) :
    Found c rest p := by
  rw [word?_standard] at h
  split at h
  next starts =>
    cases h
    split
    · exact .reserved
    next free =>
      exact .ident starts String.toList_ofList (Bool.eq_false_iff.2 free)
  · cases h

theorem found_hole? (h : hole? (c :: rest) = some p) :
    Found c rest p := by
  unfold hole? at h
  split at h <;> cases h
  exact .mark

theorem found_operator?
    (live : lineComment? .standard (c :: rest) = none)
    (h : operator? .standard (c :: rest) = some p) : Found c rest p := by
  unfold operator? at h
  split at h <;> cases h
  next letters =>
    refine .operator String.toList_ofList (fun comment => ?_) ?_
    · rw [lineComment?, marks_standard.1,
        if_pos (List.isPrefixOf_iff_prefix.2 comment)] at live
      cases live
    · rwa [String.toList_ofList]

theorem found_mark? (h : mark? (c :: rest) = some p) :
    Found c rest p := by
  unfold mark? at h
  split at h <;> cases h
  all_goals exact .mark

/-- Whatever scanner accepts a text, it finds what the text can be. -/
theorem found_pieceAt : Found c rest (pieceAt .standard c rest) := by
  have scanned := scanned_pieceAt .standard c rest
  generalize pieceAt .standard c rest = p at scanned ⊢
  cases scanned with
  | blank h => exact found_blank? h
  | lineComment h => exact found_lineComment? h
  | blockComment h => exact found_blockComment? h
  | newlines h => exact found_newlines? h
  | quote live h => exact found_quote? h
  | natural live h => exact found_natural? h
  | word live h => exact found_word? h
  | hole live h => exact found_hole? h
  | operator live h => exact found_operator? live.1 h
  | mark live h => exact found_mark? h
  | stray => exact .flaw

end

-- ============================================================ scans

/-- A lexeme at the head of a text is its first token. -/
theorem scan_lexeme {rules : Rules} {pos width : Nat} {c : Char}
    {rest : List Char} {l : Lexeme}
    (piece : pieceAt rules c rest = .lexeme l width) :
    scan rules pos (c :: rest)
      = (scan rules (pos + width) (rest.drop (width - 1))).map
        (⟨l, ⟨pos, pos + width⟩⟩ :: ·) := by
  rw [scan, piece]
  dsimp only
  cases scan rules (pos + width) (rest.drop (width - 1)) <;> rfl

/-- The scans that find tokens: gaps are skipped, each lexeme is a token,
and the end of the input is the last one. -/
inductive Scans (rules : Rules) : Nat → List Char → List Token → Prop
  | ends {pos : Nat} : Scans rules pos [] [⟨.eof "", ⟨pos, pos⟩⟩]
  | gap {pos width : Nat} {c : Char} {rest : List Char}
      {tokens : List Token} (piece : pieceAt rules c rest = .gap width)
      (behind : Scans rules (pos + width) (rest.drop (width - 1)) tokens) :
      Scans rules pos (c :: rest) tokens
  | lexeme {pos width : Nat} {c : Char} {rest : List Char} {l : Lexeme}
      {tokens : List Token}
      (piece : pieceAt rules c rest = .lexeme l width)
      (behind : Scans rules (pos + width) (rest.drop (width - 1)) tokens) :
      Scans rules pos (c :: rest) (⟨l, ⟨pos, pos + width⟩⟩ :: tokens)

theorem scans_of_ok {rules : Rules} {pos : Nat} {cs : List Char}
    {tokens : List Token} (h : scan rules pos cs = .ok tokens) :
    Scans rules pos cs tokens := by
  induction pos, cs using scan.induct rules generalizing tokens with
  | case1 pos =>
      rw [scan] at h
      cases h
      exact .ends
  | case2 pos c rest width piece ih =>
      rw [scan, piece] at h
      exact .gap piece (ih h)
  | case3 pos c rest lexeme width piece ts found ih =>
      rw [scan_lexeme piece, found] at h
      cases h
      exact .lexeme piece (ih found)
  | case4 pos c rest lexeme width piece flaw found =>
      rw [scan_lexeme piece, found] at h
      cases h
  | case5 pos c rest complaint piece =>
      rw [scan, piece] at h
      cases h

/-- The last token of a scan is the end of the input. -/
theorem Scans.ends_eof {rules : Rules} {pos : Nat} {cs : List Char}
    {tokens : List Token} (h : Scans rules pos cs tokens) :
    ∃ items span, tokens = items ++ [⟨.eof "", span⟩] := by
  induction h with
  | ends => exact ⟨[], _, rfl⟩
  | gap _ _ ih => exact ih
  | lexeme _ _ ih =>
      obtain ⟨items, span, rfl⟩ := ih
      exact ⟨_ :: items, span, rfl⟩

theorem scan_ends {rules : Rules} {pos : Nat} {cs : List Char}
    {tokens : List Token} (h : scan rules pos cs = .ok tokens) :
    ∃ items span, tokens = items ++ [⟨.eof "", span⟩] :=
  (scans_of_ok h).ends_eof

/-- A language that has rules is lexed by scanning with them. -/
theorem tokenize_toLanguage (rules : Rules) (text filename : String) :
    tokenize rules.toLanguage text filename
      = (scan rules 0 text.toList).mapError
        fun x => x.1.stop x.2 ⟨filename, some text⟩ := by
  rw [tokenize, rules.rules?_toLanguage]
  dsimp only
  cases scan rules 0 text.toList <;> rfl

/-- A text that is lexed is scanned, with the rules of its language. -/
theorem scan_of_tokenize {lang : Language} {text filename : String}
    {tokens : List Token} (h : tokenize lang text filename = .ok tokens) :
    ∃ rules : Rules, rules.toLanguage = lang
      ∧ scan rules 0 text.toList = .ok tokens := by
  unfold tokenize at h
  split at h
  next => cases h
  next rules found =>
    refine ⟨rules, Rules.toLanguage_of_rules? found, ?_⟩
    split at h <;> cases h
    assumption

/-- In the standard language, the text is what is scanned. -/
theorem tokenize_standard_iff {text filename : String}
    {tokens : List Token} :
    tokenize .standard text filename = .ok tokens
      ↔ scan .standard 0 text.toList = .ok tokens := by
  rw [tokenize_toLanguage .standard]
  cases scan .standard 0 text.toList <;> simp [Except.mapError]

theorem tokenize_ends {lang : Language} {text filename : String}
    {tokens : List Token} (h : tokenize lang text filename = .ok tokens) :
    ∃ items span, tokens = items ++ [⟨.eof "", span⟩] := by
  obtain ⟨rules, -, scans⟩ := scan_of_tokenize h
  exact scan_ends scans

/-- Tokens start where their text does, or later. -/
theorem Scans.le_start {rules : Rules} {pos : Nat} {cs : List Char}
    {tokens : List Token} (h : Scans rules pos cs tokens) :
    ∀ t ∈ tokens, pos ≤ t.span.start := by
  induction h with
  | ends => exact List.forall_mem_singleton.2 (Nat.le_refl _)
  | gap _ _ ih => exact fun t ht => Nat.le_of_add_right_le (ih t ht)
  | lexeme _ _ ih =>
      exact List.forall_mem_cons.2
        ⟨Nat.le_refl _, fun t ht => Nat.le_of_add_right_le (ih t ht)⟩

-- ==================================================== lone lexemes

/-- The text lexes to the one lexeme, with nothing before or after
it. -/
def Lone (text : String) (l : Lexeme) : Prop :=
  tokenize .standard text "" = .ok [⟨l, ⟨0, text.length⟩⟩,
    ⟨.eof "", ⟨text.length, text.length⟩⟩]

instance (text : String) (l : Lexeme) : Decidable (Lone text l) :=
  inferInstanceAs (Decidable (_ = _))

/-- The operators of the language are operators. -/
theorem lone_of_reserved {symbol : String}
    (reserved : Language.standard.isReservedOperator symbol = true) :
    Lone symbol (.operator symbol) := by
  have each : ∀ s ∈ Language.standard.reservedOperators,
      Lone s (.operator s) := by
    decide +kernel
  exact each symbol (List.contains_iff_mem.1 reserved)

section
variable {text : String} {l : Lexeme}

/-- A text that lexes to one lexeme has it as its first piece. -/
theorem Lone.found (h : Lone text l) :
    ∃ c rest width, text.toList = c :: rest
      ∧ Found c rest (.lexeme l width) := by
  have scans : scan .standard 0 text.toList
      = .ok [⟨l, ⟨0, text.length⟩⟩,
        ⟨.eof "", ⟨text.length, text.length⟩⟩] :=
    tokenize_standard_iff.1 h
  generalize text.length = stop at scans
  cases chars : text.toList with
  | nil =>
      rw [chars, scan] at scans
      cases scans
  | cons c rest =>
      have found : Found c rest (pieceAt .standard c rest) := found_pieceAt
      rw [chars, scan] at scans
      cases piece : pieceAt .standard c rest with
      | gap width =>
          rw [piece] at scans found
          have late : 0 + width ≤ 0 :=
            (scans_of_ok scans).le_start _ List.mem_cons_self
          cases found
          omega
      | lexeme lexeme width =>
          rw [piece] at scans found
          simp only at scans
          split at scans <;> cases scans
          exact ⟨c, rest, _, rfl, found⟩
      | flaw flaw =>
          rw [piece] at scans
          cases scans

/-- A lone operator is made of operator letters and opens no comment. -/
theorem Lone.operator (h : Lone text (.operator text)) :
    text.toList ≠ []
      ∧ (∀ d ∈ text.toList, Language.standard.isOperatorLetter d = true)
      ∧ ¬['-', '-'] <+: text.toList := by
  obtain ⟨c, rest, width, chars, found⟩ := h.found
  cases found with
  | operator run live letters =>
      rw [← chars] at run live
      refine ⟨letters, ?_, live⟩
      exact List.takeWhile_eq_self_iff.1 run.symm

/-- A lone identifier is a run of letters, and no reserved word. -/
theorem Lone.ident (h : Lone text (.ident text)) :
    ∃ c rest, text.toList = c :: rest
      ∧ Rules.startClass.contains c = true
      ∧ (∀ d ∈ rest, Rules.letterClass.contains d = true)
      ∧ Language.standard.isReservedWord text = false := by
  obtain ⟨c, rest, width, chars, found⟩ := h.found
  cases found with
  | ident starts run free =>
      refine ⟨c, rest, chars, starts, ?_, free⟩
      rw [chars] at run
      exact List.takeWhile_eq_self_iff.1 (List.cons.inj run).2.symm

/-- A text in front of which an identifier stands starts with a letter. -/
theorem Lone.plain_of_head (h : Lone text (.ident text))
    (rest : List Char) {d : Char} (hd : d ∈ (text.toList ++ rest).head?) :
    isPlain d = true ∧ Language.standard.isOperatorLetter d = false
      ∧ d ≠ '[' := by
  obtain ⟨c, cs, chars, starts, -⟩ := h.ident
  rw [chars] at hd
  cases hd
  exact plain_of_identStart starts

end

-- ============================================= pieces and what follows

section
variable {c : Char} {cs rest : List Char}

/-- A plain character is left to the scanners of words, holes, operators
and marks. -/
theorem pieceAt_of_plain (plain : isPlain c = true) :
    pieceAt .standard c rest
      = (word? .standard (c :: rest) <|> hole? (c :: rest)
        <|> operator? .standard (c :: rest) <|> mark? (c :: rest)).getD
          (.flaw (.complaint (.strayCharacter c))) := by
  simp only [isPlain, Bool.not_eq_true', Bool.or_eq_false_iff,
    beq_eq_false_iff_ne, ne_eq] at plain
  simp [pieceAt, blank?, lineComment?, blockComment?, newlines?, quote?,
    natural?, marks_standard, plain, @eq_comm Char _ c]

theorem takeWhile_of_stops {p : Char → Bool}
    (stops : ∀ d ∈ rest.head?, p d = false) : rest.takeWhile p = [] := by
  cases rest with
  | nil => rfl
  | cons d rest => exact List.takeWhile_cons_of_neg (by simp [stops d rfl])

/-- A word ends where no letter follows. -/
theorem pieceAt_word
    (starts : Rules.startClass.contains c = true)
    (letters : ∀ d ∈ cs, Rules.letterClass.contains d = true)
    (stops : ∀ d ∈ rest.head?,
      Rules.letterClass.contains d = false) :
    pieceAt .standard c (cs ++ rest)
      = .lexeme
        (if Language.standard.isReservedWord (String.ofList (c :: cs))
          then .reserved (String.ofList (c :: cs))
          else .ident (String.ofList (c :: cs))) (cs.length + 1) := by
  rw [pieceAt_of_plain (plain_of_identStart starts).1]
  simp [word?_standard, starts, List.takeWhile_append_of_pos letters,
    takeWhile_of_stops stops]

/-- An operator ends where no operator letter follows. -/
theorem pieceAt_operator
    (letters : ∀ d ∈ c :: cs,
      Language.standard.isOperatorLetter d = true)
    (live : ¬['-', '-'] <+: c :: cs)
    (stops : ∀ d ∈ rest.head?,
      Language.standard.isOperatorLetter d = false ∧ d ≠ '[') :
    pieceAt .standard c (cs ++ rest)
      = .lexeme (.operator (String.ofList (c :: cs))) (cs.length + 1) := by
  have run : ((c :: cs) ++ rest).takeWhile
      Language.standard.isOperatorLetter = c :: cs := by
    rw [List.takeWhile_append_of_pos letters,
      takeWhile_of_stops fun d hd => (stops d hd).1, List.append_nil]
  -- the character that would make it a comment or a quotation
  have next : ∀ d more, cs ++ rest = d :: more → d ≠ '['
      ∧ (c = '-' → d ≠ '-') := by
    intro d more split
    cases cs with
    | nil =>
        obtain ⟨noLetter, noBracket⟩ := stops d (by simp_all)
        refine ⟨noBracket, fun _ same => ?_⟩
        rw [same] at noLetter
        exact absurd noLetter (by decide)
    | cons d' cs =>
        obtain ⟨rfl, -⟩ := List.cons.inj split
        have letter := letters d' (by simp)
        refine ⟨(of_operatorLetter letter).2.2.2.2.2.2, fun first same => ?_⟩
        rw [first, same] at live
        exact live ⟨cs, rfl⟩
  have letter := of_operatorLetter (letters c List.mem_cons_self)
  have noComment : ¬(c = '-' ∧ ['-'] <+: cs ++ rest) := by
    rintro ⟨first, more, split⟩
    exact (next '-' more split.symm).2 first rfl
  have noQuote : quote? (c :: (cs ++ rest)) = none := by
    unfold quote?
    split
    next more split =>
      exact absurd rfl (next '[' more (List.cons.inj split).2).1
    · rfl
  have operator : operator? .standard (c :: (cs ++ rest))
      = some (.lexeme (.operator (String.ofList (c :: cs)))
        (cs.length + 1)) := by
    rw [operator?, ← List.cons_append, run]
    rfl
  simp [pieceAt, blank?, lineComment?, blockComment?, newlines?, natural?,
    word?_standard, hole?, marks_standard, letter, noComment, noQuote,
    operator, @eq_comm Char _ c]

/-- A number ends where no digit follows. -/
theorem pieceAt_digits
    (digits : ∀ d ∈ c :: cs, Text.isDigit d = true)
    (stops : ∀ d ∈ rest.head?, Text.isDigit d = false) :
    pieceAt .standard c (cs ++ rest) = number (c :: cs) := by
  obtain ⟨noBlank, noDash, noBrace, noNewline, noMark⟩ :=
    of_digit (digits c List.mem_cons_self)
  have run : (c :: (cs ++ rest)).takeWhile Text.isDigit = c :: cs := by
    rw [← List.cons_append, List.takeWhile_append_of_pos digits,
      takeWhile_of_stops stops, List.append_nil]
  simp [pieceAt, blank?, lineComment?, blockComment?, newlines?, quote?,
    natural?, marks_standard, noBlank, noNewline, noMark, run,
    Ne.symm noDash, Ne.symm noBrace]

theorem pieceAt_natural
    (digits : ∀ d ∈ c :: cs, Text.isDigit d = true)
    (short : (c :: cs).length ≤ Text.digitLimit)
    (stops : ∀ d ∈ rest.head?, Text.isDigit d = false) :
    pieceAt .standard c (cs ++ rest)
      = .lexeme (.natural (Text.numeralValue (c :: cs)))
        (cs.length + 1) := by
  rw [pieceAt_digits digits stops, number, if_pos short, List.length_cons]

/-- A mark of one character is a lexeme of its own. -/
theorem pieceAt_mark {m : Mark} (plain : isPlain c = true)
    (noWord : Rules.startClass.contains c = false)
    (noOperator : Language.standard.isOperatorLetter c = false)
    (found : (hole? (c :: rest) <|> mark? (c :: rest))
      = some (.lexeme (.ofMark m) 1)) :
    pieceAt .standard c rest = .lexeme (.ofMark m) 1 := by
  have word : word? .standard (c :: rest) = none := by
    simp [word?_standard, noWord]
  have operator : operator? .standard (c :: rest) = none := by
    simp [operator?, noOperator]
  rw [pieceAt_of_plain plain, word, operator]
  show (hole? (c :: rest) <|> mark? (c :: rest)).getD _ = _
  rw [found, Option.getD_some]

theorem pieceAt_quote :
    pieceAt .standard '!' ('[' :: rest) = .lexeme (.ofMark .quote) 2 := by
  simp [pieceAt, blank?, isBlank, lineComment?, blockComment?, newlines?,
    quote?, marks_standard]

/-- A brace before a word opens no comment. -/
theorem pieceAt_lbrace {d : Char} (next : d ≠ '-') :
    pieceAt .standard '\x7b' (d :: rest)
      = .lexeme (.ofMark .lbrace) 1 := by
  have digit : Text.isDigit '\x7b' = false := by decide
  have letter : Rules.startClass.contains '\x7b' = false := by
    decide
  have operator : Language.standard.isOperatorLetter '\x7b' = false := by
    decide
  simp [pieceAt, blank?, isBlank, lineComment?, blockComment?, newlines?,
    quote?, natural?, word?_standard, hole?, operator?, mark?,
    marks_standard, digit, letter, operator, next.symm]

end

-- ====================================================== whole texts

/-- The decimal digits of a number denote it. -/
theorem numeralValue_repr (n : Nat) :
    Text.numeralValue n.repr.toList = n := by
  have ascii : ∀ c ∈ Nat.toDigits 10 n, c.isDigit = true :=
    fun c => Nat.isDigit_of_mem_toDigits (by decide) (by decide)
  have value (digits : List Char) (h : ∀ c ∈ digits, c.isDigit = true) :
      ∀ m, digits.foldl (fun n c => 10 * n + (Text.digitValue? c).getD 0) m
        = Nat.ofDigitChars 10 digits m := by
    induction digits with
    | nil => exact fun m => rfl
    | cons c digits ih =>
        intro m
        obtain ⟨first, others⟩ := List.forall_mem_cons.1 h
        rw [List.foldl_cons, ih others, Text.digitValue?_of_isDigit first]
        rfl
  rw [Nat.toList_repr, Text.numeralValue, value _ ascii]
  exact Nat.ofDigitChars_toDigits (by decide) (by decide)

/-- From anywhere on, the text lexes to the lexemes. -/
def Lexes (text : List Char) (ls : List Lexeme) : Prop :=
  ∀ pos, ∃ items ending, scan .standard pos text = .ok (items ++ [ending])
    ∧ items.map Token.lexeme = ls ∧ ending.kind = .eof

/-- Marks that are one character each, whatever follows. -/
def singleMarks : List (Char × Mark) :=
  [('(', .lparen), (')', .rparen), ('\x7d', .rbrace), (']', .rbracket),
    ('_', .hole), (';', .semicolon), (',', .comma)]

theorem pieceAt_single {c : Char} {rest : List Char} {m : Mark}
    (single : (c, m) ∈ singleMarks) :
    pieceAt .standard c rest = .lexeme (.ofMark m) 1 := by
  have checked : ∀ x ∈ singleMarks, isPlain x.1 = true
      ∧ Rules.startClass.contains x.1 = false
      ∧ Language.standard.isOperatorLetter x.1 = false := by
    decide
  obtain ⟨plain, noWord, noOperator⟩ := checked (c, m) single
  refine pieceAt_mark plain noWord noOperator ?_
  simp only [singleMarks, List.mem_cons, Prod.mk.injEq,
    List.not_mem_nil, or_false] at single
  obtain ⟨rfl, rfl⟩ | ⟨rfl, rfl⟩ | ⟨rfl, rfl⟩ | ⟨rfl, rfl⟩ | ⟨rfl, rfl⟩
    | ⟨rfl, rfl⟩ | ⟨rfl, rfl⟩ := single
  all_goals rfl

/-- No word and no operator goes on with the text. -/
def Ends (rest : List Char) : Prop :=
  ∀ d ∈ rest.head?, Rules.letterClass.contains d = false
    ∧ Language.standard.isOperatorLetter d = false ∧ d ≠ '['

section
variable {c : Char} {cs rest : List Char} {text : String} {l : Lexeme}
  {ls : List Lexeme}

theorem ends_nil : Ends [] := fun _ h => by cases h

/-- No operator goes on with a text that ends words and operators. -/
theorem Ends.stops (h : Ends rest) : ∀ d ∈ rest.head?,
    Language.standard.isOperatorLetter d = false ∧ d ≠ '[' :=
  fun d hd => (h d hd).2

/-- A text that starts with a blank, a closing mark or a separator. -/
theorem ends_cons (closing : c ∈ [' ', ')', '\x7d', ']', ';', ',']) :
    Ends (c :: rest) := by
  have closed : ∀ d ∈ [' ', ')', '\x7d', ']', ';', ','],
      Rules.letterClass.contains d = false
        ∧ Language.standard.isOperatorLetter d = false ∧ d ≠ '[' :=
    forall_of_all (by decide)
  intro d hd
  cases hd
  exact closed c closing

namespace Lexes

theorem nil : Lexes [] [] := by
  intro pos
  exact ⟨[], ⟨.eof "", ⟨pos, pos⟩⟩, by rw [scan]; rfl, rfl, rfl⟩

theorem blank (h : Lexes rest ls) : Lexes (' ' :: rest) ls := by
  intro pos
  obtain ⟨items, ending, scans, same⟩ := h (pos + 1)
  exact ⟨items, ending, by rw [scan]; exact scans, same⟩

theorem cons {width : Nat}
    (piece : pieceAt .standard c rest = .lexeme l (width + 1))
    (h : Lexes (rest.drop width) ls) : Lexes (c :: rest) (l :: ls) := by
  intro pos
  obtain ⟨items, ending, scans, same, ended⟩ := h (pos + (width + 1))
  refine ⟨⟨l, ⟨pos, pos + (width + 1)⟩⟩ :: items, ending, ?_, ?_, ended⟩
  · rw [scan_lexeme piece, Nat.add_sub_cancel, scans]
    rfl
  · rw [List.map_cons, same]

theorem mark {m : Mark} (h : Lexes rest ls)
    (single : (c, m) ∈ singleMarks) :
    Lexes (c :: rest) (.ofMark m :: ls) :=
  .cons (pieceAt_single single) h

theorem quote (h : Lexes rest ls) :
    Lexes ('!' :: '[' :: rest) (.ofMark .quote :: ls) :=
  .cons pieceAt_quote h

theorem word (chars : text.toList = c :: cs)
    (starts : Rules.startClass.contains c = true)
    (letters : ∀ d ∈ cs, Rules.letterClass.contains d = true)
    (ends : Ends rest) (h : Lexes rest ls) :
    Lexes (text.toList ++ rest)
      ((if Language.standard.isReservedWord text then .reserved text
        else .ident text) :: ls) := by
  have same : String.ofList (c :: cs) = text := by
    rw [← chars, String.ofList_toList]
  have piece := pieceAt_word starts letters fun d hd => (ends d hd).1
  rw [same] at piece
  rw [chars, List.cons_append]
  exact .cons piece (by rwa [List.drop_left])

theorem ident (lone : Lone text (.ident text)) (ends : Ends rest)
    (h : Lexes rest ls) :
    Lexes (text.toList ++ rest) (.ident text :: ls) := by
  obtain ⟨c, cs, chars, starts, letters, free⟩ := lone.ident
  have lexes := h.word chars starts letters ends
  rwa [free] at lexes

theorem operator (lone : Lone text (.operator text))
    (stops : ∀ d ∈ rest.head?,
      Language.standard.isOperatorLetter d = false ∧ d ≠ '[')
    (h : Lexes rest ls) :
    Lexes (text.toList ++ rest) (.operator text :: ls) := by
  obtain ⟨some_char, letters, live⟩ := lone.operator
  cases chars : text.toList with
  | nil => exact absurd chars some_char
  | cons c cs =>
      rw [chars] at letters live
      have same : String.ofList (c :: cs) = text := by
        rw [← chars, String.ofList_toList]
      have piece := pieceAt_operator letters live stops
      rw [same] at piece
      rw [List.cons_append]
      exact .cons piece (by rwa [List.drop_left])

theorem natural (n : Nat) (short : n.repr.length ≤ Text.digitLimit)
    (stops : ∀ d ∈ rest.head?, Text.isDigit d = false)
    (h : Lexes rest ls) :
    Lexes (n.repr.toList ++ rest) (.natural n :: ls) := by
  have ascii : ∀ c ∈ n.repr.toList, Text.isDigit c = true := by
    rw [Nat.toList_repr]
    intro c hc
    have digit := Nat.isDigit_of_mem_toDigits (by decide) (by decide) hc
    rw [Text.isDigit, Text.digitValue?_of_isDigit digit]
    rfl
  have value := numeralValue_repr n
  cases chars : n.repr.toList with
  | nil => exact absurd (Nat.toList_repr ▸ chars) Nat.toDigits_ne_nil
  | cons c cs =>
      rw [chars] at ascii value
      rw [← String.length_toList, chars] at short
      have piece := pieceAt_natural ascii short stops
      rw [value] at piece
      rw [List.cons_append]
      exact .cons piece (by rwa [List.drop_left])
/-- A lambda's mark before its variable. -/
theorem backslash (lone : Lone text (.ident text))
    (h : Lexes (text.toList ++ rest) ls) :
    Lexes ('\\' :: (text.toList ++ rest)) (.operator "\\" :: ls) := by
  have lambda : Lone "\\" (.operator "\\") := lone_of_reserved (by decide)
  exact operator lambda (fun d hd => (lone.plain_of_head rest hd).2) h

/-- An opening brace before a name. -/
theorem lbrace (lone : Lone text (.ident text))
    (h : Lexes (text.toList ++ rest) ls) :
    Lexes ('\x7b' :: (text.toList ++ rest)) (.ofMark .lbrace :: ls) := by
  obtain ⟨c, cs, chars, -⟩ := lone.ident
  rw [chars, List.cons_append] at h ⊢
  have plain : isPlain c = true :=
    (lone.plain_of_head rest (by simp [chars])).1
  refine cons (pieceAt_lbrace ?_) h
  rintro rfl
  exact absurd plain (by decide)

end Lexes

end

/-- In front of any text, the text lexes to the lexemes. -/
def Opens (text : String) (ls : List Lexeme) : Prop :=
  ∀ rest tail, Lexes rest tail → Lexes (text.toList ++ rest) (ls ++ tail)

end DepLang.Lexer

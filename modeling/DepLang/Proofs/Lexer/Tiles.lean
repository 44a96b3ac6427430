/-
Tokens tile the text they were read from. In every language, an accepted
text is a gap, a lexeme, a gap and so on up to the end of the input: no
character is lost, read twice or put down to the wrong token
(`tokenize_tiles`).

Numbers and operators go on as far as their characters do. A word is
what the pattern of words reads first, which need not be all the letters
there are: a start that is made of alternatives can leave letters behind
(`tokenize_tiles_cut`). None are left where words run.

The scan goes from piece to piece, and each piece covers what it says: a
stretch of a gap, or a lexeme as source text writes it, up to a
character that would not have made it longer (`covers_of_pieceAt`). The
invariant of the scan, `Tiles`, puts one whole gap in front of each
token, so a piece of a gap goes in front of the gap that is there
already (`Tiles.prepend`). This is where a line comment has to end in
front of a newline: the newline that stops it belongs to the gap, since
no lexeme starts with one.
-/
import DepLang.Proofs.Lexer.Gaps
import Mathlib.Data.List.Chain

namespace DepLang.Lexer

-- ==================================================== written lexemes

/-- How source text writes a lexeme. A number may be written in several
ways, by any digits that denote it. -/
inductive Spells (lang : Language) : Lexeme → List Char → Prop
  | ident {word : List Char} (some_letter : word ≠ [])
      (isWord : lang.IsWord word)
      (free : lang.isReservedWord (String.ofList word) = false) :
      Spells lang (.ident (String.ofList word)) word
  | reserved {word : List Char} (some_letter : word ≠ [])
      (isWord : lang.IsWord word)
      (kept : lang.isReservedWord (String.ofList word) = true) :
      Spells lang (.reserved (String.ofList word)) word
  | natural {run : List Char} (some_digit : run ≠ [])
      (digits : ∀ d ∈ run, Text.isDigit d = true) :
      Spells lang (.natural (Text.numeralValue run)) run
  | operator {run : List Char} (some_letter : run ≠ [])
      (letters : ∀ d ∈ run, lang.isOperatorLetter d = true) :
      Spells lang (.operator (String.ofList run)) run
  | mark (m : Mark) : Spells lang (.ofMark m) m.spelling.toList

/-- Could the character go on with the lexeme? -/
def goesOn (lang : Language) : Lexeme → Char → Bool
  | .ident _, c | .reserved _, c => lang.isIdentLetter c
  | .natural _, c => Text.isDigit c
  | .operator _, c => lang.isOperatorLetter c
  | .mark _ _, _ | .eof _, _ => false

/-- Is the lexeme an identifier or a reserved word? -/
def isWordly : Lexeme → Bool
  | .ident _ | .reserved _ => true
  | _ => false

/-- In front of what follows, a lexeme is read as it is written: a word
is what the pattern of words reads there, and behind anything else stands
nothing that could go on with it. -/
def ReadBefore (lang : Language) (l : Lexeme) (word rest : List Char) :
    Prop :=
  if isWordly l then
    ∃ p, lang.wordPattern? = some p
      ∧ p.width? (word ++ rest) = some word.length
  else ∀ d ∈ rest.head?, goesOn lang l d = false

section
variable {lang : Language} {l : Lexeme} {word : List Char}

theorem Spells.ne_nil (h : Spells lang l word) : word ≠ [] := by
  cases h with
  | ident some_letter => exact some_letter
  | reserved some_letter => exact some_letter
  | natural some_digit => exact some_digit
  | operator some_letter => exact some_letter
  | mark m => cases m <;> decide

/-- What source text writes is the text of the lexeme, but for
numbers. -/
theorem Spells.text_eq (h : Spells lang l word)
    (noNumber : l.kind ≠ .natural) : l.text = String.ofList word := by
  cases h with
  | ident => rfl
  | reserved => rfl
  | natural => exact absurd rfl noNumber
  | operator => rfl
  | mark m => exact String.ofList_toList.symm

/-- What source text writes for a number denotes it. -/
theorem Spells.value_eq {n : Nat} (h : Spells lang (.natural n) word) :
    Text.numeralValue word = n := by
  cases h
  rfl

/-- Where words run, nothing that could go on with a lexeme stands
behind it. -/
theorem ReadBefore.stops {rest : List Char}
    (h : ReadBefore lang l word rest)
    (runs : isWordly l = true → lang.WordsRun) :
    ∀ d ∈ rest.head?, goesOn lang l d = false := by
  unfold ReadBefore at h
  split at h
  next wordly =>
    obtain ⟨p, spelled, width⟩ := h
    have stopped := Language.stops_of_width? (runs wordly) spelled width
    rw [List.drop_left] at stopped
    cases l with
    | ident => exact stopped
    | reserved => exact stopped
    | _ => cases wordly
  next => exact h

end

-- ============================================================ pieces

/-- What a piece that is no flaw covers at the head of a text: a stretch
of a gap, or a lexeme as it is written, up to where it ends. -/
inductive Covers (lang : Language) : List Char → Piece → Prop
  | space {run rest : List Char} (some_char : run ≠ [])
      (white : ∀ d ∈ run, isWhitespace d = true) :
      Covers lang (run ++ rest) (.gap run.length)
  | line {body rest : List Char} (plain : '\n' ∉ body)
      (ended : ∀ d ∈ rest.head?, d = '\n') :
      Covers lang (lang.lineComment.toList ++ body ++ rest)
        (.gap (lang.lineComment.toList ++ body).length)
  | block {body rest : List Char} (closed : CommentBody lang body) :
      Covers lang (lang.blockOpen.toList ++ body ++ rest)
        (.gap (lang.blockOpen.toList ++ body).length)
  | lexeme {l : Lexeme} {word rest : List Char}
      (spells : Spells lang l word) (first : word.head? ≠ some '\n')
      (read : ReadBefore lang l word rest) :
      Covers lang (word ++ rest) (.lexeme l word.length)
  | flaw {text : List Char} {flaw : Flaw} : Covers lang text (.flaw flaw)

section
variable {lang : Language} {rules : Rules} {c : Char} {rest : List Char}
  {p : Piece}

/-- A live text does not start with a newline. -/
theorem Live.ne_newline (live : Live lang (c :: rest)) : c ≠ '\n' := by
  rintro rfl
  have none_ := live.2
  unfold newlines? at none_
  simp at none_

/-- What a class takes of a text, with the text behind it. -/
theorem covers_run {q : Char → Bool} {text : List Char} {l : Lexeme}
    (live : Live lang text)
    (spells : Spells lang l (text.takeWhile q))
    (noWord : isWordly l = false) (same : ∀ d, goesOn lang l d = q d) :
    Covers lang text (.lexeme l (text.takeWhile q).length) := by
  have covers : Covers lang (text.takeWhile q ++ text.dropWhile q)
      (.lexeme l (text.takeWhile q).length) := by
    refine .lexeme spells ?_ ?_
    · intro newline
      obtain ⟨cs, run⟩ := List.head?_eq_some_iff.1 newline
      obtain ⟨behind, whole⟩ := List.takeWhile_prefix q (l := text)
      rw [run, List.cons_append] at whole
      rw [← whole] at live
      exact live.ne_newline rfl
    · rw [ReadBefore, if_neg (by simp [noWord])]
      intro d hd
      rw [same]
      exact Pattern.head?_dropWhile text d hd
  rwa [List.takeWhile_append_dropWhile] at covers

/-- A mark stands for itself, whatever follows. -/
theorem covers_marked (m : Mark) (more : List Char) :
    Covers lang (m.spelling.toList ++ more)
      (.lexeme (.ofMark m) m.spelling.toList.length) :=
  .lexeme (.mark m) (by cases m <;> decide) fun _ _ => rfl

theorem covers_blank? (h : blank? (c :: rest) = some p) :
    Covers lang (c :: rest) p := by
  unfold blank? at h
  simp only [Option.ite_none_right_eq_some, Option.some.injEq] at h
  obtain ⟨blank, rfl⟩ := h
  show Covers lang ([c] ++ rest) (.gap [c].length)
  refine .space (List.cons_ne_nil _ _) (List.forall_mem_singleton.2 ?_)
  rw [isWhitespace, blank, Bool.true_or]

theorem covers_lineComment? (h : lineComment? lang (c :: rest) = some p) :
    Covers lang (c :: rest) p := by
  simp only [lineComment?, Option.ite_none_right_eq_some,
    Option.some.injEq] at h
  obtain ⟨starts, rfl⟩ := h
  have split := eq_append_drop starts
  generalize (c :: rest).drop lang.lineComment.toList.length = behind
    at split ⊢
  rw [split, ← List.takeWhile_append_dropWhile (p := (· ≠ '\n'))
    (l := behind), ← List.append_assoc, ← List.length_append]
  rw [List.takeWhile_append_dropWhile]
  refine .line (fun newline => ?_) fun d hd => ?_
  · exact absurd (List.mem_takeWhile_imp newline) (by simp)
  · simpa using Pattern.head?_dropWhile behind d hd

theorem covers_blockComment? (opens : lang.blockOpen.toList ≠ [])
    (h : blockComment? lang (c :: rest) = some p) :
    Covers lang (c :: rest) p := by
  simp only [blockComment?] at h
  split at h
  next starts =>
    have split := eq_append_drop starts
    split at h <;> cases h
    next width found =>
      obtain ⟨_, behind, text, rfl, bodies⟩ :=
        bodies_of_commentWidth opens found
      cases bodies with
      | @cons _ body _ closed more =>
          cases more
          rw [List.append_nil] at text ⊢
          rw [text, ← List.append_assoc] at split
          rw [split, ← List.length_append]
          exact .block closed
    next => exact .flaw
  next => cases h

theorem covers_newlines? (h : newlines? (c :: rest) = some p) :
    Covers lang (c :: rest) p := by
  unfold newlines? at h
  split at h <;> cases h
  next some_newline =>
    have covers : Covers lang ((c :: rest).takeWhile (· = '\n')
        ++ (c :: rest).dropWhile (· = '\n'))
        (.gap ((c :: rest).takeWhile (· = '\n')).length) := by
      refine .space some_newline fun d hd => ?_
      have newline := List.mem_takeWhile_imp hd
      rw [of_decide_eq_true newline]
      rfl
    rwa [List.takeWhile_append_dropWhile] at covers

theorem covers_quote? (h : quote? (c :: rest) = some p) :
    Covers lang (c :: rest) p := by
  unfold quote? at h
  split at h <;> cases h
  next more same =>
    exact same ▸ covers_marked .quote more

theorem covers_natural? (live : Live lang (c :: rest))
    (h : natural? (c :: rest) = some p) : Covers lang (c :: rest) p := by
  unfold natural? at h
  split at h <;> cases h
  next some_digit =>
    unfold number
    split
    next =>
      refine covers_run live (.natural some_digit fun d hd => ?_) rfl
        fun d => rfl
      exact List.mem_takeWhile_imp hd
    next => exact .flaw

theorem covers_word? (live : Live rules.toLanguage (c :: rest))
    (h : word? rules (c :: rest) = some p) :
    Covers rules.toLanguage (c :: rest) p := by
  obtain ⟨width, found, rfl⟩ := Option.map_eq_some_iff.1 h
  obtain ⟨word, behind, split, rfl, some_letter, isWord⟩ :=
    Rules.word_of_width? found
  have first : word.head? ≠ some '\n' := by
    intro newline
    obtain ⟨cs, rfl⟩ := List.head?_eq_some_iff.1 newline
    exact live.ne_newline (List.cons.inj split).1
  rw [split] at found ⊢
  rw [List.take_left]
  dsimp only
  have read {l : Lexeme} (wordly : isWordly l = true) :
      ReadBefore rules.toLanguage l word behind := by
    rw [ReadBefore, if_pos wordly]
    exact ⟨rules.word, rules.spelled, found⟩
  split
  next kept =>
    exact .lexeme (.reserved some_letter isWord kept) first (read rfl)
  next free =>
    exact .lexeme (.ident some_letter isWord (Bool.eq_false_iff.2 free))
      first (read rfl)

theorem covers_hole? (h : hole? (c :: rest) = some p) :
    Covers lang (c :: rest) p := by
  unfold hole? at h
  split at h <;> cases h
  next more same =>
    exact same ▸ covers_marked .hole more

theorem covers_operator? (live : Live lang (c :: rest))
    (h : operator? lang (c :: rest) = some p) :
    Covers lang (c :: rest) p := by
  unfold operator? at h
  split at h <;> cases h
  next some_letter =>
    refine covers_run live (.operator some_letter fun d hd => ?_) rfl
      fun d => rfl
    exact List.mem_takeWhile_imp hd

theorem covers_mark? (h : mark? (c :: rest) = some p) :
    Covers lang (c :: rest) p := by
  unfold mark? at h
  split at h <;> cases h
  next more same => exact same ▸ covers_marked .lparen more
  next more same => exact same ▸ covers_marked .rparen more
  next more same => exact same ▸ covers_marked .lbrace more
  next more same => exact same ▸ covers_marked .rbrace more
  next more same => exact same ▸ covers_marked .lbracket more
  next more same => exact same ▸ covers_marked .rbracket more
  next more same => exact same ▸ covers_marked .comma more
  next more same => exact same ▸ covers_marked .semicolon more

/-- Whatever scanner accepts a text, its piece covers what it says. -/
theorem covers_of_pieceAt (piece : pieceAt rules c rest = p) :
    Covers rules.toLanguage (c :: rest) p := by
  cases piece ▸ scanned_pieceAt rules c rest with
  | blank h => exact covers_blank? h
  | lineComment h => exact covers_lineComment? h
  | blockComment h => exact covers_blockComment? rules.some_open h
  | newlines h => exact covers_newlines? h
  | quote live h => exact covers_quote? h
  | natural live h => exact covers_natural? live h
  | word live h => exact covers_word? live h
  | hole live h => exact covers_hole? h
  | operator live h => exact covers_operator? live h
  | mark live h => exact covers_mark? h
  | stray => exact .flaw

end

-- ============================================================ scans

/-- From an offset on, the tokens of a text: in front of each one a gap
and behind it a character that ends it, and a last gap before the end of
the input. -/
inductive Tiles (lang : Language) : Nat → List Char → List Token → Prop
  | last {pos : Nat} {gap : List Char} (spaced : Gap lang True gap) :
      Tiles lang pos gap
        [⟨.eof "", ⟨pos + gap.length, pos + gap.length⟩⟩]
  | token {pos : Nat} {gap word rest : List Char} {l : Lexeme}
      {tokens : List Token} (spaced : Gap lang False gap)
      (spells : Spells lang l word) (first : word.head? ≠ some '\n')
      (read : ReadBefore lang l word rest)
      (more : Tiles lang (pos + gap.length + word.length) rest tokens) :
      Tiles lang pos (gap ++ word ++ rest)
        (⟨l, ⟨pos + gap.length, pos + gap.length + word.length⟩⟩ :: tokens)

section
variable {lang : Language} {rules : Rules} {pos : Nat}
  {front rest : List Char} {tokens : List Token}

/-- A stretch goes in front of the gap that is there already, if it may
stand in front of gaps. What is only followed by newlines has to stand
in front of gaps that start with one. -/
theorem Tiles.prepend (h : Tiles lang (pos + front.length) rest tokens)
    (joins : ∀ {last : Prop} {gap : List Char}, Gap lang last gap →
      ((∀ d ∈ rest.head?, d = '\n') →
        gap.head? = some '\n' ∨ gap = [] ∧ last) →
      Gap lang last (front ++ gap)) :
    Tiles lang pos (front ++ rest) tokens := by
  cases h with
  | last spaced =>
      rw [Nat.add_assoc, ← List.length_append]
      refine .last (joins spaced fun newline => ?_)
      cases rest with
      | nil => exact .inr ⟨rfl, trivial⟩
      | cons d gap => exact .inl (congrArg some (newline d rfl))
  | @token _ gap word rest l tokens spaced spells first read more =>
      rw [Nat.add_assoc pos, ← List.length_append] at more ⊢
      rw [← List.append_assoc, ← List.append_assoc]
      refine .token (joins spaced fun newline => ?_) spells first read more
      cases gap with
      | cons d gap => exact .inl (congrArg some (newline d rfl))
      | nil =>
          -- no lexeme starts with the newline
          obtain ⟨d, ds, rfl⟩ := List.exists_cons_of_ne_nil spells.ne_nil
          exact absurd (congrArg some (newline d rfl)) first

/-- Whitespace stands in front of any gap. -/
theorem Gap.spaces {last : Prop} {run gap : List Char}
    (white : ∀ d ∈ run, isWhitespace d = true) (h : Gap lang last gap) :
    Gap lang last (run ++ gap) := by
  induction run with
  | nil => exact h
  | cons c run ih =>
      obtain ⟨head, others⟩ := List.forall_mem_cons.1 white
      exact .space head (ih others)

/-- The tokens of a scan tile its text. -/
theorem tiles_of_scan {cs : List Char}
    (h : scan rules pos cs = .ok tokens) :
    Tiles rules.toLanguage pos cs tokens := by
  replace h := scans_of_ok h
  induction h with
  | ends => exact .last .nil
  | @gap _ _ c rest _ piece _ tiles =>
      have covers := covers_of_pieceAt piece
      generalize same : c :: rest = text at covers
      cases covers with
      | @space run behind some_char white =>
          rw [drop_pred same some_char] at tiles
          exact tiles.prepend fun gap _ => gap.spaces white
      | @line body behind plain ended =>
          rw [drop_pred same
            (List.append_ne_nil_of_left_ne_nil rules.some_mark _)] at tiles
          exact tiles.prepend fun gap newline =>
            .line plain (newline ended) gap
      | @block body behind closed =>
          rw [drop_pred same
            (List.append_ne_nil_of_left_ne_nil rules.some_open _)] at tiles
          exact tiles.prepend fun gap _ => .block closed gap
  | @lexeme _ _ c rest _ _ piece _ tiles =>
      have covers := covers_of_pieceAt piece
      generalize same : c :: rest = text at covers
      cases covers with
      | @lexeme _ word behind spells first read =>
          rw [drop_pred same spells.ne_nil] at tiles
          exact .token .nil spells first read tiles

end

-- ============================================================ spans

/-- From the end of one span to the start of another. -/
def between (s t : Span) : Span := ⟨s.stop, t.start⟩

/-- A token stands in its text as source text writes it, from its first
character to its last, and it is read as it stands there. Where words
run it is as long as it can be. -/
structure Tile (lang : Language) (text : String) (t : Token) : Prop where
  some_char : t.span.start < t.span.stop
  inside : t.span.stop ≤ text.length
  spelled : Spells lang t.lexeme (t.span.slice text).toList
  text_eq : t.kind ≠ .natural → t.text = t.span.slice text
  value_eq : ∀ n, t.lexeme = .natural n →
    Text.numeralValue (t.span.slice text).toList = n
  read : ReadBefore lang t.lexeme (t.span.slice text).toList
    (text.toList.drop t.span.stop)
  whole : (isWordly t.lexeme = true → lang.WordsRun) →
    ∀ c, text.toList[t.span.stop]? = some c →
      goesOn lang t.lexeme c = false

/-- The tokens tile the text: each one stands where its span says, one
behind the other up to the end of the input, with a gap between each two
and in front of the first. -/
structure Tiling (lang : Language) (text : String)
    (tokens : List Token) : Prop where
  ends : ∃ items, tokens = items ++ [⟨.eof "", ⟨text.length, text.length⟩⟩]
    ∧ ∀ t ∈ items, Tile lang text t
  ordered : tokens.Pairwise fun t u => t.span.stop ≤ u.span.start
  spaced : List.IsChain (fun s t => Gap lang (t.start = text.length)
      ((between s t).slice text).toList)
    (⟨0, 0⟩ :: tokens.map Token.span)

section
variable {lang : Language} {text : String} {pos : Nat}
  {front part behind chars : List Char} {tokens : List Token}

/-- The part of a text that stands between two others. -/
theorem slice_part (split : text.toList = front ++ (part ++ behind)) :
    ((⟨front.length, front.length + part.length⟩ : Span).slice
      text).toList = part := by
  rw [Span.slice, String.toList_ofList, split, ← List.append_assoc,
    ← List.length_append, List.take_left, List.drop_left]

theorem length_of_split (split : text.toList = front ++ chars) :
    text.length = front.length + chars.length := by
  rw [← String.length_toList, split, List.length_append]

/-- Every token of a tiling but its end stands where its span says. -/
theorem Tiles.ends (h : Tiles lang pos chars tokens)
    (split : text.toList = front ++ chars) (start : front.length = pos) :
    ∃ items, tokens = items ++ [⟨.eof "", ⟨text.length, text.length⟩⟩]
      ∧ ∀ t ∈ items, Tile lang text t := by
  induction h generalizing front with
  | @last pos gap spaced =>
      rw [length_of_split split, start]
      exact ⟨[], rfl, by simp⟩
  | @token pos gap word rest l tokens spaced spells first read more ih =>
      subst start
      rw [List.append_assoc, ← List.append_assoc] at split
      have slice := slice_part split
      have length := length_of_split split
      rw [List.length_append] at slice
      simp only [List.length_append] at length
      have split' : text.toList = front ++ gap ++ word ++ rest := by
        rw [split, List.append_assoc (front ++ gap)]
      obtain ⟨items, rfl, each⟩ :=
        ih split' (by simp only [List.length_append])
      have behind : text.toList.drop
          (front.length + gap.length + word.length) = rest := by
        rw [split', ← List.length_append, ← List.length_append,
          List.drop_left]
      refine ⟨_ :: items, rfl, List.forall_mem_cons.2 ⟨?_, each⟩⟩
      refine ⟨?_, ?_, ?_, fun noNumber => ?_, fun n number => ?_, ?_,
        fun runs c next => ?_⟩
      · have some_char := List.length_pos_iff.2 spells.ne_nil
        show front.length + gap.length < _ + word.length
        omega
      · show _ + word.length ≤ text.length
        omega
      · rw [slice]
        exact spells
      · rw [← slice] at spells
        rw [← String.ofList_toList (s := Span.slice _ text)]
        exact spells.text_eq noNumber
      · obtain rfl : l = .natural n := number
        rw [slice]
        exact spells.value_eq
      · show ReadBefore lang l _ (text.toList.drop _)
        rw [slice, behind]
        exact read
      · refine read.stops runs c ?_
        rw [← behind, List.head?_drop]
        exact next

/-- No token starts before the text does. -/
theorem Tiles.le_start (h : Tiles lang pos chars tokens) :
    ∀ t ∈ tokens, pos ≤ t.span.start := by
  induction h with
  | last spaced => simp
  | token spaced spells first read more ih =>
      refine List.forall_mem_cons.2 ⟨Nat.le_add_right _ _, fun t ht => ?_⟩
      have := ih t ht
      omega

theorem Tiles.ordered (h : Tiles lang pos chars tokens) :
    tokens.Pairwise fun t u => t.span.stop ≤ u.span.start := by
  induction h with
  | last spaced => exact List.pairwise_singleton _ _
  | token spaced spells first read more ih =>
      exact List.pairwise_cons.2 ⟨more.le_start, ih⟩

/-- Between the tokens of a tiling, and in front of them, there are gaps
only. A line comment may end one only where the text ends. -/
theorem Tiles.spaced (h : Tiles lang pos chars tokens)
    (split : text.toList = front ++ chars) (start : front.length = pos)
    {s : Span} (stop : s.stop = pos) :
    List.IsChain (fun s t => Gap lang (t.start = text.length)
        ((between s t).slice text).toList)
      (s :: tokens.map Token.span) := by
  induction h generalizing front s with
  | @last pos gap spaced =>
      subst start
      refine .cons_cons ?_ (.singleton _)
      have slice : ((⟨front.length, front.length + gap.length⟩
          : Span).slice text).toList = gap :=
        slice_part (by rw [split, List.append_nil])
      show Gap lang (_ = text.length)
        ((⟨s.stop, front.length + gap.length⟩ : Span).slice text).toList
      rw [stop, slice, length_of_split split]
      exact spaced.mono fun _ => rfl
  | @token pos gap word rest l tokens spaced spells first read more ih =>
      subst start
      refine .cons_cons ?_ ?_
      · rw [List.append_assoc] at split
        have slice := slice_part split
        show Gap lang (_ = text.length)
          ((⟨s.stop, front.length + gap.length⟩ : Span).slice text).toList
        rw [stop, slice]
        exact spaced.mono False.elim
      · have split' : text.toList = front ++ gap ++ word ++ rest := by
          rw [split]
          simp only [List.append_assoc]
        exact ih split' (by simp only [List.length_append]) rfl

end

/-- Tokens tile the text they were read from, in every language. -/
theorem tokenize_tiles {lang : Language} {text filename : String}
    {tokens : List Token}
    (h : tokenize lang text filename = .ok tokens) :
    Tiling lang text tokens := by
  obtain ⟨rules, rfl, scans⟩ := scan_of_tokenize h
  have tiles := tiles_of_scan scans
  have split : text.toList = [] ++ text.toList := rfl
  exact ⟨tiles.ends split rfl, tiles.ordered, tiles.spaced split rfl rfl⟩

/-- In a language where words may start with an underscore too, the
number reaches over its zeros, the word up to the comment and the
comments to their right end where the outer one does. -/
theorem tokenize_tiles_zeros :
    let lang := { Language.standard with identStart := "([A-Za-z]|_)" }
    lang.WordsRun
      ∧ Tiling lang "007 _x\x7b- a \x7b- b -\x7d -\x7d"
        [⟨.natural 7, ⟨0, 3⟩⟩, ⟨.ident "_x", ⟨4, 6⟩⟩,
          ⟨.eof "", ⟨21, 21⟩⟩] := by
  intro lang
  have accepted : tokenize lang "007 _x\x7b- a \x7b- b -\x7d -\x7d" ""
      = .ok [⟨.natural 7, ⟨0, 3⟩⟩, ⟨.ident "_x", ⟨4, 6⟩⟩,
        ⟨.eof "", ⟨21, 21⟩⟩] := by
    decide +kernel
  have runs : lang.WordsRun :=
    ⟨.alt (.set Rules.startClass) (.set (.char '_')),
      .set Rules.letterClass, by decide, by decide, rfl⟩
  exact ⟨runs, tokenize_tiles accepted⟩

/-- Without the parentheses the letters belong to the second alternative
only, so a word that starts with a letter is no longer than that, and
the next one follows directly. -/
theorem tokenize_tiles_cut :
    let lang := { Language.standard with identStart := "[A-Za-z]|_" }
    tokenize lang "foo" ""
        = .ok [⟨.ident "f", ⟨0, 1⟩⟩, ⟨.ident "o", ⟨1, 2⟩⟩,
          ⟨.ident "o", ⟨2, 3⟩⟩, ⟨.eof "", ⟨3, 3⟩⟩]
      ∧ lang.isIdentLetter 'o' = true := by
  decide +kernel

end DepLang.Lexer

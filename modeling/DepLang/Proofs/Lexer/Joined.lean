/-
Texts joined at a newline. No lexeme goes on over a newline, and neither
does a blank or a line comment; a block comment does, but one that is
closed is closed before the text ends. So wherever a text can be lexed,
the piece at its head is the same when a newline and any more text
follow the whole (`pieceAt_before_newline`), and lexing the two texts is
lexing one after the other (`scan_join`): the items of the first, and
then whatever the second comes to, further along.

Only runs of newlines are pieces that grow when another newline follows.
They are gaps, and may be taken one newline at a time (`scan_newline`).
-/
import DepLang.Proofs.Lexer.Lexes

namespace DepLang.Lexer

variable {c : Char} {cs rest more text : List Char}

-- ======================================================= characters

/-- What a class of characters without the newline takes of a text ends
with the text. -/
theorem takeWhile_before_newline {p : Char → Bool}
    (stops : p '\n' = false) :
    (cs ++ '\n' :: more).takeWhile p = cs.takeWhile p := by
  induction cs with
  | nil => simp [stops]
  | cons c cs ih =>
      rw [List.cons_append, List.takeWhile_cons, List.takeWhile_cons, ih]

/-- A mark without a newline is not finished by what follows one. -/
theorem isPrefixOf_before_newline {mark : List Char}
    (plain : '\n' ∉ mark) :
    mark.isPrefixOf (cs ++ '\n' :: more) = mark.isPrefixOf cs := by
  induction mark generalizing cs with
  | nil => simp
  | cons d mark ih =>
      rw [List.mem_cons, not_or] at plain
      cases cs with
      | nil => simp [List.isPrefixOf, Ne.symm plain.1]
      | cons c cs => simp [List.isPrefixOf, ih plain.2]

theorem length_le_of_isPrefixOf {mark : List Char}
    (h : mark.isPrefixOf cs = true) : mark.length ≤ cs.length :=
  (List.isPrefixOf_iff_prefix.1 h).length_le

-- ========================================================= comments

/-- A comment that is closed ends where it ends, whatever follows the
text. -/
theorem commentWidth_before_newline {opening closing : List Char}
    (plain : '\n' ∉ opening) (plain' : '\n' ∉ closing) {nested : Bool}
    {depth width : Nat}
    (h : commentWidth opening closing nested depth text = some width)
    (more : List Char) :
    commentWidth opening closing nested depth (text ++ '\n' :: more)
        = some width
      ∧ width ≤ text.length := by
  have closing_same (cs : List Char) :
      closing.isPrefixOf (cs ++ '\n' :: more) = closing.isPrefixOf cs :=
    isPrefixOf_before_newline plain'
  have opening_same (cs : List Char) :
      opening.isPrefixOf (cs ++ '\n' :: more) = opening.isPrefixOf cs :=
    isPrefixOf_before_newline plain
  fun_induction commentWidth opening closing nested depth text
    generalizing width with
  | case1 text =>
      cases h
      exact ⟨by rw [commentWidth], Nat.zero_le _⟩
  | case2 => cases h
  | case3 depth c rest closes ih =>
      obtain ⟨inner, found, rfl⟩ := Option.map_eq_some_iff.1 h
      obtain ⟨same, le⟩ := ih found
      have room := length_le_of_isPrefixOf closes
      rw [← closing_same] at closes
      rw [List.length_drop] at le
      rw [List.cons_append] at closes ⊢
      rw [commentWidth, if_pos closes, ← List.cons_append,
        List.drop_append_of_le_length room, same]
      exact ⟨rfl, by omega⟩
  | case4 depth c rest unclosed opens ih =>
      obtain ⟨inner, found, rfl⟩ := Option.map_eq_some_iff.1 h
      obtain ⟨same, le⟩ := ih found
      have room := length_le_of_isPrefixOf (Bool.and_eq_true_iff.1 opens).2
      rw [List.length_cons] at room
      rw [← closing_same] at unclosed
      rw [← opening_same] at opens
      rw [List.length_drop] at le
      rw [List.cons_append] at unclosed opens ⊢
      rw [commentWidth, if_neg unclosed, if_pos opens,
        List.drop_append_of_le_length (by omega), same, List.length_cons]
      exact ⟨rfl, by omega⟩
  | case5 depth c rest unclosed unopened ih =>
      obtain ⟨inner, found, rfl⟩ := Option.map_eq_some_iff.1 h
      obtain ⟨same, le⟩ := ih found
      rw [← closing_same] at unclosed
      rw [← opening_same] at unopened
      rw [List.cons_append] at unclosed unopened ⊢
      rw [commentWidth, if_neg unclosed, if_neg unopened, same,
        List.length_cons]
      exact ⟨rfl, by omega⟩

-- ========================================================= scanners

/-- How far a piece reaches. -/
def Piece.width : Piece → Nat
  | .gap width | .lexeme _ width => width
  | .flaw _ => 0

/-- A scanner that finds a flaw at the text, or finds the same there in
front of a newline, and nothing longer than the text. -/
def Holds (scanner : List Char → Option Piece) (text : List Char) : Prop :=
  (∃ flaw, scanner text = some (.flaw flaw))
    ∨ (∀ more, scanner (text ++ '\n' :: more) = scanner text)
      ∧ ∀ p, scanner text = some p → p.width ≤ text.length

/-- The first of two scanners that accepts. -/
theorem Holds.orElse {f g : List Char → Option Piece}
    (hf : Holds f text) (hg : Holds g text) :
    Holds (fun t => f t <|> g t) text := by
  rcases hf with ⟨k, flaw⟩ | ⟨same, fits⟩
  · exact .inl ⟨k, by simp [flaw]⟩
  · cases found : f text with
    | some p =>
        refine .inr ⟨fun more => by simp [same, found], fun q hq => ?_⟩
        simp only [found, Option.orElse_eq_orElse, Option.orElse_eq_or,
          Option.some_or, Option.some.injEq] at hq
        exact hq ▸ fits p found
    | none =>
        refine hg.imp ?_ ?_
        · rintro ⟨k, flaw⟩
          exact ⟨k, by simp [found, flaw]⟩
        · rintro ⟨same', fits'⟩
          exact ⟨fun more => by simp [same, found, same'], fun p hp =>
            fits' p (by simpa [found] using hp)⟩

/-- A scanner that looks at the first character only. -/
theorem holds_of_head {f : List Char → Option Piece}
    (head : ∀ rest rest', f (c :: rest) = f (c :: rest'))
    (fits : ∀ p, f (c :: rest) = some p → p.width ≤ 1) :
    Holds f (c :: rest) := by
  refine .inr ⟨fun more => head _ _, fun p hp => ?_⟩
  have := fits p hp
  rw [List.length_cons]
  omega

/-- A scanner that takes a run of characters, none of them a newline. -/
theorem holds_of_run {f : List Char → Option Piece} {p : Char → Bool}
    {make : List Char → Piece} (stops : p '\n' = false)
    (runs : ∀ text, f text = match text.takeWhile p with
      | [] => none
      | run => some (make run))
    (width : ∀ run, (make run).width ≤ run.length) : Holds f text := by
  refine .inr ⟨fun more => ?_, fun q hq => ?_⟩
  · rw [runs, runs, takeWhile_before_newline stops]
  · rw [runs] at hq
    have le := (List.takeWhile_prefix p (l := text)).length_le
    split at hq <;> cases hq
    exact Nat.le_trans (width _) le

theorem blank?_holds : Holds blank? (c :: rest) := by
  refine holds_of_head (fun _ _ => rfl) fun p hp => ?_
  simp only [blank?, Option.ite_none_right_eq_some, Option.some.injEq] at hp
  rw [← hp.2]
  exact Nat.le_refl 1

theorem lineComment?_holds : Holds (lineComment? .standard) text := by
  have opening : ∀ text : List Char, lineComment? .standard text
      = if ['-', '-'].isPrefixOf text then
          some (.gap (2 + ((text.drop 2).takeWhile (· ≠ '\n')).length))
        else none := by
    intro text
    simp only [lineComment?, marks_standard.1]
    rfl
  refine .inr ⟨fun more => ?_, fun p hp => ?_⟩
  · rw [opening, opening, isPrefixOf_before_newline (by decide)]
    split
    next starts =>
        have room : 2 ≤ text.length := length_le_of_isPrefixOf starts
        rw [List.drop_append_of_le_length room,
          takeWhile_before_newline (by decide)]
    next => rfl
  · rw [opening] at hp
    split at hp
    next starts =>
        have room : 2 ≤ text.length := length_le_of_isPrefixOf starts
        have body := (List.takeWhile_prefix (· ≠ '\n')
          (l := text.drop 2)).length_le
        rw [List.length_drop] at body
        cases hp
        show 2 + _ ≤ text.length
        omega
    next => cases hp

/-- A block comment by its width, or the complaint that it has none. -/
theorem blockComment?_eq (text : List Char) :
    blockComment? .standard text
      = if ['\x7b', '-'].isPrefixOf text then
          some <| (commentWidth ['\x7b', '-']
            Language.standard.blockClose.toList
            Language.standard.nestedBlocks 1 (text.drop 2)).elim
              (.flaw (.complaint .unterminatedComment))
              fun width => .gap (2 + width)
        else none := by
  have two : ['\x7b', '-'].length = 2 := rfl
  simp only [blockComment?, marks_standard.2, two]
  split
  next =>
      cases commentWidth ['\x7b', '-'] Language.standard.blockClose.toList
        Language.standard.nestedBlocks 1 (text.drop 2) <;> rfl
  next => rfl

theorem blockComment?_holds : Holds (blockComment? .standard) text := by
  have plain : '\n' ∉ ['\x7b', '-'] := by decide
  have plain' : '\n' ∉ Language.standard.blockClose.toList := by
    decide
  unfold Holds
  simp only [blockComment?_eq, isPrefixOf_before_newline plain]
  by_cases opens : ['\x7b', '-'].isPrefixOf text = true
  · have room : 2 ≤ text.length := length_le_of_isPrefixOf opens
    simp only [if_pos opens, List.drop_append_of_le_length room]
    cases found : commentWidth ['\x7b', '-']
        Language.standard.blockClose.toList Language.standard.nestedBlocks 1
        (text.drop 2) with
    | none => exact .inl ⟨.complaint .unterminatedComment, rfl⟩
    | some width =>
        have closed := commentWidth_before_newline plain plain' found
        refine .inr ⟨fun more => by rw [(closed more).1], fun p hp => ?_⟩
        have le := (closed []).2
        rw [List.length_drop] at le
        cases hp
        show 2 + width ≤ text.length
        omega
  · refine .inr ⟨fun more => ?_, fun p hp => ?_⟩
    · rw [if_neg opens, if_neg opens]
    · rw [if_neg opens] at hp
      cases hp

theorem newlines?_holds (head : c ≠ '\n') :
    Holds newlines? (c :: rest) := by
  have none_ (rest : List Char) : newlines? (c :: rest) = none := by
    simp [newlines?, head]
  refine holds_of_head (fun _ _ => by rw [none_, none_]) fun p hp => ?_
  rw [none_] at hp
  cases hp

/-- Nothing but a bracket makes an exclamation mark a quotation. -/
theorem quote?_eq_none (other : rest.head? ≠ some '[') :
    quote? (c :: rest) = none := by
  unfold quote?
  split
  next same =>
      rw [(List.cons.inj same).2] at other
      exact absurd rfl other
  next => rfl

theorem quote?_holds : Holds quote? (c :: rest) := by
  refine .inr ⟨fun more => ?_, fun p hp => ?_⟩
  · cases rest with
    | nil =>
        rw [quote?_eq_none (by simp)]
        exact quote?_eq_none (by simp)
    | cons d rest =>
        unfold quote?
        split <;> simp_all
  · unfold quote? at hp
    split at hp <;> cases hp
    simp_all [Piece.width]

theorem width_number (run : List Char) :
    (number run).width ≤ run.length := by
  unfold number
  split
  · exact Nat.le_refl _
  · exact Nat.zero_le _

theorem natural?_holds : Holds natural? text :=
  holds_of_run (p := Text.isDigit) (by decide) (fun _ => rfl) width_number

theorem word?_holds : Holds (word? .standard) (c :: rest) := by
  have stops : Rules.letterClass.contains '\n' = false := by decide
  refine .inr ⟨fun more => ?_, fun p hp => ?_⟩
  · simp only [List.cons_append, word?_standard,
      takeWhile_before_newline stops]
  · have le := (List.takeWhile_prefix
      Rules.letterClass.contains (l := rest)).length_le
    simp only [word?_standard, Option.ite_none_right_eq_some,
      Option.some.injEq] at hp
    rw [← hp.2]
    exact Nat.succ_le_succ le

theorem hole?_holds : Holds hole? (c :: rest) := by
  refine holds_of_head (fun _ _ => ?_) fun p hp => ?_
  · unfold hole?
    split <;> simp_all
  · unfold hole? at hp
    split at hp <;> cases hp
    exact Nat.le_refl 1

theorem operator?_holds : Holds (operator? .standard) text :=
  holds_of_run (p := Language.standard.isOperatorLetter)
    (by decide) (fun _ => rfl) fun _ => Nat.le_refl _

theorem mark?_holds : Holds mark? (c :: rest) := by
  refine holds_of_head (fun _ _ => ?_) fun p hp => ?_
  · unfold mark?
    split <;> simp_all
  · unfold mark? at hp
    split at hp <;> cases hp
    all_goals exact Nat.le_refl 1

-- =========================================================== pieces

theorem width_getD {found : Option Piece} {flaw : Flaw}
    {n : Nat} (fits : ∀ p, found = some p → p.width ≤ n) :
    (found.getD (.flaw flaw)).width ≤ n := by
  cases found with
  | none => exact Nat.zero_le n
  | some p => exact fits p rfl

/-- A piece that is no flaw is the same in front of a newline, and it
ends within the text. -/
theorem pieceAt_before_newline (head : c ≠ '\n')
    (sound : ∀ flaw, pieceAt .standard c rest ≠ .flaw flaw) :
    (∀ more, pieceAt .standard c (rest ++ '\n' :: more)
        = pieceAt .standard c rest)
      ∧ (pieceAt .standard c rest).width ≤ rest.length + 1 := by
  have last : Holds mark? (c :: rest) := mark?_holds
  have all := blank?_holds.orElse <|
    lineComment?_holds.orElse <| blockComment?_holds.orElse <|
    (newlines?_holds head).orElse <| quote?_holds.orElse <|
    natural?_holds.orElse <| word?_holds.orElse <|
    hole?_holds.orElse <| operator?_holds.orElse last
  rcases all with ⟨k, flaw⟩ | ⟨same, fits⟩
  · refine absurd ?_ (sound k)
    unfold pieceAt
    simp only [flaw, Option.getD_some]
  · refine ⟨fun more => ?_, ?_⟩
    · unfold pieceAt
      exact congrArg (Option.getD · _) (same more)
    · unfold pieceAt
      exact width_getD fits

/-- A piece that is no flaw is the same in front of a newline, and what
is left behind it goes on to the newline. -/
theorem drop_before_newline {p : Piece} (head : c ≠ '\n')
    (piece : pieceAt .standard c rest = p)
    (sound : ∀ flaw, p ≠ .flaw flaw) (more : List Char) :
    pieceAt .standard c (rest ++ '\n' :: more) = p
      ∧ (rest ++ '\n' :: more).drop (p.width - 1)
        = rest.drop (p.width - 1) ++ '\n' :: more := by
  subst piece
  obtain ⟨same, fits⟩ := pieceAt_before_newline head sound
  exact ⟨same more, List.drop_append_of_le_length (by omega)⟩

/-- Newlines may be taken one at a time. -/
theorem pieceAt_newline :
    pieceAt .standard '\n' rest
      = .gap (1 + (rest.takeWhile (· = '\n')).length) := by
  simp [pieceAt, blank?, isBlank, lineComment?, blockComment?,
    marks_standard, newlines?, Nat.add_comm]

theorem scan_newline (pos : Nat) (cs : List Char) :
    scan .standard pos ('\n' :: cs) = scan .standard (pos + 1) cs := by
  rw [scan, pieceAt_newline]
  simp only [Nat.add_sub_cancel_left]
  cases cs with
  | nil => rfl
  | cons c cs =>
      by_cases newline : c = '\n'
      · subst newline
        rw [scan.eq_2 _ (pos + 1), pieceAt_newline]
        have longer : (('\n' :: cs).takeWhile (· = '\n')).length
            = (cs.takeWhile (· = '\n')).length + 1 := by simp
        rw [longer, List.drop_succ_cons]
        simp only [Nat.add_sub_cancel_left]
        congr 1
        omega
      · simp [newline]

-- ============================================================ scans

/-- Lexing two texts joined at a newline is lexing the first and then,
from further along, the second. -/
theorem scan_join {pos : Nat} {tokens : List Token}
    (h : scan .standard pos cs = .ok tokens) (more : List Char) :
    ∃ pos', scan .standard pos (cs ++ '\n' :: more)
      = (scan .standard pos' more).map (tokens.dropLast ++ ·) := by
  -- a run of newlines is taken apart, so the induction is on the length
  induction len : cs.length using Nat.strongRecOn
    generalizing pos cs tokens with
  | ind n ih =>
      cases cs with
      | nil =>
          rw [scan] at h
          cases h
          refine ⟨pos + 1, ?_⟩
          rw [List.nil_append, scan_newline]
          cases scan .standard (pos + 1) more <;> rfl
      | cons c rest =>
          rw [List.length_cons] at len
          by_cases newline : c = '\n'
          · subst newline
            rw [scan_newline] at h
            rw [List.cons_append, scan_newline]
            exact ih rest.length (by omega) h rfl
          · have shorter (width : Nat) :
                (rest.drop (width - 1)).length < n := by
              rw [List.length_drop]
              omega
            cases piece : pieceAt .standard c rest with
            | gap width =>
                obtain ⟨same, left⟩ :=
                  drop_before_newline newline piece (by simp) more
                rw [scan, piece] at h
                rw [List.cons_append, scan, same]
                simp only [Piece.width] at left ⊢
                rw [left]
                exact ih _ (shorter width) h rfl
            | lexeme l width =>
                obtain ⟨same, left⟩ :=
                  drop_before_newline newline piece (by simp) more
                rw [scan, piece] at h
                rw [List.cons_append, scan, same]
                simp only [Piece.width] at h left ⊢
                rw [left]
                split at h
                next tokens found =>
                    cases h
                    obtain ⟨pos', joined⟩ := ih _ (shorter width) found rfl
                    have some : tokens ≠ [] := by
                      obtain ⟨items, span, rfl⟩ := scan_ends found
                      simp
                    refine ⟨pos', ?_⟩
                    rw [joined, List.dropLast_cons_of_ne_nil some]
                    cases scan .standard pos' more <;> rfl
                next => cases h
            | flaw flaw =>
                rw [scan, piece] at h
                cases h

/-- What a scan finds, wherever the text stands: its lexemes, or what is
wrong with it. -/
def findings (found : Except (Flaw × Nat) (List Token)) :
    Except Flaw (List Lexeme) :=
  (found.map fun tokens => tokens.map Token.lexeme).mapError Prod.fst

theorem findings_map_cons (t : Token)
    (found : Except (Flaw × Nat) (List Token)) :
    findings (found.map (t :: ·))
      = (findings found).map (t.lexeme :: ·) := by
  cases found <;> rfl

/-- Where a text starts makes no difference to what is found in it. -/
theorem findings_scan (rules : Rules) (pos pos' : Nat) (cs : List Char) :
    findings (scan rules pos cs) = findings (scan rules pos' cs) := by
  induction pos, cs using scan.induct rules generalizing pos' with
  | case1 pos =>
      rw [scan, scan]
      rfl
  | case2 pos c rest width piece ih =>
      rw [scan, scan, piece]
      exact ih (pos' + width)
  | case3 pos c rest l width piece _ _ ih
  | case4 pos c rest l width piece _ _ ih =>
      rw [scan_lexeme piece, scan_lexeme piece, findings_map_cons,
        findings_map_cons, ih (pos' + width)]
  | case5 pos c rest flaw piece =>
      rw [scan, scan, piece]
      rfl

/-- A text that is scanned from one offset is scanned from any other,
with the same lexemes. -/
theorem scan_elsewhere {rules : Rules} {pos : Nat} {tokens : List Token}
    (h : scan rules pos cs = .ok tokens) (pos' : Nat) :
    ∃ tokens', scan rules pos' cs = .ok tokens'
      ∧ tokens'.map Token.lexeme = tokens.map Token.lexeme := by
  have same := findings_scan rules pos pos' cs
  rw [h] at same
  cases there : scan rules pos' cs with
  | error flaw =>
      rw [there] at same
      cases same
  | ok tokens' =>
      rw [there] at same
      exact ⟨tokens', rfl, (Except.ok.inj same).symm⟩

/-- A text that is not, is not for the same reason. -/
theorem scan_error_elsewhere {rules : Rules} {pos : Nat} {flaw : Flaw}
    {place : Nat} (h : scan rules pos cs = .error (flaw, place))
    (pos' : Nat) :
    ∃ place', scan rules pos' cs = .error (flaw, place') := by
  have same := findings_scan rules pos pos' cs
  rw [h] at same
  cases there : scan rules pos' cs with
  | error found =>
      rw [there] at same
      obtain ⟨flaw', place'⟩ := found
      have same : flaw = flaw' := Except.error.inj same
      exact ⟨place', by rw [same]⟩
  | ok tokens' =>
      rw [there] at same
      cases same

/-- No piece of a text is the end of the input. -/
theorem kind_of_mem_scan {pos : Nat} {tokens : List Token}
    (h : scan .standard pos cs = .ok tokens) :
    ∀ t ∈ tokens.dropLast, t.kind ≠ .eof := by
  replace h := scans_of_ok h
  induction h with
  | ends => simp
  | gap _ _ ih => exact ih
  | @lexeme _ width c rest l ts piece behind ih =>
      have some : ts ≠ [] := by
        obtain ⟨items, span, rfl⟩ := behind.ends_eof
        simp
      have kind : l.kind ≠ .eof := by
        have accepted : Found c rest (.lexeme l width) :=
          piece ▸ found_pieceAt
        cases accepted <;> simp [Lexeme.kind]
      rw [List.dropLast_cons_of_ne_nil some]
      exact List.forall_mem_cons.2 ⟨kind, ih⟩

-- =========================================================== tokens

theorem kind_of_mem_tokenize {text filename : String}
    {items : List Token} {ending : Token}
    (h : tokenize .standard text filename = .ok (items ++ [ending])) :
    ∀ t ∈ items, t.kind ≠ .eof := by
  have kinds := kind_of_mem_scan (tokenize_standard_iff.1 h)
  rwa [List.dropLast_concat] at kinds

/-- A text that lexes has its lexemes in its items. -/
theorem lexes_of_tokenize {text filename : String} {items : List Token}
    {ending : Token}
    (h : tokenize .standard text filename = .ok (items ++ [ending])) :
    Lexes text.toList (items.map Token.lexeme) := by
  intro pos
  obtain ⟨tokens, scans, same⟩ :=
    scan_elsewhere (tokenize_standard_iff.1 h) pos
  obtain ⟨items', span, rfl⟩ := scan_ends scans
  rw [List.map_append, List.map_append] at same
  exact ⟨items', ⟨.eof "", span⟩, scans, List.append_inj_left' same rfl, rfl⟩

theorem tokenize_of_lexes {text : String} {ls : List Lexeme}
    (h : Lexes text.toList ls) (filename : String) :
    ∃ items span, tokenize .standard text filename
        = .ok (items ++ [⟨.eof "", span⟩])
      ∧ items.map Token.lexeme = ls := by
  obtain ⟨items, ending, scans, same, -⟩ := h 0
  obtain ⟨items', span, split⟩ := scan_ends scans
  obtain ⟨rfl, last⟩ := List.append_inj' split rfl
  rw [last] at scans
  exact ⟨items, span, tokenize_standard_iff.2 scans, same⟩

/-- Two texts joined at a newline lex to the lexemes of both. -/
theorem Lexes.join {ls ms : List Lexeme} (first : Lexes cs ls)
    (second : Lexes more ms) : Lexes (cs ++ '\n' :: more) (ls ++ ms) := by
  intro pos
  obtain ⟨items, ending, scans, rfl, -⟩ := first pos
  obtain ⟨pos', joined⟩ := scan_join scans more
  obtain ⟨items', ending', scans', rfl, ended⟩ := second pos'
  refine ⟨items ++ items', ending', ?_, List.map_append, ended⟩
  rw [joined, scans', List.dropLast_concat, List.append_assoc]
  rfl

/-- The tokens of two texts joined at a newline: the items of the first,
and what the second comes to, with other spans. If the second text
cannot be lexed, neither can the whole, for the same reason. -/
theorem tokenize_join {text₁ filename : String} {items₁ : List Token}
    {ending₁ : Token}
    (h : tokenize .standard text₁ filename = .ok (items₁ ++ [ending₁]))
    (text₂ : String) :
    (∃ (flaw : Flaw) (pos pos' : Nat) (origin origin' : Origin),
        tokenize .standard text₂ filename = .error (flaw.stop pos origin)
        ∧ tokenize .standard (text₁ ++ "\n" ++ text₂) filename
          = .error (flaw.stop pos' origin'))
      ∨ ∃ items₂ items₂' span span',
        tokenize .standard text₂ filename
          = .ok (items₂ ++ [⟨.eof "", span⟩])
        ∧ tokenize .standard (text₁ ++ "\n" ++ text₂) filename
          = .ok (items₁ ++ items₂' ++ [⟨.eof "", span'⟩])
        ∧ items₂'.map Token.lexeme = items₂.map Token.lexeme := by
  have text : (text₁ ++ "\n" ++ text₂).toList
      = text₁.toList ++ '\n' :: text₂.toList := by
    rw [String.toList_append, String.toList_append, List.append_assoc]
    rfl
  obtain ⟨pos, joined⟩ :=
    scan_join (tokenize_standard_iff.1 h) text₂.toList
  rw [List.dropLast_concat, ← text] at joined
  rw [tokenize_toLanguage .standard text₂,
    tokenize_toLanguage .standard (text₁ ++ "\n" ++ text₂), joined]
  cases second : scan .standard 0 text₂.toList with
  | error found =>
      obtain ⟨flaw, place⟩ := found
      obtain ⟨place', further⟩ := scan_error_elsewhere second pos
      rw [further]
      exact .inl ⟨flaw, place, place', _, _, rfl, rfl⟩
  | ok tokens₂ =>
      obtain ⟨tokens₂', further, same⟩ := scan_elsewhere second pos
      obtain ⟨items₂, span, rfl⟩ := scan_ends second
      obtain ⟨items₂', span', rfl⟩ := scan_ends further
      rw [List.map_append, List.map_append] at same
      rw [further]
      refine .inr ⟨items₂, items₂', span, span', rfl, ?_,
        (List.append_cancel_right same)⟩
      rw [List.append_assoc]
      rfl

end DepLang.Lexer

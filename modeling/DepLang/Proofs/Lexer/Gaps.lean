/-
What may stand between two lexemes: whitespace, line comments and block
comments, one after the other (`Gap`). A line comment goes on to the end
of its line, so it ends in front of a newline; only at the end of the
text it may do without. A block comment ends with the mark that closes
it, and where comments nest, each comment inside it ends first
(`CommentBody`).

The lexer does not look for such a shape. It walks through a block
comment one character or one mark at a time and counts how deep it is.
A walk that starts some levels deep and comes to an end has passed as
many bodies, one behind the other (`bodies_of_commentWidth`), and over a
body it goes up by one level, whatever follows (`commentWidth_body`). So
in the standard language a gap is passed over and changes nothing but
the position (`scan_gap`).
-/
import DepLang.Proofs.Lexer.Joined

namespace DepLang.Lexer

/-- The characters that only keep lexemes apart: blanks and newlines. -/
def isWhitespace (c : Char) : Bool := isBlank c || c == '\n'

/-- What a block comment holds behind the mark that opens it, with the
mark that closes it. Where the closing mark stands the comment ends;
where comments nest, an opening mark opens another one. -/
inductive CommentBody (lang : Language) : List Char → Prop
  | close : CommentBody lang lang.blockClose.toList
  | char {c : Char} {body : List Char}
      (unclosed : ¬lang.blockClose.toList <+: c :: body)
      (unopened : lang.nestedBlocks = true →
        ¬lang.blockOpen.toList <+: c :: body)
      (more : CommentBody lang body) : CommentBody lang (c :: body)
  | nested {inner outer : List Char} (nests : lang.nestedBlocks = true)
      (unclosed : ¬lang.blockClose.toList
        <+: lang.blockOpen.toList ++ inner ++ outer)
      (first : CommentBody lang inner) (more : CommentBody lang outer) :
      CommentBody lang (lang.blockOpen.toList ++ inner ++ outer)

/-- A stretch of whitespace and comments. A line comment ends in front
of a newline, or with the text where the gap is the `last`. -/
inductive Gap (lang : Language) (last : Prop) : List Char → Prop
  | nil : Gap lang last []
  | space {c : Char} {gap : List Char} (white : isWhitespace c = true)
      (more : Gap lang last gap) : Gap lang last (c :: gap)
  | line {body gap : List Char} (plain : '\n' ∉ body)
      (ended : gap.head? = some '\n' ∨ gap = [] ∧ last)
      (more : Gap lang last gap) :
      Gap lang last (lang.lineComment.toList ++ body ++ gap)
  | block {body gap : List Char} (closed : CommentBody lang body)
      (more : Gap lang last gap) :
      Gap lang last (lang.blockOpen.toList ++ body ++ gap)

section
variable {lang : Language} {text body rest : List Char}

/-- What holds of the text behind a gap matters at its end only. -/
theorem Gap.mono {last last' : Prop} {gap : List Char}
    (ends : last → last') (h : Gap lang last gap) : Gap lang last' gap := by
  induction h with
  | nil => exact .nil
  | space white more ih => exact .space white ih
  | line plain ended more ih =>
      exact .line plain (ended.imp_right (And.imp_right ends)) ih
  | block closed more ih => exact .block closed ih

-- ========================================= what is counted, has bodies

/-- What stands at the head of a text and goes on with what is behind
it. -/
theorem eq_append_drop {mark text : List Char}
    (h : mark.isPrefixOf text = true) :
    text = mark ++ text.drop mark.length :=
  List.prefix_iff_eq_append.1 (List.isPrefixOf_iff_prefix.1 h) |>.symm

/-- Behind a piece that has characters, the scan goes on with what is
behind them. -/
theorem drop_pred {c : Char} {rest front behind : List Char}
    (split : c :: rest = front ++ behind) (some_char : front ≠ []) :
    rest.drop (front.length - 1) = behind := by
  obtain ⟨d, ds, rfl⟩ := List.exists_cons_of_ne_nil some_char
  obtain ⟨rfl, rfl⟩ := List.cons.inj split
  exact List.drop_left

/-- Bodies of comments one behind the other, as many as the depth. -/
inductive Bodies (lang : Language) : Nat → List Char → Prop
  | nil : Bodies lang 0 []
  | cons {depth : Nat} {body others : List Char}
      (first : CommentBody lang body) (more : Bodies lang depth others) :
      Bodies lang (depth + 1) (body ++ others)

/-- Behind an opening mark the first body is that of the comment inside,
and with it the second one is the body around. -/
theorem Bodies.opened {depth : Nat} (nests : lang.nestedBlocks = true)
    (unclosed : ¬lang.blockClose.toList <+: lang.blockOpen.toList ++ text)
    (h : Bodies lang (depth + 2) text) :
    Bodies lang (depth + 1) (lang.blockOpen.toList ++ text) := by
  cases h with
  | @cons _ inner _ inside more =>
      cases more with
      | @cons _ outer others around more =>
          have whole : lang.blockOpen.toList ++ (inner ++ (outer ++ others))
              = (lang.blockOpen.toList ++ inner ++ outer) ++ others := by
            simp only [List.append_assoc]
          rw [whole] at unclosed ⊢
          refine .cons (.nested nests (fun closes => unclosed ?_) inside
            around) more
          exact closes.trans (List.prefix_append _ _)

/-- A character that starts no mark belongs to the first body. -/
theorem Bodies.passed {depth : Nat} {c : Char}
    (unclosed : ¬lang.blockClose.toList <+: c :: text)
    (unopened : lang.nestedBlocks = true →
      ¬lang.blockOpen.toList <+: c :: text)
    (h : Bodies lang (depth + 1) text) :
    Bodies lang (depth + 1) (c :: text) := by
  cases h with
  | @cons _ body others inside more =>
      have longer {mark : List Char} (h : mark <+: c :: body) :
          mark <+: c :: (body ++ others) :=
        h.trans (List.prefix_append (c :: body) others)
      exact .cons (.char (fun closes => unclosed (longer closes))
        (fun nests opened => unopened nests (longer opened)) inside) more

/-- A walk through a comment that comes to an end passes one body for
each level that it started with. -/
theorem bodies_of_commentWidth (opens : lang.blockOpen.toList ≠ [])
    {depth width : Nat}
    (h : commentWidth lang.blockOpen.toList lang.blockClose.toList
      lang.nestedBlocks depth text = some width) :
    ∃ front rest, text = front ++ rest ∧ front.length = width
      ∧ Bodies lang depth front := by
  generalize opening : lang.blockOpen.toList = opening' at h opens
  generalize closing : lang.blockClose.toList = closing' at h
  generalize nests : lang.nestedBlocks = nested at h
  fun_induction commentWidth opening' closing' nested depth text
    generalizing width with
  | case1 text =>
      cases h
      exact ⟨[], text, rfl, rfl, .nil⟩
  | case2 => cases h
  | case3 depth c rest closes ih =>
      obtain ⟨inner, found, rfl⟩ := Option.map_eq_some_iff.1 h
      obtain ⟨front, behind, split, rfl, bodies⟩ := ih found
      refine ⟨closing' ++ front, behind, ?_, List.length_append,
        .cons (closing ▸ .close) bodies⟩
      rw [List.append_assoc, ← split]
      exact eq_append_drop closes
  | case4 depth c rest unclosed both ih =>
      obtain ⟨inner, found, rfl⟩ := Option.map_eq_some_iff.1 h
      obtain ⟨front, behind, split, rfl, bodies⟩ := ih found
      obtain ⟨isNested, opened⟩ := Bool.and_eq_true_iff.1 both
      have whole : c :: rest = (opening' ++ front) ++ behind := by
        rw [drop_pred (eq_append_drop opened) opens] at split
        rw [eq_append_drop opened, split, List.append_assoc]
      refine ⟨opening' ++ front, behind, whole, List.length_append, ?_⟩
      subst opening closing
      refine bodies.opened (nests.trans isNested) fun closes => unclosed ?_
      rw [List.isPrefixOf_iff_prefix, whole]
      exact closes.trans (List.prefix_append _ _)
  | case5 depth c rest unclosed unopened ih =>
      obtain ⟨inner, found, rfl⟩ := Option.map_eq_some_iff.1 h
      obtain ⟨front, behind, rfl, rfl, bodies⟩ := ih found
      subst opening closing nests
      have longer {mark : List Char} (h : mark <+: c :: front) :
          mark.isPrefixOf (c :: (front ++ behind)) = true :=
        List.isPrefixOf_iff_prefix.2
          (h.trans (List.prefix_append (c :: front) behind))
      refine ⟨c :: front, behind, rfl, Nat.add_comm _ _, bodies.passed
        (fun closes => unclosed (longer closes))
        fun isNested opened => unopened ?_⟩
      exact Bool.and_eq_true_iff.2 ⟨isNested, longer opened⟩

end

-- ===================================== what has a body, is passed over

section
variable {body gap rest : List Char} {pos : Nat}

theorem blocks_standard :
    Language.standard.blockClose.toList = ['-', '\x7d']
      ∧ Language.standard.nestedBlocks = true := by
  decide

theorem opens_block (text : List Char) :
    ['\x7b', '-'].isPrefixOf ('\x7b' :: '-' :: text) = true := rfl

/-- A body ends with the two characters that close it. -/
theorem CommentBody.two_le (h : CommentBody .standard body) :
    2 ≤ body.length := by
  induction h with
  | close => rw [blocks_standard.1]; rfl
  | char unclosed unopened more ih => rw [List.length_cons]; omega
  | nested nests unclosed first more inside around =>
      simp only [List.length_append]
      omega

/-- A mark of two characters is seen in a longer text only where it
stands in it. -/
theorem not_isPrefixOf_append {mark : List Char} (two : mark.length = 2)
    (long : 2 ≤ body.length) (absent : ¬mark <+: body)
    (rest : List Char) : ¬mark.isPrefixOf (body ++ rest) = true := by
  rw [List.isPrefixOf_iff_prefix]
  intro h
  refine absent (List.prefix_of_prefix_length_le h ?_ ?_)
  · exact List.prefix_append _ _
  · rw [two]
    exact long

/-- Over a body the walk through a comment comes up by one level. -/
theorem commentWidth_body (h : CommentBody .standard body) (depth : Nat)
    (rest : List Char) :
    commentWidth ['\x7b', '-'] ['-', '\x7d'] true (depth + 1)
        (body ++ rest)
      = (commentWidth ['\x7b', '-'] ['-', '\x7d'] true depth rest).map
          (body.length + ·) := by
  induction h generalizing depth rest with
  | close =>
      rw [blocks_standard.1, List.cons_append, commentWidth]
      rfl
  | @char c body unclosed unopened more ih =>
      have long : 2 ≤ (c :: body).length :=
        Nat.le_succ_of_le more.two_le
      rw [blocks_standard.1] at unclosed
      rw [marks_standard.2] at unopened
      have unclosed' := not_isPrefixOf_append rfl long unclosed rest
      have unopened' := not_isPrefixOf_append rfl long
        (unopened blocks_standard.2) rest
      rw [List.cons_append] at unclosed' unopened' ⊢
      rw [commentWidth, if_neg unclosed', Bool.true_and, if_neg unopened',
        ih, Option.map_map, List.length_cons]
      congr 1
      funext width
      show 1 + (body.length + width) = body.length + 1 + width
      omega
  | @nested inner outer nests unclosed first more inside around =>
      rw [marks_standard.2]
      simp only [List.cons_append, List.nil_append, List.append_assoc]
      rw [commentWidth, if_neg (by simp [List.isPrefixOf]), Bool.true_and,
        if_pos (opens_block _)]
      show (commentWidth _ _ true (depth + 1 + 1)
        (inner ++ (outer ++ rest))).map _ = _
      rw [inside, around, Option.map_map, Option.map_map]
      congr 1
      funext width
      simp only [Function.comp_apply, List.length_cons, List.length_append,
        List.length_nil]
      omega

/-- A block comment is a gap as long as it is. -/
theorem pieceAt_block (h : CommentBody .standard body)
    (rest : List Char) :
    pieceAt .standard '\x7b' ('-' :: (body ++ rest))
      = .gap (2 + body.length) := by
  have found : blockComment? .standard ('\x7b' :: '-' :: (body ++ rest))
      = some (.gap (2 + body.length)) := by
    rw [blockComment?_eq, if_pos (opens_block _), blocks_standard.1,
      blocks_standard.2]
    show some ((commentWidth _ _ true (0 + 1) (body ++ rest)).elim _ _) = _
    rw [commentWidth_body h, commentWidth]
    rfl
  have noLine : lineComment? .standard
      ('\x7b' :: '-' :: (body ++ rest)) = none := by
    rw [lineComment?, marks_standard.1]
    rfl
  unfold pieceAt
  simp only [noLine, found]
  rfl

/-- A line comment is a gap that ends in front of the newline. -/
theorem pieceAt_line (plain : '\n' ∉ body) (more : List Char) :
    pieceAt .standard '-' ('-' :: (body ++ '\n' :: more))
      = .gap (2 + body.length) := by
  have line : (body ++ '\n' :: more).takeWhile (· ≠ '\n') = body := by
    rw [takeWhile_before_newline (by decide)]
    refine List.takeWhile_eq_self_iff.2 fun d hd => ?_
    exact decide_eq_true fun same => plain (same ▸ hd)
  have found : lineComment? .standard ('-' :: '-' :: (body ++ '\n' :: more))
      = some (.gap (2 + body.length)) := by
    rw [lineComment?, marks_standard.1]
    show some (Piece.gap (2 + ((body ++ '\n' :: more).takeWhile
      (· ≠ '\n')).length)) = _
    rw [line]
  unfold pieceAt
  simp only [found]
  rfl

/-- Whitespace is passed over one character at a time. -/
theorem scan_space {c : Char} (white : isWhitespace c = true) :
    scan .standard pos (c :: rest) = scan .standard (pos + 1) rest := by
  by_cases blank : isBlank c = true
  · rw [scan, pieceAt, blank?, if_pos blank]
    rfl
  · rw [isWhitespace, Bool.or_eq_true] at white
    obtain rfl := eq_of_beq (white.resolve_left blank)
    exact scan_newline pos rest

/-- A gap is passed over, whatever follows. -/
theorem scan_gap (h : Gap .standard False gap) (pos : Nat)
    (rest : List Char) :
    scan .standard pos (gap ++ rest)
      = scan .standard (pos + gap.length) rest := by
  induction h generalizing pos with
  | nil => rfl
  | space white more ih =>
      rw [List.cons_append, scan_space white, ih, List.length_cons]
      congr 1
      omega
  | @line body gap plain ended more ih =>
      obtain newline | ⟨-, none⟩ := ended
      · obtain ⟨gap', rfl⟩ := List.head?_eq_some_iff.1 newline
        rw [marks_standard.1]
        simp only [List.cons_append, List.nil_append, List.append_assoc]
        rw [scan, pieceAt_line plain]
        show scan .standard _ ((('-' :: body) ++ _).drop (2 + body.length - 1))
          = _
        rw [List.drop_left' (by rw [List.length_cons]; omega),
          ← List.cons_append, ih]
        congr 1
        simp only [List.length_cons, List.length_append]
        omega
      · exact none.elim
  | @block body gap closed more ih =>
      rw [marks_standard.2]
      simp only [List.cons_append, List.nil_append, List.append_assoc]
      rw [scan, pieceAt_block closed]
      show scan .standard _ ((('-' :: body) ++ _).drop (2 + body.length - 1))
        = _
      rw [List.drop_left' (by rw [List.length_cons]; omega), ih]
      congr 1
      simp only [List.length_cons, List.length_append]
      omega

end

end DepLang.Lexer

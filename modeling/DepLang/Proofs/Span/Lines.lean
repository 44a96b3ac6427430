/-
Lines and columns. The lines of a text are what stands between its
newlines. Whatever comes before an offset consists of full lines, each
with the newline that ends it, and of the beginning of one more line
(`Span.exists_startsIn`): its line is the one after the full ones, and
its column is one more than what has begun.

So the offset at which its line begins can be told from the number of
the line alone (`Span.lineStart_eq`), and with the column the offset
itself. Past the end of the text, nothing changes but the column, which
goes on along the last line.
-/
import DepLang.Span
import Mathlib.Data.List.Induction
import Mathlib.Data.Prod.Lex

namespace DepLang

namespace Text

-- ============================================================= lines

/-- The lines of a text. What follows the last newline is a line too,
though it may be empty. -/
def lines (text : String) : List (List Char) := text.toList.splitOn '\n'

/-- Lines as they stand in a text that goes on after them: each has the
newline that ends it. -/
def ended (full : List (List Char)) : List Char :=
  full.flatMap (· ++ ['\n'])

/-- The offset at which a line begins. Lines are counted from one. -/
def lineOffset (text : String) (line : Nat) : Nat :=
  (ended ((lines text).take (line - 1))).length

variable {full : List (List Char)} {begun : List Char}

theorem ended_cons (l : List Char) (full : List (List Char)) :
    ended (l :: full) = l ++ '\n' :: ended full := by
  simp [ended]

theorem ended_concat (full : List (List Char)) (l : List Char) :
    ended (full ++ [l]) = ended full ++ l ++ ['\n'] := by
  simp [ended]

/-- Full lines have a newline each. -/
theorem count_ended (plain : ∀ l ∈ full, '\n' ∉ l) :
    (ended full).count '\n' = full.length := by
  induction full with
  | nil => rfl
  | cons l full ih =>
      obtain ⟨first, others⟩ := List.forall_mem_cons.1 plain
      rw [ended_cons, List.count_append, List.count_eq_zero.2 first,
        List.count_cons_self, ih others, List.length_cons]
      omega

/-- Full lines are the first lines of a text that starts with them. -/
theorem splitOn_ended (plain : ∀ l ∈ full, '\n' ∉ l) (rest : List Char) :
    (ended full ++ rest).splitOn '\n' = full ++ rest.splitOn '\n' := by
  induction full with
  | nil => rfl
  | cons l full ih =>
      obtain ⟨first, others⟩ := List.forall_mem_cons.1 plain
      rw [ended_cons, List.append_assoc, List.cons_append,
        List.splitOn_append_cons_self_of_not_mem first, ih others,
        List.cons_append]

/-- What has begun without a newline is the beginning of the next
line. -/
theorem splitOn_begun (plain : '\n' ∉ begun) (rest : List Char) :
    ∃ l ls, (begun ++ rest).splitOn '\n' = (begun ++ l) :: ls := by
  induction begun with
  | nil => exact List.exists_cons_of_ne_nil (List.splitOn_ne_nil '\n' rest)
  | cons c begun ih =>
      obtain ⟨other, others⟩ := not_or.1 (mt List.mem_cons.2 plain)
      obtain ⟨l, ls, next⟩ := ih others
      refine ⟨l, ls, ?_⟩
      rw [List.cons_append, List.splitOn_cons_eq_if_modifyHead,
        if_neg (by simpa using Ne.symm other), next, List.modifyHead_cons,
        List.cons_append]

/-- What has begun is what comes after the last newline. -/
theorem takeWhile_ended (plain : '\n' ∉ begun) :
    (ended full ++ begun).reverse.takeWhile (· ≠ '\n') = begun.reverse := by
  have others : ∀ c ∈ begun.reverse, decide (c ≠ '\n') = true := by
    intro c hc
    exact decide_eq_true fun newline => plain (newline ▸ List.mem_reverse.1 hc)
  rw [List.reverse_append, List.takeWhile_append_of_pos others]
  cases full using List.reverseRecOn with
  | nil => exact List.append_nil _
  | append_singleton full l =>
      rw [ended_concat, List.reverse_append]
      exact List.append_nil _

/-- Every text consists of full lines and the beginning of one more. -/
theorem exists_ended (cs : List Char) :
    ∃ full begun, (∀ l ∈ full, '\n' ∉ l) ∧ '\n' ∉ begun
      ∧ cs = ended full ++ begun := by
  induction cs using List.reverseRecOn with
  | nil => exact ⟨[], [], List.forall_mem_nil _, List.not_mem_nil, rfl⟩
  | append_singleton cs c ih =>
      obtain ⟨full, begun, plain, unfinished, rfl⟩ := ih
      by_cases newline : c = '\n'
      · subst newline
        refine ⟨full ++ [begun], [], ?_, List.not_mem_nil, ?_⟩
        · exact List.forall_mem_append.2
            ⟨plain, List.forall_mem_singleton.2 unfinished⟩
        · rw [ended_concat, List.append_nil]
      · refine ⟨full, begun ++ [c], plain, ?_, List.append_assoc _ _ _⟩
        rw [List.mem_append, List.mem_singleton]
        exact not_or.2 ⟨unfinished, Ne.symm newline⟩

end Text

open Text

namespace Span

variable {s t : Span} {text : String} {full : List (List Char)}
  {begun : List Char}

-- ================================================ where a span starts

/-- A span starts after so many full lines and the beginning of one
more. -/
structure StartsIn (s : Span) (text : String) (full : List (List Char))
    (begun : List Char) : Prop where
  plain : ∀ l ∈ full, '\n' ∉ l
  unfinished : '\n' ∉ begun
  before : s.before text = ended full ++ begun

theorem exists_startsIn (s : Span) (text : String) :
    ∃ full begun, s.StartsIn text full begun := by
  obtain ⟨full, begun, plain, unfinished, before⟩ :=
    exists_ended (s.before text)
  exact ⟨full, begun, plain, unfinished, before⟩

namespace StartsIn

theorem line_eq (h : s.StartsIn text full begun) :
    s.line text = full.length + 1 := by
  unfold line
  rw [h.before, List.count_append, count_ended h.plain,
    List.count_eq_zero.2 h.unfinished]

theorem lineStart_eq (h : s.StartsIn text full begun) :
    s.lineStart text = (ended full).length := by
  show (s.before text).length
    - ((s.before text).reverse.takeWhile (· ≠ '\n')).length = _
  rw [h.before, takeWhile_ended h.unfinished, List.length_append,
    List.length_reverse, Nat.add_sub_cancel]

/-- The lines before the span's own are the full ones, and its own
begins as it does before the span. -/
theorem lines_eq (h : s.StartsIn text full begun) :
    ∃ l ls, lines text = full ++ (begun ++ l) :: ls := by
  obtain ⟨l, ls, next⟩ := splitOn_begun h.unfinished (text.toList.drop s.start)
  refine ⟨l, ls, ?_⟩
  calc lines text
      = (s.before text ++ text.toList.drop s.start).splitOn '\n' :=
        congrArg (List.splitOn '\n') (List.take_append_drop _ _).symm
    _ = full ++ (begun ++ text.toList.drop s.start).splitOn '\n' := by
        rw [h.before, List.append_assoc, splitOn_ended h.plain]
    _ = full ++ (begun ++ l) :: ls := by rw [next]

end StartsIn

-- ==================================================== line and column

/-- Where its line begins is told by the number of the line. -/
theorem lineStart_eq_lineOffset (s : Span) (text : String) :
    s.lineStart text = lineOffset text (s.line text) := by
  obtain ⟨full, begun, h⟩ := s.exists_startsIn text
  obtain ⟨l, ls, lines⟩ := h.lines_eq
  unfold lineOffset
  rw [h.lineStart_eq, h.line_eq, lines, Nat.add_sub_cancel, List.take_left]

theorem lineStart_le (s : Span) (text : String) :
    s.lineStart text ≤ s.start :=
  calc s.lineStart text
      ≤ (s.before text).length := Nat.sub_le _ _
    _ ≤ s.start := List.length_take_le _ _

/-- The offset is recovered from line and column. -/
theorem lineOffset_add_column (s : Span) (text : String) :
    lineOffset text (s.line text) + s.column text = s.start + 1 := by
  have le := s.lineStart_le text
  rw [← lineStart_eq_lineOffset]
  unfold column
  omega

/-- Within the text, the column is one on the line or right behind
it. -/
theorem exists_line (within : s.start ≤ text.length) :
    ∃ l, (lines text)[s.line text - 1]? = some l
      ∧ s.column text ≤ l.length + 1 := by
  obtain ⟨full, begun, h⟩ := s.exists_startsIn text
  obtain ⟨l, ls, lines⟩ := h.lines_eq
  refine ⟨begun ++ l, ?_, ?_⟩
  · rw [lines, h.line_eq, Nat.add_sub_cancel,
      List.getElem?_append_right (Nat.le_refl _), Nat.sub_self]
    rfl
  · have start : s.start = (ended full).length + begun.length := by
      rw [← List.length_append, ← h.before]
      exact (List.length_take_of_le within).symm
    unfold column
    rw [h.lineStart_eq, List.length_append]
    omega

/-- Later offsets are on no earlier line. -/
theorem line_mono (le : s.start ≤ t.start) (text : String) :
    s.line text ≤ t.line text := by
  have sublist : (s.before text).Sublist (t.before text) :=
    (List.take_prefix_take_left le).sublist
  exact Nat.succ_le_succ (sublist.count_le '\n')

-- =========================================================== position

/-- The position of a span's start, in the order in which a text is
read. -/
def position (s : Span) (text : String) : Nat ×ₗ Nat :=
  toLex (s.line text, s.column text)

/-- Line and column depend on the offset, and tell it. -/
theorem position_eq_iff (s t : Span) (text : String) :
    s.position text = t.position text ↔ s.start = t.start := by
  constructor
  · intro same
    obtain ⟨line, column⟩ := Prod.mk.inj same
    have recovered := s.lineOffset_add_column text
    have recovered' := t.lineOffset_add_column text
    rw [line, column] at recovered
    omega
  · intro same
    unfold position column lineStart line before
    rw [same]

/-- Later offsets have later positions: on a later line, or further
right on one and the same. -/
theorem position_lt (lt : s.start < t.start) (text : String) :
    s.position text < t.position text := by
  refine Prod.Lex.toLex_lt_toLex.2 ?_
  rcases Nat.lt_or_eq_of_le (line_mono (Nat.le_of_lt lt) text) with
    below | same
  · exact .inl below
  · have recovered := s.lineOffset_add_column text
    have recovered' := t.lineOffset_add_column text
    rw [same] at recovered
    refine .inr ⟨same, ?_⟩
    show s.column text < t.column text
    omega

theorem position_lt_iff (s t : Span) (text : String) :
    s.position text < t.position text ↔ s.start < t.start := by
  constructor
  · intro before
    by_contra behind
    rcases Nat.lt_or_eq_of_le (Nat.le_of_not_lt behind) with after | same
    · exact (position_lt after text).asymm before
    · rw [(position_eq_iff s t text).2 same.symm] at before
      exact lt_irrefl _ before
  · intro lt
    exact position_lt lt text

/-- Line and column identify a position. The line is one more than the
newlines before the offset, the offset is recovered from the line, which
tells where it begins, and from the column, and within the text no column
is beyond the end of its line. So no two offsets have the same line and
column, and those of later offsets come later, for all offsets, past the
end of the text as well. -/
theorem line_column_identify (text : String) :
    (∀ s : Span, s.line text = 1 + (text.toList.take s.start).count '\n'
        ∧ lineOffset text (s.line text) + s.column text = s.start + 1
        ∧ (s.start ≤ text.length → ∃ l,
          (lines text)[s.line text - 1]? = some l
            ∧ s.column text ≤ l.length + 1))
      ∧ ∀ s t : Span, (s.position text = t.position text ↔ s.start = t.start)
        ∧ (s.position text < t.position text ↔ s.start < t.start) := by
  constructor
  · intro s
    exact ⟨Nat.add_comm _ _, s.lineOffset_add_column text, exists_line⟩
  · intro s t
    exact ⟨position_eq_iff s t text, position_lt_iff s t text⟩

/-- A text with an empty line and an unfinished one: the offset of the
newline that ends the empty line, the end of the text, and an offset past
it. -/
theorem line_column_identify_past :
    let text := "ab\n\ncd"
    let s : Span := ⟨3, 4⟩
    let t : Span := ⟨6, 6⟩
    let u : Span := ⟨9, 9⟩
    (s.line text, s.column text) = (2, 1)
      ∧ (t.line text, t.column text) = (3, 3)
      ∧ (u.line text, u.column text) = (3, 6)
      ∧ t.start ≤ text.length
      ∧ (∃ l, (lines text)[t.line text - 1]? = some l
        ∧ t.column text ≤ l.length + 1)
      ∧ s.position text < t.position text
      ∧ lineOffset text (u.line text) + u.column text = 10 := by
  intro text s t u
  obtain ⟨places, order⟩ := line_column_identify text
  have within : t.start ≤ text.length := by decide
  exact ⟨by decide, by decide, by decide, within, (places t).2.2 within,
    (order s t).2.2 (by decide), (places u).2.1⟩

end Span

end DepLang

/-
What patterns read. A run tries one way after the other, so it is a
search through the list of what each way leaves of the text, in the
order in which they are tried (`run_eq`). The list leaves nothing out
and adds nothing: what is behind a word that matches the pattern, and
only that, is on it (`mem_rests_iff`).

Which way comes first decides where a word ends. Behind a repetition of
single characters the first way leaves none that could go on
(`head?_rests_star`), and so does a pattern that ends in such a
repetition (`stops_of_width?`). A pattern of alternatives need not.
-/
import DepLang.Language.Pattern
import Mathlib.Data.List.TakeWhile

namespace DepLang.Pattern

-- ============================================================== ways

/-- What each way to repeat a step leaves of a text. -/
def repeated (once : List Char → List (List Char)) :
    Nat → List Char → List (List Char)
  | 0, _ => []
  | fuel + 1, text =>
    ((once text).flatMap fun rest =>
      if rest.length < text.length then repeated once fuel rest
      else [rest])
      ++ [text]

/-- What each way to read the head of a text leaves of it, in the order
in which they are tried. -/
def rests : Pattern → List Char → List (List Char)
  | .empty, text => [text]
  | .set _, [] => []
  | .set cls, c :: rest => if cls.contains c then [rest] else []
  | .seq p q, text => (p.rests text).flatMap q.rests
  | .alt p q, text => p.rests text ++ q.rests text
  | .star p, text => repeated p.rests (text.length + 1) text

theorem findSome?_flatMap {α β γ : Type} (f : α → List β)
    (g : β → Option γ) (as : List α) :
    (as.flatMap f).findSome? g = as.findSome? fun a => (f a).findSome? g := by
  induction as with
  | nil => rfl
  | cons a as ih =>
      rw [List.flatMap_cons, List.findSome?_append, ih, List.findSome?_cons]
      cases (f a).findSome? g <;> rfl

section
variable {α : Type}

/-- Rounds search through what repetition leaves. -/
theorem rounds_eq
    {read : (List Char → Option α) → List Char → Option α}
    {once : List Char → List (List Char)}
    (searches : ∀ next text, read next text = (once text).findSome? next)
    (next : List Char → Option α) (fuel : Nat) (text : List Char) :
    rounds read next fuel text
      = (repeated once fuel text).findSome? next := by
  induction fuel generalizing text with
  | zero => rfl
  | succ fuel ih =>
      rw [rounds, repeated, searches, List.findSome?_append,
        findSome?_flatMap, List.findSome?_singleton,
        Option.orElse_eq_orElse, Option.orElse_eq_or]
      congr 2
      funext rest
      split
      · exact ih rest
      · rw [List.findSome?_singleton]

/-- A run searches through what each way leaves for the first that what
comes next accepts. -/
theorem run_eq (p : Pattern) (next : List Char → Option α)
    (text : List Char) :
    p.run next text = (p.rests text).findSome? next := by
  induction p generalizing next text with
  | empty => rw [run, rests, List.findSome?_singleton]
  | set cls =>
      cases text with
      | nil => rfl
      | cons c rest =>
          rw [run, rests]
          split
          · rw [List.findSome?_singleton]
          · rfl
  | seq p q ihp ihq =>
      rw [run, rests, ihp, findSome?_flatMap]
      congr 1
      funext rest
      exact ihq next rest
  | alt p q ihp ihq =>
      rw [run, rests, ihp, ihq, List.findSome?_append,
        Option.orElse_eq_orElse, Option.orElse_eq_or]
  | star p ih =>
      rw [run, rests]
      exact rounds_eq ih next _ text

end

theorem width?_eq (p : Pattern) (text : List Char) :
    p.width? text
      = (p.rests text).head?.map fun rest => text.length - rest.length := by
  rw [width?, run_eq]
  cases p.rests text <;> rfl

-- ============================================================ rounds

/-- More fuel than the text is long makes no difference. -/
theorem repeated_fuel {once : List Char → List (List Char)}
    {fuel fuel' : Nat} {text : List Char} (enough : text.length < fuel)
    (enough' : text.length < fuel') :
    repeated once fuel text = repeated once fuel' text := by
  induction fuel generalizing fuel' text with
  | zero => exact absurd enough (Nat.not_lt_zero _)
  | succ fuel ih =>
      obtain ⟨fuel', rfl⟩ : ∃ n, fuel' = n + 1 :=
        Nat.exists_eq_add_one.2 (Nat.zero_lt_of_lt enough')
      rw [repeated, repeated]
      congr 2
      funext rest
      split
      next shorter => exact ih (by omega) (by omega)
      next => rfl

/-- A repetition is one round and a repetition, or it ends. -/
theorem rests_star (p : Pattern) (text : List Char) :
    (star p).rests text
      = ((p.rests text).flatMap fun rest =>
          if rest.length < text.length then (star p).rests rest
          else [rest])
        ++ [text] := by
  rw [rests, repeated]
  congr 2
  funext rest
  split
  next shorter => exact repeated_fuel shorter (Nat.lt_succ_self _)
  next => rfl

-- =========================================================== matches

/-- The words that a pattern describes. -/
inductive Matches : Pattern → List Char → Prop
  | empty : Matches .empty []
  | set {cls : CharClass} {c : Char} (h : cls.contains c = true) :
      Matches (.set cls) [c]
  | seq {p q : Pattern} {u v : List Char} (first : Matches p u)
      (second : Matches q v) : Matches (.seq p q) (u ++ v)
  | left {p q : Pattern} {u : List Char} (h : Matches p u) :
      Matches (.alt p q) u
  | right {p q : Pattern} {u : List Char} (h : Matches q u) :
      Matches (.alt p q) u
  | stop {p : Pattern} : Matches (.star p) []
  | round {p : Pattern} {u v : List Char} (first : Matches p u)
      (more : Matches (.star p) v) : Matches (.star p) (u ++ v)

/-- What is read of a text matches. -/
theorem matches_of_mem_rests {p : Pattern} {text rest : List Char}
    (h : rest ∈ p.rests text) :
    ∃ word, text = word ++ rest ∧ p.Matches word := by
  induction p generalizing text rest with
  | empty => exact ⟨[], (List.mem_singleton.1 h).symm, .empty⟩
  | set cls =>
      cases text with
      | nil => cases h
      | cons c cs =>
          rw [rests] at h
          split at h
          next within =>
            exact ⟨[c], congrArg _ (List.mem_singleton.1 h).symm,
              .set within⟩
          next => cases h
  | seq p q ihp ihq =>
      obtain ⟨middle, first, second⟩ := List.mem_flatMap.1 h
      obtain ⟨u, rfl, matched⟩ := ihp first
      obtain ⟨v, rfl, matched'⟩ := ihq second
      exact ⟨u ++ v, (List.append_assoc _ _ _).symm,
        .seq matched matched'⟩
  | alt p q ihp ihq =>
      rcases List.mem_append.1 h with first | second
      · obtain ⟨u, split, matched⟩ := ihp first
        exact ⟨u, split, .left matched⟩
      · obtain ⟨u, split, matched⟩ := ihq second
        exact ⟨u, split, .right matched⟩
  | star p ih =>
      -- each round but an empty one leaves less of the text
      induction len : text.length using Nat.strongRecOn
        generalizing text with
      | ind n rounds =>
          rw [rests_star] at h
          rcases List.mem_append.1 h with more | ended
          · obtain ⟨middle, first, behind⟩ := List.mem_flatMap.1 more
            obtain ⟨u, rfl, matched⟩ := ih first
            split at behind
            next shorter =>
              obtain ⟨v, rfl, matched'⟩ :=
                rounds _ (len ▸ shorter) behind rfl
              exact ⟨u ++ v, (List.append_assoc _ _ _).symm,
                .round matched matched'⟩
            next =>
              obtain rfl := List.mem_singleton.1 behind
              refine ⟨u ++ [], by rw [List.append_nil], ?_⟩
              exact .round matched .stop
          · exact ⟨[], (List.mem_singleton.1 ended).symm, .stop⟩

/-- Whatever matches is read, in one way or another. -/
theorem Matches.mem_rests {p : Pattern} {word : List Char}
    (h : p.Matches word) (rest : List Char) :
    rest ∈ p.rests (word ++ rest) := by
  induction h generalizing rest with
  | empty => exact List.mem_singleton.2 rfl
  | set within =>
      rw [List.singleton_append, rests, if_pos within]
      exact List.mem_singleton.2 rfl
  | seq _ _ first second =>
      rw [List.append_assoc]
      exact List.mem_flatMap.2 ⟨_, first _, second rest⟩
  | left _ ih => exact List.mem_append_left _ (ih rest)
  | right _ ih => exact List.mem_append_right _ (ih rest)
  | stop =>
      rw [List.nil_append, rests_star]
      exact List.mem_append_right _ (List.mem_singleton.2 rfl)
  | @round p u v _ _ first more =>
      cases u with
      | nil => exact more rest
      | cons c u =>
          have shorter : (v ++ rest).length
              < (c :: u ++ (v ++ rest)).length := by
            simp only [List.length_append, List.length_cons]
            omega
          rw [List.append_assoc, rests_star]
          refine List.mem_append_left _
            (List.mem_flatMap.2 ⟨_, first _, ?_⟩)
          rw [if_pos shorter]
          exact more rest

/-- The ways to read a text are the words at its head that match. -/
theorem mem_rests_iff {p : Pattern} {text rest : List Char} :
    rest ∈ p.rests text ↔ ∃ word, text = word ++ rest ∧ p.Matches word := by
  refine ⟨matches_of_mem_rests, ?_⟩
  rintro ⟨word, rfl, matched⟩
  exact matched.mem_rests rest

/-- A pattern accepts what matches it. -/
theorem accepts_iff {p : Pattern} {word : List Char} :
    p.accepts word = true ↔ p.Matches word := by
  have whole : p.accepts word = true ↔ [] ∈ p.rests word := by
    rw [accepts, run_eq, List.findSome?_isSome_iff]
    constructor
    · rintro ⟨rest, member, ended⟩
      cases rest with
      | nil => exact member
      | cons c rest => cases ended
    · exact fun member => ⟨[], member, rfl⟩
  rw [whole, mem_rests_iff]
  constructor
  · rintro ⟨u, rfl, matched⟩
    rwa [List.append_nil]
  · exact fun matched => ⟨word, (List.append_nil word).symm, matched⟩

section
variable {p : Pattern} {text : List Char} {n : Nat}

/-- What a pattern reads of a text is a word that matches it, and the
text goes on behind it. -/
theorem matches_of_width? (h : p.width? text = some n) :
    ∃ word rest, text = word ++ rest ∧ word.length = n
      ∧ (p.rests text).head? = some rest ∧ p.Matches word := by
  rw [width?_eq] at h
  obtain ⟨rest, first, rfl⟩ := Option.map_eq_some_iff.1 h
  obtain ⟨word, rfl, matched⟩ :=
    matches_of_mem_rests (List.mem_of_head? first)
  refine ⟨word, rest, rfl, ?_, first, matched⟩
  rw [List.length_append, Nat.add_sub_cancel]

end

-- ============================================== single characters

/-- Does the pattern always read one character? -/
def isSingle : Pattern → Bool
  | .set _ => true
  | .alt p q => p.isSingle && q.isSingle
  | .empty | .seq _ _ | .star _ => false

section
variable {p q : Pattern} {text : List Char}

theorem Matches.singleton (single : p.isSingle = true) {word : List Char}
    (h : p.Matches word) : ∃ c, word = [c] := by
  induction h with
  | empty => cases single
  | set => exact ⟨_, rfl⟩
  | seq => cases single
  | left _ ih => exact ih (Bool.and_eq_true_iff.1 single).1
  | right _ ih => exact ih (Bool.and_eq_true_iff.1 single).2
  | stop => cases single
  | round => cases single

theorem rests_nil_of_single (single : p.isSingle = true) :
    p.rests [] = [] := by
  refine List.eq_nil_iff_forall_not_mem.2 fun rest h => ?_
  obtain ⟨word, split, matched⟩ := matches_of_mem_rests h
  obtain ⟨c, rfl⟩ := matched.singleton single
  cases split

/-- In front of a character that it accepts, all that a pattern of single
characters leaves is what is behind it. -/
theorem rests_cons_of_single (single : p.isSingle = true) (c : Char)
    (rest : List Char) :
    (∀ other ∈ p.rests (c :: rest), other = rest)
      ∧ (p.rests (c :: rest) = [] ↔ p.accepts [c] = false) := by
  have read : ∀ other ∈ p.rests (c :: rest),
      other = rest ∧ p.Matches [c] := by
    intro other h
    obtain ⟨word, split, matched⟩ := matches_of_mem_rests h
    obtain ⟨d, rfl⟩ := matched.singleton single
    obtain ⟨rfl, rfl⟩ := List.cons.inj split
    exact ⟨rfl, matched⟩
  refine ⟨fun other h => (read other h).1, fun unread => ?_,
    fun refused => ?_⟩
  · refine Bool.eq_false_iff.2 fun accepted => ?_
    have member := (accepts_iff.1 accepted).mem_rests rest
    rw [List.singleton_append, unread] at member
    cases member
  · refine List.eq_nil_iff_forall_not_mem.2 fun other h => ?_
    rw [accepts_iff.2 (read other h).2] at refused
    cases refused

/-- Where a run of characters ends, no character of the run follows. -/
theorem head?_dropWhile {q : Char → Bool} (text : List Char) :
    ∀ d ∈ (text.dropWhile q).head?, q d = false := by
  intro d hd
  have stopped := List.head?_dropWhile_not q text
  rw [Option.mem_def.1 hd] at stopped
  simpa using stopped

/-- A repetition of single characters takes all that it can, first. -/
theorem head?_rests_star (single : p.isSingle = true)
    (text : List Char) :
    ((star p).rests text).head?
      = some (text.dropWhile fun c => p.accepts [c]) := by
  induction text with
  | nil =>
      rw [rests_star, rests_nil_of_single single]
      rfl
  | cons c rest ih =>
      obtain ⟨only, unread⟩ := rests_cons_of_single single c rest
      rw [rests_star]
      cases found : p.rests (c :: rest) with
      | nil =>
          rw [List.dropWhile_cons_of_neg (by simp [unread.1 found])]
          rfl
      | cons other others =>
          obtain rfl := only other (found ▸ List.mem_cons_self)
          have accepted : p.accepts [c] = true := by
            by_contra not
            cases found.symm.trans (unread.2 (Bool.eq_false_iff.2 not))
          have shorter : other.length < (c :: other).length :=
            Nat.lt_succ_self _
          rw [List.dropWhile_cons_of_pos (by exact accepted),
            List.flatMap_cons, if_pos shorter, List.append_assoc,
            List.head?_append, ih]
          rfl

/-- A pattern that ends with a repetition of single characters reads no
word with a character behind it that could have gone on. -/
theorem stops_of_width? (single : q.isSingle = true) {n : Nat}
    (h : (seq p (star q)).width? text = some n) :
    ∀ c ∈ (text.drop n).head?, q.accepts [c] = false := by
  obtain ⟨word, rest, rfl, rfl, first, -⟩ := matches_of_width? h
  rw [List.drop_left]
  -- the repetition fails nowhere, so the first way up to it counts
  rw [rests, List.head?_flatMap] at first
  obtain ⟨before, middle, after, -, reached, -⟩ :=
    List.findSome?_eq_some_iff.1 first
  rw [head?_rests_star single] at reached
  cases reached
  exact head?_dropWhile middle

end

end DepLang.Pattern

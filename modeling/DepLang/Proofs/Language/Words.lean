/-
Words. In every language a word is what the pattern of words reads: some
characters that match it (`Rules.word_of_width?`). Where it is a start
and a repetition of the letters, and each letter is one character, no
letter is left behind a word (`Language.stops_of_width?`). In the standard
language both are classes of characters, so a word is a run of letters
up to the first character that is none.
-/
import DepLang.Language
import DepLang.Proofs.Language.Patterns

namespace DepLang

open Pattern

namespace Language

variable (lang : Language)

/-- The characters match the pattern of words. -/
def IsWord (word : List Char) : Prop :=
  ∃ p, lang.wordPattern? = some p ∧ p.Matches word

/-- Does the character match the pattern of letters? -/
def isIdentLetter (c : Char) : Bool :=
  (Pattern.ofText? lang.identLetter.toList).any fun p => p.accepts [c]

/-- The pattern of words is a start and a repetition of the letters, and
each letter is one character. -/
def WordsRun : Prop :=
  ∃ p q, lang.wordPattern? = some (.seq p (.star q))
    ∧ Pattern.ofText? lang.identLetter.toList = some q
    ∧ q.isSingle = true

variable {lang}

/-- Where words run, no letter is left behind a word. -/
theorem stops_of_width? {p : Pattern} {text : List Char} {n : Nat}
    (runs : lang.WordsRun) (spelled : lang.wordPattern? = some p)
    (h : p.width? text = some n) :
    ∀ c ∈ (text.drop n).head?, lang.isIdentLetter c = false := by
  obtain ⟨start, q, spelled', letters, single⟩ := runs
  cases spelled.symm.trans spelled'
  intro c hc
  rw [isIdentLetter, letters]
  exact Pattern.stops_of_width? single h c hc

end Language

namespace Rules

variable {rules : Rules} {text : List Char} {n : Nat}

/-- What is read as a word is one, and has some characters. -/
theorem word_of_width? (h : rules.word.width? text = some n) :
    ∃ word rest, text = word ++ rest ∧ word.length = n ∧ word ≠ []
      ∧ rules.IsWord word := by
  obtain ⟨word, rest, split, length, -, matched⟩ := matches_of_width? h
  refine ⟨word, rest, split, length, ?_, rules.word, rules.spelled, matched⟩
  rintro rfl
  have accepted := accepts_iff.2 matched
  rw [rules.some_letter] at accepted
  cases accepted

-- ========================================== the standard language

theorem accepts_set (cls : CharClass) (c : Char) :
    (Pattern.set cls).accepts [c] = cls.contains c := by
  rw [accepts, run]
  cases cls.contains c <;> rfl

theorem isIdentLetter_standard (c : Char) :
    Language.standard.isIdentLetter c = letterClass.contains c := by
  have letters : Pattern.ofText? Language.standard.identLetter.toList
      = some (.set letterClass) := by
    decide
  rw [Language.isIdentLetter, letters]
  exact accepts_set letterClass c

theorem wordsRun_standard : Language.standard.WordsRun :=
  ⟨_, _, standard.spelled, by decide, rfl⟩

theorem matches_letters {word : List Char} :
    (Pattern.star (.set letterClass)).Matches word
      ↔ ∀ d ∈ word, letterClass.contains d = true := by
  constructor
  · intro matched
    generalize same : Pattern.star (.set letterClass) = p at matched
    induction matched with
    | stop => exact fun d hd => by cases hd
    | round first more _ ih =>
        cases same
        cases first with
        | set within => exact List.forall_mem_cons.2 ⟨within, ih rfl⟩
    | _ => cases same
  · intro letters
    induction word with
    | nil => exact .stop
    | cons c word ih =>
        obtain ⟨within, others⟩ := List.forall_mem_cons.1 letters
        exact .round (.set within) (ih others)

/-- A word of the standard language is a letter and what goes on with
it. -/
theorem isWord_standard {word : List Char} :
    Language.standard.IsWord word ↔ ∃ c cs, word = c :: cs
      ∧ startClass.contains c = true
      ∧ ∀ d ∈ cs, letterClass.contains d = true := by
  constructor
  · rintro ⟨p, spelled, matched⟩
    cases spelled.symm.trans standard.spelled
    cases matched with
    | seq first second =>
        cases first with
        | set starts => exact ⟨_, _, rfl, starts, matches_letters.1 second⟩
  · rintro ⟨c, cs, rfl, starts, letters⟩
    exact ⟨_, standard.spelled,
      .seq (.set starts) (matches_letters.2 letters)⟩

/-- A word of the standard language is read up to the first character
that does not go on with it. -/
theorem width?_standard (c : Char) (rest : List Char) :
    standard.word.width? (c :: rest)
      = if startClass.contains c then
          some (c :: rest.takeWhile letterClass.contains).length
        else none := by
  have letters : (fun d => (Pattern.set letterClass).accepts [d])
      = letterClass.contains :=
    funext (accepts_set letterClass)
  rw [width?_eq, rests, rests]
  split
  next =>
    rw [List.flatMap_singleton, head?_rests_star rfl, letters]
    have whole := congrArg List.length
      (List.takeWhile_append_dropWhile (p := letterClass.contains)
        (l := rest))
    rw [List.length_append] at whole
    simp only [Option.map_some, List.length_cons, Option.some.injEq]
    omega
  next => rfl

end Rules

end DepLang

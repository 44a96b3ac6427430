/-
The lexical description of a language: how comments are marked, which
characters make identifiers and operators, and which words and
operators are reserved. `Language.standard` is the language itself; a
description with other marks or letters reads the same grammar.

An identifier is described by two patterns, its start and its letters,
and both are given as texts. The texts are joined as they stand, and
only the joined text is read as a pattern: a start that is made of
alternatives and not put in parentheses takes the letters into its last
alternative.

Not every description makes sense. The rules of a language are a
description from which a lexer can be built, with the pattern of its
words.
-/
import DepLang.Language.PatternText

namespace DepLang

/-- What the lexer has to know about a language. -/
structure Language where
  lineComment : String
  blockOpen : String
  blockClose : String
  nestedBlocks : Bool
  identStart : String
  identLetter : String
  operatorLetters : String
  reservedWords : List String
  reservedOperators : List String
  deriving Inhabited

namespace Language

/-- The language as it comes. -/
def standard : Language where
  lineComment := "--"
  blockOpen := "\x7b-"
  blockClose := "-\x7d"
  nestedBlocks := true
  identStart := "[A-Za-z]"
  identLetter := "[A-Za-z0-9_']"
  operatorLetters := ":!#$%&*+./<=>?@\\^|-~"
  reservedWords := ["data", "where", "infixl", "infixr", "infix", "Set"]
  reservedOperators := [":", "=", "\\", "|", "->", "=>", "."]

/-- Is the word kept from being an identifier? -/
def isReservedWord (lang : Language) (word : String) : Bool :=
  lang.reservedWords.contains word

/-- Is the operator kept from being declared or named? -/
def isReservedOperator (lang : Language) (symbol : String) : Bool :=
  lang.reservedOperators.contains symbol

/-- Can the character stand in an operator? -/
def isOperatorLetter (lang : Language) (c : Char) : Bool :=
  lang.operatorLetters.toList.contains c

/-- The pattern of words: a start, and then letters. -/
def wordPattern? (lang : Language) : Option Pattern :=
  Pattern.ofText?
    (lang.identStart.toList ++ lang.identLetter.toList ++ ['*'])

end Language

/-- A language that a lexer can be built for. Each scanner takes
something of a text that it accepts. -/
structure Rules extends Language where
  word : Pattern
  spelled : toLanguage.wordPattern? = some word
  some_letter : word.accepts [] = false
  marked : lineComment ≠ ""
  opens : blockOpen ≠ ""
  lettered : operatorLetters ≠ ""

/-- The rules of a language, if a lexer can be built for it. -/
def Language.rules? (lang : Language) : Option Rules :=
  match spelled : lang.wordPattern? with
  | none => none
  | some word =>
    if sound : word.accepts [] = false ∧ lang.lineComment ≠ ""
        ∧ lang.blockOpen ≠ "" ∧ lang.operatorLetters ≠ "" then
      some
        { lang with
          word
          spelled
          some_letter := sound.1
          marked := sound.2.1
          opens := sound.2.2.1
          lettered := sound.2.2.2 }
    else none

namespace Rules

/-- Rules are those of their language. -/
theorem rules?_toLanguage (rules : Rules) :
    rules.toLanguage.rules? = some rules := by
  obtain ⟨lang, word, spelled, some_letter, marked, opens, lettered⟩ :=
    rules
  unfold Language.rules?
  split
  next none => cases none.symm.trans spelled
  next found =>
    cases found.symm.trans spelled
    exact dif_pos ⟨some_letter, marked, opens, lettered⟩

/-- The rules of a language are nothing but its own. -/
theorem toLanguage_of_rules? {lang : Language} {rules : Rules}
    (h : lang.rules? = some rules) : rules.toLanguage = lang := by
  unfold Language.rules? at h
  split at h
  · cases h
  · split at h <;> cases h
    rfl

theorem some_mark (rules : Rules) : rules.lineComment.toList ≠ [] :=
  fun none => rules.marked (String.toList_eq_nil_iff.1 none)

theorem some_open (rules : Rules) : rules.blockOpen.toList ≠ [] :=
  fun none => rules.opens (String.toList_eq_nil_iff.1 none)

/-- The characters that start a word of the standard language. -/
def startClass : CharClass :=
  { members := [.range 'A' 'Z', .range 'a' 'z'] }

/-- The characters that go on with a word of the standard language. -/
def letterClass : CharClass :=
  { members :=
      [.range 'A' 'Z', .range 'a' 'z', .range '0' '9', .char '_',
        .char '\''] }

/-- The rules of the standard language. -/
abbrev standard : Rules where
  toLanguage := .standard
  word := .seq (.set startClass) (.star (.set letterClass))
  spelled := by decide
  some_letter := by decide
  marked := by decide
  opens := by decide
  lettered := by decide

end Rules

end DepLang

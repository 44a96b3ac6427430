/-
The spans of a term that is read off a text are faithful: every node has
one but for the two kinds that have none, each is a part of the text
with some characters in it, those of a node's children are inside its
own, and they stand one behind the other (`readTerm_faithful`). What has
none is told by the tokens of the text and the operators of the registry.

The tokens of a text are in their places (`placed_of_tokenize`), and an
expression covers the tokens it is read from.
-/
import DepLang.Proofs.Grammar.Spans
import DepLang.Proofs.Reader.Reprint

namespace DepLang

open DepLang.Grammar DepLang.Parser

namespace Input

variable {items : List Token} {ending : Token} {origin : Origin}
  {language : Language} {filename text : String}

/-- The tokens of a text, with its end, stand in their places, whatever
operators are declared. -/
theorem placed_of_tokenize (table : FixityTable) (origin : Origin)
    (scans : Lexer.tokenize language text filename
      = .ok (items ++ [ending])) :
    (ofItems items ending origin language).Placed
      ⟨items ++ [ending], table, text.length⟩ := by
  obtain ⟨rules, -, scans⟩ := Lexer.scan_of_tokenize scans
  obtain ⟨items', stop, split, short, each⟩ := Lexer.scan_places scans
  obtain ⟨rfl, last⟩ := List.append_inj' split rfl
  obtain rfl : ending = ⟨.eof "", ⟨stop, stop⟩⟩ := List.singleton_inj.1 last
  have ordered := Lexer.ordered_scan scans
  obtain ⟨-, -, before⟩ := List.pairwise_append.1 ordered
  rw [Nat.zero_add, String.length_toList] at short
  -- an item has some characters and stops before the end does
  have forward (t : Token) (ht : t ∈ items ++ [⟨.eof "", ⟨stop, stop⟩⟩]) :
      t.span.start ≤ t.span.stop ∧ t.span.stop ≤ stop := by
    rcases List.mem_append.1 ht with ht | ht
    · exact ⟨Nat.le_of_lt (each t ht),
        before t ht _ (List.mem_singleton_self _)⟩
    · rw [List.mem_singleton.1 ht]
      exact ⟨Nat.le_refl _, Nat.le_refl _⟩
  refine ⟨fun i inside => ?_, fun i inside => ?_, fun i => ?_, fun i => ?_,
    fun i j lt => ?_⟩
  · have inside : i < items.length := by simpa [ofItems] using inside
    rw [tokenAt_ofItems, List.getElem?_append_left inside,
      List.getElem?_eq_getElem inside]
    rfl
  · have inside : i < items.length := by simpa [ofItems] using inside
    rw [tokenAt_ofItems, List.getElem?_eq_getElem inside]
    exact each _ (List.getElem_mem inside)
  · exact (forward _ (tokenAt_mem rfl i)).1
  · exact Nat.le_trans (forward _ (tokenAt_mem rfl i)).2 short
  · rcases Nat.lt_or_ge i items.length with inside | outside
    · have place (i : Nat) :
          (items ++ [⟨.eof "", ⟨stop, stop⟩⟩])[min i items.length]?
            = some ((ofItems items ⟨.eof "", ⟨stop, stop⟩⟩ origin
              language).tokenAt i) :=
        getElem?_tokens rfl i
      obtain ⟨hi, here⟩ := List.getElem?_eq_some_iff.1 (place i)
      obtain ⟨hj, there⟩ := List.getElem?_eq_some_iff.1 (place j)
      rw [← here, ← there]
      exact List.pairwise_iff_getElem.1 ordered _ _ hi hj (by omega)
    · -- behind the items there is the end over and over
      rw [tokenAt_ofItems, tokenAt_ofItems, List.getElem?_eq_none outside,
        List.getElem?_eq_none (Nat.le_trans outside (Nat.le_of_lt lt))]
      exact Nat.le_refl stop

end Input

namespace Reading

variable {lang : Language} {filename text : String} {r : Registry}
  {items : List Token} {ending : Token} {t : Term}

/-- A term that is read is an expression at the start of the items. -/
theorem reads_of_readTerm_ok
    (scans : Lexer.tokenize lang text filename = .ok (items ++ [ending]))
    (ended : ending.kind = .eof)
    (read : (readTerm lang filename text r).outcome = .ok t) :
    ∃ j, Reads (inputOf items ending lang filename text) r expr 0 j t := by
  rw [readTerm, ofText_eq scans ended] at read
  cases run : wholeExpr (inputOf items ending lang filename text)
      { registry := r } with
  | ok t' u =>
      rw [run] at read
      cases read
      obtain ⟨t', k, v, found, -, run⟩ := plain_expr.step ⟨rfl, rfl⟩ run
      obtain ⟨_, w, -, run⟩ := bind_ok run
      cases run
      exact ⟨k, found⟩
  | error | defect =>
      rw [run] at read
      cases read

end Reading

/-- The spans of a term are faithful to the text it is read off, to its
tokens and to the operators of the registry, in any language and under
any registry. -/
theorem readTerm_faithful (lang : Language) (filename text : String)
    (r : Registry) (t : Term)
    (read : (readTerm lang filename text r).outcome = .ok t) :
    ∃ tokens, Lexer.tokenize lang text filename = .ok tokens
      ∧ t.Faithful ⟨tokens, r.fixities, text.length⟩ := by
  cases scans : Lexer.tokenize lang text filename with
  | error stop =>
      rw [readTerm, Reading.ofText, scans] at read
      cases read
  | ok tokens =>
      obtain ⟨items, span, rfl⟩ := Lexer.tokenize_ends scans
      obtain ⟨j, h⟩ := Reading.reads_of_readTerm_ok scans rfl read
      have placed := Input.placed_of_tokenize r.fixities
        ⟨filename, some text⟩ scans
      have covers := covers_of_reads_expr placed (fun _ he => he) h
      exact ⟨_, rfl, covers.faithful⟩

/-- An application in parentheses, a name that stands for itself, two
operators that group to the left, an arrow, and a lambda without a type.
The spans are those of the subterms as they are written, each in front
of its parts. -/
theorem readTerm_faithful_arrow :
    let r : Registry := { fixities := [⟨⟨.left, 6⟩, "+"⟩] }
    let text := "(f \x7bx\x7d (a + b + c)) -> \\y => Set"
    ∃ t, (readTerm .standard "m" text r).outcome = .ok t
      ∧ t.subterms.map Term.span
        = [some ⟨1, 32⟩, some ⟨1, 18⟩, some ⟨1, 2⟩, some ⟨4, 5⟩,
          some ⟨8, 17⟩, none, some ⟨8, 13⟩, none, some ⟨8, 9⟩,
          some ⟨12, 13⟩, some ⟨16, 17⟩, some ⟨23, 32⟩, none, some ⟨29, 32⟩]
      ∧ ∃ tokens, Lexer.tokenize .standard text "m" = .ok tokens
        ∧ t.Faithful ⟨tokens, r.fixities, text.length⟩ := by
  intro r text
  obtain ⟨t, read, spans⟩ := Reading.found_of_checked
    (readTerm .standard "m" text r)
    (fun t => t.subterms.map Term.span
      = [some ⟨1, 32⟩, some ⟨1, 18⟩, some ⟨1, 2⟩, some ⟨4, 5⟩,
        some ⟨8, 17⟩, none, some ⟨8, 13⟩, none, some ⟨8, 9⟩,
        some ⟨12, 13⟩, some ⟨16, 17⟩, some ⟨23, 32⟩, none, some ⟨29, 32⟩])
    (by decide +kernel)
  exact ⟨t, read, spans, readTerm_faithful _ _ _ _ _ read⟩

end DepLang

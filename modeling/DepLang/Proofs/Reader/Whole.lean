/-
Reading a whole text by reading its tokens. A text that scans to items
and the end of the input is an input with these items in their places,
and what a parser reads or refuses there is what the reading of the text
comes to. A module that is read is a run over such an input, and every
module is read or leaves the registry as it was; if it was lexed, its
text is to blame.
-/
import DepLang.Proofs.Grammar.Inside
import DepLang.Proofs.Grammar.Reads
import DepLang.Proofs.Lexer.Ordered
import DepLang.Proofs.Reader.Failed

namespace DepLang

open DepLang.Grammar DepLang.Parser

-- =========================================================== input

namespace Input

/-- The input with the given items, ended by the given token. -/
def ofItems (items : List Token) (ending : Token) (origin : Origin)
    (language : Language) : Input :=
  { tokens := items.toArray
    endSpelling := ending.text
    endSpan := ending.span
    origin
    language }

variable {items : List Token} {ending : Token} {origin : Origin}
  {language : Language}

theorem tokenAt_ofItems (i : Nat) :
    (ofItems items ending origin language).tokenAt i
      = items[i]?.getD ⟨.eof ending.text, ending.span⟩ := by
  simp [tokenAt, ofItems]

/-- What stands at a place of the input is a token of the text, behind
the items its end. -/
theorem getElem?_tokens (ended : ending.kind = .eof) (i : Nat) :
    (items ++ [ending])[min i items.length]?
      = some ((ofItems items ending origin language).tokenAt i) := by
  rw [tokenAt_ofItems]
  rcases Nat.lt_or_ge i items.length with inside | outside
  · rw [Nat.min_eq_left (Nat.le_of_lt inside),
      List.getElem?_append_left inside, List.getElem?_eq_getElem inside]
    rfl
  · rw [Nat.min_eq_right outside,
      List.getElem?_append_right (Nat.le_refl _), Nat.sub_self,
      List.getElem?_eq_none outside]
    obtain ⟨lexeme, span⟩ := ending
    have ended : lexeme.kind = .eof := ended
    cases lexeme with
    | eof spelling => rfl
    | _ => simp [Lexeme.kind] at ended

theorem tokenAt_mem (ended : ending.kind = .eof) (i : Nat) :
    (ofItems items ending origin language).tokenAt i
      ∈ items ++ [ending] :=
  List.mem_of_getElem? (getElem?_tokens ended i)

/-- Where no item is an end, the end stands behind them all. -/
theorem length_le_of_eof (items_go_on : ∀ t ∈ items, t.kind ≠ .eof) {i : Nat}
    (ended : ((ofItems items ending origin language).tokenAt i).kind
      = .eof) : items.length ≤ i := by
  by_contra inside
  rw [Nat.not_le] at inside
  rw [tokenAt_ofItems, List.getElem?_eq_getElem inside] at ended
  exact items_go_on _ (List.getElem_mem inside) ended

theorem tokenAt_ofItems_of_getElem? (ended : ending.kind = .eof) {i : Nat}
    {t : Token} (h : (items ++ [ending])[i]? = some t) :
    (ofItems items ending origin language).tokenAt i = t := by
  have place : i < (items ++ [ending]).length :=
    (List.getElem?_eq_some_iff.1 h).1
  have le : i ≤ items.length := by
    rw [List.length_append] at place
    exact Nat.le_of_lt_succ place
  have here : (items ++ [ending])[min i items.length]?
      = some ((ofItems items ending origin language).tokenAt i) :=
    getElem?_tokens ended i
  rw [Nat.min_eq_left le, h] at here
  exact (Option.some.inj here).symm

/-- The tokens of a text start one behind the other, and its end behind
them all. -/
theorem start_lt_start {filename text : String}
    (scans : Lexer.tokenize language text filename
      = .ok (items ++ [ending])) (ended : ending.kind = .eof) {i j : Nat}
    (inside : i < items.length) (lt : i < j) :
    ((ofItems items ending origin language).tokenAt i).span.start
      < ((ofItems items ending origin language).tokenAt j).span.start := by
  have place : ∀ k, ((items ++ [ending])[min k items.length]?).map Token.span
      = some ((ofItems items ending origin language).tokenAt k).span :=
    fun k => by rw [getElem?_tokens ended]; rfl
  refine (Lexer.start_lt_iff (Lexer.pairwise_tokenize scans) (place i)
    (place j)).2 ?_
  omega

theorem ofTokens?_items (ended : ending.kind = .eof) :
    ofTokens? (items ++ [ending]) origin language
      = some (ofItems items ending origin language) := by
  obtain ⟨lexeme, span⟩ := ending
  have ended : lexeme.kind = .eof := ended
  cases lexeme with
  | eof spelling => simp [ofTokens?, ofItems, Token.text, Lexeme.text]
  | _ => simp [Lexeme.kind] at ended

/-- The tokens of the input, up to its end. -/
def Holds (inp : Input) (items : List Token) : Prop :=
  inp.tokens = items.toArray

variable {inp : Input}

theorem Holds.tokenAt (holds : inp.Holds items) {before after : List Token}
    {t : Token} (h : items = before ++ t :: after) :
    inp.tokenAt before.length = t := by
  rw [Input.tokenAt, holds, h]
  simp

theorem Holds.tokenAt_length (holds : inp.Holds items) :
    (inp.tokenAt items.length).lexeme = .eof inp.endSpelling := by
  rw [Input.tokenAt, holds]
  simp

end Input

-- ========================================================= readings

namespace Reading

variable {α : Type} {p : Parser α} {lang : Language}
  {filename text : String} {r : Registry} {items : List Token}
  {ending : Token}

/-- The input that a text makes, if it scans to items and an end. -/
abbrev inputOf (items : List Token) (ending : Token) (lang : Language)
    (filename text : String) : Input :=
  .ofItems items ending ⟨filename, some text⟩ lang

theorem ofText_eq
    (scans : Lexer.tokenize lang text filename = .ok (items ++ [ending]))
    (ended : ending.kind = .eof) :
    ofText p lang filename text r
      = ofOutcome (p (inputOf items ending lang filename text)
        { registry := r }) := by
  simp only [ofText, scans, Input.ofTokens?_items ended]

theorem outcome_of_reads {j : Nat} {a : α}
    (scans : Lexer.tokenize lang text filename = .ok (items ++ [ending]))
    (ended : ending.kind = .eof)
    (h : Reads (inputOf items ending lang filename text) r p 0 j a) :
    (ofText p lang filename text r).outcome = .ok a := by
  obtain ⟨t, -, run⟩ := h { registry := r } ⟨rfl, rfl⟩
  rw [ofText_eq scans ended, run]
  rfl

theorem fails_of_refuses
    (scans : Lexer.tokenize lang text filename = .ok (items ++ [ending]))
    (ended : ending.kind = .eof)
    (h : Refuses (inputOf items ending lang filename text) r p 0) :
    (ofText p lang filename text r).Fails := by
  obtain ⟨e, t, -, run⟩ := h { registry := r } ⟨rfl, rfl⟩
  rw [ofText_eq scans ended, run]
  exact ⟨_, rfl⟩

end Reading

-- ========================================================= modules

namespace Reading

variable {lang : Language} {filename text : String} {r : Registry}
  {items : List Token} {ending : Token} {ds : List Decl} {t : State}

/-- A module that can be read off the items of a text. -/
theorem readModule_of_ok
    (scans : Lexer.tokenize lang text filename = .ok (items ++ [ending]))
    (ended : ending.kind = .eof)
    (run : moduleItems (inputOf items ending lang filename text)
      { registry := r } = .ok ds t) :
    (readModule lang filename text r).outcome = .ok (Decl.group ds)
      ∧ (readModule lang filename text r).registry = t.registry := by
  unfold readModule
  rw [ofText_eq scans ended, attempt, run]
  exact ⟨rfl, rfl⟩

/-- A module that cannot be read off the items of a text. -/
theorem readModule_of_error {e : Failure}
    (scans : Lexer.tokenize lang text filename = .ok (items ++ [ending]))
    (ended : ending.kind = .eof)
    (run : moduleItems (inputOf items ending lang filename text)
      { registry := r } = .error e t) :
    (readModule lang filename text r).Fails := by
  rw [readModule, fails_grouped, ofText_eq scans ended, attempt, run]
  exact ⟨_, rfl⟩

/-- A text that cannot be lexed is no module, and leaves the registry
alone. -/
theorem readModule_of_flaw {stop : Stop}
    (scans : Lexer.tokenize lang text filename = .error stop) :
    (readModule lang filename text r).outcome = .error stop
      ∧ (readModule lang filename text r).registry = r := by
  rw [readModule, ofText, scans]
  exact ⟨rfl, rfl⟩

/-- A module that fails leaves the registry alone. -/
theorem registry_of_fails (h : (readModule lang filename text r).Fails) :
    (readModule lang filename text r).registry = r :=
  registry_ofText_attempt moduleItems_steady (fails_grouped.1 h)

/-- A module that is read is read off items, and the registry is the one
at their end. -/
theorem items_of_readModule {decls : List Decl}
    (h : (readModule lang filename text r).outcome = .ok decls) :
    ∃ items span ds t,
      Lexer.tokenize lang text filename = .ok (items ++ [⟨.eof "", span⟩])
      ∧ moduleItems (inputOf items ⟨.eof "", span⟩ lang filename text)
          { registry := r } = .ok ds t
      ∧ decls = Decl.group ds
      ∧ (readModule lang filename text r).registry = t.registry := by
  cases scans : Lexer.tokenize lang text filename with
  | error stop =>
      cases h.symm.trans (readModule_of_flaw scans).1
  | ok tokens =>
      obtain ⟨items, span, rfl⟩ := Lexer.tokenize_ends scans
      cases run : moduleItems
          (inputOf items ⟨.eof "", span⟩ lang filename text)
          { registry := r } with
      | ok ds t =>
          obtain ⟨read, registry⟩ := readModule_of_ok scans rfl run
          cases h.symm.trans read
          exact ⟨items, span, ds, t, rfl, run, rfl, registry⟩
      | error e t =>
          obtain ⟨e', fails⟩ := readModule_of_error scans rfl run
          cases h.symm.trans fails
      | defect d t =>
          unfold readModule at h
          rw [outcome_grouped, ofText_eq scans rfl, attempt, run] at h
          cases h

/-- A module that is lexed is read, or its text is to blame. -/
theorem readModule_ok_or_fails {tokens : List Token} (r : Registry)
    (scans : Lexer.tokenize lang text filename = .ok tokens) :
    (∃ decls, (readModule lang filename text r).outcome = .ok decls)
      ∨ (readModule lang filename text r).Fails := by
  obtain ⟨items, span, rfl⟩ := Lexer.tokenize_ends scans
  cases run : Grammar.moduleItems
      (inputOf items ⟨.eof "", span⟩ lang filename text)
      { registry := r } with
  | ok ds t => exact .inl ⟨_, (readModule_of_ok scans rfl run).1⟩
  | error e t => exact .inr (readModule_of_error scans rfl run)
  | defect d t => exact absurd run (Grammar.moduleItems_sound _ d t)

/-- A module is read, or it leaves the registry alone. -/
theorem readModule_ok_or_stops (lang : Language) (filename text : String)
    (r : Registry) :
    (∃ decls, (readModule lang filename text r).outcome = .ok decls)
      ∨ ∃ stop, (readModule lang filename text r).outcome = .error stop
        ∧ (readModule lang filename text r).registry = r := by
  cases scans : Lexer.tokenize lang text filename with
  | error stop => exact .inr ⟨stop, readModule_of_flaw scans⟩
  | ok tokens =>
      refine (readModule_ok_or_fails r scans).imp_right fun fails => ?_
      have kept := registry_of_fails fails
      obtain ⟨e, stopped⟩ := fails
      exact ⟨.failure e, stopped, kept⟩

end Reading

-- ====================================================== expressions

namespace Grammar

variable {inp : Input} {r : Registry} {i j : Nat} {t : Term}

/-- An expression reads what its operators over operands do. -/
theorem reads_expr
    (h : Reads inp r (chains (operand expr) r.fixities.levels.reverse)
      i j t) : Reads inp r expr i j t := by
  intro s hs
  rw [expr_eq_exprOver]
  unfold exprOver
  rw [hs.2]
  exact h s hs

theorem refuses_expr
    (h : Refuses inp r (chains (operand expr) r.fixities.levels.reverse) i) :
    Refuses inp r expr i := by
  intro s hs
  rw [expr_eq_exprOver]
  unfold exprOver
  rw [hs.2]
  exact h s hs

theorem reads_wholeExpr (h : Reads inp r expr i j t)
    (ended : (inp.tokenAt j).kind = .eof) :
    Reads inp r wholeExpr i j t :=
  h.bind ((reads_eof ended).bind (reads_pure t))

end Grammar

end DepLang

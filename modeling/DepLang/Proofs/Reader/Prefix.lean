/-
A failure depends on nothing behind it. If a text fails at a token, then
every text with the same tokens up to there and with it fails at it too,
with the same complaint and the same expectations: what comes after the
token can neither make the failure good nor change what is reported.

The readings run alike until the first of them reads the token
(`Parser.Confined`). It never does: after that it could only fail behind
the token, and since what is reported is the furthest failure, it would
not be this one.
-/
import DepLang.Proofs.Parser.Prefix
import DepLang.Proofs.Reader.Furthest

namespace DepLang

open DepLang.Parser

-- ========================================================= grammar

namespace Grammar

variable {inp inp' : Input} {p : Nat} (shares : inp.Shares inp' p)
include shares

theorem atEnd_confined : Confined inp inp' p atEnd atEnd :=
  confined_look shares fun t => t.kind == .eof

theorem wholeExpr_confined :
    Confined inp inp' p wholeExpr wholeExpr := by
  refine (expr_confined shares).bind
    (fun _ => eof_accountable.bind fun _ => accountable_pure _) fun t => ?_
  refine Confined.bind ?_ (fun _ => accountable_pure t)
    fun _ _ _ start => .inl (.ok rfl start)
  refine (atEnd_confined shares).bind (fun ended => ?_) fun ended => ?_
  · cases ended with
    | true => exact accountable_pure ()
    | false => exact accountable_fail _
  · cases ended with
    | true => exact fun _ _ start => .inl (.ok rfl start)
    | false => exact confined_failWith shares none _

theorem item_confined : Confined inp inp' p item item := by
  have inside : Inside expr True false declaration := declaration_inside
  have semicolon : Confined inp inp' p (mark .semicolon)
      (mark .semicolon) := by
    unfold mark expect acceptIf
    exact confined_accept shares
  refine (inside.confined shares (expr_accountable inp)
    (expr_confined shares)).bind (fun _ => ?_) fun d => ?_
  · exact (accountable_mark _).bind fun _ => (accountable_ask _).bind
      fun _ => accountable_pure _
  · refine semicolon.bind (fun _ => ?_) fun _ => ?_
    · exact (accountable_ask _).bind fun _ => accountable_pure _
    · intro s s' start
      refine .inl (.ok ?_ start)
      show d.mapTerms s.registry.supply = d.mapTerms s'.registry.supply
      rw [start.registry]

theorem item?_confined : Confined inp inp' p item? item? := by
  refine (atEnd_confined shares).bind (fun ended => ?_) fun ended => ?_
  · cases ended with
    | true => exact accountable_pure none
    | false => exact item_accountable.bind fun _ => accountable_pure _
  · cases ended with
    | true => exact fun _ _ start => .inl (.ok rfl start)
    | false =>
        exact (item_confined shares).bind (fun _ => accountable_pure _)
          fun _ _ _ start => .inl (.ok rfl start)

theorem moduleItems_confined :
    Confined inp inp' p moduleItems moduleItems := by
  refine (item_confined shares).bind (fun _ => ?_) fun d => ?_
  · exact item?_accountable.loop.bind fun _ => accountable_pure _
  · exact ((item?_confined shares).loop shares item?_accountable).bind
      (fun _ => accountable_pure _) fun _ _ _ start => .inl (.ok rfl start)

end Grammar

-- ========================================================== inputs

namespace Reading

variable {lang : Language} {filename filename' text text' : String}
  {items items' : List Token} {ending ending' : Token} {p : Nat}

/-- Texts with the same tokens up to one share them as inputs. -/
theorem shares_of_take
    (scans : Lexer.tokenize lang text filename = .ok (items ++ [ending]))
    (ended : ending.kind = .eof) (ended' : ending'.kind = .eof)
    (inside : p < (items ++ [ending]).length)
    (agree : (items ++ [ending]).take (p + 1)
      = (items' ++ [ending']).take (p + 1)) :
    (inputOf items ending lang filename text).Shares
      (inputOf items' ending' lang filename' text') p := by
  have inside' : p < (items' ++ [ending']).length := by
    have lengths := congrArg List.length agree
    rw [List.length_take, List.length_take] at lengths
    omega
  refine ⟨rfl, fun i le => ?_, ?_, ?_, fun more i lt => ?_⟩
  · have here : i < (items ++ [ending]).length := by omega
    have same := congrArg (·[i]?) agree
    simp only [List.getElem?_take, Nat.lt_succ_of_le le, if_true] at same
    rw [List.getElem?_eq_getElem here] at same
    rw [Input.tokenAt_ofItems_of_getElem? ended' same.symm]
    exact Input.tokenAt_ofItems_of_getElem? ended
      (List.getElem?_eq_getElem here)
  · simp only [List.length_append, List.length_singleton] at inside
    show p ≤ items.toArray.size
    rw [List.size_toArray]
    omega
  · simp only [List.length_append, List.length_singleton] at inside'
    show p ≤ items'.toArray.size
    rw [List.size_toArray]
    omega
  · have within := lt_size_of_kind more
    have within : p < items.toArray.size := within
    rw [List.size_toArray] at within
    exact Input.start_lt_start scans ended within lt

-- ======================================================== readings

variable {α : Type} {q : Parser α} {r : Registry} {e : Failure}

/-- A reading that fails at a token that the texts share fails alike on
both. -/
theorem echoes_of_shares
    (confined : ∀ {inp inp' : Input} {p : Nat}, inp.Shares inp' p →
      Confined inp inp' p q q)
    (scans : Lexer.tokenize lang text filename = .ok (items ++ [ending]))
    (scans' : Lexer.tokenize lang text' filename'
      = .ok (items' ++ [ending']))
    (ended : ending.kind = .eof) (ended' : ending'.kind = .eof)
    (shares : (inputOf items ending lang filename text).Shares
      (inputOf items' ending' lang filename' text') p)
    (failed : (ofText q lang filename text r).report? = some e)
    (place : e.span
      = ((inputOf items ending lang filename text).tokenAt p).span) :
    ∃ e', (ofText q lang filename' text' r).report? = some e'
      ∧ e.Echoes e' := by
  rw [ofText_eq scans ended] at failed
  rw [ofText_eq scans' ended']
  have start : State.Alongside p { registry := r } { registry := r } :=
    ⟨rfl, Nat.zero_le p, rfl, .none⟩
  have both := confined shares _ _ start
  generalize q (inputOf items ending lang filename text)
    { registry := r } = run at both failed
  generalize q (inputOf items' ending' lang filename' text')
    { registry := r } = run' at both
  cases run with
  | ok a t => cases failed
  | defect d t => cases failed
  | error f t =>
      cases failed
      rcases both with along | ⟨g, member, behind⟩
      · cases along with
        | error failure state =>
            exact ⟨_, rfl, State.report_rel Failure.Echoes.merge
              state.furthest failure⟩
      · -- a failure behind the token would have been reported
        have le := State.start_le_report (e := f) member
        rw [place] at le
        exact absurd behind (Nat.not_lt.2 le)

end Reading

/-- Failures are local. If a text fails at a token, be it as a term or
as a module, then every text that has the same tokens up to and with
that one fails there too, from the same registry, with the same
complaint and the same expectations. -/
theorem readings_fail_alike (lang : Language)
    (filename filename' text text' : String) (r : Registry)
    (tokens tokens' : List Token) (p : Nat) (inside : p < tokens.length)
    (scans : Lexer.tokenize lang text filename = .ok tokens)
    (scans' : Lexer.tokenize lang text' filename' = .ok tokens')
    (agree : tokens.take (p + 1) = tokens'.take (p + 1)) :
    (∀ e, (readTerm lang filename text r).report? = some e →
        e.span = tokens[p].span →
        ∃ e', (readTerm lang filename' text' r).report? = some e'
          ∧ e.Echoes e')
      ∧ ∀ e, (readModule lang filename text r).report? = some e →
        e.span = tokens[p].span →
        ∃ e', (readModule lang filename' text' r).report? = some e'
          ∧ e.Echoes e' := by
  obtain ⟨items, span, rfl⟩ := Lexer.tokenize_ends scans
  obtain ⟨items', span', rfl⟩ := Lexer.tokenize_ends scans'
  have shares : (Reading.inputOf items ⟨.eof "", span⟩ lang filename
      text).Shares
      (Reading.inputOf items' ⟨.eof "", span'⟩ lang filename' text') p :=
    Reading.shares_of_take scans rfl rfl inside agree
  have token : (Reading.inputOf items ⟨.eof "", span⟩ lang filename
      text).tokenAt p = (items ++ [⟨.eof "", span⟩])[p] :=
    Input.tokenAt_ofItems_of_getElem? rfl (List.getElem?_eq_getElem inside)
  constructor
  · intro e failed place
    rw [← token] at place
    exact Reading.echoes_of_shares (fun s => Grammar.wholeExpr_confined s)
      scans scans' rfl rfl shares failed place
  · intro e failed place
    rw [← token] at place
    unfold readModule at failed ⊢
    rw [Reading.report?_grouped] at failed ⊢
    exact Reading.echoes_of_shares
      (fun s => (Grammar.moduleItems_confined s).attempt) scans scans' rfl
      rfl shares failed place

/-- Two names in braces: what follows the second, and whether the braces
are closed, makes no difference. -/
theorem readings_fail_alike_braces :
    let text := "f \x7bx y\x7d = z;"
    let text' := "f \x7bx y = 1; g"
    ∃ e e', (readModule .standard "m" text {}).report? = some e
      ∧ (readModule .standard "n" text' {}).report? = some e'
      ∧ e.Echoes e' ∧ e.span = ⟨5, 6⟩
      ∧ e.expected = ["\"=\"", "\"\x7d\""] := by
  intro text text'
  let common : List Token :=
    [⟨.ident "f", ⟨0, 1⟩⟩, ⟨.ofMark .lbrace, ⟨2, 3⟩⟩, ⟨.ident "x", ⟨3, 4⟩⟩,
      ⟨.ident "y", ⟨5, 6⟩⟩]
  have scans : Lexer.tokenize .standard text "m" = .ok (common ++
      [⟨.ofMark .rbrace, ⟨6, 7⟩⟩, ⟨.operator "=", ⟨8, 9⟩⟩,
        ⟨.ident "z", ⟨10, 11⟩⟩, ⟨.ofMark .semicolon, ⟨11, 12⟩⟩,
        ⟨.eof "", ⟨12, 12⟩⟩]) := by
    decide +kernel
  have scans' : Lexer.tokenize .standard text' "n" = .ok (common ++
      [⟨.operator "=", ⟨7, 8⟩⟩, ⟨.natural 1, ⟨9, 10⟩⟩,
        ⟨.ofMark .semicolon, ⟨10, 11⟩⟩, ⟨.ident "g", ⟨12, 13⟩⟩,
        ⟨.eof "", ⟨13, 13⟩⟩]) := by
    decide +kernel
  have failed : (readModule .standard "m" text {}).report?
      = some ⟨.unexpected (.ident "y"), ⟨5, 6⟩,
        ["\"=\"", "\"\x7d\""], ⟨"m", some text⟩⟩ := by
    decide +kernel
  obtain ⟨e', failed', echoes⟩ := (readings_fail_alike .standard "m" "n"
    text text' {} _ _ 3 (by decide) scans scans' rfl).2 _ failed rfl
  exact ⟨_, e', failed, failed', echoes, rfl, rfl⟩

end DepLang

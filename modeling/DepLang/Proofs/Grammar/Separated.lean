/-
Semicolons separate declarations. A declaration never passes one, so it
ends at the first semicolon behind its start, and of the semicolons of a
module each ends a declaration and each declaration has one. A piece of
the module's front that ends in a semicolon therefore holds as many
declarations as semicolons, and where it ends the rest of the module is
read, under what the declarations of the piece have added to the
registry (`ItemsForm.behind`).

That no semicolon is passed is the fence of `Inside.fenced`, set up in
one input: a run over it runs beside itself, and stays before it.
-/
import DepLang.Proofs.Grammar.DeclForms
import DepLang.Proofs.Grammar.Records
import DepLang.Proofs.Printer.Places

namespace DepLang

open DepLang.Grammar DepLang.Parser

-- ========================================================== lexemes

/-- Is it a semicolon, however it is spelled? -/
def Lexeme.isSemicolon (l : Lexeme) : Bool := l.kind == .mark .semicolon

namespace Grammar

section
variable {inp : Input} {i j k m : Nat} {ls : List Lexeme}

/-- What stands at a place between two others has lexemes before it and
behind it. -/
theorem Stands.around (h : Stands inp i ls m) (from_i : i ≤ k)
    (to_m : k < m) :
    ∃ before after, ls = before ++ (inp.tokenAt k).lexeme :: after
      ∧ Stands inp i before k ∧ Stands inp (k + 1) after m := by
  induction ls generalizing i with
  | nil =>
      obtain rfl : i = m := h
      omega
  | cons l ls ih =>
      obtain ⟨token, rest⟩ := h
      by_cases here : i = k
      · subst here
        exact ⟨[], ls, by rw [token]; rfl, rfl, rest⟩
      · obtain ⟨before, after, rfl, front, back⟩ := ih rest (by omega)
        exact ⟨l :: before, after, rfl, ⟨token, front⟩, back⟩

/-- A lexeme that stands somewhere is that of a token there. -/
theorem Stands.token_of_mem (h : Stands inp i ls m) {l : Lexeme}
    (member : l ∈ ls) :
    ∃ k, i ≤ k ∧ k < m ∧ (inp.tokenAt k).lexeme = l := by
  obtain ⟨n, found⟩ := List.mem_iff_getElem?.1 member
  have inside := (List.getElem?_eq_some_iff.1 found).1
  have stop := h.stop
  exact ⟨i + n, by omega, by omega, h.lexeme found⟩

end

-- ==================================================== declarations

section
variable {inp : Input} {r r' : Registry} {i j k m : Nat} {d : Decl}

/-- A declaration is read up to a semicolon at most. -/
theorem cursor_le_of_declaration {s t : State}
    (run : declaration inp s = .ok d t) (before : s.cursor ≤ m)
    (semicolon : (inp.tokenAt m).kind = .mark .semicolon) :
    t.cursor ≤ m := by
  have fence : inp.Fence inp m := ⟨rfl, fun _ _ => rfl, semicolon⟩
  have inside : Inside expr True false declaration := declaration_inside
  have beside : s.Beside m s := ⟨rfl, before, rfl⟩
  have both := inside.fenced fence expr_steady (expr_fenced fence) s s
    beside (knows_nothing inp s)
  rw [run] at both
  exact both.of_ok.2.le

section
variable (standard : inp.language = .standard) (h : DeclForm inp r i j d r')
  (ended : (inp.tokenAt j).kind = .mark .semicolon)
include standard h ended

/-- The semicolon of a declaration is the first one behind its start. -/
theorem DeclForm.le_semicolon (from_i : i ≤ m)
    (semicolon : (inp.tokenAt m).kind = .mark .semicolon) : j ≤ m := by
  obtain ⟨t, ⟨rfl, -⟩, run⟩ :=
    h.leads standard ended { cursor := i, registry := r } ⟨rfl, rfl⟩
  exact cursor_le_of_declaration run from_i semicolon

/-- There is none in the declaration itself. -/
theorem DeclForm.countP_semicolon {ls : List Lexeme}
    (stands : Stands inp i ls j) : ls.countP Lexeme.isSemicolon = 0 := by
  refine List.countP_eq_zero.2 fun l member found => ?_
  obtain ⟨k, from_i, to_j, rfl⟩ := stands.token_of_mem member
  have le := h.le_semicolon standard ended from_i (beq_iff_eq.1 found)
  omega

/-- A declaration with its semicolon adds to the registry what it
says. -/
theorem DeclForm.grows :
    r.Grows r' (d.mapTerms r'.supply).entries
      (d.mapTerms r'.supply).types := by
  obtain ⟨t, ⟨-, rfl⟩, run⟩ :=
    h.leads_item standard ended { cursor := i, registry := r } ⟨rfl, rfl⟩
  exact item_records inp _ _ t run

end

/-- A declaration that was read counts for one. -/
theorem DeclForm.length_split (h : DeclForm inp r i j d r')
    (f : Term → Term) : (d.mapTerms f).split.length = 1 := by
  cases h <;> rfl

-- ========================================================= modules

/-- Behind a piece of a module that ends in a semicolon, if anywhere, the
module goes on as one. The piece holds a declaration for each of its
semicolons, and the registry has grown by what these say. -/
theorem ItemsForm.behind (standard : inp.language = .standard)
    {ds : List Decl} (h : ItemsForm inp r i j ds r') {ls : List Lexeme}
    (stands : Stands inp i ls m) (inside : m ≤ j)
    (ended : ∀ l ∈ ls.getLast?, l.isSemicolon = true) :
    ∃ front back r₁, ds = front ++ back
      ∧ (Decl.ungroup front).length = ls.countP Lexeme.isSemicolon
      ∧ r.Grows r₁ (front.flatMap Decl.entries) (front.flatMap Decl.types)
      ∧ ItemsForm inp r₁ m j back r' := by
  induction h generalizing ls with
  | @nil r i last =>
      obtain rfl : ls = [] := by
        have stop := stands.stop
        exact List.length_eq_zero_iff.1 (by omega)
      obtain rfl : i = m := stands
      exact ⟨[], [], r, rfl, rfl, .of_eq rfl, .nil last⟩
  | @cons r r' r'' i j k d ds first semicolon more ih =>
      rcases List.eq_nil_or_concat' ls with rfl | ⟨init, last, rfl⟩
      · obtain rfl : i = m := stands
        exact ⟨[], _, r, rfl, rfl, .of_eq rfl,
          .cons first semicolon more⟩
      · -- the declaration ends within the piece
        obtain ⟨n, start, token, stop⟩ := stands_append.1 stands
        have closes : last.isSemicolon = true := ended last (by simp)
        rw [← token] at closes
        have le := first.le_semicolon standard semicolon start.le
          (beq_iff_eq.1 closes)
        have stop : n + 1 = m := stop
        obtain ⟨before, after, split, own, rest⟩ :=
          stands.around first.le (k := k) (by omega)
        have ended' : ∀ l ∈ after.getLast?, l.isSemicolon = true := by
          intro l hl
          apply ended
          rw [split, List.getLast?_append, List.getLast?_cons,
            Option.mem_def.1 hl]
          rfl
        obtain ⟨front, back, r₁, rfl, count, grown, goes⟩ :=
          ih rest inside ended'
        have here : (inp.tokenAt k).lexeme.isSemicolon = true :=
          beq_iff_eq.2 semicolon
        refine ⟨d.mapTerms r'.supply :: front, back, r₁, rfl, ?_, ?_, goes⟩
        · have none := first.countP_semicolon standard semicolon own
          show ((d.mapTerms r'.supply).split
            ++ Decl.ungroup front).length = _
          rw [List.length_append, first.length_split, count, split,
            List.countP_append, none, List.countP_cons_of_pos here]
          omega
        · exact (first.grows standard semicolon).trans grown

end

end Grammar

end DepLang

/-
A module that fails leaves no trace in the registry. However deep in the
grammar the failure happens, and whatever the declarations before it
overwrote, the attempt around the whole module goes back to the registry
that the reading started from: its fixities, its implicit arguments
entry by entry and in their order, and its journal.

That the restores on the way do not go further back than that is what
`Alike.steady` says of every parser of the grammar.
-/
import DepLang.Proofs.Grammar.AlikeDecl
import DepLang.Proofs.Grammar.Nesting
import DepLang.Reader

namespace DepLang

open DepLang.Parser

/-- The reading stopped with a failure, for which the text is to
blame. -/
def Reading.Fails {α : Type} (reading : Reading α) : Prop :=
  ∃ e, reading.outcome = .error (.failure e)

instance {α : Type} (reading : Reading α) : Decidable reading.Fails :=
  match h : reading.outcome with
  | .ok _ => isFalse fun ⟨_, he⟩ => by cases h.symm.trans he
  | .error (.defect _) => isFalse fun ⟨_, he⟩ => by cases h.symm.trans he
  | .error (.failure e) => isTrue ⟨e, h⟩

/-- What the reading reports, if it stopped with a failure. -/
def Reading.report? {α : Type} (reading : Reading α) : Option Failure :=
  match reading.outcome with
  | .error (.failure e) => some e
  | _ => none

/-- Grouping clauses looks at what was read only. -/
theorem Reading.outcome_grouped (filename : String)
    (reading : Reading (List Decl)) :
    (reading.grouped filename).outcome
      = reading.outcome.map Decl.group :=
  rfl

/-- Grouping clauses makes no difference to whether there are any. -/
theorem Reading.fails_grouped {filename : String}
    {reading : Reading (List Decl)} :
    (reading.grouped filename).Fails ↔ reading.Fails := by
  unfold Fails
  rw [outcome_grouped]
  cases reading.outcome with
  | ok decls => simp [Except.map]
  | error stop => simp [Except.map]

/-- Grouping clauses does not change what is reported. -/
theorem Reading.report?_grouped {filename : String}
    {reading : Reading (List Decl)} :
    (reading.grouped filename).report? = reading.report? := by
  unfold report?
  rw [outcome_grouped]
  cases reading.outcome <;> rfl

/-- A failed attempt at a whole text leaves the registry alone. -/
theorem Reading.registry_ofText_attempt {α : Type} {p : Parser α}
    (hp : Steady p) {lang : Language} {filename text : String}
    {r : Registry}
    (h : (ofText (attempt p) lang filename text r).Fails) :
    (ofText (attempt p) lang filename text r).registry = r := by
  obtain ⟨e, h⟩ := h
  unfold ofText at h ⊢
  generalize Lexer.tokenize lang text filename = scanned at h ⊢
  cases scanned with
  | error e => rfl
  | ok tokens =>
      simp only at h ⊢
      generalize Input.ofTokens? tokens ⟨filename, some text⟩ lang = input
        at h ⊢
      cases input with
      | none => rfl
      | some inp =>
          simp only at h ⊢
          cases run : attempt p inp { registry := r } with
          | ok a t =>
              rw [run] at h
              cases h
          | error e t => exact (attempt_error hp run).2
          | defect d t =>
              rw [run] at h
              cases h

/-- Whatever holds step by step, and still holds once a failed run has
been taken back, holds of every run of a module. -/
theorem Grammar.moduleItems_respects {Q : State → State → Prop}
    (lasting : Lasting Q) : Respects Q moduleItems := by
  have alike : Alike True expr expr false true
      (.list (.upTo True Decl.erase)) moduleItems moduleItems :=
    moduleItems_alike
  have nested := expr_respects lasting
  exact (alike.respects lasting nested nested).1

/-- Every run of a module ends in a state that follows its start. -/
theorem Grammar.moduleItems_steady : Steady moduleItems :=
  moduleItems_respects lasting_follows

/-- A module that fails, at any token or before the first, leaves the
registry exactly as it was. -/
theorem readModule_registry_of_fails (lang : Language)
    (filename text : String) (r : Registry)
    (h : (readModule lang filename text r).Fails) :
    (readModule lang filename text r).registry = r := by
  refine Reading.registry_ofText_attempt Grammar.moduleItems_steady ?_
  obtain ⟨e, h⟩ := h
  refine ⟨e, ?_⟩
  unfold readModule Reading.grouped at h
  generalize Reading.ofText (attempt Grammar.moduleItems) lang filename
    text r = reading at h ⊢
  cases found : reading.outcome with
  | ok decls =>
      rw [found] at h
      cases h
  | error stop =>
      rw [found] at h
      cases h
      rfl

/-- A module that overwrites an entry and declares an operator before
it fails. -/
theorem readModule_registry_overwritten :
    let r : Registry :=
      { fixities := [⟨⟨.left, 6⟩, "+"⟩]
        implicits := [(.ofText "f", [.ofText "a"])]
        journal := [⟨.ofText "f", none⟩] }
    let text := "infixr 3 *; f : \x7bb : Set\x7d -> Set; g : ;"
    (readModule .standard "m" text r).Fails
      ∧ (readModule .standard "m" text r).registry = r := by
  have fails :
      (readModule .standard "m"
        "infixr 3 *; f : \x7bb : Set\x7d -> Set; g : ;"
        { fixities := [⟨⟨.left, 6⟩, "+"⟩]
          implicits := [(.ofText "f", [.ofText "a"])]
          journal := [⟨.ofText "f", none⟩] }).Fails := by
    decide +kernel
  exact ⟨fails, readModule_registry_of_fails _ _ _ _ fails⟩

end DepLang

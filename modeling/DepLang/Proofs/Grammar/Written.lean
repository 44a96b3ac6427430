/-
The terms that can be written, and what elaboration makes of them. A
written term is one that an expression can be read to (`written_forms`),
or a function type with another of the machine's binders, as the types
of constructors are, or an application completed with arguments that the
text does not give. Binding names in front of it and supplying holes to
it leave it a written term, and its outline is canonical once it is
settled and names arguments by words. So what is printed of an elaborated
term is what would be printed of one that was read.

That arguments are named by words is no condition on what a module
declares: what is bound in front of a written type are words, by the user
or because only a word starts with a lowercase letter. Only a registry
that was not made by reading can hold other names.
-/
import DepLang.Proofs.Implicit.Stable

namespace DepLang

open Grammar

namespace Term

/-- The terms that can be written, under a fixity table. -/
inductive Written (table : FixityTable) : Term → Prop
  | word {text : String} {σ : Option Span} (name : IsIdentifier text) :
      Written table (.ref (.ofText text) σ)
  | operator {text : String} {σ : Option Span}
      (name : IsFreeOperator text) : Written table (.ref (.ofText text) σ)
  | hole {σ : Option Span} : Written table (.hole σ)
  | set {σ : Option Span} : Written table (.set σ)
  | quote {t : Term} {σ : Option Span} (inner : Written table t) :
      Written table (.quote t σ)
  | lam {text : String} {t b : Term} {σ : Option Span}
      (name : IsIdentifier text) (domain : Written table t)
      (inner : Written table b) : Written table (.lam (.ofText text) t b σ)
  | pi {p : Plicity} {text : String} {t b : Term} {σ : Option Span}
      (name : IsIdentifier text) (domain : Written table t)
      (inner : Written table b) :
      Written table (.pi p (.ofText text) t b σ)
  | arrow {index : Nat} {tag : String} {t b : Term} {σ : Option Span}
      (domain : Written table t) (inner : Written table b) :
      Written table (.pi .explicit (.machine index tag) t b σ)
  | joined {symbol : String} {named : List (Name × Term)} {x y : Term}
      {head σ : Option Span}
      (known : symbol = "=" ∨ ∃ e ∈ table, e.symbol = symbol)
      (values : ∀ a ∈ named, Written table a.2)
      (left : Written table x) (right : Written table y) :
      Written table (.app (.ref (.ofText symbol) head) named [x, y] σ)
  | app {fn : Term} {named : List (Name × Term)} {args : List Term}
      {σ : Option Span} (some_arg : args ≠ []) (head : Written table fn)
      (values : ∀ a ∈ named, Written table a.2)
      (each : ∀ a ∈ args, Written table a) :
      Written table (.app fn named args σ)

theorem written_forms (table : FixityTable) :
    Forms table (Written table) where
  word := .word
  operator := .operator
  hole := .hole
  set := .set
  quote := .quote
  lam := .lam
  pi := .pi
  arrow := .arrow
  joined known := .joined known (by simp)
  app some_arg head named :=
    .app some_arg head fun a ha => (named a ha).2

variable {table : FixityTable} {t : Term}

/-- Only words and operators are written, no names of the machine's. -/
theorem Written.refersToUser (h : t.Written table) : t.RefersToUser := by
  have name (text : String) (σ : Option Span) :
      (ref (.ofText text) σ).RefersToUser := by
    simp [RefersToUser, subterms, Name.ofText]
  unfold RefersToUser at *
  induction h with
  | word | operator => exact name _ _
  | hole | set => simp [subterms]
  | quote _ inner =>
      simp only [subterms, List.forall_mem_cons]
      exact ⟨by simp, inner⟩
  | lam _ _ _ domain inner | pi _ _ _ domain inner
  | arrow _ _ domain inner =>
      simp only [subterms, List.forall_mem_cons, List.forall_mem_append]
      exact ⟨by simp, domain, inner⟩
  | joined _ _ _ _ values left right =>
      simp only [subterms, subtermsNamed_eq_flatMap, subtermsAll,
        List.forall_mem_cons, List.forall_mem_append,
        List.forall_mem_flatMap]
      exact ⟨by simp, ⟨by simp [Name.ofText], values⟩, left, right,
        by simp⟩
  | app _ _ _ _ head values each =>
      simp only [subterms, subtermsNamed_eq_flatMap,
        subtermsAll_eq_flatMap, List.forall_mem_cons,
        List.forall_mem_append, List.forall_mem_flatMap]
      exact ⟨by simp, ⟨head, values⟩, each⟩

/-- What is referred to is a target or equality. -/
theorem Written.mem_occurrences (free : ∀ e ∈ table, IsFreeOperator e.symbol)
    {x : Name} (h : t.Written table) (occurs : x ∈ t.occurrences) :
    IsTarget x ∨ x = .ofText "=" := by
  induction h with
  | word name =>
      cases List.mem_singleton.1 occurs
      exact .inl ⟨_, rfl, .inl name⟩
  | operator name =>
      cases List.mem_singleton.1 occurs
      exact .inl ⟨_, rfl, .inr name⟩
  | hole | set => cases occurs
  | quote _ inner => exact inner occurs
  | lam _ _ _ domain inner | pi _ _ _ domain inner
  | arrow _ _ domain inner =>
      rw [occurrences, List.mem_append, List.mem_filter] at occurs
      exact occurs.elim domain fun h => inner h.1
  | joined known _ _ _ values left right =>
      simp only [occurrences, mem_occurrencesNamed, occurrencesAll,
        List.mem_append, List.mem_singleton, List.not_mem_nil, or_false]
        at occurs
      rcases occurs with (rfl | ⟨a, ha, h⟩) | h | h
      · rcases known with rfl | ⟨e, member, rfl⟩
        · exact .inr rfl
        · exact .inl ⟨_, rfl, .inr (free e member)⟩
      · exact values a ha h
      · exact left h
      · exact right h
  | app _ _ _ _ head values each =>
      simp only [occurrences, List.mem_append, mem_occurrencesNamed,
        mem_occurrencesAll] at occurs
      rcases occurs with (h | ⟨a, ha, h⟩) | ⟨a, ha, h⟩
      · exact head h
      · exact values a ha h
      · exact each a ha h

theorem Written.bindImplicits {names : List Name}
    (words : ∀ x ∈ names, IsWord x) (h : t.Written table) :
    (t.bindImplicits names).Written table := by
  unfold Term.bindImplicits
  induction names with
  | nil => exact h
  | cons x names ih =>
      rw [List.forall_mem_cons] at words
      obtain ⟨⟨text, rfl, word⟩, others⟩ := words
      exact .pi word .hole (ih others)

-- ====================================================== conditions

/-- Is the term a reference to equality? -/
def isEquality : Term → Bool
  | .ref x _ => x == .ofText "="
  | _ => false

/-- The arguments that an application names are named by words, and
equality has none. -/
def NamesWords : Term → Prop
  | .app fn named _ _ =>
    (∀ a ∈ named, IsWord a.1) ∧ (fn.isEquality → named = [])
  | _ => True

/-- All names that the term gives to arguments can be written. -/
def Legible (t : Term) : Prop := ∀ u ∈ t.subterms, u.NamesWords

instance : DecidablePred IsWord
  | .user [text] =>
    decidable_of_iff (IsIdentifier text)
      ⟨fun h => ⟨text, rfl, h⟩, fun ⟨_, same, h⟩ => by cases same; exact h⟩
  | .user [] | .user (_ :: _ :: _) | .machine _ _ =>
    isFalse fun ⟨_, same, _⟩ => by cases same

instance : DecidablePred NamesWords
  | .app _ _ _ _ => inferInstanceAs (Decidable (_ ∧ (_ → _)))
  | .ref _ _ | .hole _ | .set _ | .quote _ _ | .hidden _ _
  | .lam _ _ _ _ | .pi _ _ _ _ _ => isTrue trivial

instance : DecidablePred Legible :=
  fun t => inferInstanceAs (Decidable (∀ u ∈ t.subterms, _))

-- ======================================================== outlines

mutual

/-- The parts of an outline are the outlines of the parts. -/
theorem subterms_outline (t : Term) :
    t.outline.subterms = t.subterms.map outline := by
  cases t with
  | ref | hole | set => rfl
  | quote t | hidden t =>
      rw [subterms, List.map_cons, outline, subterms, subterms_outline t]
  | app fn xs ts =>
      simp only [subterms, outline, List.map_cons, List.map_append,
        subterms_outline fn, subtermsNamed_outline xs,
        subtermsAll_outline ts]
  | lam x t b | pi p x t b =>
      simp only [subterms, outline, List.map_cons, List.map_append,
        subterms_outline t, subterms_outline b]

/-- The same of positional arguments. -/
theorem subtermsAll_outline (ts : List Term) :
    subtermsAll (outlineAll ts) = (subtermsAll ts).map outline := by
  cases ts with
  | nil => rfl
  | cons t ts =>
      simp only [subtermsAll, outlineAll, List.map_append,
        subterms_outline t, subtermsAll_outline ts]

/-- The same of named arguments. -/
theorem subtermsNamed_outline (ts : List (Name × Term)) :
    subtermsNamed (outlineNamed ts) = (subtermsNamed ts).map outline := by
  match ts with
  | [] => rfl
  | (x, t) :: ts =>
      simp only [subtermsNamed, outlineNamed, List.map_append,
        subterms_outline t, subtermsNamed_outline ts]

end

/-- A term is settled as its outline is. -/
theorem Settled.outline (h : t.Settled table) :
    t.outline.Settled table := by
  intro u hu
  rw [subterms_outline] at hu
  obtain ⟨v, hv, rfl⟩ := List.mem_map.1 hu
  obtain ⟨declared, apart⟩ := h v hv
  cases v with
  | app fn xs ts =>
      rw [Term.outline]
      refine ⟨fun op shown => declared op ?_, ?_⟩
      · rwa [infixOperator?_outline] at shown
      · exact fun loose => apart (precedence_outline fn ▸ loose)
  | _ => exact ⟨trivial, trivial⟩

theorem reprints_outline_app {fn : Term} {named : List (Name × Term)}
    {args : List Term} {σ : Option Span} (some_arg : args ≠ [])
    (head : fn.outline.Reprints table) (words : ∀ a ∈ named, IsWord a.1)
    (values : ∀ a ∈ named, a.2.outline.Reprints table)
    (each : ∀ a ∈ args, a.outline.Reprints table) :
    (app fn named args σ).outline.Reprints table := by
  rw [outline, outlineNamed_eq_map, outlineAll_eq_map]
  exact reprints_app (by simpa using some_arg) head
    (List.forall_mem_map.2 fun a ha => ⟨words a ha, values a ha⟩)
    (List.forall_mem_map.2 each)

/-- The outline of a written term can be canonical. -/
theorem Written.reprints (free : ∀ e ∈ table, IsFreeOperator e.symbol)
    (h : t.Written table) (legible : t.Legible) :
    t.outline.Reprints table := by
  have forms := reprints_forms table
  unfold Legible at legible
  induction h with
  | word name => exact forms.word name
  | operator name => exact forms.operator name
  | hole => exact forms.hole
  | set => exact forms.set
  | quote _ inner =>
      simp only [subterms, List.forall_mem_cons] at legible
      exact forms.quote (inner legible.2)
  | lam name _ _ domain inner =>
      simp only [subterms, List.forall_mem_cons, List.forall_mem_append]
        at legible
      exact forms.lam name (domain legible.2.1) (inner legible.2.2)
  | @pi p _ _ _ _ name _ _ domain inner =>
      simp only [subterms, List.forall_mem_cons, List.forall_mem_append]
        at legible
      have same (x : String) : outlineBinder p (.ofText x) = .ofText x := by
        cases p <;> rfl
      rw [outline, same]
      exact forms.pi name (domain legible.2.1) (inner legible.2.2)
  | arrow _ _ domain inner =>
      simp only [subterms, List.forall_mem_cons, List.forall_mem_append]
        at legible
      exact forms.arrow (domain legible.2.1) (inner legible.2.2)
  | @joined symbol named x y head σ known _ _ _ values left right =>
      simp only [subterms, subtermsNamed_eq_flatMap, subtermsAll,
        List.forall_mem_cons, List.forall_mem_append,
        List.forall_mem_flatMap] at legible
      obtain ⟨⟨words, equality⟩, ⟨-, inNamed⟩, inLeft, inRight, -⟩ :=
        legible
      cases named with
      | nil => exact forms.joined known (left inLeft) (right inRight)
      | cons a others =>
          -- completed, the operator is prefixed
          have operator : IsFreeOperator symbol := by
            rcases known with rfl | ⟨e, member, rfl⟩
            · cases equality rfl
            · exact free e member
          refine reprints_outline_app (by simp) (forms.operator operator)
            words (fun b hb => values b hb (inNamed b hb)) ?_
          simpa using ⟨left inLeft, right inRight⟩
  | app some_arg _ _ _ head values each =>
      simp only [subterms, subtermsNamed_eq_flatMap, subtermsAll_eq_flatMap,
        List.forall_mem_cons, List.forall_mem_append,
        List.forall_mem_flatMap] at legible
      obtain ⟨⟨words, -⟩, ⟨inHead, inNamed⟩, inArgs⟩ := legible
      exact reprints_outline_app some_arg (head inHead) words
        (fun a ha => values a ha (inNamed a ha))
        fun a ha => each a ha (inArgs a ha)

/-- The outline of a settled written term is canonical. -/
theorem Written.canonical (free : ∀ e ∈ table, IsFreeOperator e.symbol)
    (h : t.Written table) (legible : t.Legible)
    (settled : t.Settled table) : t.outline.Canonical table :=
  h.reprints free legible settled.outline

end Term

-- ====================================================== completing

namespace Term

variable {table : FixityTable} {r : Registry} {t : Term}

theorem written_completeFor {x : Name} {given : List (Name × Term)}
    (h : ∀ a ∈ given, a.2.Written table) :
    ∀ a ∈ r.completeFor x given, a.2.Written table := by
  intro a ha
  rcases r.of_mem_completeFor ha with there | ⟨-, hole⟩
  · exact h a there
  · exact hole ▸ .hole

theorem written_supplyNamed {bound : List Name}
    {given : List (Name × Term)}
    (h : ∀ a ∈ given, (r.supplyUnder bound a.2).Written table) :
    ∀ a ∈ r.supplyNamed bound given, a.2.Written table := by
  rw [Registry.supplyNamed_eq_map]
  exact List.forall_mem_map.2 h

/-- A completed written term is a written term. -/
theorem Written.supplyUnder (h : t.Written table) :
    ∀ bound, (r.supplyUnder bound t).Written table := by
  induction h with
  | word name => intro; rw [Registry.supplyUnder]; exact .word name
  | operator name => intro; rw [Registry.supplyUnder]; exact .operator name
  | hole => intro; rw [Registry.supplyUnder]; exact .hole
  | set => intro; rw [Registry.supplyUnder]; exact .set
  | quote _ inner =>
      intro bound
      rw [Registry.supplyUnder]
      exact .quote (inner bound)
  | lam name _ _ domain inner =>
      intro bound
      rw [Registry.supplyUnder]
      exact .lam name (domain bound) (inner _)
  | pi name _ _ domain inner =>
      intro bound
      rw [Registry.supplyUnder]
      exact .pi name (domain bound) (inner _)
  | arrow _ _ domain inner =>
      intro bound
      rw [Registry.supplyUnder]
      exact .arrow (domain bound) (inner _)
  | @joined symbol named x y head σ known _ _ _ values left right =>
      intro bound
      have given := written_supplyNamed fun a ha => values a ha bound
      simp only [Registry.supplyUnder, Registry.supplyAll]
      split
      · exact .joined known (written_completeFor given) (left bound)
          (right bound)
      · exact .joined known given (left bound) (right bound)
  | @app fn named args σ some_arg written _ _ head values each =>
      intro bound
      have given := written_supplyNamed fun a ha => values a ha bound
      have positional : ∀ a ∈ r.supplyAll bound args, a.Written table := by
        rw [Registry.supplyAll_eq_map]
        exact List.forall_mem_map.2 fun t ht => each t ht bound
      have some_arg : r.supplyAll bound args ≠ [] := by
        rw [Registry.supplyAll_eq_map]
        simpa using some_arg
      simp only [Registry.supplyUnder]
      split
      · exact .app some_arg written (written_completeFor given) positional
      · exact .app some_arg (head bound) given positional

end Term

-- =========================================================== targets

/-- An operator is no implicit argument. -/
theorem isImplicitable_of_lone {text : String}
    (h : Lexer.Lone text (.operator text)) :
    (Name.ofText text).isImplicitable = false := by
  have small : ∀ c ∈ Language.standard.operatorLetters.toList,
      Text.isLowercase c = false :=
    Lexer.forall_of_all (by decide)
  obtain ⟨-, letters, -⟩ := h.operator
  unfold Name.isImplicitable Name.ofText
  cases chars : text.toList with
  | nil => simp [chars]
  | cons c cs =>
      rw [chars] at letters
      have letter := letters c List.mem_cons_self
      simpa [chars] using small c (List.contains_iff_mem.1 letter)

namespace Registry

variable {table : FixityTable} {r : Registry} {t : Term}

/-- The names that are bound in front of a written type are words. -/
theorem isWord_of_mem_newImplicits
    (free : ∀ e ∈ table, IsFreeOperator e.symbol) (h : t.Written table)
    {x : Name} (new : x ∈ r.newImplicits t) : IsWord x := by
  obtain ⟨occurs, starts, -⟩ := r.mem_newImplicits.1 new
  rcases h.mem_occurrences free occurs with ⟨text, rfl, word | op⟩ | rfl
  · exact ⟨text, rfl, word⟩
  · rw [isImplicitable_of_lone op.1] at starts
    cases starts
  · rw [isImplicitable_of_lone (Lexer.lone_of_reserved (by decide))] at starts
    cases starts

/-- A closed written type is a written type. -/
theorem written_generalise
    (free : ∀ e ∈ table, IsFreeOperator e.symbol) (h : t.Written table) :
    (r.generalise t).1.Written table :=
  h.bindImplicits fun _ => isWord_of_mem_newImplicits free h

end Registry

end DepLang

/-
Agreement of values that were read from two texts. Where spans count,
values agree if they are equal; where they do not, if they are equal
once the spans are forgotten. The two readings are one relation with a
switch, `Agree exact`, so that what is proved of rules holds of both.

Whatever makes a term from terms respects agreement, chains included,
which keep what their operators keep (`joinChain_rel`), and so does the
elaboration of implicit arguments, which looks at names only: the free
names of a type, its leading binders and the completion of its
applications are the same with and without spans.
-/
import Mathlib.Data.List.Forall2
import DepLang.Decl
import DepLang.Grammar.Operators
import DepLang.Implicit.Generalise
import DepLang.Implicit.Supply

namespace DepLang

/-- Equality up to what `forget` drops, or equality if `exact`. -/
def Agree (exact : Prop) {α β : Type} (forget : α → β) (a a' : α) :
    Prop :=
  forget a = forget a' ∧ (exact → a = a')

theorem Agree.refl {exact : Prop} {α β : Type} {forget : α → β}
    (a : α) : Agree exact forget a a :=
  ⟨rfl, fun _ => rfl⟩

/-- Where spans count, values that agree are equal. -/
theorem Agree.eq {α β : Type} {forget : α → β} {a a' : α}
    (h : Agree True forget a a') : a = a' :=
  h.2 trivial

-- ======================================================== likeness

/-- A relation in which every value stands to itself. -/
structure Likeness (α : Type) where
  rel : α → α → Prop
  refl : ∀ a, rel a a

namespace Likeness

variable {α β : Type}

instance : CoeFun (Likeness α) fun _ => α → α → Prop := ⟨rel⟩

/-- Being the same value. -/
def same : Likeness α := ⟨Eq, fun _ => rfl⟩

/-- Being the same up to what `forget` drops. -/
def upTo (exact : Prop) (forget : α → β) : Likeness α :=
  ⟨Agree exact forget, .refl⟩

/-- Offsets into texts, which agree only where spans count. -/
def offset (exact : Prop) : Likeness Nat := upTo exact fun _ => ()

/-- Lists of like values, one by one. -/
def list (R : Likeness α) : Likeness (List α) :=
  ⟨List.Forall₂ R, fun _ => List.forall₂_same.2 fun a _ => R.refl a⟩

/-- Like values, or none on both sides. -/
def option (R : Likeness α) : Likeness (Option α) :=
  ⟨Option.Rel R, fun a => by
    cases a with
    | none => exact .none
    | some a => exact .some (R.refl a)⟩

/-- Lists whose members are the same are the same. -/
theorem eq_of_same {xs ys : List α}
    (h : (same : Likeness α).list xs ys) : xs = ys := by
  have members : List.Forall₂ Eq xs ys := h
  rwa [List.forall₂_eq_eq_eq] at members

end Likeness

variable {exact : Prop}

namespace Term

-- ======================================================= terms

/-- A term that agrees with another one. -/
abbrev Agrees (exact : Prop) : Term → Term → Prop := Agree exact erase

/-- Being the same term, up to spans unless they count. -/
abbrev likeness (exact : Prop) : Likeness Term := .upTo exact erase

variable {t u v w : Term} {x : Name} {σ τ : Option Span}

theorem agrees_ref (hσ : exact → σ = τ) :
    Agrees exact (.ref x σ) (.ref x τ) :=
  ⟨rfl, fun h => by rw [hσ h]⟩

theorem agrees_hole (hσ : exact → σ = τ) :
    Agrees exact (.hole σ) (.hole τ) :=
  ⟨rfl, fun h => by rw [hσ h]⟩

theorem agrees_set (hσ : exact → σ = τ) :
    Agrees exact (.set σ) (.set τ) :=
  ⟨rfl, fun h => by rw [hσ h]⟩

theorem agrees_quote (ht : Agrees exact t u) (hσ : exact → σ = τ) :
    Agrees exact (.quote t σ) (.quote u τ) :=
  ⟨by rw [erase, erase, ht.1], fun h => by rw [ht.2 h, hσ h]⟩

theorem agrees_hidden (ht : Agrees exact t u) (hσ : exact → σ = τ) :
    Agrees exact (.hidden t σ) (.hidden u τ) :=
  ⟨by rw [erase, erase, ht.1], fun h => by rw [ht.2 h, hσ h]⟩

theorem agrees_app {xs ys : List (Name × Term)} {ts us : List Term}
    (ht : Agrees exact t u) (hxs : Agree exact eraseNamed xs ys)
    (hts : Agree exact eraseAll ts us) (hσ : exact → σ = τ) :
    Agrees exact (.app t xs ts σ) (.app u ys us τ) :=
  ⟨by rw [erase, erase, ht.1, hxs.1, hts.1],
    fun h => by rw [ht.2 h, hxs.2 h, hts.2 h, hσ h]⟩

theorem agrees_lam (ht : Agrees exact t u) (hv : Agrees exact v w)
    (hσ : exact → σ = τ) :
    Agrees exact (.lam x t v σ) (.lam x u w τ) :=
  ⟨by rw [erase, erase, ht.1, hv.1],
    fun h => by rw [ht.2 h, hv.2 h, hσ h]⟩

theorem agrees_pi {p : Plicity} (ht : Agrees exact t u)
    (hv : Agrees exact v w) (hσ : exact → σ = τ) :
    Agrees exact (.pi p x t v σ) (.pi p x u w τ) :=
  ⟨by rw [erase, erase, ht.1, hv.1],
    fun h => by rw [ht.2 h, hv.2 h, hσ h]⟩

theorem agree_all_cons {ts us : List Term} (ht : Agrees exact t u)
    (hts : Agree exact eraseAll ts us) :
    Agree exact eraseAll (t :: ts) (u :: us) :=
  ⟨by rw [eraseAll, eraseAll, ht.1, hts.1],
    fun h => by rw [ht.2 h, hts.2 h]⟩

/-- Lists agree if their members do, one by one. -/
theorem agree_all {ts us : List Term}
    (h : List.Forall₂ (Agrees exact) ts us) :
    Agree exact eraseAll ts us := by
  induction h with
  | nil => exact .refl _
  | cons head _ tail => exact agree_all_cons head tail

theorem eraseAll_eq_map (ts : List Term) :
    eraseAll ts = ts.map erase := by
  induction ts with
  | nil => rfl
  | cons t ts ih => rw [eraseAll, List.map_cons, ih]

/-- A named argument without its spans. -/
def eraseBinding : Name × Term → Name × Term
  | (name, t) => (name, t.erase)

theorem eraseNamed_eq_map (xs : List (Name × Term)) :
    eraseNamed xs = xs.map eraseBinding := by
  induction xs with
  | nil => rfl
  | cons a xs ih => rw [eraseNamed, List.map_cons, ih, eraseBinding]

theorem agree_binding (ht : Agrees exact t u) :
    Agree exact eraseBinding (x, t) (x, u) :=
  ⟨by rw [eraseBinding, eraseBinding, ht.1], fun h => by rw [ht.2 h]⟩

theorem agree_named {xs ys : List (Name × Term)}
    (h : List.Forall₂ (Agree exact eraseBinding) xs ys) :
    Agree exact eraseNamed xs ys := by
  induction h with
  | nil => exact .refl _
  | @cons a b as bs head _ tail =>
      obtain ⟨x, t⟩ := a
      obtain ⟨y, u⟩ := b
      obtain ⟨rfl, ht⟩ : x = y ∧ t.erase = u.erase := by
        simpa [eraseBinding] using head.1
      constructor
      · rw [eraseNamed, eraseNamed, ht, tail.1]
      · intro hx
        rw [head.2 hx, tail.2 hx]

-- =================================================== built terms

theorem joinSpans_agree (ht : Agrees exact t u)
    (hv : Agrees exact v w) :
    exact → joinSpans t v = joinSpans u w := by
  intro h
  rw [ht.2 h, hv.2 h]

end Term

open Term

section
variable {R : Term → Term → Prop} {joins : Operator → Prop}
  (build : ∀ {op : Operator} {t u v w : Term}, joins op → R t u → R v w →
    R (op.build t v) (op.build u w))
  {rest rest' : List (Operator × Term)}
  (each : List.Forall₂ (fun a b => a.1 = b.1 ∧ joins a.1 ∧ R a.2 b.2)
    rest rest')
include build each

/-- What operators keep between terms, operands joined from the left
keep. -/
theorem joinLeft_rel {t u : Term} (h : R t u) :
    R (joinLeft t rest) (joinLeft u rest') := by
  induction each generalizing t u with
  | nil => exact h
  | @cons a b _ _ head _ ih =>
      obtain ⟨op, v⟩ := a
      obtain ⟨op', w⟩ := b
      obtain ⟨rfl, may, same⟩ := head
      exact ih (build may h same)

theorem joinRight_rel {t u : Term} (h : R t u) :
    R (joinRight t rest) (joinRight u rest') := by
  induction each generalizing t u with
  | nil => exact h
  | @cons a b _ _ head _ ih =>
      obtain ⟨op, v⟩ := a
      obtain ⟨op', w⟩ := b
      obtain ⟨rfl, may, same⟩ := head
      exact build may h (ih same)

/-- What operators keep between terms, chains keep. -/
theorem joinChain_rel (assoc : Assoc) {t u : Term} (h : R t u) :
    R (joinChain assoc t rest) (joinChain assoc u rest') := by
  cases assoc with
  | left | neither => exact joinLeft_rel build each h
  | right => exact joinRight_rel build each h

end

/-- What operators keep of their operands, chains keep. -/
theorem joinChain_keeps {P : Term → Prop} {joins : Operator → Prop}
    (build : ∀ {op : Operator} {t u : Term}, joins op → P t → P u →
      P (op.build t u)) (assoc : Assoc)
    {rest : List (Operator × Term)}
    (each : ∀ a ∈ rest, joins a.1 ∧ P a.2) {t : Term} (h : P t) :
    P (joinChain assoc t rest) :=
  joinChain_rel (R := fun t _ => P t) (u := t) build
    (List.forall₂_same.2 fun a ha => ⟨rfl, each a ha⟩) assoc h

/-- An operator makes terms that agree from operands that do. -/
theorem Operator.build_agrees {t u v w : Term} (op : Operator)
    (ht : Agrees exact t u) (hv : Agrees exact v w) :
    Agrees exact (op.build t v) (op.build u w) := by
  have spans := joinSpans_agree ht hv
  unfold Operator.build
  cases op.form with
  | application =>
      exact agrees_app (.refl _) (.refl _)
        (agree_all_cons ht (agree_all_cons hv (.refl _))) spans
  | arrow => exact agrees_pi ht hv spans

/-- An operator with its right operand, without spans. -/
def eraseStep : Operator × Term → Operator × Term
  | (op, t) => (op, t.erase)

/-- Steps of a chain agree if their operators are the same and their
operands agree. -/
theorem agree_step {a b : Operator × Term} :
    Agree exact eraseStep a b ↔ a.1 = b.1 ∧ Agrees exact a.2 b.2 := by
  obtain ⟨op, t⟩ := a
  obtain ⟨op', u⟩ := b
  simp only [Agree, Agrees, eraseStep, Prod.mk.injEq]
  tauto

/-- A chain's operands join to terms that agree. -/
theorem joinChain_agrees {rest rest' : List (Operator × Term)}
    {t u : Term} (assoc : Assoc) (ht : Agrees exact t u)
    (h : List.Forall₂ (Agree exact eraseStep) rest rest') :
    Agrees exact (joinChain assoc t rest) (joinChain assoc u rest') := by
  refine joinChain_rel (R := Agrees exact)
    (fun {op _ _ _ _} (_ : True) => op.build_agrees)
    (h.imp fun {a b} step => ?_) assoc ht
  obtain ⟨op, operand⟩ := agree_step.1 step
  exact ⟨op, trivial, operand⟩

end DepLang

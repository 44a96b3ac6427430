/-
Closing a type. What is bound in front of it are the lowercase names that
it leaves free and that nothing defines, each once, the first to occur
outermost; what is free in the closed type is what was free before, less
these; and a closed type is closed already (`generalise_closes`). All of
it is said of free occurrences, and the search for free names enters by
its order alone.

What closing reports beside the type are the new binders and, of those
that the user wrote at the front, the ones that no new binder has the
name of. So the report is the list of binders at the front of the closed
type exactly if the user bound none of the new names there
(`generalise_names_eq_iff`), and every call site then has one argument
for each of them. A name that is both, as in `{a : a} -> Set`, is bound
twice and reported once (`generalise_names_shadowed`).
-/
import DepLang.Proofs.Implicit.Stable

namespace DepLang

open Term

/-- A name can become an implicit argument if it is the user's and starts
with a lowercase letter. -/
theorem Name.isImplicitable_iff {x : Name} :
    x.isImplicitable = true ↔ ∃ first rest c cs, x = .user (first :: rest)
      ∧ first.toList = c :: cs ∧ Text.isLowercase c = true := by
  cases x with
  | machine index tag => simp [isImplicitable]
  | user segments =>
      cases segments with
      | nil => simp [isImplicitable]
      | cons first rest =>
          unfold isImplicitable
          cases h : first.toList <;> simp [h]

namespace Term

/-- Binding names in front of a type takes them out of its free names,
and leaves the others in their order. -/
theorem freeNames_bindImplicits (names : List Name) (type : Term) :
    (type.bindImplicits names).freeNames
      = type.freeNames.filter (· ∉ names) := by
  rw [freeNames_eq, freeNames_eq, occurrences_bindImplicits,
    filter_eraseDups]

end Term

namespace Registry

variable (r : Registry)

-- ========================================================= closing

/-- The new binders stand in the order in which their names first
occur. -/
theorem pairwise_newImplicits (type : Term) :
    (r.newImplicits type).Pairwise fun x y =>
      type.occurrences.idxOf x < type.occurrences.idxOf y :=
  type.pairwise_freeNames.filter _

theorem generalise_fst (type : Term) :
    (r.generalise type).1 = type.bindImplicits (r.newImplicits type) :=
  rfl

theorem generalise_snd (type : Term) :
    (r.generalise type).2 = r.newImplicits type
      ++ type.leadingImplicits.filter (· ∉ r.newImplicits type) :=
  rfl

/-- Nothing is left to be bound in a closed type. -/
theorem newImplicits_generalise (type : Term) :
    r.newImplicits (r.generalise type).1 = [] := by
  refine List.eq_nil_iff_forall_not_mem.2 fun x new => ?_
  obtain ⟨free, starts, undefined⟩ := r.mem_newImplicits.1 new
  rw [generalise_fst] at free
  obtain ⟨there, unbound⟩ := mem_occurrences_bindImplicits.1 free
  exact unbound (r.mem_newImplicits.2 ⟨there, starts, undefined⟩)

/-- A type without new names is closed as it is. -/
theorem generalise_of_newImplicits_nil {type : Term}
    (h : r.newImplicits type = []) :
    r.generalise type = (type, type.leadingImplicits) := by
  unfold generalise
  rw [h]
  simp [bindImplicits]

/-- Closing a type binds in front of it, without giving them a type, just
the names that occur free in it, are the user's, start with a lowercase
letter and are not defined: each once, in the order in which they first
occur, the first outermost. The free names of the closed type are the
others, in their order. Closing it again binds nothing more. -/
theorem generalise_closes (type : Term) :
    let closed := (r.generalise type).1
    ∃ new : List Name,
      (∀ x, x ∈ new ↔ x ∈ type.occurrences
        ∧ (∃ first rest c cs, x = .user (first :: rest)
          ∧ first.toList = c :: cs ∧ Text.isLowercase c = true)
        ∧ r.implicitsOf? x = none)
      ∧ new.Nodup
      ∧ (new.Pairwise fun x y =>
        type.occurrences.idxOf x < type.occurrences.idxOf y)
      ∧ closed = new.foldr
        (fun x body => .pi .implicit x (.hole none) body type.span) type
      ∧ closed.freeNames = type.freeNames.filter (· ∉ new)
      ∧ r.generalise closed = (closed, closed.leadingImplicits) := by
  intro closed
  have ordered := r.pairwise_newImplicits type
  refine ⟨r.newImplicits type, fun x => ?_, ?_, ordered, rfl, ?_, ?_⟩
  · rw [mem_newImplicits, Name.isImplicitable_iff]
    simp [defines]
  · exact ordered.imp fun lt same => by simp [same] at lt
  · exact freeNames_bindImplicits _ type
  · apply generalise_of_newImplicits_nil
    exact r.newImplicits_generalise type

-- ======================================================= reporting

/-- What is reported are some of the binders at the front of the closed
type, in their order. -/
theorem sublist_generalise (type : Term) :
    (r.generalise type).2.Sublist
      (r.generalise type).1.leadingImplicits := by
  rw [generalise_fst, generalise_snd, leadingImplicits_bindImplicits]
  exact List.Sublist.append_left List.filter_sublist _

/-- All of them are reported if no new name was bound at the front. -/
theorem generalise_names_of_apart {type : Term}
    (apart : ∀ x ∈ type.leadingImplicits, x ∉ r.newImplicits type) :
    (r.generalise type).2 = (r.generalise type).1.leadingImplicits := by
  have all : type.leadingImplicits.filter (· ∉ r.newImplicits type)
      = type.leadingImplicits := by
    refine List.filter_eq_self.2 fun x hx => ?_
    simpa using apart x hx
  rw [generalise_fst, generalise_snd, leadingImplicits_bindImplicits, all]

/-- A new name that was bound at the front is reported less often than it
is bound. -/
theorem apart_of_generalise_names {type : Term}
    (h : (r.generalise type).2 = (r.generalise type).1.leadingImplicits) :
    ∀ x ∈ type.leadingImplicits, x ∉ r.newImplicits type := by
  rw [generalise_fst, generalise_snd, leadingImplicits_bindImplicits] at h
  have all := List.append_cancel_left h
  intro x hx
  simpa using List.filter_eq_self.1 all x hx

/-- The names of completed arguments: those recorded for the definition,
then what else is given. -/
theorem map_fst_completeFor (x : Name) (given : List (Name × Term)) :
    (r.completeFor x given).map Prod.fst = r.implicitsOf x
      ++ (given.map Prod.fst).filter (· ∉ r.implicitsOf x) := by
  unfold completeFor
  cases r.implicitsOf x with
  | nil => simp
  | cons y names => exact map_fst_completeNamed (y :: names) given

/-- What is reported for a type is what is recorded for its name. -/
theorem implicitsOf_declare (target : Name) (type : Term) :
    (r.declare target type).implicitsOf target
      = (r.generalise type).2 := by
  unfold declare implicitsOf
  rw [implicitsOf?_define, if_pos rfl]
  rfl

/-- The names that closing a type reports are binders at the front of the
closed type, in order; they are all of them exactly if no name that
becomes a binder, by being free in the type, had been bound at its front
as well. Then every application of the name declared with the type,
where nothing hides it, is completed to one argument for each of these
binders, in order, and what else it was given. -/
theorem generalise_names_eq_iff (target : Name) (type : Term) :
    let names := (r.generalise type).2
    let binders := (r.generalise type).1.leadingImplicits
    let declared := r.declare target type
    names.Sublist binders
      ∧ (names = binders ↔ ∀ x ∈ type.leadingImplicits,
        x ∈ type.occurrences → x.isImplicitable = true →
          r.defines x = true)
      ∧ (names = binders → ∀ bound named args σ τ, target ∉ bound →
        ∃ given, declared.supplyUnder bound
            (.app (.ref target σ) named args τ)
            = .app (.ref target σ) given (declared.supplyAll bound args) τ
          ∧ given.map Prod.fst
            = binders ++ (named.map Prod.fst).filter (· ∉ binders)) := by
  intro names binders declared
  refine ⟨r.sublist_generalise type, ⟨fun same => ?_, fun apart => ?_⟩,
    fun same bound named args σ τ free => ?_⟩
  · intro x hx occurs starts
    have old := r.apart_of_generalise_names same x hx
    rw [mem_newImplicits] at old
    by_contra undefined
    exact old ⟨occurs, starts, Bool.not_eq_true _ ▸ undefined⟩
  · apply generalise_names_of_apart
    intro x hx new
    obtain ⟨occurs, starts, undefined⟩ := r.mem_newImplicits.1 new
    rw [apart x hx occurs starts] at undefined
    cases undefined
  · have head : definitionHead? bound (.ref target σ) = some target :=
      if_neg free
    refine ⟨declared.completeFor target (declared.supplyNamed bound named),
      ?_, ?_⟩
    · rw [supplyUnder, head]
    · have reported : declared.implicitsOf target = binders :=
        (r.implicitsOf_declare target type).trans same
      rw [map_fst_completeFor, reported, supplyNamed_eq_map, List.map_map]
      rfl

/-- A type with a binder of the user's and a free name: both are
reported, the new one first, and a call that gives one of them and a third
one is completed to all three. -/
theorem generalise_names_eq_iff_mixed :
    let a := Name.ofText "a"
    let b := Name.ofText "b"
    let f := Name.ofText "f"
    let type : Term := .pi .implicit a (.ref b none) (.ref a none) none
    let call : Term := .app (.ref f none)
      [(.ofText "c", .ref b none), (a, .set none)] [.set none] none
    (generalise {} type).2 = [b, a]
      ∧ [b, a] = (generalise {} type).1.leadingImplicits
      ∧ ∃ given, (Registry.declare {} f type).supplyUnder [b] call
          = .app (.ref f none) given [.set none] none
        ∧ given.map Prod.fst = [b, a, .ofText "c"] := by
  intro a b f type call
  obtain ⟨-, all, called⟩ := generalise_names_eq_iff {} f type
  have names : (generalise {} type).2 = [b, a] := by decide +kernel
  have same := all.2 (by decide +kernel)
  have binders : (generalise {} type).1.leadingImplicits = [b, a] :=
    same.symm.trans names
  obtain ⟨given, completed, listed⟩ :=
    called same [b] _ [.set none] none none (by decide +kernel)
  refine ⟨names, binders.symm, given, completed, ?_⟩
  rw [listed, binders]
  decide +kernel

/-- A binder of the user's under a name that its own type leaves free:
the name is bound twice and reported once, and a call gets one argument
for the two. -/
theorem generalise_names_shadowed :
    let a := Name.ofText "a"
    let f := Name.ofText "f"
    let type : Term := .pi .implicit a (.ref a none) (.set none) none
    (generalise {} type).2 = [a]
      ∧ (generalise {} type).1.leadingImplicits = [a, a]
      ∧ (Registry.declare {} f type).supply
          (.app (.ref f none) [] [.set none] none)
        = .app (.ref f none) [(a, .hole none)] [.set none] none := by
  refine ⟨by decide +kernel, by decide +kernel, rfl⟩

end Registry

end DepLang

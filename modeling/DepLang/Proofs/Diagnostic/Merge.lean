/-
Merged failures. Of two failures the one that got further stays as it
is, and of two at one position the first takes over what only the second
expected. So however failures are merged, and in whatever order, the
result stands where one of them stands, and expects nothing that was not
expected there by one of them (`MergedFrom.speaks`), and nothing twice
if none of them does (`MergedFrom.nodup`).

Failures that are recorded one by one are merged in their order
(`furthest`). Nothing that was expected at the furthest place is missing
from the result (`covers_furthest`). That is not changed by a failure
merged in front of it, if that one is merged from failures that were
met; and this is what a parse reports (`State.covers_report`). Two parses
whose furthest failures are related report related ones, for every
relation that merging keeps (`State.report_rel`).
-/
import DepLang.Parser.Basic
import Mathlib.Data.List.Induction

namespace DepLang

namespace Failure

-- ========================================================= merging

section
variable {e f : Failure}

theorem merge_of_lt (h : e.span.start < f.span.start) :
    e.merge f = f := by
  unfold merge
  rw [if_pos h]

theorem merge_of_gt (h : f.span.start < e.span.start) :
    e.merge f = e := by
  unfold merge
  rw [if_neg (Nat.lt_asymm h), if_pos h]

/-- At one position the expectations are joined. -/
theorem merge_of_eq (h : e.span.start = f.span.start) :
    e.merge f
      = { e with
          expected := e.expected ++ f.expected.filter (· ∉ e.expected) } := by
  unfold merge
  rw [if_neg (Nat.not_lt.2 (Nat.le_of_eq h.symm)),
    if_neg (Nat.not_lt.2 (Nat.le_of_eq h))]

/-- A merged failure is the further one, or stands with the first. -/
theorem span_merge (e f : Failure) :
    (e.merge f).span = f.span ∨ (e.merge f).span = e.span := by
  rcases Nat.lt_trichotomy e.span.start f.span.start with lt | eq | gt
  · exact .inl (by rw [merge_of_lt lt])
  · exact .inr (by rw [merge_of_eq eq])
  · exact .inr (by rw [merge_of_gt gt])

/-- Merging gets as far as the further of the two. -/
theorem start_merge (e f : Failure) :
    (e.merge f).span.start = max e.span.start f.span.start := by
  rcases Nat.lt_trichotomy e.span.start f.span.start with lt | eq | gt
  · rw [merge_of_lt lt, Nat.max_eq_right (Nat.le_of_lt lt)]
  · rw [merge_of_eq eq, ← eq, Nat.max_self]
  · rw [merge_of_gt gt, Nat.max_eq_left (Nat.le_of_lt gt)]

/-- Merging is associative: of the failures that got furthest the first
one stays, and what is expected is listed in the order of the failures. -/
theorem merge_assoc (e f g : Failure) :
    (e.merge f).merge g = e.merge (f.merge g) := by
  have far := start_merge e f
  have far' := start_merge f g
  rcases Nat.lt_trichotomy f.span.start g.span.start with lt | eq | gt
  · rw [merge_of_lt lt]
    rcases Nat.lt_or_ge e.span.start g.span.start with below | above
    · rw [merge_of_lt (by omega), merge_of_lt below]
    · rw [merge_of_gt (e := e) (by omega)]
  · rcases Nat.lt_trichotomy e.span.start f.span.start
      with before | here | behind
    · have before' : e.span.start < (f.merge g).span.start := by omega
      rw [merge_of_lt before, merge_of_lt before']
    · -- all three at one place: expectations are joined from the left
      have first : (e.merge f).span.start = g.span.start := by omega
      have last : e.span.start = (f.merge g).span.start := by omega
      rw [merge_of_eq first, merge_of_eq last, merge_of_eq here,
        merge_of_eq eq]
      simp only [List.filter_append, List.filter_filter, List.append_assoc,
        Failure.mk.injEq, List.append_cancel_left_eq, true_and, and_true]
      refine List.filter_congr fun x _ => ?_
      by_cases old : x ∈ e.expected <;> simp [old]
    · rw [merge_of_gt behind, merge_of_gt (by omega),
        merge_of_gt (by omega)]
  · rw [merge_of_gt gt, merge_of_gt (by omega)]

/-- What a merged failure expects, one of the two expects where it
stands. -/
theorem mem_expected_merge {x : String} :
    x ∈ (e.merge f).expected
      ↔ (x ∈ e.expected ∧ f.span.start ≤ e.span.start)
        ∨ (x ∈ f.expected ∧ e.span.start ≤ f.span.start) := by
  rcases Nat.lt_trichotomy e.span.start f.span.start with lt | eq | gt
  · rw [merge_of_lt lt]
    have : ¬f.span.start ≤ e.span.start := Nat.not_le.2 lt
    have : e.span.start ≤ f.span.start := Nat.le_of_lt lt
    simp [*]
  · rw [merge_of_eq eq]
    simp only [List.mem_append, List.mem_filter, decide_eq_true_eq, eq,
      Nat.le_refl, and_true]
    by_cases old : x ∈ e.expected <;> simp [old]
  · rw [merge_of_gt gt]
    have : ¬e.span.start ≤ f.span.start := Nat.not_le.2 gt
    have : f.span.start ≤ e.span.start := Nat.le_of_lt gt
    simp [*]

theorem nodup_expected_merge (he : e.expected.Nodup)
    (hf : f.expected.Nodup) : (e.merge f).expected.Nodup := by
  rcases Nat.lt_trichotomy e.span.start f.span.start with lt | eq | gt
  · rwa [merge_of_lt lt]
  · rw [merge_of_eq eq]
    refine List.nodup_append.2 ⟨he, hf.filter _, ?_⟩
    rintro x old y new rfl
    exact of_decide_eq_true (List.mem_filter.1 new).2 old
  · rwa [merge_of_gt gt]

end

-- ===================================================== what was met

section
variable {met : List Failure} {e f m : Failure}

/-- A failure that stands where one of those met stands, and expects
only what was expected there. -/
structure SpeaksFor (met : List Failure) (e : Failure) : Prop where
  place : ∃ f ∈ met, f.span = e.span
  expected : ∀ x ∈ e.expected,
    ∃ f ∈ met, f.span.start = e.span.start ∧ x ∈ f.expected

/-- A failure that speaks for those met, stands where the furthest of
them stand, and expects all that was expected there. -/
structure Covers (met : List Failure) (e : Failure) : Prop
    extends SpeaksFor met e where
  furthest : ∀ f ∈ met, f.span.start ≤ e.span.start
  complete : ∀ f ∈ met, f.span.start = e.span.start →
    ∀ x ∈ f.expected, x ∈ e.expected

/-- A failure that speaks for those met, stands where the furthest of
them stand, and expects all that was expected there, each thing once. -/
structure Sums (met : List Failure) (e : Failure) : Prop
    extends Covers met e where
  distinct : e.expected.Nodup

theorem SpeaksFor.of_mem (member : e ∈ met) : SpeaksFor met e where
  place := ⟨e, member, rfl⟩
  expected _ hx := ⟨e, member, rfl, hx⟩

theorem SpeaksFor.mono {more : List Failure} (h : SpeaksFor met e)
    (sub : met ⊆ more) : SpeaksFor more e where
  place := by
    obtain ⟨f, member, same⟩ := h.place
    exact ⟨f, sub member, same⟩
  expected x hx := by
    obtain ⟨f, member, there⟩ := h.expected x hx
    exact ⟨f, sub member, there⟩

theorem SpeaksFor.merge (he : SpeaksFor met e) (hf : SpeaksFor met f) :
    SpeaksFor met (e.merge f) where
  place := by
    rcases span_merge e f with same | same
    · rw [same]
      exact hf.place
    · rw [same]
      exact he.place
  expected x hx := by
    rw [start_merge]
    rcases mem_expected_merge.1 hx with ⟨hx, further⟩ | ⟨hx, further⟩
    · rw [Nat.max_eq_left further]
      exact he.expected x hx
    · rw [Nat.max_eq_right further]
      exact hf.expected x hx

/-- Whatever a failure speaks for, it adds nothing to what covers all
that were met. -/
theorem SpeaksFor.merge_covers (he : SpeaksFor met e) (hm : Covers met m) :
    Covers met (e.merge m) := by
  have behind : e.span.start ≤ m.span.start := by
    obtain ⟨f, member, same⟩ := he.place
    rw [← same]
    exact hm.furthest f member
  have start : (e.merge m).span.start = m.span.start := by
    rw [start_merge, Nat.max_eq_right behind]
  refine ⟨he.merge hm.toSpeaksFor, fun f member => ?_, ?_⟩
  · rw [start]
    exact hm.furthest f member
  · intro f member there x hx
    rw [start] at there
    exact mem_expected_merge.2
      (.inr ⟨hm.complete f member there x hx, behind⟩)

/-- The order of the failures, and whether one was met again, makes no
difference. -/
theorem Covers.congr {met' : List Failure} (h : Covers met e)
    (same : ∀ f, f ∈ met ↔ f ∈ met') : Covers met' e where
  toSpeaksFor := h.toSpeaksFor.mono fun f => (same f).1
  furthest f member := h.furthest f ((same f).2 member)
  complete f member := h.complete f ((same f).2 member)

theorem Sums.congr {met' : List Failure} (h : Sums met e)
    (same : ∀ f, f ∈ met ↔ f ∈ met') : Sums met' e where
  toCovers := h.toCovers.congr same
  distinct := h.distinct

theorem covers_single (f : Failure) : Covers [f] f where
  toSpeaksFor := .of_mem (List.mem_singleton.2 rfl)
  furthest g member := by
    obtain rfl := List.mem_singleton.1 member
    exact Nat.le_refl _
  complete g member _ x hx := by rwa [List.mem_singleton.1 member] at hx

/-- One more failure is taken into account by merging it. -/
theorem Covers.cons (hm : Covers met m) (f : Failure) :
    Covers (f :: met) (m.merge f) := by
  have old : SpeaksFor (f :: met) m :=
    hm.toSpeaksFor.mono (List.subset_cons_self f met)
  refine ⟨old.merge (.of_mem List.mem_cons_self), ?_, ?_⟩
  · intro g member
    rw [start_merge]
    rcases List.mem_cons.1 member with rfl | member
    · exact Nat.le_max_right _ _
    · exact Nat.le_trans (hm.furthest g member) (Nat.le_max_left _ _)
  · intro g member there x hx
    rw [start_merge] at there
    rcases List.mem_cons.1 member with rfl | member
    · have further : m.span.start ≤ g.span.start := by
        rw [there]
        exact Nat.le_max_left _ _
      exact mem_expected_merge.2 (.inr ⟨hx, further⟩)
    · have behind := hm.furthest g member
      have further : f.span.start ≤ m.span.start := by
        have := Nat.le_max_right m.span.start f.span.start
        omega
      have same : g.span.start = m.span.start := by
        rw [there, Nat.max_eq_left further]
      exact mem_expected_merge.2 (.inl ⟨hm.complete g member same x hx,
        further⟩)

theorem Sums.cons (hm : Sums met m) (distinct : f.expected.Nodup) :
    Sums (f :: met) (m.merge f) where
  toCovers := hm.toCovers.cons f
  distinct := nodup_expected_merge hm.distinct distinct

theorem sums_single (distinct : f.expected.Nodup) : Sums [f] f where
  toCovers := covers_single f
  distinct := distinct

/-- What comes of failures that were met by merging, in whatever order
and however often. -/
inductive MergedFrom (met : List Failure) : Failure → Prop
  | one {f : Failure} (member : f ∈ met) : MergedFrom met f
  | merge {e f : Failure} (first : MergedFrom met e)
      (second : MergedFrom met f) : MergedFrom met (e.merge f)

theorem MergedFrom.mono {more : List Failure} (h : MergedFrom met e)
    (sub : met ⊆ more) : MergedFrom more e := by
  induction h with
  | one member => exact .one (sub member)
  | merge _ _ first second => exact .merge first second

theorem MergedFrom.speaks (h : MergedFrom met e) : SpeaksFor met e := by
  induction h with
  | one member => exact .of_mem member
  | merge _ _ first second => exact first.merge second

theorem MergedFrom.nodup (h : MergedFrom met e)
    (distinct : ∀ f ∈ met, f.expected.Nodup) : e.expected.Nodup := by
  induction h with
  | one member => exact distinct _ member
  | merge _ _ first second => exact nodup_expected_merge first second

-- ======================================================== recording

/-- The furthest failure after some were recorded, one by one. -/
def furthest (best : Option Failure) (met : List Failure) :
    Option Failure :=
  met.foldl (fun best e => some (further best e)) best

theorem furthest_append (best : Option Failure)
    (met more : List Failure) :
    furthest best (met ++ more) = furthest (furthest best met) more :=
  List.foldl_append

/-- No failure is recorded without effect: the furthest one covers them
all, and is merged from them. -/
theorem covers_furthest (any : met ≠ []) :
    ∃ m, furthest none met = some m ∧ Covers met m ∧ MergedFrom met m := by
  induction met using List.reverseRecOn with
  | nil => exact absurd rfl any
  | append_singleton met f ih =>
      rw [furthest_append]
      rcases eq_or_ne met [] with rfl | some
      · exact ⟨f, rfl, covers_single f, .one (List.mem_singleton.2 rfl)⟩
      · obtain ⟨m, found, covers, merged⟩ := ih some
        rw [found]
        refine ⟨m.merge f, rfl, (covers.cons f).congr fun g => ?_, ?_⟩
        · rw [List.mem_cons, List.mem_append, List.mem_singleton, or_comm]
        · exact (merged.mono (List.subset_append_left met [f])).merge
            (.one (List.mem_append_right met (List.mem_singleton.2 rfl)))

theorem start_le_further {best : Option Failure} (member : f ∈ best) :
    f.span.start ≤ (further best e).span.start := by
  obtain rfl : best = some f := member
  rw [further, start_merge]
  exact Nat.le_max_left _ _

theorem start_le_further_self (best : Option Failure) (e : Failure) :
    e.span.start ≤ (further best e).span.start := by
  cases best with
  | none => exact Nat.le_refl _
  | some f =>
      rw [further, start_merge]
      exact Nat.le_max_right _ _

/-- What was furthest is only ever passed by what lies as far on. -/
theorem furthest_keeps {best : Option Failure} (member : f ∈ best) :
    ∃ m ∈ furthest best met, f.span.start ≤ m.span.start := by
  induction met generalizing best f with
  | nil => exact ⟨f, member, Nat.le_refl _⟩
  | cons e met ih =>
      have next : further best e ∈ some (further best e) := rfl
      obtain ⟨m, found, le⟩ := ih next
      exact ⟨m, found, Nat.le_trans (start_le_further member) le⟩

/-- The furthest failure lies as far on as all that were recorded. -/
theorem furthest_reaches (best : Option Failure) (member : f ∈ met) :
    ∃ m ∈ furthest best met, f.span.start ≤ m.span.start := by
  induction met generalizing best with
  | nil => cases member
  | cons e met ih =>
      rcases List.mem_cons.1 member with rfl | member
      · have next : further best f ∈ some (further best f) := rfl
        obtain ⟨m, found, le⟩ := furthest_keeps next
        exact ⟨m, found, Nat.le_trans (start_le_further_self best f) le⟩
      · exact ih (some (further best e)) member

end

end Failure

-- ======================================================== reporting

namespace State

variable {s s' : State} {met : List Failure} {e e' : Failure}

/-- What is reported covers all failures that were met, if what failed
at last is merged from them. -/
theorem covers_report (found : s.furthest = Failure.furthest none met)
    (merged : e.MergedFrom met) :
    (s.report e).Covers met ∧ (s.report e).MergedFrom met := by
  obtain ⟨f, member, -⟩ := merged.speaks.place
  obtain ⟨m, last, covers, merged'⟩ :=
    Failure.covers_furthest (List.ne_nil_of_mem member)
  rw [report, found, last]
  exact ⟨merged.speaks.merge_covers covers, merged.merge merged'⟩

/-- What is reported lies no less far on than the furthest failure. -/
theorem start_le_report {f : Failure} (member : f ∈ s.furthest) :
    f.span.start ≤ (s.report e).span.start := by
  have found : s.furthest = some f := member
  rw [report, found]
  show f.span.start ≤ (e.merge f).span.start
  rw [Failure.start_merge]
  exact Nat.le_max_right _ _

/-- Whatever relates furthest failures, and still does when failures are
merged, relates what is reported. -/
theorem report_rel {blame : Failure → Failure → Prop}
    (merge : ∀ {e e' f f'}, blame e e' → blame f f' →
      blame (e.merge f) (e'.merge f'))
    (furthest : Option.Rel blame s.furthest s'.furthest)
    (failed : blame e e') : blame (s.report e) (s'.report e') := by
  unfold report
  generalize s.furthest = best at furthest
  generalize s'.furthest = best' at furthest
  cases furthest with
  | none => exact failed
  | some further => exact merge failed further

/-- Recording related failures keeps them related. -/
theorem record_rel {blame : Failure → Failure → Prop}
    (merge : ∀ {e e' f f'}, blame e e' → blame f f' →
      blame (e.merge f) (e'.merge f'))
    (furthest : Option.Rel blame s.furthest s'.furthest)
    (failed : blame e e') :
    Option.Rel blame (s.record e).furthest (s'.record e').furthest := by
  unfold record
  generalize s.furthest = best at furthest
  generalize s'.furthest = best' at furthest
  cases furthest with
  | none => exact .some failed
  | some further => exact .some (merge further failed)

end State

end DepLang

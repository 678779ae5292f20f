import GlibController.IndexSet.Runs
import Mathlib.Order.Bounds.Basic
import Mathlib.Data.Set.Card

/-!
The representation invariant: the stored array is strictly increasing.

A range initialiser on a set without an array keeps it. On a reused array it
resizes to the length of the range where its siblings resize to zero, so old
elements stay behind the range. `RangeFits` is the condition on the state before
the call under which they do no harm, and `ordered_of_run` the invariant along
every run whose range initialisers meet it.
-/

namespace GlibController

open Lib

namespace Store

open GArray GIndexSet

variable {Arr : Type} [GArray Arr]

/-- A range initialiser leaves the array in order: the set has no array yet, or the
range is empty, or the old elements that stay behind the range are defined and do
not start below its length, or the single undefined element is alone. -/
def RangeFitsSet (set : GIndexSet Arr) (range : GRange) : Prop :=
  set.indices = none ∨ range.length = 0 ∨
    (range.length.toNat ≤ set.members.length ∧
      (range.length ≤ range.location ∨ ∀ x ∈ set.members, range.length ≤ x)) ∨
    (set.members = [] ∧ range.length = 1 ∧ range.length ≤ range.location)

/-- Every range initialiser of the run is applied where it fits. -/
def RangeFits (st : Store Arr) (c : Call) : Prop :=
  ∀ a range set, c = .initWithRange (some a) (some range) → st.sets a = some set →
    RangeFitsSet set range

/-- Words of an interval in front of larger ones. -/
theorem sortedLT_interval_append {lo hi : Guint} {xs : List Guint} (sorted : xs.SortedLT)
    (above : hi ≤ lo ∨ ∀ x ∈ xs, hi ≤ x) : (interval lo hi ++ xs).SortedLT := by
  rcases above with empty | above
  · rwa [interval_eq_nil empty, List.nil_append]
  · rw [List.sortedLT_iff_pairwise, List.pairwise_append]
    refine ⟨(sortedLT_interval lo hi).pairwise, sorted.pairwise, ?_⟩
    intro w hw x hx
    exact lt_of_lt_of_le (mem_interval.mp hw).2 (above x hx)

theorem sortedLT_of_rangeFits {set : GIndexSet Arr} {range : GRange}
    (sorted : set.members.SortedLT) (fits : RangeFitsSet set range) :
    (interval range.location range.length ++ elems (set.resized range)).SortedLT := by
  cases hind : set.indices with
  | none =>
      have hres : elems (set.resized range) = [] := by simp [resized, hind]
      rw [hres, List.append_nil]
      exact sortedLT_interval _ _
  | some arr =>
      have hmem : set.members = elems arr := members_of_stored (stored_of_indices hind)
      have hres : set.resized range = setSize arr range.length := by simp [resized, hind]
      rw [hres]
      rw [RangeFitsSet, hmem] at fits
      rcases fits with h | h | ⟨enough, above⟩ | ⟨-, one, empty⟩
      · rw [hind] at h; cases h
      · rw [h, elems_setSize_zero, List.append_nil]
        exact sortedLT_interval _ _
      · rw [elems_setSize_of_le enough]
        rw [hmem] at sorted
        refine sortedLT_interval_append ?_ (above.imp_right fun h x hx => h x (List.mem_of_mem_take hx))
        exact (sorted.pairwise.sublist (List.take_sublist _ _)).sortedLT
      · have single : (elems (setSize arr range.length)).length = 1 := by
          rw [length_setSize, one]; rfl
        obtain ⟨x, hx⟩ := List.length_eq_one_iff.mp single
        rw [interval_eq_nil empty, List.nil_append, hx]
        exact (List.pairwise_singleton _ _).sortedLT

/-- The stored array of every set is strictly increasing. -/
def AllSorted (st : Store Arr) : Prop :=
  ∀ a set, st.sets a = some set → set.members.SortedLT

theorem allSorted_step {st st' : Store Arr} {c : Call} {p : SetPtr} (inv : AllSorted st)
    (fits : RangeFits st c) (h : st.exec c = .ok (st', p)) : AllSorted st' := by
  refine exec_contents (P := fun content => (content.getD []).SortedLT)
    List.Pairwise.nil.sortedLT inv ?_ h
  intro a set content hset new
  cases new with
  | ref => exact inv a set hset
  | unref => exact inv a set hset
  | init => exact List.Pairwise.nil.sortedLT
  | index x => exact (List.pairwise_singleton _ _).sortedLT
  | range r => exact sortedLT_of_rangeFits (inv a set hset) (fits a r set rfl hset)
  | copy _ hsrc => exact inv _ _ hsrc
  | copySelf => exact List.Pairwise.nil.sortedLT

theorem allSorted_of_run {st : Store Arr} (run : (machine Arr).ReachBy RangeFits st) :
    AllSorted st := by
  apply run.invariant AllSorted
  · rintro _ rfl a set hset
    cases hset
  · rintro _ _ _ inv fits ⟨p, h⟩
    exact allSorted_step inv fits h

end Store

namespace GIndexSet

open GArray

variable {Arr : Type} [GArray Arr]

/-- The indices a set says it contains. -/
def contained (set : GIndexSet Arr) : Set Guint :=
  {i | set.containsIndex i = .ok true}

/-- The representation invariant of a set, and what its observers owe to it. -/
structure Ordered (set : GIndexSet Arr) : Prop where
  sorted : set.members.SortedLT
  count : set.members ≠ [] → set.count.toNat = set.contained.ncard
  first : set.members ≠ [] → ∃ i, set.firstIndex = .ok i ∧ IsLeast set.contained i
  last : set.members ≠ [] → ∃ i, set.lastIndex = .ok i ∧ IsGreatest set.contained i

theorem mem_contained {set : GIndexSet Arr} {i : Guint} : i ∈ set.contained ↔ i ∈ set.members := by
  simp [contained, containsIndex_eq]

/-- A strictly increasing array has as many members as elements. -/
theorem ncard_contained {set : GIndexSet Arr} (sorted : set.members.SortedLT) :
    set.contained.ncard = set.members.length := by
  have hset : set.contained = (set.members.toFinset : Set Guint) := by
    ext i
    simp [mem_contained]
  rw [hset, Set.ncard_coe_finset, List.toFinset_card_of_nodup sorted.nodup]

theorem ordered_of_sorted {set : GIndexSet Arr} (sorted : set.members.SortedLT) :
    set.Ordered where
  sorted := sorted
  count h := by
    have hind : set.indices ≠ none := by
      intro hnone
      exact h (by simp [members, stored, hnone])
    rw [count_eq set hind, ncard_contained sorted]
  first h := by
    refine ⟨_, firstIndex_of_members h, mem_contained.mpr (List.head_mem h), ?_⟩
    intro i hi
    exact sorted.sortedLE.pairwise.rel_head (mem_contained.mp hi)
  last h := by
    refine ⟨_, lastIndex_of_members h, mem_contained.mpr (List.getLast_mem h), ?_⟩
    intro i hi
    exact sorted.sortedLE.pairwise.rel_getLast (mem_contained.mp hi)

/-- Along a run whose range initialisers all fit, every set is in order. -/
theorem ordered_of_run {st : Store Arr} (run : (Store.machine Arr).ReachBy Store.RangeFits st)
    {a : Nat} {set : GIndexSet Arr} (h : st.sets a = some set) : set.Ordered :=
  ordered_of_sorted (Store.allSorted_of_run run a set h)

/-- A range in front of an index that stays behind it: the array is reused in order. -/
theorem ordered_of_run_reused :
    (GIndexSet.mk 1 (some (⟨[0, 5], by decide⟩ : Words))).Ordered := by
  have made : (Store.machine Words).ReachBy Store.RangeFits Store.empty.alloc.1 :=
    .step (a := .alloc) (.start rfl) (by rintro _ _ _ ⟨⟩) ⟨_, rfl⟩
  have filled : (Store.machine Words).ReachBy Store.RangeFits _ :=
    .step (a := .initWithIndex (some 0) 5) made (by rintro _ _ _ ⟨⟩) ⟨_, rfl⟩
  have fits : Store.RangeFitsSet (GIndexSet.mk 1 (some (⟨[5], by decide⟩ : Words))) ⟨0, 1⟩ := by
    refine .inr (.inr (.inl ⟨Nat.le_refl 1, .inr ?_⟩))
    intro x hx
    cases List.mem_singleton.mp hx
    decide
  exact ordered_of_run (a := 0)
    (.step (a := .initWithRange (some 0) (some ⟨0, 1⟩)) filled (by rintro _ _ _ ⟨⟩ ⟨⟩; exact fits)
      ⟨_, rfl⟩)
    rfl

/-- The ranges of a run all end within the guint range. -/
def RangesBounded (Arr : Type) (_ : Store Arr) (c : Store.Call) : Prop :=
  ∀ p range, c = .initWithRange p (some range) →
    range.location.toNat + range.length.toNat ≤ maxUint.toNat

/-- A set that is given the range `0, 1` twice stores the index 0 twice. -/
theorem range_twice_not_ordered :
    ¬ ∀ (st : Store Words) (a : Nat) (set : GIndexSet Words),
      (Store.machine Words).ReachBy (RangesBounded Words) st → st.sets a = some set →
        set.Ordered := by
  intro all
  have bounded : ∀ st : Store Words,
      RangesBounded Words st (.initWithRange (some 0) (some ⟨0, 1⟩)) := by
    rintro _ _ _ ⟨⟩
    decide
  have twice := all _ 0 ⟨1, some ⟨[0, 0], by decide⟩⟩
    (.step (.step (.step (a := .alloc) (.start rfl) (by rintro _ _ ⟨⟩) ⟨_, rfl⟩)
      (bounded _) ⟨_, rfl⟩) (bounded _) ⟨_, rfl⟩) rfl
  exact absurd twice.sorted (by decide)

end GIndexSet

end GlibController

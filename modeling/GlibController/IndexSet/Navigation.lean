import GlibController.IndexSet.Order
import GlibController.Lib.Walk
import Mathlib.Order.Bounds.Basic

/-!
Going from one index of a set to the next with `getIndex`.

One ascending scan serves the four predicates: it answers with the first element that
satisfies the predicate. Three consequences. An element that is `indexNotFound` is
answered like any other, so that the answer does not tell whether there was an element
(`found_iff`). Forwards, the first match is the nearest, and walks visit what they
should (`forward_walks`). Backwards it is the farthest, and `nearest_iff` and
`backward_walk_iff` say on which sets that makes no difference.
-/

namespace GlibController

open Lib

/-- The predicates about the indices below the bound. -/
def GIndexSetPredicate.isBackward : GIndexSetPredicate → Bool
  | .lessThan => true
  | .lessThanOrEqual => true
  | .greaterThanOrEqual => false
  | .greaterThan => false

/-- The index of a set that is nearest to the bound of a predicate. -/
def GIndexSetPredicate.IsNearest (predicate : GIndexSetPredicate) (indices : Set Guint)
    (x : Guint) : Prop :=
  if predicate.isBackward then IsGreatest indices x else IsLeast indices x

namespace GIndexSet

open GArray

variable {Arr : Type} [GArray Arr]

/-! ### Not found -/

/-- The answer is `indexNotFound` exactly when no member satisfies the predicate. -/
def NotFoundMeansNone (set : GIndexSet Arr) (predicate : GIndexSetPredicate) (index_ : Guint) :
    Prop :=
  set.getIndex predicate index_ = .ok indexNotFound ↔
    ∀ x ∈ set.members, ¬ predicate.holds x index_

/-- No member is mistaken for the answer: `indexNotFound` is not a member, or not one
that satisfies the predicate, or an earlier member satisfies it as well. -/
def SentinelUnseen (set : GIndexSet Arr) (predicate : GIndexSetPredicate) (index_ : Guint) : Prop :=
  indexNotFound ∉ set.members ∨ ¬ predicate.holds indexNotFound index_ ∨
    ∃ x ∈ set.members.takeWhile (· ≠ indexNotFound), predicate.holds x index_

/-- The answer is `indexNotFound` when nothing is found, and when it is found. -/
theorem getIndex_notFound_iff {set : GIndexSet Arr} {predicate : GIndexSetPredicate}
    {index_ : Guint} :
    set.getIndex predicate index_ = .ok indexNotFound ↔
      (∀ x ∈ set.members, ¬ predicate.holds x index_) ∨
        set.members.find? (fun x => predicate.holds x index_) = some indexNotFound := by
  rw [getIndex_eq, Except.ok.injEq]
  cases found : set.members.find? fun x => predicate.holds x index_ with
  | none =>
      have none := List.find?_eq_none.mp found
      simpa using none
  | some y =>
      have mem := List.mem_of_find?_eq_some found
      have satisfies := List.find?_some found
      rw [Option.getD_some, Option.some.injEq]
      constructor
      · exact .inr
      · rintro (none | same)
        · exact absurd satisfies (none y mem)
        · exact same

/-- On every set, for every predicate and bound. -/
theorem found_iff (set : GIndexSet Arr) (predicate : GIndexSetPredicate) (index_ : Guint) :
    set.NotFoundMeansNone predicate index_ ↔ set.SentinelUnseen predicate index_ := by
  unfold NotFoundMeansNone SentinelUnseen
  rw [getIndex_notFound_iff, find?_eq_some_iff_takeWhile]
  by_cases member : indexNotFound ∈ set.members
  · by_cases satisfies : predicate.holds indexNotFound index_ = true
    · have some : ¬ ∀ x ∈ set.members, ¬ predicate.holds x index_ = true :=
        fun none => none _ member satisfies
      simp only [some, member, satisfies, true_and, false_or, iff_false, not_true_eq_false,
        not_forall, not_not, exists_prop]
    · simp [satisfies]
  · simp [member]

/-- The set of `indexNotFound` alone answers that it has no index from zero on. -/
theorem sentinel_member_not_found :
    ¬ ∀ (st : Store Words) (a : Nat) (set : GIndexSet Words), (Store.machine Words).Reach st →
      st.sets a = some set → ∀ predicate index_, set.NotFoundMeansNone predicate index_ := by
  intro all
  have reach : (Store.machine Words).Reach
      (Store.empty.alloc.1.write 0 ⟨1, some ⟨[indexNotFound], by decide⟩⟩) :=
    .step (a := .initWithIndex (some 0) indexNotFound)
      (.step (a := .alloc) (.start rfl) trivial ⟨_, rfl⟩) trivial ⟨_, rfl⟩
  have means := all _ 0 _ reach rfl .greaterThanOrEqual 0
  exact absurd (means.mp rfl indexNotFound (by decide)) (by decide)

/-! ### Forwards -/

/-- The walk by a predicate from a start goes through the indices of a list and then
comes to `indexNotFound`. -/
abbrev Walks (set : GIndexSet Arr) (predicate : GIndexSetPredicate) (start : Except Fault Guint)
    (xs : List Guint) : Prop :=
  Visits (set.getIndex predicate) indexNotFound start xs

theorem firstIndex_getD {set : GIndexSet Arr} (h : set.members ≠ []) :
    set.firstIndex = .ok (set.members.head?.getD indexNotFound) := by
  rw [firstIndex_of_members h, List.head?_eq_some_head h, Option.getD_some]

/-- From an element to the one behind it. -/
theorem getIndex_greaterThan {set : GIndexSet Arr} (sorted : set.members.SortedLT)
    {before behind : List Guint} {x : Guint} (split : set.members = before ++ x :: behind) :
    set.getIndex .greaterThan x = .ok (behind.head?.getD indexNotFound) := by
  rw [split] at sorted
  have found : (before ++ x :: behind).find? (fun y => GIndexSetPredicate.greaterThan.holds y x) =
      behind.head? := find?_gt sorted
  rw [getIndex_eq, split, found]

/-- The end of the list is visited from its first element on. -/
theorem walks_suffix {set : GIndexSet Arr} (sorted : set.members.SortedLT)
    (proper : indexNotFound ∉ set.members) {xs : List Guint} (suffix : xs <:+ set.members)
    {start : Except Fault Guint} (init : start = .ok (xs.head?.getD indexNotFound)) :
    set.Walks .greaterThan start xs := by
  apply visits_of_next init
  · rintro before x behind rfl
    obtain ⟨front, whole⟩ := suffix
    rw [← List.append_assoc] at whole
    exact getIndex_greaterThan sorted whole.symm
  · intro mem
    exact proper (suffix.subset mem)

/-- The walk from the first index takes as many steps as the set has members, and the
walk from a bound visits the members from the bound on. -/
theorem forward_walks {set : GIndexSet Arr} (sorted : set.members.SortedLT)
    (nonempty : set.members ≠ []) (proper : indexNotFound ∉ set.members) :
    (set.Walks .greaterThan set.firstIndex set.members ∧
        set.members.length = set.count.toNat) ∧
      ∀ b : Guint, set.Walks .greaterThan (set.getIndex .greaterThanOrEqual b)
        (set.members.filter fun x => b ≤ x) := by
  have initialised : set.indices ≠ none := by
    intro hnone
    exact nonempty (by simp [members, stored, hnone])
  refine ⟨⟨?_, (count_eq set initialised).symm⟩, ?_⟩
  · exact walks_suffix sorted proper List.suffix_rfl (firstIndex_getD nonempty)
  · intro b
    apply walks_suffix sorted proper (filter_ge_isSuffix sorted b)
    rw [getIndex_eq, List.head?_filter]
    rfl

/-- The set of 2, 5 and 9, from the bound 4 on. -/
theorem forward_walks_words :
    let set : GIndexSet Words := ⟨1, some ⟨[2, 5, 9], by decide⟩⟩
    set.Walks .greaterThan set.firstIndex [2, 5, 9] ∧
      set.Walks .greaterThan (set.getIndex .greaterThanOrEqual 4) [5, 9] := by
  intro set
  have all := @forward_walks _ _ set (by decide) (by decide) (by decide)
  exact ⟨all.1.1, all.2 4⟩

/-! ### Backwards -/

/-- The members that satisfy a predicate. -/
def satisfying (set : GIndexSet Arr) (predicate : GIndexSetPredicate) (index_ : Guint) : Set Guint :=
  {x | x ∈ set.members ∧ predicate.holds x index_ = true}

/-- If there is a member that satisfies the predicate, the answer is the nearest. -/
def AnswersNearest (set : GIndexSet Arr) (predicate : GIndexSetPredicate) (index_ : Guint) : Prop :=
  (set.satisfying predicate index_).Nonempty →
    ∃ x, set.getIndex predicate index_ = .ok x ∧
      predicate.IsNearest (set.satisfying predicate index_) x

/-- The answer is the least member that satisfies the predicate. -/
theorem getIndex_isLeast {set : GIndexSet Arr} (sorted : set.members.SortedLT)
    {predicate : GIndexSetPredicate} {index_ : Guint}
    (some : (set.satisfying predicate index_).Nonempty) :
    ∃ x, set.getIndex predicate index_ = .ok x ∧ IsLeast (set.satisfying predicate index_) x := by
  obtain ⟨y, mem, satisfies⟩ := some
  have finds : (set.members.find? fun x => predicate.holds x index_).isSome := by
    rw [List.find?_isSome]
    exact ⟨y, mem, satisfies⟩
  obtain ⟨x, found⟩ := Option.isSome_iff_exists.mp finds
  refine ⟨x, ?_, isLeast_of_find? sorted found⟩
  rw [getIndex_eq, found, Option.getD_some]

/-- The least is also the greatest where there is nothing else. -/
theorem isGreatest_iff_of_isLeast {indices : Set Guint} {x : Guint} (least : IsLeast indices x) :
    IsGreatest indices x ↔ indices.Subsingleton := by
  constructor
  · intro greatest
    exact Set.subsingleton_of_isLUB_le_isGLB least.isGLB greatest.isLUB le_rfl
  · intro alone
    refine ⟨least.1, ?_⟩
    intro y mem
    exact (alone mem least.1).le

/-- Forwards the answer is always the nearest, and backwards where at most one member
satisfies the predicate. -/
theorem nearest_iff {set : GIndexSet Arr} (sorted : set.members.SortedLT)
    (predicate : GIndexSetPredicate) (index_ : Guint) :
    set.AnswersNearest predicate index_ ↔
      (predicate.isBackward → (set.satisfying predicate index_).Subsingleton) := by
  unfold AnswersNearest GIndexSetPredicate.IsNearest
  cases backward : predicate.isBackward with
  | false => simpa using getIndex_isLeast sorted
  | true =>
      rcases (set.satisfying predicate index_).eq_empty_or_nonempty with none | some
      · simp [none]
      · obtain ⟨x, run, least⟩ := getIndex_isLeast sorted some
        simp only [if_true, some, forall_const, run, Except.ok.injEq]
        rw [← isGreatest_iff_of_isLeast least]
        constructor
        · rintro ⟨_, rfl, greatest⟩
          exact greatest
        · intro greatest
          exact ⟨x, rfl, greatest⟩

theorem lastIndex_getD {set : GIndexSet Arr} (h : set.members ≠ []) :
    set.lastIndex = .ok (set.members.reverse.head?.getD indexNotFound) := by
  rw [lastIndex_of_members h, List.head?_reverse, List.getLast?_eq_some_getLast h,
    Option.getD_some]

/-- From any element to the first of those in front of it. -/
theorem getIndex_lessThan {set : GIndexSet Arr} (sorted : set.members.SortedLT)
    {before behind : List Guint} {x : Guint} (split : set.members = before ++ x :: behind) :
    set.getIndex .lessThan x = .ok (before.head?.getD indexNotFound) := by
  rw [split] at sorted
  have found : (before ++ x :: behind).find? (fun y => GIndexSetPredicate.lessThan.holds y x) =
      before.head? := find?_lt sorted
  rw [getIndex_eq, split, found]

theorem exists_three {xs : List Guint} (h : 2 < xs.length) :
    ∃ x y z rest, xs = x :: y :: z :: rest := by
  rcases xs with _ | ⟨x, _ | ⟨y, _ | ⟨z, rest⟩⟩⟩
  · simp at h
  · simp at h
  · simp at h
  · exact ⟨x, y, z, rest, rfl⟩

/-- The walk back from the last index goes to the first index in one step. -/
theorem backward_walk_iff {set : GIndexSet Arr} (sorted : set.members.SortedLT)
    (nonempty : set.members ≠ []) (proper : indexNotFound ∉ set.members) :
    set.Walks .lessThan set.lastIndex set.members.reverse ↔ set.members.length ≤ 2 := by
  have turn : ∀ {before behind : List Guint} {x : Guint},
      set.members.reverse = before ++ x :: behind →
        set.getIndex .lessThan x = .ok (behind.reverse.head?.getD indexNotFound) := by
    intro before behind x split
    have whole : set.members = behind.reverse ++ x :: before.reverse := by
      rw [← List.reverse_reverse set.members, split]
      simp
    exact getIndex_lessThan sorted whole
  constructor
  · intro walks
    by_contra long
    rw [← List.length_reverse, Nat.not_le] at long
    obtain ⟨x, y, z, rest, split⟩ := exists_three long
    have distinct : y ∉ z :: rest := by
      have nodup := List.nodup_reverse.mpr sorted.nodup
      rw [split] at nodup
      exact (List.nodup_cons.mp (List.nodup_cons.mp nodup).2).1
    rw [split] at walks
    have first : walk (set.getIndex .lessThan) set.lastIndex 0 = .ok x :=
      walks.visited 0 (by simp)
    have second : walk (set.getIndex .lessThan) set.lastIndex 1 = .ok y :=
      walks.visited 1 (by simp)
    have back : set.members.reverse = [] ++ x :: y :: z :: rest := split
    rw [walk, first, ok_bind, turn back, List.head?_reverse, List.getLast?_cons_cons,
      List.getLast?_eq_some_getLast (List.cons_ne_nil z rest), Option.getD_some,
      Except.ok.injEq] at second
    exact distinct (second ▸ List.getLast_mem (List.cons_ne_nil z rest))
  · intro short
    apply visits_of_next (lastIndex_getD nonempty)
    · intro before x behind split
      have alone : behind.reverse = behind := by
        have length := congrArg List.length split
        simp only [List.length_reverse, List.length_append, List.length_cons] at length
        rcases behind with _ | ⟨y, _ | ⟨z, rest⟩⟩
        · rfl
        · rfl
        · simp only [List.length_cons] at length
          omega
      rw [turn split, alone]
    · rwa [List.mem_reverse]

/-- Where the answer is the nearest member, and where the walk back visits the members
in decreasing order. -/
theorem backward_iff {set : GIndexSet Arr} (sorted : set.members.SortedLT) :
    (∀ predicate index_, set.AnswersNearest predicate index_ ↔
        (predicate.isBackward → (set.satisfying predicate index_).Subsingleton)) ∧
      (set.members ≠ [] → indexNotFound ∉ set.members →
        (set.Walks .lessThan set.lastIndex set.members.reverse ↔ set.members.length ≤ 2)) :=
  ⟨nearest_iff sorted, backward_walk_iff sorted⟩

/-- The set of 2 and 5, below the bound 4 and back from its last index. -/
theorem backward_iff_words :
    let set : GIndexSet Words := ⟨1, some ⟨[2, 5], by decide⟩⟩
    (set.AnswersNearest .lessThan 4 ↔ (set.satisfying .lessThan 4).Subsingleton) ∧
      set.Walks .lessThan set.lastIndex [5, 2] := by
  intro set
  have all := @backward_iff _ _ set (by decide)
  refine ⟨?_, (all.2 (by decide) (by decide)).mpr (by decide)⟩
  simpa [GIndexSetPredicate.isBackward] using all.1 .lessThan 4

/-- The set of 1 and 2 answers that the index below 3 is 1. -/
theorem less_than_not_nearest :
    ¬ ∀ (st : Store Words) (a : Nat) (set : GIndexSet Words), (Store.machine Words).Reach st →
      st.sets a = some set → set.members.SortedLT → ∀ index_, set.AnswersNearest .lessThan index_ := by
  intro all
  have reach : (Store.machine Words).Reach
      (Store.empty.alloc.1.write 0 ⟨1, some ⟨[1, 2], by decide⟩⟩) :=
    .step (a := .initWithRange (some 0) (some ⟨1, 3⟩))
      (.step (a := .alloc) (.start rfl) trivial ⟨_, rfl⟩) trivial ⟨_, rfl⟩
  have sorted : (GIndexSet.mk 1 (some (⟨[1, 2], by decide⟩ : Words))).members.SortedLT := by decide
  obtain ⟨x, run, greatest⟩ := all _ 0 _ reach rfl sorted 3 ⟨1, by decide, by decide⟩
  cases run
  have above : (2 : Guint) ≤ 1 := greatest.2 ⟨by decide, by decide⟩
  exact absurd above (by decide)

end GIndexSet

end GlibController

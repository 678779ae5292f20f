import GlibController.Lib.Loop
import Mathlib.Data.List.Sort
import Mathlib.Order.Bounds.Basic

/-!
Walks: a start, and then the answer to the answer before, up to a stop.

`Visits` says that a walk goes through a list of things, in order, and then stops.
`visits_of_next` reduces that to one step: from every element to the one behind it,
and from the last to the stop.

The second part is about the search that answers the steps, the first match in a
list. In an increasing list the first match is the least (`isLeast_of_find?`), whichever
side of a bound the search is about. So `find?_gt` finds the next element of the list,
and `find?_lt` its first.
-/

namespace GlibController.Lib

/-! ### Walks -/

section Walks

variable {ε α : Type}

/-- The answers of a walk, one for each number of steps. -/
def walk (next : α → Except ε α) (start : Except ε α) : Nat → Except ε α
  | 0 => start
  | steps + 1 => do next (← walk next start steps)

/-- The walk goes through the list, in order, and then comes to the stop. -/
structure Visits (next : α → Except ε α) (stop : α) (start : Except ε α) (xs : List α) : Prop where
  visited : ∀ steps, ∀ inside : steps < xs.length, walk next start steps = .ok xs[steps]
  proper : stop ∉ xs
  stopped : walk next start xs.length = .ok stop

variable {next : α → Except ε α} {stop : α} {start : Except ε α} {xs : List α}

/-- Every step goes to the element behind, or to the stop. -/
theorem walk_eq (init : start = .ok (xs.head?.getD stop))
    (step : ∀ before x behind, xs = before ++ x :: behind →
      next x = .ok (behind.head?.getD stop))
    {steps : Nat} (inside : steps ≤ xs.length) :
    walk next start steps = .ok (xs[steps]?.getD stop) := by
  induction steps with
  | zero =>
      unfold walk
      rw [init, List.head?_eq_getElem?]
  | succ steps ih =>
      have split : xs = xs.take steps ++ xs[steps] :: xs.drop (steps + 1) := by
        rw [← List.drop_eq_getElem_cons inside, List.take_append_drop]
      unfold walk
      rw [ih (Nat.le_of_succ_le inside), List.getElem?_eq_getElem inside, Option.getD_some, ok_bind,
        step _ _ _ split, List.head?_drop]

theorem visits_of_next (init : start = .ok (xs.head?.getD stop))
    (step : ∀ before x behind, xs = before ++ x :: behind →
      next x = .ok (behind.head?.getD stop))
    (proper : stop ∉ xs) : Visits next stop start xs where
  visited steps inside := by
    rw [walk_eq init step (Nat.le_of_lt inside), List.getElem?_eq_getElem inside, Option.getD_some]
  proper := proper
  stopped := by
    rw [walk_eq init step le_rfl, List.getElem?_eq_none le_rfl, Option.getD_none]

end Walks

/-! ### The first match in a list -/

/-- An element is the first match when it is a match and nothing in front of its first
occurrence is. -/
theorem find?_eq_some_iff_takeWhile {α : Type} [DecidableEq α] {xs : List α} {p : α → Bool}
    {stop : α} :
    xs.find? p = some stop ↔
      stop ∈ xs ∧ p stop = true ∧ ∀ x ∈ xs.takeWhile (· ≠ stop), ¬ p x = true := by
  induction xs with
  | nil => simp
  | cons x xs ih =>
      by_cases here : x = stop
      · subst here
        cases hp : p x with
        | true => simp [hp]
        | false =>
            have absent : ¬ xs.find? p = some x := by
              intro found
              rw [List.find?_some found] at hp
              cases hp
            simp [hp, absent]
      · cases hp : p x with
        | true => simp [hp, here]
        | false => simp [hp, here, Ne.symm here, ih]

section FirstMatch

variable {α : Type} [LinearOrder α] {xs : List α}

theorem isLeast_of_find? (sorted : xs.SortedLT) {p : α → Bool} {x : α}
    (found : xs.find? p = some x) : IsLeast {y | y ∈ xs ∧ p y = true} x := by
  obtain ⟨match_, before, behind, rfl, earlier⟩ := List.find?_eq_some_iff_append.mp found
  refine ⟨⟨List.mem_append_right _ List.mem_cons_self, match_⟩, ?_⟩
  rintro y ⟨mem, matches_⟩
  rcases List.mem_append.mp mem with front | back
  · have fails := earlier y front
    rw [matches_] at fails
    cases fails
  · have tail := (List.pairwise_append.mp sorted.pairwise).2.1
    rcases List.mem_cons.mp back with rfl | back
    · exact le_rfl
    · exact (List.rel_of_pairwise_cons tail back).le

/-- The first element above one of the list is the one behind it. -/
theorem find?_gt {before behind : List α} {x : α} (sorted : (before ++ x :: behind).SortedLT) :
    (before ++ x :: behind).find? (fun y => x < y) = behind.head? := by
  obtain ⟨-, tail, across⟩ := List.pairwise_append.mp sorted.pairwise
  have front : before.find? (fun y => x < y) = none := by
    rw [List.find?_eq_none]
    intro y mem
    simpa using (across y mem x List.mem_cons_self).le
  rw [List.find?_append, front, Option.none_or, List.find?_cons_of_neg (by simp)]
  cases behind with
  | nil => rfl
  | cons y behind =>
      rw [List.find?_cons_of_pos (by simpa using List.rel_of_pairwise_cons tail List.mem_cons_self),
        List.head?_cons]

/-- The first element below one of the list is the first of those in front of it. -/
theorem find?_lt {before behind : List α} {x : α} (sorted : (before ++ x :: behind).SortedLT) :
    (before ++ x :: behind).find? (fun y => y < x) = before.head? := by
  obtain ⟨-, tail, across⟩ := List.pairwise_append.mp sorted.pairwise
  cases before with
  | nil =>
      rw [List.nil_append, List.head?_nil, List.find?_eq_none]
      intro y mem
      rcases List.mem_cons.mp mem with rfl | mem
      · simp
      · simpa using (List.rel_of_pairwise_cons tail mem).le
  | cons y before =>
      have below : y < x := across y List.mem_cons_self x List.mem_cons_self
      rw [List.cons_append, List.find?_cons_of_pos (by simpa using below), List.head?_cons]

/-- The elements from a bound on are the end of the list. -/
theorem filter_ge_isSuffix (sorted : xs.SortedLT) (b : α) :
    xs.filter (fun y => b ≤ y) <:+ xs := by
  have pairwise := sorted.pairwise
  clear sorted
  induction xs with
  | nil => exact List.suffix_rfl
  | cons x xs ih =>
      obtain ⟨above, tail⟩ := List.pairwise_cons.mp pairwise
      by_cases here : b ≤ x
      · have all : (x :: xs).filter (fun y => b ≤ y) = x :: xs := by
          rw [List.filter_eq_self]
          intro y mem
          rcases List.mem_cons.mp mem with rfl | mem
          · simpa using here
          · simpa using here.trans (above y mem).le
        simp only [all, List.suffix_refl]
      · rw [List.filter_cons_of_neg (by simpa using here)]
        exact (ih tail).trans (List.suffix_cons x xs)

end FirstMatch

end GlibController.Lib

import GlibController.Lib.Ledger
import Mathlib.Data.List.Forall2

/-!
Things that lose their references.

`left n x` is what becomes of the thing `x` when `n` of its references are left. For a
`Countdown` it does not matter whether they were dropped at once or a few at a time. So what a
list of things has come to is determined by what it was and by the counts that are left
(`eq_of_allFade`), whatever the order in which the references were dropped.
-/

namespace GlibController.Lib

variable {β : Type}

structure Countdown (count : β → Nat) (left : Nat → β → β) : Prop where
  count_left : ∀ x n, n ≤ count x → count (left n x) = n
  left_count : ∀ x, left (count x) x = x
  left_left : ∀ x m n, m ≤ n → n ≤ count x → left m (left n x) = left m x

/-- A thing, and what became of it. -/
def Fades (count : β → Nat) (left : Nat → β → β) (x y : β) : Prop :=
  ∃ n ≤ count x, y = left n x

/-- Every thing in a list, and what became of it. -/
def AllFade (count : β → Nat) (left : Nat → β → β) (xs ys : List β) : Prop :=
  List.Forall₂ (Fades count left) xs ys

variable {count : β → Nat} {left : Nat → β → β} {x y z : β} {xs ys zs : List β}

theorem Countdown.fades_refl (law : Countdown count left) (x : β) : Fades count left x x :=
  ⟨count x, Nat.le_refl _, (law.left_count x).symm⟩

theorem Countdown.fades_trans (law : Countdown count left) (first : Fades count left x y)
    (second : Fades count left y z) : Fades count left x z := by
  obtain ⟨n, atMost, rfl⟩ := first
  obtain ⟨m, fewer, rfl⟩ := second
  rw [law.count_left x n atMost] at fewer
  exact ⟨m, Nat.le_trans fewer atMost, law.left_left x m n fewer atMost⟩

/-- The references that are left say what became of a thing. -/
theorem Countdown.eq_of_fades (law : Countdown count left) (first : Fades count left x y)
    (second : Fades count left x z) (same : count y = count z) : y = z := by
  obtain ⟨n, atMost, rfl⟩ := first
  obtain ⟨m, atMost', rfl⟩ := second
  rw [law.count_left x n atMost, law.count_left x m atMost'] at same
  rw [same]

namespace Countdown

variable (law : Countdown count left)

include law

theorem allFade_refl (xs : List β) : AllFade count left xs xs :=
  List.forall₂_same.mpr fun x _ => law.fades_refl x

theorem allFade_trans (first : AllFade count left xs ys) (second : AllFade count left ys zs) :
    AllFade count left xs zs := by
  induction first generalizing zs with
  | nil => exact second
  | cons fades _ ih =>
      cases second with
      | cons fades' rest => exact .cons (law.fades_trans fades fades') (ih rest)

/-- One thing has lost references. -/
theorem allFade_set {i : Nat} (here : xs[i]? = some x) (fades : Fades count left x y) :
    AllFade count left xs (xs.set i y) := by
  induction xs generalizing i with
  | nil => cases here
  | cons z xs ih =>
      cases i with
      | zero =>
          cases here
          exact .cons fades (law.allFade_refl xs)
      | succ i => exact .cons (law.fades_refl z) (ih here)

theorem eq_of_allFade (first : AllFade count left xs ys) (second : AllFade count left xs zs)
    (same : countsOf count ys = countsOf count zs) : ys = zs := by
  induction first generalizing zs with
  | nil =>
      cases second
      rfl
  | cons fades _ ih =>
      cases second with
      | cons fades' rest =>
          have head := congrFun same 0
          have tail := ih rest (funext fun i => congrFun same (i + 1))
          rw [tail, law.eq_of_fades fades fades' head]

end Countdown

end GlibController.Lib

import Mathlib.Logic.Function.Basic
import Mathlib.Data.List.Basic

/-!
Counted references and who holds them.

A thing `a` is counted `counts a` times. `plus counts p` has one reference more on
what `p` holds, which is one thing or none, and `minus counts a` one less on `a`.

`Balanced` says that the counts are exactly those of the references `outside` and
of a list of holders. `Balanced.split` looks at one holder by itself: the counts are
those of the `others`, and one for what it holds. `Balanced.join` puts the holder
back, whatever it holds by then. `countsOf` is for things that keep their own count.
-/

namespace GlibController.Lib

variable {α : Type} [DecidableEq α]

/-! ### One reference more or less -/

/-- The counts with one more reference, on what is held. -/
def plus (counts : α → Nat) (held : Option α) : α → Nat :=
  fun a => counts a + if held = some a then 1 else 0

/-- The counts with one reference less. -/
def minus (counts : α → Nat) (a : α) : α → Nat := Function.update counts a (counts a - 1)

variable {counts outside : α → Nat} {a : α}

theorem plus_apply (counts : α → Nat) (held : Option α) (a : α) :
    plus counts held a = counts a + if held = some a then 1 else 0 := rfl

@[simp] theorem plus_none (counts : α → Nat) : plus counts none = counts := by
  funext a
  simp [plus]

@[simp] theorem plus_self (counts : α → Nat) (a : α) : plus counts (some a) a = counts a + 1 := by
  simp [plus]

theorem minus_apply (counts : α → Nat) (a b : α) :
    minus counts a b = counts b - if b = a then 1 else 0 := by
  by_cases same : b = a
  · subst same
    simp [minus]
  · simp [minus, same]

theorem plus_comm (counts : α → Nat) (p q : Option α) :
    plus (plus counts p) q = plus (plus counts q) p :=
  funext fun _ => Nat.add_right_comm _ _ _

theorem update_succ (counts : α → Nat) (a : α) :
    Function.update counts a (counts a + 1) = plus counts (some a) := by
  funext b
  by_cases same : b = a
  · subst same
    simp
  · simp [plus, Function.update_of_ne same, Ne.symm same]

@[simp] theorem minus_plus (counts : α → Nat) (a : α) : minus (plus counts (some a)) a = counts := by
  funext b
  by_cases same : b = a
  · subst same
    simp [minus]
  · simp [minus, plus, Function.update_of_ne same, Ne.symm same]

/-- A reference is given up and taken again. -/
theorem plus_minus (h : 0 < counts a) : plus (minus counts a) (some a) = counts := by
  funext b
  by_cases same : b = a
  · subst same
    simp only [plus_self, minus, Function.update_self]
    omega
  · simp [minus, plus, Function.update_of_ne same, Ne.symm same]

/-- A reference of one's own is given up, whatever else is held. -/
theorem minus_plus_of_pos (held : Option α) (h : 0 < counts a) :
    minus (plus counts held) a = plus (minus counts a) held := by
  funext b
  by_cases same : b = a
  · subst same
    simp only [minus, plus, Function.update_self]
    omega
  · simp only [minus, plus, Function.update_of_ne same]

/-- One reference less, at most. -/
theorem le_minus (counts : α → Nat) (a b : α) :
    counts b ≤ minus counts a b + if a = b then 1 else 0 := by
  by_cases same : a = b
  · subst same
    rw [minus, Function.update_self, if_pos rfl]
    omega
  · rw [minus, Function.update_of_ne (Ne.symm same), if_neg same]
    exact Nat.le_refl _

/-! ### The books -/

/-- Every count is that of the references outside and of the holders. -/
def Balanced (counts outside : α → Nat) (holders : List (Option α)) : Prop :=
  ∀ a, counts a = outside a + holders.count (some a)

/-- The references of everybody but the holder at a position. -/
def others (outside : α → Nat) (holders : List (Option α)) (i : Nat) (a : α) : Nat :=
  outside a + (holders.set i none).count (some a)

/-- What a holder holds counts once. -/
theorem count_set_some {holders : List (Option α)} {i : Nat} (inside : i < holders.length)
    (held : Option α) (a : α) :
    (holders.set i held).count (some a) =
      (holders.set i none).count (some a) + if held = some a then 1 else 0 := by
  rw [List.count_set inside, List.count_set inside]
  simp

namespace Balanced

variable {holders : List (Option α)} {i : Nat}

/-- A holder is taken out of the books. -/
theorem split (balanced : Balanced counts outside holders) {held : Option α}
    (h : holders[i]? = some held) : counts = plus (others outside holders i) held := by
  obtain ⟨inside, rfl⟩ := List.getElem?_eq_some_iff.mp h
  funext a
  have whole := count_set_some inside holders[i] a
  rw [List.set_getElem_self] at whole
  rw [balanced a, whole, plus_apply, others, Nat.add_assoc]

/-- A holder is put back into the books. -/
theorem join {held : Option α} (inside : i < holders.length) :
    Balanced (plus (others outside holders i) held) outside (holders.set i held) := by
  intro a
  rw [count_set_some inside, plus_apply, others, Nat.add_assoc]

theorem pos_of_outside (balanced : Balanced counts outside holders) (h : 0 < outside a) :
    0 < counts a := by
  have here := balanced a
  omega

theorem pos_of_mem (balanced : Balanced counts outside holders) (h : some a ∈ holders) :
    0 < counts a := by
  have here := balanced a
  have once := List.count_pos_iff.mpr h
  omega

/-- The holders are counted by any test that tells who holds the thing. -/
theorem countP_holders {β : Type} {xs : List β} {held : β → Option α} {test : β → Bool}
    (balanced : Balanced counts outside (xs.map held))
    (tells : ∀ x ∈ xs, test x = true ↔ held x = some a) :
    counts a = outside a + xs.countP test := by
  rw [balanced a, List.count_eq_countP, List.countP_map, List.countP_congr fun x mem => ?_]
  simpa using (tells x mem).symm

/-- A new holder of one more reference. -/
theorem enlist (balanced : Balanced counts outside holders) (held : Option α) :
    Balanced (plus counts held) outside (holders ++ [held]) := by
  intro a
  rw [plus_apply, balanced a, List.count_append, List.count_singleton, Nat.add_assoc]
  simp

/-- One more reference outside. -/
theorem borrow (balanced : Balanced counts outside holders) (a : α) :
    Balanced (plus counts (some a)) (plus outside (some a)) holders := by
  intro b
  rw [plus_apply, plus_apply, balanced b, Nat.add_right_comm]

/-- One more reference outside, on what a holder holds. -/
theorem lend (balanced : Balanced counts outside holders) (held : Option α) :
    Balanced (plus counts held) (plus outside held) holders := by
  cases held with
  | none => rwa [plus_none, plus_none]
  | some a => exact balanced.borrow a

/-- One reference outside less. -/
theorem giveBack (balanced : Balanced counts outside holders) (h : 0 < outside a) :
    Balanced (minus counts a) (minus outside a) holders := by
  intro b
  have here := balanced b
  by_cases same : b = a
  · subst same
    simp only [minus, Function.update_self]
    omega
  · simpa [minus, Function.update_of_ne same] using here

end Balanced

/-! ### Things that keep their own count -/

section CountsOf

variable {β : Type} {count : β → Nat} {xs : List β} {i : Nat}

/-- The counts of the things in a list, by position. -/
def countsOf (count : β → Nat) (xs : List β) : Nat → Nat := fun i => ((xs[i]?).map count).getD 0

theorem countsOf_eq {x : β} (hx : xs[i]? = some x) : countsOf count xs i = count x := by
  rw [countsOf, hx]
  rfl

theorem exists_of_countsOf (h : 0 < countsOf count xs i) :
    ∃ x, xs[i]? = some x ∧ count x = countsOf count xs i := by
  rw [countsOf] at *
  cases hx : xs[i]? with
  | none => simp [hx] at h
  | some x => exact ⟨x, rfl, rfl⟩

/-- Changing a thing changes its count. -/
theorem countsOf_set {x : β} (hx : xs[i]? = some x) (y : β) :
    countsOf count (xs.set i y) = Function.update (countsOf count xs) i (count y) := by
  obtain ⟨inside, -⟩ := List.getElem?_eq_some_iff.mp hx
  funext j
  by_cases same : j = i
  · subst same
    simp [countsOf, inside]
  · simp [countsOf, Function.update_of_ne same, List.getElem?_set_ne (Ne.symm same)]

/-- A new thing with its first reference. -/
theorem countsOf_append {y : β} (one : count y = 1) :
    countsOf count (xs ++ [y]) = plus (countsOf count xs) (some xs.length) := by
  funext j
  rcases Nat.lt_trichotomy j xs.length with lt | rfl | gt
  · simp [countsOf, plus, List.getElem?_append_left lt, Nat.ne_of_gt lt]
  · simp [countsOf, one]
  · have beyond : (xs ++ [y])[j]? = none :=
      List.getElem?_eq_none (by rw [List.length_append, List.length_singleton]; omega)
    simp [countsOf, plus, beyond, List.getElem?_eq_none (Nat.le_of_lt gt), Nat.ne_of_lt gt]

end CountsOf

end GlibController.Lib

import GlibController.Lib.Ledger
import Mathlib.Algebra.BigOperators.Group.Finset.Basic
import Mathlib.Algebra.Order.BigOperators.Group.Finset

/-!
Several parties that hold references, and that own things.

Each party `i` holds `held i a` references on the thing `a`, and `total` counts those of all.
What one party takes or gives up, the total gains or loses.

`SoleOwners owns things` says that each thing that is there belongs to one party, and that
what a party owns is there. A party owns at most one thing; `things` are at their addresses.
-/

namespace GlibController.Lib

variable {ι α : Type} [DecidableEq ι] [DecidableEq α]

/-! ### Totals -/

section Totals

variable [Fintype ι] {held : ι → α → Nat} {i : ι}

/-- The references of all parties. -/
def total {ι α : Type} [Fintype ι] (held : ι → α → Nat) (a : α) : Nat := ∑ i, held i a

omit [DecidableEq ι] [DecidableEq α] in
theorem le_total (held : ι → α → Nat) (i : ι) (a : α) : held i a ≤ total held a :=
  Finset.single_le_sum (fun j _ => Nat.zero_le (held j a)) (Finset.mem_univ i)

omit [DecidableEq α] in
/-- One party by itself: the total is what it holds, and what the rest holds. -/
theorem total_update (held : ι → α → Nat) (i : ι) (mine : α → Nat) (a : α) :
    total (Function.update held i mine) a + held i a = total held a + mine a := by
  have rest : ∑ j ∈ Finset.univ.erase i, Function.update held i mine j a =
      ∑ j ∈ Finset.univ.erase i, held j a := by
    refine Finset.sum_congr rfl ?_
    intro j other
    rw [Function.update_of_ne (Finset.ne_of_mem_erase other)]
  have before := Finset.add_sum_erase Finset.univ (fun j => held j a) (Finset.mem_univ i)
  have after := Finset.add_sum_erase Finset.univ (fun j => Function.update held i mine j a)
    (Finset.mem_univ i)
  simp only [Function.update_self] at before after
  rw [total, total, ← before, ← after, rest]
  omega

theorem total_plus (held : ι → α → Nat) (i : ι) (p : Option α) :
    total (Function.update held i (plus (held i) p)) = plus (total held) p := by
  funext a
  have both := total_update held i (plus (held i) p) a
  rw [plus_apply] at both ⊢
  omega

theorem total_minus {a : α} (holds : 0 < held i a) :
    total (Function.update held i (minus (held i) a)) = minus (total held) a := by
  funext b
  have both := total_update held i (minus (held i) a) b
  by_cases same : b = a
  · subst same
    simp only [minus, Function.update_self] at both ⊢
    omega
  · simp only [minus, Function.update_of_ne same] at both ⊢
    omega

end Totals

/-! ### Owners -/

/-- Each thing belongs to one party, and nothing else does. -/
structure SoleOwners {ι α β : Type} (owns : ι → Option α) (things : α → Option β) : Prop where
  there : ∀ {i a}, owns i = some a → ∃ x, things a = some x
  owner : ∀ {a x}, things a = some x → ∃ i, owns i = some a
  alone : ∀ {i j a}, owns i = some a → owns j = some a → i = j

namespace SoleOwners

variable {β : Type} {owns : ι → Option α} {things : α → Option β} {i : ι} {a : α}

omit [DecidableEq ι] [DecidableEq α] in
/-- Nobody owns anything, and nothing is there. -/
theorem nobody : SoleOwners (fun _ : ι => (none : Option α)) fun _ => (none : Option β) where
  there := by rintro _ _ ⟨⟩
  owner := by rintro _ _ ⟨⟩
  alone := by rintro _ _ _ ⟨⟩

/-- A party takes a thing that was not there. -/
theorem take (sole : SoleOwners owns things) (free : owns i = none) (absent : things a = none)
    (x : β) : SoleOwners (Function.update owns i (some a)) (Function.update things a (some x)) := by
  have before : ∀ {j b}, Function.update owns i (some a) j = some b →
      (j = i ∧ b = a) ∨ (j ≠ i ∧ b ≠ a ∧ owns j = some b) := by
    intro j b own
    by_cases same : j = i
    · subst same
      rw [Function.update_self, Option.some.injEq] at own
      exact .inl ⟨rfl, own.symm⟩
    · rw [Function.update_of_ne same] at own
      refine .inr ⟨same, ?_, own⟩
      rintro rfl
      obtain ⟨y, hy⟩ := sole.there own
      rw [absent] at hy
      cases hy
  refine ⟨?_, ?_, ?_⟩
  · intro j b own
    rcases before own with ⟨rfl, rfl⟩ | ⟨-, other, own⟩
    · exact ⟨x, Function.update_self ..⟩
    · rw [Function.update_of_ne other]
      exact sole.there own
  · intro b y hy
    by_cases same : b = a
    · subst same
      exact ⟨i, Function.update_self ..⟩
    · rw [Function.update_of_ne same] at hy
      obtain ⟨j, own⟩ := sole.owner hy
      have other : j ≠ i := by
        rintro rfl
        rw [free] at own
        cases own
      exact ⟨j, by rw [Function.update_of_ne other, own]⟩
  · intro j k b own own'
    rcases before own with ⟨rfl, rfl⟩ | ⟨-, other, own⟩
    · rcases before own' with ⟨rfl, -⟩ | ⟨-, other', -⟩
      · rfl
      · exact absurd rfl other'
    · rcases before own' with ⟨-, rfl⟩ | ⟨-, -, own'⟩
      · exact absurd rfl other
      · exact sole.alone own own'

/-- A party gives up what it owns, which is gone. -/
theorem drop (sole : SoleOwners owns things) (own : owns i = some a) :
    SoleOwners (Function.update owns i none) (Function.update things a none) := by
  have before : ∀ {j b}, Function.update owns i none j = some b → b ≠ a ∧ owns j = some b := by
    intro j b own'
    by_cases same : j = i
    · subst same
      rw [Function.update_self] at own'
      cases own'
    · rw [Function.update_of_ne same] at own'
      refine ⟨?_, own'⟩
      rintro rfl
      exact same (sole.alone own' own)
  refine ⟨?_, ?_, ?_⟩
  · intro j b own'
    obtain ⟨other, own'⟩ := before own'
    rw [Function.update_of_ne other]
    exact sole.there own'
  · intro b y hy
    by_cases same : b = a
    · subst same
      rw [Function.update_self] at hy
      cases hy
    · rw [Function.update_of_ne same] at hy
      obtain ⟨j, own'⟩ := sole.owner hy
      have other : j ≠ i := by
        rintro rfl
        exact same (Option.some.inj (own'.symm.trans own))
      exact ⟨j, by rw [Function.update_of_ne other, own']⟩
  · intro j k b own' own''
    exact sole.alone (before own').2 (before own'').2

omit [DecidableEq ι] [DecidableEq α] in
/-- Nothing is there when nobody owns anything. -/
theorem eq_none (sole : SoleOwners owns things) (nobody : ∀ i, owns i = none) :
    things = fun _ => none := by
  funext a
  rw [Option.eq_none_iff_forall_ne_some]
  intro x hx
  obtain ⟨i, own⟩ := sole.owner hx
  rw [nobody i] at own
  cases own

end SoleOwners

end GlibController.Lib

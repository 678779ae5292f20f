import GlibController.Lib.Ledger
import Mathlib.Logic.Relation
import Mathlib.Order.WellFounded

/-!
Reference counting and reachability.

`holds b a` says that `b` has a pointer to `a` that is counted, and `root a` that somebody
outside holds a reference on `a`. Counts that are balanced keep alive what is a root or is held
by something alive (`Sustained`). Without cycles that is what can be reached from the roots,
which `Sustained.alive_iff` says: nothing in reach is freed, and nothing else is left.
-/

namespace GlibController.Lib

variable {α : Type}

/-- What can be reached from the roots. -/
def Reached (root : α → Prop) (holds : α → α → Prop) (a : α) : Prop :=
  ∃ r, root r ∧ Relation.ReflTransGen holds r a

/-- A thing is alive exactly if it is a root, or something alive holds it. -/
def Sustained (alive root : α → Prop) (holds : α → α → Prop) : Prop :=
  ∀ a, alive a ↔ root a ∨ ∃ b, alive b ∧ holds b a

namespace Sustained

variable {alive root : α → Prop} {holds : α → α → Prop} {a : α}

theorem alive_of_reached (sustained : Sustained alive root holds) (reached : Reached root holds a) :
    alive a := by
  obtain ⟨r, isRoot, path⟩ := reached
  induction path with
  | refl => exact (sustained r).mpr (.inl isRoot)
  | tail _ last ih => exact (sustained _).mpr (.inr ⟨_, ih, last⟩)

/-- The holders of a thing come before it, so that they are in reach by induction. -/
theorem reached_of_alive (sustained : Sustained alive root holds) (acyclic : WellFounded holds)
    (living : alive a) : Reached root holds a := by
  induction a using acyclic.induction with
  | _ a ih =>
      rcases (sustained a).mp living with isRoot | ⟨b, living', last⟩
      · exact ⟨a, isRoot, .refl⟩
      · obtain ⟨r, isRoot, path⟩ := ih b last living'
        exact ⟨r, isRoot, path.tail last⟩

theorem alive_iff (sustained : Sustained alive root holds) (acyclic : WellFounded holds) :
    alive a ↔ Reached root holds a :=
  ⟨sustained.reached_of_alive acyclic, sustained.alive_of_reached⟩

end Sustained

/-- Balanced counts, and which of them are not zero. -/
theorem Balanced.pos_iff [DecidableEq α] {counts outside : α → Nat} {holders : List (Option α)}
    (balanced : Balanced counts outside holders) (a : α) :
    0 < counts a ↔ 0 < outside a ∨ some a ∈ holders := by
  rw [balanced a, ← List.count_pos_iff]
  omega

end GlibController.Lib

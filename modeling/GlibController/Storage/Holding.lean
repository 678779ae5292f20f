import GlibController.Storage.Controller

/-!
What the functions of a storage controller do to the storage it holds.

Of every storage there are the references of the `others`, and one of the
controller on the one it holds: `o.env = plus others (kind.at o.priv.storage)`. Each
function starts from such counts and ends in such counts. Where the class
initialiser put the `dispose` function (`Wiring`) decides which slot releases.
-/

namespace GlibController

open Lib StorageController

namespace StorageController

def disposeMarks (o : StorageController) : List Mark :=
  .dispose :: (if o.priv.storage.isSome then [.release] else []) ++ [.parentDispose]

/-- A controller after the `dispose` function of its class. -/
def disposed (o : StorageController) (env : RefCounts Storage) : StorageController where
  refCount := o.refCount
  priv := ⟨none⟩
  marks := o.marks ++ disposeMarks o
  env := env

theorem dispose_eq (kind : StorageKind) (o : StorageController) :
    dispose kind GController.slots o =
      o.env.unrefPtr (kind.at o.priv.storage) >>= fun env => .ok (disposed o env) := by
  cases o with
  | mk object env =>
      cases object with
      | mk refCount priv marks =>
          obtain ⟨storage⟩ := priv
          cases storage with
          | none => simp [dispose, releaseStorage, RefCounts.unrefPtr, disposed, disposeMarks,
              GController.slots, defineType, objectClass, Instance.mark]
          | some addr =>
              cases hunref : env.unref ⟨kind, addr⟩ with
              | error e => simp [dispose, releaseStorage, RefCounts.unrefPtr, Instance.mark, hunref]
              | ok env' => simp [dispose, releaseStorage, RefCounts.unrefPtr, disposed, disposeMarks,
                  GController.slots, defineType, objectClass, Instance.mark, hunref]

end StorageController

/-- Where the class initialiser of a kind puts the `dispose` function. -/
inductive Wiring where
  | inDispose
  | inFinalize
  deriving DecidableEq, Repr

def StorageKind.wiring : StorageKind → Wiring
  | .array => .inDispose
  | .ptrArray => .inFinalize
  | .hash => .inDispose

namespace StorageKind

theorem dispose_inDispose {kind : StorageKind} (h : kind.wiring = .inDispose)
    (o : StorageController) :
    kind.slots.dispose o =
      o.env.unrefPtr (kind.at o.priv.storage) >>= fun env => .ok (disposed o env) := by
  cases kind with
  | array => exact dispose_eq .array o
  | ptrArray => cases h
  | hash => exact dispose_eq .hash o

theorem finalize_inDispose {kind : StorageKind} (h : kind.wiring = .inDispose)
    (o : StorageController) :
    kind.slots.finalize o = .ok (o.mark (.parentFinalize o.refCount)) := by
  cases kind with
  | array => rfl
  | ptrArray => cases h
  | hash => rfl

theorem dispose_inFinalize {kind : StorageKind} (h : kind.wiring = .inFinalize)
    (o : StorageController) : kind.slots.dispose o = .ok (o.mark .parentDispose) := by
  cases kind with
  | ptrArray => rfl
  | array => cases h
  | hash => cases h

theorem finalize_inFinalize {kind : StorageKind} (h : kind.wiring = .inFinalize)
    (o : StorageController) :
    kind.slots.finalize o =
      o.env.unrefPtr (kind.at o.priv.storage) >>= fun env => .ok (disposed o env) := by
  cases kind with
  | ptrArray => exact dispose_eq .ptrArray o
  | array => cases h
  | hash => cases h

theorem keepsCount (kind : StorageKind) : kind.slots.KeepsCount := by
  intro o o' h
  cases hw : kind.wiring with
  | inDispose =>
      rw [dispose_inDispose hw] at h
      obtain ⟨env, -, rest⟩ := bind_eq_ok.mp h
      cases rest
      rfl
  | inFinalize =>
      rw [dispose_inFinalize hw] at h
      cases h
      rfl

end StorageKind

/-! ### Counts before and after -/

section Counts

variable {kind : StorageKind} {others : RefCounts Storage} {o : StorageController}

/-- The setter ends with the counts of the new storage. -/
theorem StorageKind.set_ok (storage : Option Nat)
    (counts : o.env = plus others (kind.at o.priv.storage))
    (exist : ∀ s, kind.at storage = some s → 0 < others s) :
    ∃ marks, kind.set o storage =
        .ok ⟨⟨o.refCount, ⟨storage⟩, marks⟩, plus others (kind.at storage)⟩ ∧
      (marks = o.marks ∨ marks = o.marks ++ [.notify]) := by
  rw [StorageKind.set_eq, setStorage]
  by_cases same : o.priv.storage = storage
  · subst same
    refine ⟨o.marks, ?_, .inl rfl⟩
    rw [if_pos rfl, ← counts]
  · refine ⟨o.marks ++ [.notify], ?_, .inr rfl⟩
    rw [if_neg same, counts, RefCounts.unrefPtr_plus, ok_bind, RefCounts.refPtr_eq exist]
    rfl

/-- So does the property, whose value holds one more reference meanwhile. -/
theorem StorageKind.setProperty_ok (storage : Option Nat)
    (counts : o.env = plus others (kind.at o.priv.storage))
    (exist : ∀ s, kind.at storage = some s → 0 < others s) :
    ∃ marks, kind.setProperty o storage =
        .ok ⟨⟨o.refCount, ⟨storage⟩, marks⟩, plus others (kind.at storage)⟩ := by
  have more : ∀ (f : RefCounts Storage) p s, f s ≤ plus f p s := fun f p s => Nat.le_add_right _ _
  have value : o.env.refPtr (kind.at storage) = .ok (plus o.env (kind.at storage)) := by
    apply RefCounts.refPtr_eq
    intro s given
    rw [counts]
    exact (exist s given).trans_le (more _ _ _)
  have counts' : plus o.env (kind.at storage) =
      plus (plus others (kind.at storage)) (kind.at o.priv.storage) := by
    rw [counts]
    exact plus_comm _ _ _
  obtain ⟨marks, hset, -⟩ := StorageKind.set_ok (o := { o with env := plus o.env (kind.at storage) })
    storage counts' fun s given => (exist s given).trans_le (more _ _ _)
  rw [StorageKind.set_eq] at hset
  refine ⟨marks, ?_⟩
  rw [StorageKind.setProperty_eq, StorageController.setProperty, value, ok_bind, hset, ok_bind,
    RefCounts.unrefPtr_plus]
  rfl

theorem StorageKind.newWith_ok {storage : Option Nat}
    (exist : ∀ s, kind.at storage = some s → 0 < others s) :
    ∃ marks, kind.newWith others storage =
        .ok ⟨⟨1, ⟨storage⟩, marks⟩, plus others (kind.at storage)⟩ := by
  rw [StorageKind.newWith_eq, StorageController.newWith, ← StorageKind.setProperty_eq]
  exact StorageKind.setProperty_ok storage (plus_none others).symm exist

theorem StorageKind.new_ok (kind : StorageKind) (others : RefCounts Storage) :
    kind.new others = .ok (init others) := by
  rw [StorageKind.new_eq]
  rfl

/-- The last `unref` leaves the counts of the others, and every `unref` those of the
storage still held. -/
theorem StorageKind.unref_ok (counts : o.env = plus others (kind.at o.priv.storage))
    (alive : 0 < o.refCount) :
    ∃ o', kind.slots.unref o = .ok o' ∧ o'.refCount = o.refCount - 1 ∧
      o'.env = plus others (kind.at o'.priv.storage) ∧
      (o'.refCount = 0 → o'.priv.storage = none) := by
  by_cases many : 1 < o.refCount
  · refine ⟨_, Slots.unref_many many, rfl, counts, ?_⟩
    intro none
    rw [Instance.withCount_refCount] at none
    omega
  · have one : o.refCount = 1 := by omega
    rw [Slots.unref_last kind.keepsCount one, one]
    cases hw : kind.wiring with
    | inDispose =>
        rw [dispose_inDispose hw, counts, RefCounts.unrefPtr_plus, ok_bind, ok_bind,
          finalize_inDispose hw]
        exact ⟨_, rfl, rfl, (plus_none others).symm, fun _ => rfl⟩
    | inFinalize =>
        rw [dispose_inFinalize hw, ok_bind, finalize_inFinalize hw, Instance.withCount_env,
          Instance.withCount_priv, Instance.mark_env, Instance.mark_priv, counts,
          RefCounts.unrefPtr_plus]
        exact ⟨_, rfl, rfl, (plus_none others).symm, fun _ => rfl⟩

theorem StorageKind.runDispose_ok (counts : o.env = plus others (kind.at o.priv.storage))
    (alive : 0 < o.refCount) :
    ∃ o', kind.slots.runDispose o = .ok o' ∧ o'.refCount = o.refCount ∧
      o'.env = plus others (kind.at o'.priv.storage) := by
  rw [Slots.runDispose_eq kind.keepsCount alive]
  cases hw : kind.wiring with
  | inDispose =>
      rw [dispose_inDispose hw, Instance.withCount_env, Instance.withCount_priv, counts,
        RefCounts.unrefPtr_plus]
      exact ⟨_, rfl, rfl, (plus_none others).symm⟩
  | inFinalize =>
      rw [dispose_inFinalize hw]
      exact ⟨_, rfl, rfl, counts⟩

end Counts

end GlibController

import GlibController.SimpleModel.Model

/-!
What the calls of the simple model do to the objects of the library.

The program has one controller, at address 0, and events on it. `Holds` gives the
references of the others on the storages, the count of the controller, the array that it
keeps, and the events; each call of the model has one lemma about them. These lemmas
do not ask for balanced books, since the books of this program are not: the removal of
a text drops a reference that it does not hold.
-/

namespace GlibController

open Lib

variable {VArr : Type}

/-! ### The one controller -/

/-- The controller has a count and keeps an array. -/
structure KeepsArray (heap : Heap) (others : RefCounts Storage) (n p : Nat) : Prop where
  storages : heap.storages = plus others (some ⟨.ptrArray, p⟩)
  controllers : ∃ marks, heap.controllers = [⟨.ptrArray, ⟨n, ⟨some p⟩, marks⟩⟩]

namespace KeepsArray

variable {heap : Heap} {others : RefCounts Storage} {n p q : Nat}

/-- A function of the controller, from what it does to the object. -/
theorem onController {f : StorageKind → StorageController → Except Fault StorageController}
    {n' p' : Nat} (keeps : KeepsArray heap others n p)
    (effect : ∀ marks, ∃ marks', f .ptrArray ⟨⟨n, ⟨some p⟩, marks⟩, heap.storages⟩ =
      .ok ⟨⟨n', ⟨some p'⟩, marks'⟩, plus others (some ⟨.ptrArray, p'⟩)⟩) :
    ∃ heap', heap.onController 0 f = .ok heap' ∧ KeepsArray heap' others n' p' := by
  obtain ⟨marks, one⟩ := keeps.controllers
  obtain ⟨marks', run⟩ := effect marks
  refine ⟨⟨plus others (some ⟨.ptrArray, p'⟩), [⟨.ptrArray, ⟨n', ⟨some p'⟩, marks'⟩⟩]⟩, ?_, rfl,
    marks', rfl⟩
  unfold Heap.onController
  rw [one, List.getElem?_cons_zero]
  simp only [run, ok_bind, pure_eq_ok, List.set_cons_zero]

theorem ref (keeps : KeepsArray heap others n p) (alive : 0 < n) :
    ∃ heap', heap.refController 0 = .ok heap' ∧ KeepsArray heap' others (n + 1) p := by
  apply keeps.onController
  intro marks
  rw [Slots.ref_eq alive, keeps.storages]
  exact ⟨marks, rfl⟩

theorem unref (keeps : KeepsArray heap others n p) (more : 1 < n) :
    ∃ heap', heap.unrefController 0 = .ok heap' ∧ KeepsArray heap' others (n - 1) p := by
  apply keeps.onController
  intro marks
  rw [Slots.unref_many more, keeps.storages]
  exact ⟨marks, rfl⟩

/-- The last reference gone, the controller releases its array. -/
theorem unref_last (keeps : KeepsArray heap others 1 p) :
    ∃ heap', heap.unrefController 0 = .ok heap' ∧ heap'.storages = others ∧
      ∃ marks, heap'.controllers = [⟨.ptrArray, ⟨0, ⟨none⟩, marks⟩⟩] := by
  obtain ⟨marks, one⟩ := keeps.controllers
  have one_pos : 0 < (⟨⟨1, ⟨some p⟩, marks⟩, heap.storages⟩ : StorageController).refCount := Nat.one_pos
  obtain ⟨o, run, count, env, last⟩ := StorageKind.unref_ok keeps.storages one_pos
  obtain ⟨⟨refs, ⟨storage⟩, marks'⟩, env'⟩ := o
  dsimp only at count env last
  have released : storage = none := last count
  subst count released
  rw [StorageKind.at_none, plus_none] at env
  refine ⟨⟨env', [⟨.ptrArray, ⟨0, ⟨none⟩, marks'⟩⟩]⟩, ?_, env, marks', rfl⟩
  unfold Heap.unrefController Heap.onController
  rw [one, List.getElem?_cons_zero]
  simp only [run, ok_bind, pure_eq_ok, List.set_cons_zero]

theorem set (keeps : KeepsArray heap others n p) (alive : 0 < n) (exist : 0 < others ⟨.ptrArray, q⟩) :
    ∃ heap', heap.set 0 (some q) = .ok heap' ∧ KeepsArray heap' others n q := by
  apply keeps.onController
  intro marks
  have exist' : ∀ s, StorageKind.ptrArray.at (some q) = some s → 0 < others s := by
    intro s given
    cases given
    exact exist
  have counts : (⟨⟨n, ⟨some p⟩, marks⟩, heap.storages⟩ : StorageController).env =
      plus others (StorageKind.ptrArray.at (some p)) := keeps.storages
  obtain ⟨marks', run, -⟩ := StorageKind.set_ok (some q) counts exist'
  refine ⟨marks', ?_⟩
  rw [Heap.checked, if_neg alive.ne', run]
  rfl

end KeepsArray

/-! ### The controller and its events -/

structure Holds (sys : System VArr) (others : RefCounts Storage) (n p : Nat)
    (events : List (GObject (GControllerEvent Nat VArr))) : Prop where
  heap : KeepsArray sys.heap others n p
  events : sys.events = events

namespace Holds

variable {sys : System VArr} {others : RefCounts Storage} {n p : Nat}
  {events : List (GObject (GControllerEvent Nat VArr))} {x : GObject (GControllerEvent Nat VArr)}

theorem storages (holds : Holds sys others n p events) (s : Storage) :
    sys.heap.storages s = others s + if ⟨.ptrArray, p⟩ = s then 1 else 0 := by
  simp only [holds.heap.storages, plus_apply, Option.some.injEq]

/-- A call on the heap, from what it does there. -/
theorem onHeap {f : Heap → Except Fault Heap} {others' : RefCounts Storage} {n' p' : Nat}
    (holds : Holds sys others n p events) (outside : Outside → Outside)
    (effect : ∃ heap, f sys.heap = .ok heap ∧ KeepsArray heap others' n' p') :
    ∃ sys', (sys.onHeap f >>= fun sys => .ok (sys.withOutside outside)) = .ok sys' ∧
      Holds sys' others' n' p' events := by
  obtain ⟨heap, run, keeps⟩ := effect
  refine ⟨{ sys with heap }.withOutside outside, ?_, keeps, holds.events⟩
  unfold System.onHeap
  rw [run]
  rfl

/-- A call on the last event, from what it does to it. -/
theorem onEvent {f : Slot Heap (GControllerEvent Nat VArr)} {x' : GObject (GControllerEvent Nat VArr)}
    {n' : Nat} (holds : Holds sys others n p (events ++ [x])) (outside : Outside → Outside)
    (effect : ∃ heap, f ⟨x, sys.heap⟩ = .ok ⟨x', heap⟩ ∧ KeepsArray heap others n' p) :
    ∃ sys', (sys.onEvent events.length f >>= fun sys => .ok (sys.withOutside outside)) = .ok sys' ∧
      Holds sys' others n' p (events ++ [x']) := by
  obtain ⟨heap, run, keeps⟩ := effect
  refine ⟨{ sys with heap, events := sys.events.set events.length x' }.withOutside outside, ?_, keeps,
    ?_⟩
  · unfold System.onEvent
    rw [holds.events, List.getElem?_concat_length]
    simp only [run, ok_bind, pure_eq_ok]
  · simp only [System.withOutside, holds.events, List.set_append_right _ _ le_rfl, Nat.sub_self,
      List.set_cons_zero]

theorem newStorage [GValueArray VArr] (holds : Holds sys others n p events) (s : Storage) :
    ∃ sys', sys.exec (.newStorage s : OwnershipCall VArr Vararg) = .ok sys' ∧
      Holds sys' (plus others (some s)) n p events := by
  apply holds.onHeap
  refine ⟨_, rfl, ?_, holds.heap.controllers⟩
  dsimp only
  rw [holds.heap.storages, plus_comm]

theorem set [GValueArray VArr] {q : Nat} (holds : Holds sys others n p events) (alive : 0 < n)
    (exist : 0 < others ⟨.ptrArray, q⟩) :
    ∃ sys', sys.exec (.set 0 (some q) : OwnershipCall VArr Vararg) = .ok sys' ∧
      Holds sys' others n q events := by
  obtain ⟨heap, run, keeps⟩ := holds.heap.set alive exist
  refine ⟨{ sys with heap }, ?_, keeps, holds.events⟩
  rw [System.exec, System.onHeap, run]
  rfl

theorem refController (holds : Holds sys others n p events) (alive : 0 < n) :
    ∃ sys', sys.refController 0 = .ok sys' ∧ Holds sys' others (n + 1) p events :=
  holds.onHeap _ (holds.heap.ref alive)

theorem unrefController (holds : Holds sys others n p events) (more : 1 < n) :
    ∃ sys', sys.unrefController 0 = .ok sys' ∧ Holds sys' others (n - 1) p events :=
  holds.onHeap _ (holds.heap.unref more)

theorem refEvent (holds : Holds sys others n p (events ++ [x])) (alive : 0 < x.refCount) :
    ∃ sys', sys.refEvent events.length = .ok sys' ∧
      Holds sys' others n p (events ++ [{ x with refCount := x.refCount + 1 }]) :=
  holds.onEvent _ ⟨_, Slots.ref_eq alive, holds.heap⟩

theorem unrefEvent (holds : Holds sys others n p (events ++ [x])) (more : 1 < x.refCount) :
    ∃ sys', sys.unrefEvent events.length = .ok sys' ∧
      Holds sys' others n p (events ++ [{ x with refCount := x.refCount - 1 }]) :=
  holds.onEvent _ ⟨_, Slots.unref_many more, holds.heap⟩

/-- The last reference gone, the event releases its controller. -/
theorem unrefEvent_last (holds : Holds sys others n p (events ++ [x])) (one : x.refCount = 1)
    (on : x.priv.controller = some 0) (more : 1 < n) :
    ∃ sys' x', sys.unrefEvent events.length = .ok sys' ∧
      Holds sys' others (n - 1) p (events ++ [x']) ∧ x'.refCount = 0 ∧ x'.priv.controller = none := by
  obtain ⟨heap, release, keeps⟩ := holds.heap.unref more
  have released : GControllerEvent.releasePtr Heap.unrefController x.priv.controller sys.heap =
      .ok heap := by
    rw [on]
    exact release
  have run : System.eventClass.unref (⟨x, sys.heap⟩ : Instance Heap (GControllerEvent Nat VArr)) =
      .ok (GControllerEvent.finalized ((GControllerEvent.disposed ⟨x, sys.heap⟩ heap).withCount 0)) := by
    rw [System.eventClass, Slots.unref_last GControllerEvent.keepsCount one,
      GControllerEvent.dispose_eq]
    simp only [released, ok_bind, GControllerEvent.finalize_eq]
  obtain ⟨sys', last, holds'⟩ := holds.onEvent
    (fun out => { out with events := minus out.events events.length }) ⟨_, run, keeps⟩
  exact ⟨sys', _, last, holds', rfl, rfl⟩

/-- The event at the end can be read. -/
theorem eventAt (holds : Holds sys others n p (events ++ [x])) (alive : 0 < x.refCount) :
    sys.eventAt events.length = .ok x.priv := by
  unfold System.eventAt
  rw [holds.events, List.getElem?_concat_length]
  exact if_neg alive.ne'

theorem beginEmission (holds : Holds sys others n p (events ++ [x])) (alive : 0 < n)
    (live : 0 < x.refCount) :
    ∃ sys', sys.beginEmission 0 events.length = .ok (sys', ⟨0, events.length, x.priv.action⟩) ∧
      Holds sys' others (n + 1) p (events ++ [{ x with refCount := x.refCount + 1 }]) := by
  obtain ⟨sys₁, run₁, holds₁⟩ := holds.refEvent live
  obtain ⟨sys₂, run₂, holds₂⟩ := holds₁.refController alive
  refine ⟨sys₂, ?_, holds₂⟩
  unfold System.beginEmission
  simp only [holds.eventAt live, ok_bind, run₁, run₂, pure_eq_ok]
  rfl

theorem finishEmission (holds : Holds sys others n p (events ++ [x])) (action : GControllerAction)
    (more : 1 < n) (live : 1 < x.refCount) :
    ∃ sys', sys.finishEmission ⟨0, events.length, action⟩ = .ok sys' ∧
      Holds sys' others (n - 1) p (events ++ [{ x with refCount := x.refCount - 1 }]) := by
  obtain ⟨sys₁, run₁, holds₁⟩ := holds.unrefEvent live
  obtain ⟨sys₂, run₂, holds₂⟩ := holds₁.unrefController more
  refine ⟨sys₂, ?_, holds₂⟩
  unfold System.finishEmission
  simp only [run₁, ok_bind, run₂]

end Holds

/-! ### New events -/

/-- Indices of type `uint`, as an event stores them. -/
def uintValues (indices : List Guint) : List GValue := indices.map fun w => ⟨.uint, w⟩

theorem collected_words (indices : List Guint) :
    GController.collected .uint (indices.map Vararg.word) = uintValues indices := by
  induction indices with
  | nil => rfl
  | cons w indices ih =>
      rw [List.map_cons, GController.collected, ih]
      rfl

/-- The announced number of indices is that of the arguments. -/
theorem passes_ofNat {n : Nat} (short : n < 2 ^ 31) :
    (GController.passes (Int32.ofNat n)).toNat = n :=
  GController.toNat_passes (Int32.toInt_ofNat_of_lt short)

namespace Holds

variable [GValueArray VArr] {sys : System VArr} {others : RefCounts Storage} {n p : Nat}
  {events : List (GObject (GControllerEvent Nat VArr))}

/-- A new event is the last one, and holds the controller. -/
theorem createEvent (holds : Holds sys others n p events) (alive : 0 < n)
    (action : GControllerAction) {indices : List Guint} (short : indices.length < 2 ^ 31) :
    ∃ sys' event, sys.exec (.createEvent 0 action .uint (.createEvent (Int32.ofNat indices.length)
        (indices.map .word)) : OwnershipCall VArr Vararg) = .ok sys' ∧
      Holds sys' others (n + 1) p (events ++ [⟨1, event, []⟩]) ∧
      Records event 0 action .uint (uintValues indices) := by
  have valid : GType.uint ≠ .invalid := by decide
  have count := passes_ofNat short
  have complete : (.createEvent (Int32.ofNat indices.length) (indices.map Vararg.word) :
      Creation VArr Vararg).Complete := by
    rw [Creation.Complete, count, List.length_map]
  obtain ⟨created, run⟩ := Creation.run_total 0 action (rfl : GController.classInit.createEvent = _)
    valid complete
  obtain ⟨event, rfl, records⟩ := Creation.run_ok rfl valid run
  rw [Creation.listed, count, List.take_of_length_le (by rw [List.length_map]), collected_words]
    at records
  obtain ⟨heap₁, run₁, keeps₁⟩ := holds.heap.ref alive
  obtain ⟨heap₂, run₂, keeps₂⟩ := keeps₁.ref (Nat.succ_pos n)
  obtain ⟨heap₃, run₃, keeps₃⟩ := keeps₂.unref (by omega)
  refine ⟨sys.addEvent heap₃ event, event, ?_, ⟨keeps₃, ?_⟩, records⟩
  · rw [System.exec]
    unfold System.createEvent
    simp only [run, ok_bind, run₁, run₂, run₃, pure_eq_ok]
  · rw [System.addEvent, holds.events]

end Holds

end GlibController

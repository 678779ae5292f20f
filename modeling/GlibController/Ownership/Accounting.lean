import GlibController.Ownership.System
import GlibController.Storage.Holding

/-!
Every reference is accounted for, in every state of the system.

There are two sets of books. The storages are held by callers and by controllers
(`HeapOk`), the controllers by callers and by events (`SystemOk`). A call takes one
controller or one event out of its books, changes it, and puts it back; releasing a
controller from an event does both, one inside the other. `systemOk_exec` is the
step and `accounted_of_reach` the result for every interleaving.
-/

namespace GlibController

open Lib

/-! ### The heap's books -/

/-- What a controller holds. -/
def HeapController.held (x : HeapController) : Option Storage := x.kind.at x.object.priv.storage

/-- The reference counts of the controllers. -/
def Heap.counts (heap : Heap) : RefCounts Nat :=
  countsOf (fun x => x.object.refCount) heap.controllers

/-- The books of the storages are balanced, and a finalised controller holds nothing. -/
structure HeapOk (heap : Heap) (outside : RefCounts Storage) : Prop where
  balanced : Balanced heap.storages outside (heap.controllers.map HeapController.held)
  finalized : ∀ x ∈ heap.controllers, x.object.refCount = 0 → x.object.priv.storage = none

/-- What a function owes to the controller it is applied to: it comes to an end at a
count, with the storages counted for the others and for what the controller holds. -/
def Owes (outside : RefCounts Storage) (kind : StorageKind) (o : StorageController) (n : Nat)
    (result : Except Fault StorageController) : Prop :=
  ∀ others : RefCounts Storage, o.env = plus others (kind.at o.priv.storage) →
    (∀ s, outside s ≤ others s) →
      ∃ o', result = .ok o' ∧ o'.refCount = n ∧ o'.env = plus others (kind.at o'.priv.storage) ∧
        (o'.refCount = 0 → o'.priv.storage = none)

section Owes

variable {outside : RefCounts Storage} {kind : StorageKind} {o : StorageController}

theorem owes_ref (alive : 0 < o.refCount) : Owes outside kind o (o.refCount + 1) (Slots.ref o) := by
  intro others env _
  refine ⟨_, Slots.ref_eq alive, rfl, env, ?_⟩
  intro none
  exact absurd none (Nat.succ_ne_zero _)

theorem owes_unref (alive : 0 < o.refCount) :
    Owes outside kind o (o.refCount - 1) (kind.slots.unref o) := by
  intro others env _
  exact kind.unref_ok env alive

theorem owes_runDispose (alive : 0 < o.refCount) :
    Owes outside kind o o.refCount (kind.slots.runDispose o) := by
  intro others env _
  obtain ⟨o', run, count, env'⟩ := kind.runDispose_ok env alive
  refine ⟨o', run, count, env', ?_⟩
  intro none
  exact absurd (count.symm.trans none) alive.ne'

/-- A function that stores what it is given pays what it owes, where somebody outside
holds what it is given. -/
theorem owes_checked {f : StorageKind → StorageController → Except Fault StorageController}
    {storage : Option Nat} (alive : 0 < o.refCount)
    (exist : ∀ s, kind.at storage = some s → 0 < outside s)
    (stores : ∀ others, o.env = plus others (kind.at o.priv.storage) →
      (∀ s, kind.at storage = some s → 0 < others s) →
        ∃ marks, f kind o =
          .ok ⟨⟨o.refCount, ⟨storage⟩, marks⟩, plus others (kind.at storage)⟩) :
    Owes outside kind o o.refCount (Heap.checked f kind o) := by
  intro others env le
  obtain ⟨marks, run⟩ := stores others env fun s given => (exist s given).trans_le (le s)
  rw [Heap.checked, if_neg alive.ne']
  refine ⟨_, run, rfl, rfl, ?_⟩
  intro none
  exact absurd none alive.ne'

theorem owes_set {storage : Option Nat} (alive : 0 < o.refCount)
    (exist : ∀ s, kind.at storage = some s → 0 < outside s) :
    Owes outside kind o o.refCount (Heap.checked (fun kind o => kind.set o storage) kind o) := by
  apply owes_checked alive exist
  intro others env exist'
  obtain ⟨marks, run, -⟩ := StorageKind.set_ok storage env exist'
  exact ⟨marks, run⟩

theorem owes_setProperty {storage : Option Nat} (alive : 0 < o.refCount)
    (exist : ∀ s, kind.at storage = some s → 0 < outside s) :
    Owes outside kind o o.refCount
      (Heap.checked (fun kind o => kind.setProperty o storage) kind o) := by
  apply owes_checked alive exist
  intro others env exist'
  exact StorageKind.setProperty_ok storage env exist'

end Owes

namespace Heap

variable {heap : Heap} {outside : RefCounts Storage} {c : Nat}

theorem exists_of_counts (alive : 0 < heap.counts c) :
    ∃ x, heap.controllers[c]? = some x ∧ x.object.refCount = heap.counts c :=
  exists_of_countsOf alive

/-- A function that pays what it owes keeps the books. -/
theorem onController_ok {x : HeapController}
    {f : StorageKind → StorageController → Except Fault StorageController} {n : Nat}
    (ok : HeapOk heap outside) (hx : heap.controllers[c]? = some x)
    (owes : Owes outside x.kind ⟨x.object, heap.storages⟩ n
      (f x.kind ⟨x.object, heap.storages⟩)) :
    ∃ heap', heap.onController c f = .ok heap' ∧ HeapOk heap' outside ∧
      heap'.counts = Function.update heap.counts c n := by
  have holder : (heap.controllers.map HeapController.held)[c]? = some x.held := by
    rw [List.getElem?_map, hx]
    rfl
  obtain ⟨inside, -⟩ := List.getElem?_eq_some_iff.mp holder
  obtain ⟨o, hf, count, env, last⟩ := owes _ (ok.balanced.split holder)
    fun s => Nat.le_add_right _ _
  refine ⟨⟨o.env, heap.controllers.set c ⟨x.kind, o.toGObject⟩⟩, ?_, ⟨?_, ?_⟩, ?_⟩
  · rw [onController, hx]
    simp only [hf, ok_bind, pure_eq_ok]
  · rw [List.map_set]
    simp only [env]
    exact Balanced.join inside
  · intro y hy none
    rcases List.mem_or_eq_of_mem_set hy with old | rfl
    · exact ok.finalized y old none
    · exact last none
  · rw [counts, countsOf_set hx, count, ← counts]

theorem refController_ok (ok : HeapOk heap outside) (alive : 0 < heap.counts c) :
    ∃ heap', heap.refController c = .ok heap' ∧ HeapOk heap' outside ∧
      heap'.counts = plus heap.counts (some c) := by
  obtain ⟨x, hx, count⟩ := exists_of_counts alive
  obtain ⟨heap', run, ok', counts⟩ := onController_ok (f := fun _ o => Slots.ref o) ok hx
    (owes_ref (count ▸ alive))
  exact ⟨heap', run, ok', by rw [counts, ← update_succ, ← count]⟩

theorem unrefController_ok (ok : HeapOk heap outside) (alive : 0 < heap.counts c) :
    ∃ heap', heap.unrefController c = .ok heap' ∧ HeapOk heap' outside ∧
      heap'.counts = minus heap.counts c := by
  obtain ⟨x, hx, count⟩ := exists_of_counts alive
  obtain ⟨heap', run, ok', counts⟩ := onController_ok (f := fun kind o => kind.slots.unref o) ok hx
    (owes_unref (count ▸ alive))
  exact ⟨heap', run, ok', by rw [counts, minus, ← count]⟩

/-- A function that leaves the count of its controller alone leaves all counts alone. -/
theorem onController_keeps {f : StorageKind → StorageController → Except Fault StorageController}
    (ok : HeapOk heap outside) (alive : 0 < heap.counts c)
    (owes : ∀ x, heap.controllers[c]? = some x → 0 < x.object.refCount →
      Owes outside x.kind ⟨x.object, heap.storages⟩ x.object.refCount
        (f x.kind ⟨x.object, heap.storages⟩)) :
    ∃ heap', heap.onController c f = .ok heap' ∧ HeapOk heap' outside ∧
      heap'.counts = heap.counts := by
  obtain ⟨x, hx, count⟩ := exists_of_counts alive
  obtain ⟨heap', run, ok', counts⟩ := onController_ok ok hx (owes x hx (count ▸ alive))
  exact ⟨heap', run, ok', by rw [counts, count, Function.update_eq_self]⟩

/-- A new controller joins the books with what it holds. -/
theorem place_ok (kind : StorageKind) (storage : Option Nat) (marks : List Mark)
    (ok : HeapOk heap outside) :
    HeapOk (heap.place kind ⟨⟨1, ⟨storage⟩, marks⟩, plus heap.storages (kind.at storage)⟩) outside ∧
      (heap.place kind ⟨⟨1, ⟨storage⟩, marks⟩, plus heap.storages (kind.at storage)⟩).counts =
        plus heap.counts (some heap.controllers.length) := by
  refine ⟨⟨?_, ?_⟩, ?_⟩
  · rw [place, List.map_append]
    exact ok.balanced.enlist _
  · intro x hx none
    rw [place, List.mem_append, List.mem_singleton] at hx
    rcases hx with old | rfl
    · exact ok.finalized x old none
    · cases none
  · exact countsOf_append rfl

end Heap

/-! ### Events and their controllers -/

variable {VArr : Type}

/-- An event holds its controller until it is disposed, and is disposed before its last
reference is gone. -/
structure EventOk (x : GObject (GControllerEvent Nat VArr)) : Prop where
  disposed : x.priv.controller = none ↔ .dispose ∈ x.marks
  finalized : x.refCount = 0 → x.priv.controller = none

/-- What a function owes to the event it is applied to: it comes to an end at a count,
with the controllers counted for the others and for what the event holds. -/
def EventOwes (outside : RefCounts Storage) (o : Instance Heap (GControllerEvent Nat VArr)) (n : Nat)
    (result : Except Fault (Instance Heap (GControllerEvent Nat VArr))) : Prop :=
  ∀ others : RefCounts Nat, o.env.counts = plus others o.priv.controller →
    ∃ o', result = .ok o' ∧ o'.refCount = n ∧ HeapOk o'.env outside ∧
      o'.env.counts = plus others o'.priv.controller ∧ EventOk o'.toGObject

section Events

open GControllerEvent

variable {outside : RefCounts Storage} {o : Instance Heap (GControllerEvent Nat VArr)}

/-- Releasing the controller of an event leaves the counts of the others. -/
theorem releasePtr_ok {heap : Heap} {controller : Option Nat} {others : RefCounts Nat}
    (ok : HeapOk heap outside) (counts : heap.counts = plus others controller) :
    ∃ heap', releasePtr Heap.unrefController controller heap = .ok heap' ∧
      HeapOk heap' outside ∧ heap'.counts = others := by
  cases controller with
  | none => exact ⟨heap, rfl, ok, by rw [counts, plus_none]⟩
  | some c =>
      obtain ⟨heap', run, ok', counts'⟩ := Heap.unrefController_ok (c := c) ok (by simp [counts])
      exact ⟨heap', run, ok', by rw [counts', counts, minus_plus]⟩

theorem eventOwes_ref (ok : HeapOk o.env outside) (event : EventOk o.toGObject)
    (alive : 0 < o.refCount) : EventOwes outside o (o.refCount + 1) (Slots.ref o) := by
  intro others counts
  refine ⟨_, Slots.ref_eq alive, rfl, ok, counts, event.disposed, ?_⟩
  intro none
  exact absurd none (Nat.succ_ne_zero _)

theorem eventOwes_unref (ok : HeapOk o.env outside) (event : EventOk o.toGObject)
    (alive : 0 < o.refCount) :
    EventOwes outside o (o.refCount - 1) (System.eventClass.unref o) := by
  intro others counts
  by_cases many : 1 < o.refCount
  · refine ⟨_, Slots.unref_many many, rfl, ok, counts, event.disposed, ?_⟩
    intro none
    rw [Instance.withCount_refCount] at none
    omega
  · have one : o.refCount = 1 := by omega
    obtain ⟨heap, release, ok', counts'⟩ := releasePtr_ok ok counts
    have run : System.eventClass.unref o = .ok (finalized ((disposed o heap).withCount 0)) := by
      rw [System.eventClass, Slots.unref_last keepsCount one, dispose_eq, release, ok_bind, ok_bind,
        finalize_eq]
    rw [← plus_none others] at counts'
    refine ⟨_, run, ?_, ok', counts', ?_, ?_⟩
    · rw [one]
      rfl
    · simp [finalized, disposed, disposeMarks]
    · intro _
      rfl

theorem eventOwes_runDispose (ok : HeapOk o.env outside) (alive : 0 < o.refCount) :
    EventOwes outside o o.refCount (System.eventClass.runDispose o) := by
  intro others counts
  obtain ⟨heap, release, ok', counts'⟩ := releasePtr_ok ok counts
  have run : System.eventClass.runDispose o =
      .ok ((disposed (o.withCount (o.refCount + 1)) heap).withCount o.refCount) := by
    rw [System.eventClass, Slots.runDispose_eq keepsCount alive, dispose_eq,
      Instance.withCount_env, Instance.withCount_priv, release]
    rfl
  rw [← plus_none others] at counts'
  refine ⟨_, run, rfl, ok', counts', ?_, ?_⟩
  · simp [disposed, disposeMarks]
  · intro _
    rfl

end Events

/-! ### The system's books -/

namespace System

/-- The reference counts of the events. -/
def eventCounts (sys : System VArr) : RefCounts Nat := countsOf GObject.refCount sys.events

end System

/-- All books of a system are balanced. -/
structure SystemOk (sys : System VArr) : Prop where
  heap : HeapOk sys.heap sys.outside.storages
  controllers : Balanced sys.heap.counts sys.outside.controllers
    (sys.events.map fun x => x.priv.controller)
  events : sys.eventCounts = sys.outside.events
  each : ∀ x ∈ sys.events, EventOk x

namespace System

variable {sys : System VArr} {e : Nat}

/-- A function that pays what it owes to the event at an address keeps the books, when its
count is the one that callers hold afterwards. -/
theorem onEvent_at_ok {f : Slot Heap (GControllerEvent Nat VArr)}
    {x : GObject (GControllerEvent Nat VArr)} (n : Nat → Nat) (held : RefCounts Nat → RefCounts Nat)
    (ok : SystemOk sys) (hx : sys.events[e]? = some x)
    (owes : EventOwes sys.outside.storages ⟨x, sys.heap⟩ (n x.refCount) (f ⟨x, sys.heap⟩))
    (count : Function.update sys.outside.events e (n (sys.outside.events e)) =
      held sys.outside.events) :
    ∃ sys', sys.onEvent e f = .ok sys' ∧
      SystemOk (sys'.withOutside fun out => { out with events := held out.events }) := by
  have same : x.refCount = sys.outside.events e :=
    (countsOf_eq hx).symm.trans (congrFun ok.events e)
  have holder : (sys.events.map fun x => x.priv.controller)[e]? = some x.priv.controller := by
    rw [List.getElem?_map, hx]
    rfl
  obtain ⟨inside, -⟩ := List.getElem?_eq_some_iff.mp holder
  obtain ⟨o, hf, refCount, heapOk, counts, event⟩ := owes _ (ok.controllers.split holder)
  refine ⟨{ sys with heap := o.env, events := sys.events.set e o.toGObject }, ?_, heapOk, ?_, ?_, ?_⟩
  · rw [onEvent, hx]
    simp only [hf, ok_bind, pure_eq_ok]
  · simp only [withOutside, counts, List.map_set]
    exact Balanced.join inside
  · rw [withOutside, eventCounts, countsOf_set hx, ← eventCounts, ok.events, refCount, same, count]
  · intro y hy
    rcases List.mem_or_eq_of_mem_set hy with old | rfl
    · exact ok.each y old
    · exact event

theorem onEvent_ok {f : Slot Heap (GControllerEvent Nat VArr)} (n : Nat → Nat)
    (held : RefCounts Nat → RefCounts Nat) (ok : SystemOk sys) (alive : 0 < sys.outside.events e)
    (owes : ∀ x, EventOk x → 0 < x.refCount →
      EventOwes sys.outside.storages ⟨x, sys.heap⟩ (n x.refCount) (f ⟨x, sys.heap⟩))
    (count : Function.update sys.outside.events e (n (sys.outside.events e)) =
      held sys.outside.events) :
    ∃ sys', sys.onEvent e f = .ok sys' ∧
      SystemOk (sys'.withOutside fun out => { out with events := held out.events }) := by
  have counted : 0 < sys.eventCounts e := by rw [ok.events]; exact alive
  obtain ⟨x, hx, hcount⟩ := exists_of_countsOf counted
  exact onEvent_at_ok n held ok hx
    (owes x (ok.each x (List.mem_of_getElem? hx)) (by rw [hcount]; exact counted)) count

/-- A call on the heap keeps the books, when the controllers are counted as callers and
events hold them afterwards. -/
theorem onHeap_ok {f : Heap → Except Fault Heap} {counts : RefCounts Nat}
    (held : RefCounts Nat → RefCounts Nat) (ok : SystemOk sys)
    (run : ∃ heap, f sys.heap = .ok heap ∧ HeapOk heap sys.outside.storages ∧ heap.counts = counts)
    (balanced : Balanced counts (held sys.outside.controllers)
      (sys.events.map fun x => x.priv.controller)) :
    ∃ sys', sys.onHeap f = .ok sys' ∧
      SystemOk (sys'.withOutside fun out => { out with controllers := held out.controllers }) := by
  obtain ⟨heap, hf, heapOk, rfl⟩ := run
  refine ⟨{ sys with heap }, ?_, heapOk, balanced, ok.events, ok.each⟩
  rw [onHeap, hf]
  rfl

/-- So does a call on the storages. -/
theorem onStorages_ok {f : RefCounts Storage → Except Fault (RefCounts Storage)}
    {counts : RefCounts Storage} (held : RefCounts Storage → RefCounts Storage) (ok : SystemOk sys)
    (run : f sys.heap.storages = .ok counts)
    (balanced : Balanced counts (held sys.outside.storages)
      (sys.heap.controllers.map HeapController.held)) :
    ∃ sys', sys.onStorages f = .ok sys' ∧
      SystemOk (sys'.withOutside fun out => { out with storages := held out.storages }) := by
  refine ⟨{ sys with heap := ⟨counts, sys.heap.controllers⟩ }, ?_, ⟨balanced, ok.heap.finalized⟩,
    ok.controllers, ok.events, ok.each⟩
  rw [onStorages, onHeap, run]
  rfl

/-- A call that keeps every count keeps the books. -/
theorem onHeap_keeps {f : Heap → Except Fault Heap} (ok : SystemOk sys)
    (run : ∃ heap, f sys.heap = .ok heap ∧ HeapOk heap sys.outside.storages ∧
      heap.counts = sys.heap.counts) : ∃ sys', sys.onHeap f = .ok sys' ∧ SystemOk sys' := by
  obtain ⟨heap, hf, heapOk, counts⟩ := run
  refine ⟨{ sys with heap }, ?_, heapOk, by simpa only [counts] using ok.controllers, ok.events,
    ok.each⟩
  rw [onHeap, hf]
  rfl

/-- A new controller joins the books. -/
theorem placeNew_ok (kind : StorageKind) (storage : Option Nat) (marks : List Mark)
    (ok : SystemOk sys) :
    SystemOk (sys.placeNew kind
      ⟨⟨1, ⟨storage⟩, marks⟩, plus sys.heap.storages (kind.at storage)⟩) := by
  obtain ⟨heapOk, counts⟩ := Heap.place_ok kind storage marks ok.heap
  refine ⟨heapOk, ?_, ok.events, ok.each⟩
  simp only [placeNew, counts]
  exact ok.controllers.borrow _

theorem set_ok {c : Nat} {storage : Option Nat} (ok : SystemOk sys)
    (holds : sys.HoldsBoth c storage) :
    (∃ sys', sys.onHeap (Heap.set c storage) = .ok sys' ∧ SystemOk sys') ∧
      ∃ sys', sys.onHeap (Heap.setProperty c storage) = .ok sys' ∧ SystemOk sys' := by
  obtain ⟨outside, exist⟩ := holds
  have alive := ok.controllers.pos_of_outside outside
  constructor
  · apply onHeap_keeps ok
    apply Heap.onController_keeps ok.heap alive
    intro x hx pos
    exact owes_set pos (exist x hx)
  · apply onHeap_keeps ok
    apply Heap.onController_keeps ok.heap alive
    intro x hx pos
    exact owes_setProperty pos (exist x hx)

theorem systemOk_empty : SystemOk (empty : System VArr) where
  heap := ⟨fun _ => rfl, fun _ mem _ => absurd mem List.not_mem_nil⟩
  controllers _ := rfl
  events := rfl
  each _ mem := absurd mem List.not_mem_nil

section Create

variable [GValueArray VArr] {Arg : Type} [ValueCollector Arg]

/-- The new event joins the books with its controller. -/
theorem createEvent_ok {c : Nat} {action : GControllerAction} {t : GType}
    {creation : Creation VArr Arg} (ok : SystemOk sys) (alive : 0 < sys.outside.controllers c)
    (complete : creation.Complete) :
    ∃ sys', sys.createEvent c action t creation = .ok sys' ∧ SystemOk sys' := by
  by_cases valid : t = .invalid
  · subst valid
    have null : creation.run GController.classInit c action .invalid = .ok none := by
      cases creation <;> rfl
    exact ⟨sys, by rw [createEvent, null]; rfl, ok⟩
  · obtain ⟨created, hrun⟩ := Creation.run_total c action (rfl : GController.classInit.createEvent = _)
      valid complete
    obtain ⟨event, rfl, records⟩ := Creation.run_ok rfl valid hrun
    obtain ⟨heap₁, run₁, ok₁, counts₁⟩ :=
      Heap.refController_ok ok.heap (ok.controllers.pos_of_outside alive)
    obtain ⟨heap₂, run₂, ok₂, counts₂⟩ := Heap.refController_ok (c := c) ok₁ (by simp [counts₁])
    obtain ⟨heap₃, run₃, ok₃, counts₃⟩ := Heap.unrefController_ok (c := c) ok₂ (by simp [counts₂])
    have counts : heap₃.counts = plus sys.heap.counts (some c) := by
      rw [counts₃, counts₂, minus_plus, counts₁]
    refine ⟨sys.addEvent heap₃ event, ?_, ok₃, ?_, ?_, ?_⟩
    · simp only [createEvent, hrun, ok_bind, run₁, run₂, run₃, pure_eq_ok]
    · simp only [addEvent, counts, List.map_append, List.map_cons, List.map_nil, records.controller]
      exact ok.controllers.enlist _
    · have one : countsOf GObject.refCount (sys.events ++ [⟨1, event, []⟩]) =
          plus sys.eventCounts (some sys.events.length) := countsOf_append rfl
      rw [ok.events] at one
      exact one
    · intro x hx
      rcases List.mem_append.mp hx with old | new
      · exact ok.each x old
      · rw [List.mem_singleton.mp new]
        exact ⟨by simp [records.controller], fun none => by cases none⟩

/-- Every call of a caller that holds what it passes comes to an end and keeps all
books. -/
theorem systemOk_exec {call : OwnershipCall VArr Arg} (ok : SystemOk sys)
    (holds : sys.CallerHolds call) : ∃ sys', sys.exec call = .ok sys' ∧ SystemOk sys' := by
  have storageAlive : ∀ {s}, 0 < sys.outside.storages s → 0 < sys.heap.storages s :=
    ok.heap.balanced.pos_of_outside
  have alive : ∀ {c}, 0 < sys.outside.controllers c → 0 < sys.heap.counts c :=
    ok.controllers.pos_of_outside
  cases call with
  | newStorage s =>
      obtain ⟨sys', run, ok'⟩ := onStorages_ok (f := fun counts => .ok (plus counts (some s)))
        (fun held => plus held (some s)) ok rfl (ok.heap.balanced.borrow s)
      exact ⟨_, by rw [exec, run]; rfl, ok'⟩
  | refStorage s =>
      obtain ⟨sys', run, ok'⟩ := onStorages_ok (f := fun counts => counts.ref s)
        (fun held => plus held (some s)) ok (RefCounts.ref_eq (storageAlive holds))
        (ok.heap.balanced.borrow s)
      exact ⟨_, by rw [exec, run]; rfl, ok'⟩
  | unrefStorage s =>
      obtain ⟨sys', run, ok'⟩ := onStorages_ok (f := fun counts => counts.unref s)
        (fun held => minus held s) ok (RefCounts.unref_eq (storageAlive holds))
        (ok.heap.balanced.giveBack holds)
      exact ⟨_, by rw [exec, run]; rfl, ok'⟩
  | new kind =>
      have placed := placeNew_ok kind none [] ok
      rw [StorageKind.at_none, plus_none] at placed
      exact ⟨_, by rw [exec, kind.new_ok]; rfl, placed⟩
  | newWith kind storage =>
      obtain ⟨marks, run⟩ := StorageKind.newWith_ok fun s given => storageAlive (holds s given)
      exact ⟨_, by rw [exec, run]; rfl, placeNew_ok kind storage marks ok⟩
  | set c storage => exact (set_ok ok holds).1
  | setProperty c storage => exact (set_ok ok holds).2
  | createEvent c action indexType creation => exact createEvent_ok ok holds.1 holds.2
  | refController c =>
      obtain ⟨sys', run, ok'⟩ := onHeap_ok (fun held => plus held (some c)) ok
        (Heap.refController_ok ok.heap (alive holds)) (ok.controllers.borrow c)
      exact ⟨_, by rw [exec, run]; rfl, ok'⟩
  | unrefController c =>
      obtain ⟨sys', run, ok'⟩ := onHeap_ok (fun held => minus held c) ok
        (Heap.unrefController_ok ok.heap (alive holds)) (ok.controllers.giveBack holds)
      exact ⟨_, by rw [exec, run]; rfl, ok'⟩
  | runDisposeController c =>
      apply onHeap_keeps ok
      apply Heap.onController_keeps ok.heap (alive holds)
      intro x _ pos
      exact owes_runDispose pos
  | refEvent e =>
      obtain ⟨sys', run, ok'⟩ := onEvent_ok (· + 1) (fun held => plus held (some e)) ok holds
        (fun _ event pos => eventOwes_ref ok.heap event pos) (update_succ _ _)
      exact ⟨_, by rw [exec, run]; rfl, ok'⟩
  | unrefEvent e =>
      obtain ⟨sys', run, ok'⟩ := onEvent_ok (· - 1) (fun held => minus held e) ok holds
        (fun _ event pos => eventOwes_unref ok.heap event pos) rfl
      exact ⟨_, by rw [exec, run]; rfl, ok'⟩
  | runDisposeEvent e =>
      obtain ⟨sys', run, ok'⟩ := onEvent_ok (fun n => n) (fun held => held) ok holds
        (fun _ _ pos => eventOwes_runDispose ok.heap pos) (Function.update_eq_self _ _)
      exact ⟨sys', run, ok'⟩

theorem systemOk_of_reach (reach : (machine VArr Arg).ReachBy CallerHolds sys) : SystemOk sys := by
  apply reach.invariant SystemOk
  · rintro _ rfl
    exact systemOk_empty
  · intro sys call sys' ok holds step
    obtain ⟨next, run, ok'⟩ := systemOk_exec ok holds
    rw [show sys.exec call = .ok sys' from step] at run
    cases run
    exact ok'

end Create

end System

/-! ### What the books say -/

namespace HeapController

/-- The controller is not finalised. -/
def live (x : HeapController) : Bool := 0 < x.object.refCount

/-- What the getter of the controller returns. -/
def getter (counts : RefCounts Storage) (x : HeapController) : Option Storage :=
  x.kind.at (x.kind.get ⟨x.object, counts⟩)

theorem getter_eq (counts : RefCounts Storage) (x : HeapController) : x.getter counts = x.held := by
  rw [getter, StorageKind.get_eq]
  rfl

end HeapController

/-- The event is not disposed. -/
def undisposed (x : GObject (GControllerEvent Nat VArr)) : Bool := .dispose ∉ x.marks

namespace System

/-- The live controllers whose getter returns a storage. -/
def keepers (sys : System VArr) (s : Storage) : Nat :=
  sys.heap.controllers.countP fun x => x.live ∧ x.getter sys.heap.storages = some s

/-- The undisposed events whose controller is the one at an address. -/
def eventsOn (sys : System VArr) (c : Nat) : Nat :=
  sys.events.countP fun x => undisposed x ∧ x.priv.getController = some c

/-- Every reference is accounted for, nothing in use is freed, what is finalised holds
nothing, and no call of a caller that holds what it passes can fail. -/
structure Accounted (Arg : Type) [GValueArray VArr] [ValueCollector Arg] (sys : System VArr) :
    Prop where
  storages : ∀ s, sys.heap.storages s = sys.outside.storages s + sys.keepers s
  controllers : ∀ c, sys.heap.counts c = sys.outside.controllers c + sys.eventsOn c
  gettersAlive : ∀ x ∈ sys.heap.controllers, x.live → ∀ s, x.getter sys.heap.storages = some s →
    0 < sys.heap.storages s
  eventsAlive : ∀ x ∈ sys.events, undisposed x →
    ∃ c, x.priv.getController = some c ∧ 0 < sys.heap.counts c
  controllersFinalized : ∀ x ∈ sys.heap.controllers, x.object.refCount = 0 →
    x.object.priv.storage = none
  eventsFinalized : ∀ x ∈ sys.events, x.refCount = 0 → x.priv.controller = none
  noFault : ∀ call : OwnershipCall VArr Arg, sys.CallerHolds call →
    ∃ sys', sys.exec call = .ok sys'

variable [GValueArray VArr] {Arg : Type} [ValueCollector Arg] {sys : System VArr}

omit [GValueArray VArr] in
theorem keeps_iff {outside : RefCounts Storage} {heap : Heap} {x : HeapController} {s : Storage}
    (ok : HeapOk heap outside) (mem : x ∈ heap.controllers) :
    (x.live ∧ x.getter heap.storages = some s) ↔ x.held = some s := by
  rw [HeapController.getter_eq]
  constructor
  · rintro ⟨-, held⟩
    exact held
  · intro held
    refine ⟨?_, held⟩
    simp only [HeapController.live, decide_eq_true_eq]
    apply Nat.pos_of_ne_zero
    intro dead
    rw [HeapController.held, ok.finalized x mem dead] at held
    cases held

omit [GValueArray VArr] in
theorem on_iff {x : GObject (GControllerEvent Nat VArr)} {c : Nat} (ok : EventOk x) :
    (undisposed x ∧ x.priv.getController = some c) ↔ x.priv.controller = some c := by
  constructor
  · rintro ⟨-, held⟩
    exact held
  · intro held
    refine ⟨?_, held⟩
    simp only [undisposed, decide_eq_true_eq, ← ok.disposed, held]
    exact Option.some_ne_none c

/-- In every state that callers who hold what they pass can reach, all references are
accounted for. -/
theorem accounted_of_reach (reach : (machine VArr Arg).ReachBy CallerHolds sys) :
    sys.Accounted Arg := by
  have ok := systemOk_of_reach reach
  refine ⟨?_, ?_, ?_, ?_, ok.heap.finalized, ?_, ?_⟩
  · intro s
    apply ok.heap.balanced.countP_holders
    intro x mem
    simpa using keeps_iff ok.heap mem
  · intro c
    apply ok.controllers.countP_holders
    intro x mem
    simpa using on_iff (ok.each x mem)
  · intro x mem live s returned
    have held : x.held = some s := (keeps_iff ok.heap mem).mp ⟨live, returned⟩
    exact ok.heap.balanced.pos_of_mem (List.mem_map.mpr ⟨x, mem, held⟩)
  · intro x mem fresh
    simp only [undisposed, decide_eq_true_eq, ← (ok.each x mem).disposed] at fresh
    obtain ⟨c, held⟩ := Option.ne_none_iff_exists'.mp fresh
    exact ⟨c, held, ok.controllers.pos_of_mem (List.mem_map.mpr ⟨x, mem, held⟩)⟩
  · intro x mem
    exact (ok.each x mem).finalized
  · intro call holds
    obtain ⟨sys', run, -⟩ := systemOk_exec ok holds
    exact ⟨sys', run⟩

/-- Two controllers share a storage that callers have dropped, and the first is kept
by an event only. -/
theorem accounted_shared_storage :
    ∃ sys : System Values, sys.heap.storages ⟨.array, 0⟩ = 2 ∧ sys.outside.storages ⟨.array, 0⟩ = 0 ∧
      sys.heap.counts 0 = 1 ∧ sys.outside.controllers 0 = 0 ∧ sys.Accounted Vararg := by
  have start : (machine Values Vararg).ReachBy CallerHolds empty := .start rfl
  have stored := start.step (a := .newStorage ⟨.array, 0⟩) (by rfl) (by rfl)
  have first := stored.step (a := .newWith .array (some 0)) (by rintro s ⟨⟩; decide) (by rfl)
  have second := first.step (a := .newWith .array (some 0)) (by rintro s ⟨⟩; decide) (by rfl)
  have event := second.step (a := .createEvent 0 .add .uint (.createEventv none))
    (by exact ⟨by decide, trivial⟩) (by rfl)
  have dropped := event.step (a := .unrefController 0) (by show 0 < _; decide) (by rfl)
  have shared := dropped.step (a := .unrefStorage ⟨.array, 0⟩) (by show 0 < _; decide) (by rfl)
  exact ⟨_, rfl, rfl, rfl, rfl, accounted_of_reach shared⟩

end System

end GlibController

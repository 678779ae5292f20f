import GlibController.GLib.Object
import GlibController.Event.Model

/-!
The life of an event: references, explicit disposes and the two destructors of
`gcontrollerevent.c`.

`GControllerEvent.dispose` chains up to the `finalize` slot of its parent, where
its siblings chain up to `dispose`. `not_lifeCycle` says that no event ever has the
life cycle of a `GObject`, and `life_kept` what it has all the same: the reference
on the controller is released once, the array is freed once, and the last step is
the parent's `finalize` without a reference left.

What releasing a controller does to the rest of memory is a parameter.
-/

namespace GlibController

open Lib

variable {κ VArr Env : Type}

namespace GControllerEvent

/-- `if (priv->controller != NULL)` and its block. -/
def releaseController (unrefController : κ → Env → Except Fault Env) :
    Slot Env (GControllerEvent κ VArr) := fun o =>
  match o.priv.controller with
  | none => .ok o
  | some controller => do
      let env ← unrefController controller o.env
      let released := { o with priv := { o.priv with controller := none }, env }
      return released.mark .release

/-- `g_controller_event_dispose`. It ends with the parent's `finalize`. -/
def dispose (unrefController : κ → Env → Except Fault Env)
    (parent : Slots Env (GControllerEvent κ VArr)) : Slot Env (GControllerEvent κ VArr) := fun o => do
  let o ← releaseController unrefController (o.mark .dispose)
  parent.finalize o

/-- `g_controller_event_finalize`. The freed array stays where it was. -/
def finalize (parent : Slots Env (GControllerEvent κ VArr)) : Slot Env (GControllerEvent κ VArr) :=
  fun o =>
    match o.priv.indices with
    | none => parent.finalize o
    | some _ => parent.finalize (o.mark .free)

/-- `g_controller_event_class_init`. -/
def classInit (unrefController : κ → Env → Except Fault Env)
    (parent klass : Slots Env (GControllerEvent κ VArr)) : Slots Env (GControllerEvent κ VArr) :=
  { klass with
    dispose := dispose unrefController parent
    finalize := finalize parent }

/-- `G_DEFINE_TYPE (GControllerEvent, g_controller_event, G_TYPE_OBJECT)`. -/
def eventClass (unrefController : κ → Env → Except Fault Env) :
    Slots Env (GControllerEvent κ VArr) :=
  defineType objectClass (classInit unrefController)

/-! ### What the slots do -/

/-- The controller is released, if there is one. -/
def releasePtr (unrefController : κ → Env → Except Fault Env) (controller : Option κ) (env : Env) :
    Except Fault Env :=
  match controller with
  | none => .ok env
  | some controller => unrefController controller env

def disposeMarks (o : Instance Env (GControllerEvent κ VArr)) : List Mark :=
  .dispose :: (if o.priv.controller.isSome then [.release] else []) ++ [.parentFinalize o.refCount]

/-- The event after its `dispose` function. -/
def disposed (o : Instance Env (GControllerEvent κ VArr)) (env : Env) :
    Instance Env (GControllerEvent κ VArr) where
  refCount := o.refCount
  priv := { o.priv with controller := none }
  marks := o.marks ++ disposeMarks o
  env := env

def finalizeMarks (o : Instance Env (GControllerEvent κ VArr)) : List Mark :=
  (if o.priv.indices.isSome then [.free] else []) ++ [.parentFinalize o.refCount]

/-- The event after its `finalize` function. -/
def finalized (o : Instance Env (GControllerEvent κ VArr)) : Instance Env (GControllerEvent κ VArr) :=
  { o with marks := o.marks ++ finalizeMarks o }

variable {unrefController : κ → Env → Except Fault Env}
  {o o' : Instance Env (GControllerEvent κ VArr)}

theorem dispose_eq (o : Instance Env (GControllerEvent κ VArr)) :
    (eventClass unrefController).dispose o =
      releasePtr unrefController o.priv.controller o.env >>= fun env => .ok (disposed o env) := by
  cases o with
  | mk object env =>
      cases object with
      | mk refCount priv marks =>
          cases priv with
          | mk controller action indexType indices =>
              cases controller with
              | none => simp [eventClass, defineType, classInit, dispose, releaseController, releasePtr,
                  disposed, disposeMarks, objectClass, Instance.mark]
              | some controller =>
                  cases hrelease : unrefController controller env with
                  | error e => simp [eventClass, defineType, classInit, dispose, releaseController,
                      releasePtr, Instance.mark, hrelease]
                  | ok env' => simp [eventClass, defineType, classInit, dispose, releaseController,
                      releasePtr, disposed, disposeMarks, objectClass, Instance.mark, hrelease]

theorem finalize_eq (o : Instance Env (GControllerEvent κ VArr)) :
    (eventClass unrefController).finalize o = .ok (finalized o) := by
  cases hind : o.priv.indices <;>
    simp [eventClass, defineType, classInit, finalize, finalized, finalizeMarks, objectClass,
      Instance.mark, hind]

theorem keepsCount :
    (eventClass unrefController : Slots Env (GControllerEvent κ VArr)).KeepsCount := by
  intro o o' h
  rw [dispose_eq] at h
  obtain ⟨env, -, rest⟩ := bind_eq_ok.mp h
  cases rest
  rfl

/-! ### Steps -/

/-- What one successful call on an event does. -/
inductive LifeStep (unrefController : κ → Env → Except Fault Env)
    (o : Instance Env (GControllerEvent κ VArr)) : Instance Env (GControllerEvent κ VArr) → Prop where
  | ref : 0 < o.refCount → LifeStep unrefController o (o.withCount (o.refCount + 1))
  | unref : 1 < o.refCount → LifeStep unrefController o (o.withCount (o.refCount - 1))
  | last {env : Env} : o.refCount = 1 →
      LifeStep unrefController o (finalized ((disposed o env).withCount 0))
  | runDispose {env : Env} : 0 < o.refCount →
      LifeStep unrefController o
        ((disposed (o.withCount (o.refCount + 1)) env).withCount o.refCount)

theorem lifeStep_of_call {c : ObjectCall}
    (h : (eventClass unrefController).call o c = .ok o') : LifeStep unrefController o o' := by
  by_cases alive : o.refCount = 0
  · cases c <;> simp [Slots.call, Slots.ref, Slots.unref, Slots.runDispose, alive] at h
  · have pos : 0 < o.refCount := Nat.pos_of_ne_zero alive
    cases c with
    | ref =>
        rw [Slots.call, Slots.ref_eq pos] at h
        cases h
        exact .ref pos
    | unref =>
        rw [Slots.call] at h
        by_cases many : 1 < o.refCount
        · rw [Slots.unref_many many] at h
          cases h
          exact .unref many
        · have one : o.refCount = 1 := by omega
          rw [Slots.unref_last keepsCount one, dispose_eq] at h
          obtain ⟨d, hd, rest⟩ := bind_eq_ok.mp h
          obtain ⟨env, -, hdisposed⟩ := bind_eq_ok.mp hd
          cases hdisposed
          rw [finalize_eq] at rest
          cases rest
          exact .last one
    | runDispose =>
        rw [Slots.call, Slots.runDispose_eq keepsCount pos, dispose_eq] at h
        obtain ⟨d, hd, rest⟩ := bind_eq_ok.mp h
        obtain ⟨env, -, hdisposed⟩ := bind_eq_ok.mp hd
        cases hdisposed
        cases rest
        exact .runDispose pos

/-! ### The life cycle -/

/-- The life cycle a finalised object went through if its class follows the rules of
`GObject`. -/
structure LifeCycle (o : Instance Env (GControllerEvent κ VArr)) : Prop where
  parentDispose : o.marks.count .parentDispose = o.marks.count .dispose
  parentFinalize : o.marks.filter Mark.isParentFinalize = [.parentFinalize 0]
  last : o.marks.getLast? = some (.parentFinalize 0)
  release : o.marks.count .release = 1
  free : o.marks.count .free = if o.priv.indices.isSome then 1 else 0

/-- The parent's `dispose` has not run, and an event without references was disposed. -/
def Undisposed (o : Instance Env (GControllerEvent κ VArr)) : Prop :=
  o.marks.count .parentDispose = 0 ∧ (o.refCount = 0 → .dispose ∈ o.marks)

theorem undisposed_step (inv : Undisposed o) (step : LifeStep unrefController o o') :
    Undisposed o' := by
  obtain ⟨none, disposes⟩ := inv
  cases step with
  | ref _ =>
      refine ⟨none, ?_⟩
      intro h
      exact absurd h (Nat.succ_ne_zero _)
  | unref many =>
      refine ⟨none, ?_⟩
      intro h
      rw [Instance.withCount_refCount] at h
      omega
  | last _ =>
      constructor
      · simp only [finalized, disposed, disposeMarks, finalizeMarks, Instance.withCount_marks,
          List.count_append, none]
        split <;> split <;> simp
      · intro _
        simp [finalized, disposed, disposeMarks]
  | runDispose _ =>
      constructor
      · simp only [disposed, disposeMarks, Instance.withCount_marks, List.count_append, none]
        split <;> simp
      · intro _
        simp [disposed, disposeMarks]

/-- No event has the life cycle of a `GObject`, whatever its references and disposes:
its `dispose` runs and the parent's never does. -/
theorem not_lifeCycle {cs : List ObjectCall} (fresh : o.marks = []) (alive : 0 < o.refCount)
    (run : (eventClass unrefController).calls o cs = .ok o') (dropped : o'.refCount = 0) :
    ¬ LifeCycle o' := by
  intro cycle
  have start : Undisposed o := by
    refine ⟨by simp [fresh], ?_⟩
    intro none
    exact absurd none alive.ne'
  obtain ⟨none, disposes⟩ : Undisposed o' :=
    Slots.calls_invariant Undisposed (fun _ _ _ inv h => undisposed_step inv (lifeStep_of_call h))
      start run
  have once : 0 < o'.marks.count .dispose := List.count_pos_iff.mpr (disposes dropped)
  rw [← cycle.parentDispose, none] at once
  exact absurd once (lt_irrefl 0)

/-- An event without indices, just created. -/
def created : Instance Unit (GControllerEvent Nat Unit) :=
  ⟨⟨1, ⟨some 0, .add, .uint, none⟩, []⟩, ()⟩

/-- That event after its last reference, with these marks. -/
def dropped (marks : List Mark) : Instance Unit (GControllerEvent Nat Unit) :=
  ⟨⟨0, ⟨none, .add, .uint, none⟩, marks⟩, ()⟩

theorem not_lifeCycle_disposed_first :
    ¬ LifeCycle (dropped [.dispose, .release, .parentFinalize 2, .dispose, .parentFinalize 1,
      .parentFinalize 0]) := by
  have run : (eventClass fun _ env => .ok env).calls created [.runDispose, .unref] =
      .ok (dropped [.dispose, .release, .parentFinalize 2, .dispose, .parentFinalize 1,
        .parentFinalize 0]) := rfl
  exact not_lifeCycle rfl (by decide) run rfl

/-- An event that is created and dropped is finalised by `GObject` twice, the first
time while it still has its reference. -/
theorem dropped_event_finalised_twice :
    ¬ ∀ (o o' : Instance Unit (GControllerEvent Nat Unit)) (cs : List ObjectCall),
      o.marks = [] → 0 < o.refCount →
        (eventClass fun _ env => .ok env).calls o cs = .ok o' → o'.refCount = 0 → LifeCycle o' := by
  intro all
  have cycle := all created
    (dropped [.dispose, .release, .parentFinalize 1, .parentFinalize 0]) [.unref] rfl (by decide) rfl
    rfl
  exact absurd cycle.parentFinalize (by decide)

/-! ### What is kept -/

/-- The event so far, when it began with a controller and this array: what it owns is
released as often as it should be, and without references it ended with the parent's
`finalize`. -/
structure Life (start : Option VArr) (o : Instance Env (GControllerEvent κ VArr)) : Prop where
  indices : o.priv.indices = start
  release : o.marks.count .release = if o.priv.controller.isSome then 0 else 1
  free : o.marks.count .free = if o.refCount = 0 ∧ start.isSome then 1 else 0
  parentFinalize : o.marks.count (.parentFinalize 0) = if o.refCount = 0 then 1 else 0
  last : o.refCount = 0 →
    o.priv.controller = none ∧ o.marks.getLast? = some (.parentFinalize 0)

/-- While there are references, disposing releases at most once and finalises nothing. -/
theorem life_disposed {start : Option VArr} (inv : Life start o) (alive : 0 < o.refCount)
    (env : Env) : Life start (disposed o env) := by
  obtain ⟨indices, release, free, final, -⟩ := inv
  have early : Mark.parentFinalize o.refCount ≠ .parentFinalize 0 := by
    simpa using alive.ne'
  refine ⟨indices, ?_, ?_, ?_, fun h => absurd h alive.ne'⟩
  · cases h : o.priv.controller <;> simp [disposed, disposeMarks, List.count_append, release, h]
  · cases h : o.priv.controller <;>
      simp [disposed, disposeMarks, List.count_append, free, h, alive.ne']
  · cases h : o.priv.controller <;>
      simp [disposed, disposeMarks, List.count_append, final, h, alive.ne', early]

/-- Another number of references, while there are some, changes nothing. -/
theorem life_withCount {start : Option VArr} (inv : Life start o) (alive : 0 < o.refCount) {n : Nat}
    (pos : 0 < n) : Life start (o.withCount n) := by
  obtain ⟨indices, release, free, final, -⟩ := inv
  refine ⟨indices, release, ?_, ?_, fun h => absurd h pos.ne'⟩
  · simpa [alive.ne', pos.ne'] using free
  · simpa [alive.ne', pos.ne'] using final

theorem life_finalized {start : Option VArr} (inv : Life start o) (one : o.refCount = 1)
    (released : o.priv.controller = none) : Life start (finalized (o.withCount 0)) := by
  obtain ⟨indices, release, free, final, -⟩ := inv
  refine ⟨indices, ?_, ?_, ?_, fun _ => ⟨released, ?_⟩⟩
  · cases h : o.priv.indices <;> simp [finalized, finalizeMarks, List.count_append, release, h]
  · cases h : start <;> simp [finalized, finalizeMarks, List.count_append, free, indices, h, one]
  · cases h : o.priv.indices <;>
      simp [finalized, finalizeMarks, List.count_append, final, h, one]
  · simp [finalized, finalizeMarks]

theorem life_step {start : Option VArr} (inv : Life start o)
    (step : LifeStep unrefController o o') : Life start o' := by
  cases step with
  | ref alive => exact life_withCount inv alive (Nat.succ_pos _)
  | unref many => exact life_withCount inv (by omega) (by omega)
  | @last env one => exact life_finalized (life_disposed inv (by omega) env) one rfl
  | @runDispose env alive =>
      have more := life_withCount inv alive (Nat.succ_pos o.refCount)
      exact life_withCount (life_disposed more (Nat.succ_pos _) env) (Nat.succ_pos _) alive

/-- Whatever its references and disposes, a dropped event has released its controller
once and freed its array once, and ended with the parent's `finalize`, which ran once
without references. -/
theorem life_kept {cs : List ObjectCall} (fresh : o.marks = []) (alive : 0 < o.refCount)
    (owner : o.priv.controller.isSome) (run : (eventClass unrefController).calls o cs = .ok o')
    (dropped : o'.refCount = 0) :
    o'.marks.count .release = 1 ∧
      o'.marks.count .free = (if o.priv.indices.isSome then 1 else 0) ∧
      o'.marks.count (.parentFinalize 0) = 1 ∧
      o'.marks.getLast? = some (.parentFinalize 0) := by
  have start : Life o.priv.indices o := by
    refine ⟨rfl, by simp [fresh, owner], by simp [fresh, alive.ne'], by simp [fresh, alive.ne'], ?_⟩
    intro none
    exact absurd none alive.ne'
  have life : Life o.priv.indices o' :=
    Slots.calls_invariant (Life o.priv.indices)
      (fun _ _ _ inv h => life_step inv (lifeStep_of_call h)) start run
  obtain ⟨released, last⟩ := life.last dropped
  refine ⟨?_, ?_, ?_, last⟩
  · rw [life.release, released]
    rfl
  · rw [life.free, dropped]
    simp
  · rw [life.parentFinalize, if_pos dropped]

end GControllerEvent

end GlibController

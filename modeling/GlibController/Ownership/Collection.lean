import GlibController.Lib.Reachability
import GlibController.Ownership.Clients

/-!
Reference counting frees exactly what is out of reach.

An event points at its controller until it is disposed, and a controller at its storage. These
are the pointers that are counted, and they form no cycle. `collected` says that after every run
of what clients do, an object has references left exactly if there is a path of these pointers to
it from an object that a client or an emission holds. So no call can free what somebody may still
get at, and no object is left that nobody can.
-/

namespace GlibController

open Lib

variable {VArr Arg : Type}

/-! ### Objects and pointers -/

/-- An object of the system, by its address. -/
inductive Object where
  | storage (s : Storage)
  | controller (c : Nat)
  | event (e : Nat)
  deriving DecidableEq, Repr

/-- How many pointers deep the objects of a sort are. -/
def Object.height : Object → Nat
  | .event _ => 0
  | .controller _ => 1
  | .storage _ => 2

namespace System

/-- The pointer of an object that is counted: what its getter returns. -/
def pointee (sys : System VArr) : Object → Option Object
  | .storage _ => none
  | .controller c =>
      (sys.heap.controllers[c]?).bind fun x => (x.getter sys.heap.storages).map .storage
  | .event e => (sys.events[e]?).bind fun x => x.priv.getController.map .controller

/-- The references on an object, and those of them that are held outside. -/
def refs (sys : System VArr) : Object → Nat
  | .storage s => sys.heap.storages s
  | .controller c => sys.heap.counts c
  | .event e => sys.eventCounts e

def outsideRefs (sys : System VArr) : Object → Nat
  | .storage s => sys.outside.storages s
  | .controller c => sys.outside.controllers c
  | .event e => sys.outside.events e

def Alive (sys : System VArr) (o : Object) : Prop := 0 < sys.refs o

def InReach (sys : System VArr) : Object → Prop :=
  Reached (fun o => 0 < sys.outsideRefs o) fun b a => sys.pointee b = some a

/-! ### Pointers -/

variable {sys : System VArr} {a b : Object}

theorem pointee_height (points : sys.pointee b = some a) : b.height < a.height := by
  cases b with
  | storage s => cases points
  | controller c =>
      obtain ⟨x, -, rest⟩ := Option.bind_eq_some_iff.mp points
      obtain ⟨s, -, rfl⟩ := Option.map_eq_some_iff.mp rest
      exact Nat.lt_succ_self 1
  | event e =>
      obtain ⟨x, -, rest⟩ := Option.bind_eq_some_iff.mp points
      obtain ⟨c, -, rfl⟩ := Option.map_eq_some_iff.mp rest
      exact Nat.one_pos

theorem pointee_storage {s : Storage} : sys.pointee b = some (.storage s) ↔
    ∃ (c : Nat) (x : HeapController), b = .controller c ∧ sys.heap.controllers[c]? = some x ∧
      x.held = some s := by
  constructor
  · intro points
    cases b with
    | storage s => cases points
    | controller c =>
        obtain ⟨x, here, rest⟩ := Option.bind_eq_some_iff.mp points
        obtain ⟨s', returned, same⟩ := Option.map_eq_some_iff.mp rest
        cases same
        exact ⟨c, x, rfl, here, (x.getter_eq _).symm.trans returned⟩
    | event e =>
        obtain ⟨x, -, rest⟩ := Option.bind_eq_some_iff.mp points
        obtain ⟨c, -, same⟩ := Option.map_eq_some_iff.mp rest
        cases same
  · rintro ⟨c, x, rfl, here, held⟩
    simp only [pointee, here, Option.bind_some, HeapController.getter_eq, held, Option.map_some]

theorem pointee_controller {c : Nat} : sys.pointee b = some (.controller c) ↔
    ∃ (e : Nat) (x : GObject (GControllerEvent Nat VArr)), b = .event e ∧
      sys.events[e]? = some x ∧ x.priv.controller = some c := by
  constructor
  · intro points
    cases b with
    | storage s => cases points
    | controller c =>
        obtain ⟨x, -, rest⟩ := Option.bind_eq_some_iff.mp points
        obtain ⟨s, -, same⟩ := Option.map_eq_some_iff.mp rest
        cases same
    | event e =>
        obtain ⟨x, here, rest⟩ := Option.bind_eq_some_iff.mp points
        obtain ⟨c', returned, same⟩ := Option.map_eq_some_iff.mp rest
        cases same
        exact ⟨e, x, rfl, here, returned⟩
  · rintro ⟨e, x, rfl, here, held⟩
    simp only [pointee, here, Option.bind_some, GControllerEvent.getController, held,
      Option.map_some]

theorem not_pointee_event {e : Nat} : sys.pointee b ≠ some (.event e) := by
  intro points
  have grows := pointee_height points
  exact absurd grows (Nat.not_lt_zero _)

/-! ### What keeps an object alive -/

/-- A controller that holds a storage is not finalised. -/
theorem alive_of_held (ok : SystemOk sys) {c : Nat} {x : HeapController} {s : Storage}
    (here : sys.heap.controllers[c]? = some x) (held : x.held = some s) :
    sys.Alive (.controller c) := by
  have counted : sys.heap.counts c = x.object.refCount := countsOf_eq here
  rw [Alive, refs, counted]
  apply Nat.pos_of_ne_zero
  intro dead
  have released := ok.heap.finalized x (List.mem_of_getElem? here) dead
  rw [HeapController.held, released] at held
  cases held

/-- Nor is an event that has a controller. -/
theorem alive_of_controller (ok : SystemOk sys) {e c : Nat}
    {x : GObject (GControllerEvent Nat VArr)} (here : sys.events[e]? = some x)
    (held : x.priv.controller = some c) : sys.Alive (.event e) := by
  have counted : sys.eventCounts e = x.refCount := countsOf_eq here
  rw [Alive, refs, counted]
  apply Nat.pos_of_ne_zero
  intro dead
  rw [(ok.each x (List.mem_of_getElem? here)).finalized dead] at held
  cases held

/-- The objects that have references are those that are held outside, and those that an
object with references points at. -/
theorem sustained (ok : SystemOk sys) :
    Sustained sys.Alive (fun o => 0 < sys.outsideRefs o) fun b a => sys.pointee b = some a := by
  intro a
  cases a with
  | storage s =>
      refine (ok.heap.balanced.pos_iff s).trans (or_congr Iff.rfl ?_)
      simp only [pointee_storage, List.mem_map]
      constructor
      · rintro ⟨x, mem, held⟩
        obtain ⟨c, here⟩ := List.getElem?_of_mem mem
        exact ⟨.controller c, alive_of_held ok here held, c, x, rfl, here, held⟩
      · rintro ⟨b, -, c, x, rfl, here, held⟩
        exact ⟨x, List.mem_of_getElem? here, held⟩
  | controller c =>
      refine (ok.controllers.pos_iff c).trans (or_congr Iff.rfl ?_)
      simp only [pointee_controller, List.mem_map]
      constructor
      · rintro ⟨x, mem, held⟩
        obtain ⟨e, here⟩ := List.getElem?_of_mem mem
        exact ⟨.event e, alive_of_controller ok here held, e, x, rfl, here, held⟩
      · rintro ⟨b, -, e, x, rfl, here, held⟩
        exact ⟨x, List.mem_of_getElem? here, held⟩
  | event e =>
      have counted : sys.Alive (.event e) ↔ 0 < sys.outsideRefs (.event e) := by
        rw [Alive, refs, outsideRefs, ok.events]
      refine counted.trans (or_iff_left ?_).symm
      rintro ⟨b, -, points⟩
      exact not_pointee_event points

theorem alive_iff_inReach (ok : SystemOk sys) (o : Object) : sys.Alive o ↔ sys.InReach o :=
  (sustained ok).alive_iff (Subrelation.wf pointee_height (measure Object.height).wf)

end System

namespace SignalSystem

variable [GValueArray VArr] [ValueCollector Arg] {x : SignalSystem VArr}

/-- In every state that clients who hold what they pass can reach, an object has references
exactly if it is in reach of what clients and emissions hold, and the arguments of every
emission are held. -/
theorem collected (reach : (clientMachine VArr Arg).ReachBy ClientHolds x) :
    (∀ o, x.sys.Alive o ↔ x.sys.InReach o) ∧
      ∀ em ∈ x.emissions, 0 < x.sys.outsideRefs (.controller em.controller) ∧
        0 < x.sys.outsideRefs (.event em.event) := by
  have ok := signalOk_of_clients reach
  refine ⟨System.alive_iff_inReach ok.books, ?_⟩
  intro em mem
  exact ⟨(onController_pos mem).trans_le (ok.controllers em.controller),
    (onEvent_pos mem).trans_le (ok.events em.event)⟩

/-- A storage that is in reach through the arguments of an emission only. -/
theorem collected_emission :
    ∃ x : SignalSystem Values, x.emissions = [⟨0, 0, .add⟩] ∧
      x.sys.outsideRefs (.storage ⟨.array, 0⟩) = 0 ∧ x.sys.outsideRefs (.event 0) = 1 ∧
      ∀ o, x.sys.Alive o ↔ x.sys.InReach o := by
  have start : (clientMachine Values Vararg).ReachBy ClientHolds ⟨System.empty, []⟩ := .start rfl
  have stored := start.step (a := .signal (.call (.newStorage ⟨.array, 0⟩)))
    (by exact ⟨rfl, trivial⟩) (by rfl)
  have controller := stored.step (a := .signal (.call (.newWith .array (some 0))))
    (by exact ⟨by rintro s ⟨⟩; decide, trivial⟩) (by rfl)
  have event := controller.step (a := .signal (.call (.createEvent 0 .add .uint (.createEventv none))))
    (by exact ⟨⟨by decide, trivial⟩, trivial⟩) (by rfl)
  have emitted := event.step (a := .signal (.emitChanged 0 0)) (by exact ⟨by decide, by decide⟩)
    (by rfl)
  have released := emitted.step (a := .signal (.call (.unrefStorage ⟨.array, 0⟩)))
    (by exact ⟨by show 0 < _; decide, trivial⟩) (by rfl)
  have dropped := released.step (a := .signal (.call (.unrefEvent 0)))
    (by exact ⟨by show 0 < _; decide, by show _ < _; decide⟩) (by rfl)
  have inner := dropped.step (a := .signal (.call (.unrefController 0)))
    (by exact ⟨by show 0 < _; decide, by show _ < _; decide⟩) (by rfl)
  exact ⟨_, rfl, rfl, rfl, (collected inner).1⟩

end SignalSystem

end GlibController

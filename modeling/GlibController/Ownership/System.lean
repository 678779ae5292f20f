import GlibController.Lib.Machine
import GlibController.Event.Contents
import GlibController.Event.LifeCycle
import GlibController.Storage.Controller

/-!
Any number of storages, controllers and events in one memory.

A `Heap` has the reference counts of the storages, and the controllers at their
addresses; releasing a controller, which an event does, is a function of the heap.
A `System` adds the events, and the references that are held `outside`: by callers,
not by controllers or events. No function reads `outside`. `CallerHolds` says that a
caller holds a reference on what it passes and on what it drops.
-/

namespace GlibController

open Lib

/-! ### The heap -/

/-- A controller in memory. -/
structure HeapController where
  kind : StorageKind
  object : GObject StoragePrivate

/-- The storages and the controllers. -/
structure Heap where
  storages : RefCounts Storage
  controllers : List HeapController

namespace Heap

/-- A function of one controller, on the controller at an address. -/
def onController (heap : Heap) (c : Nat)
    (f : StorageKind → StorageController → Except Fault StorageController) : Except Fault Heap :=
  match heap.controllers[c]? with
  | none => .error .danglingPointer
  | some x => do
      let o ← f x.kind ⟨x.object, heap.storages⟩
      return ⟨o.env, heap.controllers.set c ⟨x.kind, o.toGObject⟩⟩

def refController (c : Nat) (heap : Heap) : Except Fault Heap :=
  heap.onController c fun _ o => Slots.ref o

def unrefController (c : Nat) (heap : Heap) : Except Fault Heap :=
  heap.onController c fun kind o => kind.slots.unref o

def runDisposeController (c : Nat) (heap : Heap) : Except Fault Heap :=
  heap.onController c fun kind o => kind.slots.runDispose o

/-- A function that checks that its argument is a controller. -/
def checked (f : StorageKind → StorageController → Except Fault StorageController)
    (kind : StorageKind) (o : StorageController) : Except Fault StorageController :=
  if o.refCount = 0 then .error .danglingPointer else f kind o

def set (c : Nat) (storage : Option Nat) (heap : Heap) : Except Fault Heap :=
  heap.onController c (checked fun kind o => kind.set o storage)

def setProperty (c : Nat) (storage : Option Nat) (heap : Heap) : Except Fault Heap :=
  heap.onController c (checked fun kind o => kind.setProperty o storage)

/-- A new controller at the next address. -/
def place (heap : Heap) (kind : StorageKind) (o : StorageController) : Heap :=
  ⟨o.env, heap.controllers ++ [⟨kind, o.toGObject⟩]⟩

end Heap

/-! ### The system -/

/-- The references held by callers. -/
structure Outside where
  storages : RefCounts Storage
  controllers : RefCounts Nat
  events : RefCounts Nat

structure System (VArr : Type) where
  heap : Heap
  events : List (GObject (GControllerEvent Nat VArr))
  outside : Outside

/-- One call of the public interface, or of the interface of the storages. -/
inductive OwnershipCall (VArr Arg : Type) where
  | newStorage (storage : Storage)
  | refStorage (storage : Storage)
  | unrefStorage (storage : Storage)
  | new (kind : StorageKind)
  | newWith (kind : StorageKind) (storage : Option Nat)
  | set (c : Nat) (storage : Option Nat)
  | setProperty (c : Nat) (storage : Option Nat)
  | createEvent (c : Nat) (action : GControllerAction) (indexType : GType)
      (creation : Creation VArr Arg)
  | refController (c : Nat)
  | unrefController (c : Nat)
  | runDisposeController (c : Nat)
  | refEvent (e : Nat)
  | unrefEvent (e : Nat)
  | runDisposeEvent (e : Nat)

namespace System

variable {VArr Arg : Type} [GValueArray VArr] [ValueCollector Arg]

def empty : System VArr := ⟨⟨fun _ => 0, []⟩, [], ⟨fun _ => 0, fun _ => 0, fun _ => 0⟩⟩

/-- The class of the events of the heap's controllers. -/
def eventClass : Slots Heap (GControllerEvent Nat VArr) :=
  GControllerEvent.eventClass Heap.unrefController

/-- A function of one event, on the event at an address. -/
def onEvent (sys : System VArr) (e : Nat) (f : Slot Heap (GControllerEvent Nat VArr)) :
    Except Fault (System VArr) :=
  match sys.events[e]? with
  | none => .error .danglingPointer
  | some x => do
      let o ← f ⟨x, sys.heap⟩
      return { sys with heap := o.env, events := sys.events.set e o.toGObject }

/-- A new event, with its first reference outside. -/
def addEvent (sys : System VArr) (heap : Heap) (event : GControllerEvent Nat VArr) : System VArr where
  heap := heap
  events := sys.events ++ [⟨1, event, []⟩]
  outside := { sys.outside with events := plus sys.outside.events (some sys.events.length) }

/-- The property value holds a reference on the controller while the property is set,
and setting it takes the reference of the event. -/
def createEvent (sys : System VArr) (c : Nat) (action : GControllerAction) (indexType : GType)
    (creation : Creation VArr Arg) : Except Fault (System VArr) := do
  match ← creation.run GController.classInit c action indexType with
  | none => return sys
  | some event =>
      let heap ← sys.heap.refController c
      let heap ← heap.refController c
      let heap ← heap.unrefController c
      return sys.addEvent heap event

/-- A call that changes the heap only. -/
def onHeap (sys : System VArr) (f : Heap → Except Fault Heap) : Except Fault (System VArr) := do
  return { sys with heap := ← f sys.heap }

/-- The counts of the storages after a call on them. -/
def onStorages (sys : System VArr) (f : RefCounts Storage → Except Fault (RefCounts Storage)) :
    Except Fault (System VArr) :=
  sys.onHeap fun heap => do return { heap with storages := ← f heap.storages }

/-- The references outside, changed. -/
def withOutside (sys : System VArr) (f : Outside → Outside) : System VArr :=
  { sys with outside := f sys.outside }

/-- A new controller, with its first reference outside. -/
def placeNew (sys : System VArr) (kind : StorageKind) (o : StorageController) : System VArr where
  heap := sys.heap.place kind o
  events := sys.events
  outside := { sys.outside with
    controllers := plus sys.outside.controllers (some sys.heap.controllers.length) }

def exec (sys : System VArr) : OwnershipCall VArr Arg → Except Fault (System VArr)
  | .newStorage s => do
      let sys ← sys.onStorages fun counts => .ok (plus counts (some s))
      return sys.withOutside fun out => { out with storages := plus out.storages (some s) }
  | .refStorage s => do
      let sys ← sys.onStorages fun counts => counts.ref s
      return sys.withOutside fun out => { out with storages := plus out.storages (some s) }
  | .unrefStorage s => do
      let sys ← sys.onStorages fun counts => counts.unref s
      return sys.withOutside fun out => { out with storages := minus out.storages s }
  | .new kind => do return sys.placeNew kind (← kind.new sys.heap.storages)
  | .newWith kind storage => do
      return sys.placeNew kind (← kind.newWith sys.heap.storages storage)
  | .set c storage => sys.onHeap (Heap.set c storage)
  | .setProperty c storage => sys.onHeap (Heap.setProperty c storage)
  | .createEvent c action indexType creation => sys.createEvent c action indexType creation
  | .refController c => do
      let sys ← sys.onHeap (Heap.refController c)
      return sys.withOutside fun out => { out with controllers := plus out.controllers (some c) }
  | .unrefController c => do
      let sys ← sys.onHeap (Heap.unrefController c)
      return sys.withOutside fun out => { out with controllers := minus out.controllers c }
  | .runDisposeController c => sys.onHeap (Heap.runDisposeController c)
  | .refEvent e => do
      let sys ← sys.onEvent e Slots.ref
      return sys.withOutside fun out => { out with events := plus out.events (some e) }
  | .unrefEvent e => do
      let sys ← sys.onEvent e eventClass.unref
      return sys.withOutside fun out => { out with events := minus out.events e }
  | .runDisposeEvent e => sys.onEvent e eventClass.runDispose

/-- The caller holds a reference on every storage it passes. -/
def HoldsStorage (sys : System VArr) (kind : StorageKind) (storage : Option Nat) : Prop :=
  ∀ s, kind.at storage = some s → 0 < sys.outside.storages s

/-- The caller holds a reference on the controller, and on the storage of its kind. -/
def HoldsBoth (sys : System VArr) (c : Nat) (storage : Option Nat) : Prop :=
  0 < sys.outside.controllers c ∧
    ∀ x, sys.heap.controllers[c]? = some x → sys.HoldsStorage x.kind storage

/-- The caller holds a reference on what it passes or drops. A new storage is in
memory that is free, and a variadic creation has its arguments. -/
def CallerHolds (sys : System VArr) : OwnershipCall VArr Arg → Prop
  | .newStorage s => sys.heap.storages s = 0
  | .refStorage s => 0 < sys.outside.storages s
  | .unrefStorage s => 0 < sys.outside.storages s
  | .new _ => True
  | .newWith kind storage => sys.HoldsStorage kind storage
  | .set c storage => sys.HoldsBoth c storage
  | .setProperty c storage => sys.HoldsBoth c storage
  | .createEvent c _ _ creation => 0 < sys.outside.controllers c ∧ creation.Complete
  | .refController c => 0 < sys.outside.controllers c
  | .unrefController c => 0 < sys.outside.controllers c
  | .runDisposeController c => 0 < sys.outside.controllers c
  | .refEvent e => 0 < sys.outside.events e
  | .unrefEvent e => 0 < sys.outside.events e
  | .runDisposeEvent e => 0 < sys.outside.events e

/-- Every interleaving of calls from an empty memory. -/
def machine (VArr Arg : Type) [GValueArray VArr] [ValueCollector Arg] :
    Machine (System VArr) (OwnershipCall VArr Arg) where
  start sys := sys = empty
  step sys call sys' := sys.exec call = .ok sys'

end System

end GlibController

import GlibController.Lib.Loop
import GlibController.GLib.Value

/-!
The controller event (`gcontrollerevent.c`) and its creation (`gcontroller.c`).

`GControllerEvent` is the private structure of an event. A controller is a
pointer of a type `κ`; its class is a record with the one virtual function
`create_event`. `createEvent` reads its variadic arguments from a list.

What the object system adds to an event, its reference count and its two
destructors, is in `Event.LifeCycle`.
-/

namespace GlibController

open Lib

/-- `GControllerAction`. -/
inductive GControllerAction where
  | invalidAction
  | add
  | remove
  | update
  | clear
  | replace
  deriving DecidableEq, Repr

/-- `GControllerEventPrivate`. -/
structure GControllerEvent (κ VArr : Type) where
  controller : Option κ
  action : GControllerAction
  indexType : GType
  indices : Option VArr
  deriving DecidableEq

namespace GControllerEvent

open GValueArray

variable {κ VArr Arg : Type} [GValueArray VArr]

/-! ### Construction -/

def init : GControllerEvent κ VArr := ⟨none, .invalidAction, .invalid, none⟩

/-- One pass of the loop in `addIndices`. -/
def addIndicesPass (newIndices : VArr) (i : Guint) (curIndices : VArr) :
    Except Fault (Flow VArr Empty) := do
  let curIndices ← append curIndices (getNth newIndices i)
  return .next curIndices

/-- `add_indices`. The counter is a `gint` that the guard converts to `guint`. -/
def addIndices (curIndices newIndices : Option VArr) : Except Fault (Option VArr) :=
  match newIndices with
  | none => .ok curIndices
  | some newIndices => do
      let curIndices := curIndices.getD (new (nValues newIndices))
      match ← forBelow (fun _ => nValues newIndices) (addIndicesPass newIndices) 0 curIndices with
      | .next curIndices => return some curIndices

/-- A property of the event with the value it is set to. -/
inductive Property (κ VArr : Type) where
  | controller (controller : Option κ)
  | action (action : GControllerAction)
  | indexType (indexType : GType)
  | indices (indices : Option VArr)

/-- `g_controller_event_set_property`. The reference it takes on the controller is
counted where objects have counts. -/
def setProperty (event : GControllerEvent κ VArr) :
    Property κ VArr → Except Fault (GControllerEvent κ VArr)
  | .controller controller => .ok { event with controller }
  | .action action => .ok { event with action }
  | .indexType indexType => .ok { event with indexType }
  | .indices indices => do
      let indices ← addIndices event.indices indices
      return { event with indices }

/-- `g_object_new` with the four construct properties. The property system hands
on a copy of the boxed array. -/
def new (controller : Option κ) (action : GControllerAction) (indexType : GType)
    (indices : Option VArr) : Except Fault (GControllerEvent κ VArr) := do
  let event ← init.setProperty (.controller controller)
  let event ← event.setProperty (.action action)
  let event ← event.setProperty (.indexType indexType)
  event.setProperty (.indices (indices.map GValueArray.copy))

/-! ### Appending -/

/-- `g_controller_event_add_index_value`. -/
def addIndexValue (event : GControllerEvent κ VArr) (value : GValue) :
    Except Fault (GControllerEvent κ VArr) :=
  if value.gType ≠ event.indexType then .ok event
  else do
    let indices := event.indices.getD (GValueArray.new 0)
    let indices ← append indices (some value)
    return { event with indices := some indices }

/-- `g_controller_event_add_index`: the array is allocated before the argument is
collected, and the value is appended after. -/
def addIndex [ValueCollector Arg] (event : GControllerEvent κ VArr) (arg : Arg) :
    Except Fault (GControllerEvent κ VArr) :=
  let indices := event.indices.getD (GValueArray.new 1)
  let (value, error) := collectInit event.indexType arg
  match error with
  | some _ => .ok { event with indices := some indices }
  | none => do
      let indices ← append indices (some value)
      return { event with indices := some indices }

/-! ### Queries -/

def getNIndices (event : GControllerEvent κ VArr) : Gint :=
  match event.indices with
  | none => 0
  | some indices => (nValues indices).toInt32

def getIndexType (event : GControllerEvent κ VArr) : GType := event.indexType

def getController (event : GControllerEvent κ VArr) : Option κ := event.controller

def getAction (event : GControllerEvent κ VArr) : GControllerAction := event.action

/-- The value at a position that passed the test before every `g_value_array_get_nth`:
`index_ < 0` compares as `gint`, `index_ >= n_values` as `guint`. `none` is a position
that did not pass. -/
def nthChecked (indices : VArr) (index_ : Gint) : Except Fault (Option GValue) :=
  if index_ < 0 ∨ index_.toUInt32 ≥ nValues indices then .ok none
  else
    match getNth indices index_.toUInt32 with
    | none => .error .nullDereference
    | some value => .ok (some value)

/-- `g_controller_event_get_index_value`. `none` is the answer `FALSE`. -/
def getIndexValue (event : GControllerEvent κ VArr) (index_ : Gint) :
    Except Fault (Option GValue) :=
  match event.indices with
  | none => .ok none
  | some indices => do
      match ← nthChecked indices index_ with
      | none => return none
      | some value => return some (value.copy (GValue.init event.indexType))

/-- `g_controller_event_get_index`, with the answer and the return location. It hands
its position on without a test, so a `gint` below zero becomes a large `guint`. -/
def getIndex {Loc : Type} [ValueLocation Loc] (event : GControllerEvent κ VArr) (index_ : Gint)
    (loc : Loc) : Bool × Loc :=
  match event.indices with
  | none => (false, loc)
  | some indices =>
      match getNth indices index_.toUInt32 with
      | none => (false, loc)
      | some value =>
          let (loc, error) := ValueLocation.lcopyValue value loc
          match error with
          | some _ => (false, loc)
          | none => (true, loc)

/-- The typed accessors: they differ in the type and in the value returned when
there is no index. -/
def getIndexOf (t : GType) (absent : t.Payload) (event : GControllerEvent κ VArr) (index_ : Gint) :
    Except Fault t.Payload :=
  if event.indexType ≠ t then .ok absent
  else
    match event.indices with
    | none => .ok absent
    | some indices => do
        match ← nthChecked indices index_ with
        | none => return absent
        | some value => value.get t

def getIndexInt (event : GControllerEvent κ VArr) (index_ : Gint) : Except Fault Gint :=
  event.getIndexOf .int 0 index_

def getIndexUint (event : GControllerEvent κ VArr) (index_ : Gint) : Except Fault Guint :=
  event.getIndexOf .uint 0 index_

def getIndexString (event : GControllerEvent κ VArr) (index_ : Gint) :
    Except Fault (Option String) :=
  event.getIndexOf .string none index_

/-- The pointer 0 is `NULL`. -/
def getIndexPointer (event : GControllerEvent κ VArr) (index_ : Gint) : Except Fault Nat :=
  event.getIndexOf .pointer 0 index_

end GControllerEvent

/-! ### Controllers as creators of events -/

/-- `GControllerClass`, as far as events go. -/
structure GControllerClass (κ VArr : Type) where
  createEvent : κ → GControllerAction → GType → Option VArr →
    Except Fault (GControllerEvent κ VArr)

namespace GController

open GValueArray

variable {κ VArr Arg : Type} [GValueArray VArr]

/-- The function `create_event` of `gcontroller.c`. -/
def defaultCreateEvent (controller : κ) (action : GControllerAction) (indexType : GType)
    (indices : Option VArr) : Except Fault (GControllerEvent κ VArr) :=
  if indexType = .invalid then .error .assertionFailed
  else GControllerEvent.new (some controller) action indexType indices

/-- `g_controller_class_init`. -/
def classInit : GControllerClass κ VArr := ⟨defaultCreateEvent⟩

def createEventInternal (klass : GControllerClass κ VArr) (controller : κ)
    (action : GControllerAction) (indexType : GType) (indices : Option VArr) :
    Except Fault (Option (GControllerEvent κ VArr)) := do
  return some (← klass.createEvent controller action indexType indices)

/-- `g_controller_create_eventv`. `none` is a `NULL` event. -/
def createEventv (klass : GControllerClass κ VArr) (controller : κ) (action : GControllerAction)
    (indexType : GType) (indices : Option VArr) :
    Except Fault (Option (GControllerEvent κ VArr)) :=
  if indexType = .invalid then .ok none
  else createEventInternal klass controller action indexType indices

/-- The number of passes of `for (i = 0; i < n; i++)` over `gint`. -/
def passes (n : Gint) : Guint := if n < 0 then 0 else n.toUInt32

/-- One pass of the collection loop: the array and the arguments not yet read. The
slot is inserted before the argument is collected into it; an error leaves the loop. -/
def collectPass [ValueCollector Arg] (indexType : GType) (i : Guint) (s : VArr × List Arg) :
    Except Fault (Flow (VArr × List Arg) VArr) := do
  let indices ← insert s.1 i none
  match s.2 with
  | [] => throw .missingArgument
  | arg :: args =>
      let (value, error) := collectInit indexType arg
      let indices := store indices i value
      match error with
      | some _ => return .done indices
      | none => return .next (indices, args)

/-- The array that `createEvent` collects its arguments into. -/
def collectIndices [ValueCollector Arg] (indexType : GType) (nIndices : Gint) (args : List Arg) :
    Except Fault VArr := do
  match ← forBelow (fun _ => passes nIndices) (collectPass indexType) 0
      (new nIndices.toUInt32, args) with
  | .next (indices, _) => return indices
  | .done indices => return indices

/-- `g_controller_create_event`. -/
def createEvent [ValueCollector Arg] (klass : GControllerClass κ VArr) (controller : κ)
    (action : GControllerAction) (indexType : GType) (nIndices : Gint) (args : List Arg) :
    Except Fault (Option (GControllerEvent κ VArr)) :=
  if indexType = .invalid then .ok none
  else if nIndices = 0 then createEventInternal klass controller action indexType none
  else do
    let indices ← collectIndices indexType nIndices args
    createEventInternal klass controller action indexType (some indices)

end GController

/-! ### Whole histories of an event -/

/-- A call that creates an event, with the arguments that list its indices. -/
inductive Creation (VArr Arg : Type) where
  | createEvent (nIndices : Gint) (args : List Arg)
  | createEventv (indices : Option VArr)

/-- A call that appends to an event. -/
inductive Addition (Arg : Type) where
  | addIndex (arg : Arg)
  | addIndexValue (value : GValue)

section History

variable {κ VArr Arg : Type} [GValueArray VArr] [ValueCollector Arg]

def Creation.run (klass : GControllerClass κ VArr) (controller : κ) (action : GControllerAction)
    (indexType : GType) : Creation VArr Arg → Except Fault (Option (GControllerEvent κ VArr))
  | .createEvent nIndices args =>
      GController.createEvent klass controller action indexType nIndices args
  | .createEventv indices => GController.createEventv klass controller action indexType indices

def Addition.run (event : GControllerEvent κ VArr) :
    Addition Arg → Except Fault (GControllerEvent κ VArr)
  | .addIndex arg => event.addIndex arg
  | .addIndexValue value => event.addIndexValue value

/-- The additions, in order. -/
def addAll (event : GControllerEvent κ VArr) :
    List (Addition Arg) → Except Fault (GControllerEvent κ VArr)
  | [] => .ok event
  | call :: calls => do addAll (← call.run event) calls

/-- An event is created and then appended to. A `NULL` event takes no additions. -/
def build (klass : GControllerClass κ VArr) (controller : κ) (action : GControllerAction)
    (indexType : GType) (creation : Creation VArr Arg) (calls : List (Addition Arg)) :
    Except Fault (Option (GControllerEvent κ VArr)) := do
  match ← creation.run klass controller action indexType with
  | none => return none
  | some event => return some (← addAll event calls)

end History

end GlibController

import GlibController.Ownership.Emission
import GlibController.GLib.PtrArray

/-!
The program `examples/simple-model.c`: a list of texts that reports its changes
through a controller, and a user that prints what is reported.

`Application` is the memory of the program. A pointer array is a storage of the system,
and its contents are in `arrays`; the memory of the strings themselves is not modelled.
`MySimpleModel` is the model object in this memory. Its member `array` is a pointer on
which it holds no reference. The handler `onModelChanged` runs inside every emission.
-/

namespace GlibController

open Lib

/-- A line that `on_model_changed` prints. -/
inductive Printed where
  | added (text : String) (idx : Gint)
  | removed (text : String) (idx : Gint)
  | cleared
  deriving DecidableEq, Repr

structure Application (VArr PArr : Type) where
  sys : System VArr
  arrays : Nat → PArr
  freshArray : Nat
  printed : List Printed

/-- The members of a `MySimpleModel`. -/
structure SimpleModelMembers where
  controller : Option Nat
  array : Option Nat
  deriving DecidableEq, Repr

abbrev MySimpleModel (VArr PArr : Type) := Instance (Application VArr PArr) SimpleModelMembers

namespace Application

variable {VArr PArr : Type}

def empty [GPtrArray PArr] : Application VArr PArr :=
  ⟨System.empty, fun _ => GPtrArray.new, 0, []⟩

def print (app : Application VArr PArr) (line : Printed) : Application VArr PArr :=
  { app with printed := app.printed ++ [line] }

/-! ### Pointer arrays -/

/-- The array behind a pointer. -/
def derefArray (app : Application VArr PArr) (array : Option Nat) : Except Fault PArr :=
  match array with
  | none => .error .nullDereference
  | some p =>
      if app.sys.heap.storages ⟨.ptrArray, p⟩ = 0 then .error .danglingPointer
      else .ok (app.arrays p)

def writeArray (app : Application VArr PArr) (array : Option Nat) (arr : PArr) :
    Application VArr PArr :=
  match array with
  | none => app
  | some p => { app with arrays := Function.update app.arrays p arr }

variable [GPtrArray PArr]

/-- `g_ptr_array_add`. -/
def arrayAdd (app : Application VArr PArr) (array : Option Nat) (text : String) :
    Except Fault (Application VArr PArr) := do
  return app.writeArray array (← GPtrArray.add (← app.derefArray array) text)

/-- `g_ptr_array_remove_index`. -/
def arrayRemoveIndex (app : Application VArr PArr) (array : Option Nat) (i : Guint) :
    Except Fault (Application VArr PArr) := do
  return app.writeArray array (GPtrArray.removeIndex (← app.derefArray array) i)

/-! ### The library -/

variable [GValueArray VArr]

/-- A call of the library. -/
def call (app : Application VArr PArr) (c : OwnershipCall VArr Vararg) :
    Except Fault (Application VArr PArr) := do
  return { app with sys := ← app.sys.exec c }

/-- `g_ptr_array_new`, at the next address. -/
def newArray (app : Application VArr PArr) : Except Fault (Application VArr PArr) := do
  let app ← app.call (.newStorage ⟨.ptrArray, app.freshArray⟩)
  return { app with
    arrays := Function.update app.arrays app.freshArray GPtrArray.new
    freshArray := app.freshArray + 1 }

/-! ### The user -/

/-- `my_simple_model_get_text`. -/
def getText (app : Application VArr PArr) (model : SimpleModelMembers) (pos : Gint) :
    Except Fault String := do
  GPtrArray.index (← app.derefArray model.array) pos

/-- One pass of the loops in `onModelChanged`. -/
def printPass (model : SimpleModelMembers) (event : GControllerEvent Nat VArr)
    (line : String → Gint → Printed) (i : Guint) (app : Application VArr PArr) :
    Except Fault (Flow (Application VArr PArr) Empty) := do
  let idx := (← event.getIndexUint i.toInt32).toInt32
  let text ← app.getText model idx
  return .next (app.print (line text idx))

def printTexts (app : Application VArr PArr) (model : SimpleModelMembers)
    (event : GControllerEvent Nat VArr) (line : String → Gint → Printed) :
    Except Fault (Application VArr PArr) := do
  match ← forBelow (fun _ => GController.passes event.getNIndices) (printPass model event line) 0
      app with
  | .next app => return app

/-- `on_model_changed`, with the arguments of the signal and the model as its data. -/
def onModelChanged (app : Application VArr PArr) (model : SimpleModelMembers) (em : Emission) :
    Except Fault (Application VArr PArr) := do
  let event ← app.sys.eventAt em.event
  match em.action with
  | .add => app.printTexts model event .added
  | .remove => app.printTexts model event .removed
  | .clear => return app.print .cleared
  | _ => return app

/-! ### Reports -/

/-- `g_controller_emit_changed`, with the user connected. -/
def emitChanged (app : Application VArr PArr) (model : SimpleModelMembers) (c e : Nat) :
    Except Fault (Application VArr PArr) := do
  let (sys, em) ← app.sys.beginEmission c e
  let app ← { app with sys }.onModelChanged model em
  return { app with sys := ← app.sys.finishEmission em }

/-- The calls `g_controller_create_event` and `g_controller_emit_changed` of the functions
of the model, with the event. Both return at their guards if the controller is `NULL`. -/
def report (app : Application VArr PArr) (model : SimpleModelMembers) (action : GControllerAction)
    (indices : List Guint) : Except Fault (Application VArr PArr × Option Nat) :=
  match model.controller with
  | none => .ok (app, none)
  | some c => do
      let ref := app.sys.events.length
      let app ← app.call (.createEvent c action .uint
        (.createEvent (Int32.ofNat indices.length) (indices.map .word)))
      let app ← app.emitChanged model c ref
      return (app, some ref)

/-- `g_object_unref` on an event, which returns at its guard if that is `NULL`. -/
def unrefEvent (app : Application VArr PArr) (ref : Option Nat) :
    Except Fault (Application VArr PArr) :=
  match ref with
  | none => .ok app
  | some e => app.call (.unrefEvent e)

/-- `g_object_unref` on a controller. -/
def unrefController (app : Application VArr PArr) (controller : Option Nat) :
    Except Fault (Application VArr PArr) :=
  match controller with
  | none => .ok app
  | some c => app.call (.unrefController c)

/-- `g_ptr_array_controller_set_array`. -/
def setArray (app : Application VArr PArr) (controller : Option Nat) (array : Nat) :
    Except Fault (Application VArr PArr) :=
  match controller with
  | none => .ok app
  | some c => app.call (.set c (some array))

end Application

namespace MySimpleModel

open Application

variable {VArr PArr : Type} [GValueArray VArr] [GPtrArray PArr]

/-- `my_simple_model_init`: the controller keeps the only reference on the array. -/
def init (app : Application VArr PArr) : Except Fault (MySimpleModel VArr PArr) := do
  let array := app.freshArray
  let app ← app.newArray
  let controller := app.sys.heap.controllers.length
  let app ← app.call (.newWith .ptrArray (some array))
  let app ← app.call (.unrefStorage ⟨.ptrArray, array⟩)
  return ⟨⟨1, ⟨some controller, some array⟩, []⟩, app⟩

/-- `my_simple_model_dispose`. -/
def dispose (parent : Slots (Application VArr PArr) SimpleModelMembers)
    (o : MySimpleModel VArr PArr) : Except Fault (MySimpleModel VArr PArr) :=
  match o.priv.controller with
  | none => parent.dispose o
  | some c => do
      let env ← o.env.call (.unrefController c)
      parent.dispose { o with priv := { o.priv with controller := none }, env }

/-- `my_simple_model_class_init`. -/
def classInit (parent klass : Slots (Application VArr PArr) SimpleModelMembers) :
    Slots (Application VArr PArr) SimpleModelMembers :=
  { klass with dispose := dispose parent }

def slots : Slots (Application VArr PArr) SimpleModelMembers := defineType objectClass classInit

/-! ### Changes -/

/-- `my_simple_model_add_text`, which returns at its guard for `NULL` and for the empty text. -/
def addText (o : MySimpleModel VArr PArr) (text : Option String) :
    Except Fault (MySimpleModel VArr PArr) :=
  match text with
  | none => .ok o
  | some text =>
      if text = "" then .ok o
      else do
        let app ← o.env.arrayAdd o.priv.array text
        let array ← app.derefArray o.priv.array
        let (app, ref) ← app.report o.priv .add [GPtrArray.len array - 1]
        let app ← app.unrefEvent ref
        return { o with env := app }

/-- One pass of the loop in `removeText`. -/
def findPass (array : PArr) (text : String) (i : Guint) (_ : Unit) :
    Except Fault (Flow Unit Gint) := do
  let here ← GPtrArray.index array i.toInt32
  if here = text then return .done i.toInt32 else return .next ()

/-- `my_simple_model_remove_text`, with the same guard. The reference that it drops last
is one on the controller, not that on the event. -/
def removeText (o : MySimpleModel VArr PArr) (text : Option String) :
    Except Fault (MySimpleModel VArr PArr) :=
  match text with
  | none => .ok o
  | some text =>
      if text = "" then .ok o
      else do
        let array ← o.env.derefArray o.priv.array
        match ← forBelow (fun _ => GPtrArray.len array) (findPass array text) 0 () with
        | .next () => return o
        | .done pos =>
            let (app, _) ← o.env.report o.priv .remove [pos.toUInt32]
            let app ← app.unrefController o.priv.controller
            let app ← app.arrayRemoveIndex o.priv.array pos.toUInt32
            return { o with env := app }

/-- The loop of `setItems` once it is entered. Its condition never changes, so it ends when
it reads behind the strings that were passed. -/
def fill (array i : Nat) : List String → Application VArr PArr →
    Except Fault (Application VArr PArr)
  | [], _ => .error (.outOfBounds i i)
  | text :: rest, app => do
      let app ← app.arrayAdd (some array) text
      fill array (i + 1) rest app

/-- `my_simple_model_set_items`. The member `array` stays as it is. -/
def setItems (o : MySimpleModel VArr PArr) (nStrings : Gint) (text : List String) :
    Except Fault (MySimpleModel VArr PArr) := do
  let array := o.env.freshArray
  let app ← o.env.newArray
  let app ← if nStrings = 0 then .ok app else fill array 0 text app
  let app ← app.setArray o.priv.controller array
  let (app, ref) ← app.report o.priv .replace []
  let app ← app.unrefEvent ref
  return { o with env := app }

/-- `my_simple_model_clear`. -/
def clear (o : MySimpleModel VArr PArr) : Except Fault (MySimpleModel VArr PArr) := do
  let array := o.env.freshArray
  let app ← o.env.newArray
  let app ← app.setArray o.priv.controller array
  let members : SimpleModelMembers := { o.priv with array := some array }
  let (app, ref) ← app.report members .clear []
  let app ← app.unrefEvent ref
  return { o with priv := members, env := app }

/-! ### Queries -/

/-- `my_simple_model_get_text`. -/
def getText (o : MySimpleModel VArr PArr) (pos : Gint) : Except Fault String :=
  o.env.getText o.priv pos

/-- `my_simple_model_get_items`, with the strings that it points at. -/
def getItems (o : MySimpleModel VArr PArr) : Except Fault (List String) := do
  return GPtrArray.strings (← o.env.derefArray o.priv.array)

/-- `my_simple_model_get_size`. -/
def getSize (o : MySimpleModel VArr PArr) : Except Fault Gint := do
  return (GPtrArray.len (← o.env.derefArray o.priv.array)).toInt32

end MySimpleModel

/-! ### Runs -/

/-- A call that changes the model. -/
inductive SimpleModelCall where
  | addText (text : Option String)
  | removeText (text : Option String)
  | setItems (nStrings : Gint) (text : List String)
  | clear
  deriving DecidableEq, Repr

namespace MySimpleModel

variable {VArr PArr : Type} [GValueArray VArr] [GPtrArray PArr]

def exec (o : MySimpleModel VArr PArr) : SimpleModelCall → Except Fault (MySimpleModel VArr PArr)
  | .addText text => o.addText text
  | .removeText text => o.removeText text
  | .setItems nStrings text => o.setItems nStrings text
  | .clear => o.clear

/-- The call, if it does not go wrong. -/
def step (o : MySimpleModel VArr PArr) (c : SimpleModelCall) : Option (MySimpleModel VArr PArr) :=
  (o.exec c).toOption

end MySimpleModel

end GlibController

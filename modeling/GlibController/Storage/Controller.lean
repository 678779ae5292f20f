import GlibController.GLib.Object

/-!
The three storage controllers (`garraycontroller.c`, `gptrarraycontroller.c`,
`ghashcontroller.c`).

Each keeps one pointer to a storage of its kind and holds a reference on it. The
functions are the same but for the kind, so `StorageController` defines each of
them once, and the definitions under the names of the sources apply it. The class
initialisers differ: `GPtrArrayController.classInit` puts its `dispose` function in
the `finalize` slot.

The surroundings of a controller are the reference counts of all storages.
-/

namespace GlibController

open Lib

/-- `GArray`, `GPtrArray` and `GHashTable`. -/
inductive StorageKind where
  | array
  | ptrArray
  | hash
  deriving DecidableEq, Repr

/-- A storage: its kind and its address. -/
structure Storage where
  kind : StorageKind
  addr : Nat
  deriving DecidableEq, Repr

/-- A pointer to a storage of a kind. -/
def StorageKind.at (kind : StorageKind) (addr : Option Nat) : Option Storage :=
  addr.map (Storage.mk kind)

@[simp] theorem StorageKind.at_none (kind : StorageKind) : kind.at none = none := rfl

@[simp] theorem StorageKind.at_some (kind : StorageKind) (addr : Nat) :
    kind.at (some addr) = some ⟨kind, addr⟩ := rfl

theorem StorageKind.at_injective (kind : StorageKind) {p q : Option Nat}
    (h : kind.at p = kind.at q) : p = q := by
  refine Option.map_injective ?_ h
  intro a b same
  cases same
  rfl

/-- The private structures: the member `array` or `hash`. -/
structure StoragePrivate where
  storage : Option Nat
  deriving DecidableEq, Repr

/-- A controller within the reference counts of the storages. -/
abbrev StorageController := Instance (RefCounts Storage) StoragePrivate

/-- The virtual functions of a storage controller. -/
abbrev StorageSlots := Slots (RefCounts Storage) StoragePrivate

namespace StorageController

/-- `if (priv->array != NULL)` and its block. -/
def releaseStorage (kind : StorageKind) (o : StorageController) : Except Fault StorageController :=
  match o.priv.storage with
  | none => .ok o
  | some addr => do
      let env ← o.env.unref ⟨kind, addr⟩
      let released : StorageController := { o with priv := ⟨none⟩, env }
      return released.mark .release

def dispose (kind : StorageKind) (parent : StorageSlots) (o : StorageController) :
    Except Fault StorageController := do
  let o ← releaseStorage kind (o.mark .dispose)
  parent.dispose o

/-- The setter releases the old storage before it takes the new one. -/
def setStorage (kind : StorageKind) (o : StorageController) (storage : Option Nat) :
    Except Fault StorageController :=
  if o.priv.storage = storage then .ok o
  else do
    let env ← o.env.unrefPtr (kind.at o.priv.storage)
    let env ← env.refPtr (kind.at storage)
    let stored : StorageController := { o with priv := ⟨storage⟩, env }
    return stored.mark .notify

def getStorage (o : StorageController) : Option Nat := o.priv.storage

/-- The property path: the boxed value holds a reference while the setter runs. -/
def setProperty (kind : StorageKind) (o : StorageController) (storage : Option Nat) :
    Except Fault StorageController := do
  let env ← o.env.refPtr (kind.at storage)
  let o ← setStorage kind { o with env } storage
  let env ← o.env.unrefPtr (kind.at storage)
  return { o with env }

/-- The object before its properties are set. -/
def init (env : RefCounts Storage) : StorageController := ⟨⟨1, ⟨none⟩, []⟩, env⟩

/-- The property path of the getter: the boxed value takes a reference, for whoever reads. -/
def getProperty (kind : StorageKind) (o : StorageController) :
    Except Fault (RefCounts Storage × Option Nat) := do
  let env ← o.env.refPtr (kind.at o.priv.storage)
  return (env, o.priv.storage)

/-- `g_object_new` with the construct property, which is `NULL` when it is not given. -/
def newWith (kind : StorageKind) (env : RefCounts Storage) (storage : Option Nat) :
    Except Fault StorageController :=
  setProperty kind (init env) storage

end StorageController

open StorageController

/-- `G_DEFINE_ABSTRACT_TYPE (GController, g_controller, G_TYPE_OBJECT)`: its class
initialiser sets no destructor. -/
def GController.slots : StorageSlots := defineType objectClass fun _ klass => klass

namespace GArrayController

def dispose := StorageController.dispose .array

def classInit (parent klass : StorageSlots) : StorageSlots :=
  { klass with dispose := dispose parent }

def setArray := setStorage .array

def getArray := getStorage

def setProperty := StorageController.setProperty .array

def getProperty := StorageController.getProperty .array

def newWithArray := newWith .array

def new (env : RefCounts Storage) := newWith .array env none

end GArrayController

namespace GPtrArrayController

def dispose := StorageController.dispose .ptrArray

/-- The `finalize` slot, not the `dispose` slot. -/
def classInit (parent klass : StorageSlots) : StorageSlots :=
  { klass with finalize := dispose parent }

def setArray := setStorage .ptrArray

def getArray := getStorage

def setProperty := StorageController.setProperty .ptrArray

def getProperty := StorageController.getProperty .ptrArray

def newWithArray := newWith .ptrArray

def new (env : RefCounts Storage) := newWith .ptrArray env none

end GPtrArrayController

namespace GHashController

def dispose := StorageController.dispose .hash

def classInit (parent klass : StorageSlots) : StorageSlots :=
  { klass with dispose := dispose parent }

def setHash := setStorage .hash

def getHash := getStorage

def setProperty := StorageController.setProperty .hash

def getProperty := StorageController.getProperty .hash

def newWithHash := newWith .hash

def new (env : RefCounts Storage) := newWith .hash env none

end GHashController

/-! ### The members of a kind -/

namespace StorageKind

def slots : StorageKind → StorageSlots
  | array => defineType GController.slots GArrayController.classInit
  | ptrArray => defineType GController.slots GPtrArrayController.classInit
  | hash => defineType GController.slots GHashController.classInit

def set : StorageKind → StorageController → Option Nat → Except Fault StorageController
  | array => GArrayController.setArray
  | ptrArray => GPtrArrayController.setArray
  | hash => GHashController.setHash

def get : StorageKind → StorageController → Option Nat
  | array => GArrayController.getArray
  | ptrArray => GPtrArrayController.getArray
  | hash => GHashController.getHash

def setProperty : StorageKind → StorageController → Option Nat → Except Fault StorageController
  | array => GArrayController.setProperty
  | ptrArray => GPtrArrayController.setProperty
  | hash => GHashController.setProperty

def getProperty : StorageKind → StorageController → Except Fault (RefCounts Storage × Option Nat)
  | array => GArrayController.getProperty
  | ptrArray => GPtrArrayController.getProperty
  | hash => GHashController.getProperty

def new : StorageKind → RefCounts Storage → Except Fault StorageController
  | array => GArrayController.new
  | ptrArray => GPtrArrayController.new
  | hash => GHashController.new

def newWith : StorageKind → RefCounts Storage → Option Nat → Except Fault StorageController
  | array => GArrayController.newWithArray
  | ptrArray => GPtrArrayController.newWithArray
  | hash => GHashController.newWithHash

theorem set_eq (kind : StorageKind) : kind.set = setStorage kind := by cases kind <;> rfl

theorem get_eq (kind : StorageKind) : kind.get = getStorage := by cases kind <;> rfl

theorem setProperty_eq (kind : StorageKind) : kind.setProperty = StorageController.setProperty kind := by
  cases kind <;> rfl

theorem getProperty_eq (kind : StorageKind) : kind.getProperty = StorageController.getProperty kind := by
  cases kind <;> rfl

theorem new_eq (kind : StorageKind) (env : RefCounts Storage) :
    kind.new env = StorageController.newWith kind env none := by
  cases kind <;> rfl

theorem newWith_eq (kind : StorageKind) : kind.newWith = StorageController.newWith kind := by
  cases kind <;> rfl

end StorageKind

end GlibController

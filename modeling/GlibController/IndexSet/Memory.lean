import GlibController.IndexSet.Model
import GlibController.Lib.Machine

/-!
Index sets as they lie in memory: a set has a pointer to its array.

`Store` gives every set an array of its own. Here arrays have addresses, and the
functions go through the pointer `set->indices` whenever they read or write, as the
sources do. Nothing in the definitions keeps two sets from pointing at one array, or a
pointer from pointing at an array that was freed; that the functions keep these apart is
proved in `IndexSet.Refinement`.
-/

namespace GlibController

open Lib

/-- `GIndexSet`, with the address of its array. -/
structure SetObject where
  refCount : Gint
  indices : Option Nat
  deriving DecidableEq, Repr

/-- The sets and the arrays at their addresses, and the first addresses that nothing was
allocated at. -/
structure Memory (Arr : Type) where
  sets : Nat → Option SetObject
  arrays : Nat → Option Arr
  freshSet : Nat
  freshArray : Nat

namespace Memory

open GArray

section Pointers

variable {Arr : Type}

def empty : Memory Arr := ⟨fun _ => none, fun _ => none, 0, 0⟩

/-! ### Pointers -/

def derefSet (mem : Memory Arr) (a : Nat) : Except Fault SetObject :=
  match mem.sets a with
  | none => .error .danglingPointer
  | some set => .ok set

def derefArray (mem : Memory Arr) (p : Nat) : Except Fault Arr :=
  match mem.arrays p with
  | none => .error .danglingPointer
  | some arr => .ok arr

def writeSet (mem : Memory Arr) (a : Nat) (set : SetObject) : Memory Arr :=
  { mem with sets := Function.update mem.sets a (some set) }

def writeArray (mem : Memory Arr) (p : Nat) (arr : Arr) : Memory Arr :=
  { mem with arrays := Function.update mem.arrays p (some arr) }

@[simp] theorem writeSet_sets (mem : Memory Arr) (a : Nat) (set : SetObject) :
    (mem.writeSet a set).sets = Function.update mem.sets a (some set) := rfl

@[simp] theorem writeSet_arrays (mem : Memory Arr) (a : Nat) (set : SetObject) :
    (mem.writeSet a set).arrays = mem.arrays := rfl

@[simp] theorem writeArray_sets (mem : Memory Arr) (p : Nat) (arr : Arr) :
    (mem.writeArray p arr).sets = mem.sets := rfl

@[simp] theorem writeArray_arrays (mem : Memory Arr) (p : Nat) (arr : Arr) :
    (mem.writeArray p arr).arrays = Function.update mem.arrays p (some arr) := rfl

/-- `a->indices`, about to be read through. -/
def indicesAt (mem : Memory Arr) (a : Nat) : Except Fault Nat := do
  match (← mem.derefSet a).indices with
  | none => .error .nullDereference
  | some p => return p

/-- The array behind `a->indices`. -/
def arrayAt (mem : Memory Arr) (a : Nat) : Except Fault Arr := do
  mem.derefArray (← mem.indicesAt a)

end Pointers

variable {Arr : Type} [GArray Arr]

/-- `a->indices = g_array_new (FALSE, FALSE, sizeof (guint))`. -/
def newIndices (mem : Memory Arr) (a : Nat) (set : SetObject) : Memory Arr :=
  let stored := mem.writeSet a { set with indices := some mem.freshArray }
  { stored.writeArray mem.freshArray new with freshArray := mem.freshArray + 1 }

/-- `g_array_insert_val (a->indices, i, x)`. -/
def insertAt (mem : Memory Arr) (a : Nat) (i x : Guint) : Except Fault (Memory Arr) := do
  let p ← mem.indicesAt a
  let arr ← mem.derefArray p
  return mem.writeArray p (← insertVal arr i x)

/-! ### Initialisers -/

/-- The opening lines of the initialisers: a new array, or the old one resized. -/
def openAt (mem : Memory Arr) (a : Nat) (size : Guint) : Except Fault (Memory Arr) := do
  let set ← mem.derefSet a
  match set.indices with
  | none => return mem.newIndices a set
  | some p => return mem.writeArray p (setSize (← mem.derefArray p) size)

def initAt (mem : Memory Arr) (a : Nat) : Except Fault (Memory Arr) := mem.openAt a 0

def initWithIndexAt (mem : Memory Arr) (a : Nat) (index_ : Guint) : Except Fault (Memory Arr) := do
  let mem ← mem.openAt a 0
  mem.insertAt a 0 index_

/-- One pass of the loop in `initWithRangeAt`. -/
def rangePassAt (a : Nat) (range : GRange) (i : Guint) (mem : Memory Arr) :
    Except Fault (Flow (Memory Arr) Empty) := do
  let mem ← mem.insertAt a (i - range.location) i
  return .next mem

def initWithRangeAt (mem : Memory Arr) (a : Nat) (range : GRange) : Except Fault (Memory Arr) := do
  let mem ← mem.openAt a range.length
  match ← forBelow (fun _ => range.length) (rangePassAt a range) range.location mem with
  | .next mem => return mem

/-- `source->indices->len`, read before every pass. The pointers are good once the loop
is entered. -/
def sourceLen (source : Nat) (mem : Memory Arr) : Guint :=
  match mem.arrayAt source with
  | .ok arr => len arr
  | .error _ => 0

/-- One pass of the loop in `initWithSetAt`. -/
def copyPassAt (a source : Nat) (i : Guint) (mem : Memory Arr) :
    Except Fault (Flow (Memory Arr) Empty) := do
  let idx ← index (← mem.arrayAt source) i
  let mem ← mem.insertAt a i idx
  return .next mem

def initWithSetAt (mem : Memory Arr) (a source : Nat) : Except Fault (Memory Arr) := do
  let mem ← mem.openAt a 0
  match (← mem.derefSet source).indices with
  | none => return mem
  | some _ =>
      match ← forBelow (sourceLen source) (copyPassAt a source) 0 mem with
      | .next mem => return mem

/-! ### References -/

def alloc (mem : Memory Arr) : Memory Arr :=
  { (mem.writeSet mem.freshSet ⟨1, none⟩) with freshSet := mem.freshSet + 1 }

/-- `g_atomic_int_inc (&a->ref_count)`, which wraps. -/
def refAt (mem : Memory Arr) (a : Nat) : Except Fault (Memory Arr) := do
  let set ← mem.derefSet a
  return mem.writeSet a { set with refCount := set.refCount + 1 }

/-- The reference that brings the count to zero frees the array, if there is one, and
the set. -/
def unrefAt (mem : Memory Arr) (a : Nat) : Except Fault (Memory Arr) := do
  let set ← mem.derefSet a
  if set.refCount = 1 then
    let sets := Function.update mem.sets a none
    match set.indices with
    | none => return { mem with sets }
    | some p => return { mem with sets, arrays := Function.update mem.arrays p none }
  else return mem.writeSet a { set with refCount := set.refCount - 1 }

/-! ### Calls -/

/-- A function called through a pointer that is checked against `NULL` and returned. -/
def through (mem : Memory Arr) (set : SetPtr) (f : Nat → Except Fault (Memory Arr)) :
    Except Fault (Memory Arr × SetPtr) :=
  match set with
  | none => .ok (mem, none)
  | some a => do
      let mem ← f a
      return (mem, some a)

/-- The call, with the pointer it returns. -/
def exec (mem : Memory Arr) : Store.Call → Except Fault (Memory Arr × SetPtr)
  | .alloc => .ok (mem.alloc, some mem.freshSet)
  | .ref set => mem.through set mem.refAt
  | .unref set =>
      match set with
      | none => .ok (mem, none)
      | some a => do
          let mem ← mem.unrefAt a
          return (mem, none)
  | .init set => mem.through set mem.initAt
  | .initWithIndex set index_ => mem.through set fun a => mem.initWithIndexAt a index_
  | .initWithRange set range =>
      match range with
      | none => .ok (mem, set)
      | some r => mem.through set fun a => mem.initWithRangeAt a r
  | .initWithSet set source =>
      match source with
      | none => .ok (mem, set)
      | some b => mem.through set fun a => mem.initWithSetAt a b

/-- Runs of calls from the empty memory. -/
def machine (Arr : Type) [GArray Arr] : Machine (Memory Arr) Store.Call where
  start mem := mem = empty
  step mem c mem' := ∃ p, mem.exec c = .ok (mem', p)

end Memory

end GlibController
